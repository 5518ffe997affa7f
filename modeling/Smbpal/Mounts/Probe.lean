import Mathlib.Algebra.Order.Ring.Rat
import Mathlib.Data.Finset.Basic
import Smbpal.Lib.Dict
import Smbpal.Lib.Run
import Smbpal.Python.Text

/-!
# Probing a Mountpoint

`MountProbe.reachable` in `mounts/probe.py`, with any number of callers and of the threads they
start. A caller takes the lock once, and a thread takes it once when its `stat` is over; between
the two anything may happen in any order, and a `stat` may never return.

A mountpoint is marked in flight by the caller that is about to start a thread and is freed by
the thread. So a mark is always somebody's: a caller's that has not started its thread yet, a
thread's, or that of a caller whose thread could not be started. The three together are the mark
(`MarkCounts`), which is why there are never two, and why a mark that nobody will take away is
there exactly when a thread could not be started.

## Main definitions

* `MountProbe`: The cache, the marks, the callers and the threads.
* `MountProbe.look`: What a caller finds under the lock.
* `ProbeStep`: What may happen.
* `MarkCounts`: Whose the marks are.
* `OneStat`, `Truthful`, `FreesMark`: What probing is to keep.

## Theorems

* `ProbeStep.markCounts`: A step keeps the count.
* `ProbeStep.thread_kept`: A thread stays what it is, and so does what its `stat` came to.
* `frees_iff`: When a mountpoint nobody probes is probed again.
* `probing_safe_iff`: What holds in every run, and what exactly where no thread fails to start.
-/

namespace Smbpal

open Lib

/-- A result that is kept, and when it was. -/
structure Reachability where
  value : Option Bool
  checkedAt : Rat
  deriving DecidableEq

/-- How far a caller has come. -/
inductive AskPoint where
  /-- It has read the time. -/
  | entered (now : Rat)
  /-- It has marked the mountpoint and has no thread yet. -/
  | claimed
  /-- It waits for this thread. -/
  | waiting (thread : Nat)
  /-- Its thread could not be started. -/
  | raised
  | returned (value : Option Bool)
  deriving DecidableEq

/-- Whether there is a mark that is the caller's. -/
def AskPoint.holdsMark : AskPoint → Bool
  | .claimed | .raised => true
  | _ => false

/-- A call of `reachable`. -/
structure ProbeCaller where
  mountpoint : Str
  point : AskPoint
  deriving DecidableEq

/-- How far a thread has come in `check`. The value is none when `stat` raised something that is
    no `OSError`. -/
inductive CheckPoint where
  | stating
  | ended (value : Option Bool)
  /-- `done` is set. -/
  | signalled (value : Option Bool)
  /-- The mountpoint is free, and the value is kept. -/
  | freed (value : Option Bool)
  deriving DecidableEq

/-- A thread that runs `check`. -/
structure ProbeThread where
  mountpoint : Str
  point : CheckPoint
  deriving DecidableEq

/-- `outcome.get("value")`. -/
def CheckPoint.outcome : CheckPoint → Option Bool
  | .stating => none
  | .ended value | .signalled value | .freed value => value

/-- What `done.wait` lets a caller return, once it is set. -/
def CheckPoint.answer : CheckPoint → Option (Option Bool)
  | .stating | .ended _ => none
  | .signalled value | .freed value => some value

/-- Whether the mountpoint is no longer the thread's. -/
def CheckPoint.isFreed : CheckPoint → Bool
  | .freed _ => true
  | _ => false

/-- A `MountProbe`, and everybody who uses it. -/
structure MountProbe where
  clock : Rat
  results : Dict Str Reachability
  inflight : Finset Str
  callers : List ProbeCaller
  threads : List ProbeThread

/-- What a caller finds under the lock: an answer, or a probe to start. -/
inductive ProbeLook where
  | answer (value : Option Bool)
  | claim
  deriving DecidableEq

namespace MountProbe

/-- Nobody has asked. -/
def init : MountProbe where
  clock := 0
  results := ∅
  inflight := ∅
  callers := []
  threads := []

/-- What a caller that read this time finds under the lock. -/
def look (cacheSeconds : Rat) (s : MountProbe) (mountpoint : Str) (now : Rat) : ProbeLook :=
  match s.results.lookup mountpoint with
  | some cached =>
      if now - cached.checkedAt < cacheSeconds then .answer cached.value
      else if mountpoint ∈ s.inflight then .answer cached.value
      else .claim
  | none => if mountpoint ∈ s.inflight then .answer none else .claim

/-- A caller has come this far. -/
def setCaller (s : MountProbe) (caller : Nat) (mountpoint : Str) (point : AskPoint) :
    MountProbe :=
  { s with callers := s.callers.set caller ⟨mountpoint, point⟩ }

/-- A thread has come this far. -/
def setThread (s : MountProbe) (thread : Nat) (mountpoint : Str) (point : CheckPoint) :
    MountProbe :=
  { s with threads := s.threads.set thread ⟨mountpoint, point⟩ }

/-- `self._inflight.add`. -/
def mark (s : MountProbe) (mountpoint : Str) : MountProbe :=
  { s with inflight := insert mountpoint s.inflight }

/-- What `check` does under the lock. -/
def free (s : MountProbe) (mountpoint : Str) (value : Option Bool) : MountProbe :=
  { s with
    inflight := s.inflight.erase mountpoint
    results := s.results.insert mountpoint ⟨value, s.clock⟩ }

/-- A thread is started. -/
def spawn (s : MountProbe) (mountpoint : Str) : MountProbe :=
  { s with threads := s.threads ++ [⟨mountpoint, .stating⟩] }

end MountProbe

/-- What happens. -/
inductive ProbeEvent where
  | passes (seconds : Rat)
  | asks (mountpoint : Str)
  | looks (caller : Nat)
  | starts (caller : Nat)
  | startFails (caller : Nat)
  | statEnds (thread : Nat)
  | signals (thread : Nat)
  | frees (thread : Nat)
  | wakes (caller : Nat)
  | givesUp (caller : Nat)
  deriving DecidableEq

/-- What a step may do. A caller may give up at any time: how long it waits, and how long
    anything takes, is left open. -/
inductive ProbeStep (cacheSeconds : Rat) (s : MountProbe) : ProbeEvent → MountProbe → Prop where
  | passes {seconds : Rat} (h : 0 ≤ seconds) :
      ProbeStep cacheSeconds s (.passes seconds) { s with clock := s.clock + seconds }
  | asks (mountpoint : Str) :
      ProbeStep cacheSeconds s (.asks mountpoint)
        { s with callers := s.callers ++ [⟨mountpoint, .entered s.clock⟩] }
  | answered {caller : Nat} {mountpoint : Str} {now : Rat} {value : Option Bool}
      (h : s.callers[caller]? = some ⟨mountpoint, .entered now⟩)
      (hlook : s.look cacheSeconds mountpoint now = .answer value) :
      ProbeStep cacheSeconds s (.looks caller) (s.setCaller caller mountpoint (.returned value))
  | claims {caller : Nat} {mountpoint : Str} {now : Rat}
      (h : s.callers[caller]? = some ⟨mountpoint, .entered now⟩)
      (hlook : s.look cacheSeconds mountpoint now = .claim) :
      ProbeStep cacheSeconds s (.looks caller)
        ((s.setCaller caller mountpoint .claimed).mark mountpoint)
  | starts {caller : Nat} {mountpoint : Str}
      (h : s.callers[caller]? = some ⟨mountpoint, .claimed⟩) :
      ProbeStep cacheSeconds s (.starts caller)
        ((s.setCaller caller mountpoint (.waiting s.threads.length)).spawn mountpoint)
  | startFails {caller : Nat} {mountpoint : Str}
      (h : s.callers[caller]? = some ⟨mountpoint, .claimed⟩) :
      ProbeStep cacheSeconds s (.startFails caller) (s.setCaller caller mountpoint .raised)
  | statEnds {thread : Nat} {mountpoint : Str} (value : Option Bool)
      (h : s.threads[thread]? = some ⟨mountpoint, .stating⟩) :
      ProbeStep cacheSeconds s (.statEnds thread) (s.setThread thread mountpoint (.ended value))
  | signals {thread : Nat} {mountpoint : Str} {value : Option Bool}
      (h : s.threads[thread]? = some ⟨mountpoint, .ended value⟩) :
      ProbeStep cacheSeconds s (.signals thread)
        (s.setThread thread mountpoint (.signalled value))
  | frees {thread : Nat} {mountpoint : Str} {value : Option Bool}
      (h : s.threads[thread]? = some ⟨mountpoint, .signalled value⟩) :
      ProbeStep cacheSeconds s (.frees thread)
        ((s.setThread thread mountpoint (.freed value)).free mountpoint value)
  | wakes {caller : Nat} {mountpoint : Str} {thread : Nat} {running : ProbeThread}
      {value : Option Bool} (h : s.callers[caller]? = some ⟨mountpoint, .waiting thread⟩)
      (hthread : s.threads[thread]? = some running) (hdone : running.point.answer = some value) :
      ProbeStep cacheSeconds s (.wakes caller) (s.setCaller caller mountpoint (.returned value))
  | givesUp {caller : Nat} {mountpoint : Str} {thread : Nat}
      (h : s.callers[caller]? = some ⟨mountpoint, .waiting thread⟩) :
      ProbeStep cacheSeconds s (.givesUp caller) (s.setCaller caller mountpoint (.returned none))

/-- No thread fails to start. -/
def ThreadStarts (_ : MountProbe) (e : ProbeEvent) : Prop :=
  ∀ caller, e ≠ .startFails caller

/-- No two `stat`s of a mountpoint are in flight. -/
def OneStat (s : MountProbe) : Prop :=
  ∀ (first second : Nat) (mountpoint : Str),
    s.threads[first]? = some ⟨mountpoint, .stating⟩ →
    s.threads[second]? = some ⟨mountpoint, .stating⟩ → first = second

/-- A `stat` of the mountpoint has come to this. -/
def StatSaid (s : MountProbe) (mountpoint : Str) (value : Bool) : Prop :=
  ∃ thread ∈ s.threads, thread.mountpoint = mountpoint ∧ thread.point.outcome = some value

/-- What is returned or kept as true or false is what a `stat` of the mountpoint came to. -/
structure Truthful (s : MountProbe) : Prop where
  returned : ∀ mountpoint value,
    (⟨mountpoint, .returned (some value)⟩ : ProbeCaller) ∈ s.callers →
      StatSaid s mountpoint value
  kept : ∀ mountpoint value checkedAt,
    s.results.lookup mountpoint = some ⟨some value, checkedAt⟩ → StatSaid s mountpoint value

/-- Somebody is about to probe the mountpoint, or a probe of it has not ended. -/
def BeingProbed (s : MountProbe) (mountpoint : Str) : Prop :=
  (⟨mountpoint, .claimed⟩ : ProbeCaller) ∈ s.callers ∨
    ∃ thread ∈ s.threads, thread.mountpoint = mountpoint ∧ thread.point.isFreed = false

/-- Whatever is kept of the mountpoint is too old at this time. -/
def PastCache (cacheSeconds : Rat) (s : MountProbe) (mountpoint : Str) (now : Rat) : Prop :=
  ∀ cached, s.results.lookup mountpoint = some cached → cacheSeconds ≤ now - cached.checkedAt

/-- Where nobody probes a mountpoint, the next caller past the cache time does. -/
def FreesMark (cacheSeconds : Rat) (s : MountProbe) : Prop :=
  ∀ mountpoint now, ¬BeingProbed s mountpoint → PastCache cacheSeconds s mountpoint now →
    s.look cacheSeconds mountpoint now = .claim

section Counts

variable {cacheSeconds : Rat} {s s' : MountProbe} {e : ProbeEvent}

/-- How many callers of a mountpoint have come to this point. -/
def callersAt (s : MountProbe) (mountpoint : Str) (point : AskPoint) : Nat :=
  s.callers.countP fun caller => decide (caller = ⟨mountpoint, point⟩)

/-- How many threads of a mountpoint have not freed it. -/
def unfreed (s : MountProbe) (mountpoint : Str) : Nat :=
  s.threads.countP fun thread =>
    decide (thread.mountpoint = mountpoint) && !thread.point.isFreed

/-- Each mark is one caller's that is about to start a thread, or one thread's, or one caller's
    whose thread could not be started. -/
def MarkCounts (s : MountProbe) : Prop :=
  ∀ mountpoint, callersAt s mountpoint .claimed + unfreed s mountpoint +
    callersAt s mountpoint .raised = if mountpoint ∈ s.inflight then 1 else 0

theorem callersAt_set {caller : Nat} {mountpoint : Str} {point : AskPoint}
    (h : s.callers[caller]? = some ⟨mountpoint, point⟩) (point' : AskPoint) (other : Str)
    (counted : AskPoint) :
    callersAt (s.setCaller caller mountpoint point') other counted +
        (if mountpoint = other ∧ point = counted then 1 else 0) =
      callersAt s other counted + if mountpoint = other ∧ point' = counted then 1 else 0 := by
  have hset := countP_set_add (fun c : ProbeCaller => decide (c = ⟨other, counted⟩))
    ⟨mountpoint, point'⟩ h
  simp only [decide_eq_true_eq, ProbeCaller.mk.injEq] at hset
  exact hset

theorem unfreed_set {thread : Nat} {mountpoint : Str} {point : CheckPoint}
    (h : s.threads[thread]? = some ⟨mountpoint, point⟩) (point' : CheckPoint) (other : Str) :
    unfreed (s.setThread thread mountpoint point') other +
        (if mountpoint = other ∧ point.isFreed = false then 1 else 0) =
      unfreed s other + if mountpoint = other ∧ point'.isFreed = false then 1 else 0 := by
  have hset := countP_set_add
    (fun t : ProbeThread => decide (t.mountpoint = other) && !t.point.isFreed)
    ⟨mountpoint, point'⟩ h
  simp only [Bool.and_eq_true, decide_eq_true_eq, Bool.not_eq_true'] at hset
  exact hset

theorem unfreed_spawn (s : MountProbe) (mountpoint other : Str) :
    unfreed (s.spawn mountpoint) other =
      unfreed s other + if mountpoint = other then 1 else 0 := by
  unfold unfreed MountProbe.spawn
  rw [List.countP_append, List.countP_singleton]
  simp only [CheckPoint.isFreed, Bool.not_false, Bool.and_true, decide_eq_true_eq]

/-- A caller finds a probe to start only where the mountpoint has no mark. -/
theorem not_mem_of_look {mountpoint : Str} {now : Rat}
    (h : s.look cacheSeconds mountpoint now = .claim) : mountpoint ∉ s.inflight := by
  intro hmem
  unfold MountProbe.look at h
  cases hkept : s.results.lookup mountpoint with
  | none =>
      rw [hkept] at h
      dsimp only at h
      rw [if_pos hmem] at h
      cases h
  | some cached =>
      rw [hkept] at h
      dsimp only at h
      rw [if_pos hmem, ite_self] at h
      cases h

/-- A caller that neither held a mark nor holds one now changes nothing. -/
theorem MarkCounts.setCaller (hs : MarkCounts s) {caller : Nat} {mountpoint : Str}
    {point : AskPoint} (h : s.callers[caller]? = some ⟨mountpoint, point⟩)
    (hpoint : point.holdsMark = false) {point' : AskPoint} (hpoint' : point'.holdsMark = false) :
    MarkCounts (s.setCaller caller mountpoint point') := by
  intro other
  have hnot : ∀ p : AskPoint, p.holdsMark = false → p ≠ .claimed ∧ p ≠ .raised := by
    intro p hp
    refine ⟨?_, ?_⟩
    · rintro rfl
      cases hp
    · rintro rfl
      cases hp
  have hbefore := hs other
  have hclaimed := callersAt_set h point' other .claimed
  have hraised := callersAt_set h point' other .raised
  simp only [hnot point hpoint, hnot point' hpoint', and_false, if_false,
    Nat.add_zero] at hclaimed hraised
  rw [hclaimed, hraised]
  exact hbefore

/-- A thread that has not freed its mountpoint yet keeps the mark. -/
theorem MarkCounts.setThread (hs : MarkCounts s) {thread : Nat} {mountpoint : Str}
    {point : CheckPoint} (h : s.threads[thread]? = some ⟨mountpoint, point⟩)
    (hpoint : point.isFreed = false) {point' : CheckPoint} (hpoint' : point'.isFreed = false) :
    MarkCounts (s.setThread thread mountpoint point') := by
  intro other
  have hbefore := hs other
  have hunfreed := unfreed_set h point' other
  simp only [hpoint, hpoint', and_true] at hunfreed
  rw [Nat.add_right_cancel hunfreed]
  exact hbefore

/-- The mark a caller makes is its own. -/
theorem MarkCounts.claim (hs : MarkCounts s) {caller : Nat} {mountpoint : Str} {now : Rat}
    (h : s.callers[caller]? = some ⟨mountpoint, .entered now⟩)
    (hfree : mountpoint ∉ s.inflight) :
    MarkCounts ((s.setCaller caller mountpoint .claimed).mark mountpoint) := by
  intro other
  have hbefore := hs other
  have hclaimed := callersAt_set h .claimed other .claimed
  have hraised := callersAt_set h .claimed other .raised
  simp only [reduceCtorEq, and_false, and_true, if_false, Nat.add_zero] at hclaimed hraised
  change callersAt (s.setCaller caller mountpoint .claimed) other .claimed + unfreed s other +
    callersAt (s.setCaller caller mountpoint .claimed) other .raised =
      if other ∈ insert mountpoint s.inflight then 1 else 0
  -- A mark is counted once: by the caller that claimed it, or not yet freed.
  by_cases hother : mountpoint = other
  · subst hother
    rw [if_neg hfree] at hbefore
    rw [if_pos rfl] at hclaimed
    rw [if_pos (Finset.mem_insert_self _ _)]
    omega
  · rw [if_neg hother] at hclaimed
    simp only [Finset.mem_insert, Ne.symm hother, false_or]
    omega

/-- With the thread the mark is the thread's. -/
theorem MarkCounts.start (hs : MarkCounts s) {caller : Nat} {mountpoint : Str}
    (h : s.callers[caller]? = some ⟨mountpoint, .claimed⟩) (thread : Nat) :
    MarkCounts ((s.setCaller caller mountpoint (.waiting thread)).spawn mountpoint) := by
  intro other
  have hbefore := hs other
  have hclaimed := callersAt_set h (.waiting thread) other .claimed
  have hraised := callersAt_set h (.waiting thread) other .raised
  have hspawned := unfreed_spawn (s.setCaller caller mountpoint (.waiting thread)) mountpoint other
  simp only [reduceCtorEq, and_false, and_true, if_false, Nat.add_zero] at hclaimed hraised
  change callersAt (s.setCaller caller mountpoint (.waiting thread)) other .claimed +
    unfreed ((s.setCaller caller mountpoint (.waiting thread)).spawn mountpoint) other +
    callersAt (s.setCaller caller mountpoint (.waiting thread)) other .raised =
      if other ∈ s.inflight then 1 else 0
  have hsame : unfreed (s.setCaller caller mountpoint (.waiting thread)) other =
    unfreed s other := rfl
  omega

/-- Without it the mark stays with the caller. -/
theorem MarkCounts.failStart (hs : MarkCounts s) {caller : Nat} {mountpoint : Str}
    (h : s.callers[caller]? = some ⟨mountpoint, .claimed⟩) :
    MarkCounts (s.setCaller caller mountpoint .raised) := by
  intro other
  have hbefore := hs other
  have hclaimed := callersAt_set h .raised other .claimed
  have hraised := callersAt_set h .raised other .raised
  simp only [reduceCtorEq, and_false, and_true, if_false, Nat.add_zero] at hclaimed hraised
  change callersAt (s.setCaller caller mountpoint .raised) other .claimed + unfreed s other +
    callersAt (s.setCaller caller mountpoint .raised) other .raised =
      if other ∈ s.inflight then 1 else 0
  omega

/-- The thread takes its mark away with it. -/
theorem MarkCounts.free (hs : MarkCounts s) {thread : Nat} {mountpoint : Str}
    {value : Option Bool} (h : s.threads[thread]? = some ⟨mountpoint, .signalled value⟩) :
    MarkCounts ((s.setThread thread mountpoint (.freed value)).free mountpoint value) := by
  intro other
  have hbefore := hs other
  have hunfreed := unfreed_set h (.freed value) other
  simp only [CheckPoint.isFreed, reduceCtorEq, and_true, and_false, if_false,
    Nat.add_zero] at hunfreed
  change callersAt s other .claimed + unfreed (s.setThread thread mountpoint (.freed value)) other +
    callersAt s other .raised = if other ∈ s.inflight.erase mountpoint then 1 else 0
  by_cases hother : mountpoint = other
  · subst hother
    rw [if_pos rfl] at hunfreed
    rw [if_neg (Finset.notMem_erase _ _)]
    split at hbefore
    · omega
    · omega
  · rw [if_neg hother] at hunfreed
    simp only [Finset.mem_erase, Ne.symm hother, ne_eq, not_false_eq_true, true_and]
    omega

/-- A step keeps the count. -/
theorem ProbeStep.markCounts (h : ProbeStep cacheSeconds s e s') (hs : MarkCounts s) :
    MarkCounts s' := by
  cases h with
  | passes h => exact hs
  | asks mountpoint =>
      intro other
      have hbefore := hs other
      -- A caller that has only read the time marks nothing.
      unfold callersAt unfreed at hbefore ⊢
      dsimp only
      rw [List.countP_append, List.countP_append, List.countP_singleton, List.countP_singleton]
      simp only [decide_eq_true_eq, ProbeCaller.mk.injEq, reduceCtorEq, and_false, if_false,
        Nat.add_zero]
      exact hbefore
  | answered h hlook => exact hs.setCaller h rfl rfl
  | claims h hlook => exact hs.claim h (not_mem_of_look hlook)
  | starts h => exact hs.start h _
  | startFails h => exact hs.failStart h
  | statEnds value h => exact hs.setThread h rfl rfl
  | signals h => exact hs.setThread h rfl rfl
  | frees h => exact hs.free h
  | wakes h hthread hdone => exact hs.setCaller h rfl rfl
  | givesUp h => exact hs.setCaller h rfl rfl

end Counts

section Outcomes

variable {cacheSeconds : Rat} {s s' : MountProbe} {e : ProbeEvent}

/-- A thread stays what it is, and so does what its `stat` came to. -/
theorem ProbeStep.thread_kept (h : ProbeStep cacheSeconds s e s') {place : Nat}
    {thread : ProbeThread} (hthread : s.threads[place]? = some thread) :
    ∃ thread', s'.threads[place]? = some thread' ∧ thread'.mountpoint = thread.mountpoint ∧
      ∀ value, thread.point.outcome = some value → thread'.point.outcome = some value := by
  -- A thread that moves keeps its mountpoint and what it came to.
  have hset : ∀ {moved : Nat} {mountpoint : Str} {point point' : CheckPoint},
      s.threads[moved]? = some ⟨mountpoint, point⟩ →
      (∀ value, point.outcome = some value → point'.outcome = some value) →
      ∃ thread', (s.threads.set moved ⟨mountpoint, point'⟩)[place]? = some thread' ∧
        thread'.mountpoint = thread.mountpoint ∧
          ∀ value, thread.point.outcome = some value → thread'.point.outcome = some value := by
    intro moved mountpoint point point' hmoved houtcome
    by_cases hplace : moved = place
    · subst hplace
      obtain rfl := Option.some.inj (hthread.symm.trans hmoved)
      exact ⟨⟨mountpoint, point'⟩, by rw [set_of hthread, if_pos rfl], rfl, houtcome⟩
    · exact ⟨thread, by rw [set_of hthread, if_neg hplace], rfl, fun _ hvalue => hvalue⟩
  have hsame : ∃ thread', s.threads[place]? = some thread' ∧
      thread'.mountpoint = thread.mountpoint ∧
        ∀ value, thread.point.outcome = some value → thread'.point.outcome = some value :=
    ⟨thread, hthread, rfl, fun _ hvalue => hvalue⟩
  -- Only the steps of a thread change one.
  cases h with
  | passes h => exact hsame
  | asks mountpoint => exact hsame
  | answered h hlook => exact hsame
  | claims h hlook => exact hsame
  | starts h => exact ⟨thread, push_of _ hthread, rfl, fun _ hvalue => hvalue⟩
  | startFails h => exact hsame
  | statEnds value h =>
      refine hset h fun _ hvalue => ?_
      cases hvalue
  | signals h => exact hset h fun _ hvalue => hvalue
  | frees h => exact hset h fun _ hvalue => hvalue
  | wakes h hthread hdone => exact hsame
  | givesUp h => exact hsame

theorem ProbeStep.statSaid (h : ProbeStep cacheSeconds s e s') {mountpoint : Str} {value : Bool}
    (hsaid : StatSaid s mountpoint value) : StatSaid s' mountpoint value := by
  rcases hsaid with ⟨thread, hmem, rfl, hvalue⟩
  rcases List.mem_iff_getElem?.mp hmem with ⟨place, hplace⟩
  rcases h.thread_kept hplace with ⟨thread', hthread', hmountpoint, hkept⟩
  exact ⟨thread', List.mem_of_getElem? hthread', hmountpoint, hkept value hvalue⟩

/-- A caller waits for a thread of its own mountpoint. -/
def WaitsForOwn (s : MountProbe) : Prop :=
  ∀ mountpoint place, (⟨mountpoint, .waiting place⟩ : ProbeCaller) ∈ s.callers →
    ∃ thread, s.threads[place]? = some thread ∧ thread.mountpoint = mountpoint

/-- A caller that a step has moved was there before, or is the one that moved. -/
theorem mem_setCaller {caller : Nat} {mountpoint : Str} {point : AskPoint} {c : ProbeCaller}
    (h : c ∈ (s.setCaller caller mountpoint point).callers) :
    c ∈ s.callers ∨ c = ⟨mountpoint, point⟩ :=
  List.mem_or_eq_of_mem_set h

theorem ProbeStep.waitsForOwn (h : ProbeStep cacheSeconds s e s') (hs : WaitsForOwn s) :
    WaitsForOwn s' := by
  intro mountpoint place hmem
  have hold : (⟨mountpoint, .waiting place⟩ : ProbeCaller) ∈ s.callers →
      ∃ thread, s'.threads[place]? = some thread ∧ thread.mountpoint = mountpoint := by
    intro hmem
    rcases hs mountpoint place hmem with ⟨thread, hthread, rfl⟩
    rcases h.thread_kept hthread with ⟨thread', hthread', hmountpoint, -⟩
    exact ⟨thread', hthread', hmountpoint⟩
  have hmoved : ∀ {caller : Nat} {other : Str} {point : AskPoint},
      (⟨mountpoint, .waiting place⟩ : ProbeCaller) ∈ (s.setCaller caller other point).callers →
      point ≠ .waiting place →
      ∃ thread, s'.threads[place]? = some thread ∧ thread.mountpoint = mountpoint := by
    intro caller other point hmem hne
    rcases mem_setCaller hmem with hmem | heq
    · exact hold hmem
    · exact absurd (ProbeCaller.mk.inj heq).2.symm hne
  cases h with
  | passes h => exact hold hmem
  | asks other =>
      rcases List.mem_append.mp hmem with hmem | hmem
      · exact hold hmem
      · cases List.mem_singleton.mp hmem
  | answered h hlook => exact hmoved hmem (by simp only [ne_eq, reduceCtorEq, not_false_eq_true])
  | claims h hlook => exact hmoved hmem (by simp only [ne_eq, reduceCtorEq, not_false_eq_true])
  | starts h =>
      rcases mem_setCaller hmem with hmem | heq
      · exact hold hmem
      · -- The thread it waits for is the one that has just been started.
        obtain ⟨rfl, hplace⟩ := ProbeCaller.mk.inj heq
        obtain rfl := AskPoint.waiting.inj hplace
        exact ⟨⟨mountpoint, .stating⟩, List.getElem?_concat_length, rfl⟩
  | startFails h => exact hmoved hmem (by simp only [ne_eq, reduceCtorEq, not_false_eq_true])
  | statEnds value h => exact hold hmem
  | signals h => exact hold hmem
  | frees h => exact hold hmem
  | wakes h hthread hdone =>
      exact hmoved hmem (by simp only [ne_eq, reduceCtorEq, not_false_eq_true])
  | givesUp h => exact hmoved hmem (by simp only [ne_eq, reduceCtorEq, not_false_eq_true])

/-- A caller is answered with what is kept. -/
theorem kept_of_look {mountpoint : Str} {now : Rat} {value : Bool}
    (h : s.look cacheSeconds mountpoint now = .answer (some value)) :
    ∃ checkedAt, s.results.lookup mountpoint = some ⟨some value, checkedAt⟩ := by
  unfold MountProbe.look at h
  -- Only a kept result answers with a value.
  cases hkept : s.results.lookup mountpoint with
  | none =>
      rw [hkept] at h
      dsimp only at h
      split at h
      · cases h
      · cases h
  | some cached =>
      have hvalue : cached.value = some value := by
        rw [hkept] at h
        dsimp only at h
        split at h
        · exact ProbeLook.answer.inj h
        · split at h
          · exact ProbeLook.answer.inj h
          · cases h
      exact ⟨cached.checkedAt, by rw [← hvalue]⟩

/-- What a caller returns is what the thread's `stat` came to. -/
theorem outcome_of_answer {point : CheckPoint} {value : Option Bool}
    (h : point.answer = some value) : point.outcome = value := by
  cases point with
  | stating => cases h
  | ended value' => cases h
  | signalled value' => exact Option.some.inj h
  | freed value' => exact Option.some.inj h

/-- A step keeps what is said true. -/
theorem ProbeStep.truthful (h : ProbeStep cacheSeconds s e s') (hs : Truthful s)
    (hwaits : WaitsForOwn s) : Truthful s' := by
  constructor
  · intro mountpoint value hmem
    have hold : (⟨mountpoint, .returned (some value)⟩ : ProbeCaller) ∈ s.callers →
        StatSaid s' mountpoint value := fun hmem => h.statSaid (hs.returned _ _ hmem)
    have hmoved : ∀ {caller : Nat} {other : Str} {point : AskPoint},
        (⟨mountpoint, .returned (some value)⟩ : ProbeCaller) ∈
          (s.setCaller caller other point).callers →
        (point = .returned (some value) → other = mountpoint → StatSaid s' mountpoint value) →
        StatSaid s' mountpoint value := by
      intro caller other point hmem hnew
      rcases mem_setCaller hmem with hmem | heq
      · exact hold hmem
      · exact hnew (ProbeCaller.mk.inj heq).2.symm (ProbeCaller.mk.inj heq).1.symm
    have hstep := @ProbeStep.statSaid _ _ _ _ h
    cases h with
    | passes h => exact hold hmem
    | asks other =>
        rcases List.mem_append.mp hmem with hmem | hmem
        · exact hold hmem
        · cases List.mem_singleton.mp hmem
    | answered h hlook =>
        refine hmoved hmem fun hpoint hother => ?_
        subst hother
        rw [AskPoint.returned.inj hpoint] at hlook
        rcases kept_of_look hlook with ⟨checkedAt, hkept⟩
        exact hstep (hs.kept _ _ _ hkept)
    | claims h hlook => exact hmoved hmem fun hpoint => by cases hpoint
    | starts h => exact hmoved hmem fun hpoint => by cases hpoint
    | startFails h => exact hmoved hmem fun hpoint => by cases hpoint
    | statEnds value' h => exact hold hmem
    | signals h => exact hold hmem
    | frees h => exact hold hmem
    | wakes h hthread hdone =>
        refine hmoved hmem fun hpoint hother => ?_
        subst hother
        rw [AskPoint.returned.inj hpoint] at hdone
        rcases hwaits _ _ (List.mem_of_getElem? h) with ⟨thread, hown, hmountpoint⟩
        obtain rfl := Option.some.inj (hthread.symm.trans hown)
        exact hstep ⟨_, List.mem_of_getElem? hthread, hmountpoint, outcome_of_answer hdone⟩
    | givesUp h => exact hmoved hmem fun hpoint => by cases hpoint
  · intro mountpoint value checkedAt hlookup
    have hold : s.results.lookup mountpoint = some ⟨some value, checkedAt⟩ →
        StatSaid s' mountpoint value := fun hlookup => h.statSaid (hs.kept _ _ _ hlookup)
    have hstep := @ProbeStep.statSaid _ _ _ _ h
    cases h with
    | passes h => exact hold hlookup
    | asks other => exact hold hlookup
    | answered h hlook => exact hold hlookup
    | claims h hlook => exact hold hlookup
    | starts h => exact hold hlookup
    | startFails h => exact hold hlookup
    | statEnds value' h => exact hold hlookup
    | signals h => exact hold hlookup
    | @frees thread other value' h =>
        -- What is kept of this mountpoint is what the thread has just found.
        change (s.results.insert other ⟨value', s.clock⟩).lookup mountpoint = _ at hlookup
        by_cases hother : mountpoint = other
        · subst hother
          rw [AList.lookup_insert, Option.some.injEq, Reachability.mk.injEq] at hlookup
          exact hstep ⟨_, List.mem_of_getElem? h, rfl, hlookup.1⟩
        · rw [AList.lookup_insert_ne hother] at hlookup
          exact hold hlookup
    | wakes h hthread hdone => exact hold hlookup
    | givesUp h => exact hold hlookup

end Outcomes

section Marks

variable {cacheSeconds : Rat} {s s' : MountProbe} {e : ProbeEvent}

theorem callersAt_pos {mountpoint : Str} {point : AskPoint} :
    0 < callersAt s mountpoint point ↔ (⟨mountpoint, point⟩ : ProbeCaller) ∈ s.callers := by
  unfold callersAt
  rw [List.countP_pos_iff]
  simp only [decide_eq_true_eq, exists_eq_right]

theorem unfreed_pos {mountpoint : Str} :
    0 < unfreed s mountpoint ↔
      ∃ thread ∈ s.threads, thread.mountpoint = mountpoint ∧ thread.point.isFreed = false := by
  unfold unfreed
  rw [List.countP_pos_iff]
  simp only [Bool.and_eq_true, decide_eq_true_eq, Bool.not_eq_true']

theorem beingProbed_iff {mountpoint : Str} : BeingProbed s mountpoint ↔
    0 < callersAt s mountpoint .claimed + unfreed s mountpoint := by
  unfold BeingProbed
  rw [← callersAt_pos, ← unfreed_pos]
  omega

/-- Two threads that have not freed a mountpoint are one. -/
theorem MarkCounts.oneStat (hs : MarkCounts s) : OneStat s := by
  intro first second mountpoint hfirst hsecond
  by_contra hne
  have hcount := hs mountpoint
  have hset := unfreed_set hfirst (.freed none) mountpoint
  have hleft : 0 < unfreed (s.setThread first mountpoint (.freed none)) mountpoint := by
    refine unfreed_pos.mpr ⟨⟨mountpoint, .stating⟩, ?_, rfl, rfl⟩
    refine List.mem_of_getElem? (i := second) ?_
    rw [MountProbe.setThread, set_of hsecond, if_neg hne]
  simp only [CheckPoint.isFreed, and_self, reduceCtorEq, and_false, if_true, if_false] at hset
  split at hcount
  · omega
  · omega

/-- A mountpoint nobody probes is probed again exactly where no caller's thread could not be
    started. -/
theorem MarkCounts.frees_iff (hs : MarkCounts s) :
    FreesMark cacheSeconds s ↔
      ∀ mountpoint, (⟨mountpoint, .raised⟩ : ProbeCaller) ∉ s.callers := by
  constructor
  · intro hfrees mountpoint hmem
    have hcount := hs mountpoint
    have hraised := callersAt_pos.mpr hmem
    have hmark : mountpoint ∈ s.inflight := by
      by_contra hnot
      rw [if_neg hnot] at hcount
      omega
    rw [if_pos hmark] at hcount
    have hnobody : ¬BeingProbed s mountpoint := by
      rw [beingProbed_iff]
      omega
    -- However late it is, the mark is still there.
    have hlate : ∃ now, PastCache cacheSeconds s mountpoint now := by
      cases hkept : s.results.lookup mountpoint with
      | none =>
          refine ⟨0, fun cached hcached => ?_⟩
          rw [hkept] at hcached
          cases hcached
      | some kept =>
          refine ⟨kept.checkedAt + cacheSeconds, fun cached hcached => ?_⟩
          rw [hkept, Option.some.injEq] at hcached
          rw [← hcached, add_sub_cancel_left]
    rcases hlate with ⟨now, hlate⟩
    exact not_mem_of_look (hfrees mountpoint now hnobody hlate) hmark
  · intro hnone mountpoint now hnobody hlate
    have hcount := hs mountpoint
    rw [beingProbed_iff] at hnobody
    have hraised : ¬0 < callersAt s mountpoint .raised := fun hpos =>
      hnone mountpoint (callersAt_pos.mp hpos)
    have hfree : mountpoint ∉ s.inflight := by
      intro hmark
      rw [if_pos hmark] at hcount
      omega
    unfold MountProbe.look
    cases hkept : s.results.lookup mountpoint with
    | none => exact if_neg hfree
    | some kept =>
        dsimp only
        rw [if_neg (not_lt.mpr (hlate kept hkept)), if_neg hfree]

/-- A caller whose thread could not be started stays one. -/
theorem ProbeStep.raised_kept (h : ProbeStep cacheSeconds s e s') {mountpoint : Str}
    (hmem : (⟨mountpoint, .raised⟩ : ProbeCaller) ∈ s.callers) :
    (⟨mountpoint, .raised⟩ : ProbeCaller) ∈ s'.callers := by
  rcases List.mem_iff_getElem?.mp hmem with ⟨place, hplace⟩
  -- A caller that moves was not the one that has raised.
  have hmoved : ∀ {caller : Nat} {other : Str} {point point' : AskPoint},
      s.callers[caller]? = some ⟨other, point⟩ → point ≠ .raised →
      (⟨mountpoint, .raised⟩ : ProbeCaller) ∈ (s.setCaller caller other point').callers := by
    intro caller other point point' hcaller hne
    refine List.mem_of_getElem? (i := place) ?_
    rw [MountProbe.setCaller, set_of hplace, if_neg]
    rintro rfl
    rw [hplace, Option.some.injEq, ProbeCaller.mk.injEq] at hcaller
    exact hne hcaller.2.symm
  cases h with
  | passes h => exact hmem
  | asks other => exact List.mem_append_left _ hmem
  | answered h hlook => exact hmoved h (by simp only [ne_eq, reduceCtorEq, not_false_eq_true])
  | claims h hlook => exact hmoved h (by simp only [ne_eq, reduceCtorEq, not_false_eq_true])
  | starts h => exact hmoved h (by simp only [ne_eq, reduceCtorEq, not_false_eq_true])
  | startFails h => exact hmoved h (by simp only [ne_eq, reduceCtorEq, not_false_eq_true])
  | statEnds value h => exact hmem
  | signals h => exact hmem
  | frees h => exact hmem
  | wakes h hthread hdone =>
      exact hmoved h (by simp only [ne_eq, reduceCtorEq, not_false_eq_true])
  | givesUp h => exact hmoved h (by simp only [ne_eq, reduceCtorEq, not_false_eq_true])

/-- A caller becomes one where its thread fails to start, and nowhere else. -/
theorem ProbeStep.raised_iff (h : ProbeStep cacheSeconds s e s') :
    (∀ mountpoint, (⟨mountpoint, .raised⟩ : ProbeCaller) ∉ s'.callers) ↔
      (∀ mountpoint, (⟨mountpoint, .raised⟩ : ProbeCaller) ∉ s.callers) ∧ ThreadStarts s e := by
  constructor
  · -- Whoever raised stays so, and only a failed start raises.
    intro hnone
    refine ⟨fun mountpoint hmem => hnone mountpoint (h.raised_kept hmem), ?_⟩
    rintro caller rfl
    cases h with
    | @startFails caller mountpoint h =>
        refine hnone mountpoint (List.mem_of_getElem? (i := caller) ?_)
        rw [MountProbe.setCaller, set_of h, if_pos rfl]
  · rintro ⟨hnone, hstarts⟩ mountpoint hmem
    -- A caller that moves without raising is none.
    have hmoved : ∀ {caller : Nat} {other : Str} {point : AskPoint},
        (⟨mountpoint, .raised⟩ : ProbeCaller) ∈ (s.setCaller caller other point).callers →
        point ≠ .raised → False := by
      intro caller other point hmem hne
      rcases mem_setCaller hmem with hmem | heq
      · exact hnone mountpoint hmem
      · exact hne (ProbeCaller.mk.inj heq).2.symm
    cases h with
    | passes h => exact hnone mountpoint hmem
    | asks other =>
        rcases List.mem_append.mp hmem with hmem | hmem
        · exact hnone mountpoint hmem
        · cases List.mem_singleton.mp hmem
    | answered h hlook =>
        exact hmoved hmem (by simp only [ne_eq, reduceCtorEq, not_false_eq_true])
    | claims h hlook => exact hmoved hmem (by simp only [ne_eq, reduceCtorEq, not_false_eq_true])
    | starts h => exact hmoved hmem (by simp only [ne_eq, reduceCtorEq, not_false_eq_true])
    | @startFails caller _ h => exact hstarts caller rfl
    | statEnds value h => exact hnone mountpoint hmem
    | signals h => exact hnone mountpoint hmem
    | frees h => exact hnone mountpoint hmem
    | wakes h hthread hdone =>
        exact hmoved hmem (by simp only [ne_eq, reduceCtorEq, not_false_eq_true])
    | givesUp h => exact hmoved hmem (by simp only [ne_eq, reduceCtorEq, not_false_eq_true])

end Marks

section Runs

variable {cacheSeconds : Rat} {s : MountProbe}

/-- Any run at all. -/
def Probing (cacheSeconds : Rat) (s : MountProbe) : Prop :=
  GuardedRun (ProbeStep cacheSeconds) (fun _ _ => True) .init s

/-- A run in which no thread fails to start. -/
def ProbingStarts (cacheSeconds : Rat) (s : MountProbe) : Prop :=
  GuardedRun (ProbeStep cacheSeconds) ThreadStarts .init s

/-- What every step keeps. -/
structure ProbeInv (s : MountProbe) : Prop where
  marks : MarkCounts s
  waits : WaitsForOwn s
  truthful : Truthful s

theorem probeInv_init : ProbeInv .init where
  marks := fun _ => rfl
  waits := fun _ _ hmem => absurd hmem List.not_mem_nil
  truthful :=
    { returned := fun _ _ hmem => absurd hmem List.not_mem_nil
      kept := fun mountpoint _ _ hkept => by
        change (∅ : Dict Str Reachability).lookup mountpoint = _ at hkept
        rw [AList.lookup_empty] at hkept
        cases hkept }

theorem Probing.inv (h : Probing cacheSeconds s) : ProbeInv s :=
  GuardedRun.invariant ProbeInv probeInv_init
    (fun _ _ _ hs _ hstep =>
      ⟨hstep.markCounts hs.marks, hstep.waitsForOwn hs.waits, hstep.truthful hs.truthful hs.waits⟩)
    h

/-- A run without a caller whose thread failed to start is one in which none did. -/
theorem Probing.starts_iff (h : Probing cacheSeconds s) :
    (∀ mountpoint, (⟨mountpoint, .raised⟩ : ProbeCaller) ∉ s.callers) ↔
      ProbingStarts cacheSeconds s := by
  constructor
  · intro hnone
    induction h with
    | start => exact GuardedRun.start
    | next e _ _ step ih =>
        have hbefore := step.raised_iff.mp hnone
        exact GuardedRun.next e (ih hbefore.1) hbefore.2 step
  · intro hrun
    exact GuardedRun.invariant
      (fun s => ∀ mountpoint, (⟨mountpoint, .raised⟩ : ProbeCaller) ∉ s.callers)
      (fun _ hmem => absurd hmem List.not_mem_nil)
      (fun _ _ _ hs hstarts hstep => hstep.raised_iff.mpr ⟨hs, hstarts⟩) hrun

/-- A thread whose `stat` is over frees its mountpoint with two steps of its own, which nothing
    keeps it from. -/
def EndsFree (cacheSeconds : Rat) (s : MountProbe) : Prop :=
  ∀ (thread : Nat) (mountpoint : Str) (value : Option Bool),
    (s.threads[thread]? = some ⟨mountpoint, .ended value⟩ →
      ∃ s', ProbeStep cacheSeconds s (.signals thread) s' ∧
        s'.threads[thread]? = some ⟨mountpoint, .signalled value⟩) ∧
    (s.threads[thread]? = some ⟨mountpoint, .signalled value⟩ →
      ∃ s', ProbeStep cacheSeconds s (.frees thread) s' ∧ mountpoint ∉ s'.inflight)

theorem endsFree (cacheSeconds : Rat) (s : MountProbe) : EndsFree cacheSeconds s := by
  intro thread mountpoint value
  refine ⟨fun h => ⟨_, .signals h, ?_⟩, fun h => ⟨_, .frees h, ?_⟩⟩
  · rw [MountProbe.setThread, set_of h, if_pos rfl]
  · exact Finset.notMem_erase _ _

/-- **What probing keeps.** However callers and threads go on, no two `stat`s of a mountpoint
    are in flight, what is returned or kept as true or false is what a `stat` of it came to, and
    a thread whose `stat` is over frees the mountpoint. A mountpoint that nobody probes is
    probed again by the next caller past the cache time exactly in the runs in which no thread
    failed to start. -/
theorem probing_safe_iff (h : Probing cacheSeconds s) :
    OneStat s ∧ Truthful s ∧ EndsFree cacheSeconds s ∧
      (FreesMark cacheSeconds s ↔ ProbingStarts cacheSeconds s) :=
  ⟨h.inv.marks.oneStat, h.inv.truthful, endsFree cacheSeconds s,
    h.inv.marks.frees_iff.trans h.starts_iff⟩

end Runs

section OneCaller

/-- A mountpoint. -/
def aMount : Str :=
  str "/mnt/nas"

/-- One caller that has come this far, and nothing else. -/
def oneCaller (point : AskPoint) : MountProbe :=
  { MountProbe.init with callers := [⟨aMount, point⟩] }

/-- A caller has marked the mountpoint and is about to start a thread. -/
theorem probing_claimed : Probing 10 ((oneCaller .claimed).mark aMount) :=
  .next (.looks 0)
    (.next (.asks aMount) .start trivial (@ProbeStep.asks 10 .init aMount)) trivial
    (@ProbeStep.claims 10 (oneCaller (.entered 0)) 0 aMount 0 rfl rfl)

/-- A probe that is answered: its caller returns what its `stat` came to, and it is over. -/
theorem answered_probe : ∃ s, (Probing 10 s ∧ s.callers = [⟨aMount, .returned (some true)⟩]) ∧
    OneStat s ∧ Truthful s ∧ EndsFree 10 s ∧ (FreesMark 10 s ↔ ProbingStarts 10 s) := by
  have hstarted := GuardedRun.next (.starts 0) probing_claimed trivial
    (@ProbeStep.starts 10 _ 0 aMount rfl)
  have hended := GuardedRun.next (.statEnds 0) hstarted trivial
    (@ProbeStep.statEnds 10 _ 0 aMount (some true) rfl)
  have hsignalled := GuardedRun.next (.signals 0) hended trivial
    (@ProbeStep.signals 10 _ 0 aMount (some true) rfl)
  have hwoken := GuardedRun.next (.wakes 0) hsignalled trivial
    (@ProbeStep.wakes 10 _ 0 aMount 0 _ (some true) rfl rfl rfl)
  have hfreed := GuardedRun.next (.frees 0) hwoken trivial
    (@ProbeStep.frees 10 _ 0 aMount (some true) rfl)
  exact ⟨_, ⟨hfreed, rfl⟩, probing_safe_iff hfreed⟩

/-- A thread that could not be started leaves its mountpoint marked: nobody probes it, and no
    caller will, however late. -/
theorem failed_start_never_probed_again : ∃ s, Probing 10 s ∧ ¬BeingProbed s aMount ∧
    (∀ now, PastCache 10 s aMount now ∧ s.look 10 aMount now = .answer none) ∧
      ¬FreesMark 10 s := by
  have hfailed := GuardedRun.next (.startFails 0) probing_claimed trivial
    (@ProbeStep.startFails 10 _ 0 aMount rfl)
  have hnobody : ¬BeingProbed (((oneCaller .claimed).mark aMount).setCaller 0 aMount .raised)
      aMount := by
    -- The mark is there, and nobody is behind it.
    rintro (hclaimed | ⟨thread, hthread, -⟩)
    · cases List.mem_singleton.mp hclaimed
    · exact List.not_mem_nil hthread
  have hlate : ∀ now, PastCache 10
      (((oneCaller .claimed).mark aMount).setCaller 0 aMount .raised) aMount now := by
    intro now cached hcached
    cases hcached
  -- Whenever it is looked at, the mark is the answer.
  have hlook : ∀ now, (((oneCaller .claimed).mark aMount).setCaller 0 aMount .raised).look 10
      aMount now = .answer none := by
    intro now
    have hmark : aMount ∈ insert aMount (∅ : Finset Str) := Finset.mem_insert_self _ _
    change (if aMount ∈ insert aMount (∅ : Finset Str) then ProbeLook.answer none
      else .claim) = .answer none
    rw [if_pos hmark]
  refine ⟨_, hfailed, hnobody, fun now => ⟨hlate now, hlook now⟩, fun hfrees => ?_⟩
  have hclaim := hfrees aMount 0 hnobody (hlate 0)
  rw [hlook] at hclaim
  cases hclaim

end OneCaller

end Smbpal
