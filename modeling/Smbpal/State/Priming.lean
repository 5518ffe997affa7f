import Smbpal.State.Refusal

/-!
# What Priming Remembers

The monitor queues a start for a connection that is armed and idle, and tries
again on a later poll when nothing came of it: at most `primeAttempts` times for
what the connection points at, and not at all once the journal has said that the
mount is not to be tried again.

What the monitor counts with is read in one step of a poll and written in
another, and another thread may forget the connection between the two. A start
may then be queued on a count from before the connection was forgotten. The
bound does not suffer: the count that was read is never below the starts there
have been since, which is what is kept from the reading to the writing.

What happens to a connection's priming, and each config a poll reads, is written
down as it happens, the newest first. The memory holds one target under each id,
and counts the starts for it from the last event that leaves nothing to
remember: the connection was forgotten, it was started or latched for something
else, or a poll found it connected. Only a poll that found a connection
connected latches it with `wasMounted`.

The config, the mount table, the journals, systemd and the network may answer
anything to every step.

## Main definitions

* `PrimingEvent`, `PrimingEvent.resets`: What happens, and where the memory
  counts anew.
* `starts`: The starts accepted since it last did.
* `Priming`, `primingMachine`: The monitor with what happened, and the steps.
* `Held`: What the memory has to say about the starts there have been.

## Theorems

* `primeIdle_bounded`, `poll_bounded`: A turn, and a poll, keep to the bound.
* `run_bounded`: So does a run, while the memory does not count anew.
-/

namespace Smbpal

open Lib Program

/-- What happens to the priming of a connection. -/
inductive PrimingEvent where
  /-- A poll read the config. -/
  | read (config : Config)
  /-- Systemd accepted a start. -/
  | queued (id : Option Str) (target : Target)
  /-- There had been a start, the connection was idle and to be mounted, and the
      journal gave a cause that is not to be tried again. -/
  | refused (id : Option Str) (target : Target)
  | latched (id : Option Str) (target : Target) (because : Str)
  | forgotten (id : Option Str)
  deriving DecidableEq

namespace PrimingEvent

/-- The connection it happens to, and what it is taken to point at. -/
def about : PrimingEvent → Option (Option Str × Target)
  | .queued id target => some (id, target)
  | .refused id target => some (id, target)
  | .latched id target _ => some (id, target)
  | _ => none

/-- Here the memory loses what it had of a connection's starts for a target, or
    has nothing to remember of it any more. -/
def resets (id : Option Str) (target : Target) : PrimingEvent → Bool
  | .read _ => false
  | .queued other target' => decide (other = id ∧ target' ≠ target)
  | .refused _ _ => false
  | .latched other target' because =>
      decide (other = id ∧ (target' ≠ target ∨ because = wasMounted))
  | .forgotten other => decide (other = id)

end PrimingEvent

/-- What happened since the memory last counted anew, the newest first. -/
def since (id : Option Str) (target : Target) (happened : List PrimingEvent) :
    List PrimingEvent :=
  happened.takeWhile fun e => !e.resets id target

/-- The starts that were accepted since. -/
def starts (id : Option Str) (target : Target) (happened : List PrimingEvent) : Nat :=
  (since id target happened).count (.queued id target)

/-- The mount was refused since. -/
def RefusedSince (id : Option Str) (target : Target) (happened : List PrimingEvent) : Prop :=
  .refused id target ∈ since id target happened

/-- There were not too many starts since, and none after a refusal. -/
structure Bounded (id : Option Str) (target : Target) (happened : List PrimingEvent) : Prop where
  few : starts id target happened ≤ primeAttempts
  none_after : ∀ newer older, since id target happened = newer ++ .refused id target :: older →
    .queued id target ∉ newer

/-! ### One more event -/

section Events

variable {id : Option Str} {target : Target} {e : PrimingEvent} {happened : List PrimingEvent}

theorem since_reset (h : e.resets id target = true) : since id target (e :: happened) = [] := by
  unfold since
  rw [List.takeWhile_cons, h]
  rfl

theorem since_going (h : e.resets id target = false) :
    since id target (e :: happened) = e :: since id target happened := by
  unfold since
  rw [List.takeWhile_cons, h]
  rfl

theorem starts_reset (h : e.resets id target = true) : starts id target (e :: happened) = 0 := by
  unfold starts
  rw [since_reset h, List.count_nil]

theorem starts_queued :
    starts id target (.queued id target :: happened) = starts id target happened + 1 := by
  have hgoing : (PrimingEvent.queued id target).resets id target = false :=
    decide_eq_false fun h => h.2 rfl
  unfold starts
  rw [since_going hgoing, List.count_cons_self]

/-- Only an accepted start adds to the count. -/
theorem starts_cons_le (he : e ≠ .queued id target) :
    starts id target (e :: happened) ≤ starts id target happened := by
  cases hresets : e.resets id target with
  | true =>
      rw [starts_reset hresets]
      exact Nat.zero_le _
  | false =>
      unfold starts
      rw [since_going hresets, List.count_cons_of_ne he]

theorem not_refusedSince_reset (h : e.resets id target = true) :
    ¬RefusedSince id target (e :: happened) := by
  unfold RefusedSince
  rw [since_reset h]
  exact List.not_mem_nil

/-- Only a refusal is one. -/
theorem not_refusedSince_cons (he : e ≠ .refused id target)
    (h : ¬RefusedSince id target happened) : ¬RefusedSince id target (e :: happened) := by
  cases hresets : e.resets id target with
  | true => exact not_refusedSince_reset hresets
  | false =>
      unfold RefusedSince
      rw [since_going hresets]
      intro hmem
      rcases List.mem_cons.mp hmem with heq | hmem
      · exact he heq.symm
      · exact h hmem

/-- One more event keeps to the bound, if a start that is queued is not one too
    many and does not come after a refusal. -/
theorem bounded_cons (hb : Bounded id target happened)
    (hnew : e = .queued id target →
      starts id target happened < primeAttempts ∧ ¬RefusedSince id target happened) :
    Bounded id target (e :: happened) := by
  by_cases he : e = .queued id target
  · rcases hnew he with ⟨hfew, hnot⟩
    rw [he]
    refine ⟨?_, fun newer older hsplit => ?_⟩
    · rw [starts_queued]
      omega
    · -- there is no refusal to come after
      have hne : PrimingEvent.queued id target ≠ .refused id target :=
        fun h => PrimingEvent.noConfusion h
      refine absurd ?_ (not_refusedSince_cons hne hnot)
      unfold RefusedSince
      rw [hsplit]
      exact List.mem_append_right _ List.mem_cons_self
  · refine ⟨(starts_cons_le he).trans hb.few, fun newer older hsplit => ?_⟩
    cases hresets : e.resets id target with
    | true =>
        rw [since_reset hresets] at hsplit
        exact absurd hsplit.symm (List.append_ne_nil_of_right_ne_nil _ (List.cons_ne_nil _ _))
    | false =>
        rw [since_going hresets] at hsplit
        cases newer with
        | nil => exact List.not_mem_nil
        | cons x newer =>
            injection hsplit with hx hrest
            intro hmem
            rcases List.mem_cons.mp hmem with heq | hmem
            · exact he (hx.trans heq.symm)
            · exact hb.none_after newer older hrest hmem

end Events

/-! ### The monitor, and what happened -/

/-- The monitor, with what happened, the newest first. -/
structure Priming where
  memory : Memory
  /-- The connection whose attempts the last step asked for, and what they were. -/
  asked : Option (Option Str × Option (Target × Nat))
  happened : List PrimingEvent

namespace Priming

/-- A monitor that has just been started. -/
def fresh : Priming :=
  { memory := Memory.empty, asked := none, happened := [] }

/-- The connection is forgotten. -/
def forget (s : Priming) (id : Option Str) : Priming :=
  { s with memory := s.memory.forget id, happened := .forgotten id :: s.happened }

/-- Some connections are forgotten, one after another. -/
def forgetAll (s : Priming) (ids : List (Option Str)) : Priming :=
  ids.foldl forget s

/-- A step that has nothing to do with what was asked. -/
def settle (s : Priming) : Priming :=
  { s with asked := none }

/-- Systemd accepted a start. -/
def start (s : Priming) (id : Option Str) (target : Target) : Priming :=
  { s with asked := none, happened := .queued id target :: s.happened }

/-- `_latch`. -/
def latch (s : Priming) (id : Option Str) (target : Target) (because : Str) : Priming :=
  { memory := s.memory.latch id target because
    asked := none
    happened := .latched id target because :: s.happened }

/-- A start is remembered. -/
def record (s : Priming) (id : Option Str) (target : Target) (count : Nat) : Priming :=
  { s with memory := s.memory.record id target count, asked := none }

/-- A config was read, or could not be. -/
def read (s : Priming) : Except Exc Config → Priming
  | .ok config => { s with asked := none, happened := .read config :: s.happened }
  | .error _ => s.settle

/-- The journal gave a cause that is not to be tried again. -/
def refuse (s : Priming) : Priming :=
  match s.asked with
  | some (id, some (target, _)) =>
      { s with asked := none, happened := .refused id target :: s.happened }
  | _ => s.settle

end Priming

section Serving

variable [Decimals]

/-- A journal that says why the mount failed, and not to try again. -/
def saysRefused (ans : Except Exc Str) : Bool :=
  match ans with
  | .ok text => ((translateJournal text).filter fun cause => !cause.retryable).isSome
  | .error _ => false

/-- What may be answered to a step, and what the step leaves. -/
def Priming.serves (s : Priming) : (op : MonitorOp) → Except Exc op.Value → Priming → Prop
  | .load, ans, s' => s' = s.read ans
  | .journal _, ans, s' => s' = if saysRefused ans then s.refuse else s.settle
  | .start id target _, ans, s' =>
      ans = .ok () ∧ s' = s.start id target ∨ (∃ e, ans = .error e) ∧ s' = s.settle
  | .primedTarget id, ans, s' => ans = .ok (s.memory.primed id) ∧ s' = s.settle
  | .attemptFor id, ans, s' =>
      ans = .ok (s.memory.attempted id) ∧
        s' = { s with asked := some (id, s.memory.attempted id) }
  | .latch id target because, ans, s' => ans = .ok () ∧ s' = s.latch id target because
  | .recordAttempt id target count, ans, s' => ans = .ok () ∧ s' = s.record id target count
  | .previousState id, ans, s' => ans = .ok (s.memory.stateFor id) ∧ s' = s.settle
  | .replaceStates current, ans, s' =>
      ans = .ok (s.memory.goneFrom current) ∧
        s' = { s.settle with memory := { s.memory with states := current } }
  | .forget id, ans, s' => ans = .ok () ∧ s' = s.settle.forget id
  | _, _, s' => s' = s.settle

/-- A step, after other threads have forgotten some connections. -/
def primingMachine : Machine monitorSig Priming :=
  fun op s ans s' => ∃ ids, (s.forgetAll ids).serves op ans s'

end Serving

/-! ### What is kept -/

/-- The memory keeps the monitor from more starts of a connection for a target:
    that is latched, or the starts there have been are remembered. -/
def Held (m : Memory) (happened : List PrimingEvent) (id : Option Str) (target : Target) : Prop :=
  m.primed id = some target ∨
    ¬RefusedSince id target happened ∧
      (starts id target happened = 0 ∨
        ∃ count, m.attempted id = some (target, count) ∧ starts id target happened ≤ count)

/-- There have been no starts to remember, and no refusal. -/
def Clear (happened : List PrimingEvent) (id : Option Str) (target : Target) : Prop :=
  ¬RefusedSince id target happened ∧ starts id target happened = 0

/-- The bound was met whenever something happened, and never is a greater count
    remembered. -/
structure Priming.Kept (s : Priming) : Prop where
  past : ∀ happened, happened <:+ s.happened → ∀ id target, Bounded id target happened
  counts : ∀ id target count, s.memory.attempted id = some (target, count) → count ≤ primeAttempts

/-- Between two turns. -/
structure Priming.Sound (s : Priming) : Prop extends s.Kept where
  asked : s.asked = none
  held : ∀ id target, Held s.memory s.happened id target

/-- A start may be queued on a count. -/
structure Priming.Ready (id : Option Str) (target : Target) (queued : Nat) (s : Priming) : Prop
    extends s.Kept where
  held : ∀ id target, Held s.memory s.happened id target
  few : starts id target s.happened ≤ queued
  not_refused : ¬RefusedSince id target s.happened

/-- A start was queued, and is yet to be remembered. -/
structure Priming.Queued (id : Option Str) (target : Target) (queued : Nat) (s : Priming) : Prop
    extends s.Kept where
  asked : s.asked = none
  held : ∀ other, other ≠ id → ∀ target, Held s.memory s.happened other target
  clear : ∀ other, other ≠ target → Clear s.happened id other
  few : starts id target s.happened ≤ queued
  not_refused : ¬RefusedSince id target s.happened

/-- The connection is about to be latched. -/
structure Priming.Latching (id : Option Str) (s : Priming) : Prop extends s.Kept where
  held : ∀ other, other ≠ id → ∀ target, Held s.memory s.happened other target

section Kept

variable {s : Priming} {m m' : Memory} {happened : List PrimingEvent} {id : Option Str}
  {target : Target} {queued : Nat} {e : PrimingEvent}

theorem clear_reset (h : e.resets id target = true) : Clear (e :: happened) id target :=
  ⟨not_refusedSince_reset h, starts_reset h⟩

theorem held_of_clear (h : Clear happened id target) : Held m happened id target :=
  Or.inr ⟨h.1, Or.inl h.2⟩

theorem about_ne {other : Option Str} {target' : Target} (hid : other ≠ id) :
    some (id, target) ≠ some (other, target') :=
  fun heq => hid (congrArg Prod.fst (Option.some.inj heq)).symm

/-- What is not about a connection's target leaves a count as it is. -/
theorem held_apart (habout : e.about ≠ some (id, target)) (hprimed : m'.primed id = m.primed id)
    (hattempted : m'.attempted id = m.attempted id) (h : Held m happened id target) :
    Held m' (e :: happened) id target := by
  have hqueued : e ≠ .queued id target := fun heq => habout (congrArg PrimingEvent.about heq)
  have hrefused : e ≠ .refused id target := fun heq => habout (congrArg PrimingEvent.about heq)
  have hle : starts id target (e :: happened) ≤ starts id target happened := starts_cons_le hqueued
  rcases h with h | ⟨hnot, hzero | ⟨count, hcount, hfew⟩⟩
  · exact Or.inl (hprimed.trans h)
  · exact Or.inr ⟨not_refusedSince_cons hrefused hnot, Or.inl (by omega)⟩
  · exact Or.inr ⟨not_refusedSince_cons hrefused hnot,
      Or.inr ⟨count, hattempted.trans hcount, hle.trans hfew⟩⟩

theorem past_cons (h : s.Kept) (hnew : ∀ id target, e = .queued id target →
      starts id target s.happened < primeAttempts ∧ ¬RefusedSince id target s.happened) :
    ∀ happened, happened <:+ e :: s.happened → ∀ id target, Bounded id target happened := by
  intro happened hsuffix id target
  rcases List.suffix_cons_iff.mp hsuffix with rfl | hsuffix
  · exact bounded_cons (h.past _ List.suffix_rfl id target) (hnew id target)
  · exact h.past _ hsuffix id target

/-! Other threads forget connections. -/

theorem forget_kept (h : s.Kept) (other : Option Str) : (s.forget other).Kept := by
  refine ⟨past_cons h fun id target heq => PrimingEvent.noConfusion heq, ?_⟩
  intro id target count hattempted
  by_cases hid : id = other
  · have hnone : (s.forget other).memory.attempted other = none := Function.update_self _ _ _
    rw [hid, hnone] at hattempted
    exact absurd hattempted.symm (Option.some_ne_none _)
  · exact h.counts id target count ((Function.update_of_ne hid _ _).symm.trans hattempted)

theorem held_forget (other : Option Str) (h : Held s.memory s.happened id target) :
    Held (s.forget other).memory (s.forget other).happened id target := by
  by_cases hid : id = other
  · exact held_of_clear (clear_reset (decide_eq_true hid.symm))
  · exact held_apart (Option.some_ne_none _).symm (Function.update_of_ne hid _ _)
      (Function.update_of_ne hid _ _) h

theorem starts_forget_le (other : Option Str) :
    starts id target (s.forget other).happened ≤ starts id target s.happened :=
  starts_cons_le fun heq => PrimingEvent.noConfusion heq

theorem not_refusedSince_forget (other : Option Str) (h : ¬RefusedSince id target s.happened) :
    ¬RefusedSince id target (s.forget other).happened :=
  not_refusedSince_cons (fun heq => PrimingEvent.noConfusion heq) h

/-- Forgetting a connection keeps the property. -/
def KeptForgetting (I : Priming → Prop) : Prop :=
  ∀ s other, I s → I (s.forget other)

theorem forgetting_sound : KeptForgetting Priming.Sound :=
  fun _ other h => ⟨forget_kept h.toKept other, h.asked, fun id target =>
    held_forget other (h.held id target)⟩

/-- A connection that is not latched is not latched by forgetting one. -/
theorem forgetting_open (c : Connection) : KeptForgetting fun s : Priming =>
    s.Sound ∧ s.memory.primed c.id ≠ some c.target := by
  rintro s other ⟨h, hprimed⟩
  refine ⟨forgetting_sound s other h, ?_⟩
  by_cases hid : c.id = other
  · have hnone : (s.forget other).memory.primed other = none := Function.update_self _ _ _
    rw [hid, hnone]
    exact (Option.some_ne_none _).symm
  · have hsame : (s.forget other).memory.primed c.id = s.memory.primed c.id :=
      Function.update_of_ne hid _ _
    rw [hsame]
    exact hprimed

theorem forgetting_ready (id : Option Str) (target : Target) (queued : Nat) :
    KeptForgetting (Priming.Ready id target queued) :=
  fun _ other h => ⟨forget_kept h.toKept other, fun id target =>
  held_forget other (h.held id target),
    (starts_forget_le other).trans h.few, not_refusedSince_forget other h.not_refused⟩

theorem forgetting_queued (id : Option Str) (target : Target) (queued : Nat) :
    KeptForgetting (Priming.Queued id target queued) := by
  intro s other h
  refine ⟨forget_kept h.toKept other, h.asked,
    fun id' hid target' => held_forget other (h.held id' hid target'), fun target' htarget => ?_,
    (starts_forget_le other).trans h.few, not_refusedSince_forget other h.not_refused⟩
  have hclear : Clear s.happened id target' := h.clear target' htarget
  have hle : starts id target' (s.forget other).happened ≤ starts id target' s.happened :=
    starts_forget_le other
  have hzero : starts id target' s.happened = 0 := hclear.2
  exact ⟨not_refusedSince_forget other hclear.1, by omega⟩

theorem forgetting_latching (id : Option Str) : KeptForgetting (Priming.Latching id) :=
  fun _ other h => ⟨forget_kept h.toKept other, fun id' hid target' =>
    held_forget other (h.held id' hid target')⟩

theorem forgetting_all {I : Priming → Prop} (hI : KeptForgetting I) (hs : I s)
    (ids : List (Option Str)) : I (s.forgetAll ids) := by
  induction ids generalizing s with
  | nil => exact hs
  | cons other ids ih => exact ih (hI s other hs)

/-! What the monitor does. -/

/-- A start is queued on a count below the bound. -/
theorem start_queued (h : s.Ready id target queued) (hqueued : queued < primeAttempts) :
    (s.start id target).Queued id target (queued + 1) := by
  have hfew : starts id target s.happened ≤ queued := h.few
  refine ⟨⟨past_cons h.toKept ?_, h.counts⟩, rfl, fun other hid target' => ?_,
    fun target' htarget => ?_, ?_, ?_⟩
  · intro other target' heq
    injection heq with hid htarget
    subst hid htarget
    exact ⟨by omega, h.not_refused⟩
  · exact held_apart (about_ne hid) rfl rfl (h.held other target')
  · exact clear_reset (decide_eq_true ⟨rfl, fun heq => htarget heq.symm⟩)
  · change starts id target (.queued id target :: s.happened) ≤ queued + 1
    rw [starts_queued]
    omega
  · exact not_refusedSince_cons (fun heq => PrimingEvent.noConfusion heq) h.not_refused

/-- The start that was queued is remembered. -/
theorem record_sound (h : s.Queued id target queued) (hqueued : queued ≤ primeAttempts) :
    (s.record id target queued).Sound := by
  refine ⟨⟨h.past, fun other target' count hattempted => ?_⟩, rfl, fun other target' => ?_⟩
  · by_cases hid : other = id
    · have hnow : (s.record id target queued).memory.attempted id = some (target, queued) :=
        Function.update_self _ _ _
      rw [hid, hnow] at hattempted
      rw [← (Prod.mk.inj (Option.some.inj hattempted)).2]
      exact hqueued
    · exact h.counts other target' count ((Function.update_of_ne hid _ _).symm.trans hattempted)
  · by_cases hid : other = id
    · by_cases htarget : target' = target
      · rw [hid, htarget]
        exact Or.inr ⟨h.not_refused, Or.inr ⟨queued, Function.update_self _ _ _, h.few⟩⟩
      · rw [hid]
        exact held_of_clear (h.clear target' htarget)
    · rcases h.held other hid target' with hprimed | ⟨hnot, hzero | ⟨count, hcount, hfew⟩⟩
      · exact Or.inl hprimed
      · exact Or.inr ⟨hnot, Or.inl hzero⟩
      · exact Or.inr ⟨hnot, Or.inr ⟨count, (Function.update_of_ne hid _ _).trans hcount, hfew⟩⟩

/-- A latch leaves nothing to keep the monitor from. -/
theorem latch_sound (h : s.Latching id) (target : Target) (because : Str) :
    (s.latch id target because).Sound := by
  refine ⟨⟨past_cons h.toKept fun _ _ heq => PrimingEvent.noConfusion heq, ?_⟩, rfl,
    fun other target' => ?_⟩
  · intro other target' count hattempted
    by_cases hid : other = id
    · have hnone : (s.latch id target because).memory.attempted id = none :=
        Function.update_self _ _ _
      rw [hid, hnone] at hattempted
      exact absurd hattempted.symm (Option.some_ne_none _)
    · exact h.counts other target' count ((Function.update_of_ne hid _ _).symm.trans hattempted)
  · by_cases hid : other = id
    · by_cases htarget : target' = target
      · rw [hid, htarget]
        exact Or.inl (Function.update_self _ _ _)
      · rw [hid]
        exact held_of_clear
          (clear_reset (decide_eq_true ⟨rfl, Or.inl fun heq => htarget heq.symm⟩))
    · exact held_apart (about_ne hid) (Function.update_of_ne hid _ _)
        (Function.update_of_ne hid _ _) (h.held other hid target')

/-- What is remembered of the starts is enough to queue one on. -/
theorem ready_of_attempted {c : Connection} (h : s.Sound)
    (hprimed : s.memory.primed c.id ≠ some c.target) :
    s.Ready c.id c.target (queuedFor c (s.memory.attempted c.id)) := by
  rcases (h.held c.id c.target).resolve_left hprimed with ⟨hnot, hstarts⟩
  refine ⟨h.toKept, h.held, ?_, hnot⟩
  rcases hstarts with hzero | ⟨count, hcount, hfew⟩
  · omega
  · have hqueued : queuedFor c (some (c.target, count)) = count := if_pos rfl
    rw [hcount, hqueued]
    exact hfew

theorem queuedFor_le {c : Connection} (h : s.Kept) :
    queuedFor c (s.memory.attempted c.id) ≤ primeAttempts := by
  unfold queuedFor
  cases hattempted : s.memory.attempted c.id with
  | none => exact Nat.zero_le _
  | some attempt =>
      dsimp only
      split
      · exact h.counts c.id attempt.1 attempt.2 hattempted
      · exact Nat.zero_le _

/-- A count that is not zero is remembered. -/
theorem attempted_of_queuedFor {c : Connection} {attempt : Option (Target × Nat)}
    (h : queuedFor c attempt ≠ 0) : ∃ count, attempt = some (c.target, count) := by
  cases attempt with
  | none => exact absurd rfl h
  | some attempt =>
      by_cases htarget : attempt.1 = c.target
      · exact ⟨attempt.2, congrArg some (Prod.ext htarget rfl)⟩
      · exact absurd (if_neg htarget) h

theorem Priming.Ready.latching (h : s.Ready id target queued) : s.Latching id :=
  ⟨h.toKept, fun other _ target' => h.held other target'⟩

/-- A refusal of the connection that was asked for is one to latch it for. -/
theorem refuse_latching {count : Nat} (h : s.Ready id target queued)
    (hasked : s.asked = some (id, some (target, count))) : s.refuse.Latching id := by
  unfold Priming.refuse
  rw [hasked]
  refine ⟨⟨past_cons h.toKept fun _ _ heq => PrimingEvent.noConfusion heq, h.counts⟩,
    fun other hid target' => ?_⟩
  exact held_apart (about_ne hid) rfl rfl (h.held other target')

end Kept

/-! ### Steps, turns and polls -/

section Turns

variable [Decimals] {s : Priming}

/-- A step, from what is kept until it is taken. -/
theorem always_primed {op : MonitorOp} {Q : Except Exc op.Value → Priming → Prop}
    {I : Priming → Prop} (hI : KeptForgetting I) (hs : I s)
    (h : ∀ s₁, I s₁ → ∀ ans s', s₁.serves op ans s' → Q ans s') :
    Always primingMachine (take op) Q s := by
  rw [always_take]
  rintro ans s' ⟨ids, hserves⟩
  exact h _ (forgetting_all hI hs ids) ans s' hserves

/-- A step that starts and latches nothing, and asks for no attempts. -/
def MonitorOp.LeavesCounts : MonitorOp → Prop
  | .start _ _ _ | .attemptFor _ | .latch _ _ _ | .recordAttempt _ _ _ => False
  | _ => True

omit [Decimals] in
theorem settle_sound (h : s.Sound) : s.settle.Sound :=
  ⟨⟨h.past, h.counts⟩, rfl, h.held⟩

omit [Decimals] in
theorem read_sound (h : s.Sound) (ans : Except Exc Config) : (s.read ans).Sound := by
  cases ans with
  | error e => exact settle_sound h
  | ok config =>
      exact ⟨⟨past_cons h.toKept fun _ _ heq => PrimingEvent.noConfusion heq, h.counts⟩, rfl,
        fun id target => held_apart (Option.some_ne_none _).symm rfl rfl (h.held id target)⟩

theorem leavesCounts_sound {op : MonitorOp} {ans : Except Exc op.Value} {s' : Priming}
    (hop : op.LeavesCounts) (h : s.Sound) (hserves : s.serves op ans s') : s'.Sound := by
  cases op
  case load =>
      rw [show s' = s.read ans from hserves]
      exact read_sound h ans
  case journal unit =>
      -- nothing was asked, so a refusal is about nothing
      have hrefuse : s.refuse = s.settle := by
        unfold Priming.refuse
        rw [h.asked]
      have hs' : s' = if saysRefused ans then s.refuse else s.settle := hserves
      rw [hrefuse, ite_self] at hs'
      rw [hs']
      exact settle_sound h
  case primedTarget id =>
      rw [hserves.2]
      exact settle_sound h
  case previousState id =>
      rw [hserves.2]
      exact settle_sound h
  case replaceStates current =>
      rw [hserves.2]
      exact ⟨⟨h.past, h.counts⟩, rfl, h.held⟩
  case forget id =>
      rw [hserves.2]
      exact forgetting_sound _ id (settle_sound h)
  case start => exact hop.elim
  case attemptFor => exact hop.elim
  case latch => exact hop.elim
  case recordAttempt => exact hop.elim
  all_goals
    have hs' : s' = s.settle := hserves
    rw [hs']
    exact settle_sound h

theorem step_leavesCounts {op : MonitorOp} {ans : Except Exc op.Value} {s' : Priming}
    (hop : op.LeavesCounts) (hs : s.Sound) (hstep : primingMachine op s ans s') : s'.Sound := by
  rcases hstep with ⟨ids, hserves⟩
  exact leavesCounts_sound hop (forgetting_all forgetting_sound hs ids) hserves

/-- Queueing a start on a count below the bound. -/
theorem queueStart_bounded {c : Connection} {queued : Nat} (hs : s.Ready c.id c.target queued)
    (hqueued : queued < primeAttempts) (unit : Str) :
    Always primingMachine (queueStart c unit queued) (fun _ s' => s'.Sound) s := by
  unfold queueStart
  rw [always_bind]
  refine always_takeOr ?_
  rw [always_bind]
  refine always_primed (forgetting_ready c.id c.target queued) hs fun s₁ hs₁ ans s' hserves => ?_
  rcases hserves with ⟨rfl, rfl⟩ | ⟨⟨e, rfl⟩, rfl⟩
  · change Always primingMachine (take (.recordAttempt c.id c.target (queued + 1))) _ _
    refine always_primed (forgetting_queued c.id c.target (queued + 1)) (start_queued hs₁ hqueued)
      fun s₂ hs₂ ans s' hserves => ?_
    rw [hserves.2]
    exact record_sound hs₂ hqueued
  · have hsettled : s₁.settle.Sound := ⟨⟨hs₁.past, hs₁.counts⟩, rfl, hs₁.held⟩
    change if e.isSmbpal = true then _ else _
    split
    · exact hsettled
    · exact hsettled

/-- Latching a connection. -/
theorem latch_bounded {id : Option Str} (hs : s.Latching id) (target : Target) (because : Str) :
    Always primingMachine (take (.latch id target because)) (fun _ s' => s'.Sound) s := by
  refine always_primed (forgetting_latching id) hs fun s₁ hs₁ ans s' hserves => ?_
  rw [hserves.2]
  exact latch_sound hs₁ target because

/-- Asking the journal about a start that came to nothing. -/
theorem journalCause_bounded {id : Option Str} {target : Target} {queued count : Nat} {unit : Str}
    {Q : Except Exc (Option Cause) → Priming → Prop} (hs : s.Ready id target queued)
    (hasked : s.asked = some (id, some (target, count)))
    (hrefused : ∀ s₁ cause, s₁.Latching id → cause.retryable = false → Q (.ok (some cause)) s₁)
    (hother : ∀ s₁ said, s₁.Ready id target queued → s₁.asked = none →
      (∀ cause, said = some cause → cause.retryable = true) → Q (.ok said) s₁)
    (herror : ∀ s₁ e, s₁.Ready id target queued → s₁.asked = none → Q (.error e) s₁) :
    Always primingMachine (journalCause unit) Q s := by
  refine always_takeOr ?_
  rw [always_bind]
  have hkept : KeptForgetting fun s : Priming => s.Ready id target queued ∧
      s.asked = some (id, some (target, count)) :=
    fun s other h => ⟨forgetting_ready id target queued s other h.1, h.2⟩
  refine always_primed hkept ⟨hs, hasked⟩ fun s₁ hs₁ ans s' hserves => ?_
  have hs' : s' = if saysRefused ans then s₁.refuse else s₁.settle := hserves
  have hsettled : s₁.settle.Ready id target queued :=
    ⟨⟨hs₁.1.past, hs₁.1.counts⟩, hs₁.1.held, hs₁.1.few, hs₁.1.not_refused⟩
  -- A journal that cannot be read says nothing, so the attempt only settles.
  cases ans with
  | error e =>
      have hsettle : s' = s₁.settle := hs'
      rw [hsettle]
      change if e.isSmbpal = true then _ else _
      split
      · exact hother _ none hsettled rfl fun cause hcause =>
          absurd hcause.symm (Option.some_ne_none _)
      · exact herror _ e hsettled rfl
  | ok text =>
      change Q (.ok (translateJournal text)) s'
      -- A cause that is not retried is the refusal the bound speaks of.
      cases hsaid : (translateJournal text).filter fun cause => !cause.retryable with
      | some cause =>
          rcases Option.filter_eq_some_iff.mp hsaid with ⟨hcause, hretry⟩
          have hrefuse : s' = s₁.refuse := by
            rw [hs']
            exact if_pos (congrArg Option.isSome hsaid)
          rw [hrefuse, hcause]
          exact hrefused _ cause (refuse_latching hs₁.1 hs₁.2) (by simpa using hretry)
      | none =>
          have hsettle : s' = s₁.settle := by
            rw [hs']
            exact if_neg (by rw [saysRefused, hsaid]; exact Bool.false_ne_true)
          rw [hsettle]
          refine hother _ _ hsettled rfl fun cause hcause => ?_
          have hretry := Option.filter_eq_none_iff.mp hsaid cause hcause
          simpa using hretry

/-- Asking whether to prime a connection that is not latched. -/
theorem mayPrime_open (c : Connection)
    (hs : s.Sound ∧ s.memory.primed c.id ≠ some c.target) :
    Always primingMachine (mayPrime c)
      (fun _ s' => s'.Sound ∧ s'.memory.primed c.id ≠ some c.target) s := by
  unfold mayPrime
  dsimp only
  split
  · exact hs
  · split
    · refine always_primed (forgetting_open c) hs fun s₁ hs₁ ans s' hserves => ?_
      have hs' : s' = s₁.settle := hserves
      rw [hs']
      exact ⟨settle_sound hs₁.1, hs₁.2⟩
    · exact hs

/-- Priming an idle connection keeps to the bound. -/
theorem primeIdle_bounded {c : Connection} (hs : s.Sound)
    (hprimed : s.memory.primed c.id ≠ some c.target) (unit : Str) :
    Always primingMachine (primeIdle c unit) (fun _ s' => s'.Sound) s := by
  unfold primeIdle
  rw [always_bind]
  refine always_primed (forgetting_open c) ⟨hs, hprimed⟩ fun s₁ hs₁ ans s' hserves => ?_
  rcases hserves with ⟨rfl, rfl⟩
  have hready := ready_of_attempted hs₁.1 hs₁.2
  have hle : queuedFor c (s₁.memory.attempted c.id) ≤ primeAttempts := queuedFor_le hs₁.1.toKept
  have hasking : ({ s₁ with asked := some (c.id, s₁.memory.attempted c.id) } : Priming).Ready
      c.id c.target (queuedFor c (s₁.memory.attempted c.id)) :=
    ⟨⟨hready.past, hready.counts⟩, hready.held, hready.few, hready.not_refused⟩
  rw [andThen_ok]
  dsimp only
  by_cases hzero : queuedFor c (s₁.memory.attempted c.id) = 0
  · rw [if_pos hzero]
    exact queueStart_bounded hasking (by unfold primeAttempts; omega) unit
  · -- the starts that are remembered are those of what the connection points at
    rw [if_neg hzero, always_bind]
    rcases attempted_of_queuedFor hzero with ⟨count, hcount⟩
    refine journalCause_bounded hasking (congrArg (fun a => some (c.id, a)) hcount) ?_ ?_ ?_
    · intro s₂ cause hs₂ hretry
      rw [andThen_ok, show (some cause).filter (fun cause => !cause.retryable) = some cause by
        rw [Option.filter_some, hretry]; rfl]
      exact latch_bounded hs₂ _ _
    · intro s₂ said hs₂ hasked hsaid
      have hnone : said.filter (fun cause => !cause.retryable) = none :=
        Option.filter_eq_none_iff.mpr fun cause hcause => by rw [hsaid cause hcause]; decide
      rw [andThen_ok, hnone]
      dsimp only
      split
      · exact latch_bounded hs₂.latching _ _
      · exact queueStart_bounded hs₂ (by omega) unit
    · exact fun s₂ e hs₂ hasked => ⟨hs₂.toKept, hasked, hs₂.held⟩

/-- The program keeps to the bound. -/
abbrev KeepsBound {α : Type} (p : MonitorM α) : Prop :=
  Preserves primingMachine Priming.Sound p

/-- A turn keeps to the bound. -/
theorem maybePrime_bounded (c : Connection) (state : ConnectionState) :
    KeepsBound (maybePrime c state) := by
  unfold maybePrime
  refine preserves_bind (preserves_fromExcept _) fun names => ?_
  split
  · -- A mounted share latches its own target and starts nothing.
    intro s hs
    rw [always_bind]
    refine always_primed forgetting_sound hs fun s₁ hs₁ ans s' hserves => ?_
    rcases hserves with ⟨rfl, rfl⟩
    have hlatching : ({ s₁ with asked := some (c.id, s₁.memory.attempted c.id) } : Priming).Latching
        c.id := ⟨⟨hs₁.past, hs₁.counts⟩, fun other _ target => hs₁.held other target⟩
    exact latch_bounded hlatching c.target wasMounted
  · intro s hs
    rw [always_bind]
    refine always_primed forgetting_sound hs fun s₁ hs₁ ans s' hserves => ?_
    rcases hserves with ⟨rfl, rfl⟩
    rw [andThen_ok]
    split
    · exact settle_sound hs₁
    · rename_i hgoes
      have hprimed : s₁.memory.primed c.id ≠ some c.target := fun h => hgoes (Or.inl h)
      rw [always_bind]
      -- Between asking and starting, the client may forget the id.
      refine always_mono (mayPrime_open c ⟨settle_sound hs₁, hprimed⟩) fun r s₂ hs₂ => ?_
      cases r with
      | error e => exact hs₂.1
      | ok may =>
          cases may with
          | false => exact hs₂.1
          | true => exact primeIdle_bounded hs₂.1 hs₂.2 names.1

variable [Unicode]

omit [Decimals] [Unicode] in
theorem leavesCounts_of_telling {op : MonitorOp} (h : op.IsTelling) : op.LeavesCounts := by
  cases op
  case start => exact h.elim
  case attemptFor => exact h.elim
  case latch => exact h.elim
  case recordAttempt => exact h.elim
  all_goals trivial

/-- A poll keeps to the bound. -/
theorem poll_bounded (prime : Bool) : KeepsBound (poll prime) := by
  refine preserves_poll prime (I := fun _ => Priming.Sound) (fun s ans s' hs hstep => ?_)
    (fun config op s ans s' hop hs hstep =>
      step_leavesCounts (leavesCounts_of_telling hop) hs hstep)
    (fun config c _ state => maybePrime_bounded c state) fun config s hs => hs
  have hleaves : MonitorOp.LeavesCounts .load := trivial
  have hs' : s'.Sound := step_leavesCounts hleaves hs hstep
  exact ⟨fun _ _ => hs', fun _ _ => hs'⟩

/-- What happens to a monitor: a poll, and a connection forgotten between two. -/
inductive PrimingStep where
  | poll (prime : Bool)
  | forget (id : Option Str)

/-- What it does. -/
def Priming.Steps (s : Priming) : PrimingStep → Priming → Prop
  | .poll prime, s' => ∃ r s₁, Exec primingMachine (poll prime) s r s₁ ∧ s' = s₁.settle
  | .forget id, s' => s' = s.forget id

theorem run_sound {s : Priming}
    (hrun : GuardedRun Priming.Steps (fun _ _ => True) Priming.fresh s) : s.Sound := by
  have hnothing : ∀ id target, since id target [] = [] := fun _ _ => rfl
  have hfresh : Priming.fresh.Sound := by
    refine ⟨⟨fun happened hsuffix id target => ?_, fun _ _ _ h => ?_⟩, rfl, fun id target => ?_⟩
    · rw [List.suffix_nil.mp hsuffix]
      exact ⟨Nat.zero_le _, fun newer older hsplit =>
        absurd hsplit.symm (List.append_ne_nil_of_right_ne_nil _ (List.cons_ne_nil _ _))⟩
    · exact absurd h.symm (Option.some_ne_none _)
    · exact held_of_clear ⟨List.not_mem_nil, rfl⟩
  refine hrun.invariant Priming.Sound hfresh fun s e s' hs _ hstep => ?_
  cases e with
  | poll prime =>
      rcases hstep with ⟨r, s₁, hx, rfl⟩
      exact settle_sound (always_exec (poll_bounded prime s hs) hx)
  | forget id =>
      rw [show s' = _ from hstep]
      exact forgetting_sound s id hs

omit [Decimals] [Unicode] in
/-- Where the memory does not count anew, all of it is counted. -/
theorem since_append {id : Option Str} {target : Target} {window older : List PrimingEvent}
    (h : ∀ e ∈ window, e.resets id target = false) :
    since id target (window ++ older) = window ++ since id target older := by
  unfold since
  exact List.takeWhile_append_of_pos fun e he => by rw [h e he]; rfl

/-- In every run, among what happened one after another while the memory did not
    count anew, there are few starts, and none after a refusal. -/
theorem run_bounded {s : Priming}
    (hrun : GuardedRun Priming.Steps (fun _ _ => True) Priming.fresh s) {id : Option Str}
    {target : Target} {newer window older : List PrimingEvent}
    (hwindow : s.happened = newer ++ (window ++ older))
    (hgoing : ∀ e ∈ window, e.resets id target = false) :
    window.count (.queued id target) ≤ primeAttempts ∧
      ∀ later earlier, window = later ++ .refused id target :: earlier →
        .queued id target ∉ later := by
  have hbounded : Bounded id target (window ++ older) :=
    (run_sound hrun).past _ ⟨newer, hwindow.symm⟩ id target
  have hsince : since id target (window ++ older) = window ++ since id target older :=
    since_append hgoing
  refine ⟨?_, fun later earlier hsplit => ?_⟩
  · have hfew := hbounded.few
    unfold starts at hfew
    rw [hsince, List.count_append] at hfew
    omega
  · refine hbounded.none_after later (earlier ++ since id target older) ?_
    rw [hsince, hsplit, List.append_assoc, List.cons_append]

end Turns

end Smbpal
