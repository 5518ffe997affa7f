import Mathlib.Logic.Function.Basic
import Smbpal.Lib.Run
import Smbpal.Python.Text

/-!
# The Monitor's Loop and Its Two Events

`StateMonitor._loop` with the threads that call `nudge`, `forget` and `stop`. The loop tests
`_stop`, clears `_wake`, polls, and waits for `_wake`; a nudge sets `_wake`, and stopping sets
`_stop` and then `_wake`.

A nudge that the clearing takes away is served by the poll that follows. A stop is not: the
loop has tested `_stop` already, and with `_wake` cleared it waits out its interval with a
stop made (`stop_slept_over`). As long as no stop sets `_wake` between the test and the
clearing, the loop never sleeps over one.

## Main definitions

* `LoopPoint`: How far the loop has come.
* `Calling`: What a thread has left to do in a call.
* `Watch`: The loop, the events, and the threads.
* `WatchStep`: What may happen.
* `WakeServed`: That the loop is not blocked with something left to do.
* `NoStopCleared`: That no stop sets `_wake` where the loop is about to clear it.

## Theorems

* `WatchStep.inv`: Such a step keeps the invariant.
* `loop_serves`: The loop never sleeps on a nudge or a stop.
* `stop_slept_over`: A run in which it does.
-/

namespace Smbpal

open Lib

/-- How far the loop has come. In a poll it may have dropped a memory and not nudged yet. -/
inductive LoopPoint where
  | test
  | clear
  | poll
  | polling
  | dropped
  | wait
  | ended
  deriving DecidableEq

/-- What a thread has left of a call: `forget` has dropped the memory, or `stop` has set
    `_stop`, and `_wake` is to be set. -/
inductive Calling where
  | forget
  | stop
  deriving DecidableEq

/-- The loop, what it shares with the other threads, and the calls half done. Whether
    something has nudged since the last poll started is nowhere in the program. -/
structure Watch (τ : Type) where
  loop : LoopPoint
  wake : Bool
  stopped : Bool
  remembered : Str → Bool
  calls : τ → Option Calling
  nudged : Bool

/-- What happens. -/
inductive WatchEvent (τ : Type) where
  | test
  | clear
  | pollStarts
  | pollRemembers (id : Str)
  | pollDrops (id : Str)
  | pollNudges
  | pollEnds
  | woken
  | timeout
  | nudge (thread : τ)
  | forgetDrops (thread : τ) (id : Str)
  | forgetNudges (thread : τ)
  | stopSets (thread : τ)
  | stopWakes (thread : τ)

namespace Watch

variable {τ : Type}

/-- The loop starts, and nobody has called. -/
def init : Watch τ where
  loop := .test
  wake := false
  stopped := false
  remembered := fun _ => false
  calls := fun _ => none
  nudged := false

/-- `self._wake.set()`, in `nudge`. -/
def nudge (w : Watch τ) : Watch τ :=
  { w with wake := true, nudged := true }

/-- Drop what priming remembers. -/
def drop (w : Watch τ) (id : Str) : Watch τ :=
  { w with remembered := Function.update w.remembered id false }

/-- A thread's call. -/
def setCall [DecidableEq τ] (w : Watch τ) (thread : τ) (call : Option Calling) : Watch τ :=
  { w with calls := Function.update w.calls thread call }

end Watch

/-- What a step may do. -/
inductive WatchStep {τ : Type} [DecidableEq τ] (w : Watch τ) : WatchEvent τ → Watch τ → Prop where
  | test (h : w.loop = .test) :
      WatchStep w .test { w with loop := if w.stopped then .ended else .clear }
  | clear (h : w.loop = .clear) : WatchStep w .clear { w with loop := .poll, wake := false }
  | pollStarts (h : w.loop = .poll) :
      WatchStep w .pollStarts { w with loop := .polling, nudged := false }
  | pollRemembers (id : Str) (h : w.loop = .polling) :
      WatchStep w (.pollRemembers id)
        { w with remembered := Function.update w.remembered id true }
  | pollDrops (id : Str) (h : w.loop = .polling) :
      WatchStep w (.pollDrops id) { w.drop id with loop := .dropped }
  | pollNudges (h : w.loop = .dropped) :
      WatchStep w .pollNudges { w.nudge with loop := .polling }
  | pollEnds (h : w.loop = .polling) : WatchStep w .pollEnds { w with loop := .wait }
  | woken (h : w.loop = .wait) (hwake : w.wake = true) :
      WatchStep w .woken { w with loop := .test }
  | timeout (h : w.loop = .wait) : WatchStep w .timeout { w with loop := .test }
  | nudge (thread : τ) (h : w.calls thread = none) : WatchStep w (.nudge thread) w.nudge
  | forgetDrops (thread : τ) (id : Str) (h : w.calls thread = none) :
      WatchStep w (.forgetDrops thread id) ((w.drop id).setCall thread (some .forget))
  | forgetNudges (thread : τ) (h : w.calls thread = some .forget) :
      WatchStep w (.forgetNudges thread) (w.nudge.setCall thread none)
  | stopSets (thread : τ) (h : w.calls thread = none) :
      WatchStep w (.stopSets thread) ({ w with stopped := true }.setCall thread (some .stop))
  | stopWakes (thread : τ) (h : w.calls thread = some .stop) :
      WatchStep w (.stopWakes thread) ({ w with wake := true }.setCall thread none)

/-- The loop is in its wait, and nothing wakes it but the interval. -/
def LoopBlocked {τ : Type} (w : Watch τ) : Prop :=
  w.loop = .wait ∧ w.wake = false

/-- With no call half done, a blocked loop has nothing left to do. -/
def WakeServed {τ : Type} (w : Watch τ) : Prop :=
  (∀ thread, w.calls thread = none) → LoopBlocked w → w.nudged = false ∧ w.stopped = false

/-- No stop sets `_wake` between the loop's test of `_stop` and its clearing of `_wake`. -/
def NoStopCleared {τ : Type} (w : Watch τ) : WatchEvent τ → Prop
  | .stopWakes _ => w.loop ≠ .clear
  | _ => True

section Invariant

variable {τ : Type}

/-- What a nudge and a stop leave for the loop to find. -/
structure WatchInv (w : Watch τ) : Prop where
  nudge : w.loop ≠ .poll → w.nudged = true → w.wake = true
  stop : w.stopped = true →
    w.wake = true ∧ w.loop ≠ .clear ∨ ∃ thread, w.calls thread = some .stop

theorem watchInv_init : WatchInv (Watch.init : Watch τ) :=
  ⟨fun _ h => absurd h Bool.false_ne_true, fun h => absurd h Bool.false_ne_true⟩

theorem WatchInv.nudged {w : Watch τ} (h : WatchInv w) : WatchInv w.nudge where
  nudge := fun _ _ => rfl
  stop := fun hstopped => (h.stop hstopped).imp_left fun hleft => ⟨rfl, hleft.2⟩

/-- The loop goes on without clearing anything, from and to a point where it does not. -/
theorem WatchInv.moves {w : Watch τ} (h : WatchInv w) {loop : LoopPoint} (hpoll : w.loop ≠ .poll)
    (hclear : loop ≠ .clear) : WatchInv { w with loop := loop } where
  nudge := fun _ => h.nudge hpoll
  stop := fun hstopped => (h.stop hstopped).imp_left fun hleft => ⟨hleft.1, hclear⟩

theorem WatchInv.drops {w : Watch τ} (h : WatchInv w) (remembered : Str → Bool) :
    WatchInv { w with remembered := remembered } :=
  ⟨h.nudge, h.stop⟩

variable [DecidableEq τ]

/-- A thread that is not about to wake the loop for a stop starts or ends another call. -/
theorem WatchInv.calls {w : Watch τ} (h : WatchInv w) {thread : τ} (call : Option Calling)
    (hcall : w.calls thread ≠ some .stop) : WatchInv (w.setCall thread call) where
  nudge := h.nudge
  stop := by
    intro hstopped
    refine (h.stop hstopped).imp_right fun ⟨other, hother⟩ => ⟨other, ?_⟩
    have hne : other ≠ thread := fun heq => hcall (heq ▸ hother)
    exact (Function.update_of_ne hne call w.calls).trans hother

/-- A step keeps the invariant, unless a stop's `_wake` is about to be cleared. -/
theorem WatchStep.inv {w w' : Watch τ} {e : WatchEvent τ} (hstep : WatchStep w e w')
    (h : WatchInv w) (hmet : NoStopCleared w e) : WatchInv w' := by
  cases hstep with
  | test hloop =>
      have hpoll : w.loop ≠ .poll := fun hpoll => absurd (hloop.symm.trans hpoll) (by decide)
      by_cases hstopped : w.stopped = true
      · rw [if_pos hstopped]
        exact h.moves hpoll (by decide)
      · rw [if_neg hstopped]
        exact ⟨fun _ => h.nudge hpoll, fun htrue => absurd htrue hstopped⟩
  | clear hloop =>
      refine ⟨fun hpoll => absurd rfl hpoll, fun hstopped => ?_⟩
      -- a stop made by now has not set `_wake` yet
      exact Or.inr ((h.stop hstopped).resolve_left fun hleft => hleft.2 hloop)
  | pollStarts hloop =>
      refine ⟨fun _ hnudged => absurd hnudged Bool.false_ne_true, fun hstopped => ?_⟩
      exact (h.stop hstopped).imp_left fun hleft => ⟨hleft.1,
        show LoopPoint.polling ≠ .clear by decide⟩
  | pollRemembers id hloop => exact h.drops _
  | pollDrops id hloop =>
      exact (h.drops _).moves (fun hpoll => absurd (hloop.symm.trans hpoll) (by decide))
        (by decide)
  | pollNudges hloop =>
      exact h.nudged.moves (fun hpoll => absurd (hloop.symm.trans hpoll) (by decide)) (by decide)
  | pollEnds hloop =>
      exact h.moves (fun hpoll => absurd (hloop.symm.trans hpoll) (by decide)) (by decide)
  | woken hloop hwake =>
      exact h.moves (fun hpoll => absurd (hloop.symm.trans hpoll) (by decide)) (by decide)
  | timeout hloop =>
      exact h.moves (fun hpoll => absurd (hloop.symm.trans hpoll) (by decide)) (by decide)
  | nudge thread hcall => exact h.nudged
  | forgetDrops thread id hcall =>
      exact (h.drops _).calls _ fun hstop => Option.some_ne_none _ (hstop.symm.trans hcall)
  | forgetNudges thread hcall =>
      refine h.nudged.calls _ fun hstop => ?_
      cases hcall.symm.trans hstop
  | stopSets thread hcall =>
      exact ⟨h.nudge, fun _ => Or.inr ⟨thread, Function.update_self thread _ w.calls⟩⟩
  | stopWakes thread hcall => exact ⟨fun _ _ => rfl, fun _ => Or.inl ⟨rfl, hmet⟩⟩

/-- In every run in which no stop's `_wake` is cleared, the loop never sleeps on a nudge, a
    `forget` or a stop. -/
theorem loop_serves {w : Watch τ} (hrun : GuardedRun WatchStep NoStopCleared Watch.init w) :
    WakeServed w := by
  have hinv : WatchInv w :=
    GuardedRun.invariant WatchInv watchInv_init (fun _ _ _ h hmet hstep => hstep.inv h hmet) hrun
  intro hcalls hblocked
  have hasleep : ¬w.wake = true := ne_true_of_eq_false hblocked.2
  refine ⟨eq_false_of_ne_true fun hnudged => ?_, eq_false_of_ne_true fun hstopped => ?_⟩
  · refine hasleep (hinv.nudge (fun hpoll => ?_) hnudged)
    rw [hblocked.1] at hpoll
    cases hpoll
  · rcases hinv.stop hstopped with hleft | ⟨thread, hthread⟩
    · exact hasleep hleft.1
    · exact Option.some_ne_none _ (hthread.symm.trans (hcalls thread))

end Invariant

section Slept

/-- A nudge in the middle of a poll is served by the next one, after which the loop waits. -/
theorem loop_serves_nudge : ∃ w : Watch Bool, LoopBlocked w ∧ WakeServed w := by
  have hrun : GuardedRun WatchStep NoStopCleared (Watch.init : Watch Bool) _ :=
    GuardedRun.start
    |>.next .test trivial (.test rfl)
    |>.next .clear trivial (.clear rfl)
    |>.next .pollStarts trivial (.pollStarts rfl)
    |>.next (.nudge true) trivial (.nudge true rfl)
    |>.next .pollEnds trivial (.pollEnds rfl)
    |>.next .woken trivial (.woken rfl rfl)
    |>.next .test trivial (.test rfl)
    |>.next .clear trivial (.clear rfl)
    |>.next .pollStarts trivial (.pollStarts rfl)
    |>.next .pollEnds trivial (.pollEnds rfl)
  exact ⟨_, ⟨rfl, rfl⟩, loop_serves hrun⟩

/-- A stop between the test and the clearing: the loop waits out its interval. -/
theorem stop_slept_over : ∃ w : Watch Bool,
    GuardedRun WatchStep (fun _ _ => True) Watch.init w ∧ (∀ thread, w.calls thread = none) ∧
      LoopBlocked w ∧ w.stopped = true ∧ ¬WakeServed w := by
  have hrun : GuardedRun WatchStep (fun _ _ => True) (Watch.init : Watch Bool) _ :=
    GuardedRun.start
    |>.next .test trivial (.test rfl)
    |>.next (.stopSets true) trivial (.stopSets true rfl)
    |>.next (.stopWakes true) trivial (.stopWakes true rfl)
    |>.next .clear trivial (.clear rfl)
    |>.next .pollStarts trivial (.pollStarts rfl)
    |>.next .pollEnds trivial (.pollEnds rfl)
  refine ⟨_, hrun, ?_, ⟨rfl, rfl⟩, rfl, ?_⟩
  · decide
  · intro h
    exact absurd (h (by decide) ⟨rfl, rfl⟩).2 (by decide)

end Slept

end Smbpal
