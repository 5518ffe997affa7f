import Smbpal.Agent.Links
import Smbpal.Lib.Run

/-!
# Reported States on the Agents' Links

Runs of `AgentLinks` and `Dispatcher._agent_state`: any number of connections of the same
and of different users, each with a thread that handles its frames in order and its
disconnect last.

A report takes the lock twice, to ask whether the connection is registered and to store
the rows, and the config is loaded in between. Another connection of the same user can
register in between and go again, and the report is then stored for a user without an
agent (`states_left_over`). As long as no connection registers while another's report is
between its two parts, what was asked is still so when the rows are stored.

## Main definitions

* `Reporter`: How far a connection's thread has come.
* `StateStep`: What a step may do.
* `Uninterrupted`: Nobody registers in the middle of another's report.

## Theorems

* `StateStep.inv`: Such a step keeps the invariant.
* `states_maintained`: Along such a run only a registered agent has states, and only it
  changes them.
* `states_left_over`: A run that leaves states behind.
-/

namespace Smbpal

open Lib

/-- How far the thread of a connection has come. -/
inductive Reporter where
  /-- Between two frames. -/
  | idle
  /-- In a report, after it was found to be registered. -/
  | reporting
  /-- After its disconnect. -/
  | gone
  deriving DecidableEq

/-- The links, and how far each connection's thread has come. -/
structure StateWorld (κ : Type) where
  links : Links κ
  thread : κ → Reporter

/-- The daemon starts. -/
def StateWorld.init {κ : Type} : StateWorld κ where
  links := Links.init
  thread := fun _ => .idle

/-- What a connection's thread does. -/
inductive StateEvent (κ : Type) where
  | register (c : κ)
  | check (c : κ)
  | store (c : κ) (rows : List ReportedRow)
  | abandon (c : κ)
  | drop (c : κ)

section Steps

variable {κ : Type} [DecidableEq κ] [AgentConnection κ]

/-- A connection's thread goes on. -/
def StateWorld.goesOn (w : StateWorld κ) (c : κ) (phase : Reporter) : κ → Reporter :=
  Function.update w.thread c phase

/-- What a step may do. -/
inductive StateStep : StateWorld κ → StateEvent κ → StateWorld κ → Prop where
  | register {w : StateWorld κ} {c : κ} (h : w.thread c = .idle) :
      StateStep w (.register c) { w with links := w.links.register c }
  /-- The connection is not registered, and the report is refused. -/
  | refused {w : StateWorld κ} {c : κ} (h : w.thread c = .idle)
      (hregistered : w.links.isRegistered c = false) : StateStep w (.check c) w
  | check {w : StateWorld κ} {c : κ} (h : w.thread c = .idle)
      (hregistered : w.links.isRegistered c = true) :
      StateStep w (.check c) { w with thread := w.goesOn c .reporting }
  /-- The rows are those of the report that are about the user's connections. -/
  | store {w : StateWorld κ} {c : κ} (rows : List ReportedRow) (h : w.thread c = .reporting) :
      StateStep w (.store c rows)
        { links := (w.links.setStates (peerUid c) rows).2
          thread := w.goesOn c .idle }
  /-- The report is no list, or the config cannot be loaded. -/
  | abandon {w : StateWorld κ} {c : κ} (h : w.thread c = .reporting) :
      StateStep w (.abandon c) { w with thread := w.goesOn c .idle }
  | drop {w : StateWorld κ} {c : κ} (h : w.thread c = .idle) :
      StateStep w (.drop c)
        { links := (w.links.drop c).2
          thread := w.goesOn c .gone }

/-- Nobody registers for a user while a report of another connection of that user is
    between its two parts. -/
def Uninterrupted (w : StateWorld κ) : StateEvent κ → Prop
  | .register c => ∀ other, other ≠ c → peerUid other = peerUid c → w.thread other ≠ .reporting
  | _ => True

/-- Only who has an agent has states, and only the registered agent changes them. -/
structure Maintained (w : StateWorld κ) : Prop where
  no_agent : ∀ uid, w.links.byUid.lookup uid = none → w.links.states.lookup uid = none
  not_registered : ∀ c rows w', w.links.isRegistered c = false →
    StateStep w (.store c rows) w' → w'.links.states = w.links.states

/-- What holds between any two steps of such a run. -/
structure StateInv (w : StateWorld κ) : Prop where
  own : w.links.OwnUid
  no_agent : ∀ uid, w.links.byUid.lookup uid = none → w.links.states.lookup uid = none
  reporting : ∀ c, w.thread c = .reporting → w.links.byUid.lookup (peerUid c) = some c

omit [DecidableEq κ] in
theorem stateInv_init : StateInv (StateWorld.init : StateWorld κ) where
  own := Links.ownUid_init
  no_agent := fun _ _ => rfl
  reporting := fun _ h => nomatch h

omit [AgentConnection κ] in
/-- A connection's thread is where it was, unless it is the one that goes on. -/
theorem reporting_of_goesOn {w : StateWorld κ} {c other : κ} {phase : Reporter}
    (hphase : phase ≠ .reporting) (h : w.goesOn c phase other = .reporting) :
    other ≠ c ∧ w.thread other = .reporting := by
  by_cases hsame : other = c
  · rw [hsame, StateWorld.goesOn, Function.update_self] at h
    exact absurd h hphase
  · rw [StateWorld.goesOn, Function.update_of_ne hsame] at h
    exact ⟨hsame, h⟩

/-- A step that interrupts no report keeps the invariant. -/
theorem StateStep.inv {w w' : StateWorld κ} {e : StateEvent κ} (h : StateInv w)
    (hmet : Uninterrupted w e) (hstep : StateStep w e w') : StateInv w' := by
  cases hstep with
  | @register c hidle =>
      refine ⟨h.own.register c, fun uid hnone => ?_, fun other hreporting => ?_⟩
      · rw [Links.lookup_register] at hnone
        by_cases huid : uid = peerUid c
        · rw [if_pos huid] at hnone
          exact nomatch hnone
        · rw [if_neg huid] at hnone
          exact h.no_agent uid hnone
      · -- another connection of that user is not in a report, and the one that registers is idle
        have hother : other ≠ c := fun heq => by
          rw [heq, hidle] at hreporting
          exact nomatch hreporting
        have huid : peerUid other ≠ peerUid c := fun heq => hmet other hother heq hreporting
        rw [Links.lookup_register, if_neg huid]
        exact h.reporting other hreporting
  | refused hidle hregistered => exact h
  | @check c hidle hregistered =>
      refine ⟨h.own, h.no_agent, fun other hreporting => ?_⟩
      by_cases hsame : other = c
      · rw [hsame]
        exact Links.isRegistered_iff.mp hregistered
      · have hstill : w.goesOn c .reporting other = w.thread other :=
          Function.update_of_ne hsame _ _
        exact h.reporting other (hstill.symm.trans hreporting)
  | @store c rows hreporting =>
      have hagent := h.reporting c hreporting
      refine ⟨h.own, fun uid hnone => ?_, fun other hother => ?_⟩
      · have huid : uid ≠ peerUid c := fun heq => by
          rw [heq] at hnone
          exact nomatch hagent.symm.trans hnone
        rw [Links.setStates, AList.lookup_insert_ne huid]
        exact h.no_agent uid hnone
      · exact h.reporting other (reporting_of_goesOn (by decide) hother).2
  | @abandon c hreporting =>
      exact ⟨h.own, h.no_agent, fun other hother =>
        h.reporting other (reporting_of_goesOn (by decide) hother).2⟩
  | @drop c hidle =>
      refine ⟨h.own.drop c, fun uid hnone => ?_, fun other hother => ?_⟩
      · rw [Links.lookup_drop] at hnone
        rw [Links.lookup_drop_states]
        by_cases hgone : w.links.byUid.lookup uid = some c
        · rw [if_pos hgone]
        · rw [if_neg hgone] at hnone ⊢
          exact h.no_agent uid hnone
      · rcases reporting_of_goesOn (by decide) hother with ⟨hsame, hreporting⟩
        have hagent := h.reporting other hreporting
        have hkept : w.links.byUid.lookup (peerUid other) ≠ some c := fun heq =>
          hsame (Option.some.inj (hagent.symm.trans heq))
        rw [Links.lookup_drop, if_neg hkept]
        exact hagent

/-- As long as nobody registers in the middle of another's report, only a user with an
    agent has states, and only the registered agent changes them. -/
theorem states_maintained {w : StateWorld κ}
    (hrun : GuardedRun StateStep Uninterrupted StateWorld.init w) : Maintained w := by
  have hinv : StateInv w :=
    GuardedRun.invariant StateInv stateInv_init (fun _ _ _ h hmet hstep => hstep.inv h hmet) hrun
  refine ⟨hinv.no_agent, fun c rows w' hregistered hstep => ?_⟩
  cases hstep with
  | store rows hreporting =>
      have hagent := Links.isRegistered_iff.mpr (hinv.reporting c hreporting)
      rw [hregistered] at hagent
      exact nomatch hagent

end Steps

section Replaced

/-- Two connections of one user. -/
@[reducible] def twoOfOne : AgentConnection Bool where
  peerUid := fun _ => 501

attribute [local instance] twoOfOne

/-- What is reported. -/
def nasConnected : ReportedRow where
  id := str "nas"
  state := str "connected"
  message := []
  retryable := false
  mountpoint := none

/-- An agent that reports alone. -/
theorem states_maintained_alone :
    ∃ w : StateWorld Bool, w.links.stateFor 501 (str "nas") = some nasConnected ∧ Maintained w := by
  have hrun : GuardedRun StateStep Uninterrupted StateWorld.init _ :=
    GuardedRun.start
    |>.next _ (fun _ _ _ h => nomatch h) (StateStep.register (c := false) rfl)
    |>.next (.check false) trivial (StateStep.check rfl rfl)
    |>.next (.store false [nasConnected]) trivial (StateStep.store _ rfl)
  exact ⟨_, rfl, states_maintained hrun⟩

/-- An agent is replaced in the middle of its report, and the one that replaced it goes:
    the report is stored for a user without an agent. -/
theorem states_left_over :
    ∃ w : StateWorld Bool, GuardedRun StateStep (fun _ _ => True) StateWorld.init w ∧
      w.links.byUid.lookup 501 = none ∧ w.links.stateFor 501 (str "nas") = some nasConnected ∧
        ¬Maintained w := by
  have hrun : GuardedRun StateStep (fun _ _ => True) StateWorld.init _ :=
    GuardedRun.start
    |>.next (.register false) trivial (StateStep.register rfl)
    |>.next (.check false) trivial (StateStep.check rfl rfl)
    |>.next (.register true) trivial (StateStep.register rfl)
    |>.next (.drop true) trivial (StateStep.drop rfl)
    |>.next (.store false [nasConnected]) trivial (StateStep.store _ rfl)
  exact ⟨_, hrun, rfl, rfl, fun h => nomatch h.no_agent 501 rfl⟩

end Replaced

end Smbpal
