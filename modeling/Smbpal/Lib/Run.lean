import Mathlib.Logic.Relation

/-!
# Guarded Runs

Runs of a labelled step relation whose every step meets a guard, and the one
induction they need.

A system is a relation `Step s e s'`: from state `s` the event `e` may lead to
`s'`. A guard is a condition on the state *before* a step and on the step's
event. `GuardedRun Step guard s₀ s` says that `s` is reached from `s₀` by steps
that all meet the guard; with the guard `fun _ _ => True` it is plain
reachability.

`GuardedRun.invariant` is the induction over a run, packaged once: a property
of the first state that every guarded step keeps holds wherever a guarded run
arrives. Every statement about runs elsewhere goes through it, so that what is
left to prove there is always about one step.

## Main definitions

* `GuardedRun`: Reachability by steps that all meet a guard.
* `GuardedRun.Along`: A condition met along given inputs.

## Theorems

* `GuardedRun.invariant`: A property kept by every guarded step holds along a
  guarded run.
* `GuardedRun.mono`: A weaker guard admits every run of a stronger one.
* `GuardedRun.trans`: Guarded runs compose.
* `GuardedRun.foldl`: Steps a function takes are a run.
-/

namespace Smbpal

namespace Lib

variable {σ ε : Type}

/-- The states reached from `s₀` by steps that all meet the guard. The guard
    sees the state before the step and the step's event. -/
inductive GuardedRun (Step : σ → ε → σ → Prop) (guard : σ → ε → Prop) (s₀ : σ) : σ → Prop where
  | start : GuardedRun Step guard s₀ s₀
  | next {s s' : σ} (e : ε) (run : GuardedRun Step guard s₀ s) (met : guard s e)
      (step : Step s e s') : GuardedRun Step guard s₀ s'

namespace GuardedRun

variable {Step : σ → ε → σ → Prop} {guard guard' : σ → ε → Prop} {s₀ s s' : σ}

/-- A property of the first state that every guarded step keeps holds in every
    state of a guarded run. -/
theorem invariant (I : σ → Prop) (h0 : I s₀)
    (hstep : ∀ s e s', I s → guard s e → Step s e s' → I s')
    (h : GuardedRun Step guard s₀ s) : I s := by
  induction h with
  | start => exact h0
  | next e _ met step ih => exact hstep _ e _ ih met step

theorem mono (hg : ∀ s e, guard s e → guard' s e) (h : GuardedRun Step guard s₀ s) :
    GuardedRun Step guard' s₀ s := by
  induction h with
  | start => exact GuardedRun.start
  | next e _ met step ih => exact GuardedRun.next e ih (hg _ e met) step

theorem trans (h1 : GuardedRun Step guard s₀ s) (h2 : GuardedRun Step guard s s') :
    GuardedRun Step guard s₀ s' := by
  induction h2 with
  | start => exact h1
  | next e _ met step ih => exact GuardedRun.next e ih met step

/-- A condition on the state and the input holds all along the inputs, where a
    function takes the steps. -/
def Along {β : Type} (f : σ → β → σ) (P : σ → β → Prop) : σ → List β → Prop
  | _, [] => True
  | s, b :: bs => P s b ∧ Along f P (f s b) bs

instance decidableAlong {β : Type} (f : σ → β → σ) (P : σ → β → Prop)
    [∀ s b, Decidable (P s b)] : (s : σ) → (bs : List β) → Decidable (Along f P s bs)
  | _, [] => .isTrue trivial
  | s, b :: bs =>
      have : Decidable (Along f P (f s b) bs) := decidableAlong f P (f s b) bs
      inferInstanceAs (Decidable (_ ∧ _))

/-- Steps a function takes, each with the event its input stands for, are a
    run. -/
theorem foldl {β : Type} {f : σ → β → σ} {event : β → ε}
    (hstep : ∀ s b, Step s (event b) (f s b)) {bs : List β}
    (h : Along f (fun s b => guard s (event b)) s bs) :
    GuardedRun Step guard s (bs.foldl f s) := by
  induction bs generalizing s with
  | nil => exact GuardedRun.start
  | cons b bs ih =>
      rcases h with ⟨hguard, hrest⟩
      exact (GuardedRun.next _ GuardedRun.start hguard (hstep s b)).trans (ih hrest)

end GuardedRun

end Lib

end Smbpal
