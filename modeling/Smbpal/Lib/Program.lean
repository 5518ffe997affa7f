import Mathlib.Logic.Basic

/-!
# Programs over Effects

Programs that ask their environment for things, as trees: a program either
returns, raises, or performs one operation and continues with the answer. The
tree fixes no meaning for the operations, so one program can be run alone by
one machine and stepped in an interleaving by another, and both are about the
same definition.

A `Machine` gives the operations their meaning as a relation between the state
before, the answer, and the state after. It may be nondeterministic, which is
how an operation that can fail is modelled: it simply has several answers.

`Exec` is the run of a whole program alone. `Always` is its weakest
precondition, computed by recursion on the tree: `Always M p Q s` says that
however the machine answers, the outcome and the last state satisfy `Q`. The
two agree (`always_iff`), and the rules `always_bind`, `always_tryCatch` and
`always_perform` compute `Always` through a program's text, which is how a
handler is verified: unfold it, push `Always` through, and look at the cases
the machine leaves.

`Footprint` bounds the operations a program can perform and the values it can
return, and `Performs` the operations alone. `exec_frame` is what that buys:
what every one of those operations leaves alone, the whole program leaves alone,
so a long program with a small footprint need not be stepped through.

## Main definitions

* `Signature`: The operations of an effect and the type of each one's answers.
* `Program`: A program over a signature.
* `Machine`: A meaning for the operations.
* `Exec`: A whole run of a program alone.
* `run`: The run against a function that answers.
* `Always`: What holds of every run.
* `Preserves`: An invariant every run keeps.
* `Footprint`, `Performs`: Every operation the program can perform, and every
  value it can return, satisfies a predicate.

## Theorems

* `exec_run`, `exec_run_keeping`: A function that answers as the machine may
  gives a run.
* `run_bind_ok`, `run_tryCatch_error` and their like: Computing such a run.
* `always_iff`: `Always` is about exactly the runs `Exec` has.
* `exec_bind_iff`, `exec_tryCatch_iff`: The runs of a sequence and of a handler.
* `always_bind`: Sequencing.
* `always_tryCatch`: Catching an exception.
* `always_mono`, `always_and`: Weakening and joining what is said of every run.
* `exec_exists`: A machine that always answers has runs.
* `exec_frame`, `always_frame`: What no operation touches, no run touches.
-/

namespace Smbpal

namespace Lib

/-- The operations a program may perform, each with the type of its answers. -/
structure Signature where
  Op : Type
  Answer : Op → Type

/-- A program over the operations of `S`: it returns a value, raises an
    exception, or performs an operation and continues with the answer. -/
inductive Program (S : Signature) (ε α : Type) where
  | ret (a : α)
  | raise (e : ε)
  | perform (op : S.Op) (next : S.Answer op → Program S ε α)

/-- A meaning for the operations: which answers an operation may get in a
    state, and the state each of them leads to. -/
abbrev Machine (S : Signature) (σ : Type) :=
  (op : S.Op) → σ → S.Answer op → σ → Prop

namespace Program

variable {S : Signature} {σ ε α β : Type}

/-- Sequencing: continue with the value, let an exception through. -/
protected def bind : Program S ε α → (α → Program S ε β) → Program S ε β
  | .ret a, f => f a
  | .raise e, _ => .raise e
  | .perform op next, f => .perform op fun ans => (next ans).bind f

/-- Run the handler when the program raises. -/
protected def tryCatch : Program S ε α → (ε → Program S ε α) → Program S ε α
  | .ret a, _ => .ret a
  | .raise e, h => h e
  | .perform op next, h => .perform op fun ans => (next ans).tryCatch h

instance : Monad (Program S ε) where
  pure := .ret
  bind := Program.bind

instance : MonadExceptOf ε (Program S ε) where
  throw := .raise
  tryCatch := Program.tryCatch

/-- An operation that answers with a value or the exception it raises. -/
def ask (op : S.Op) (raises : S.Answer op → Except ε α) : Program S ε α :=
  .perform op fun ans =>
    match raises ans with
    | .ok a => .ret a
    | .error e => .raise e

/-- Lift a pure computation that may raise. -/
def fromExcept : Except ε α → Program S ε α
  | .ok a => .ret a
  | .error e => .raise e

/-- A run of the whole program alone: it ends with a value or an exception. -/
inductive Exec (M : Machine S σ) : Program S ε α → σ → Except ε α → σ → Prop where
  | ret (a : α) (s : σ) : Exec M (.ret a) s (.ok a) s
  | raise (e : ε) (s : σ) : Exec M (.raise e) s (.error e) s
  | perform {op : S.Op} {next : S.Answer op → Program S ε α} {s s' s'' : σ} {r : Except ε α}
      (ans : S.Answer op) (step : M op s ans s') (rest : Exec M (next ans) s' r s'') :
      Exec M (.perform op next) s r s''

/-- The run of a program against a function that answers every operation. -/
def run (answer : (op : S.Op) → σ → S.Answer op × σ) : Program S ε α → σ → Except ε α × σ
  | .ret a, s => (.ok a, s)
  | .raise e, s => (.error e, s)
  | .perform op next, s => run answer (next (answer op s).1) (answer op s).2

/-- However the machine answers, the outcome and the last state satisfy `Q`. -/
def Always (M : Machine S σ) : Program S ε α → (Except ε α → σ → Prop) → σ → Prop
  | .ret a, Q, s => Q (.ok a) s
  | .raise e, Q, s => Q (.error e) s
  | .perform op next, Q, s => ∀ ans s', M op s ans s' → Always M (next ans) Q s'

/-- Whatever it is answered, every operation the program performs satisfies `P`
    and every value it returns satisfies `R`. -/
def Footprint (P : S.Op → Prop) (R : α → Prop) : Program S ε α → Prop
  | .ret a => R a
  | .raise _ => True
  | .perform op next => P op ∧ ∀ ans, Footprint P R (next ans)

/-- Every operation the program can perform, whatever it is answered,
    satisfies `P`. -/
abbrev Performs (P : S.Op → Prop) (p : Program S ε α) : Prop :=
  Footprint P (fun _ => True) p

section Always

variable {M : Machine S σ} {Q Q' : Except ε α → σ → Prop} {s : σ}

theorem always_iff (p : Program S ε α) :
    Always M p Q s ↔ ∀ r s', Exec M p s r s' → Q r s' := by
  induction p generalizing s with
  | ret a =>
      constructor
      · intro h r s' hx
        cases hx
        exact h
      · intro h
        exact h _ _ (Exec.ret a s)
  | raise e =>
      constructor
      · intro h r s' hx
        cases hx
        exact h
      · intro h
        exact h _ _ (Exec.raise e s)
  -- Each answer leads into a shorter program.
  | perform op next ih =>
      constructor
      · intro h r s' hx
        cases hx with
        | perform ans step rest => exact (ih ans).mp (h ans _ step) r s' rest
      · intro h ans s' hstep
        exact (ih ans).mpr fun r s'' hx => h r s'' (Exec.perform ans hstep hx)

/-- Answers the machine may give, in the states they keep to, make a run. -/
theorem exec_run_keeping {I : σ → Prop} {answer : (op : S.Op) → σ → S.Answer op × σ}
    (hM : ∀ op s, I s → M op s (answer op s).1 (answer op s).2 ∧ I (answer op s).2)
    (p : Program S ε α) {s : σ} (hs : I s) :
    Exec M p s (p.run answer s).1 (p.run answer s).2 ∧ I (p.run answer s).2 := by
  induction p generalizing s with
  | ret a => exact ⟨Exec.ret a s, hs⟩
  | raise e => exact ⟨Exec.raise e s, hs⟩
  | perform op next ih =>
      rcases hM op s hs with ⟨hstep, hs'⟩
      rcases ih _ hs' with ⟨hx, hend⟩
      exact ⟨Exec.perform _ hstep hx, hend⟩

/-- Answers the machine may give make a run. -/
theorem exec_run {answer : (op : S.Op) → σ → S.Answer op × σ}
    (hM : ∀ op s, M op s (answer op s).1 (answer op s).2) (p : Program S ε α) (s : σ) :
    Exec M p s (p.run answer s).1 (p.run answer s).2 :=
  (exec_run_keeping (fun op s _ => ⟨hM op s, trivial⟩) p (I := fun _ => True) trivial).1

/-- A machine with an answer to every operation, in the states it keeps to, has
    a run of every program. -/
theorem exec_exists {I : σ → Prop} (hM : ∀ op s, I s → ∃ ans s', M op s ans s' ∧ I s')
    (p : Program S ε α) {s : σ} (hs : I s) : ∃ r s', Exec M p s r s' := by
  induction p generalizing s with
  | ret a => exact ⟨_, s, Exec.ret a s⟩
  | raise e => exact ⟨_, s, Exec.raise e s⟩
  | perform op next ih =>
      rcases hM op s hs with ⟨ans, s₁, hstep, hs₁⟩
      rcases ih ans hs₁ with ⟨r, s', hx⟩
      exact ⟨r, s', Exec.perform ans hstep hx⟩

theorem always_exec {p : Program S ε α} {r : Except ε α} {s' : σ}
    (h : Always M p Q s) (hx : Exec M p s r s') : Q r s' :=
  (always_iff p).mp h r s' hx

theorem always_mono {p : Program S ε α} (h : Always M p Q s) (hQ : ∀ r s', Q r s' → Q' r s') :
    Always M p Q' s :=
  (always_iff p).mpr fun r s' hx => hQ r s' (always_exec h hx)

theorem always_and {p : Program S ε α} (h : Always M p Q s) (h' : Always M p Q' s) :
    Always M p (fun r s' => Q r s' ∧ Q' r s') s :=
  (always_iff p).mpr fun _ _ hx => ⟨always_exec h hx, always_exec h' hx⟩

@[simp] theorem always_pure (a : α) : Always M (pure a : Program S ε α) Q s ↔ Q (.ok a) s :=
  Iff.rfl

@[simp] theorem always_ret (a : α) : Always M (.ret a : Program S ε α) Q s ↔ Q (.ok a) s :=
  Iff.rfl

@[simp] theorem always_raise (e : ε) :
    Always M (.raise e : Program S ε α) Q s ↔ Q (.error e) s :=
  Iff.rfl

@[simp] theorem always_throw (e : ε) :
    Always M (throw e : Program S ε α) Q s ↔ Q (.error e) s :=
  Iff.rfl

@[simp] theorem always_perform (op : S.Op) (next : S.Answer op → Program S ε α) :
    Always M (.perform op next) Q s ↔ ∀ ans s', M op s ans s' → Always M (next ans) Q s' :=
  Iff.rfl

@[simp] theorem always_fromExcept (r : Except ε α) : Always M (fromExcept r) Q s ↔ Q r s := by
  cases r with
  | ok a => rfl
  | error e => rfl

@[simp] theorem always_ask (op : S.Op) (raises : S.Answer op → Except ε α) :
    Always M (ask op raises) Q s ↔ ∀ ans s', M op s ans s' → Q (raises ans) s' := by
  unfold ask
  rw [always_perform]
  refine forall_congr' fun ans => forall_congr' fun s' => imp_congr_right fun _ => ?_
  cases raises ans with
  | ok a => rfl
  | error e => rfl

/-- The rest of a run after a first part: continue from a value, let an
    exception through. -/
def andThen (M : Machine S σ) (f : α → Program S ε β) (Q : Except ε β → σ → Prop) :
    Except ε α → σ → Prop
  | .ok a, s => Always M (f a) Q s
  | .error e, s => Q (.error e) s

/-- The rest of a run inside a handler: keep a value, handle an exception. -/
def orElse (M : Machine S σ) (h : ε → Program S ε α) (Q : Except ε α → σ → Prop) :
    Except ε α → σ → Prop
  | .ok a, s => Q (.ok a) s
  | .error e, s => Always M (h e) Q s

@[simp] theorem andThen_ok (f : α → Program S ε β) (Q : Except ε β → σ → Prop) (a : α) :
    andThen M f Q (.ok a) s ↔ Always M (f a) Q s :=
  Iff.rfl

@[simp] theorem andThen_error (f : α → Program S ε β) (Q : Except ε β → σ → Prop) (e : ε) :
    andThen M f Q (.error e) s ↔ Q (.error e) s :=
  Iff.rfl

@[simp] theorem orElse_ok (h : ε → Program S ε α) (a : α) :
    orElse M h Q (.ok a) s ↔ Q (.ok a) s :=
  Iff.rfl

@[simp] theorem orElse_error (h : ε → Program S ε α) (e : ε) :
    orElse M h Q (.error e) s ↔ Always M (h e) Q s :=
  Iff.rfl

@[simp] theorem always_bind (p : Program S ε α) (f : α → Program S ε β)
    (Q : Except ε β → σ → Prop) :
    Always M (p >>= f) Q s ↔ Always M p (andThen M f Q) s := by
  induction p generalizing s with
  | ret a => rfl
  | raise e => rfl
  | perform op next ih =>
      exact forall_congr' fun ans => forall_congr' fun s' => imp_congr_right fun _ => ih ans

@[simp] theorem always_tryCatch (p : Program S ε α) (h : ε → Program S ε α) :
    Always M (tryCatch p h) Q s ↔ Always M p (orElse M h Q) s := by
  induction p generalizing s with
  | ret a => rfl
  | raise e => rfl
  | perform op next ih =>
      exact forall_congr' fun ans => forall_congr' fun s' => imp_congr_right fun _ => ih ans

end Always

section Run

variable {answer : (op : S.Op) → σ → S.Answer op × σ} {s s' : σ}

@[simp] theorem run_pure (a : α) : (pure a : Program S ε α).run answer s = (.ok a, s) :=
  rfl

@[simp] theorem run_throw (e : ε) : (throw e : Program S ε α).run answer s = (.error e, s) :=
  rfl

@[simp] theorem run_fromExcept (r : Except ε α) : (fromExcept r).run answer s = (r, s) := by
  cases r with
  | ok a => rfl
  | error e => rfl

@[simp] theorem run_ask (op : S.Op) (raises : S.Answer op → Except ε α) :
    (ask op raises).run answer s = (raises (answer op s).1, (answer op s).2) := by
  unfold ask
  rw [run]
  cases raises (answer op s).1 with
  | ok a => rfl
  | error e => rfl

/-- Running a sequence, when the first part returns. -/
theorem run_bind_ok {p : Program S ε α} {f : α → Program S ε β} {a : α}
    (h : p.run answer s = (.ok a, s')) : (p >>= f).run answer s = (f a).run answer s' := by
  induction p generalizing s with
  | ret b =>
      cases h
      rfl
  | raise e => exact nomatch h
  | perform op next ih => exact ih _ h

/-- Running a sequence, when the first part raises. -/
theorem run_bind_error {p : Program S ε α} {f : α → Program S ε β} {e : ε}
    (h : p.run answer s = (.error e, s')) : (p >>= f).run answer s = (.error e, s') := by
  induction p generalizing s with
  | ret b => exact nomatch h
  | raise e' =>
      cases h
      rfl
  | perform op next ih => exact ih _ h

/-- Running a handler, when the body raises. -/
theorem run_tryCatch_error {p : Program S ε α} {f : ε → Program S ε α} {e : ε}
    (h : p.run answer s = (.error e, s')) : (tryCatch p f).run answer s = (f e).run answer s' := by
  induction p generalizing s with
  | ret b => exact nomatch h
  | raise e' =>
      cases h
      rfl
  | perform op next ih => exact ih _ h

/-- Running a handler, when the body returns. -/
theorem run_tryCatch_ok {p : Program S ε α} {f : ε → Program S ε α} {a : α}
    (h : p.run answer s = (.ok a, s')) : (tryCatch p f).run answer s = (.ok a, s') := by
  induction p generalizing s with
  | ret b =>
      cases h
      rfl
  | raise e => exact nomatch h
  | perform op next ih => exact ih _ h

end Run

section Runs

variable {M : Machine S σ} {s s₁ s' : σ}

/-- The runs of an operation. -/
theorem exec_ask {op : S.Op} {raises : S.Answer op → Except ε α} {ans : S.Answer op}
    (h : M op s ans s') : Exec M (ask op raises) s (raises ans) s' := by
  refine Exec.perform ans h ?_
  cases raises ans with
  | ok a => exact Exec.ret a s'
  | error e => exact Exec.raise e s'

theorem exec_fromExcept (r : Except ε α) : Exec M (fromExcept r) s r s := by
  cases r with
  | ok a => exact Exec.ret a s
  | error e => exact Exec.raise e s

/-- A run of a sequence goes through a value of the first part, or ends with its
    exception. -/
theorem exec_bind_iff {p : Program S ε α} {f : α → Program S ε β} {r : Except ε β} :
    Exec M (p >>= f) s r s' ↔
      (∃ a s₁, Exec M p s (.ok a) s₁ ∧ Exec M (f a) s₁ r s') ∨
        ∃ e, Exec M p s (.error e) s' ∧ r = .error e := by
  constructor
  · intro hx
    -- However the whole runs, its first part ends it or hands on.
    have hall : Always M p (andThen M f fun r s' =>
        (∃ a s₁, Exec M p s (.ok a) s₁ ∧ Exec M (f a) s₁ r s') ∨
          ∃ e, Exec M p s (.error e) s' ∧ r = .error e) s := by
      rw [always_iff]
      intro r₁ s₁ h₁
      cases r₁ with
      | ok a => exact (always_iff (f a)).mpr fun r s' h₂ => Or.inl ⟨a, s₁, h₁, h₂⟩
      | error e => exact Or.inr ⟨e, h₁, rfl⟩
    exact always_exec ((always_bind p f _).mpr hall) hx
  · rintro (⟨a, s₁, h₁, h₂⟩ | ⟨e, h₁, rfl⟩)
    · -- By induction on the run of the first part, which the second is put behind.
      generalize hr₁ : (Except.ok a : Except ε α) = r₁ at h₁
      induction h₁ with
      | ret b s =>
          cases hr₁
          exact h₂
      | raise e s => exact nomatch hr₁
      | perform ans step rest ih => exact Exec.perform ans step (ih h₂ hr₁)
    · generalize hr₁ : (Except.error e : Except ε α) = r₁ at h₁
      induction h₁ with
      | ret b s => exact nomatch hr₁
      | raise e' s =>
          cases hr₁
          exact Exec.raise e s
      | perform ans step rest ih => exact Exec.perform ans step (ih hr₁)

/-- A run of a handler keeps the value of the body, or goes on from its
    exception. -/
theorem exec_tryCatch_iff {p : Program S ε α} {h : ε → Program S ε α} {r : Except ε α} :
    Exec M (tryCatch p h) s r s' ↔
      (∃ a, Exec M p s (.ok a) s' ∧ r = .ok a) ∨
        ∃ e s₁, Exec M p s (.error e) s₁ ∧ Exec M (h e) s₁ r s' := by
  constructor
  · intro hx
    -- However the whole runs, its body returns or hands its error on.
    have hall : Always M p (orElse M h fun r s' =>
        (∃ a, Exec M p s (.ok a) s' ∧ r = .ok a) ∨
          ∃ e s₁, Exec M p s (.error e) s₁ ∧ Exec M (h e) s₁ r s') s := by
      rw [always_iff]
      intro r₁ s₁ h₁
      cases r₁ with
      | ok a => exact Or.inl ⟨a, h₁, rfl⟩
      | error e => exact (always_iff (h e)).mpr fun r s' h₂ => Or.inr ⟨e, s₁, h₁, h₂⟩
    exact always_exec ((always_tryCatch p h).mpr hall) hx
  · rintro (⟨a, h₁, rfl⟩ | ⟨e, s₁, h₁, h₂⟩)
    · generalize hr₁ : (Except.ok a : Except ε α) = r₁ at h₁
      induction h₁ with
      | ret b s =>
          cases hr₁
          exact Exec.ret a s
      | raise e s => exact nomatch hr₁
      | perform ans step rest ih => exact Exec.perform ans step (ih hr₁)
    · -- By induction on the run of the body, which the handler is put behind.
      generalize hr₁ : (Except.error e : Except ε α) = r₁ at h₁
      induction h₁ with
      | ret b s => exact nomatch hr₁
      | raise e' s =>
          cases hr₁
          exact h₂
      | perform ans step rest ih => exact Exec.perform ans step (ih h₂ hr₁)

/-- Going on after a first part that returns. -/
theorem exec_bind {p : Program S ε α} {f : α → Program S ε β} {a : α} {r : Except ε β}
    (h₁ : Exec M p s (.ok a) s₁) (h₂ : Exec M (f a) s₁ r s') : Exec M (p >>= f) s r s' :=
  exec_bind_iff.mpr (Or.inl ⟨a, s₁, h₁, h₂⟩)

/-- Ending with what the first part raises. -/
theorem exec_bind_error {p : Program S ε α} {f : α → Program S ε β} {e : ε}
    (h : Exec M p s (.error e) s') : Exec M (p >>= f) s (.error e) s' :=
  exec_bind_iff.mpr (Or.inr ⟨e, h, rfl⟩)

end Runs

section Performs

variable {P : S.Op → Prop} {R : α → Prop} {R' : β → Prop}

@[simp] theorem footprint_pure (a : α) : Footprint P R (pure a : Program S ε α) ↔ R a :=
  Iff.rfl

@[simp] theorem footprint_throw (e : ε) : Footprint P R (throw e : Program S ε α) :=
  trivial

@[simp] theorem footprint_perform (op : S.Op) (next : S.Answer op → Program S ε α) :
    Footprint P R (.perform op next) ↔ P op ∧ ∀ ans, Footprint P R (next ans) :=
  Iff.rfl

@[simp] theorem footprint_fromExcept (r : Except ε α) :
    Footprint P R (fromExcept (S := S) r) ↔ ∀ a, r = .ok a → R a := by
  cases r with
  | ok a => simp [fromExcept, Footprint]
  | error e => simp [fromExcept, Footprint]

theorem footprint_mono {P' : S.Op → Prop} {R₂ : α → Prop} {p : Program S ε α}
    (hp : Footprint P R p) (hP : ∀ op, P op → P' op) (hR : ∀ a, R a → R₂ a) :
    Footprint P' R₂ p := by
  induction p with
  | ret a => exact hR a hp
  | raise e => trivial
  | perform op next ih => exact ⟨hP op hp.1, fun ans => ih ans (hp.2 ans)⟩

/-- Nothing is asked of the operations, and every value is fine. -/
theorem footprint_any (p : Program S ε α) (hR : ∀ a, R a) : Footprint (fun _ => True) R p := by
  induction p with
  | ret a => exact hR a
  | raise e => trivial
  | perform op next ih => exact ⟨trivial, fun ans => ih ans⟩

theorem footprint_ask {op : S.Op} {raises : S.Answer op → Except ε α} (hop : P op)
    (hR : ∀ ans a, raises ans = .ok a → R a) : Footprint P R (ask op raises) := by
  unfold ask
  rw [footprint_perform]
  refine ⟨hop, fun ans => ?_⟩
  cases hans : raises ans with
  | ok a => exact hR ans a hans
  | error e => trivial

theorem footprint_bind {p : Program S ε α} {f : α → Program S ε β} (hp : Footprint P R p)
    (hf : ∀ a, R a → Footprint P R' (f a)) : Footprint P R' (p >>= f) := by
  induction p with
  | ret a => exact hf a hp
  | raise e => trivial
  | perform op next ih => exact ⟨hp.1, fun ans => ih ans (hp.2 ans)⟩

theorem footprint_tryCatch {p : Program S ε α} {h : ε → Program S ε α} (hp : Footprint P R p)
    (hh : ∀ e, Footprint P R (h e)) : Footprint P R (tryCatch p h) := by
  induction p with
  | ret a => exact hp
  | raise e => exact hh e
  | perform op next ih => exact ⟨hp.1, fun ans => ih ans (hp.2 ans)⟩

/-- Sequencing, when what the first part returns does not matter. -/
theorem performs_bind {p : Program S ε α} {f : α → Program S ε β} (hp : Performs P p)
    (hf : ∀ a, Footprint P R' (f a)) : Footprint P R' (p >>= f) :=
  footprint_bind hp fun a _ => hf a

/-- What is returned is within the footprint. -/
theorem always_footprint {M : Machine S σ} {Q : Except ε α → σ → Prop} {p : Program S ε α} {s : σ}
    (hp : Footprint P R p) (h : Always M p Q s) :
    Always M p (fun r s' => Q r s' ∧ ∀ a, r = .ok a → R a) s := by
  induction p generalizing s with
  | ret a =>
      refine ⟨h, fun b hb => ?_⟩
      cases hb
      exact hp
  | raise e => exact ⟨h, fun b hb => nomatch hb⟩
  | perform op next ih => exact fun ans s' hM => ih ans (hp.2 ans) (h ans s' hM)

/-- What every operation a program can perform leaves alone, every run of it
    leaves alone. -/
theorem exec_frame {M : Machine S σ} {φ : Type} (f : σ → φ) {p : Program S ε α} {s s' : σ}
    {r : Except ε α} (hp : Performs P p)
    (hM : ∀ op s ans s', P op → M op s ans s' → f s' = f s) (hx : Exec M p s r s') :
    f s' = f s := by
  induction hx with
  | ret a s => rfl
  | raise e s => rfl
  | perform ans step rest ih => rw [ih (hp.2 ans), hM _ _ _ _ hp.1 step]

/-- What every operation a program can perform keeps, every run of it keeps. -/
theorem always_keeps {M : Machine S σ} {I : σ → Prop} {p : Program S ε α} {s : σ}
    (hp : Performs P p) (hM : ∀ op s ans s', P op → I s → M op s ans s' → I s') (hs : I s) :
    Always M p (fun _ s' => I s') s := by
  induction p generalizing s with
  | ret a => exact hs
  | raise e => exact hs
  | perform op next ih => exact fun ans s' hstep => ih ans (hp.2 ans) (hM op s ans s' hp.1 hs hstep)

/-- A program whose operations all leave the state alone ends where it began,
    with some result. -/
theorem always_frame {M : Machine S σ} {p : Program S ε α} {Q : Except ε α → σ → Prop} {s : σ}
    (hp : Performs P p) (hM : ∀ op s ans s', P op → M op s ans s' → s' = s)
    (hQ : ∀ r, Q r s) : Always M p Q s := by
  rw [always_iff]
  intro r s' hx
  have hs : s' = s := exec_frame id hp hM hx
  rw [hs]
  exact hQ r

end Performs

section Preserves

variable {M : Machine S σ} {I : σ → Prop}

/-- From a state of the invariant every run of the program ends in one. -/
def Preserves (M : Machine S σ) (I : σ → Prop) (p : Program S ε α) : Prop :=
  ∀ s, I s → Always M p (fun _ s' => I s') s

theorem preserves_pure (a : α) : Preserves M I (pure a : Program S ε α) :=
  fun _ hs => hs

theorem preserves_fromExcept (r : Except ε α) : Preserves M I (fromExcept (S := S) r) :=
  fun _ hs => (always_fromExcept r).mpr hs

theorem preserves_bind {p : Program S ε α} {f : α → Program S ε β} (hp : Preserves M I p)
    (hf : ∀ a, Preserves M I (f a)) : Preserves M I (p >>= f) := by
  intro s hs
  rw [always_bind]
  refine always_mono (hp s hs) fun r s' hs' => ?_
  cases r with
  | ok a => exact hf a s' hs'
  | error e => exact hs'

theorem preserves_of_performs {P : S.Op → Prop} {p : Program S ε α} (hp : Performs P p)
    (hM : ∀ op s ans s', P op → I s → M op s ans s' → I s') : Preserves M I p :=
  fun _ hs => always_keeps hp hM hs

end Preserves

section Yields

variable {M : Machine S σ} {I : σ → Prop} {R : α → Prop} {R' : β → Prop}

/-- From a state of the invariant the program ends in one, and what it returns is of a kind. -/
def Yields (M : Machine S σ) (I : σ → Prop) (R : α → Prop) (p : Program S ε α) : Prop :=
  ∀ s, I s → Always M p (fun r s' => I s' ∧ ∀ a, r = .ok a → R a) s

theorem yields_pure {a : α} (h : R a) : Yields M I R (pure a : Program S ε α) :=
  fun _ hs => ⟨hs, fun _ hb => Except.ok.inj hb ▸ h⟩

theorem yields_throw (e : ε) : Yields M I R (throw e : Program S ε α) :=
  fun _ hs => ⟨hs, fun _ hb => by cases hb⟩

theorem yields_fromExcept {r : Except ε α} (h : ∀ a, r = .ok a → R a) :
    Yields M I R (fromExcept (S := S) r) := by
  cases r with
  | ok a => exact yields_pure (h a rfl)
  | error e => exact yields_throw e

theorem yields_ask {op : S.Op} {raises : S.Answer op → Except ε α}
    (h : ∀ s ans s', I s → M op s ans s' → I s' ∧ ∀ a, raises ans = .ok a → R a) :
    Yields M I R (ask op raises) := by
  intro s hs
  rw [always_ask]
  exact fun ans s' hstep => h s ans s' hs hstep

theorem yields_mono {R₂ : α → Prop} {p : Program S ε α} (h : Yields M I R p)
    (hR : ∀ a, R a → R₂ a) : Yields M I R₂ p :=
  fun s hs => always_mono (h s hs) fun _ _ hr => ⟨hr.1, fun a ha => hR a (hr.2 a ha)⟩

theorem yields_bind {p : Program S ε α} {f : α → Program S ε β} (hp : Yields M I R p)
    (hf : ∀ a, R a → Yields M I R' (f a)) : Yields M I R' (p >>= f) := by
  intro s hs
  rw [always_bind]
  refine always_mono (hp s hs) ?_
  rintro r s' ⟨hs', hr⟩
  cases r with
  | ok a => exact hf a (hr a rfl) s' hs'
  | error e => exact ⟨hs', fun b hb => by cases hb⟩

theorem yields_tryCatch {p : Program S ε α} {h : ε → Program S ε α} (hp : Yields M I R p)
    (hh : ∀ e, Yields M I R (h e)) : Yields M I R (tryCatch p h) := by
  intro s hs
  rw [always_tryCatch]
  refine always_mono (hp s hs) ?_
  rintro r s' ⟨hs', hr⟩
  cases r with
  | ok a => exact ⟨hs', fun b hb => hr b hb⟩
  | error e => exact hh e s' hs'

/-- A program whose operations keep the invariant returns what its footprint says. -/
theorem yields_of_footprint {P : S.Op → Prop} {p : Program S ε α} (hp : Footprint P R p)
    (hM : ∀ op s ans s', P op → I s → M op s ans s' → I s') : Yields M I R p := by
  intro s hs
  have hkeeps := always_keeps (footprint_mono hp (fun _ h => h) fun _ _ => trivial) hM hs
  exact always_footprint hp hkeeps

end Yields

end Program

end Lib

end Smbpal
