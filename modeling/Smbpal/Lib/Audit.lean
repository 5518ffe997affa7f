import Smbpal.Lib.Program

/-!
# What Happens Before What

Runs of a program that are written down, and effects that something has to come
before.

`logMachine` answers an operation with anything at all and writes down what it
was asked and what it answered. `PrecededBy` says of such a log that whatever
comes before an effect in it is enough: a permission, an order, a lock taken.
What is enough stays so as the log grows (`Lasting`).

A program without the effect keeps a log in order (`always_quiet`), and once
what is needed has been written down every program does (`always_granted`). So
a program that asks first is in order if its first part writes down what is
needed whenever it lets the second part go on.

## Main definitions

* `Logged`, `logMachine`: An answered operation, and the machine of such logs.
* `PrecededBy`: Every effect of a log comes after enough.
* `Lasting`: What is enough stays enough.

## Theorems

* `precededBy_append`: A log with one more answer.
* `always_lasting`: What is enough stays so over a program.
* `always_quiet`, `always_granted`: Programs that keep a log in order.
-/

namespace Smbpal

namespace Lib

namespace Program

variable {S : Signature} {ε α : Type}

/-- An operation that was answered. -/
structure Logged (S : Signature) where
  op : S.Op
  answer : S.Answer op

/-- Every answer is possible, and is written down. -/
def logMachine : Machine S (List (Logged S)) :=
  fun op log answer log' => log' = log ++ [⟨op, answer⟩]

/-- Whatever comes before an effect is enough. -/
def PrecededBy (effect : S.Op → Prop) (enough : List (Logged S) → Prop) (log : List (Logged S)) :
    Prop :=
  ∀ before e after, log = before ++ e :: after → effect e.op → enough before

/-- What is enough stays enough. -/
def Lasting (enough : List (Logged S) → Prop) : Prop :=
  ∀ log e, enough log → enough (log ++ [e])

section Preceded

variable {effect : S.Op → Prop} {enough : List (Logged S) → Prop} {log log' : List (Logged S)}

theorem precededBy_nil : PrecededBy effect enough [] := by
  intro before e after h
  exact absurd (congrArg List.length h) (by simp)

/-- A log with one more answer. -/
theorem precededBy_append {e : Logged S} (h : PrecededBy effect enough log)
    (he : effect e.op → enough log) : PrecededBy effect enough (log ++ [e]) := by
  intro before e' after heq heffect
  rcases List.eq_nil_or_concat after with rfl | ⟨after, last, rfl⟩
  · rcases List.append_inj' heq rfl with ⟨rfl, hlast⟩
    rw [List.singleton_inj.mp hlast] at he
    exact he heffect
  · -- the effect is not the last one
    rw [List.concat_eq_append, ← List.cons_append, ← List.append_assoc] at heq
    rcases List.append_inj' heq rfl with ⟨rfl, -⟩
    exact h before e' after rfl heffect

/-- What is enough stays so over every program. -/
theorem always_lasting (p : Program S ε α) (hlasting : Lasting enough) (h : enough log) :
    Always logMachine p (fun _ log' => enough log') log := by
  induction p generalizing log with
  | ret a => exact h
  | raise e => exact h
  | perform op next ih =>
      rintro answer _ rfl
      exact ih answer (hlasting log _ h)

/-- A program without the effect keeps a log in order. -/
theorem always_quiet {p : Program S ε α} (hp : Performs (fun op => ¬effect op) p)
    (h : PrecededBy effect enough log) :
    Always logMachine p (fun _ log' => PrecededBy effect enough log') log := by
  induction p generalizing log with
  | ret a => exact h
  | raise e => exact h
  | perform op next ih =>
      rintro answer _ rfl
      exact ih answer (hp.2 answer) (precededBy_append h fun heffect => absurd heffect hp.1)

/-- After what is enough, every program keeps a log in order. -/
theorem always_granted (p : Program S ε α) (hlasting : Lasting enough)
    (h : PrecededBy effect enough log) (henough : enough log) :
    Always logMachine p (fun _ log' => PrecededBy effect enough log') log := by
  induction p generalizing log with
  | ret a => exact h
  | raise e => exact h
  | perform op next ih =>
      rintro answer _ rfl
      exact ih answer (precededBy_append h fun _ => henough) (hlasting log _ henough)

end Preceded

/-- A program over the operations of another signature. -/
def translate {T : Signature} (f : S.Op → T.Op) (g : ∀ op, T.Answer (f op) → S.Answer op) :
    Program S ε α → Program T ε α
  | .ret a => .ret a
  | .raise e => .raise e
  | .perform op next => .perform (f op) fun answer => (next (g op answer)).translate f g

/-- A translated program does what its operations are translated to. -/
theorem footprint_translate {T : Signature} {f : S.Op → T.Op}
    {g : ∀ op, T.Answer (f op) → S.Answer op} {P : T.Op → Prop} {R : α → Prop}
    {p : Program S ε α} (h : Footprint (fun op => P (f op)) R p) :
    Footprint P R (p.translate f g) := by
  induction p with
  | ret a => exact h
  | raise e => trivial
  | perform op next ih => exact ⟨h.1, fun answer => ih _ (h.2 _)⟩

end Program

end Lib

end Smbpal
