import Smbpal.Lib.Audit
import Smbpal.Lib.Interference

/-!
# What Each Operation Needs Before It

`PrecededBy` asks the same of the log before every effect. Here each operation has
something of its own that the log before it has to say, `enough op log`. A log is
`Justified` if it says so before each of its operations.

`Checked` computes that along a program. It is being vouched for against a log that nobody
else writes, with the guarantee that an operation is only asked for when there is enough
before it, so its rules are those of `Vouched`.

## Main definitions

* `Told`, `AskedFor`: What is in a log.
* `Justified`: Each operation of a log has enough before it.
* `Checked`: Every run of the program writes such a log.

## Theorems

* `checked_perform`, `checked_bind`: The rules.
* `Checked.justified`: From the program to its runs.
-/

namespace Smbpal

namespace Lib

namespace Program

variable {S T : Signature} {ε α β : Type}

/-- An operation was answered with this. -/
def Told (log : List (Logged S)) (op : S.Op) (answer : S.Answer op) : Prop :=
  (⟨op, answer⟩ : Logged S) ∈ log

/-- An operation was asked for. -/
def AskedFor (log : List (Logged S)) (op : S.Op) : Prop :=
  ∃ answer, Told log op answer

theorem told_last (log : List (Logged S)) (op : S.Op) (answer : S.Answer op) :
    Told (log ++ [⟨op, answer⟩]) op answer :=
  List.mem_append_right log (List.mem_singleton_self _)

/-- What was answered stays answered. -/
theorem Told.mono {log log' : List (Logged S)} {op : S.Op} {answer : S.Answer op}
    (h : Told log op answer) (hle : log <+: log') : Told log' op answer :=
  hle.subset h

theorem AskedFor.mono {log log' : List (Logged S)} {op : S.Op} (h : AskedFor log op)
    (hle : log <+: log') : AskedFor log' op :=
  h.imp fun _ htold => htold.mono hle

/-- Each operation of a log has enough before it. -/
def Justified (enough : S.Op → List (Logged S) → Prop) (log : List (Logged S)) : Prop :=
  ∀ before e after, log = before ++ e :: after → enough e.op before

theorem justified_nil (enough : S.Op → List (Logged S) → Prop) : Justified enough [] := by
  intro before e after h
  exact absurd (congrArg List.length h) (by simp)

/-- A log with one more answer. -/
theorem justified_append {enough : S.Op → List (Logged S) → Prop} {log : List (Logged S)}
    {e : Logged S} (h : Justified enough log) (he : enough e.op log) :
    Justified enough (log ++ [e]) := by
  intro before e' after heq
  rcases List.eq_nil_or_concat after with rfl | ⟨after, last, rfl⟩
  · rcases List.append_inj' heq rfl with ⟨rfl, hlast⟩
    rw [List.singleton_inj.mp hlast] at he
    exact he
  · -- the operation is not the last one
    rw [List.concat_eq_append, ← List.cons_append, ← List.append_assoc] at heq
    rcases List.append_inj' heq rfl with ⟨rfl, -⟩
    exact h before e' after rfl

/-- The log has one more answer, to an operation that had enough before it. -/
def Grows (enough : S.Op → List (Logged S) → Prop) (log log' : List (Logged S)) : Prop :=
  ∃ e : Logged S, log' = log ++ [e] ∧ enough e.op log

/-- Every operation of the program has enough before it, and `Q` holds at the end. -/
abbrev Checked (enough : S.Op → List (Logged S) → Prop) (p : Program S ε α)
    (Q : Except ε α → List (Logged S) → Prop) (log : List (Logged S)) : Prop :=
  Vouched logMachine Eq (Grows enough) p Q log

section Checked

variable {enough : S.Op → List (Logged S) → Prop} {log log' : List (Logged S)}
variable {Q : Except ε α → List (Logged S) → Prop}

/-- One operation, and what follows. -/
theorem checked_perform {op : S.Op} {next : S.Answer op → Program S ε α} (hop : enough op log)
    (hnext : ∀ answer, Checked enough (next answer) Q (log ++ [⟨op, answer⟩])) :
    Checked enough (.perform op next) Q log := by
  rintro t rfl answer t' rfl
  exact ⟨⟨⟨op, answer⟩, rfl, hop⟩, hnext answer⟩

/-- Sequencing. -/
theorem checked_bind {p : Program S ε β} {f : β → Program S ε α}
    {Q' : Except ε β → List (Logged S) → Prop} (h : Checked enough p Q' log)
    (hok : ∀ b log', Q' (.ok b) log' → Checked enough (f b) Q log')
    (herror : ∀ e log', Q' (.error e) log' → Q (.error e) log') :
    Checked enough (p >>= f) Q log :=
  vouched_then h hok herror

/-- Runs of a program that is checked write justified logs. -/
theorem Checked.justified {p : Program S ε α} {r : Except ε α} (h : Checked enough p Q log)
    (hlog : Justified enough log) (hx : Exec logMachine p log r log') :
    Justified enough log' ∧ Q r log' := by
  induction p generalizing log with
  | ret a =>
      cases hx
      exact ⟨hlog, h⟩
  | raise e =>
      cases hx
      exact ⟨hlog, h⟩
  | perform op next ih =>
      cases hx with
      | perform answer hstep hrest =>
          rcases h log rfl answer _ hstep with ⟨⟨e, he, henough⟩, hnext⟩
          subst he
          exact ih answer hnext (justified_append hlog henough) hrest

end Checked

section Translate

variable {f : S.Op → T.Op} {g : ∀ op, T.Answer (f op) → S.Answer op}

/-- Translating goes through sequencing. -/
theorem translate_bind (p : Program S ε α) (k : α → Program S ε β) :
    (p >>= k).translate f g = p.translate f g >>= fun a => (k a).translate f g := by
  induction p with
  | ret a => rfl
  | raise e => rfl
  | perform op next ih =>
      exact congrArg (Program.perform (f op)) (funext fun answer => ih (g op answer))

end Translate

end Program

end Lib

end Smbpal
