import Smbpal.Python.Text

/-!
# Numbers in Text

`int(text, base)`, on the texts Python's strings are: blanks around the number, a sign, digits of
any script and single `_` between two of them.

## Main definitions

* `Decimals`: The digits of every script.
* `digitValue`: The digit a character is.
* `pyInt`: `int`.

## Theorems

* `pyInt_digits`: Digits are read as the number they are of.
* `pyInt_decimal`: A number is read back.
-/

namespace Smbpal

/-- The value of a decimal digit, in any script: what `\d` matches and `int`
    reads. The end of a line is none. -/
class Decimals where
  decimal : PyChar → Option Nat
  newline : decimal (chr '\n') = none

export Decimals (decimal)

/-- The digits of plain ASCII text. -/
@[reducible] def Decimals.ascii : Decimals where
  decimal := fun c => if isDigit c then some (ord c - 48) else none
  newline := rfl

section Numbers

variable [Decimals]

/-- The digit `\d` matches. -/
def digitValue (c : PyChar) : Option Nat :=
  if isDigit c then some (ord c - 48) else decimal c

/-- The digit of a number in this base. -/
def digitBelow (base : Nat) (c : PyChar) : Option Nat :=
  (digitValue c).filter fun d => decide (d < base)

/-- The rest of a number, after a digit; one `_` may stand between two. -/
def numberFrom (base read : Nat) : Str → Option Nat
  | [] => some read
  | [c] => (digitBelow base c).map fun d => base * read + d
  | c :: c' :: s =>
      if c = chr '_' then
        match digitBelow base c' with
        | some d => numberFrom base (base * read + d) s
        | none => none
      else
        match digitBelow base c with
        | some d => numberFrom base (base * read + d) (c' :: s)
        | none => none

/-- A number without a sign. -/
def numberOf (base : Nat) : Str → Option Nat
  | [] => none
  | c :: s =>
      match digitBelow base c with
      | some d => numberFrom base d s
      | none => none

/-- What is left behind `0o`, which base eight allows. -/
def dropOctalMark : Str → Str
  | a :: b :: s =>
      if a = chr '0' ∧ (b = chr 'o' ∨ b = chr 'O') then
        match s with
        | c :: t => if c = chr '_' then t else c :: t
        | [] => []
      else a :: b :: s
  | s => s

/-- `int(text, base)`, for the bases ten and eight; none is a `ValueError`. -/
def pyInt (base : Nat) (text : Str) : Option Int :=
  let number := fun s => numberOf base (if base = 8 then dropOctalMark s else s)
  match strip text with
  | [] => none
  | c :: s =>
      if c = chr '-' then (number s).map fun n => -(n : Int)
      else if c = chr '+' then (number s).map fun n => (n : Int)
      else (number (c :: s)).map fun n => (n : Int)

end Numbers

section ReadNumbers

variable [Decimals] {base : Nat}

omit [Decimals] in
/-- A digit of a number is below the base. -/
theorem digit_lt_of_mem_toDigits {b n : Nat} (hone : 1 < b) (hten : b ≤ 10) {c : Char}
    (hc : c ∈ Nat.toDigits b n) : c.toNat - 48 < b := by
  induction n using Nat.strong_induction_on with
  | _ n ih =>
      have hvalue : ∀ m, m < b → (Nat.digitChar m).toNat - 48 < b := by
        intro m hm
        rw [Nat.toNat_digitChar_sub_48_of_lt_ten (by omega)]
        exact hm
      rw [Nat.toDigits_eq_if hone] at hc
      by_cases hn : n < b
      · rw [if_pos hn, List.mem_singleton] at hc
        rw [hc]
        exact hvalue n hn
      · rw [if_neg hn, List.mem_append, List.mem_singleton] at hc
        rcases hc with hc | rfl
        · exact ih (n / b) (Nat.div_lt_self (by omega) hone) hc
        · exact hvalue (n % b) (Nat.mod_lt n (by omega))

/-- A decimal digit below the base. -/
def IsDigitOf (base : Nat) (c : Char) : Prop :=
  c.isDigit = true ∧ c.toNat - 48 < base

theorem digitBelow_of_isDigitOf {c : Char} (h : IsDigitOf base c) :
    digitBelow base (.scalar c) = some (c.toNat - 48) := by
  have hdigit : isDigit (.scalar c) = true := h.1
  have hbelow : decide (ord (PyChar.scalar c) - 48 < base) = true := decide_eq_true h.2
  unfold digitBelow digitValue
  rw [if_pos hdigit, Option.filter_some, if_pos hbelow]
  rfl

theorem numberFrom_digits {cs : List Char} (h : ∀ c ∈ cs, IsDigitOf base c) (read : Nat) :
    numberFrom base read (cs.map .scalar) = some (Nat.ofDigitChars base cs read) := by
  induction cs generalizing read with
  | nil => rfl
  | cons c cs ih =>
      rw [List.forall_mem_cons] at h
      have hnext := ih h.2 (base * read + (c.toNat - 48))
      rw [Nat.ofDigitChars_cons]
      change _ = some (Nat.ofDigitChars base cs (base * read + (c.toNat - 48)))
      rw [← hnext]
      cases cs with
      | nil =>
          change (digitBelow base (.scalar c)).map _ = _
          rw [digitBelow_of_isDigitOf h.1]
          rfl
      | cons c' cs =>
          -- A digit is no underscore, so the underscore's branch is not taken.
          have hbar : PyChar.scalar c ≠ chr '_' := by
            intro heq
            have hnot := h.1.1
            rw [PyChar.scalar.inj heq] at hnot
            exact absurd hnot (by decide)
          rw [List.map_cons, List.map_cons, numberFrom, if_neg hbar, digitBelow_of_isDigitOf h.1]

theorem numberOf_digits {cs : List Char} (hne : cs ≠ []) (h : ∀ c ∈ cs, IsDigitOf base c) :
    numberOf base (cs.map .scalar) = some (Nat.ofDigitChars base cs 0) := by
  cases cs with
  | nil => exact absurd rfl hne
  | cons c cs =>
      rw [List.forall_mem_cons] at h
      rw [List.map_cons, numberOf, digitBelow_of_isDigitOf h.1]
      change numberFrom base (c.toNat - 48) (cs.map .scalar) = _
      rw [numberFrom_digits h.2, Nat.ofDigitChars_cons, Nat.mul_zero, Nat.zero_add]
      rfl

omit [Decimals] in
theorem dropOctalMark_digits {cs : List Char} (h : ∀ c ∈ cs, IsDigitOf base c) :
    dropOctalMark (cs.map .scalar) = cs.map .scalar := by
  cases cs with
  | nil => rfl
  | cons a cs =>
      cases cs with
      | nil => rfl
      | cons b cs =>
          have hb : b.isDigit = true := (h b (List.mem_cons_of_mem a List.mem_cons_self)).1
          have hmark : ¬(PyChar.scalar a = chr '0' ∧
              (PyChar.scalar b = chr 'o' ∨ PyChar.scalar b = chr 'O')) := by
            rintro ⟨-, hmark | hmark⟩
            · rw [PyChar.scalar.inj hmark] at hb
              exact absurd hb (by decide)
            · rw [PyChar.scalar.inj hmark] at hb
              exact absurd hb (by decide)
          rw [List.map_cons, List.map_cons, dropOctalMark.eq_def]
          exact if_neg hmark

omit [Decimals] in
theorem not_space_of_isDigitOf {c : Char} (h : IsDigitOf base c) :
    isSpace (.scalar c) = false := by
  have hdigit : isDigit (.scalar c) = true := h.1
  have hrange : 48 ≤ c.toNat ∧ c.toNat ≤ 57 := by
    unfold isDigit at hdigit
    rw [Bool.and_eq_true] at hdigit
    exact ⟨of_decide_eq_true hdigit.1, of_decide_eq_true hdigit.2⟩
  refine decide_eq_false ?_
  change ¬(9 ≤ c.toNat ∧ c.toNat ≤ 13 ∨ _)
  have hord : ord (.scalar c) = c.toNat := rfl
  rw [hord]
  omega

/-- Digits are read as the number they are of. -/
theorem pyInt_digits {cs : List Char} (hne : cs ≠ []) (h : ∀ c ∈ cs, IsDigitOf base c) :
    pyInt base (cs.map .scalar) = some (Nat.ofDigitChars base cs 0 : Int) := by
  -- Digits are no blanks, so nothing is stripped.
  have hspace : ∀ c ∈ cs.map PyChar.scalar, isSpace c = false := by
    intro c hc
    rcases List.mem_map.mp hc with ⟨d, hd, rfl⟩
    exact not_space_of_isDigitOf (h d hd)
  have hnumber : numberOf base (if base = 8 then dropOctalMark (cs.map .scalar)
      else cs.map .scalar) = some (Nat.ofDigitChars base cs 0) := by
    rw [dropOctalMark_digits h, ite_self]
    exact numberOf_digits hne h
  unfold pyInt
  rw [strip_of_not_space hspace]
  cases cs with
  | nil => exact absurd rfl hne
  | cons c cs =>
      -- A digit is no sign.
      have hc : c.isDigit = true := (h c List.mem_cons_self).1
      have hminus : PyChar.scalar c ≠ chr '-' := by
        intro heq
        rw [PyChar.scalar.inj heq] at hc
        exact absurd hc (by decide)
      have hplus : PyChar.scalar c ≠ chr '+' := by
        intro heq
        rw [PyChar.scalar.inj heq] at hc
        exact absurd hc (by decide)
      rw [List.map_cons] at hnumber ⊢
      dsimp only
      rw [if_neg hminus, if_neg hplus, hnumber]
      rfl

theorem pyInt_decimal (n : Nat) : pyInt 10 (digits n) = some (n : Int) := by
  unfold digits
  rw [pyInt_digits Nat.toDigits_ne_nil fun c hc =>
    ⟨Nat.isDigit_of_mem_toDigits (by omega) (by omega) hc,
      digit_lt_of_mem_toDigits (by omega) (by omega) hc⟩, Nat.ofDigitChars_ten_toDigits]

end ReadNumbers

end Smbpal
