import Mathlib.Data.List.Basic

/-!
# Prefix Codes

Codes under which a concatenation of codewords can be taken apart again.

A code gives every symbol a word. It is a *prefix code* when a word that begins
a text is the only one that can: two texts that start with codewords and are
equal start with the same symbol. Encoding a list is then injective, and so is
encoding a list whose first symbol goes through a code of its own, which is
what an escaping that treats its first byte specially comes to.

## Main definitions

* `PrefixCode`: No text begins with the codewords of two symbols.

## Theorems

* `PrefixCode.flatMap_injective`: A list can be read back from its encoding.
* `PrefixCode.flatMap_cons_injective`: The same when the first symbol has a
  code of its own.
-/

namespace Smbpal

namespace Lib

variable {α β : Type}

/-- No text begins with the codewords of two symbols, and no codeword is
    empty. -/
structure PrefixCode (code : α → List β) : Prop where
  nonempty : ∀ a, code a ≠ []
  unique : ∀ a b r r', code a ++ r = code b ++ r' → a = b

namespace PrefixCode

variable {code first : α → List β}

/-- The rest of the text is determined with the symbol. -/
theorem split (h : PrefixCode code) {a b : α} {r r' : List β}
    (heq : code a ++ r = code b ++ r') : a = b ∧ r = r' := by
  have hab : a = b := h.unique a b r r' heq
  subst hab
  exact ⟨rfl, List.append_cancel_left heq⟩

theorem flatMap_injective (h : PrefixCode code) {xs ys : List α}
    (heq : xs.flatMap code = ys.flatMap code) : xs = ys := by
  induction xs generalizing ys with
  | nil =>
      cases ys with
      | nil => rfl
      | cons b ys =>
          rw [List.flatMap_nil, List.flatMap_cons] at heq
          exact absurd (List.append_eq_nil_iff.mp heq.symm).1 (h.nonempty b)
  | cons a xs ih =>
      cases ys with
      | nil =>
          rw [List.flatMap_nil, List.flatMap_cons] at heq
          exact absurd (List.append_eq_nil_iff.mp heq).1 (h.nonempty a)
      | cons b ys =>
          rw [List.flatMap_cons, List.flatMap_cons] at heq
          rcases h.split heq with ⟨rfl, hrest⟩
          rw [ih hrest]

/-- A text whose first symbol goes through `first` and whose others go through
    `code` can be read back when both are prefix codes. -/
theorem flatMap_cons_injective (hfirst : PrefixCode first) (h : PrefixCode code) {a b : α}
    {xs ys : List α} (heq : first a ++ xs.flatMap code = first b ++ ys.flatMap code) :
    a = b ∧ xs = ys := by
  rcases hfirst.split heq with ⟨hab, hrest⟩
  exact ⟨hab, h.flatMap_injective hrest⟩

end PrefixCode

end Lib

end Smbpal
