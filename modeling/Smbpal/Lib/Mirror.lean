import Mathlib.Logic.Function.Basic

/-!
# A Picture Kept by Changes

A picture has a row, or none, for each key, and changes come to it one after another, each with
a key and its new row, or with a key whose row is gone. A reader who takes the picture at some
moment and makes every change from then on has in the end what the last change of each key left,
and where there was none, what he took.

So the changes lead to a target when the last one of each key is the target's, and it does not
matter then when the target itself is taken.

## Main definitions

* `RowChange`: A key, with its new row or none.
* `hear`: A picture after some changes.
* `Leads`: The last change of each key is the target's.

## Theorems

* `hear_eq_iff`: When a picture becomes the target.
* `Leads.hear_self`: The target stays as it is.
-/

namespace Smbpal

namespace Lib

variable {κ ρ : Type} [DecidableEq κ]

/-- A key, with its new row or none. -/
abbrev RowChange (κ ρ : Type) := κ × Option ρ

/-- A picture after some changes. -/
def hear (changes : List (RowChange κ ρ)) (picture : κ → Option ρ) : κ → Option ρ :=
  changes.foldl (fun p c => Function.update p c.1 c.2) picture

/-- What the last change of a key leaves there. -/
def lastOf (key : κ) (changes : List (RowChange κ ρ)) : Option (Option ρ) :=
  (changes.filter fun c => decide (c.1 = key)).getLast?.map Prod.snd

/-- The last change of each key is the target's. -/
def Leads (target : κ → Option ρ) (changes : List (RowChange κ ρ)) : Prop :=
  ∀ key row, lastOf key changes = some row → row = target key

variable {changes : List (RowChange κ ρ)} {picture target : κ → Option ρ}

@[simp] theorem hear_nil (picture : κ → Option ρ) : hear [] picture = picture :=
  rfl

@[simp] theorem hear_cons (c : RowChange κ ρ) (changes : List (RowChange κ ρ))
    (picture : κ → Option ρ) :
    hear (c :: changes) picture = hear changes (Function.update picture c.1 c.2) :=
  rfl

theorem lastOf_cons (key : κ) (c : RowChange κ ρ) (changes : List (RowChange κ ρ)) :
    lastOf key (c :: changes) =
      (lastOf key changes).or (if c.1 = key then some c.2 else none) := by
  unfold lastOf
  by_cases hkey : c.1 = key
  · rw [List.filter_cons, if_pos (decide_eq_true hkey), if_pos hkey, List.getLast?_cons]
    cases (changes.filter fun c => decide (c.1 = key)).getLast? with
    | none => rfl
    | some d => rfl
  · rw [List.filter_cons, if_neg fun h => hkey (of_decide_eq_true h), if_neg hkey,
      Option.or_none]

theorem lastOf_append (key : κ) (changes later : List (RowChange κ ρ)) :
    lastOf key (changes ++ later) = (lastOf key later).or (lastOf key changes) := by
  induction changes with
  | nil => exact (Option.or_none).symm
  | cons c changes ih => rw [List.cons_append, lastOf_cons, ih, lastOf_cons, Option.or_assoc]

theorem lastOf_eq_none_iff {key : κ} : lastOf key changes = none ↔ ∀ c ∈ changes, c.1 ≠ key := by
  unfold lastOf
  rw [Option.map_eq_none_iff, List.getLast?_eq_none_iff, List.filter_eq_nil_iff]
  exact forall₂_congr fun c _ => not_congr decide_eq_true_iff

/-- A key's row after the changes is the last one's, or the one there was. -/
theorem hear_apply (changes : List (RowChange κ ρ)) (picture : κ → Option ρ) (key : κ) :
    hear changes picture key = (lastOf key changes).getD (picture key) := by
  induction changes generalizing picture with
  | nil => rfl
  | cons c changes ih =>
      rw [hear_cons, ih, lastOf_cons]
      cases lastOf key changes with
      | some row => rfl
      | none =>
          rw [Option.none_or]
          by_cases hkey : c.1 = key
          · rw [if_pos hkey, ← hkey]
            exact Function.update_self _ _ _
          · rw [if_neg hkey]
            exact Function.update_of_ne (Ne.symm hkey) _ _

theorem Leads.tail {c : RowChange κ ρ} (h : Leads target (c :: changes)) :
    Leads target changes := by
  intro key row hrow
  refine h key row ?_
  rw [lastOf_cons, hrow]
  rfl

/-- The target stays as it is. -/
theorem Leads.hear_self (h : Leads target changes) : hear changes target = target := by
  funext key
  rw [hear_apply]
  cases hlast : lastOf key changes with
  | none => rfl
  | some row => exact h key row hlast

/-- A picture becomes the target when the changes lead there, and what they leave alone is
    right. -/
theorem hear_eq_iff : hear changes picture = target ↔
    Leads target changes ∧ ∀ key, (∀ c ∈ changes, c.1 ≠ key) → picture key = target key := by
  constructor
  · intro h
    refine ⟨fun key row hrow => ?_, fun key hkey => ?_⟩
    · rw [← h, hear_apply, hrow]
      rfl
    · rw [← h, hear_apply, lastOf_eq_none_iff.mpr hkey]
      rfl
  · rintro ⟨hleads, hother⟩
    funext key
    rw [hear_apply]
    cases hlast : lastOf key changes with
    | none => exact hother key (lastOf_eq_none_iff.mp hlast)
    | some row => exact hleads key row hlast

end Lib

end Smbpal
