import Mathlib.Data.List.Basic
import Mathlib.Data.List.Nodup

/-!
# Rows by Key

Rows kept under a key in the order in which their keys came, and items gathered into them one
after another: an item whose key has no row starts one, and an item whose key has one goes into
it.

What a key's row ends as depends on the items of that key and on no others, in the order in which
they came. So a gathering is understood one key at a time.

## Main definitions

* `upsert`: Change the row of a key, a new one when there is none.
* `alter`: Change the row of a key, if there is one.
* `gather`: Put items into the rows of their keys.

## Theorems

* `lookup_gather`: A key's row is made of the items of the key.
* `nodup_keys_gather`: No key has two rows.
* `lookup_alter`, `keys_alter`: What a change changes, and that it brings no key.
-/

namespace Smbpal.Lib

section Rows

variable {α κ ν : Type} [DecidableEq κ]

/-- Change the row of a key; a key without one gets it, behind the others. -/
def upsert (k : κ) (new : ν) (f : ν → ν) : List (κ × ν) → List (κ × ν)
  | [] => [(k, f new)]
  | row :: rows => if row.1 = k then (row.1, f row.2) :: rows else row :: upsert k new f rows

/-- Change the row of a key. -/
def alter (k : κ) (f : ν → ν) (rows : List (κ × ν)) : List (κ × ν) :=
  rows.map fun row => if row.1 = k then (row.1, f row.2) else row

/-- Put items into the rows of their keys. -/
def gather (key : α → κ) (new : α → ν) (add : ν → α → ν) (rows : List (κ × ν)) (items : List α) :
    List (κ × ν) :=
  items.foldl (fun rows a => upsert (key a) (new a) (fun row => add row a) rows) rows

section Lookup

variable [BEq κ] [LawfulBEq κ]

theorem lookup_cons (row : κ × ν) (rows : List (κ × ν)) (k : κ) :
    (row :: rows).lookup k = if k = row.1 then some row.2 else rows.lookup k := by
  rcases row with ⟨j, v⟩
  rw [List.lookup_cons]
  by_cases h : k = j
  · rw [if_pos h, h, beq_self_eq_true]
  · rw [if_neg h, beq_false_of_ne h]

theorem lookup_upsert (j k : κ) (new : ν) (f : ν → ν) (rows : List (κ × ν)) :
    (upsert j new f rows).lookup k =
      if k = j then some (f ((rows.lookup j).getD new)) else rows.lookup k := by
  induction rows with
  | nil =>
      rw [upsert, lookup_cons]
      rfl
  | cons row rows ih =>
      rw [upsert, lookup_cons row rows j]
      by_cases hrow : row.1 = j
      · rw [if_pos hrow, if_pos hrow.symm, lookup_cons, lookup_cons, hrow]
        by_cases hk : k = j
        · rw [if_pos hk, if_pos hk]
          rfl
        · rw [if_neg hk, if_neg hk, if_neg hk]
      · rw [if_neg hrow, if_neg (Ne.symm hrow), lookup_cons, lookup_cons, ih]
        by_cases hk : k = row.1
        · rw [if_pos hk, if_pos hk, if_neg fun heq => hrow (hk.symm.trans heq)]
        · rw [if_neg hk, if_neg hk]

/-- A key's row is made of the items of the key, in their order. -/
theorem lookup_gather (key : α → κ) (new : α → ν) (add : ν → α → ν) (rows : List (κ × ν))
    (items : List α) (k : κ) : (gather key new add rows items).lookup k =
      (items.filter fun a => decide (key a = k)).foldl
        (fun row a => some (add (row.getD (new a)) a)) (rows.lookup k) := by
  induction items generalizing rows with
  | nil => rfl
  | cons a items ih =>
      change (gather key new add (upsert (key a) (new a) (fun row => add row a) rows)
        items).lookup k = _
      rw [ih, lookup_upsert, List.filter_cons]
      by_cases hk : key a = k
      · rw [if_pos hk.symm, if_pos (decide_eq_true hk), List.foldl_cons, hk]
      · rw [if_neg (Ne.symm hk), if_neg fun h => hk (of_decide_eq_true h)]

end Lookup

theorem mem_keys_upsert {j k : κ} {new : ν} {f : ν → ν} {rows : List (κ × ν)} :
    k ∈ (upsert j new f rows).map Prod.fst ↔ k = j ∨ k ∈ rows.map Prod.fst := by
  induction rows with
  | nil => rw [upsert, List.map_singleton, List.mem_singleton, List.map_nil, List.mem_nil_iff,
      or_false]
  | cons row rows ih =>
      rw [upsert, List.map_cons, List.mem_cons]
      by_cases hrow : row.1 = j
      · rw [if_pos hrow, List.map_cons, List.mem_cons, ← hrow]
        exact (or_iff_right_of_imp Or.inl).symm
      · rw [if_neg hrow, List.map_cons, List.mem_cons, ih]
        exact or_left_comm

theorem nodup_keys_upsert {j : κ} {new : ν} {f : ν → ν} {rows : List (κ × ν)}
    (h : (rows.map Prod.fst).Nodup) : ((upsert j new f rows).map Prod.fst).Nodup := by
  induction rows with
  | nil => exact List.nodup_singleton j
  | cons row rows ih =>
      rw [List.map_cons, List.nodup_cons] at h
      rw [upsert]
      by_cases hrow : row.1 = j
      · rw [if_pos hrow, List.map_cons, List.nodup_cons]
        exact h
      · rw [if_neg hrow, List.map_cons, List.nodup_cons, mem_keys_upsert]
        exact ⟨fun hmem => hmem.elim hrow h.1, ih h.2⟩

/-- No key has two rows. -/
theorem nodup_keys_gather (key : α → κ) (new : α → ν) (add : ν → α → ν) {rows : List (κ × ν)}
    (h : (rows.map Prod.fst).Nodup) (items : List α) :
    ((gather key new add rows items).map Prod.fst).Nodup := by
  induction items generalizing rows with
  | nil => exact h
  | cons a items ih => exact ih (nodup_keys_upsert h)

section Lookup

variable [BEq κ] [LawfulBEq κ]

theorem mem_keys_iff_lookup {k : κ} {rows : List (κ × ν)} :
    k ∈ rows.map Prod.fst ↔ ∃ v, rows.lookup k = some v := by
  induction rows with
  | nil => simp only [List.map_nil, List.not_mem_nil, List.lookup_nil, reduceCtorEq, exists_false]
  | cons row rows ih =>
      rw [List.map_cons, List.mem_cons, lookup_cons]
      by_cases hk : k = row.1
      · rw [if_pos hk]
        exact ⟨fun _ => ⟨row.2, rfl⟩, fun _ => Or.inl hk⟩
      · rw [if_neg hk, ← ih]
        exact or_iff_right hk

/-- Where no key has two rows, a row is what its key is looked up as. -/
theorem mem_iff_lookup {k : κ} {v : ν} {rows : List (κ × ν)} (h : (rows.map Prod.fst).Nodup) :
    (k, v) ∈ rows ↔ rows.lookup k = some v := by
  induction rows with
  | nil => simp only [List.not_mem_nil, List.lookup_nil, reduceCtorEq]
  | cons row rows ih =>
      rw [List.map_cons, List.nodup_cons] at h
      rw [List.mem_cons, lookup_cons]
      by_cases hk : k = row.1
      · rw [if_pos hk, Option.some.injEq]
        constructor
        · rintro (heq | hmem)
          · rw [← heq]
          · exact absurd (List.mem_map.mpr ⟨(k, v), hmem, hk⟩) h.1
        · intro hv
          exact Or.inl (Prod.ext hk hv.symm)
      · rw [if_neg hk, ← ih h.2]
        exact or_iff_right fun heq => hk (congrArg Prod.fst heq)

theorem lookup_alter (j k : κ) (f : ν → ν) (rows : List (κ × ν)) :
    (alter j f rows).lookup k = if k = j then (rows.lookup k).map f else rows.lookup k := by
  induction rows with
  | nil => rw [alter, List.map_nil, List.lookup_nil, Option.map_none, ite_self]
  | cons row rows ih =>
      rw [alter, List.map_cons, ← alter, lookup_cons, lookup_cons, ih]
      by_cases hrow : row.1 = j
      · rw [if_pos hrow]
        by_cases hk : k = row.1
        · rw [if_pos hk, if_pos hk, if_pos (hk.trans hrow)]
          rfl
        · rw [if_neg hk, if_neg hk]
      · rw [if_neg hrow]
        by_cases hk : k = row.1
        · rw [if_pos hk, if_pos hk, if_neg fun heq => hrow (hk.symm.trans heq)]
        · rw [if_neg hk, if_neg hk]

end Lookup

/-- A change brings no key and takes none. -/
theorem keys_alter (j : κ) (f : ν → ν) (rows : List (κ × ν)) :
    (alter j f rows).map Prod.fst = rows.map Prod.fst := by
  rw [alter, List.map_map]
  refine List.map_congr_left fun row _ => ?_
  rw [Function.comp_apply]
  split
  · rfl
  · rfl

end Rows

end Smbpal.Lib
