import Mathlib.Data.List.AList

/-!
# Dictionaries and Records

Dictionaries as Mathlib's association lists, and what a program that goes over one's
items needs besides: the keys and the values whose value passes a test, and removing
several keys. Records that are only ever added, and changed where they are, are a list,
and a record is known by its place.

## Main definitions

* `Dict`: A dictionary.
* `keysWhere`, `valuesWhere`: Those whose value passes a test.
* `eraseAll`: Removing several keys.

## Theorems

* `mem_keysWhere`, `mem_valuesWhere`: What is among them.
* `lookup_eraseAll`: What is left.
* `of_push`, `push_of`: The records after one more.
* `of_modify`, `modify_of`, `set_of`: The records after a change of one.
* `countP_set_add`: How many pass a test after it.
-/

namespace Smbpal.Lib

/-- A dictionary. -/
abbrev Dict (κ ν : Type) := AList fun _ : κ => ν

namespace Dict

variable {κ ν : Type} [DecidableEq κ]

omit [DecidableEq κ] in
/-- The keys whose value passes a test. -/
def keysWhere (p : ν → Bool) (d : Dict κ ν) : List κ :=
  (d.entries.filter fun entry => p entry.2).map fun entry => entry.1

omit [DecidableEq κ] in
/-- The values that pass a test. -/
def valuesWhere (p : ν → Bool) (d : Dict κ ν) : List ν :=
  (d.entries.filter fun entry => p entry.2).map fun entry => entry.2

/-- Remove several keys. -/
def eraseAll (keys : List κ) (d : Dict κ ν) : Dict κ ν :=
  keys.foldl (fun d key => d.erase key) d

theorem mem_keysWhere {p : ν → Bool} {d : Dict κ ν} {key : κ} :
    key ∈ keysWhere p d ↔ ∃ value, d.lookup key = some value ∧ p value = true := by
  simp only [keysWhere, List.mem_map, List.mem_filter]
  constructor
  · rintro ⟨⟨k, value⟩, ⟨hmem, hp⟩, rfl⟩
    exact ⟨value, AList.mem_lookup_iff.mpr hmem, hp⟩
  · rintro ⟨value, hlookup, hp⟩
    exact ⟨⟨key, value⟩, ⟨AList.mem_lookup_iff.mp hlookup, hp⟩, rfl⟩

theorem mem_valuesWhere {p : ν → Bool} {d : Dict κ ν} {value : ν} :
    value ∈ valuesWhere p d ↔ (∃ key, d.lookup key = some value) ∧ p value = true := by
  simp only [valuesWhere, List.mem_map, List.mem_filter]
  constructor
  · rintro ⟨⟨key, v⟩, ⟨hmem, hp⟩, rfl⟩
    exact ⟨⟨key, AList.mem_lookup_iff.mpr hmem⟩, hp⟩
  · rintro ⟨⟨key, hlookup⟩, hp⟩
    exact ⟨⟨key, value⟩, ⟨AList.mem_lookup_iff.mp hlookup, hp⟩, rfl⟩

/-- What is left once several keys are removed. -/
theorem lookup_eraseAll (keys : List κ) (d : Dict κ ν) (key : κ) :
    (eraseAll keys d).lookup key = if key ∈ keys then none else d.lookup key := by
  induction keys generalizing d with
  | nil => rw [if_neg List.not_mem_nil, eraseAll, List.foldl_nil]
  | cons first keys ih =>
      rw [eraseAll, List.foldl_cons]
      refine (ih (d.erase first)).trans ?_
      by_cases hkey : key = first
      · subst hkey
        rw [AList.lookup_erase, if_pos List.mem_cons_self, ite_self]
      · rw [AList.lookup_erase_ne hkey]
        simp only [List.mem_cons, hkey, false_or]

end Dict

section Records

variable {α : Type} {records : List α} {m n : Nat} {record : α}

theorem of_push {last : α} (h : (records ++ [last])[n]? = some record) :
    records[n]? = some record ∨ n = records.length ∧ record = last := by
  by_cases hn : n < records.length
  · exact Or.inl (List.getElem?_append_left hn ▸ h)
  · rw [List.getElem?_append_right (Nat.le_of_not_lt hn)] at h
    rcases List.getElem?_eq_some_iff.mp h with ⟨hlt, hrecord⟩
    rw [List.length_singleton] at hlt
    exact Or.inr ⟨by omega, (List.getElem_singleton hlt ▸ hrecord).symm⟩

theorem push_of (last : α) (h : records[n]? = some record) :
    (records ++ [last])[n]? = some record := by
  rw [List.getElem?_append_left (List.getElem?_eq_some_iff.mp h).1]
  exact h

theorem of_modify {f : α → α} (h : (records.modify m f)[n]? = some record) :
    ∃ before, records[n]? = some before ∧ record = if m = n then f before else before := by
  rw [List.getElem?_modify] at h
  rcases Option.map_eq_some_iff.mp h with ⟨before, hbefore, hrecord⟩
  exact ⟨before, hbefore, hrecord.symm⟩

theorem modify_of (f : α → α) (h : records[n]? = some record) :
    (records.modify m f)[n]? = some (if m = n then f record else record) := by
  rw [List.getElem?_modify, h]
  rfl

theorem set_of {new : α} (h : records[n]? = some record) :
    (records.set m new)[n]? = some (if m = n then new else record) := by
  rw [List.getElem?_set]
  by_cases hmn : m = n
  · rw [if_pos hmn, if_pos hmn, if_pos (hmn ▸ (List.getElem?_eq_some_iff.mp h).1)]
  · rw [if_neg hmn, if_neg hmn, h]

/-- A change of one record changes how many pass a test by whether it and what it becomes do. -/
theorem countP_set_add (p : α → Bool) (new : α) (h : records[n]? = some record) :
    (records.set n new).countP p + (if p record then 1 else 0) =
      records.countP p + if p new then 1 else 0 := by
  rcases List.getElem?_eq_some_iff.mp h with ⟨hlt, rfl⟩
  have hle := List.boole_getElem_le_countP (p := p) hlt
  rw [List.countP_set hlt]
  omega

end Records

end Smbpal.Lib
