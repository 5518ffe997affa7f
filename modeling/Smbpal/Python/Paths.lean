import Smbpal.Python.Text

/-!
# The Components of a Path

A string taken apart at a separator and put together again, and what that makes of paths: the
parts between the slashes, and of these the ones that say where to go. `os.path.normpath`
keeps the latter, where no `..` takes one away.

## Main definitions

* `pathParts`: The parts that are not empty.
* `components`: Of these the ones that are not `.`.

## Theorems

* `split_induction`: Induction on the parts a string is split into.
* `splitChar_join`: Parts without the separator are found again.
* `normpath_eq`: What normalising makes of an absolute path.
-/

namespace Smbpal

section Split

variable {c : Char}

/-- A string is one part, or a part with the separator and a string after it. -/
theorem split_induction {motive : Str → List Str → Prop}
    (hlast : ∀ part, chr c ∉ part → motive part [part])
    (hcons : ∀ part rest parts, chr c ∉ part → parts ≠ [] → motive rest parts →
      motive (part ++ chr c :: rest) (part :: parts)) (s : Str) : motive s (splitChar c s) := by
  induction hn : s.length using Nat.strong_induction_on generalizing s with
  | _ n ih =>
      by_cases hmem : chr c ∈ s
      · rcases List.eq_append_cons_of_mem hmem with ⟨part, rest, rfl, hnot⟩
        rw [splitChar_append, splitChar_of_not_mem hnot]
        refine hcons part rest _ hnot (splitChar_ne_nil c rest) (ih rest.length ?_ rest rfl)
        rw [← hn, List.length_append, List.length_cons]
        omega
      · rw [splitChar_of_not_mem hmem]
        exact hlast s hmem

/-- No part has the separator. -/
theorem not_mem_of_mem_splitChar {s part : Str} (h : part ∈ splitChar c s) : chr c ∉ part := by
  refine @split_induction c (fun _ parts => ∀ part ∈ parts, chr c ∉ part) ?_ ?_ s part h
  · intro part hnot part' hmem
    rw [List.mem_singleton.mp hmem]
    exact hnot
  · intro part rest parts hnot _ ih part' hmem
    rcases List.mem_cons.mp hmem with rfl | hmem
    · exact hnot
    · exact ih part' hmem

theorem join_cons {sep part : Str} {parts : List Str} (h : parts ≠ []) :
    join sep (part :: parts) = part ++ sep ++ join sep parts := by
  cases parts with
  | nil => exact absurd rfl h
  | cons next parts => rfl

theorem join_eq_nil {sep : Str} {parts : List Str} (h : ∀ part ∈ parts, part ≠ [])
    (hnil : join sep parts = []) : parts = [] := by
  cases parts with
  | nil => rfl
  | cons part parts =>
      refine absurd ?_ (h part List.mem_cons_self)
      cases parts with
      | nil => exact hnil
      | cons next parts =>
          rw [join_cons (List.cons_ne_nil next parts), List.append_assoc] at hnil
          exact (List.append_eq_nil_iff.mp hnil).1

theorem mem_join {sep part : Str} {parts : List Str} (h : part ∈ parts) {d : PyChar}
    (hd : d ∈ part) : d ∈ join sep parts := by
  induction parts with
  | nil => exact absurd h List.not_mem_nil
  | cons first parts ih =>
      cases parts with
      | nil =>
          rw [← List.mem_singleton.mp h]
          exact hd
      | cons next parts =>
          rw [join_cons (List.cons_ne_nil next parts), List.mem_append, List.mem_append]
          rcases List.mem_cons.mp h with rfl | h
          · exact Or.inl (Or.inl hd)
          · exact Or.inr (ih h)

theorem mem_of_mem_join {sep : Str} {parts : List Str} {d : PyChar} (hd : d ∈ join sep parts) :
    d ∈ sep ∨ ∃ part ∈ parts, d ∈ part := by
  induction parts with
  | nil => exact absurd hd List.not_mem_nil
  | cons first parts ih =>
      cases parts with
      | nil => exact Or.inr ⟨first, List.mem_cons_self, hd⟩
      | cons next parts =>
          rw [join_cons (List.cons_ne_nil next parts), List.mem_append, List.mem_append] at hd
          rcases hd with (hd | hd) | hd
          · exact Or.inr ⟨first, List.mem_cons_self, hd⟩
          · exact Or.inl hd
          · rcases ih hd with hd | ⟨part, hpart, hd⟩
            · exact Or.inl hd
            · exact Or.inr ⟨part, List.mem_cons_of_mem first hpart, hd⟩

/-- Parts without the separator are found again. -/
theorem splitChar_join {parts : List Str} (hne : parts ≠ []) (h : ∀ part ∈ parts, chr c ∉ part) :
    splitChar c (join [chr c] parts) = parts := by
  induction parts with
  | nil => exact absurd rfl hne
  | cons part parts ih =>
      rw [List.forall_mem_cons] at h
      cases parts with
      | nil => exact splitChar_of_not_mem h.1
      | cons next parts =>
          rw [join_cons (List.cons_ne_nil next parts), List.append_assoc, List.singleton_append,
            splitChar_append, splitChar_of_not_mem h.1, ih (List.cons_ne_nil next parts) h.2]
          rfl

theorem join_splitChar (s : Str) : join [chr c] (splitChar c s) = s := by
  refine @split_induction c (fun s parts => join [chr c] parts = s) ?_ ?_ s
  · intro part _
    rfl
  · intro part rest parts _ hne ih
    rw [join_cons hne, ih, List.append_assoc]
    rfl

end Split

section Paths

/-- The parts between the slashes that are not empty. -/
def pathParts (path : Str) : List Str :=
  (splitChar '/' path).filter fun part => decide (part ≠ [])

/-- The parts that say where to go. -/
def components (path : Str) : List Str :=
  (splitChar '/' path).filter fun part => decide (part ≠ [] ∧ part ≠ str ".")

theorem mem_pathParts {path part : Str} : part ∈ pathParts path ↔
    part ∈ splitChar '/' path ∧ part ≠ [] := by
  rw [pathParts, List.mem_filter, decide_eq_true_eq]

theorem components_eq (path : Str) :
    components path = (pathParts path).filter fun part => decide (part ≠ str ".") := by
  rw [components, pathParts, List.filter_filter]
  refine List.filter_congr fun part _ => ?_
  rw [Bool.decide_and, Bool.and_comm]

/-- Without a dot among them the components are all the parts there are. -/
theorem components_eq_pathParts_iff {path : Str} :
    components path = pathParts path ↔ str "." ∉ splitChar '/' path := by
  rw [components_eq, List.filter_eq_self]
  constructor
  · intro h hdot
    exact absurd rfl (of_decide_eq_true (h _ (mem_pathParts.mpr ⟨hdot, by decide⟩)))
  · intro h part hpart
    refine decide_eq_true ?_
    rintro rfl
    exact h (mem_pathParts.mp hpart).1

/-- Parts that are not empty are found again. -/
theorem pathParts_join {parts : List Str} (hslash : ∀ part ∈ parts, chr '/' ∉ part)
    (hempty : ∀ part ∈ parts, part ≠ []) : pathParts (join (str "/") parts) = parts := by
  by_cases hne : parts = []
  · rw [hne]
    rfl
  · rw [pathParts, show str "/" = [chr '/'] from rfl, splitChar_join hne hslash,
      List.filter_eq_self]
    exact fun part hpart => decide_eq_true (hempty part hpart)

theorem pathParts_join_pathParts (path : Str) :
    pathParts (join (str "/") (pathParts path)) = pathParts path :=
  pathParts_join (fun _ h => not_mem_of_mem_splitChar (mem_pathParts.mp h).1)
    fun _ h => (mem_pathParts.mp h).2

/-- The path that says a path's components and no more. -/
theorem pathParts_components (path : Str) :
    pathParts (join (str "/") (components path)) = components path := by
  refine pathParts_join ?_ ?_
  · intro part hpart
    rw [components_eq, List.mem_filter, mem_pathParts] at hpart
    exact not_mem_of_mem_splitChar hpart.1.1
  · intro part hpart
    rw [components_eq, List.mem_filter, mem_pathParts] at hpart
    exact hpart.1.2

/-- What stands in front of an absolute path once it is normal. -/
def leadingSlashes (path : Str) : Str :=
  if startsWith path "//" && !startsWith path "///" then str "//" else str "/"

theorem foldl_normStep {parts kept : List Str} (h : str ".." ∉ parts) :
    (parts.foldl (normStep true) kept).reverse =
      kept.reverse ++ parts.filter fun part => decide (part ≠ [] ∧ part ≠ str ".") := by
  induction parts generalizing kept with
  | nil => exact (List.append_nil _).symm
  | cons part parts ih =>
      rw [List.mem_cons, not_or] at h
      rw [List.foldl_cons, ih h.2, List.filter_cons]
      unfold normStep
      by_cases hskip : part = [] ∨ part = str "."
      · rw [if_pos hskip, if_neg]
        rw [decide_eq_true_eq]
        exact fun hkeep => hskip.elim hkeep.1 hkeep.2
      · rw [if_neg hskip, if_neg (Ne.symm h.1), if_pos (decide_eq_true (not_or.mp hskip)),
          List.reverse_cons, List.append_assoc]
        rfl

/-- Normalising keeps the components, and two slashes in front. -/
theorem normpath_eq {path : Str} (habsolute : startsWith path "/" = true)
    (hdots : str ".." ∉ splitChar '/' path) :
    normpath path = leadingSlashes path ++ join (str "/") (components path) := by
  have hslashes : (if startsWith path "//" && !startsWith path "///" then str "//"
      else if startsWith path "/" then str "/" else []) = leadingSlashes path := by
    rw [if_pos habsolute, leadingSlashes]
  have hne : leadingSlashes path ≠ [] := by
    unfold leadingSlashes
    split_ifs <;> decide
  unfold normpath
  rw [hslashes]
  dsimp only
  rw [decide_eq_true hne, foldl_normStep hdots,
    if_neg fun hnil => hne (List.append_eq_nil_iff.mp hnil).1]
  rfl

end Paths

end Smbpal
