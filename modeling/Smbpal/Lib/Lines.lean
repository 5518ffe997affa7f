import Mathlib.Data.List.Basic

/-!
# Lines That Keep Their Ends

Cutting a text into lines without losing a character, over any alphabet.

Some characters end a line. Two of them, a carriage return and the line feed
after it, end it together, so whether a character ends its line depends on the
one that follows (`Ends.closes`). Cutting in front of a text that starts with the
same character is therefore cutting at the same places (`cut_replace`), which is
what lets an edit behind a line be described line by line.

## Main definitions

* `Ends`: The characters that end a line.
* `Ends.cut`: The lines of a text, each with its end.
* `Ends.Closed`: A piece whose end closes a line, whatever comes after.

## Theorems

* `flatten_cut`: Nothing is lost.
* `cut_append`: Cutting on both sides of a closed end.
* `cut_eq_cons`: The first line and the rest.
* `cut_suffix`: The last lines of a text.
* `cut_line_parts`: A line has its end at its end only.
* `cut_replace`: The lines in front of an edit stay as they are.
-/

namespace Smbpal.Lib

/-- The characters that end a line, two of them together. -/
structure Ends (α : Type) where
  cr : α
  lf : α
  isEnd : α → Bool
  lf_isEnd : isEnd lf = true
  cr_ne_lf : cr ≠ lf

namespace Ends

variable {α : Type} [DecidableEq α] (e : Ends α)

/-- Whether `c` ends its line when `s` follows. -/
def closes (c : α) (s : List α) : Bool :=
  e.isEnd c && !(decide (c = e.cr) && decide (s.head? = some e.lf))

/-- Put a character in front of the first line. -/
def extend (c : α) : List (List α) → List (List α)
  | [] => [[c]]
  | line :: lines => (c :: line) :: lines

/-- The lines of a text, each with its end. -/
def cut : List α → List (List α)
  | [] => []
  | c :: s => if e.closes c s then [c] :: cut s else extend c (cut s)

/-- Whatever `a` ends with closes a line when `s` follows. -/
def Closed (a s : List α) : Prop :=
  ∀ init c, a = init ++ [c] → e.closes c s = true

omit [DecidableEq α] in
theorem flatten_extend (c : α) (lines : List (List α)) :
    (extend c lines).flatten = c :: lines.flatten := by
  cases lines with
  | nil => rfl
  | cons line lines => rfl

/-- Nothing is lost. -/
theorem flatten_cut (s : List α) : (e.cut s).flatten = s := by
  induction s with
  | nil => rfl
  | cons c s ih =>
      unfold cut
      by_cases hc : e.closes c s = true
      · rw [if_pos hc, List.flatten_cons, ih]
        rfl
      · rw [if_neg hc, flatten_extend, ih]

theorem closes_congr (c : α) {s t : List α} (h : s.head? = t.head?) :
    e.closes c s = e.closes c t := by
  unfold closes
  rw [h]

theorem closes_lf (s : List α) : e.closes e.lf s = true := by
  unfold closes
  rw [e.lf_isEnd, decide_eq_false e.cr_ne_lf.symm]
  rfl

/-- The two of them end their line together. -/
theorem closes_cr_lf (s : List α) : e.closes e.cr (e.lf :: s) = false := by
  unfold closes
  rw [decide_eq_true rfl, List.head?_cons, decide_eq_true rfl, Bool.true_and, Bool.not_true,
    Bool.and_false]

theorem closed_of_head {a s t : List α} (h : s.head? = t.head?) (ha : e.Closed a s) :
    e.Closed a t := by
  intro init c heq
  rw [← e.closes_congr c h]
  exact ha init c heq

theorem closed_cons {c d : α} {a s : List α} : e.Closed (c :: d :: a) s ↔ e.Closed (d :: a) s := by
  constructor
  · intro h init x heq
    exact h (c :: init) x (by rw [heq, List.cons_append])
  · intro h init x heq
    cases init with
    | nil => exact absurd (congrArg List.length heq) (by simp)
    | cons y init =>
        rw [List.cons_append, List.cons.injEq] at heq
        exact h init x heq.2

theorem cut_singleton (c : α) : e.cut [c] = [[c]] := by
  unfold cut
  by_cases hc : e.closes c [] = true
  · rw [if_pos hc]
    rfl
  · rw [if_neg hc]
    rfl

omit [DecidableEq α] in
theorem extend_append (c : α) {lines : List (List α)} (h : lines ≠ []) (more : List (List α)) :
    extend c (lines ++ more) = extend c lines ++ more := by
  cases lines with
  | nil => exact absurd rfl h
  | cons line lines => rfl

theorem cut_ne_nil {s : List α} (h : s ≠ []) : e.cut s ≠ [] := by
  intro hcut
  have hflat := e.flatten_cut s
  rw [hcut, List.flatten_nil] at hflat
  exact h hflat.symm

/-- Cutting on both sides of a closed end. -/
theorem cut_append {a s : List α} (h : e.Closed a s) : e.cut (a ++ s) = e.cut a ++ e.cut s := by
  induction a with
  | nil => rfl
  | cons c a ih =>
      cases a with
      | nil =>
          rw [cut_singleton, List.singleton_append, cut, if_pos (h [] c rfl)]
          rfl
      | cons d a =>
          have hhead : (d :: a ++ s).head? = (d :: a).head? := rfl
          rw [List.cons_append, cut, ih (e.closed_cons.mp h), e.closes_congr c hhead,
            cut.eq_2 e c (d :: a)]
          by_cases hc : e.closes c (d :: a) = true
          · rw [if_pos hc, if_pos hc, List.cons_append]
          · rw [if_neg hc, if_neg hc, extend_append c (e.cut_ne_nil (List.cons_ne_nil d a))]

/-- Characters that end nothing go in front of the line they are on. -/
theorem cut_body {body s : List α} (hbody : ∀ c ∈ body, e.isEnd c = false) {line : List α}
    {lines : List (List α)} (hs : e.cut s = line :: lines) :
    e.cut (body ++ s) = (body ++ line) :: lines := by
  induction body with
  | nil => exact hs
  | cons c body ih =>
      have hc : e.closes c (body ++ s) = false := by
        unfold closes
        rw [hbody c List.mem_cons_self, Bool.false_and]
      rw [List.cons_append, cut, hc, if_neg Bool.false_ne_true,
        ih fun d hd => hbody d (List.mem_cons_of_mem c hd)]
      rfl

/-- The first line and the rest. -/
theorem cut_eq_cons {s line : List α} {lines : List (List α)} (h : e.cut s = line :: lines) :
    line ≠ [] ∧ s = line ++ lines.flatten ∧ e.cut line = [line] ∧ e.cut lines.flatten = lines ∧
      (lines ≠ [] → e.Closed line lines.flatten) := by
  induction s generalizing line with
  | nil => exact absurd h (List.cons_ne_nil _ _).symm
  | cons c s ih =>
      have hall := e.flatten_cut s
      unfold cut at h
      by_cases hc : e.closes c s = true
      · rw [if_pos hc, List.cons.injEq] at h
        rcases h with ⟨rfl, rfl⟩
        rw [hall]
        refine ⟨List.cons_ne_nil _ _, rfl, e.cut_singleton c, rfl, fun _ init d heq => ?_⟩
        cases init with
        | nil =>
            rw [List.nil_append, List.singleton_inj] at heq
            rw [← heq]
            exact hc
        | cons x init => exact absurd (congrArg List.length heq) (by simp)
      · rw [if_neg hc] at h
        rcases hcut : e.cut s with _ | ⟨next, rest⟩
        · rw [hcut] at h
          change [[c]] = line :: lines at h
          rw [List.cons.injEq] at h
          rcases h with ⟨rfl, rfl⟩
          have hs : s = [] := by
            by_contra hne
            exact e.cut_ne_nil hne hcut
          rw [hs]
          exact ⟨List.cons_ne_nil _ _, rfl, e.cut_singleton c, rfl, fun hne => absurd rfl hne⟩
        · rw [hcut] at h
          change (c :: next) :: rest = line :: lines at h
          rw [List.cons.injEq] at h
          rcases h with ⟨rfl, rfl⟩
          rcases ih hcut with ⟨hne, hs, hline, hrest, hclosed⟩
          cases next with
          | nil => exact absurd rfl hne
          | cons d next =>
              refine ⟨List.cons_ne_nil _ _, by rw [hs]; rfl, ?_, hrest, fun hr =>
                e.closed_cons.mpr (hclosed hr)⟩
              -- The character after `c` is the same on its line and in the text.
              have hhead : (d :: next).head? = s.head? := by
                rw [hs]
                rfl
              rw [cut, e.closes_congr c hhead, if_neg hc, hline]
              rfl

/-- A line has its end at its end only. -/
theorem cut_line_parts {line : List α} (h : e.cut line = [line]) :
    ∃ body ending, line = body ++ ending ∧ (∀ c ∈ body, e.isEnd c = false) ∧
      ∀ c ∈ ending, e.isEnd c = true := by
  induction line with
  | nil => exact ⟨[], [], rfl, fun _ hc => absurd hc List.not_mem_nil, fun _ hc => absurd hc
      List.not_mem_nil⟩
  | cons c s ih =>
      rw [cut] at h
      by_cases hend : e.isEnd c = true
      · -- the end: a character, or the two of them
        refine ⟨[], c :: s, rfl, fun _ hc => absurd hc List.not_mem_nil, ?_⟩
        by_cases hcloses : e.closes c s = true
        · rw [if_pos hcloses, List.cons.injEq, List.cons.injEq] at h
          rw [← h.1.2]
          exact fun d hd => List.mem_singleton.mp hd ▸ hend
        · rw [closes, hend, Bool.true_and, Bool.not_eq_true', Bool.not_eq_false,
            Bool.and_eq_true, decide_eq_true_eq, decide_eq_true_eq] at hcloses
          rcases s with _ | ⟨d, s⟩
          · exact absurd hcloses.2 (Option.some_ne_none e.lf).symm
          · obtain rfl : d = e.lf := Option.some.inj hcloses.2
            rw [hcloses.1, e.closes_cr_lf, if_neg Bool.false_ne_true, cut,
              if_pos (e.closes_lf s), extend, List.cons.injEq, List.cons.injEq,
              List.cons.injEq] at h
            rw [← h.1.2.2]
            intro x hx
            rcases List.mem_cons.mp hx with rfl | hx
            · exact hend
            · exact List.mem_singleton.mp hx ▸ e.lf_isEnd
      · have hopen : ¬e.closes c s = true := by
          rw [closes, eq_false_of_ne_true hend, Bool.false_and]
          exact Bool.false_ne_true
        rw [if_neg hopen] at h
        have hrest : s = [] ∨ e.cut s = [s] := by
          rcases hs : e.cut s with _ | ⟨first, rest⟩
          · have hflat := e.flatten_cut s
            rw [hs] at hflat
            exact Or.inl hflat.symm
          · rw [hs, extend, List.cons.injEq, List.cons.injEq] at h
            rw [h.1.2, h.2]
            exact Or.inr rfl
        rcases hrest with rfl | hrest
        · exact ⟨[c], [], rfl, fun d hd => List.mem_singleton.mp hd ▸ eq_false_of_ne_true hend,
            fun _ hd => absurd hd List.not_mem_nil⟩
        · rcases ih hrest with ⟨body, ending, rfl, hbody, hending⟩
          refine ⟨c :: body, ending, rfl, fun d hd => ?_, hending⟩
          rcases List.mem_cons.mp hd with rfl | hd
          · exact eq_false_of_ne_true hend
          · exact hbody d hd

/-- Every line of a text is cut off as it is. -/
theorem cut_of_mem_cut {s line : List α} (h : line ∈ e.cut s) : e.cut line = [line] := by
  generalize hlines : e.cut s = lines at h
  induction lines generalizing s with
  | nil => exact absurd h List.not_mem_nil
  | cons first rest ih =>
      rcases e.cut_eq_cons hlines with ⟨-, -, hfirst, hrest, -⟩
      rcases List.mem_cons.mp h with rfl | h
      · exact hfirst
      · exact ih hrest h

/-- No line is empty. -/
theorem ne_nil_of_mem_cut {s line : List α} (h : line ∈ e.cut s) : line ≠ [] := by
  generalize hlines : e.cut s = lines at h
  induction lines generalizing s with
  | nil => exact absurd h List.not_mem_nil
  | cons first rest ih =>
      rcases e.cut_eq_cons hlines with ⟨hfirst, -, -, hrest, -⟩
      rcases List.mem_cons.mp h with rfl | h
      · exact hfirst
      · exact ih hrest h

/-- The last lines of a text are the lines of its last part. -/
theorem cut_suffix {s : List α} {pre post : List (List α)} (h : e.cut s = pre ++ post) :
    e.cut post.flatten = post := by
  induction pre generalizing s with
  | nil =>
      have hs := e.flatten_cut s
      rw [h, List.nil_append] at hs
      rw [hs]
      exact h
  | cons first pre ih =>
      rcases e.cut_eq_cons h with ⟨-, -, -, hrest, -⟩
      exact ih hrest

/-- The lines in front of an edit stay as they are. -/
theorem cut_replace {s line : List α} {pre post : List (List α)}
    (h : e.cut s = pre ++ line :: post) (u : List α) :
    e.cut (pre.flatten ++ (line ++ u)) = pre ++ e.cut (line ++ u) := by
  have hline : line ≠ [] := e.ne_nil_of_mem_cut (h ▸ List.mem_append_right pre List.mem_cons_self)
  induction pre generalizing s with
  | nil => rfl
  | cons first pre ih =>
      rcases e.cut_eq_cons h with ⟨-, -, hfirst, hrest, hclosed⟩
      -- What follows `first` starts with the same character before and after the edit.
      have hhead : (pre ++ line :: post).flatten.head? = (pre.flatten ++ (line ++ u)).head? := by
        rcases List.exists_cons_of_ne_nil hline with ⟨c, rest, rfl⟩
        simp only [List.flatten_append, List.flatten_cons, List.head?_append, List.cons_append,
          List.head?_cons, Option.or_some]
      rw [List.flatten_cons, List.append_assoc,
        e.cut_append (e.closed_of_head hhead (hclosed (by simp))), hfirst, ih hrest]
      rfl

end Ends

end Smbpal.Lib
