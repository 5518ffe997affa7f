import Mathlib.Data.List.Basic

/-!
# Framing

A stream cut at a separator, over any alphabet: the pieces that have ended, and the
one that has not.

A reader that is given the stream in chunks keeps the unfinished piece and cuts again
when more arrives. `framed_append` is why that comes to the same as cutting the whole
stream, wherever the chunks end.

## Main definitions

* `framed`: The pieces that have ended, and the unfinished one.
* `unframed`: The stream of some pieces, each ended.

## Theorems

* `framed_of_not_mem`: Without a separator nothing has ended.
* `framed_piece`: The first piece.
* `framed_append`: Cutting goes on from the unfinished piece.
* `framed_unframed`: The pieces come back.
* `unframed_framed`: Nothing is lost.
* `mem_framed_iff`: Where a piece has ended.
* `eq_of_prefix_of_mem_framed`: A stream is complete with its last piece, and not before.
* `all_or_first`: The first piece that fails a test, if one does.
-/

namespace Smbpal.Lib

variable {α : Type} [DecidableEq α]

/-- One more character in front of a cut stream. -/
def pushFramed (sep c : α) (r : List (List α) × List α) : List (List α) × List α :=
  if c = sep then ([] :: r.1, r.2)
  else
    match r.1 with
    | [] => ([], c :: r.2)
    | piece :: pieces => ((c :: piece) :: pieces, r.2)

/-- The pieces of a stream that have ended, and the unfinished one. -/
def framed (sep : α) : List α → List (List α) × List α
  | [] => ([], [])
  | c :: s => pushFramed sep c (framed sep s)

omit [DecidableEq α] in
/-- The stream of some pieces, each ended. -/
def unframed (sep : α) (pieces : List (List α)) : List α :=
  pieces.flatMap fun piece => piece ++ [sep]

theorem pushFramed_sep (sep : α) (r : List (List α) × List α) :
    pushFramed sep sep r = ([] :: r.1, r.2) :=
  if_pos rfl

theorem pushFramed_nil {sep c : α} (hc : c ≠ sep) (rest : List α) :
    pushFramed sep c ([], rest) = ([], c :: rest) :=
  if_neg hc

theorem pushFramed_cons {sep c : α} (hc : c ≠ sep) (piece rest : List α)
    (pieces : List (List α)) :
    pushFramed sep c (piece :: pieces, rest) = ((c :: piece) :: pieces, rest) :=
  if_neg hc

/-- Without a separator nothing has ended. -/
theorem framed_of_not_mem {sep : α} {s : List α} (h : sep ∉ s) : framed sep s = ([], s) := by
  induction s with
  | nil => rfl
  | cons c s ih =>
      have hc : c ≠ sep := fun heq => h (heq ▸ List.mem_cons_self)
      rw [framed, ih fun hs => h (List.mem_cons_of_mem c hs), pushFramed_nil hc]

/-- The first piece. -/
theorem framed_piece {sep : α} {piece : List α} (h : sep ∉ piece) (s : List α) :
    framed sep (piece ++ sep :: s) = (piece :: (framed sep s).1, (framed sep s).2) := by
  induction piece with
  | nil => rw [List.nil_append, framed, pushFramed_sep]
  | cons c piece ih =>
      have hc : c ≠ sep := fun heq => h (heq ▸ List.mem_cons_self)
      rw [List.cons_append, framed, ih fun hp => h (List.mem_cons_of_mem c hp),
        pushFramed_cons hc]

/-- Cutting goes on from the unfinished piece. -/
theorem framed_append (sep : α) (a b : List α) :
    framed sep (a ++ b) =
      ((framed sep a).1 ++ (framed sep ((framed sep a).2 ++ b)).1,
        (framed sep ((framed sep a).2 ++ b)).2) := by
  induction a with
  | nil => rfl
  | cons c a ih =>
      rw [List.cons_append, framed, ih, framed]
      rcases framed sep a with ⟨pieces, rest⟩
      by_cases hc : c = sep
      · subst hc
        rw [pushFramed_sep, pushFramed_sep]
        rfl
      · cases pieces with
        | nil =>
            rw [pushFramed_nil hc]
            rfl
        | cons piece pieces =>
            rw [pushFramed_cons hc, List.cons_append, pushFramed_cons hc]
            rfl

/-- The pieces come back. -/
theorem framed_unframed {sep : α} {pieces : List (List α)} (h : ∀ piece ∈ pieces, sep ∉ piece)
    (s : List α) :
    framed sep (unframed sep pieces ++ s) = (pieces ++ (framed sep s).1, (framed sep s).2) := by
  induction pieces with
  | nil => rfl
  | cons piece pieces ih =>
      rw [List.forall_mem_cons] at h
      rw [unframed, List.flatMap_cons, List.append_assoc, List.append_assoc, List.singleton_append,
        framed_piece h.1]
      exact congrArg (fun r => (piece :: r.1, r.2)) (ih h.2)

/-- Nothing is lost. -/
theorem unframed_framed (sep : α) (s : List α) :
    unframed sep (framed sep s).1 ++ (framed sep s).2 = s := by
  induction s with
  | nil => rfl
  | cons c s ih =>
      rw [framed]
      rcases hs : framed sep s with ⟨pieces, rest⟩
      rw [hs] at ih
      conv_rhs => rw [← ih]
      by_cases hc : c = sep
      · subst hc
        rw [pushFramed_sep]
        rfl
      · cases pieces with
        | nil =>
            rw [pushFramed_nil hc]
            rfl
        | cons piece pieces =>
            rw [pushFramed_cons hc]
            rfl

/-- The unfinished piece holds no separator. -/
theorem not_mem_framed (sep : α) (s : List α) : sep ∉ (framed sep s).2 := by
  induction s with
  | nil => exact List.not_mem_nil
  | cons c s ih =>
      rw [framed]
      rcases hs : framed sep s with ⟨pieces, rest⟩
      rw [hs] at ih
      by_cases hc : c = sep
      · subst hc
        rw [pushFramed_sep]
        exact ih
      · cases pieces with
        | nil =>
            rw [pushFramed_nil hc]
            exact fun hmem => (List.mem_cons.mp hmem).elim (fun heq => hc heq.symm) ih
        | cons piece pieces =>
            rw [pushFramed_cons hc]
            exact ih

/-- No piece that has ended holds a separator. -/
theorem not_mem_of_mem_framed {sep : α} {s piece : List α} (h : piece ∈ (framed sep s).1) :
    sep ∉ piece := by
  induction s generalizing piece with
  | nil => exact absurd h List.not_mem_nil
  | cons c s ih =>
      rw [framed] at h
      rcases hs : framed sep s with ⟨pieces, rest⟩
      rw [hs] at h ih
      -- A separator begins a new piece; anything else goes into the first one.
      by_cases hc : c = sep
      · subst hc
        rw [pushFramed_sep] at h
        rcases List.mem_cons.mp h with rfl | h
        · exact List.not_mem_nil
        · exact ih h
      · cases pieces with
        | nil =>
            rw [pushFramed_nil hc] at h
            exact absurd h List.not_mem_nil
        | cons first pieces =>
            rw [pushFramed_cons hc] at h
            rcases List.mem_cons.mp h with rfl | h
            · exact fun hmem => (List.mem_cons.mp hmem).elim (fun heq => hc heq.symm)
                (ih List.mem_cons_self)
            · exact ih (List.mem_cons_of_mem first h)

/-- A piece that has ended is shorter than the stream. -/
theorem length_of_mem_framed {sep : α} {s piece : List α} (h : piece ∈ (framed sep s).1) :
    piece.length < s.length := by
  rcases List.append_of_mem h with ⟨before, after, hsplit⟩
  have hlen := congrArg List.length (unframed_framed sep s)
  rw [hsplit, unframed, List.flatMap_append, List.flatMap_cons] at hlen
  simp only [List.length_append, List.length_singleton] at hlen
  omega

/-- A piece has ended where it stands between two separators, or in front of the first. -/
theorem mem_framed_iff {sep : α} {piece : List α} (h : sep ∉ piece) (s : List α) :
    piece ∈ (framed sep s).1 ↔
      sep :: piece ++ [sep] <:+: s ∨ piece ++ [sep] <+: s := by
  constructor
  · intro hmem
    rcases List.append_of_mem hmem with ⟨before, after, hsplit⟩
    have hs := unframed_framed sep s
    rw [hsplit, unframed, List.flatMap_append, List.flatMap_cons] at hs
    -- The piece is the first of the text, or one stands before it.
    rcases List.eq_nil_or_concat before with rfl | ⟨init, last, rfl⟩
    · refine Or.inr ⟨after.flatMap (fun p => p ++ [sep]) ++ (framed sep s).2, ?_⟩
      conv_rhs => rw [← hs]
      simp only [List.flatMap_nil, List.nil_append, List.append_assoc]
    · refine Or.inl ⟨unframed sep init ++ last,
        after.flatMap (fun p => p ++ [sep]) ++ (framed sep s).2, ?_⟩
      conv_rhs => rw [← hs]
      rw [List.concat_eq_append, List.flatMap_append, List.flatMap_singleton, unframed]
      simp only [List.append_assoc, List.cons_append, List.nil_append]
  · rintro (⟨a, b, rfl⟩ | ⟨b, rfl⟩)
    · rw [List.append_assoc, framed_append, List.mem_append]
      refine Or.inr ?_
      rw [List.cons_append, List.cons_append, framed_piece (not_mem_framed sep a),
        List.append_assoc, List.singleton_append, framed_piece h]
      exact List.mem_cons_of_mem _ List.mem_cons_self
    · rw [List.append_assoc, List.singleton_append, framed_piece h]
      exact List.mem_cons_self

/-- A stream that ends with a piece it has nowhere else has that piece in no shorter
    beginning. -/
theorem eq_of_prefix_of_mem_framed {sep : α} {piece s p : List α} {pieces : List (List α)}
    (hs : framed sep s = (pieces ++ [piece], [])) (hpiece : piece ∉ pieces) (hp : p <+: s)
    (hmem : piece ∈ (framed sep p).1) : p = s := by
  rcases hp with ⟨rest, rfl⟩
  rw [framed_append, Prod.mk.injEq] at hs
  have hnone : (framed sep ((framed sep p).2 ++ rest)).1 = [] := by
    rcases List.eq_nil_or_concat (framed sep ((framed sep p).2 ++ rest)).1 with
      hnil | ⟨init, last, hlast⟩
    · exact hnil
    · rw [hlast, List.concat_eq_append, ← List.append_assoc] at hs
      have hinit := (List.append_inj' hs.1 rfl).1
      exact absurd (hinit ▸ List.mem_append_left _ hmem) hpiece
  have hback := unframed_framed sep ((framed sep p).2 ++ rest)
  rw [hnone, hs.2] at hback
  have hrest : rest = [] := (List.append_eq_nil_iff.mp hback.symm).2
  rw [hrest, List.append_nil]

omit [DecidableEq α] in
/-- All of a list passes a test, or there is a first that does not. -/
theorem all_or_first {p : α → Prop} (l : List α) :
    (∀ x ∈ l, p x) ∨ ∃ before x after, l = before ++ x :: after ∧ (∀ y ∈ before, p y) ∧ ¬p x := by
  induction l with
  | nil => exact Or.inl fun x hx => absurd hx List.not_mem_nil
  | cons x l ih =>
      by_cases hx : p x
      · rcases ih with hall | ⟨before, y, after, rfl, hbefore, hy⟩
        · exact Or.inl (List.forall_mem_cons.mpr ⟨hx, hall⟩)
        · exact Or.inr ⟨x :: before, y, after, rfl, List.forall_mem_cons.mpr ⟨hx, hbefore⟩, hy⟩
      · exact Or.inr ⟨[], x, l, rfl, fun _ h => absurd h List.not_mem_nil, hx⟩

/-- The unfinished piece is no longer than the stream. -/
theorem length_framed_le (sep : α) (s : List α) : (framed sep s).2.length ≤ s.length := by
  have hlen := congrArg List.length (unframed_framed sep s)
  rw [List.length_append] at hlen
  omega

end Smbpal.Lib
