import Smbpal.Samba.Include

/-!
# Where the Include Ends Up

`insert_include` against what it is for: one marked block with the include in it, right
behind the `[global]` header's line, in a text that is otherwise as it was.

It takes the marker anywhere in the text for a block that is there already, be it in a
comment or in a block that names another path, and then it changes nothing. Otherwise the
block goes where it should, unless the header is a last line without an end: the block is
given one and the header is not (`insert_glued`).

## Main definitions

* `IncludeBlockAt`: The block with its include, and where it is.
* `outsideBlocks`: The lines that are in no block.
* `IncludePlaced`: What an insertion is to do.

## Theorems

* `hasIncludeBlock_inserted`, `not_hasIncludeBlock_glued`: What becomes of a text
  without the marker.
* `hasIncludeBlock_insertInclude`: When what it returns has the block.
* `insertInclude_placed_iff`: When an insertion does what it is for.
-/

namespace Smbpal

/-- `f"include = {path}"`. -/
def includeOf (path : Str) : Str :=
  str "include = " ++ path

/-- The lines are those before the header, the header, one marked block with the include once
    in it, and the rest. -/
structure IncludeBlockAt (path : Str) (lines pre : List Str) (header first : Str)
    (inside : List Str) (last : Str) (post : List Str) : Prop where
  eq : lines = pre ++ header :: first :: (inside ++ last :: post)
  header : isGlobalHeader header = true
  first : lineText first = beginMarker
  last : lineText last = endMarker
  open_inside : ∀ line ∈ inside, lineText line ≠ endMarker
  only : ∀ line ∈ pre ++ inside ++ post, lineText line ≠ beginMarker
  once : (inside.countP fun line => decide (lineText line = includeOf path)) = 1

/-- The text has the include in a marked block right behind a header's line, once. -/
def HasIncludeBlock (path text : Str) : Prop :=
  ∃ pre header first inside last post,
    IncludeBlockAt path (splitlines text) pre header first inside last post

/-- The lines that are in no block, read from inside one or not. -/
def outsideBlocks : Bool → List Str → List Str
  | _, [] => []
  | false, line :: lines =>
      if lineText line = beginMarker then outsideBlocks true lines
      else line :: outsideBlocks false lines
  | true, line :: lines => outsideBlocks (decide (lineText line ≠ endMarker)) lines

/-- Whatever an insertion returns has the include where it belongs, has every line that was
    in no block, in order, and is what inserting again returns. -/
def IncludePlaced (path text : Str) : Prop :=
  ∀ result, insertInclude text (includeOf path) = .ok result →
    HasIncludeBlock path result ∧
      (outsideBlocks false (splitlines text)).Sublist (splitlines result) ∧
        insertInclude result (includeOf path) = .ok result

/-- Nothing in a path ends a line. -/
def OneLine (path : Str) : Prop :=
  ∀ c ∈ path, isLineBoundary c = false

section Lines

theorem ending_boundary {ending : Str} (h : ending = str "\n" ∨ ending = str "\r\n") :
    ∀ c ∈ ending, isLineBoundary c = true := by
  rcases h with rfl | rfl
  · decide
  · decide

theorem outsideBlocks_sublist (inside : Bool) (lines : List Str) :
    (outsideBlocks inside lines).Sublist lines := by
  induction lines generalizing inside with
  | nil => cases inside <;> exact List.Sublist.refl []
  | cons line lines ih =>
      cases inside with
      | true => exact (ih _).cons line
      | false =>
          rw [outsideBlocks]
          split_ifs
          · exact (ih true).cons line
          · exact (ih false).cons_cons line

/-- Where the marker is in no line's text, it is in none at all. -/
theorem lineText_ne_marker {text line : Str} (hinc : hasInclude text = false)
    (h : line ∈ splitlines text) : lineText line ≠ beginMarker := by
  intro hmarker
  have hstart : lineText line <+: line := List.rdropWhile_prefix isLineBoundary line
  have hinside : line <:+: (splitlines text).flatten := List.infix_of_mem_flatten h
  rw [show (splitlines text).flatten = text from lineEnds.flatten_cut text] at hinside
  rw [hmarker] at hstart
  exact of_decide_eq_false hinc (hstart.isInfix.trans hinside)

/-- A text the block is in names its path on one line. -/
theorem HasIncludeBlock.oneLine {path text : Str} (h : HasIncludeBlock path text) :
    OneLine path := by
  rcases h with ⟨pre, header, first, inside, last, post, h⟩
  have hpos : 0 < inside.countP fun line => decide (lineText line = includeOf path) := by
    rw [h.once]
    exact Nat.one_pos
  rcases List.countP_pos_iff.mp hpos with ⟨line, hline, htext⟩
  have hmem : line ∈ splitlines text := by
    rw [h.eq]
    simp [hline]
  intro c hc
  refine lineText_oneLine hmem c ?_
  rw [of_decide_eq_true htext]
  exact List.mem_append_right _ hc

end Lines

section Placing

variable {path text line : Str} {pre post : List Str}

/-- The text with the block in it has the marker, so inserting again changes nothing. -/
theorem insertInclude_again (includeLine ending before after : Str) :
    insertInclude (before ++ ((includeBlock includeLine ending).flatten ++ after)) includeLine =
      .ok (before ++ ((includeBlock includeLine ending).flatten ++ after)) := by
  have hinc : hasInclude (before ++ ((includeBlock includeLine ending).flatten ++ after)) =
      true := by
    refine decide_eq_true ⟨before, ending ++ (includeLine ++ ending ++ (endMarker ++ ending) ++
      after), ?_⟩
    simp only [includeBlock, List.flatten_cons, List.flatten_nil, List.append_nil,
      List.append_assoc]
  unfold insertInclude
  rw [if_pos hinc]

theorem includeOf_oneLine (h : OneLine path) :
    ∀ c ∈ includeOf path, isLineBoundary c = false := by
  intro c hc
  rcases List.mem_append.mp hc with hc | hc
  · have hall : ∀ c ∈ str "include = ", isLineBoundary c = false := by decide
    exact hall c hc
  · exact h c hc

theorem includeOf_ne (path : Str) : includeOf path ≠ beginMarker ∧ includeOf path ≠ endMarker :=
  ⟨fun h => absurd (List.cons.inj h).1 (by decide), fun h => absurd (List.cons.inj h).1 (by decide)⟩

/-- Behind a header's line that has an end the block is where it belongs. -/
theorem hasIncludeBlock_inserted (hpath : OneLine path) (hinc : hasInclude text = false)
    (hlines : splitlines text = pre ++ line :: post) (hline : isGlobalHeader line = true)
    (hend : lineTerminated line = true) :
    HasIncludeBlock path (pre.flatten ++ (line ++
      ((includeBlock (includeOf path) (lineEnding line)).flatten ++ post.flatten))) := by
  have hbegin : ∀ c ∈ beginMarker, isLineBoundary c = false := by decide
  have hfinish : ∀ c ∈ endMarker, isLineBoundary c = false := by decide
  have hending := ending_boundary (lineEnding_eq line)
  have hinclude := lineText_append (includeOf_oneLine hpath) hending
  -- A text without the markers has no line that is one.
  have hold : ∀ other ∈ pre ++ line :: post, lineText other ≠ beginMarker := by
    rw [← hlines]
    exact fun other => lineText_ne_marker hinc
  refine ⟨pre, line, beginMarker ++ lineEnding line, [includeOf path ++ lineEnding line],
    endMarker ++ lineEnding line, post, ?_, hline, lineText_append hbegin hending,
    lineText_append hfinish hending, fun other hother => ?_, fun other hother => ?_, ?_⟩
  · rw [splitlines_inserted (includeOf_oneLine hpath) hlines hend]
    simp only [includeBlock, List.append_assoc, List.cons_append, List.nil_append]
  · rw [List.mem_singleton.mp hother, hinclude]
    exact (includeOf_ne path).2
  · rw [List.mem_append, List.mem_append] at hother
    rcases hother with (hother | hother) | hother
    · exact hold other (List.mem_append_left _ hother)
    · rw [List.mem_singleton.mp hother, hinclude]
      exact (includeOf_ne path).1
    · exact hold other (List.mem_append_right pre (List.mem_cons_of_mem line hother))
  · rw [List.countP_singleton, hinclude, if_pos (decide_eq_true rfl)]

/-- Glued to a header that has no end, the block's first line is no marker, and there is
    none elsewhere. -/
theorem not_hasIncludeBlock_glued (hpath : OneLine path) (hinc : hasInclude text = false)
    (hlines : splitlines text = pre ++ line :: post) (hline : isGlobalHeader line = true)
    (hend : lineTerminated line = false) :
    ¬HasIncludeBlock path (pre.flatten ++ (line ++
      ((includeBlock (includeOf path) (lineEnding line)).flatten ++ post.flatten))) := by
  obtain rfl := eq_nil_of_not_terminated hlines hline hend
  have hending := ending_boundary (lineEnding_eq line)
  have hbody := not_boundary_of_not_terminated hline hend
  have hbegin : ∀ c ∈ beginMarker, isLineBoundary c = false := by decide
  have hfinish : ∀ c ∈ endMarker, isLineBoundary c = false := by decide
  have hne : line ≠ [] :=
    lineEnds.ne_nil_of_mem_cut (hlines ▸ List.mem_append_right pre List.mem_cons_self)
  -- The glued text has no line that is the marker alone: every line of it is looked at.
  rintro ⟨pre', header, first, inside, last, post', h⟩
  have hfirst : first ∈ splitlines (pre.flatten ++ (line ++
      ((includeBlock (includeOf path) (lineEnding line)).flatten ++ [].flatten))) := by
    rw [h.eq]
    simp
  have hrest : splitlines (includeOf path ++ lineEnding line ++ (endMarker ++ lineEnding line)) =
      [includeOf path ++ lineEnding line, endMarker ++ lineEnding line] := by
    have hlast := splitlines_line hfinish (lineEnding_eq line) []
    rw [List.append_nil] at hlast
    rw [splitlines_line (includeOf_oneLine hpath) (lineEnding_eq line), hlast]
    rfl
  rw [splitlines_glued hlines hline hend, hrest, List.mem_append, List.mem_append,
    List.mem_singleton, List.mem_cons, List.mem_singleton] at hfirst
  have hmarker := h.first
  rcases hfirst with (hfirst | rfl) | rfl | rfl
  · exact lineText_ne_marker hinc (hlines ▸ List.mem_append_left _ hfirst) hmarker
  · rw [lineText_append (fun c hc => (List.mem_append.mp hc).elim (hbody c) (hbegin c)) hending]
      at hmarker
    exact hne (List.append_left_eq_self.mp hmarker)
  · rw [lineText_append (includeOf_oneLine hpath) hending] at hmarker
    exact (includeOf_ne path).1 hmarker
  · rw [lineText_append hfinish hending] at hmarker
    exact absurd hmarker (by decide)

/-- Where there is a header and no marker, the block goes behind the first header. -/
theorem insertInclude_of_find {includeLine : Str} (hinc : hasInclude text = false)
    (hfind : (splitlines text).find? isGlobalHeader = some line) :
    ∃ pre post, splitlines text = pre ++ line :: post ∧ isGlobalHeader line = true ∧
      insertInclude text includeLine = .ok (pre.flatten ++ (line ++
        ((includeBlock includeLine (lineEnding line)).flatten ++ post.flatten))) := by
  cases hresult : insertInclude text includeLine with
  | ok result =>
      rcases insertInclude_eq_ok hresult with ⟨htrue, -⟩ |
        ⟨-, pre, line', post, hlines, hfind', hline, rfl⟩
      · exact absurd (hinc.symm.trans htrue) Bool.false_ne_true
      · obtain rfl : line' = line := Option.some.inj (hfind'.symm.trans hfind)
        exact ⟨pre, post, hlines, hline, rfl⟩
  | error e =>
      have hany : (splitlines text).any isGlobalHeader = true := List.any_eq_true.mpr
        ⟨line, List.mem_of_find?_eq_some hfind, List.find?_some hfind⟩
      rw [← insertAfterHeader_isSome includeLine] at hany
      rcases Option.isSome_iff_exists.mp hany with ⟨lines, hafter⟩
      unfold insertInclude at hresult
      rw [hinc, if_neg Bool.false_ne_true, hafter] at hresult
      cases hresult

/-- What an insertion returns has the block exactly when the text had it, or when the marker
    is nowhere, the first header's line has an end and the path is on one line. -/
theorem hasIncludeBlock_insertInclude {result : Str}
    (h : insertInclude text (includeOf path) = .ok result) : HasIncludeBlock path result ↔
      (hasInclude text = true ∧ HasIncludeBlock path text) ∨
        (hasInclude text = false ∧
          ∀ header, (splitlines text).find? isGlobalHeader = some header →
            lineTerminated header = true ∧ OneLine path) := by
  rcases insertInclude_eq_ok h with ⟨hinc, rfl⟩ | ⟨hinc, pre, line, post, hlines, hfind, hline, rfl⟩
  · constructor
    · exact fun hblock => Or.inl ⟨hinc, hblock⟩
    · exact fun h => h.elim (fun h => h.2) fun h => absurd (h.1.symm.trans hinc) Bool.false_ne_true
  · constructor
    · -- The first header decides: behind one without an end the marker is glued to it.
      intro hblock
      refine Or.inr ⟨hinc, fun header hheader => ?_⟩
      obtain rfl : header = line := Option.some.inj (hheader.symm.trans hfind)
      refine ⟨?_, hblock.oneLine⟩
      by_contra hend
      exact not_hasIncludeBlock_glued hblock.oneLine hinc hlines hline (eq_false_of_ne_true hend)
        hblock
    · intro h
      have hheader := h.resolve_left fun h => Bool.false_ne_true (hinc.symm.trans h.1)
      rcases hheader.2 line hfind with ⟨hend, hpath⟩
      exact hasIncludeBlock_inserted hpath hinc hlines hline hend

/-- An insertion does what it is for exactly when the marker is there and the block with it,
    or the marker is nowhere, the first header's line has an end and the path is on one
    line. -/
theorem insertInclude_placed_iff (path text : Str) : IncludePlaced path text ↔
    (hasInclude text = true ∧ HasIncludeBlock path text) ∨
      (hasInclude text = false ∧ ∀ header, (splitlines text).find? isGlobalHeader = some header →
        lineTerminated header = true ∧ OneLine path) := by
  constructor
  · intro h
    cases hresult : insertInclude text (includeOf path) with
    | ok result => exact (hasIncludeBlock_insertInclude hresult).mp (h result hresult).1
    | error e =>
        -- there is neither the marker nor a header
        have hinc : hasInclude text = false := by
          by_contra hinc
          rw [insertInclude, if_pos (eq_true_of_ne_false hinc)] at hresult
          cases hresult
        refine Or.inr ⟨hinc, fun header hfind => ?_⟩
        rcases @insertInclude_of_find text header (includeOf path) hinc hfind with
          ⟨_, _, -, -, hok⟩
        rw [hresult] at hok
        cases hok
  · intro h result hresult
    have hblock := (hasIncludeBlock_insertInclude hresult).mpr h
    rcases insertInclude_eq_ok hresult with ⟨-, rfl⟩ |
      ⟨hinc, pre, line, post, hlines, hfind, hline, rfl⟩
    · exact ⟨hblock, outsideBlocks_sublist false _, hresult⟩
    · have hheader := h.resolve_left fun h => Bool.false_ne_true (hinc.symm.trans h.1)
      rcases hheader.2 line hfind with ⟨hend, hpath⟩
      refine ⟨hblock, ?_, ?_⟩
      · refine (outsideBlocks_sublist false _).trans ?_
        rw [splitlines_inserted (includeOf_oneLine hpath) hlines hend, hlines, List.append_cons]
        exact List.Sublist.append_left (List.sublist_append_right _ post) _
      · rw [← List.append_assoc]
        exact insertInclude_again _ _ _ _

/-- A header without a line feed: the block is glued to it, and no section has the include. -/
theorem insert_glued :
    insertInclude (str "[global]") (includeOf (str "/etc/samba/smbpal.conf")) =
      .ok (str ("[global]# >>> smbpal >>>\ninclude = /etc/samba/smbpal.conf\n" ++
        "# <<< smbpal <<<\n")) ∧
    ¬IncludePlaced (str "/etc/samba/smbpal.conf") (str "[global]") := by
  have hresult : insertInclude (str "[global]") (includeOf (str "/etc/samba/smbpal.conf")) =
      .ok (str ("[global]# >>> smbpal >>>\ninclude = /etc/samba/smbpal.conf\n" ++
        "# <<< smbpal <<<\n")) := by
    rfl
  refine ⟨hresult, fun h => ?_⟩
  rcases (h _ hresult).1 with ⟨pre, header, first, inside, last, post, hblock⟩
  have hnone : ((splitlines (str ("[global]# >>> smbpal >>>\ninclude = /etc/samba/smbpal.conf\n" ++
      "# <<< smbpal <<<\n"))).all fun line => !isGlobalHeader line) = true := by
    decide +kernel
  rw [hblock.eq] at hnone
  have hheader := List.all_eq_true.mp hnone header (by simp)
  rw [hblock.header] at hheader
  exact Bool.false_ne_true hheader

end Placing

end Smbpal
