import Smbpal.Errors
import Smbpal.Python.Files

/-!
# The Include Block

`samba/include.py`: the one line SMBPal adds to somebody else's `smb.conf`, as a
marked block at the top of `[global]`.

Both directions are pure string transforms, and as such they undo each other for
any line ends and any odd separators: what they need is that the header's line
ends at all (`removeInclude_insertInclude`). On a last line without an end the
block is glued to the header, the line that would start it is not found again, and
nothing of it comes off (`removeInclude_glued`).

## Main definitions

* `isGlobalHeader`: `_GLOBAL_HEADER`.
* `insertInclude`, `removeInclude`: The two directions.
* `sweep`: The loop of the removal, line by line.
* `PathLine`: The text of a path that is on one line.

## Theorems

* `insertAfterHeader_eq_some`: Where the block goes.
* `sweep_foreign`: Lines that are neither a marker nor ours stay.
* `splitlines_inserted`, `splitlines_glued`: The lines of the text with the block in it.
* `removeInclude_insertInclude`, `removeInclude_glued`: What a removal makes of an
  insertion.
-/

namespace Smbpal

/-- `BEGIN_MARKER`. -/
def beginMarker : Str := str "# >>> smbpal >>>"

/-- `END_MARKER`. -/
def endMarker : Str := str "# <<< smbpal <<<"

/-- `[ \t]`. -/
def isBlank (c : PyChar) : Bool :=
  decide (c = chr ' ') || decide (c = chr '\t')

/-- `_GLOBAL_HEADER`, on a line without its line feed. -/
def isGlobalHeader (line : Str) : Bool :=
  decide ((stripWhile isBlank (rstripNewlines line)).map asciiLower = str "[global]")

/-- `has_include`. -/
def hasInclude (text : Str) : Bool :=
  contains beginMarker text

/-- `_line_ending`. -/
def lineEnding (line : Str) : Str :=
  if endsWith line "\r\n" then str "\r\n" else str "\n"

/-- The three lines of the block. -/
def includeBlock (includeLine ending : Str) : List Str :=
  [beginMarker ++ ending, includeLine ++ ending, endMarker ++ ending]

/-- The loop of `insert_include`: the lines with the block behind the header. -/
def insertAfterHeader (includeLine : Str) : List Str → Option (List Str)
  | [] => none
  | line :: lines =>
      if isGlobalHeader line then
        some (line :: (includeBlock includeLine (lineEnding line) ++ lines))
      else
        (insertAfterHeader includeLine lines).map (line :: ·)

/-- `insert_include`. -/
def insertInclude (text includeLine : Str) : Except Exc Str :=
  if hasInclude text then
    .ok text
  else
    match insertAfterHeader includeLine (splitlines text) with
    | some lines => .ok lines.flatten
    | none =>
        .error <| .detailed .smbConf (str "smb.conf has no [global] section")
          (str ("SMBPal will not append the include to the end of the file: it " ++
            "would become a parameter of whichever section happens to be last."))

/-- The loop of `remove_include`, with whether it is inside a block: the lines it
    keeps, and whether it ends inside one. -/
def sweep (includeLine : Str) : Bool → List Str → List Str × Bool
  | inside, [] => ([], inside)
  | inside, line :: lines =>
      if !inside && decide (strip line = beginMarker) then
        sweep includeLine true lines
      else if inside then
        sweep includeLine (decide (strip line ≠ endMarker)) lines
      else if strip line = includeLine then
        sweep includeLine false lines
      else
        (line :: (sweep includeLine false lines).1, (sweep includeLine false lines).2)

/-- `remove_include`. -/
def removeInclude (text includeLine : Str) : Except Exc Str :=
  let swept := sweep includeLine false (splitlines text)
  if swept.2 then
    .error <| .detailed .smbConf (str "smb.conf has an unterminated SMBPal block")
      (beginMarker ++ str " with no matching " ++ endMarker ++
        str ". Refusing to guess where it ends; fix it by hand.")
  else
    .ok swept.1.flatten

/-- A path whose text is on one line and has a UTF-8. -/
structure PathLine where
  text : Str
  scalar : (scalars text).isSome = true
  oneLine : ∀ c ∈ text, isLineBoundary c = false

/-- The line that names the file SMBPal owns. -/
def includeLineOf (path : PathLine) : Str :=
  str "include = " ++ path.text

/-- Neither a line that opens a block nor a bare include. -/
def IsForeign (includeLine line : Str) : Prop :=
  strip line ≠ beginMarker ∧ strip line ≠ includeLine

instance (includeLine line : Str) : Decidable (IsForeign includeLine line) :=
  inferInstanceAs (Decidable (_ ∧ _))

/-- Lines that are neither a marker nor ours stay. -/
theorem sweep_foreign {includeLine : Str} {lines : List Str}
    (h : ∀ line ∈ lines, IsForeign includeLine line) (rest : List Str) :
    sweep includeLine false (lines ++ rest) =
      (lines ++ (sweep includeLine false rest).1, (sweep includeLine false rest).2) := by
  induction lines with
  | nil => rfl
  | cons line lines ih =>
      have hline := h line List.mem_cons_self
      rw [List.cons_append, sweep, decide_eq_false hline.1]
      simp only [Bool.not_false, Bool.and_false, Bool.false_eq_true, if_false]
      rw [if_neg hline.2, ih fun l hl => h l (List.mem_cons_of_mem line hl)]
      rfl

/-- The block goes behind the first header. -/
theorem insertAfterHeader_eq_some {includeLine : Str} {lines lines' : List Str}
    (h : insertAfterHeader includeLine lines = some lines') :
    ∃ pre line post, lines = pre ++ line :: post ∧ lines.find? isGlobalHeader = some line ∧
      isGlobalHeader line = true ∧
      lines' = pre ++ line :: (includeBlock includeLine (lineEnding line) ++ post) := by
  induction lines generalizing lines' with
  | nil => exact nomatch h
  | cons first lines ih =>
      unfold insertAfterHeader at h
      by_cases hfirst : isGlobalHeader first = true
      · rw [if_pos hfirst, Option.some.injEq] at h
        exact ⟨[], first, lines, rfl, List.find?_cons_of_pos hfirst, hfirst, h.symm⟩
      · rw [if_neg hfirst, Option.map_eq_some_iff] at h
        rcases h with ⟨rest, hrest, rfl⟩
        rcases ih hrest with ⟨pre, line, post, hlines, hfind, hline, rfl⟩
        refine ⟨first :: pre, line, post, by rw [hlines]; rfl, ?_, hline, rfl⟩
        rw [List.find?_cons_of_neg hfirst]
        exact hfind

/-- There is a place for the block when there is a header. -/
theorem insertAfterHeader_isSome (includeLine : Str) (lines : List Str) :
    (insertAfterHeader includeLine lines).isSome = lines.any isGlobalHeader := by
  induction lines with
  | nil => rfl
  | cons line lines ih =>
      unfold insertAfterHeader
      by_cases hline : isGlobalHeader line = true
      · rw [if_pos hline, List.any_cons, hline]
        rfl
      · rw [if_neg hline, Option.isSome_map, ih, List.any_cons, Bool.not_eq_true _ |>.mp hline]
        rfl

theorem strip_cons {c : PyChar} (hc : isSpace c = false) {blanks : Str}
    (hblanks : ∀ d ∈ blanks, isSpace d = true) (s : Str) :
    ∃ t, strip (blanks ++ c :: s) = c :: t := by
  have hdrop : (blanks ++ c :: s).dropWhile isSpace = c :: s := by
    rw [List.dropWhile_append, List.dropWhile_eq_nil_iff.mpr hblanks]
    simp [hc]
  unfold strip stripWhile
  rw [hdrop]
  rcases List.rdropWhile_prefix isSpace (c :: s) with ⟨rest, hrest⟩
  rcases hkept : (c :: s).rdropWhile isSpace with _ | ⟨d, t⟩
  · rw [List.rdropWhile_eq_nil_iff] at hkept
    exact absurd (hkept c List.mem_cons_self) (by rw [hc]; exact Bool.false_ne_true)
  · rw [hkept, List.cons_append, List.cons.injEq] at hrest
    exact ⟨t, by rw [hrest.1]⟩

theorem lineEnding_eq (line : Str) : lineEnding line = str "\n" ∨ lineEnding line = str "\r\n" := by
  unfold lineEnding
  by_cases h : endsWith line "\r\n" = true
  · exact Or.inr (if_pos h)
  · exact Or.inl (if_neg h)

theorem includeLineOf_oneLine (path : PathLine) :
    ∀ c ∈ includeLineOf path, isLineBoundary c = false := by
  intro c hc
  rcases List.mem_append.mp hc with hc | hc
  · have hall : ∀ c ∈ str "include = ", isLineBoundary c = false := by decide
    exact hall c hc
  · exact path.oneLine c hc

/-- The lines of the block, whatever comes after it. -/
theorem splitlines_block {includeLine ending : Str}
    (hinclude : ∀ c ∈ includeLine, isLineBoundary c = false)
    (hending : ending = str "\n" ∨ ending = str "\r\n") (u : Str) :
    splitlines ((includeBlock includeLine ending).flatten ++ u) =
      includeBlock includeLine ending ++ splitlines u := by
  have hbegin : ∀ c ∈ beginMarker, isLineBoundary c = false := by decide
  have hend : ∀ c ∈ endMarker, isLineBoundary c = false := by decide
  simp only [includeBlock, List.flatten_cons, List.flatten_nil, List.append_nil, List.append_assoc]
  rw [← List.append_assoc, splitlines_line hbegin hending, ← List.append_assoc includeLine,
    splitlines_line hinclude hending, ← List.append_assoc endMarker, splitlines_line hend hending]
  rfl

/-- Inside the block nothing is kept, and its last line ends it. -/
theorem sweep_block (path : PathLine) {ending : Str}
    (hending : ending = str "\n" ∨ ending = str "\r\n") (lines : List Str) :
    sweep (includeLineOf path) false (includeBlock (includeLineOf path) ending ++ lines) =
      sweep (includeLineOf path) false lines := by
  -- The two markers are read as themselves behind either line end.
  have hbegin : strip (beginMarker ++ ending) = beginMarker := by
    rcases hending with rfl | rfl
    · decide +kernel
    · decide +kernel
  have hend : strip (endMarker ++ ending) = endMarker := by
    rcases hending with rfl | rfl
    · decide +kernel
    · decide +kernel
  have hline : strip (includeLineOf path ++ ending) ≠ endMarker := by
    rcases strip_cons (c := chr 'i') (by decide) (List.forall_mem_nil _)
      (str "nclude = " ++ path.text ++ ending) with ⟨t, ht⟩
    change strip (includeLineOf path ++ ending) = chr 'i' :: t at ht
    rw [ht]
    intro h
    exact absurd (List.cons.inj h).1 (by decide)
  simp only [includeBlock, List.cons_append, List.nil_append, sweep, hbegin, hend,
    decide_eq_true hline, decide_true, Bool.not_false, Bool.not_true, Bool.and_self,
    Bool.false_and, Bool.false_eq_true, if_true, if_false, ne_eq, not_true_eq_false, decide_false]

/-- Whether a line has an end of its own. -/
def lineTerminated (line : Str) : Bool :=
  endsWith line "\n" || endsWith line "\r"

theorem header_char {c : PyChar} (h : asciiLower c ∈ str "[global]") :
    isSpace c = false ∧ isLineBoundary c = false ∧ c ≠ chr '#' ∧ c ≠ chr 'i' := by
  by_cases hupper : 65 ≤ ord c ∧ ord c ≤ 90
  · have hne : ∀ d, ord d < 65 ∨ 90 < ord d → c ≠ d := by
      rintro d hd rfl
      omega
    refine ⟨?_, ?_, hne _ (by decide), hne _ (by decide)⟩
    · exact decide_eq_false (by omega)
    · exact decide_eq_false (by omega)
  · rw [asciiLower_of_not_upper hupper] at h
    have hall : ∀ c ∈ str "[global]",
        isSpace c = false ∧ isLineBoundary c = false ∧ c ≠ chr '#' ∧ c ≠ chr 'i' := by decide
    exact hall c h

/-- A header is blanks, a bracket, more of one line, and what ends it. -/
theorem header_parts {line : Str} (h : isGlobalHeader line = true) :
    ∃ blanks c rest ends, line = blanks ++ c :: rest ++ ends ∧
      (∀ d ∈ blanks, isSpace d = true) ∧ isSpace c = false ∧ c ≠ chr '#' ∧ c ≠ chr 'i' ∧
      (∀ d ∈ blanks ++ c :: rest, isLineBoundary d = false) ∧
      ∀ d ∈ ends, d = chr '\r' ∨ d = chr '\n' := by
  have hcore := of_decide_eq_true h
  have hblank : ∀ d, isBlank d = true → isSpace d = true ∧ isLineBoundary d = false := by
    intro d hd
    rcases Bool.or_eq_true _ _ |>.mp hd with hd | hd
    · rw [of_decide_eq_true hd]
      exact ⟨by decide, by decide⟩
    · rw [of_decide_eq_true hd]
      exact ⟨by decide, by decide⟩
  -- A header is `[global]` in any case between blanks, with its line end.
  rcases stripWhile_parts isBlank (rstripNewlines line) with ⟨a, b, hline, ha, hb⟩
  have hchar : ∀ d ∈ stripWhile isBlank (rstripNewlines line), asciiLower d ∈ str "[global]" := by
    intro d hd
    rw [← hcore]
    exact List.mem_map_of_mem hd
  rcases hkept : stripWhile isBlank (rstripNewlines line) with _ | ⟨c, rest⟩
  · rw [hkept] at hcore
    exact absurd hcore (by decide)
  rw [hkept] at hline hchar
  rcases rdropWhile_parts (fun d => decide (d = chr '\r') || decide (d = chr '\n')) line with
    ⟨ends, hsplit, hends⟩
  change line = rstripNewlines line ++ ends at hsplit
  have hfirst := header_char (hchar c List.mem_cons_self)
  refine ⟨a, c, rest ++ b, ends, ?_, fun d hd => (hblank d (ha d hd)).1, hfirst.1, hfirst.2.2.1,
    hfirst.2.2.2, ?_, fun d hd => ?_⟩
  · rw [hsplit, hline, List.append_assoc a, List.cons_append]
  · intro d hd
    rw [← List.cons_append, List.mem_append, List.mem_append] at hd
    rcases hd with hd | hd | hd
    · exact (hblank d (ha d hd)).2
    · exact (header_char (hchar d hd)).2.1
    · exact (hblank d (hb d hd)).2
  · have := hends d hd
    rw [Bool.or_eq_true, decide_eq_true_eq, decide_eq_true_eq] at this
    exact this

/-- A header's line that is not the last one has an end, and one that has an end
    is closed in front of the block. -/
theorem closed_of_lineTerminated {line : Str} (h : lineTerminated line = true) (u : Str) :
    lineEnds.Closed line (beginMarker ++ u) := by
  intro init c hline
  have hlast : c = chr '\n' ∨ c = chr '\r' := by
    rcases Bool.or_eq_true _ _ |>.mp h with hend | hend
    · rcases List.isSuffixOf_iff_suffix.mp hend with ⟨s, hs⟩
      exact Or.inl (List.singleton_inj.mp (List.append_inj' (hline.symm.trans hs.symm) rfl).2)
    · rcases List.isSuffixOf_iff_suffix.mp hend with ⟨s, hs⟩
      exact Or.inr (List.singleton_inj.mp (List.append_inj' (hline.symm.trans hs.symm) rfl).2)
  rcases hlast with rfl | rfl
  · exact lineEnds.closes_lf _
  · rfl

theorem not_boundary_of_not_terminated {line : Str} (h : isGlobalHeader line = true)
    (hend : lineTerminated line = false) : ∀ c ∈ line, isLineBoundary c = false := by
  rcases header_parts h with ⟨blanks, c, rest, ends, hline, -, -, -, -, hbody, hends⟩
  rcases List.eq_nil_or_concat ends with rfl | ⟨init, d, rfl⟩
  · rw [hline, List.append_nil]
    exact hbody
  · -- The last character would be an end.
    have hsuffix : [d] <:+ line := ⟨blanks ++ c :: rest ++ init, by rw [hline]; simp⟩
    unfold lineTerminated at hend
    rw [Bool.or_eq_false_iff] at hend
    rcases hends d (by simp) with rfl | rfl
    · exact absurd (List.isSuffixOf_iff_suffix.mpr hsuffix) (by
        change ¬endsWith line "\r" = true
        rw [hend.2]
        exact Bool.false_ne_true)
    · exact absurd (List.isSuffixOf_iff_suffix.mpr hsuffix) (by
        change ¬endsWith line "\n" = true
        rw [hend.1]
        exact Bool.false_ne_true)

theorem insertInclude_eq_ok {text includeLine inserted : Str}
    (h : insertInclude text includeLine = .ok inserted) :
    hasInclude text = true ∧ inserted = text ∨
    hasInclude text = false ∧ ∃ pre line post, splitlines text = pre ++ line :: post ∧
      (splitlines text).find? isGlobalHeader = some line ∧ isGlobalHeader line = true ∧
      inserted = pre.flatten ++
        (line ++ ((includeBlock includeLine (lineEnding line)).flatten ++ post.flatten)) := by
  unfold insertInclude at h
  by_cases hinc : hasInclude text = true
  · rw [if_pos hinc, Except.ok.injEq] at h
    exact Or.inl ⟨hinc, h.symm⟩
  · rw [if_neg hinc] at h
    -- The marker is not there, so a header was found.
    refine Or.inr ⟨Bool.not_eq_true _ |>.mp hinc, ?_⟩
    rcases hafter : insertAfterHeader includeLine (splitlines text) with _ | lines
    · rw [hafter] at h
      exact nomatch h
    · rw [hafter, Except.ok.injEq] at h
      rcases insertAfterHeader_eq_some hafter with ⟨pre, line, post, hlines, hfind, hline, hnew⟩
      refine ⟨pre, line, post, hlines, hfind, hline, ?_⟩
      rw [← h, hnew]
      simp only [List.flatten_append, List.flatten_cons]

/-- A block that was put in makes the text another one. -/
theorem insertInclude_ne {text includeLine inserted : Str} (hinc : hasInclude text = false)
    (h : insertInclude text includeLine = .ok inserted) : inserted ≠ text := by
  rcases insertInclude_eq_ok h with ⟨htrue, -⟩ | ⟨-, pre, line, post, hlines, -, -, rfl⟩
  · exact absurd (hinc.symm.trans htrue) Bool.false_ne_true
  intro heq
  have hflat := lineEnds.flatten_cut text
  change (splitlines text).flatten = text at hflat
  have hlen := congrArg List.length (heq.trans hflat.symm)
  have hmarker : beginMarker.length = 16 := by decide
  rw [hlines] at hlen
  simp only [includeBlock, List.flatten_append, List.flatten_cons, List.length_append,
    hmarker] at hlen
  omega

/-- A text that holds nothing of ours comes out of a removal as it is. -/
theorem removeInclude_foreign {text includeLine : Str}
    (h : ∀ line ∈ splitlines text, IsForeign includeLine line) :
    removeInclude text includeLine = .ok text := by
  have hswept := sweep_foreign h []
  rw [List.append_nil] at hswept
  unfold removeInclude
  rw [hswept]
  change Except.ok (splitlines text ++ []).flatten = _
  rw [List.append_nil]
  exact congrArg Except.ok (lineEnds.flatten_cut text)

/-- The lines of the text with the block in it, where the header's line has an end. -/
theorem splitlines_inserted {text includeLine line : Str} {pre post : List Str}
    (hinclude : ∀ c ∈ includeLine, isLineBoundary c = false)
    (hlines : splitlines text = pre ++ line :: post) (hend : lineTerminated line = true) :
    splitlines (pre.flatten ++ (line ++
      ((includeBlock includeLine (lineEnding line)).flatten ++ post.flatten))) =
      (pre ++ [line]) ++ (includeBlock includeLine (lineEnding line) ++ post) := by
  -- The header's own line is one of the old text's, and closed in front of the block.
  have hown := lineEnds.cut_eq_cons (lineEnds.cut_suffix hlines)
  have hclosed : lineEnds.Closed line
      ((includeBlock includeLine (lineEnding line)).flatten ++ post.flatten) :=
    closed_of_lineTerminated hend _
  have hpost : splitlines post.flatten = post := hown.2.2.2.1
  have hreplace := lineEnds.cut_replace hlines
    ((includeBlock includeLine (lineEnding line)).flatten ++ post.flatten)
  have hblock := splitlines_block hinclude (lineEnding_eq line) post.flatten
  rw [hpost] at hblock
  rw [lineEnds.cut_append hclosed, hown.2.2.1] at hreplace
  unfold splitlines at hblock ⊢
  rw [hreplace, hblock, List.append_assoc]

/-- Nothing comes after a header's line that does not end. -/
theorem eq_nil_of_not_terminated {text line : Str} {pre post : List Str}
    (hlines : splitlines text = pre ++ line :: post) (hline : isGlobalHeader line = true)
    (hend : lineTerminated line = false) : post = [] := by
  have hbody := not_boundary_of_not_terminated hline hend
  have hown := lineEnds.cut_eq_cons (lineEnds.cut_suffix hlines)
  by_contra hne
  rcases List.eq_nil_or_concat line with hnil | ⟨init, c, hconcat⟩
  · exact hown.1 hnil
  · rw [List.concat_eq_append] at hconcat
    have hclosed := hown.2.2.2.2 hne init c hconcat
    have hc : lineEnds.isEnd c = false := hbody c (by rw [hconcat]; simp)
    unfold Lib.Ends.closes at hclosed
    rw [hc, Bool.false_and] at hclosed
    exact Bool.false_ne_true hclosed

/-- The lines of the text where it has none: the block's first is glued to the header. -/
theorem splitlines_glued {text line : Str} {pre post : List Str}
    (hlines : splitlines text = pre ++ line :: post) (hline : isGlobalHeader line = true)
    (hend : lineTerminated line = false) (includeLine : Str) :
    splitlines (pre.flatten ++ (line ++
      ((includeBlock includeLine (lineEnding line)).flatten ++ [].flatten))) =
      (pre ++ [line ++ beginMarker ++ lineEnding line]) ++
        splitlines (includeLine ++ lineEnding line ++ (endMarker ++ lineEnding line)) := by
  have hwhole : ∀ c ∈ line ++ beginMarker, isLineBoundary c = false := by
    intro c hc
    have hbegin : ∀ c ∈ beginMarker, isLineBoundary c = false := by decide
    exact (List.mem_append.mp hc).elim (not_boundary_of_not_terminated hline hend c) (hbegin c)
  have hfirst := splitlines_line hwhole (lineEnding_eq line)
    (includeLine ++ lineEnding line ++ (endMarker ++ lineEnding line))
  refine (lineEnds.cut_replace hlines _).trans ?_
  rw [List.append_assoc, List.singleton_append, ← hfirst]
  simp only [includeBlock, List.flatten_cons, List.flatten_nil, List.append_nil,
    List.append_assoc]
  rfl

/-- Insert and remove: the text as it was, when its header's line has an end. -/
theorem removeInclude_insertInclude (path : PathLine) {text inserted line : Str}
    (hforeign : ∀ line ∈ splitlines text, IsForeign (includeLineOf path) line)
    (h : insertInclude text (includeLineOf path) = .ok inserted)
    (hfind : (splitlines text).find? isGlobalHeader = some line)
    (hend : lineTerminated line = true) :
    removeInclude inserted (includeLineOf path) = .ok text := by
  rcases insertInclude_eq_ok h with ⟨-, rfl⟩ | ⟨-, pre, line', post, hlines, hfind', -, rfl⟩
  · exact removeInclude_foreign hforeign
  obtain rfl : line' = line := Option.some.inj (hfind'.symm.trans hfind)
  -- Nothing outside the block is in it, so the sweep takes the block alone.
  have hcut := splitlines_inserted (includeLineOf_oneLine path) hlines hend
  rw [hlines] at hforeign
  have hpre : ∀ l ∈ pre ++ [line'], IsForeign (includeLineOf path) l := fun l hl =>
    hforeign l (by
      rw [List.append_cons]
      exact List.mem_append_left post hl)
  have hrest : ∀ l ∈ post, IsForeign (includeLineOf path) l := fun l hl =>
    hforeign l (List.mem_append_right pre (List.mem_cons_of_mem line' hl))
  have hswept := sweep_foreign hrest []
  rw [List.append_nil] at hswept
  unfold removeInclude
  rw [hcut, sweep_foreign hpre, sweep_block path (lineEnding_eq line'), hswept]
  change Except.ok ((pre ++ [line']) ++ (post ++ [])).flatten = _
  rw [List.append_nil, ← List.append_cons, ← hlines]
  exact congrArg Except.ok (lineEnds.flatten_cut text)

/-- On a last line without an end the block is glued to the header, and the text
    does not come back. -/
theorem removeInclude_glued (path : PathLine) {text inserted line result : Str}
    (hforeign : ∀ line ∈ splitlines text, IsForeign (includeLineOf path) line)
    (hinc : hasInclude text = false)
    (h : insertInclude text (includeLineOf path) = .ok inserted)
    (hfind : (splitlines text).find? isGlobalHeader = some line)
    (hend : lineTerminated line = false)
    (hremove : removeInclude inserted (includeLineOf path) = .ok result) : result ≠ text := by
  rcases insertInclude_eq_ok h with ⟨htrue, -⟩ | ⟨-, pre, line', post, hlines, hfind', hline, rfl⟩
  · exact absurd (hinc.symm.trans htrue) Bool.false_ne_true
  obtain rfl : line' = line := Option.some.inj (hfind'.symm.trans hfind)
  obtain rfl := eq_nil_of_not_terminated hlines hline hend
  have htext : text = pre.flatten ++ line' := by
    have hflat := lineEnds.flatten_cut text
    change (splitlines text).flatten = text at hflat
    rw [← hflat, hlines, List.flatten_append, List.flatten_singleton]
  -- The glued line still begins as the header does, so the sweep leaves it.
  have hglued : IsForeign (includeLineOf path)
      (line' ++ beginMarker ++ lineEnding line') := by
    rcases header_parts hline with ⟨blanks, c, rest, ends, hparts, hblanks, hc, hhash, hi, -, -⟩
    rcases strip_cons hc hblanks (rest ++ ends ++ beginMarker ++ lineEnding line') with ⟨t, ht⟩
    have hstrip : strip (line' ++ beginMarker ++ lineEnding line') = c :: t := by
      rw [← ht]
      generalize lineEnding line' = ending
      rw [hparts]
      simp only [List.append_assoc, List.cons_append]
    constructor
    · rw [hstrip]
      exact fun heq => hhash (List.cons.inj heq).1
    · rw [hstrip]
      exact fun heq => hi (List.cons.inj heq).1
  have hcut := splitlines_glued hlines hline hend (includeLineOf path)
  rw [hlines] at hforeign
  have hpre : ∀ l ∈ pre ++ [line' ++ beginMarker ++ lineEnding line'],
      IsForeign (includeLineOf path) l := by
    intro l hl
    rcases List.mem_append.mp hl with hl | hl
    · exact hforeign l (List.mem_append_left _ hl)
    · rw [List.mem_singleton.mp hl]
      exact hglued
  unfold removeInclude at hremove
  rw [hcut, sweep_foreign hpre] at hremove
  dsimp only at hremove
  split at hremove
  · exact nomatch hremove
  · -- What is left is sixteen characters longer at least, the marker's own.
    rintro rfl
    rw [Except.ok.injEq] at hremove
    have hlen := congrArg List.length (hremove.trans htext)
    have hmarker : beginMarker.length = 16 := by decide
    simp only [List.flatten_append, List.flatten_cons, List.flatten_nil, List.length_append,
      List.append_nil, hmarker] at hlen
    omega

end Smbpal
