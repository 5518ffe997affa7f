import Mathlib.Data.List.DropRight
import Mathlib.Data.List.Infix

/-!
# Files of Directives

A file of sections and directives, as a reader of such files takes it: lines,
comments left out, a line whose last character is the escape joined with the next,
`[name]` at the head of a section and `key = value` under it, names and values
trimmed. Which characters those are, and what is put where two lines are joined, is
a parameter (`LineRules`).

A text is a row of blocks when every block ends with a line that is neither a
comment nor joined with the next (`Settled`). Then the blocks are read one by one
(`joined_flatMap`), and a block that starts with a section adds sections to what was
read before it (`group_append`): what one block says does not depend on the others.

## Main definitions

* `LineRules`: The characters that mean something.
* `LineRules.trim`, `LineRules.joined`, `LineRules.item`: Trimming, joining, one line.
* `group`: Directives under their sections.
* `LineRules.read`: What a text says.
* `pieces`: A value with its specifiers told apart.

## Theorems

* `splitOn_blockText`: The lines of a text that is put together from lines.
* `joined_flatMap`: Settled blocks are joined one by one.
* `item_entry`, `item_header`: What a line with a directive, or a name, says.
* `group_append`, `group_flatMap`: Blocks that start with a section.
* `pieces_eq_literal_iff`: Which values are read without a specifier.
-/

namespace Smbpal.Lib

/-- The characters that mean something, and what stands between two joined lines. -/
structure LineRules (α : Type) where
  newline : α
  escape : α
  equals : α
  opening : α
  closing : α
  glue : List α
  blank : α → Bool
  comment : α → Bool

/-- A directive: its name and its value. -/
abbrev Directive (α : Type) := List α × List α

/-- A section: its name and its directives. -/
abbrev Section (α : Type) := List α × List (Directive α)

/-- What one line says. -/
inductive Item (α : Type) where
  | header (name : List α)
  | entry (key value : List α)
  | nothing

/-- The directives in front of the first section, and the sections. -/
def group {α : Type} : List (Item α) → List (Directive α) × List (Section α)
  | [] => ([], [])
  | .nothing :: items => group items
  | .entry key value :: items => ((key, value) :: (group items).1, (group items).2)
  | .header name :: items => ([], (name, (group items).1) :: (group items).2)

namespace LineRules

variable {α : Type} (r : LineRules α)

/-- Without what is blank at both ends. -/
def trim (s : List α) : List α :=
  (s.dropWhile r.blank).rdropWhile r.blank

/-- Whether a line is a comment. -/
def isComment (line : List α) : Bool :=
  (line.dropWhile r.blank).head?.any r.comment

/-- Put a line that continues in front of the first of the lines after it. -/
def joinFirst (line : List α) : List (List α) → List (List α)
  | [] => [line.dropLast]
  | next :: lines => (line.dropLast ++ r.glue ++ next) :: lines

/-- The text of a block: its lines, each ended by a line break. -/
def blockText (lines : List (List α)) : List α :=
  lines.flatMap fun line => line ++ [r.newline]

/-! ## Trimming -/

theorem rdropWhile_append_of_not {p : α → Bool} {c : α} (hc : p c = false) (a b : List α) :
    (a ++ c :: b).rdropWhile p = a ++ c :: b.rdropWhile p := by
  induction b using List.reverseRecOn with
  | nil => exact List.rdropWhile_concat_neg p a c (by simp [hc])
  | append_singleton b d ih =>
      rw [← List.cons_append, ← List.append_assoc]
      by_cases hd : p d = true
      · rw [List.rdropWhile_concat_pos p _ d hd, ih, List.rdropWhile_concat_pos p b d hd]
      · rw [List.rdropWhile_concat_neg p _ d hd, List.rdropWhile_concat_neg p b d hd,
          List.append_assoc, List.cons_append]

/-- What comes off the front does not depend on what comes off the back. -/
theorem dropWhile_rdropWhile (p : α → Bool) (s : List α) :
    (s.rdropWhile p).dropWhile p = (s.dropWhile p).rdropWhile p := by
  induction s using List.reverseRecOn with
  | nil => rfl
  | append_singleton s d ih =>
      by_cases hd : p d = true
      · rw [List.rdropWhile_concat_pos p s d hd, ih, List.dropWhile_append]
        by_cases hs : (s.dropWhile p).isEmpty = true
        · rw [if_pos hs, List.isEmpty_iff.mp hs, List.dropWhile_cons_of_pos hd]
          rfl
        · rw [if_neg hs, List.rdropWhile_concat_pos p _ d hd]
      · rw [List.rdropWhile_concat_neg p s d hd, List.dropWhile_append]
        by_cases hs : (s.dropWhile p).isEmpty = true
        · rw [if_pos hs, List.dropWhile_cons_of_neg hd]
          exact (List.rdropWhile_concat_neg p [] d hd).symm
        · rw [if_neg hs, List.rdropWhile_concat_neg p _ d hd]

theorem trim_blank {lead : List α} (h : ∀ c ∈ lead, r.blank c = true) (s : List α) :
    r.trim (lead ++ s) = r.trim s := by
  unfold trim
  rw [List.dropWhile_append_of_pos h]

/-- What is trimmed already stays, up to what is blank behind it. -/
theorem trim_cons {c d : α} (hc : r.blank c = false) (hd : r.blank d = false) (s t : List α) :
    r.trim (c :: s ++ d :: t) = c :: s ++ d :: t.rdropWhile r.blank := by
  unfold trim
  rw [List.cons_append, List.dropWhile_cons_of_neg (by simp [hc]), ← List.cons_append,
    rdropWhile_append_of_not hd]

theorem trim_rdropWhile (s : List α) : r.trim (s.rdropWhile r.blank) = r.trim s := by
  unfold trim
  rw [dropWhile_rdropWhile, List.rdropWhile_idempotent]

theorem trim_append_blank {gap : List α} (h : ∀ c ∈ gap, r.blank c = true) (s : List α) :
    r.trim (s ++ gap) = r.trim s := by
  rw [← trim_rdropWhile, List.rdropWhile, List.reverse_append, List.dropWhile_append_of_pos
    fun c hc => h c (List.mem_reverse.mp hc)]
  exact r.trim_rdropWhile s

/-- A text that neither starts nor ends with a blank is trimmed. -/
theorem trim_eq_self {s : List α} (hhead : ∀ c, s.head? = some c → r.blank c = false)
    (hlast : ∀ c, s.getLast? = some c → r.blank c = false) : r.trim s = s := by
  cases s with
  | nil => rfl
  | cons c s =>
      unfold trim
      rw [List.dropWhile_cons_of_neg (by simp [hhead c rfl]), List.rdropWhile_eq_self_iff]
      intro hne
      rw [hlast _ (List.getLast?_eq_some_getLast hne)]
      exact Bool.false_ne_true

theorem trim_getLast {s : List α} {c : α} (h : (r.trim s).getLast? = some c) :
    r.blank c = false := by
  have hne : (s.dropWhile r.blank).rdropWhile r.blank ≠ [] := by
    intro hnil
    rw [trim, hnil] at h
    exact nomatch h
  have hlast := List.rdropWhile_last_not r.blank _ hne
  rw [trim, List.getLast?_eq_some_getLast hne, Option.some.injEq] at h
  rw [h] at hlast
  exact Bool.not_eq_true _ |>.mp hlast

theorem length_trim_le (s : List α) : (r.trim s).length ≤ s.length :=
  ((List.rdropWhile_prefix r.blank _).length_le).trans
    (List.dropWhile_sublist r.blank).length_le

/-- A line with something to see on it is a comment when that starts one. -/
theorem isComment_of_head {lead : List α} (hlead : ∀ c ∈ lead, r.blank c = true) {c : α}
    (hc : r.blank c = false) (s : List α) : r.isComment (lead ++ c :: s) = r.comment c := by
  unfold isComment
  rw [List.dropWhile_append_of_pos hlead, List.dropWhile_cons_of_neg (by simp [hc])]
  rfl

/-! ## Lines -/

variable [DecidableEq α]

/-- Whether a line is joined with the next. -/
def continues (line : List α) : Bool :=
  decide (line.getLast? = some r.escape)

/-- The lines with the comments left out and the others joined. -/
def joined : List (List α) → List (List α)
  | [] => []
  | line :: lines =>
      if r.isComment line then joined lines
      else if r.continues line then r.joinFirst line (joined lines)
      else line :: joined lines

/-- A name and a value around the first `equals`. -/
def keyValue (s : List α) : Item α :=
  match s.dropWhile (fun c => decide (c ≠ r.equals)) with
  | [] => .nothing
  | _ :: value => .entry (r.trim (s.takeWhile fun c => decide (c ≠ r.equals))) (r.trim value)

/-- What one line says. -/
def item (line : List α) : Item α :=
  if (r.trim line).head? = some r.opening ∧ (r.trim line).getLast? = some r.closing then
    .header (r.trim (r.trim line).tail.dropLast)
  else
    r.keyValue (r.trim line)

/-- What the lines of a text say. -/
def readLines (lines : List (List α)) : List (Directive α) × List (Section α) :=
  group ((r.joined lines).map r.item)

/-- What a text says. -/
def read (text : List α) : List (Directive α) × List (Section α) :=
  r.readLines (text.splitOn r.newline)

/-- A block that the next one is not joined to. -/
def Settled (lines : List (List α)) : Prop :=
  ∃ init last, lines = init ++ [last] ∧ r.continues last = false ∧ r.isComment last = false

/-- A line with a directive, whatever its value. -/
theorem item_entry {lead gap s : List α} {c : α} (hlead : ∀ d ∈ lead, r.blank d = true)
    (hgap : ∀ d ∈ gap, r.blank d = true) (hc : r.blank c = false) (heq : r.blank r.equals = false)
    (htrim : r.trim (c :: s) = c :: s) (hopen : c ≠ r.opening) (hno : r.equals ∉ c :: s)
    (value : List α) :
    r.item (lead ++ (c :: s ++ gap ++ r.equals :: value)) = .entry (c :: s) (r.trim value) := by
  -- The blanks at both ends of the whole line go first.
  have hwhole : r.trim (lead ++ (c :: s ++ gap ++ r.equals :: value)) =
      c :: s ++ gap ++ r.equals :: value.rdropWhile r.blank := by
    rw [r.trim_blank hlead]
    exact r.trim_cons hc heq (s ++ gap) value
  -- The sign after the gap is the first one, for the key has none.
  have hbefore : ∀ d ∈ c :: s ++ gap, decide (d ≠ r.equals) = true := by
    intro d hd
    refine decide_eq_true ?_
    rintro rfl
    rcases List.mem_append.mp hd with hd | hd
    · exact hno hd
    · exact absurd (hgap _ hd) (by rw [heq]; exact Bool.false_ne_true)
  have hdrop : ∀ v, (r.equals :: v).dropWhile (fun d => decide (d ≠ r.equals)) = r.equals :: v :=
    fun v => List.dropWhile_cons_of_neg (by simp)
  have htake : ∀ v, (r.equals :: v).takeWhile (fun d => decide (d ≠ r.equals)) = [] :=
    fun v => List.takeWhile_cons_of_neg (by simp)
  unfold item
  rw [hwhole, if_neg (by
    rintro ⟨hhead, -⟩
    exact hopen (Option.some.inj hhead))]
  unfold keyValue
  rw [List.dropWhile_append_of_pos hbefore, hdrop, List.takeWhile_append_of_pos hbefore, htake,
    List.append_nil]
  dsimp only
  rw [r.trim_append_blank hgap, htrim, r.trim_rdropWhile]

/-- A line with the name of a section. -/
theorem item_header (hopen : r.blank r.opening = false) (hclose : r.blank r.closing = false)
    (name : List α) : r.item (r.opening :: name ++ [r.closing]) = .header (r.trim name) := by
  have hwhole : r.trim (r.opening :: name ++ [r.closing]) = r.opening :: name ++ [r.closing] :=
    r.trim_cons hopen hclose name []
  unfold item
  rw [hwhole, if_pos ⟨rfl, List.getLast?_concat⟩]
  rw [List.cons_append, List.tail_cons, List.dropLast_concat]

theorem item_nil : r.item [] = .nothing := by
  rfl

/-! ## Blocks -/

theorem joined_cons_plain {line : List α}
    (h : r.isComment line = false ∧ r.continues line = false) (lines : List (List α)) :
    r.joined (line :: lines) = line :: r.joined lines := by
  rw [joined, h.1, h.2, if_neg Bool.false_ne_true, if_neg Bool.false_ne_true]

theorem joined_cons_continues {line : List α}
    (h : r.isComment line = false ∧ r.continues line = true) (lines : List (List α)) :
    r.joined (line :: lines) = r.joinFirst line (r.joined lines) := by
  rw [joined, h.1, h.2, if_neg Bool.false_ne_true, if_pos rfl]

theorem joined_ne_nil {lines : List (List α)} {last : List α}
    (hlast : r.isComment last = false) (hcont : r.continues last = false) :
    r.joined (lines ++ [last]) ≠ [] := by
  induction lines with
  | nil =>
      rw [List.nil_append, joined, hlast, hcont, if_neg Bool.false_ne_true,
        if_neg Bool.false_ne_true]
      exact List.cons_ne_nil _ _
  | cons line lines ih =>
      rw [List.cons_append, joined]
      split_ifs
      · exact ih
      · rcases hjoined : r.joined (lines ++ [last]) with _ | ⟨next, rest⟩
        · exact absurd hjoined ih
        · exact List.cons_ne_nil _ _
      · exact List.cons_ne_nil _ _

/-- Nothing is joined across the end of a settled block. -/
theorem joined_append {a : List (List α)} (ha : r.Settled a) (b : List (List α)) :
    r.joined (a ++ b) = r.joined a ++ r.joined b := by
  rcases ha with ⟨lines, last, rfl, hcont, hlast⟩
  induction lines with
  | nil =>
      simp only [List.nil_append, List.cons_append, joined, hlast, hcont, Bool.false_eq_true,
        if_false]
  | cons line lines ih =>
      rw [List.cons_append, List.cons_append, joined, ih, joined]
      split_ifs
      · rfl
      · rcases hjoined : r.joined (lines ++ [last]) with _ | ⟨next, rest⟩
        · exact absurd hjoined (r.joined_ne_nil hlast hcont)
        · rfl
      · rfl

theorem joined_flatMap {β : Type} {block : β → List (List α)} {bs : List β}
    (h : ∀ b ∈ bs, r.Settled (block b)) :
    r.joined (bs.flatMap block) = bs.flatMap fun b => r.joined (block b) := by
  induction bs with
  | nil => rfl
  | cons b bs ih =>
      rw [List.flatMap_cons, r.joined_append (h b List.mem_cons_self), List.flatMap_cons,
        ih fun c hc => h c (List.mem_cons_of_mem b hc)]

/-- Lines that are no comments and continue nothing are read as they are. -/
theorem joined_plain {lines : List (List α)}
    (h : ∀ line ∈ lines, r.isComment line = false ∧ r.continues line = false) :
    r.joined lines = lines := by
  induction lines with
  | nil => rfl
  | cons line lines ih =>
      rw [r.joined_cons_plain (h line List.mem_cons_self),
        ih fun l hl => h l (List.mem_cons_of_mem line hl)]

theorem joined_comments {lines : List (List α)} (h : ∀ line ∈ lines, r.isComment line = true)
    (rest : List (List α)) : r.joined (lines ++ rest) = r.joined rest := by
  induction lines with
  | nil => rfl
  | cons line lines ih =>
      rw [List.cons_append, joined, if_pos (h line List.mem_cons_self),
        ih fun l hl => h l (List.mem_cons_of_mem line hl)]

/-! ## Line by line -/

/-- A line that is read by itself, and what it says. -/
def Reads (line : List α) (item : Item α) : Prop :=
  r.item line = item ∧ r.isComment line = false ∧ r.continues line = false

theorem readLines_comment {line : List α} (h : r.isComment line = true)
    (lines : List (List α)) : r.readLines (line :: lines) = r.readLines lines := by
  unfold readLines
  rw [joined, if_pos h]

theorem readLines_nothing {line : List α}
    (h : r.Reads line .nothing) (lines : List (List α)) :
    r.readLines (line :: lines) = r.readLines lines := by
  unfold readLines
  rw [r.joined_cons_plain h.2, List.map_cons, h.1, group]

theorem readLines_header {line name : List α}
    (h : r.Reads line (.header name)) (lines : List (List α)) :
    r.readLines (line :: lines) =
      ([], (name, (r.readLines lines).1) :: (r.readLines lines).2) := by
  unfold readLines
  rw [r.joined_cons_plain h.2, List.map_cons, h.1, group]

theorem readLines_entry {line key value : List α}
    (h : r.Reads line (.entry key value)) (lines : List (List α)) :
    r.readLines (line :: lines) =
      ((key, value) :: (r.readLines lines).1, (r.readLines lines).2) := by
  unfold readLines
  rw [r.joined_cons_plain h.2, List.map_cons, h.1, group]

/-- A line that is joined takes the next one with it, whatever that says. -/
theorem readLines_joined {line next key value : List α} {other : Item α}
    (h : r.isComment line = false ∧ r.continues line = true) (hnext : r.Reads next other)
    (hitem : r.item (line.dropLast ++ r.glue ++ next) = .entry key value)
    (lines : List (List α)) :
    r.readLines (line :: next :: lines) =
      ((key, value) :: (r.readLines lines).1, (r.readLines lines).2) := by
  unfold readLines
  rw [r.joined_cons_continues h, r.joined_cons_plain hnext.2, joinFirst,
    List.map_cons, hitem, group]

/-- The lines of a text that is put together from lines. -/
theorem splitOn_blockText {lines : List (List α)} (h : ∀ line ∈ lines, r.newline ∉ line) :
    (r.blockText lines).splitOn r.newline = lines ++ [[]] := by
  have htext : r.blockText lines = [r.newline].intercalate (lines ++ [[]]) := by
    clear h
    induction lines with
    | nil => rfl
    | cons line lines ih =>
        have hne : lines ++ [[]] ≠ [] := List.append_ne_nil_of_right_ne_nil _ (List.cons_ne_nil _ _)
        rw [blockText, List.flatMap_cons]
        change line ++ [r.newline] ++ r.blockText lines = _
        rw [ih, List.cons_append, List.intercalate_cons_of_ne_nil hne]
  rw [htext]
  refine List.splitOn_intercalate r.newline (fun line hline => ?_) (by simp)
  rcases List.mem_append.mp hline with hline | hline
  · exact h line hline
  · rw [List.mem_singleton.mp hline]
    exact List.not_mem_nil

theorem read_blockText {lines : List (List α)} (h : ∀ line ∈ lines, r.newline ∉ line) :
    r.read (r.blockText lines) = r.readLines (lines ++ [[]]) := by
  rw [read, r.splitOn_blockText h]

end LineRules

/-- Sections that are read after others are added to them. -/
theorem group_append {α : Type} (a : List (Item α)) {b : List (Item α)} (hb : (group b).1 = []) :
    group (a ++ b) = ((group a).1, (group a).2 ++ (group b).2) := by
  induction a with
  | nil => exact Prod.ext hb rfl
  | cons item a ih =>
      cases item with
      | header name => rw [List.cons_append, group, ih, group, List.cons_append]
      | entry key value => rw [List.cons_append, group, ih, group]
      | nothing => rw [List.cons_append, group, ih, group]

/-- Blocks that are one section each. -/
theorem group_flatMap {α β : Type} {items : β → List (Item α)} {meaning : β → Section α}
    {bs : List β} (h : ∀ b ∈ bs, group (items b) = ([], [meaning b])) :
    group (bs.flatMap items) = ([], bs.map meaning) := by
  induction bs with
  | nil => rfl
  | cons b bs ih =>
      have hrest := ih fun c hc => h c (List.mem_cons_of_mem b hc)
      rw [List.flatMap_cons, group_append _ (by rw [hrest]), hrest, h b List.mem_cons_self,
        List.map_cons]
      rfl

/-! ## Specifiers -/

/-- One character of a value, one specifier, or a mark with nothing behind it. -/
inductive Piece (α : Type) where
  | literal (c : α)
  | specifier (c : α)
  | dangling
  deriving DecidableEq

section Pieces

variable {α : Type} [DecidableEq α] (mark : α)

/-- A value with its specifiers told apart: a mark starts one unless it is doubled.
    The flag says whether a mark has just been read. -/
def piecesFrom : Bool → List α → List (Piece α)
  | false, [] => []
  | true, [] => [.dangling]
  | false, c :: s => if c = mark then piecesFrom true s else .literal c :: piecesFrom false s
  | true, c :: s => (if c = mark then .literal mark else .specifier c) :: piecesFrom false s

/-- A value with its specifiers told apart. -/
def pieces (s : List α) : List (Piece α) :=
  piecesFrom mark false s

/-- What has to be written for a value to be read. -/
def doubled (v : List α) : List α :=
  v.flatMap fun c => if c = mark then [mark, mark] else [c]

theorem length_doubled (v : List α) : (doubled mark v).length = v.length + v.count mark := by
  induction v with
  | nil => rfl
  | cons c v ih =>
      unfold doubled at ih ⊢
      rw [List.flatMap_cons, List.length_append, ih, List.length_cons, List.count_cons]
      by_cases hc : c = mark
      · rw [if_pos hc, if_pos (beq_iff_eq.mpr hc)]
        simp only [List.length_cons, List.length_nil]
        omega
      · rw [if_neg hc, if_neg (by simpa using hc)]
        simp only [List.length_cons, List.length_nil]
        omega

theorem doubled_of_not_mem {v : List α} (h : mark ∉ v) : doubled mark v = v := by
  induction v with
  | nil => rfl
  | cons c v ih =>
      rw [List.mem_cons, not_or] at h
      unfold doubled at ih ⊢
      rw [List.flatMap_cons, ih h.2, if_neg fun hc => h.1 hc.symm]
      rfl

theorem pieces_of_not_mem {v : List α} (h : mark ∉ v) : pieces mark v = v.map .literal := by
  unfold pieces
  induction v with
  | nil => rfl
  | cons c v ih =>
      rw [List.mem_cons, not_or] at h
      rw [piecesFrom, if_neg fun hc => h.1 hc.symm, ih h.2, List.map_cons]

/-- Only the doubled value is read as a value without specifiers. -/
theorem piecesFrom_eq_literal {s : List α} :
    (∀ v, piecesFrom mark false s = v.map .literal → s = doubled mark v) ∧
      ∀ v, piecesFrom mark true s = v.map .literal → mark :: s = doubled mark v := by
  induction s with
  | nil =>
      constructor
      · intro v h
        rw [List.map_eq_nil_iff.mp h.symm]
        rfl
      · intro v h
        cases v with
        | nil => exact nomatch h
        | cons c v => exact nomatch (List.cons.inj h).1
  | cons c s ih =>
      constructor
      · intro v h
        rw [piecesFrom] at h
        by_cases hc : c = mark
        · -- A mark opens a pair, which the other half of the induction finishes.
          rw [if_pos hc] at h
          rw [hc]
          exact ih.2 v h
        · rw [if_neg hc] at h
          cases v with
          | nil => exact nomatch h
          | cons d v =>
              rw [List.map_cons, List.cons.injEq, Piece.literal.injEq] at h
              rcases h with ⟨rfl, h⟩
              rw [ih.1 v h, doubled, doubled, List.flatMap_cons, if_neg hc]
              rfl
      · intro v h
        rw [piecesFrom] at h
        by_cases hc : c = mark
        · -- The second mark of a pair stands for one.
          rw [if_pos hc] at h
          cases v with
          | nil => exact nomatch h
          | cons d v =>
              rw [List.map_cons, List.cons.injEq, Piece.literal.injEq] at h
              rcases h with ⟨rfl, h⟩
              rw [hc, ih.1 v h, doubled, doubled, List.flatMap_cons, if_pos rfl]
              rfl
        · -- A single mark is no literal.
          rw [if_neg hc] at h
          cases v with
          | nil => exact nomatch h
          | cons d v => exact nomatch (List.cons.inj h).1

/-- A value no longer than `v` is read as `v` exactly when it is `v` and `v` has no
    mark. -/
theorem pieces_eq_literal_iff {s v : List α} (hlen : s.length ≤ v.length) :
    pieces mark s = v.map .literal ↔ s = v ∧ mark ∉ v := by
  constructor
  · intro h
    have hs := (piecesFrom_eq_literal mark).1 v h
    have hcount := length_doubled mark v
    rw [← hs] at hcount
    have hno : mark ∉ v := List.count_eq_zero.mp (by omega)
    exact ⟨hs.trans (doubled_of_not_mem mark hno), hno⟩
  · rintro ⟨rfl, hno⟩
    exact pieces_of_not_mem mark hno

end Pieces

end Smbpal.Lib
