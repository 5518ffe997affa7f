import Smbpal.Mounts.Apply

/-!
# Units Read Back

What `mounts/apply.py` reads in the units it wrote.

A unit file is SMBPal's own by the marker in its text, and belongs to the
mountpoint its first `Where=` line names. In a unit the schema's checks let
through, no line before that one starts with `Where=`: the values in them cannot
end a line. What is read back is the mountpoint without the whitespace around
it, which is not always the mountpoint.

## Main definitions

* `IsOurs`: A unit file with the marker.

## Theorems

* `whereOf_skip`, `whereOf_here`: Reading a text line by line.
* `whereOf_mountUnit`, `whereOf_automountUnit`: What is read back.
* `isUnitFile_of_namesOf`: A connection's units are looked at.
* `contains_marker_mountUnit`, `contains_marker_automountUnit`: They are ours.
-/

namespace Smbpal

/-- A unit file that SMBPal wrote, by the marker in it. -/
def IsOurs (name text : Str) : Prop :=
  isUnitFile name = true ∧ contains marker text = true

instance (name text : Str) : Decidable (IsOurs name text) :=
  inferInstanceAs (Decidable (_ ∧ _))

/-- A line that starts otherwise is passed over. -/
theorem whereOf_skip {line : Str} {lines : List Str} (h : chr '\n' ∉ line)
    (hstart : startsWith line "Where=" = false) :
    whereOf (unitText (line :: lines)) = whereOf (unitText lines) := by
  have hsplit : unitText (line :: lines) = line ++ chr '\n' :: unitText lines := by
    unfold unitText
    rw [List.flatMap_cons, List.append_assoc]
    rfl
  unfold whereOf
  rw [hsplit, splitChar_append, splitChar_of_not_mem h, List.singleton_append,
    List.find?_cons_of_neg (p := fun line => startsWith line "Where=")]
  rw [hstart]
  exact Bool.false_ne_true

/-- The first line that names a mountpoint is the one that is read. -/
theorem whereOf_here {place : Str} {lines : List Str} (h : chr '\n' ∉ place) :
    whereOf (unitText ((str "Where=" ++ place) :: lines)) = some (strip place) := by
  have hline : chr '\n' ∉ str "Where=" ++ place := by
    rw [List.mem_append]
    exact not_or.mpr ⟨by decide, h⟩
  have hsplit : unitText ((str "Where=" ++ place) :: lines) =
      (str "Where=" ++ place) ++ chr '\n' :: unitText lines := by
    unfold unitText
    rw [List.flatMap_cons, List.append_assoc]
    rfl
  have hstart : startsWith (str "Where=" ++ place) "Where=" = true :=
    List.isPrefixOf_iff_prefix.mpr (List.prefix_append _ _)
  unfold whereOf
  rw [hsplit, splitChar_append, splitChar_of_not_mem hline, List.singleton_append,
    List.find?_cons_of_pos (p := fun line => startsWith line "Where=") hstart]
  rfl

/-- A character that no id has. -/
theorem not_mem_of_isId {v : Str} (h : isId v = true) : chr '\n' ∉ v := by
  intro hv
  exact absurd (isId_chars h _ hv) (by decide)

/-- A field that is null or keeps a character out is written without it. -/
theorem not_mem_pyStr {P : Str → Prop} {value : Option Str} {c : PyChar} (h : NullOr P value)
    (hP : ∀ v, P v → c ∉ v) (hnull : c ∉ str "None") : c ∉ pyStr value := by
  cases value with
  | none => exact hnull
  | some v => exact hP v (h v rfl)

section Units

variable {c : Connection} {ids : Option OwnerIds} {path : Option Str}

/-- No value in a unit ends its line. -/
theorem unit_lines (h : c.WellFormed) :
    chr '\n' ∉ pyStr c.id ∧ chr '\n' ∉ mountSource c ∧ chr '\n' ∉ pyStr c.mountpoint := by
  have hhost : chr '\n' ∉ pyStr c.host :=
    not_mem_pyStr h.host (fun v hv => hv.not_mem (by decide)) (by decide)
  have hshare : chr '\n' ∉ pyStr c.share :=
    not_mem_pyStr h.share (fun v hv => hv.not_mem (by decide)) (by decide)
  refine ⟨not_mem_pyStr h.id (fun v hv => not_mem_of_isId hv) (by decide), ?_,
    not_mem_pyStr h.mountpoint (fun v hv => hv.noLine.1) (by decide)⟩
  unfold mountSource
  simp only [List.mem_append, not_or]
  exact ⟨⟨⟨by decide, hhost⟩, by decide⟩, hshare⟩

/-- The first line of every unit is one line. -/
theorem headLine (h : chr '\n' ∉ pyStr c.id) :
    chr '\n' ∉ marker ++ pyStr c.id ++ str ". Do not edit." := by
  simp only [List.mem_append, not_or]
  exact ⟨⟨by decide, h⟩, by decide⟩

/-- What is read back from a mount unit. -/
theorem whereOf_mountUnit (h : c.WellFormed) :
    whereOf (mountUnit c ids path) = some (strip (pyStr c.mountpoint)) := by
  rcases unit_lines h with ⟨hid, hsource, hplace⟩
  have hdescription : chr '\n' ∉ str "Description=SMBPal mount of " ++ mountSource c := by
    rw [List.mem_append]
    exact not_or.mpr ⟨by decide, hsource⟩
  have hwhat : chr '\n' ∉ str "What=" ++ mountSource c := by
    rw [List.mem_append]
    exact not_or.mpr ⟨by decide, hsource⟩
  unfold mountUnit
  rw [whereOf_skip (headLine hid) rfl, whereOf_skip (by decide) rfl, whereOf_skip hdescription rfl,
    whereOf_skip (by decide) rfl, whereOf_skip (by decide) rfl, whereOf_skip (by decide) rfl,
    whereOf_skip (by decide) rfl, whereOf_skip (by decide) rfl, whereOf_skip (by decide) rfl,
    whereOf_skip hwhat rfl, whereOf_here hplace]

/-- What is read back from an automount unit. -/
theorem whereOf_automountUnit (h : c.WellFormed) :
    whereOf (automountUnit c) = some (strip (pyStr c.mountpoint)) := by
  rcases unit_lines h with ⟨hid, -, hplace⟩
  have hdescription : chr '\n' ∉ str "Description=SMBPal automount for " ++ pyStr c.mountpoint := by
    rw [List.mem_append]
    exact not_or.mpr ⟨by decide, hplace⟩
  unfold automountUnit
  rw [whereOf_skip (headLine hid) rfl, whereOf_skip (by decide) rfl, whereOf_skip hdescription rfl,
    whereOf_skip (by decide) rfl, whereOf_skip (by decide) rfl, whereOf_here hplace]

theorem contains_marker {line : Str} {lines : List Str} :
    contains marker (unitText ((marker ++ line) :: lines)) = true := by
  unfold unitText
  rw [List.flatMap_cons, List.append_assoc, List.append_assoc]
  exact decide_eq_true (List.prefix_append _ _).isInfix

theorem contains_marker_mountUnit : contains marker (mountUnit c ids path) = true := by
  unfold mountUnit
  rw [List.append_assoc]
  exact contains_marker

theorem contains_marker_automountUnit : contains marker (automountUnit c) = true := by
  unfold automountUnit
  rw [List.append_assoc]
  exact contains_marker

theorem escapePath_ne_nil {p : Str} : escapePath p ≠ some [] := by
  intro h
  rcases hp : collapse p with _ | ⟨d, s⟩
  · rw [escapePath_nil hp] at h
    exact absurd h (by decide)
  · rcases escapePath_cons hp h with ⟨b, bytes, -, -, hnil⟩
    exact escapeFirstByte_prefixCode.nonempty b (List.append_eq_nil_iff.mp hnil.symm).1

theorem hasSuffix_append {e : Str} {suffix : String} (h : e ≠ []) :
    hasSuffix (e ++ str suffix) suffix = true := by
  unfold hasSuffix
  rw [Bool.and_eq_true, decide_eq_true_eq]
  refine ⟨List.isSuffixOf_iff_suffix.mpr (List.suffix_append _ _), fun heq => h ?_⟩
  exact List.append_left_eq_self.mp heq

/-- A connection's units are among the files that are looked at. -/
theorem isUnitFile_of_namesOf {names : Str × Str} (h : namesOf c = .ok names) :
    isUnitFile names.1 = true ∧ isUnitFile names.2 = true := by
  unfold namesOf at h
  split at h
  · rename_i names' hnames
    cases h
    rcases Option.bind_eq_some_iff.mp hnames with ⟨p, -, hp⟩
    rcases Option.map_eq_some_iff.mp hp with ⟨e, he, rfl⟩
    have hne : e ≠ [] := fun hnil => escapePath_ne_nil (hnil ▸ he)
    unfold isUnitFile
    rw [Bool.or_eq_true, Bool.or_eq_true]
    exact ⟨Or.inl (hasSuffix_append hne), Or.inr (hasSuffix_append hne)⟩
  · exact nomatch h

end Units

end Smbpal
