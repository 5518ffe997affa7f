import Mathlib.Data.List.Dedup
import Mathlib.Data.List.Sort
import Smbpal.Config.Operations
import Smbpal.Daemon.Secrets
import Smbpal.Python.Files

/-!
# What Samba Says It Serves

`samba/control.py`: the sections in the dump that `testparm -s` prints, each with its path,
and what is made of them: whether every share is there, and which ones SMBPal did not
write.

The dump is read line by line. A line in brackets is the header of a section, and a `path`
line belongs to the last header before it; every other line is passed over. So whatever
parameters a section has and wherever its path stands among them, the reader finds the
sections that were printed (`effectiveShares_dump`), as long as a name is on one line and
has no bracket that closes it.

## Main definitions

* `sectionName`, `pathValue`: The two patterns.
* `Control.effectiveShares`, `Control.unmanagedShares`: What is served, and by whom.
* `missingShares`: What `verify_present` raises for.
* `DumpedSection`, `dumpText`: What `testparm -s` prints.

## Theorems

* `splitlines_lines`: Lines that were written are read.
* `effectiveShares_dump`: The sections of a dump are read, each with its path.
-/

namespace Smbpal

/-- `result.ok`. -/
def CommandResult.isOk (r : CommandResult) : Bool :=
  decide (r.returncode = 0)

section Reading

/-- `_SECTION`, and what it captures. -/
def sectionName : Str → Option Str
  | [] => none
  | c :: rest =>
      let name := rest.takeWhile fun d => !decide (d = chr ']')
      match rest.dropWhile fun d => !decide (d = chr ']') with
      | _ :: after =>
          if c = chr '[' ∧ name ≠ [] ∧ after.all isSpace = true then some name else none
      | [] => none

/-- `_PATH`, and what it captures, stripped. -/
def pathValue (line : Str) : Option Str :=
  if (line.take 4).map asciiLower = str "path" then
    match (line.drop 4).dropWhile isSpace with
    | c :: value => if c = chr '=' then some (strip value) else none
    | [] => none
  else none

/-- The section a reader is in, and those it has seen. -/
structure DumpReader where
  current : Option Str
  shares : List (Str × Str)

/-- `shares.setdefault(name, "")`. -/
def setDefault (shares : List (Str × Str)) (name : Str) : List (Str × Str) :=
  if name ∈ shares.map Prod.fst then shares else shares ++ [(name, [])]

/-- `shares[name] = path`, of a name that is there. -/
def setPath (shares : List (Str × Str)) (name path : Str) : List (Str × Str) :=
  shares.map fun share => if share.1 = name then (name, path) else share

/-- The body of the loop. -/
def DumpReader.readLine (r : DumpReader) (line : Str) : DumpReader :=
  match sectionName (strip line) with
  | some name => { current := some name, shares := setDefault r.shares name }
  | none =>
      match r.current, pathValue (strip line) with
      | some current, some path => { r with shares := setPath r.shares current path }
      | _, _ => r

/-- `effective_shares`, of what `testparm -s` has printed. -/
def Control.effectiveShares (stdout : Str) : List (Str × Str) :=
  (((splitlines stdout).map lineText).foldl DumpReader.readLine
    { current := none, shares := [] }).shares

/-- `unmanaged_shares`. -/
def Control.unmanagedShares [Unicode] (configured : List Str) (stdout : Str) : List (Str × Str) :=
  (Control.effectiveShares stdout).filter fun share =>
    decide (lower share.1 ∉ configured.map lower) &&
      decide (lower share.1 ∉ reservedShareNames)

/-- `sorted(set(names) - serving)`. -/
def missingShares (names : List Str) (stdout : Str) : List Str :=
  (names.dedup.filter fun name =>
    decide (name ∉ (Control.effectiveShares stdout).map Prod.fst)).insertionSort
      fun a b => strLe a b = true

theorem mem_missingShares {names : List Str} {stdout name : Str} :
    name ∈ missingShares names stdout ↔
      name ∈ names ∧ name ∉ (Control.effectiveShares stdout).map Prod.fst := by
  rw [missingShares, List.mem_insertionSort, List.mem_filter, List.mem_dedup, decide_eq_true_iff]

end Reading

section Dump

/-- A text is on one line. -/
def OnOneLine (s : Str) : Prop :=
  ∀ c ∈ s, isLineBoundary c = false

/-- Lines, each with its end. -/
def linesText (lines : List Str) : Str :=
  lines.flatMap fun line => line ++ str "\n"

/-- Lines that were written are read. -/
theorem splitlines_lines {lines : List Str} (h : ∀ line ∈ lines, OnOneLine line) :
    (splitlines (linesText lines)).map lineText = lines := by
  induction lines with
  | nil => rfl
  | cons line lines ih =>
      rw [List.forall_mem_cons] at h
      have hend : ∀ c ∈ str "\n", isLineBoundary c = true := by decide
      rw [linesText, List.flatMap_cons, splitlines_line h.1 (Or.inl rfl), List.map_cons,
        lineText_append h.1 hend]
      exact congrArg (line :: ·) (ih h.2)

/-- A section that `testparm -s` prints: the lines of its parameters, and its path. -/
structure DumpedSection where
  name : Str
  before : List Str
  path : Option Str
  after : List Str

/-- A line that is no header, and no path. -/
def IsOther (line : Str) : Prop :=
  OnOneLine line ∧ sectionName (strip line) = none ∧ pathValue (strip line) = none

/-- The name is on one line and in brackets, and the path is the only one. -/
structure DumpedSection.Printed (s : DumpedSection) : Prop where
  name_ne : s.name ≠ []
  name_line : OnOneLine s.name
  name_bracket : chr ']' ∉ s.name
  before : ∀ line ∈ s.before, IsOther line
  after : ∀ line ∈ s.after, IsOther line
  path : ∀ p ∈ s.path, OnOneLine p ∧ strip p = p

/-- The line of a path. -/
def pathLine (path : Str) : Str :=
  str "\tpath = " ++ path

/-- The line of a name. -/
def headerLine (name : Str) : Str :=
  chr '[' :: (name ++ [chr ']'])

/-- The lines of a section. -/
def DumpedSection.lines (s : DumpedSection) : List Str :=
  headerLine s.name :: (s.before ++ s.path.toList.map pathLine ++ s.after)

/-- What `testparm -s` prints: some lines, and the sections. -/
def dumpText (heading : List Str) (sections : List DumpedSection) : Str :=
  linesText (heading ++ sections.flatMap DumpedSection.lines)

/-- What the reader makes of a section. -/
def DumpedSection.share (s : DumpedSection) : Str × Str :=
  (s.name, s.path.getD [])

theorem isSpace_bracket : isSpace (chr '[') = false ∧ isSpace (chr ']') = false := by
  decide

/-- A header in brackets is its own strip. -/
theorem strip_header (name : Str) : strip (headerLine name) = headerLine name := by
  have hfirst : (headerLine name).dropWhile isSpace = headerLine name :=
    List.dropWhile_cons_of_neg (by rw [isSpace_bracket.1]; exact Bool.false_ne_true)
  unfold strip stripWhile
  rw [hfirst, headerLine, ← List.cons_append]
  exact List.rdropWhile_concat_neg _ _ _ (by rw [isSpace_bracket.2]; exact Bool.false_ne_true)

/-- The name in a header. -/
theorem sectionName_header {name : Str} (hne : name ≠ []) (hbracket : chr ']' ∉ name) :
    sectionName (headerLine name) = some name := by
  have hall : ∀ d ∈ name, (!decide (d = chr ']')) = true := by
    intro d hd
    rw [Bool.not_eq_true', decide_eq_false_iff_not]
    exact fun heq => hbracket (heq ▸ hd)
  have htake : (name ++ [chr ']']).takeWhile (fun d => !decide (d = chr ']')) = name := by
    rw [List.takeWhile_append_of_pos hall]
    exact List.append_nil name
  have hdrop : (name ++ [chr ']']).dropWhile (fun d => !decide (d = chr ']')) = [chr ']'] :=
    (List.dropWhile_append_of_pos hall).trans rfl
  rw [headerLine, sectionName, hdrop, htake]
  exact if_pos ⟨rfl, hne, rfl⟩

/-- What ends in no blank has none stripped at its end. -/
theorem rdropWhile_of_strip {path : Str} (hstrip : strip path = path) (hne : path ≠ [])
    (before : Str) : (before ++ path).rdropWhile isSpace = before ++ path := by
  refine List.rdropWhile_eq_self_iff.mpr fun hall => ?_
  rw [List.getLast_append_of_ne_nil hall hne]
  have hpath : (path.dropWhile isSpace).rdropWhile isSpace = path := hstrip
  have hkept : (path.dropWhile isSpace).rdropWhile isSpace ≠ [] := by
    rw [hpath]
    exact hne
  have hlast := List.rdropWhile_last_not isSpace (path.dropWhile isSpace) hkept
  rwa [List.getLast_congr hkept hne hpath] at hlast

/-- The path in a `path` line. -/
theorem pathValue_pathLine {path : Str} (hstrip : strip path = path) :
    pathValue (strip (pathLine path)) = some path := by
  by_cases hne : path = []
  · rw [hne]
    decide
  · have hline : strip (pathLine path) = str "path = " ++ path :=
      rdropWhile_of_strip hstrip hne (str "path = ")
    have hblank : strip (chr ' ' :: path) = path := hstrip
    rw [hline]
    change (if _ then some (strip (chr ' ' :: path)) else none) = _
    rw [hblank]
    exact if_pos rfl

/-- What does not start with a bracket is no header. -/
theorem sectionName_of_ne {c : PyChar} (h : c ≠ chr '[') (rest : Str) :
    sectionName (c :: rest) = none := by
  rw [sectionName]
  split
  · exact if_neg fun hall => h hall.1
  · rfl

/-- A `path` line is no header. -/
theorem sectionName_pathLine {path : Str} (hstrip : strip path = path) :
    sectionName (strip (pathLine path)) = none := by
  by_cases hne : path = []
  · rw [hne]
    decide
  · have hline : strip (pathLine path) = str "path = " ++ path :=
      rdropWhile_of_strip hstrip hne (str "path = ")
    rw [hline]
    exact sectionName_of_ne (by decide) _

/-- The reader goes over a line that is no header and no path. -/
theorem readLine_other {line : Str} (h : IsOther line) (r : DumpReader) :
    r.readLine line = r := by
  rw [DumpReader.readLine, h.2.1, h.2.2]
  cases r.current <;> rfl

theorem foldl_other {lines : List Str} (h : ∀ line ∈ lines, IsOther line) (r : DumpReader) :
    lines.foldl DumpReader.readLine r = r := by
  induction lines with
  | nil => rfl
  | cons line lines ih =>
      rw [List.forall_mem_cons] at h
      rw [List.foldl_cons, readLine_other h.1, ih h.2]

/-- A path that is set for the section at the end. -/
theorem setPath_append {shares : List (Str × Str)} {name : Str}
    (h : name ∉ shares.map Prod.fst) (before path : Str) :
    setPath (shares ++ [(name, before)]) name path = shares ++ [(name, path)] := by
  unfold setPath
  rw [List.map_append, List.map_singleton, if_pos rfl]
  refine congrArg (· ++ [(name, path)]) ?_
  conv_rhs => rw [← List.map_id shares]
  refine List.map_congr_left fun share hshare => if_neg fun heq => ?_
  exact h (heq ▸ List.mem_map_of_mem hshare)

/-- A section is read as what it is, behind those that were read before it. -/
theorem foldl_section {s : DumpedSection} (h : s.Printed) {r : DumpReader}
    (hnew : s.name ∉ r.shares.map Prod.fst) :
    s.lines.foldl DumpReader.readLine r =
      { current := some s.name, shares := r.shares ++ [s.share] } := by
  have hheader : r.readLine (headerLine s.name) =
      { current := some s.name, shares := r.shares ++ [(s.name, [])] } := by
    rw [DumpReader.readLine, strip_header, sectionName_header h.name_ne h.name_bracket]
    exact congrArg (DumpReader.mk _) (if_neg hnew)
  rw [DumpedSection.lines, List.foldl_cons, hheader, List.foldl_append, List.foldl_append,
    foldl_other h.before, foldl_other h.after]
  unfold DumpedSection.share
  cases hpath : s.path with
  | none => rfl
  | some path =>
      have hprinted := h.path path hpath
      change DumpReader.readLine _ (pathLine path) = _
      rw [DumpReader.readLine, sectionName_pathLine hprinted.2, pathValue_pathLine hprinted.2]
      exact congrArg (DumpReader.mk _) (setPath_append hnew [] path)

theorem foldl_sections {sections : List DumpedSection} (hprinted : ∀ s ∈ sections, s.Printed)
    (hnodup : (sections.map DumpedSection.name).Nodup) {r : DumpReader}
    (hnew : ∀ s ∈ sections, s.name ∉ r.shares.map Prod.fst) :
    ((sections.flatMap DumpedSection.lines).foldl DumpReader.readLine r).shares =
      r.shares ++ sections.map DumpedSection.share := by
  induction sections generalizing r with
  | nil => exact (List.append_nil r.shares).symm
  | cons s sections ih =>
      rw [List.forall_mem_cons] at hprinted hnew
      rw [List.map_cons, List.nodup_cons] at hnodup
      rw [List.flatMap_cons, List.foldl_append, foldl_section hprinted.1 hnew.1,
        ih hprinted.2 hnodup.2, List.append_assoc, List.map_cons, List.singleton_append]
      -- no other section has this one's name
      intro other hother hmem
      rw [List.map_append, List.map_singleton, List.mem_append, List.mem_singleton] at hmem
      rcases hmem with hold | hsame
      · exact hnew.2 other hother hold
      · have hname : other.name = s.name := hsame
        exact hnodup.1 (hname ▸ List.mem_map_of_mem hother)

theorem onOneLine_append {s t : Str} (hs : OnOneLine s) (ht : OnOneLine t) :
    OnOneLine (s ++ t) := by
  intro c hc
  exact (List.mem_append.mp hc).elim (hs c) (ht c)

/-- The lines of a section are lines. -/
theorem onOneLine_lines {s : DumpedSection} (h : s.Printed) :
    ∀ line ∈ s.lines, OnOneLine line := by
  have hopen : OnOneLine [chr '['] := by unfold OnOneLine; decide
  have hclose : OnOneLine [chr ']'] := by unfold OnOneLine; decide
  have hpath : OnOneLine (str "\tpath = ") := by unfold OnOneLine; decide
  intro line hline
  rcases List.mem_cons.mp hline with rfl | hline
  · exact onOneLine_append hopen (onOneLine_append h.name_line hclose)
  · rcases List.mem_append.mp hline with hline | hline
    · rcases List.mem_append.mp hline with hline | hline
      · exact (h.before line hline).1
      · rcases List.mem_map.mp hline with ⟨p, hp, rfl⟩
        exact onOneLine_append hpath (h.path p (Option.mem_toList.mp hp)).1
    · exact (h.after line hline).1

/-- Whatever parameters the sections have, and wherever their paths stand among them, the
    sections of a dump are read, each with its path, in their order. -/
theorem effectiveShares_dump {heading : List Str} {sections : List DumpedSection}
    (hheading : ∀ line ∈ heading, IsOther line) (hprinted : ∀ s ∈ sections, s.Printed)
    (hnodup : (sections.map DumpedSection.name).Nodup) :
    Control.effectiveShares (dumpText heading sections) =
      sections.map DumpedSection.share := by
  have hlines : ∀ line ∈ heading ++ sections.flatMap DumpedSection.lines, OnOneLine line := by
    intro line hline
    rcases List.mem_append.mp hline with hline | hline
    · exact (hheading line hline).1
    · rcases List.mem_flatMap.mp hline with ⟨s, hs, hline⟩
      exact onOneLine_lines (hprinted s hs) line hline
  rw [Control.effectiveShares, dumpText, splitlines_lines hlines, List.foldl_append,
    foldl_other hheading,
    foldl_sections hprinted hnodup fun _ _ hmem => absurd hmem List.not_mem_nil]
  exact List.nil_append _

/-- The section of one share. -/
def filmsSection : DumpedSection where
  name := str "Films"
  before := [str "\tguest ok = Yes"]
  path := some (str "/srv/films")
  after := [str "\tread only = No"]

theorem filmsSection_printed : filmsSection.Printed where
  name_ne := by decide
  name_line := by unfold OnOneLine; decide
  name_bracket := by decide
  before := by unfold IsOther OnOneLine; decide
  after := by unfold IsOther OnOneLine; decide
  path := by unfold OnOneLine; decide

/-- A section that names no path. -/
def homesSection : DumpedSection where
  name := str "homes"
  before := [str "\tbrowseable = No"]
  path := none
  after := []

theorem homesSection_printed : homesSection.Printed where
  name_ne := by decide
  name_line := by unfold OnOneLine; decide
  name_bracket := by decide
  before := by unfold IsOther OnOneLine; decide
  after := by unfold IsOther OnOneLine; decide
  path := by unfold OnOneLine; decide

theorem effectiveShares_dump_films :
    Control.effectiveShares (dumpText [str "# Global parameters"] [filmsSection, homesSection]) =
      [(str "Films", str "/srv/films"), (str "homes", [])] :=
  effectiveShares_dump (by unfold IsOther OnOneLine; decide)
    (List.forall_mem_cons.mpr
      ⟨filmsSection_printed, List.forall_mem_singleton.mpr homesSection_printed⟩) (by decide)

end Dump

end Smbpal
