import Mathlib.Data.List.Sort
import Smbpal.Lib.Dict
import Smbpal.Mounts.Apply
import Smbpal.Mounts.MountInfo

/-!
# The Inventory

`inventory.survey`: what is on the machine that the document does not account for, joined from
the connections, the unit files with SMBPal's marker and the cifs mounts of the kernel's table,
by mountpoint. A marked unit at the mountpoint of no connection is an orphan, a cifs mount at
neither is unmanaged.

A unit file that cannot be opened is passed over, and one that is no UTF-8 raises. Of the units
at one place the first by name is the orphan; at most one finding is at a place, and none at a
connection's.

## Main definitions

* `markedUnits`, `survey`: The source's functions.
* `MarkedAt`, `FirstMarkedAt`: What is read of the unit files.
* `findingAt`: The finding at a place.

## Theorems

* `markedUnits_eq_ok_iff`: When the units are read, and which they are.
* `find?_units_eq_some_iff`: The first unit of a place.
* `filter_findings`: The findings at a place.
* `filter_isOf_eq_singleton_iff`: When one finding is about a directory.
-/

namespace Smbpal

open Lib

section Survey

/-- The files of the unit directory by name; nothing is in one that cannot be opened. -/
abbrev UnitFiles := Dict Str (Option (List UInt8))

/-- `ORPHANED` and `UNMANAGED`. -/
inductive FindingKind where
  | orphaned
  | unmanaged
  deriving DecidableEq

/-- One thing on the machine that the document does not describe. -/
structure Finding where
  kind : FindingKind
  mountpoint : Str
  source : Str
  mounted : Bool
  connectionId : Option Str
  unit : Option Str
  deriving DecidableEq

/-- A unit with the marker: its name, its mountpoint and the id in the marker. -/
@[ext]
structure MarkedUnit where
  name : Str
  mountpoint : Str
  identifier : Str
  deriving DecidableEq

/-- The finding is about a place. -/
def Finding.isAt (place : Str) (f : Finding) : Bool :=
  decide (f.mountpoint = place)

/-- The unit names a place. -/
def MarkedUnit.isAt (place : Str) (unit : MarkedUnit) : Bool :=
  decide (unit.mountpoint = place)

/-- `text.split(part, 1)[1]`: what stands behind the first `part`. -/
def behind (part : Str) : Str → Str
  | [] => []
  | c :: s => if part.isPrefixOf (c :: s) then (c :: s).drop part.length else behind part s

/-- The id a unit was written for, from its marker. -/
def identifierOf (text : Str) : Str :=
  strip ((splitChar '.' (behind marker text)).headD [])

/-- What the text of a unit file says, when it has the marker and names a mountpoint. -/
def unitIn (name text : Str) : Option MarkedUnit :=
  if contains marker text then
    (whereOf text).map fun place =>
      { name := name, mountpoint := normpath place, identifier := identifierOf text }
  else none

/-- The body of the loop of `_marked_units`. -/
def markedUnit (name : Str) (file : Option (List UInt8)) : Except Exc (Option MarkedUnit) :=
  if isUnitFile name then
    match file with
    | none => .ok none
    | some bytes =>
        match readText bytes with
        -- A `UnicodeDecodeError` is no `OSError`.
        | none => .error .exception
        | some text => .ok (unitIn name text)
  else .ok none

/-- The loop of `_marked_units` over names of files. -/
def markedUnitsFrom (files : UnitFiles) : List Str → Except Exc (List MarkedUnit)
  | [] => .ok []
  | name :: names => do
      let unit ← markedUnit name (files.lookup name).join
      let units ← markedUnitsFrom files names
      pure (unit.toList ++ units)

/-- The names of the files in order. -/
def sortedNames (files : UnitFiles) : List Str :=
  files.keys.insertionSort fun a b => strLe a b = true

/-- `_marked_units`. -/
def markedUnits (files : UnitFiles) : Except Exc (List MarkedUnit) :=
  markedUnitsFrom files (sortedNames files)

/-- `configured`: the mountpoints of the connections. -/
def configuredPlaces (config : Config) : List Str :=
  (config.connections.filterMap fun c => truthy c.mountpoint).map normpath

/-- An entry is an SMB mount's. -/
def MountRow.isCifs (row : MountRow) : Bool :=
  decide (row.fstype = str "cifs")

/-- `mounted`: the cifs entries by mountpoint, the last of those at one. -/
def mountedPlaces (rows : List MountRow) : Dict Str MountRow :=
  (rows.filter MountRow.isCifs).foldl
    (fun mounted row => mounted.insert (normpath row.mountpoint) row) ∅

/-- The finding of a unit that no connection accounts for. -/
def orphanedFinding (mounted : Dict Str MountRow) (unit : MarkedUnit) : Finding where
  kind := .orphaned
  mountpoint := unit.mountpoint
  source := ((mounted.lookup unit.mountpoint).map (·.source)).getD []
  mounted := (mounted.lookup unit.mountpoint).isSome
  connectionId := if unit.identifier = [] then none else some unit.identifier
  unit := some unit.name

/-- The finding of a mount that is not SMBPal's. -/
def unmanagedFinding (place : Str) (row : MountRow) : Finding where
  kind := .unmanaged
  mountpoint := place
  source := row.source
  mounted := true
  connectionId := none
  unit := none

/-- The loop of `survey` over the units: the findings, and the places that are claimed then. -/
def orphansFrom (configured : List Str) (mounted : Dict Str MountRow) (claimed : List Str) :
    List MarkedUnit → List Finding × List Str
  | [] => ([], claimed)
  | unit :: units =>
      if unit.mountpoint ∈ configured ∨ unit.mountpoint ∈ claimed then
        orphansFrom configured mounted claimed units
      else
        let rest := orphansFrom configured mounted (unit.mountpoint :: claimed) units
        (orphanedFinding mounted unit :: rest.1, rest.2)

/-- The loop of `survey` over the mounts. -/
def unmanagedFrom (configured claimed : List Str) (mounted : Dict Str MountRow) :
    List Str → List Finding
  | [] => []
  | place :: places =>
      if place ∈ configured ∨ place ∈ claimed then
        unmanagedFrom configured claimed mounted places
      else
        ((mounted.lookup place).map (unmanagedFinding place)).toList ++
          unmanagedFrom configured claimed mounted places

/-- The findings, of what was read. -/
def findingsOf (configured : List Str) (mounted : Dict Str MountRow) (units : List MarkedUnit) :
    List Finding :=
  let orphans := orphansFrom configured mounted [] units
  orphans.1 ++ unmanagedFrom configured orphans.2 mounted
    (mounted.keys.insertionSort fun a b => strLe a b = true)

/-- `survey`. -/
def survey [Decimals] (config : Config) (files : UnitFiles) (mountinfo : Option (List UInt8)) :
    Except Exc (List Finding) := do
  let table ← mountEntries mountinfo
  let units ← markedUnits files
  pure (findingsOf (configuredPlaces config) (mountedPlaces (table.getD [])) units)

end Survey

theorem Finding.isAt_self (f : Finding) : f.isAt f.mountpoint = true :=
  decide_eq_true rfl

theorem MarkedUnit.isAt_self (unit : MarkedUnit) : unit.isAt unit.mountpoint = true :=
  decide_eq_true rfl

/-! ### What is read -/

section Reading

variable {files : UnitFiles} {place name id : Str} {unit : MarkedUnit}

/-- Every unit file that can be opened is UTF-8. -/
def Decodes (files : UnitFiles) : Prop :=
  ∀ name bytes, files.lookup name = some (some bytes) → isUnitFile name = true →
    readText bytes ≠ none

/-- A unit file with the marker is read as of this place, and of this id. -/
def MarkedAt (files : UnitFiles) (place name id : Str) : Prop :=
  ∃ bytes text, files.lookup name = some (some bytes) ∧ isUnitFile name = true ∧
    readText bytes = some text ∧ contains marker text = true ∧
      (whereOf text).map normpath = some place ∧ identifierOf text = id

/-- The first of them by name. -/
def FirstMarkedAt (files : UnitFiles) (place name id : Str) : Prop :=
  MarkedAt files place name id ∧
    ∀ other id', MarkedAt files place other id' → strLe name other = true

/-- What is read of the file of a name, where nothing raises. -/
def unitAt (files : UnitFiles) (name : Str) : Option MarkedUnit :=
  if isUnitFile name then ((files.lookup name).join.bind readText).bind (unitIn name) else none

/-- The units that are read, where nothing raises. -/
def unitsOf (files : UnitFiles) : List MarkedUnit :=
  (sortedNames files).filterMap (unitAt files)

theorem markedUnit_eq_ok_iff {found : Option MarkedUnit} :
    markedUnit name (files.lookup name).join = .ok found ↔
      (∀ bytes, files.lookup name = some (some bytes) → isUnitFile name = true →
        readText bytes ≠ none) ∧ found = unitAt files name := by
  unfold markedUnit unitAt
  by_cases hname : isUnitFile name = true
  · rw [if_pos hname, if_pos hname]
    -- No file, or one that is no file: nothing is read.
    rcases hfile : (files.lookup name).join with _ | bytes
    · constructor
      · intro h
        refine ⟨fun bytes hbytes => ?_, (Except.ok.inj h).symm⟩
        rw [hbytes] at hfile
        cases hfile
      · rintro ⟨-, rfl⟩
        rfl
    · have hlookup : files.lookup name = some (some bytes) := Option.join_eq_some_iff.mp hfile
      rw [hlookup, Option.bind_some]
      dsimp only
      -- Bytes that are no text stop the reading.
      rcases htext : readText bytes with _ | text
      · constructor
        · intro h
          cases h
        · intro h
          exact absurd htext (h.1 bytes rfl hname)
      · constructor
        · intro h
          refine ⟨fun bytes' hbytes _ => ?_, (Except.ok.inj h).symm⟩
          rw [← Option.some.inj (Option.some.inj hbytes), htext]
          exact Option.some_ne_none text
        · rintro ⟨-, rfl⟩
          rfl
  · rw [if_neg hname, if_neg hname]
    constructor
    · intro h
      exact ⟨fun bytes _ hunit => absurd hunit hname, (Except.ok.inj h).symm⟩
    · rintro ⟨-, rfl⟩
      rfl

theorem markedUnitsFrom_eq_ok_iff {names : List Str} {units : List MarkedUnit} :
    markedUnitsFrom files names = .ok units ↔
      (∀ name ∈ names, ∀ bytes, files.lookup name = some (some bytes) → isUnitFile name = true →
        readText bytes ≠ none) ∧ units = names.filterMap (unitAt files) := by
  induction names generalizing units with
  | nil =>
      constructor
      · intro h
        exact ⟨fun name hname => absurd hname List.not_mem_nil, (Except.ok.inj h).symm⟩
      · rintro ⟨-, rfl⟩
        rfl
  | cons name names ih =>
      -- What is found of the first name goes in front of the rest.
      have hsplit : (name :: names).filterMap (unitAt files) =
          (unitAt files name).toList ++ names.filterMap (unitAt files) := by
        rw [List.filterMap_cons]
        cases unitAt files name with
        | none => rfl
        | some unit => rfl
      rw [hsplit, List.forall_mem_cons, markedUnitsFrom]
      constructor
      · intro h
        rcases except_bind_eq_ok.mp h with ⟨found, hfound, h⟩
        rcases except_bind_eq_ok.mp h with ⟨rest, hrest, h⟩
        rw [markedUnit_eq_ok_iff] at hfound
        rw [ih] at hrest
        refine ⟨⟨hfound.1, hrest.1⟩, ?_⟩
        rw [← hfound.2, ← hrest.2]
        exact (Except.ok.inj h).symm
      · rintro ⟨⟨hfirst, hrest⟩, rfl⟩
        rw [markedUnit_eq_ok_iff.mpr ⟨hfirst, rfl⟩, ih.mpr ⟨hrest, rfl⟩]
        rfl

theorem mem_sortedNames : name ∈ sortedNames files ↔ name ∈ files := by
  unfold sortedNames
  rw [List.mem_insertionSort, AList.mem_keys]

/-- The units are read when every unit file that can be opened is UTF-8. -/
theorem markedUnits_eq_ok_iff {units : List MarkedUnit} : markedUnits files = .ok units ↔
    Decodes files ∧ units = unitsOf files := by
  unfold markedUnits Decodes
  rw [markedUnitsFrom_eq_ok_iff]
  refine and_congr_left fun _ => ⟨fun h name bytes hfile => h name ?_ bytes hfile, fun h name _ =>
    h name⟩
  rw [mem_sortedNames, ← AList.lookup_isSome, hfile]
  rfl

/-- What is read of a file. -/
theorem unitAt_eq_some_iff : unitAt files name = some unit ↔
    unit.name = name ∧ MarkedAt files unit.mountpoint name unit.identifier := by
  unfold unitAt unitIn MarkedAt
  constructor
  · intro h
    split at h
    · rename_i hname
      rcases Option.bind_eq_some_iff.mp h with ⟨text, htext, h⟩
      rcases Option.bind_eq_some_iff.mp htext with ⟨bytes, hbytes, htext⟩
      split at h
      · rename_i hmarker
        rcases Option.map_eq_some_iff.mp h with ⟨place, hplace, rfl⟩
        refine ⟨rfl, bytes, text, Option.join_eq_some_iff.mp hbytes, hname, htext, hmarker, ?_, rfl⟩
        rw [hplace, Option.map_some]
      · cases h
    · cases h
  · rintro ⟨rfl, bytes, text, hfile, hname, htext, hmarker, hplace, hid⟩
    rcases Option.map_eq_some_iff.mp hplace with ⟨place, hwhere, hplace⟩
    rw [if_pos hname, hfile, Option.join_some, Option.bind_some, htext, Option.bind_some,
      if_pos hmarker, hwhere, Option.map_some, hplace, hid]

/-- A file is read as of one place and one id. -/
theorem MarkedAt.unique {place' id' : Str} (h : MarkedAt files place name id)
    (h' : MarkedAt files place' name id') : place = place' ∧ id = id' := by
  rcases h with ⟨bytes, text, hfile, -, htext, -, hplace, rfl⟩
  rcases h' with ⟨bytes', text', hfile', -, htext', -, hplace', rfl⟩
  obtain rfl : bytes = bytes' := Option.some.inj (Option.some.inj (hfile.symm.trans hfile'))
  obtain rfl : text = text' := Option.some.inj (htext.symm.trans htext')
  exact ⟨Option.some.inj (hplace.symm.trans hplace'), rfl⟩

/-- There is one first. -/
theorem FirstMarkedAt.unique {name' id' : Str} (h : FirstMarkedAt files place name id)
    (h' : FirstMarkedAt files place name' id') : name = name' ∧ id = id' := by
  obtain rfl : name = name' := strLe_antisymm (h.2 _ _ h'.1) (h'.2 _ _ h.1)
  exact ⟨rfl, (h.1.unique h'.1).2⟩

theorem MarkedAt.name_mem (h : MarkedAt files place name id) : name ∈ sortedNames files := by
  rcases h with ⟨bytes, -, hfile, -⟩
  rw [mem_sortedNames, ← AList.lookup_isSome, hfile]
  rfl

/-- The names are in order. -/
theorem pairwise_sortedNames (files : UnitFiles) :
    (sortedNames files).Pairwise fun a b => strLe a b = true :=
  haveI : Std.Total fun a b : Str => strLe a b = true := ⟨strLe_total⟩
  haveI : IsTrans Str fun a b => strLe a b = true := ⟨fun _ _ _ => strLe_trans⟩
  List.pairwise_insertionSort _ _

theorem mem_unitsOf_iff : unit ∈ unitsOf files ↔
    MarkedAt files unit.mountpoint unit.name unit.identifier := by
  unfold unitsOf
  rw [List.mem_filterMap]
  constructor
  · rintro ⟨name, -, hunit⟩
    rcases unitAt_eq_some_iff.mp hunit with ⟨rfl, hmarked⟩
    exact hmarked
  · intro h
    exact ⟨unit.name, h.name_mem, unitAt_eq_some_iff.mpr ⟨rfl, h⟩⟩

/-- Of two of the units, the one that comes first has the smaller name. -/
theorem pairwise_unitsOf (files : UnitFiles) :
    (unitsOf files).Pairwise fun unit other => strLe unit.name other.name = true := by
  refine List.Pairwise.filterMap (unitAt files) ?_ (pairwise_sortedNames files)
  intro name other hle unit hunit unit' hunit'
  rw [(unitAt_eq_some_iff.mp hunit).1, (unitAt_eq_some_iff.mp hunit').1]
  exact hle

theorem first_of_find? (h : (unitsOf files).find? (MarkedUnit.isAt place) = some unit) :
    unit.mountpoint = place ∧ FirstMarkedAt files place unit.name unit.identifier := by
  have hmem := mem_unitsOf_iff.mp (List.mem_of_find?_eq_some h)
  rcases List.find?_eq_some_iff_append.mp h with ⟨hplace, before, after, hsplit, hbefore⟩
  have hplace : unit.mountpoint = place := of_decide_eq_true hplace
  rw [hplace] at hmem
  refine ⟨hplace, hmem, fun other id' hother => ?_⟩
  have hsorted := pairwise_unitsOf files
  rw [hsplit, List.pairwise_append, List.pairwise_cons] at hsorted
  have hlisted : ({ name := other, mountpoint := place, identifier := id' } : MarkedUnit) ∈
      before ++ unit :: after := by
    rw [← hsplit]
    exact mem_unitsOf_iff.mpr hother
  rcases List.mem_append.mp hlisted with hin | hin
  · -- Before the first one there is none of this place.
    have hnot := hbefore _ hin
    rw [Bool.not_eq_true'] at hnot
    exact absurd (hnot.symm.trans (decide_eq_true rfl)) Bool.false_ne_true
  · rcases List.mem_cons.mp hin with heq | hin
    · rw [← heq]
      exact (strLe_total other other).elim id id
    · exact hsorted.2.1.1 _ hin

/-- The first unit that is read of a place is the first by name. -/
theorem find?_units_eq_some_iff :
    (unitsOf files).find? (MarkedUnit.isAt place) = some unit ↔
        unit.mountpoint = place ∧ FirstMarkedAt files place unit.name unit.identifier := by
  refine ⟨first_of_find?, ?_⟩
  rintro ⟨rfl, hfirst⟩
  have hlisted := mem_unitsOf_iff.mpr hfirst.1
  rcases hfind : (unitsOf files).find? (MarkedUnit.isAt unit.mountpoint) with _ | found
  · exact absurd unit.isAt_self (List.find?_eq_none.mp hfind unit hlisted)
  · rcases first_of_find? hfind with ⟨hplace, hfound⟩
    have hsame := hfound.unique hfirst
    rw [Option.some.injEq]
    exact MarkedUnit.ext hsame.1 hplace hsame.2

/-- No unit is read of a place. -/
theorem find?_units_eq_none_iff :
    (unitsOf files).find? (MarkedUnit.isAt place) = none ↔
      ∀ name id, ¬MarkedAt files place name id := by
  rw [List.find?_eq_none]
  constructor
  · intro h name id hmarked
    exact h { name := name, mountpoint := place, identifier := id } (mem_unitsOf_iff.mpr hmarked)
      (decide_eq_true rfl)
  · intro h unit hunit hplace
    have hmarked := mem_unitsOf_iff.mp hunit
    rw [of_decide_eq_true hplace] at hmarked
    exact h _ _ hmarked

end Reading

/-! ### The findings -/

section Findings

variable {configured claimed places : List Str} {mounted : Dict Str MountRow}
  {units : List MarkedUnit} {rows : List MountRow} {place : Str}

theorem lookup_foldl_insert_isSome (mounted : Dict Str MountRow) :
    ((rows.foldl (fun mounted row => mounted.insert (normpath row.mountpoint) row)
      mounted).lookup place).isSome = true ↔
        (mounted.lookup place).isSome = true ∨ ∃ row ∈ rows, normpath row.mountpoint = place := by
  induction rows generalizing mounted with
  | nil => simp
  | cons row rows ih =>
      rw [List.foldl_cons, ih, AList.lookup_isSome, AList.lookup_isSome, AList.mem_insert,
        List.exists_mem_cons_iff, or_assoc, or_left_comm, eq_comm]

/-- The mounts there are. -/
theorem lookup_mountedPlaces_isSome : ((mountedPlaces rows).lookup place).isSome = true ↔
    ∃ row ∈ rows, row.isCifs = true ∧ normpath row.mountpoint = place := by
  unfold mountedPlaces
  rw [lookup_foldl_insert_isSome]
  simp only [AList.lookup_empty, Option.isSome_none, Bool.false_eq_true, false_or, List.mem_filter,
    and_assoc]

/-- The findings of units at a place: the first unit's, when nobody has the place. -/
theorem filter_orphansFrom :
    (orphansFrom configured mounted claimed units).1.filter (Finding.isAt place) =
      if place ∈ configured ∨ place ∈ claimed then []
      else ((units.find? (MarkedUnit.isAt place)).map (orphanedFinding mounted)).toList := by
  induction units generalizing claimed with
  | nil => simp [orphansFrom]
  | cons unit units ih =>
      rw [orphansFrom]
      by_cases hheld : unit.mountpoint ∈ configured ∨ unit.mountpoint ∈ claimed
      · -- The place was told already, or is a connection's.
        rw [if_pos hheld, ih]
        by_cases hplace : place ∈ configured ∨ place ∈ claimed
        · rw [if_pos hplace, if_pos hplace]
        · have hne : ¬unit.isAt place = true := fun heq =>
            hplace (of_decide_eq_true heq ▸ hheld)
          rw [if_neg hplace, if_neg hplace, List.find?_cons_of_neg hne]
      · rw [if_neg hheld]
        dsimp only
        rw [List.filter_cons, ih]
        by_cases heq : unit.mountpoint = place
        · subst heq
          -- This is the first unit of its place, and claims it.
          rw [if_neg hheld, if_pos (Or.inr List.mem_cons_self),
            List.find?_cons_of_pos unit.isAt_self]
          exact if_pos (orphanedFinding mounted unit).isAt_self
        · have hne : ¬unit.isAt place = true := fun h => heq (of_decide_eq_true h)
          -- A unit of another place claims nothing here.
          have hclaimed : place ∈ unit.mountpoint :: claimed ↔ place ∈ claimed := by
            rw [List.mem_cons]
            exact or_iff_right (Ne.symm heq)
          rw [List.find?_cons_of_neg hne]
          simp only [hclaimed]
          exact if_neg hne

/-- The places that are claimed by then. -/
theorem mem_claimed_iff : place ∈ (orphansFrom configured mounted claimed units).2 ↔
    place ∈ claimed ∨ place ∉ configured ∧ ∃ unit ∈ units, unit.mountpoint = place := by
  induction units generalizing claimed with
  | nil => simp [orphansFrom]
  | cons unit units ih =>
      rw [orphansFrom, List.exists_mem_cons_iff]
      by_cases hheld : unit.mountpoint ∈ configured ∨ unit.mountpoint ∈ claimed
      · rw [if_pos hheld, ih]
        constructor
        · rintro (h | ⟨hnot, hlater⟩)
          · exact Or.inl h
          · exact Or.inr ⟨hnot, Or.inr hlater⟩
        · rintro (h | ⟨hnot, rfl | hlater⟩)
          · exact Or.inl h
          · -- The place is not configured, so it was claimed already.
            exact Or.inl (hheld.resolve_left hnot)
          · exact Or.inr ⟨hnot, hlater⟩
      · rw [if_neg hheld]
        dsimp only
        rw [ih, List.mem_cons]
        constructor
        · rintro ((rfl | h) | ⟨hnot, hlater⟩)
          · exact Or.inr ⟨fun hin => hheld (Or.inl hin), Or.inl rfl⟩
          · exact Or.inl h
          · exact Or.inr ⟨hnot, Or.inr hlater⟩
        · rintro (h | ⟨hnot, rfl | hlater⟩)
          · exact Or.inl (Or.inr h)
          · exact Or.inl (Or.inl rfl)
          · exact Or.inr ⟨hnot, hlater⟩

theorem filter_unmanagedFinding {other : Str} {row : Option MountRow} :
    (row.map (unmanagedFinding other)).toList.filter (Finding.isAt place) =
      if other = place then (row.map (unmanagedFinding other)).toList else [] := by
  cases row with
  | none => rw [Option.map_none, Option.toList_none, List.filter_nil, ite_self]
  | some row =>
      rw [Option.map_some, Option.toList_some]
      by_cases heq : other = place
      · have hat : (unmanagedFinding other row).isAt place = true := decide_eq_true heq
        rw [if_pos heq, List.filter_cons_of_pos hat, List.filter_nil]
      · have hat : ¬(unmanagedFinding other row).isAt place = true := fun h =>
          heq (of_decide_eq_true h)
        rw [if_neg heq, List.filter_cons_of_neg hat, List.filter_nil]

/-- The findings of mounts at a place: one, when nobody has it and it is among those. -/
theorem filter_unmanagedFrom (hnodup : places.Nodup) :
    (unmanagedFrom configured claimed mounted places).filter (Finding.isAt place) =
      if place ∈ places ∧ ¬(place ∈ configured ∨ place ∈ claimed) then
        ((mounted.lookup place).map (unmanagedFinding place)).toList
      else [] := by
  induction places with
  | nil => simp [unmanagedFrom]
  | cons other places ih =>
      rw [List.nodup_cons] at hnodup
      rw [unmanagedFrom]
      by_cases hheld : other ∈ configured ∨ other ∈ claimed
      · have hsame : (place ∈ other :: places ∧ ¬(place ∈ configured ∨ place ∈ claimed)) ↔
            place ∈ places ∧ ¬(place ∈ configured ∨ place ∈ claimed) := by
          refine and_congr_left fun hfree => ?_
          rw [List.mem_cons]
          exact or_iff_right fun heq => hfree (heq ▸ hheld)
        rw [if_pos hheld, ih hnodup.2]
        simp only [hsame]
      · rw [if_neg hheld, List.filter_append, ih hnodup.2, filter_unmanagedFinding]
        by_cases heq : other = place
        · -- It is this one, and none of the others.
          subst heq
          rw [if_pos rfl, if_neg fun h => hnodup.1 h.1, if_pos ⟨List.mem_cons_self, hheld⟩,
            List.append_nil]
        · have hsame : place ∈ other :: places ↔ place ∈ places := by
            rw [List.mem_cons]
            exact or_iff_right (Ne.symm heq)
          rw [if_neg heq, List.nil_append]
          simp only [hsame]

/-- The finding at a place, of what was read. -/
def findingAt (configured : List Str) (mounted : Dict Str MountRow) (units : List MarkedUnit)
    (place : Str) : Option Finding :=
  if place ∈ configured then none
  else
    match units.find? (MarkedUnit.isAt place) with
    | some unit => some (orphanedFinding mounted unit)
    | none => (mounted.lookup place).map (unmanagedFinding place)

/-- At a place there is this finding and no other. -/
theorem filter_findings : (findingsOf configured mounted units).filter (Finding.isAt place) =
    (findingAt configured mounted units place).toList := by
  have hnodup : (mounted.keys.insertionSort fun a b => strLe a b = true).Nodup :=
    (List.perm_insertionSort _ _).nodup_iff.mpr mounted.nodupKeys
  unfold findingsOf findingAt
  dsimp only
  rw [List.filter_append, filter_orphansFrom, filter_unmanagedFrom hnodup]
  simp only [mem_claimed_iff, List.not_mem_nil, or_false, false_or]
  by_cases hplace : place ∈ configured
  · rw [if_pos hplace, if_pos hplace, if_neg fun h => h.2 (Or.inl hplace)]
    rfl
  · rw [if_neg hplace, if_neg hplace]
    rcases hfind : units.find? (MarkedUnit.isAt place) with _ | unit
    · -- No unit claims the place, so a mount there is told by itself.
      have hfree : ¬(place ∈ configured ∨ place ∉ configured ∧
          ∃ unit ∈ units, unit.mountpoint = place) := by
        rintro (hin | ⟨-, unit, hunit, heq⟩)
        · exact hplace hin
        · exact List.find?_eq_none.mp hfind unit hunit (decide_eq_true heq)
      rw [Option.map_none, Option.toList_none, List.nil_append]
      dsimp only
      by_cases hmounted : (mounted.lookup place).isSome = true
      · have hkey : place ∈ mounted.keys.insertionSort fun a b => strLe a b = true := by
          rw [List.mem_insertionSort, ← AList.mem_keys, ← AList.lookup_isSome]
          exact hmounted
        rw [if_pos ⟨hkey, hfree⟩]
      · rw [Bool.not_eq_true, Option.isSome_eq_false_iff, Option.isNone_iff_eq_none] at hmounted
        rw [hmounted, Option.map_none, Option.toList_none, ite_self]
    · have hat : unit.isAt place = true := List.find?_some hfind
      -- A unit claims the place, and the mount is told with it.
      have hclaimed : ∃ unit ∈ units, unit.mountpoint = place :=
        ⟨unit, List.mem_of_find?_eq_some hfind, of_decide_eq_true hat⟩
      rw [if_neg fun h => h.2 (Or.inr ⟨hplace, hclaimed⟩), List.append_nil]
      rfl

theorem findingAt_mountpoint {f : Finding}
    (h : findingAt configured mounted units place = some f) : f.mountpoint = place := by
  unfold findingAt at h
  split at h
  · cases h
  · split at h
    · rename_i unit hfind
      have hat : unit.isAt place = true := List.find?_some hfind
      rw [← Option.some.inj h]
      exact of_decide_eq_true hat
    · rcases Option.map_eq_some_iff.mp h with ⟨row, -, rfl⟩
      rfl

/-- A place has a finding, one of those. -/
theorem mem_findings_iff {f : Finding} : f ∈ findingsOf configured mounted units ↔
    findingAt configured mounted units f.mountpoint = some f := by
  rw [← Option.mem_toList, ← filter_findings, List.mem_filter]
  exact (and_iff_left f.isAt_self).symm

/-- The directory a normalised path leads to: Python keeps two slashes in front, which to the
    kernel are one. -/
def rooted (place : Str) : Str :=
  if startsWith place "//" then place.drop 1 else place

/-- The finding is about a directory. -/
def Finding.isOf (directory : Str) (f : Finding) : Bool :=
  decide (rooted f.mountpoint = directory)

/-- One finding is about a directory when one spelling of it has one. -/
theorem filter_isOf_eq_singleton_iff {directory : Str} {f : Finding} :
    (findingsOf configured mounted units).filter (Finding.isOf directory) = [f] ↔
      ∃ place, rooted place = directory ∧ findingAt configured mounted units place = some f ∧
        ∀ other, rooted other = directory → findingAt configured mounted units other ≠ none →
          other = place := by
  constructor
  · intro h
    have hmem : f ∈ (findingsOf configured mounted units).filter (Finding.isOf directory) := by
      rw [h]
      exact List.mem_cons_self
    rw [List.mem_filter] at hmem
    refine ⟨f.mountpoint, of_decide_eq_true hmem.2, mem_findings_iff.mp hmem.1, ?_⟩
    intro other hother hsome
    -- Another place of the same directory would be a second finding.
    rcases Option.ne_none_iff_exists'.mp hsome with ⟨g, hg⟩
    have hplace := findingAt_mountpoint hg
    have hin : g ∈ (findingsOf configured mounted units).filter (Finding.isOf directory) := by
      rw [List.mem_filter, mem_findings_iff, hplace]
      exact ⟨hg, decide_eq_true (hplace.symm ▸ hother)⟩
    rw [h, List.mem_singleton] at hin
    rw [← hplace, hin]
  · rintro ⟨place, hspells, hf, halone⟩
    have hsame : (findingsOf configured mounted units).filter (Finding.isOf directory) =
        (findingsOf configured mounted units).filter (Finding.isAt place) := by
      refine List.filter_congr fun g hg => ?_
      have hfinding := mem_findings_iff.mp hg
      refine decide_eq_decide.mpr ⟨fun hdirectory => ?_, fun hplace => hplace ▸ hspells⟩
      exact halone g.mountpoint hdirectory (hfinding ▸ Option.some_ne_none g)
    rw [hsame, filter_findings, hf]
    rfl

end Findings

end Smbpal
