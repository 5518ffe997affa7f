import Smbpal.Mounts.Inventory
import Smbpal.Mounts.MountTable
import Smbpal.Mounts.Reaping

/-!
# Everything Accounted for Once

Every cifs mount of the kernel's table and every unit SMBPal wrote for a valid document, this or
an earlier one, is to be at a connection's mountpoint or in one finding of `survey`, which says
which of the two it is; and no finding is to be at a connection's mountpoint.

The joining is right, and the rest is what is read (`accountedOnce_iff`). A unit file that is no
UTF-8 raises, whose it is; what stands in a unit is read without the whitespace around it; the
marker may stand in anybody's file; and two slashes in front of a path, which are one to the
kernel, stay two.

## Main definitions

* `CifsAt`, `WrittenAt`, `ConfiguredAt`: What there is on a directory.
* `AccountedOnce`: That every mount and every unit is accounted for once.
* `Noticed`, `ReadRight`: What is read of a directory, and that it is what is there.

## Theorems

* `WrittenFor.markedAt`: Where a unit is read back.
* `surveyAt_tells_iff`: When a finding tells what is there.
* `accountedOnce_iff`: When everything is accounted for once.
* `readRight_of_tidy`: A machine of which everything is read right.
-/

namespace Smbpal

open Lib

section Accounted

variable [Unicode] [Decimals]

/-- The directory of a path. -/
def directoryOf (path : Str) : Str :=
  rooted (normpath path)

/-- The kernel has a cifs mount of this mountpoint. -/
def CifsMount (table : Option (List KernelMount)) (mountpoint : Str) : Prop :=
  ∃ m ∈ table.getD [], m.fstype.text = str "cifs" ∧ decodeUtf8 m.mountpoint = some mountpoint

/-- The kernel has a cifs mount on a directory. -/
def CifsAt (table : Option (List KernelMount)) (directory : Str) : Prop :=
  ∃ mountpoint, CifsMount table mountpoint ∧ directoryOf mountpoint = directory

/-- A unit file that SMBPal wrote for a connection of some valid document, which has this id and
    its mountpoint at this directory. -/
def WrittenAt (files : UnitFiles) (directory id : Str) : Prop :=
  ∃ name bytes c, files.lookup name = some (some bytes) ∧ WrittenFor c name bytes ∧
    (∃ doc : Config, doc.Valid ∧ c ∈ doc.connections) ∧
      directoryOf (pyStr c.mountpoint) = directory ∧ pyStr c.id = id

/-- A connection of the document has its mountpoint, normalised, written so. -/
def SpelledIn (config : Config) (place : Str) : Prop :=
  ∃ c ∈ config.connections, ∃ mountpoint, c.mountpoint = some mountpoint ∧
    normpath mountpoint = place

/-- A connection of the document has its mountpoint at a directory. -/
def ConfiguredAt (config : Config) (directory : Str) : Prop :=
  ∃ place, SpelledIn config place ∧ rooted place = directory

/-- A finding says what is at its directory. -/
structure TellsRight (files : UnitFiles) (table : Option (List KernelMount)) (directory : Str)
    (f : Finding) : Prop where
  orphaned : f.kind = .orphaned ↔ ∃ id, WrittenAt files directory id
  connection : f.kind = .orphaned → ∃ id, f.connectionId = some id ∧ WrittenAt files directory id
  mounted : f.mounted = true ↔ CifsAt table directory

/-- The findings account once for what no connection does, and for nothing that one does. -/
structure Accounting (config : Config) (files : UnitFiles) (table : Option (List KernelMount))
    (findings : List Finding) : Prop where
  once : ∀ directory, CifsAt table directory ∨ (∃ id, WrittenAt files directory id) →
    ConfiguredAt config directory ∨
      ∃ f, findings.filter (Finding.isOf directory) = [f] ∧ TellsRight files table directory f
  spares : ∀ f ∈ findings, ¬ConfiguredAt config (rooted f.mountpoint)

/-- `survey` returns, and accounts for everything once. -/
def AccountedOnce (config : Config) (files : UnitFiles)
    (table : Option (List KernelMount)) : Prop :=
  ∃ findings, survey config files (table.map mountTable) = .ok findings ∧
    Accounting config files table findings

/-- The table is read with a cifs mount at this place. -/
def ReadAt (table : Option (List KernelMount)) (place : Str) : Prop :=
  ∃ rows, mountEntries (table.map mountTable) = .ok (some rows) ∧
    ∃ row ∈ rows, row.isCifs = true ∧ normpath row.mountpoint = place

/-- Something is read of this place. -/
def Noticed (files : UnitFiles) (table : Option (List KernelMount)) (place : Str) : Prop :=
  ReadAt table place ∨ ∃ name id, MarkedAt files place name id

/-- What is read of a directory is what is there, all of it under one spelling. -/
structure ReadRight (files : UnitFiles) (table : Option (List KernelMount))
    (directory place : Str) : Prop where
  spells : rooted place = directory
  alone : ∀ other, rooted other = directory → Noticed files table other → other = place
  mounts : ReadAt table place ↔ CifsAt table directory
  ids : ∀ name id, FirstMarkedAt files place name id → WrittenAt files directory id
  units : ∀ id, WrittenAt files directory id → ∃ name id', MarkedAt files place name id'

end Accounted

/-! ### SMBPal's own units -/

section Written

variable {files : UnitFiles} {place name id : Str} {bytes : List UInt8} {c : Connection}

theorem behind_append {part s : Str} (h : part ≠ []) : behind part (part ++ s) = s := by
  rcases List.exists_cons_of_ne_nil h with ⟨d, rest, rfl⟩
  have hstart : (d :: rest).isPrefixOf (d :: (rest ++ s)) = true :=
    List.isPrefixOf_iff_prefix.mpr (List.prefix_append (d :: rest) s)
  rw [List.cons_append, behind, if_pos hstart, ← List.cons_append, List.drop_left]

theorem not_isSpace_of_isIdChar {d : PyChar} (h : isIdChar d = true) : isSpace d = false := by
  have htame := isTame_of_isIdChar h
  rw [isTame, Bool.and_eq_true, Bool.and_eq_true, isVisible, Bool.and_eq_true, decide_eq_true_eq,
    decide_eq_true_eq] at htame
  unfold isSpace
  exact decide_eq_false (by omega)

/-- What of a connection's id the marker can be read back by. -/
theorem pyStr_id_plain (h : c.WellFormed) :
    pyStr c.id ≠ [] ∧ chr '.' ∉ pyStr c.id ∧ ∀ d ∈ pyStr c.id, isSpace d = false := by
  cases hid : c.id with
  | none => exact ⟨by decide, by decide, by decide⟩
  | some v =>
      have hv : isId v = true := h.id v hid
      refine ⟨isId_ne_nil hv, fun hdot => ?_, fun d hd => ?_⟩
      · exact absurd (isId_chars hv _ hdot) (by decide)
      · exact not_isSpace_of_isIdChar (isId_chars hv d hd)

/-- The id of a unit is read back as it was written. -/
theorem identifierOf_unitText (h : c.WellFormed) (lines : List Str) :
    identifierOf (unitText ((marker ++ pyStr c.id ++ str ". Do not edit.") :: lines)) =
      pyStr c.id := by
  rcases pyStr_id_plain h with ⟨-, hdot, hspace⟩
  have htext : unitText ((marker ++ pyStr c.id ++ str ". Do not edit.") :: lines) =
      marker ++ (pyStr c.id ++ chr '.' :: (str " Do not edit." ++ chr '\n' :: unitText lines)) := by
    unfold unitText
    simp only [List.flatMap_cons, List.append_assoc]
    rfl
  unfold identifierOf
  rw [htext, behind_append (by decide), splitChar_append, splitChar_of_not_mem hdot]
  exact strip_of_not_space hspace

/-- A unit is read back without the whitespace around its mountpoint. -/
theorem WrittenFor.markedAt (h : WrittenFor c name bytes)
    (hfile : files.lookup name = some (some bytes)) :
    MarkedAt files (normpath (strip (pyStr c.mountpoint))) name (pyStr c.id) := by
  rcases h.readText with ⟨env, text, hunit, htext⟩
  refine ⟨bytes, text, hfile, hunit.isOurs.1, htext, hunit.isOurs.2, ?_, ?_⟩
  · rcases hunit with ⟨names, -, ⟨-, rfl⟩ | ⟨-, rfl⟩⟩
    · unfold mountText
      rw [whereOf_mountUnit h.1, Option.map_some]
    · rw [whereOf_automountUnit h.1, Option.map_some]
  · rcases hunit with ⟨names, -, ⟨-, rfl⟩ | ⟨-, rfl⟩⟩
    · exact identifierOf_unitText h.1 _
    · exact identifierOf_unitText h.1 _

variable [Unicode]

theorem WrittenAt.id_ne_nil (h : WrittenAt files place id) : id ≠ [] := by
  rcases h with ⟨name, bytes, c, -, hwritten, -, -, rfl⟩
  exact (pyStr_id_plain hwritten.1).1

end Written

/-! ### Everything once -/

section Once

variable [Unicode] [Decimals] {config : Config} {files : UnitFiles}
  {table : Option (List KernelMount)} {rows : MountTable} {place directory : Str}

omit [Decimals] in
theorem mem_configuredPlaces_iff (hvalid : config.Valid) :
    place ∈ configuredPlaces config ↔ SpelledIn config place := by
  unfold configuredPlaces SpelledIn
  rw [List.mem_map]
  constructor
  · rintro ⟨mountpoint, hmem, rfl⟩
    rcases List.mem_filterMap.mp hmem with ⟨c, hc, hsome⟩
    exact ⟨c, hc, mountpoint, (truthy_eq_some_iff.mp hsome).1, rfl⟩
  · rintro ⟨c, hc, mountpoint, hsome, rfl⟩
    have habsolute := ((hvalid.sound.connections c hc).mountpoint mountpoint hsome).absolute
    have hne : mountpoint ≠ [] := by
      rintro rfl
      exact absurd habsolute (by decide)
    exact ⟨mountpoint, List.mem_filterMap.mpr ⟨c, hc, truthy_eq_some_iff.mpr ⟨hsome, hne⟩⟩, rfl⟩

/-- The finding of a place, of what the machine has. -/
def surveyAt (config : Config) (files : UnitFiles) (rows : MountTable) (place : Str) :
    Option Finding :=
  findingAt (configuredPlaces config) (mountedPlaces (rows.getD [])) (unitsOf files) place

omit [Unicode] in
theorem survey_eq_ok_iff {file : Option (List UInt8)} {findings : List Finding} :
    survey config files file = .ok findings ↔ Decodes files ∧
      ∃ rows, mountEntries file = .ok rows ∧
        findings = findingsOf (configuredPlaces config) (mountedPlaces (rows.getD []))
          (unitsOf files) := by
  unfold survey
  constructor
  · intro h
    rcases except_bind_eq_ok.mp h with ⟨rows, hrows, h⟩
    rcases except_bind_eq_ok.mp h with ⟨units, hunits, h⟩
    rw [markedUnits_eq_ok_iff] at hunits
    refine ⟨hunits.1, rows, hrows, ?_⟩
    rw [← hunits.2]
    exact (Except.ok.inj h).symm
  · rintro ⟨hdecodes, rows, hrows, rfl⟩
    rw [hrows, markedUnits_eq_ok_iff.mpr ⟨hdecodes, rfl⟩]
    rfl

omit [Unicode] in
theorem lookup_isSome_iff_readAt (hrows : mountEntries (table.map mountTable) = .ok rows) :
    ((mountedPlaces (rows.getD [])).lookup place).isSome = true ↔ ReadAt table place := by
  rw [lookup_mountedPlaces_isSome]
  unfold ReadAt
  rw [hrows]
  cases rows with
  | none =>
      constructor
      · rintro ⟨row, hrow, -⟩
        exact absurd hrow List.not_mem_nil
      · rintro ⟨rows, h, -⟩
        cases h
  | some rows =>
      constructor
      · intro h
        exact ⟨rows, rfl, h⟩
      · rintro ⟨rows', h, hrow⟩
        cases h
        exact hrow

omit [Unicode] in
/-- At a place that no connection has there is a finding when something is read of it. -/
theorem surveyAt_ne_none_iff (hrows : mountEntries (table.map mountTable) = .ok rows)
    (hfree : place ∉ configuredPlaces config) :
    surveyAt config files rows place ≠ none ↔ Noticed files table place := by
  unfold surveyAt findingAt Noticed
  rw [if_neg hfree]
  rcases hfind : (unitsOf files).find? (MarkedUnit.isAt place) with _ | unit
  · have hnone : ¬∃ name id, MarkedAt files place name id := by
      rintro ⟨name, id, hmarked⟩
      exact find?_units_eq_none_iff.mp hfind name id hmarked
    rw [or_iff_left hnone, ← lookup_isSome_iff_readAt hrows, ← Option.isSome_iff_ne_none]
    dsimp only
    rw [Option.isSome_map]
  · have hfirst := (find?_units_eq_some_iff.mp hfind).2
    exact iff_of_true (Option.some_ne_none _) (Or.inr ⟨_, _, hfirst.1⟩)

/-- Where no connection has the place, and there is something on the directory, the finding tells
    of it exactly when what is read of the place is what is there. -/
theorem surveyAt_tells_iff (hrows : mountEntries (table.map mountTable) = .ok rows)
    (hfree : place ∉ configuredPlaces config)
    (hthere : CifsAt table directory ∨ ∃ id, WrittenAt files directory id) :
    (∃ f, surveyAt config files rows place = some f ∧ TellsRight files table directory f) ↔
      (ReadAt table place ↔ CifsAt table directory) ∧
      (∀ name id, FirstMarkedAt files place name id → WrittenAt files directory id) ∧
      ∀ id, WrittenAt files directory id → ∃ name id', MarkedAt files place name id' := by
  unfold surveyAt findingAt
  rw [if_neg hfree]
  rcases hfind : (unitsOf files).find? (MarkedUnit.isAt place) with _ | unit
  · -- No unit is read of the place, and a mount is all there can be.
    have hnone := find?_units_eq_none_iff.mp hfind
    dsimp only
    constructor
    · rintro ⟨f, hf, htells⟩
      rcases Option.map_eq_some_iff.mp hf with ⟨row, hrow, rfl⟩
      have hread : ReadAt table place :=
        (lookup_isSome_iff_readAt hrows).mp (Option.isSome_of_eq_some hrow)
      refine ⟨iff_of_true hread (htells.mounted.mp rfl), ?_, ?_⟩
      · intro name id hfirst
        exact absurd hfirst.1 (hnone name id)
      · intro id hwritten
        have hkind : FindingKind.unmanaged = .orphaned := htells.orphaned.mpr ⟨id, hwritten⟩
        cases hkind
    · rintro ⟨hmounts, -, hunits⟩
      have hunwritten : ¬∃ id, WrittenAt files directory id := by
        rintro ⟨id, hwritten⟩
        rcases hunits id hwritten with ⟨name, id', hmarked⟩
        exact hnone name id' hmarked
      have hcifs := hthere.resolve_right hunwritten
      rcases Option.isSome_iff_exists.mp
        ((lookup_isSome_iff_readAt hrows).mpr (hmounts.mpr hcifs)) with ⟨row, hrow⟩
      refine ⟨unmanagedFinding place row, by rw [hrow, Option.map_some], ?_, ?_, ?_⟩
      · refine iff_of_false ?_ hunwritten
        intro hkind
        cases hkind
      · intro hkind
        cases hkind
      · exact iff_of_true rfl hcifs
  · obtain ⟨rfl, hfirst⟩ := find?_units_eq_some_iff.mp hfind
    have hmounted : (orphanedFinding (mountedPlaces (rows.getD [])) unit).mounted = true ↔
        ReadAt table unit.mountpoint :=
      lookup_isSome_iff_readAt hrows
    dsimp only
    constructor
    · rintro ⟨f, hf, htells⟩
      rw [← Option.some.inj hf] at htells
      rcases htells.connection rfl with ⟨id, hid, hwritten⟩
      have hsame : unit.identifier = id := by
        by_cases hnil : unit.identifier = []
        · have hnone : (none : Option Str) = some id := (if_pos hnil).symm.trans hid
          cases hnone
        · exact Option.some.inj ((if_neg hnil).symm.trans hid)
      refine ⟨hmounted.symm.trans htells.mounted, ?_, ?_⟩
      · intro name id' hother
        rw [(hother.unique hfirst).2, hsame]
        exact hwritten
      · intro id' _
        exact ⟨unit.name, unit.identifier, hfirst.1⟩
    · rintro ⟨hmounts, hids, -⟩
      have hwritten := hids _ _ hfirst
      refine ⟨_, rfl, iff_of_true rfl ⟨unit.identifier, hwritten⟩, ?_, hmounted.trans hmounts⟩
      intro _
      exact ⟨unit.identifier, if_neg hwritten.id_ne_nil, hwritten⟩

/-- The findings account for what there is exactly when what is read of a connection's directory is
    spelled as the connection spells it, and what is read of any other is what is there. -/
theorem accounting_iff (hvalid : config.Valid)
    (hrows : mountEntries (table.map mountTable) = .ok rows) :
    Accounting config files table (findingsOf (configuredPlaces config)
      (mountedPlaces (rows.getD [])) (unitsOf files)) ↔
        (∀ place, Noticed files table place → ConfiguredAt config (rooted place) →
          SpelledIn config place) ∧
        ∀ directory, ¬ConfiguredAt config directory →
          CifsAt table directory ∨ (∃ id, WrittenAt files directory id) →
            ∃ place, ReadRight files table directory place := by
  -- A place spelled in the config is one that is configured.
  have hout : ∀ {place directory}, ¬ConfiguredAt config directory → rooted place = directory →
      place ∉ configuredPlaces config := fun hfree hspells hin =>
    hfree ⟨_, (mem_configuredPlaces_iff hvalid).mp hin, hspells⟩
  constructor
  · intro h
    constructor
    · intro place hnoticed hconfigured
      by_contra hspelled
      -- Something is noticed there, so the survey has a finding of it.
      rw [← mem_configuredPlaces_iff hvalid] at hspelled
      rcases Option.ne_none_iff_exists'.mp
        ((surveyAt_ne_none_iff hrows hspelled).mpr hnoticed) with ⟨f, hf⟩
      have hplace : f.mountpoint = place := findingAt_mountpoint hf
      subst hplace
      exact h.spares f (mem_findings_iff.mpr hf) hconfigured
    · intro directory hfree hthere
      rcases h.once directory hthere with hconfigured | ⟨f, hf, htells⟩
      · exact absurd hconfigured hfree
      · -- One finding of the directory means one spelling of it that is noticed.
        rcases filter_isOf_eq_singleton_iff.mp hf with ⟨place, hspells, hsome, halone⟩
        rcases (surveyAt_tells_iff hrows (hout hfree hspells) hthere).mp ⟨f, hsome, htells⟩ with
          ⟨hmounts, hids, hunits⟩
        refine ⟨place, hspells, fun other hother hnoticed => halone other hother ?_, hmounts, hids,
          hunits⟩
        exact (surveyAt_ne_none_iff hrows (hout hfree hother)).mpr hnoticed
  · rintro ⟨hspelled, hright⟩
    constructor
    · intro directory hthere
      by_cases hconfigured : ConfiguredAt config directory
      · exact Or.inl hconfigured
      · rcases hright directory hconfigured hthere with ⟨place, h⟩
        rcases (surveyAt_tells_iff hrows (hout hconfigured h.spells) hthere).mpr
          ⟨h.mounts, h.ids, h.units⟩ with ⟨f, hf, htells⟩
        refine Or.inr ⟨f, filter_isOf_eq_singleton_iff.mpr ⟨place, h.spells, hf, ?_⟩, htells⟩
        intro other hother hsome
        exact h.alone other hother
          ((surveyAt_ne_none_iff hrows (hout hconfigured hother)).mp hsome)
    · intro f hf hconfigured
      have hfinding : surveyAt config files rows f.mountpoint = some f := mem_findings_iff.mp hf
      -- Nothing is found at a place that is configured.
      have hfree : f.mountpoint ∉ configuredPlaces config := by
        intro hin
        unfold surveyAt findingAt at hfinding
        rw [if_pos hin] at hfinding
        cases hfinding
      have hnoticed := (surveyAt_ne_none_iff hrows hfree).mp (hfinding ▸ Option.some_ne_none f)
      exact hfree ((mem_configuredPlaces_iff hvalid).mpr (hspelled _ hnoticed hconfigured))

/-- Everything is accounted for once exactly when every unit file that can be opened is UTF-8, the
    table can be read, what is read of a connection's directory is spelled as the connection spells
    it, and what is read of any other on which there is something is what is there: a cifs mount
    just when there is one, a unit with the marker where SMBPal wrote one, and with the id of one
    of those in the first of them by name. -/
theorem accountedOnce_iff (hvalid : config.Valid) : AccountedOnce config files table ↔
    Decodes files ∧ (∃ rows, mountEntries (table.map mountTable) = .ok rows) ∧
      (∀ place, Noticed files table place → ConfiguredAt config (rooted place) →
        SpelledIn config place) ∧
      ∀ directory, ¬ConfiguredAt config directory →
        CifsAt table directory ∨ (∃ id, WrittenAt files directory id) →
          ∃ place, ReadRight files table directory place := by
  constructor
  · rintro ⟨findings, hsurvey, haccounts⟩
    rcases survey_eq_ok_iff.mp hsurvey with ⟨hdecodes, rows, hrows, rfl⟩
    exact ⟨hdecodes, ⟨rows, hrows⟩, (accounting_iff hvalid hrows).mp haccounts⟩
  · rintro ⟨hdecodes, ⟨rows, hrows⟩, hright⟩
    exact ⟨_, survey_eq_ok_iff.mpr ⟨hdecodes, rows, hrows, rfl⟩,
      (accounting_iff hvalid hrows).mpr hright⟩

/-! ### Tidy machines -/

omit [Unicode] [Decimals] in
/-- A row that is read is at its mount's place. -/
theorem decodeUtf8_of_reads {m : KernelMount} {row : MountRow} (h : RowReads m row)
    (hplain : IsPlain row.mountpoint) : decodeUtf8 m.mountpoint = some row.mountpoint := by
  have hencode := hplain.encode_eq
  have hsame : utf8 row.mountpoint = m.mountpoint :=
    Option.some.inj ((fsEncode_of_encode hencode).symm.trans h.mountpoint)
  exact decodeUtf8_of_encode (hsame ▸ hencode)

omit [Unicode] [Decimals] in
/-- A mount for every row. -/
theorem exists_mount {mounts : List KernelMount} {rows : List MountRow}
    (h : List.Forall₂ RowReads mounts rows) {row : MountRow} (hrow : row ∈ rows) :
    ∃ m ∈ mounts, RowReads m row := by
  induction h with
  | nil => exact absurd hrow List.not_mem_nil
  | cons hread _ ih =>
      rcases List.mem_cons.mp hrow with rfl | hrow
      · exact ⟨_, List.mem_cons_self, hread⟩
      · rcases ih hrow with ⟨m, hm, hread⟩
        exact ⟨m, List.mem_cons_of_mem _ hm, hread⟩

omit [Unicode] in
/-- Of a table of readable names the cifs mounts are read where they are. -/
theorem readAt_iff_cifsMount {mounts : List KernelMount}
    (h : ∀ m ∈ mounts, ReadableName m.mountpoint ∧ ReadableName m.source) :
    ReadAt (some mounts) place ↔
      ∃ mountpoint, CifsMount (some mounts) mountpoint ∧ normpath mountpoint = place := by
  rcases (mountTable_readBack_iff mounts).mpr h with ⟨rows, hrows, hreads⟩
  -- A row and the mount it was read from have the same place and kind.
  have hname : ∀ m row, RowReads m row → row ∈ rows →
      decodeUtf8 m.mountpoint = some row.mountpoint := fun m row hread hrow =>
    decodeUtf8_of_reads hread (mountEntries_readable hrows hrow).1.2
  have hkind : ∀ m row, RowReads m row → (row.isCifs = true ↔ m.fstype.text = str "cifs") := by
    intro m row hread
    unfold MountRow.isCifs
    rw [decide_eq_true_eq, hread.fstype]
  constructor
  · rintro ⟨rows', hrows', row, hrow, hcifs, hplace⟩
    obtain rfl : rows = rows' := Option.some.inj (Except.ok.inj (hrows.symm.trans hrows'))
    rcases exists_mount hreads hrow with ⟨m, hm, hread⟩
    exact ⟨row.mountpoint, ⟨m, hm, (hkind m row hread).mp hcifs, hname m row hread hrow⟩, hplace⟩
  · rintro ⟨mountpoint, ⟨m, hm, hcifs, hdecode⟩, hplace⟩
    rcases exists_row hreads hm with ⟨row, hrow, hread⟩
    have hsame : row.mountpoint = mountpoint :=
      Option.some.inj ((hname m row hread hrow).symm.trans hdecode)
    exact ⟨rows, hrows, row, hrow, (hkind m row hread).mpr hcifs, hsame ▸ hplace⟩

/-- Where all names in the table are readable, nobody but SMBPal has its marker, and no mountpoint
    has whitespace around it or two slashes in front, what is read is what is there. -/
theorem readRight_of_tidy {mounts : List KernelMount}
    (hnames : ∀ m ∈ mounts, ReadableName m.mountpoint ∧ ReadableName m.source)
    (hours : ∀ name bytes, files.lookup name = some (some bytes) → Marked bytes →
      ∃ c, WrittenFor c name bytes ∧ ∃ doc : Config, doc.Valid ∧ c ∈ doc.connections)
    (hplain : ∀ name bytes c, files.lookup name = some (some bytes) → WrittenFor c name bytes →
      normpath (strip (pyStr c.mountpoint)) = normpath (pyStr c.mountpoint))
    (hslash : ∀ place, Noticed files (some mounts) place → rooted place = place)
    (hthere : CifsAt (some mounts) directory ∨ ∃ id, WrittenAt files directory id) :
    ReadRight files (some mounts) directory directory := by
  -- A unit the program wrote is read back with the place it was written for.
  have hmarked : ∀ {name bytes c}, files.lookup name = some (some bytes) →
      WrittenFor c name bytes → MarkedAt files (normpath (pyStr c.mountpoint)) name (pyStr c.id) :=
    fun {name bytes c} hfile hwritten =>
      hplain name bytes c hfile hwritten ▸ hwritten.markedAt hfile
  have hunits : ∀ id, WrittenAt files directory id →
      ∃ name id', MarkedAt files directory name id' := by
    rintro id ⟨name, bytes, c, hfile, hwritten, -, hdirectory, -⟩
    have hat := hmarked hfile hwritten
    rw [← hslash _ (Or.inr ⟨_, _, hat⟩)] at hat
    exact ⟨name, pyStr c.id, hdirectory ▸ hat⟩
  -- The mounts that are read are those the kernel has, in their one spelling.
  have hmounts : ReadAt (some mounts) directory ↔ CifsAt (some mounts) directory := by
    rw [readAt_iff_cifsMount hnames]
    constructor
    · rintro ⟨mountpoint, hmount, rfl⟩
      refine ⟨mountpoint, hmount, hslash _ (Or.inl ?_)⟩
      exact (readAt_iff_cifsMount hnames).mpr ⟨mountpoint, hmount, rfl⟩
    · rintro ⟨mountpoint, hmount, rfl⟩
      refine ⟨mountpoint, hmount, (hslash _ (Or.inl ?_)).symm⟩
      exact (readAt_iff_cifsMount hnames).mpr ⟨mountpoint, hmount, rfl⟩
  have hnoticed : Noticed files (some mounts) directory := by
    rcases hthere with hcifs | ⟨id, hwritten⟩
    · exact Or.inl (hmounts.mpr hcifs)
    · exact Or.inr (hunits id hwritten)
  refine ⟨hslash directory hnoticed, fun other hother hothers => ?_, hmounts, ?_, hunits⟩
  · rw [← hother, hslash other hothers]
  · rintro name id ⟨⟨bytes, text, hfile, hunit, htext, hmarker, hplace, hid⟩, -⟩
    rcases hours name bytes hfile ⟨text, htext, hmarker⟩ with ⟨c, hwritten, hdoc⟩
    -- A unit with the marker was written by the program, so its id is right.
    have hsame := MarkedAt.unique ⟨bytes, text, hfile, hunit, htext, hmarker, hplace, hid⟩
      (hmarked hfile hwritten)
    refine ⟨name, bytes, c, hfile, hwritten, hdoc, ?_, hsame.2.symm⟩
    change rooted (normpath (pyStr c.mountpoint)) = directory
    rw [← hsame.1]
    exact hslash directory hnoticed

end Once

section Examples

attribute [local instance] Unicode.ascii Decimals.ascii

/-- The directory has one file. -/
theorem lookup_one_iff {name other : Str} {bytes : List UInt8} {file : Option (List UInt8)} :
    (AList.singleton name (some bytes) : UnitFiles).lookup other = some file ↔
      other = name ∧ file = some bytes := by
  rw [← Option.mem_def, AList.mem_lookup_iff, AList.singleton_entries, List.mem_singleton]
  constructor
  · intro h
    cases h
    exact ⟨rfl, rfl⟩
  · rintro ⟨rfl, rfl⟩
    rfl

/-- A share somebody mounted by hand. -/
def theirMount : KernelMount :=
  { mountOf (utf8 (str "/mnt/theirs")) (utf8 (str "//elsewhere/Stuff")) with
    fstype := { text := str "cifs", nonempty := by decide, printable := by decide
                plain := by decide } }

/-- It is accounted for beside music's connection. -/
theorem their_mount_accounted : (musicConfig "/mnt/music").Valid ∧
    AccountedOnce (musicConfig "/mnt/music") ∅ (some [theirMount]) := by
  have hvalid : (musicConfig "/mnt/music").Valid := by decide +kernel
  have hnames : ∀ m ∈ [theirMount], ReadableName m.mountpoint ∧ ReadableName m.source := by
    intro m hm
    rw [List.mem_singleton.mp hm]
    exact ⟨⟨str "/mnt/theirs", by decide, by decide⟩,
      ⟨str "//elsewhere/Stuff", by decide, by decide⟩⟩
  have hrows : ∃ rows, mountEntries (some (mountTable [theirMount])) = .ok rows := by
    rcases (mountTable_readBack_iff _).mpr hnames with ⟨rows, hrows, -⟩
    exact ⟨_, hrows⟩
  -- Nothing but the one mount is noticed.
  have hnoticed : ∀ place, Noticed ∅ (some [theirMount]) place → place = str "/mnt/theirs" := by
    rintro place (hread | ⟨name, id, bytes, text, hfile, -⟩)
    · rcases (readAt_iff_cifsMount hnames).mp hread with ⟨mountpoint, ⟨m, hm, -, hdecode⟩, rfl⟩
      rw [List.mem_singleton.mp hm] at hdecode
      have hsame : decodeUtf8 theirMount.mountpoint = some (str "/mnt/theirs") := by decide
      rw [← Option.some.inj (hsame.symm.trans hdecode)]
      decide
    · cases hfile
  refine ⟨hvalid, (accountedOnce_iff hvalid).mpr ⟨?_, hrows, ?_, ?_⟩⟩
  · intro name bytes hfile
    cases hfile
  · rintro place hplace ⟨other, ⟨c, hc, mountpoint, hsome, rfl⟩, hroot⟩
    rw [hnoticed place hplace] at hroot
    rw [List.mem_singleton.mp hc] at hsome
    rw [← Option.some.inj hsome] at hroot
    exact absurd hroot (by decide)
  · intro directory _ hthere
    refine ⟨directory, readRight_of_tidy hnames (fun name bytes hfile => ?_)
      (fun name bytes c hfile => ?_) (fun place hplace => ?_) hthere⟩
    · cases hfile
    · cases hfile
    · rw [hnoticed place hplace]
      decide

/-- Somebody else's unit in Latin-1, and no survey of the machine returns. -/
theorem latin1_unit_unsurveyed : emptyConfig.Valid ∧
    ¬AccountedOnce emptyConfig (AList.singleton (str "backup.mount") (some latin1Unit))
    (some []) := by
  refine ⟨by decide, ?_⟩
  rintro ⟨findings, hsurvey, -⟩
  have hread := (survey_eq_ok_iff.mp hsurvey).1 (str "backup.mount") latin1Unit
    (lookup_one_iff.mpr ⟨rfl, rfl⟩) (by decide)
  exact hread (by decide +kernel)

end Examples

end Smbpal
