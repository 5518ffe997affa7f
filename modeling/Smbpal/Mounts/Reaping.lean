import Smbpal.Mounts.ApplyRun
import Smbpal.Mounts.UnitsRead

/-!
# What an Apply Removes

When everything works, an apply with the document that was there before is to remove SMBPal's
own unit files under the names of the units of that document and not of the new one, and to let
files that are not SMBPal's, and units of neither document, be.

The code compares the mountpoints it reads out of the files with those of the documents, and not
the names; it reads every unit file that is not wanted as UTF-8; and it writes the wanted units
whatever there is under their names (`reaps_exactly_iff`).

## Main definitions

* `Marked`, `WrittenFor`: SMBPal's unit files, as it writes them.
* `ReapsExactly`: That an apply removes what it should, and returns.
* `Writable`: A connection whose units can be written.
* `SamePlace`: That a unit of one connection is taken for one at another's mountpoint.

## Theorems

* `canWrite_iff`: Which units can be written.
* `WrittenFor.readText`: A unit file is read as it was written.
* `reaps_exactly_iff`: When an apply removes what it should.
-/

namespace Smbpal

open Lib

/-- A file with SMBPal's marker in it. -/
def Marked (bytes : List UInt8) : Prop :=
  ∃ text, readText bytes = some text ∧ contains marker text = true

/-- A unit file as SMBPal writes it for a connection the schema admits. -/
def WrittenFor (c : Connection) (name : Str) (bytes : List UInt8) : Prop :=
  c.WellFormed ∧ ∃ env text, UnitText env c name text ∧ writeText text = some bytes

section Reaping

variable [Unicode]

/-- An apply returns, removes SMBPal's files under the names of units of the document before and
    not of the new one, and lets the others be. -/
structure ReapsExactly (env : WorkingHost) (updated previous : Config)
    (files : Dict Str (List UInt8)) : Prop where
  returns : ∃ planned, (applied env updated previous files).1 = .ok planned
  removes : ∀ name, name ∈ (applied env updated previous files).2.removed ↔
    (∃ bytes, files.lookup name = some bytes ∧ Marked bytes) ∧
      ¬UnitOfNone previous.connections name ∧ UnitOfNone updated.connections name
  spares : ∀ name bytes, files.lookup name = some bytes →
    ¬Marked bytes ∨ (UnitOfNone previous.connections name ∧ UnitOfNone updated.connections name) →
      name ∉ (applied env updated previous files).2.rewritten ∧
        name ∉ (applied env updated previous files).2.stopped ∧
        name ∉ (applied env updated previous files).2.removed

/-- A connection with a mountpoint, and without lone surrogates in what its units say. -/
def Writable (c : Connection) : Prop :=
  ∃ mountpoint, c.mountpoint = some mountpoint ∧ IsPlain mountpoint ∧ IsPlain (pyStr c.host) ∧
    IsPlain (pyStr c.share)

/-- Without the whitespace around it, a connection's mountpoint is another's once both are
    normalised. -/
def SamePlace (c d : Connection) : Prop :=
  ∃ mountpoint, truthy d.mountpoint = some mountpoint ∧
    normpath mountpoint = normpath (strip (pyStr c.mountpoint))

/-! ### The characters of a unit -/

variable {P : PyChar → Prop} {c : Connection}

omit [Unicode] in
theorem forall_unitText (hend : P (chr '\n')) {lines : List Str} :
    (∀ d ∈ unitText lines, P d) ↔ ∀ line ∈ lines, ∀ d ∈ line, P d := by
  unfold unitText
  constructor
  · intro h line hline d hd
    exact h d (List.mem_flatMap.mpr ⟨line, hline, List.mem_append_left _ hd⟩)
  · intro h d hd
    rcases List.mem_flatMap.mp hd with ⟨line, hline, hd⟩
    rcases List.mem_append.mp hd with hd | hd
    · exact h line hline d hd
    · exact List.mem_singleton.mp hd ▸ hend

omit [Unicode] in
/-- A literal without a carriage return. -/
theorem forall_str (hP : ∀ e : Char, e ≠ '\r' → P (chr e)) {s : String} (h : '\r' ∉ s.toList) :
    ∀ d ∈ str s, P d := by
  intro d hd
  rcases List.mem_map.mp hd with ⟨e, he, rfl⟩
  exact hP e (ne_of_mem_of_not_mem he h)

omit [Unicode] in
theorem forall_visible (hP : ∀ e : Char, e ≠ '\r' → P (chr e)) {d : PyChar}
    (h : isVisible d = true) : P d := by
  rw [isVisible, Bool.and_eq_true, decide_eq_true_eq, decide_eq_true_eq] at h
  cases d with
  | scalar e =>
      refine hP e ?_
      rintro rfl
      exact absurd h.1 (by decide)
  | surrogate n =>
      have hord : ord (.surrogate n) = 0xD800 + n.val := rfl
      omega

omit [Unicode] in
theorem forall_marker (hP : ∀ e : Char, e ≠ '\r' → P (chr e)) (h : c.WellFormed) :
    ∀ d ∈ marker ++ pyStr c.id ++ str ". Do not edit.", P d := by
  have hid : ∀ d ∈ pyStr c.id, P d := by
    cases hfield : c.id with
    | none => exact forall_str hP (by decide)
    | some v =>
        intro d hd
        have htame := isTame_of_isIdChar (isId_chars (h.id v hfield) d hd)
        rw [isTame, Bool.and_eq_true, Bool.and_eq_true] at htame
        exact forall_visible hP htame.1.1
  rw [List.forall_mem_append, List.forall_mem_append]
  exact ⟨⟨forall_str hP (by decide), hid⟩, forall_str hP (by decide)⟩

omit [Unicode] in
/-- What holds of every character but a carriage return holds of a mount unit's when it holds of
    the host's, the share's and the mountpoint's. -/
theorem forall_mountText (hP : ∀ e : Char, e ≠ '\r' → P (chr e)) (env : Accounts)
    (h : c.WellFormed) :
    (∀ d ∈ mountText env c, P d) ↔
      (∀ d ∈ pyStr c.host, P d) ∧ (∀ d ∈ pyStr c.share, P d) ∧ ∀ d ∈ pyStr c.mountpoint, P d := by
  -- The options are the program's own words and numbers.
  have hoptions : ∀ d ∈ mountOptions (ownerIdsIn env c) (credentialsPathIn env c), P d := by
    intro d hd
    have htame := mountOptions_tame (ownerIdsIn env c) (credentialsPathIn_tame env h) d hd
    rw [isTame, Bool.and_eq_true, Bool.and_eq_true] at htame
    exact forall_visible hP htame.1.1
  have hsource : (∀ d ∈ mountSource c, P d) ↔ (∀ d ∈ pyStr c.host, P d) ∧
      ∀ d ∈ pyStr c.share, P d := by
    unfold mountSource
    rw [List.forall_mem_append, List.forall_mem_append, List.forall_mem_append]
    exact ⟨fun hall => ⟨hall.1.1.2, hall.2⟩, fun hboth =>
      ⟨⟨⟨forall_str hP (by decide), hboth.1⟩, forall_str hP (by decide)⟩, hboth.2⟩⟩
  have hlit : ∀ {s : String} {t : Str}, '\r' ∉ s.toList → (∀ d ∈ t, P d) → ∀ d ∈ str s ++ t, P d :=
    fun hs ht => List.forall_mem_append.mpr ⟨forall_str hP hs, ht⟩
  unfold mountText mountUnit
  rw [forall_unitText (hP '\n' (by decide)), ← and_assoc, ← hsource]
  simp only [List.forall_mem_cons]
  -- Of all the lines only two have something of the record in them.
  constructor
  · rintro ⟨-, -, -, -, -, -, -, -, -, hwhat, hwhere, -⟩
    exact ⟨(List.forall_mem_append.mp hwhat).2, (List.forall_mem_append.mp hwhere).2⟩
  · rintro ⟨hwhat, hwhere⟩
    exact ⟨forall_marker hP h, forall_str hP (by decide), hlit (by decide) hwhat,
      forall_str hP (by decide), forall_str hP (by decide), forall_str hP (by decide),
      forall_str hP (by decide), fun d hd => absurd hd List.not_mem_nil, forall_str hP (by decide),
      hlit (by decide) hwhat, hlit (by decide) hwhere, forall_str hP (by decide),
      hlit (by decide) hoptions, fun line hline => absurd hline List.not_mem_nil⟩

omit [Unicode] in
/-- And of an automount unit's when it holds of the mountpoint's. -/
theorem forall_automountUnit (hP : ∀ e : Char, e ≠ '\r' → P (chr e)) (h : c.WellFormed) :
    (∀ d ∈ automountUnit c, P d) ↔ ∀ d ∈ pyStr c.mountpoint, P d := by
  have hlit : ∀ {s : String} {t : Str}, '\r' ∉ s.toList → (∀ d ∈ t, P d) → ∀ d ∈ str s ++ t, P d :=
    fun hs ht => List.forall_mem_append.mpr ⟨forall_str hP hs, ht⟩
  unfold automountUnit
  rw [forall_unitText (hP '\n' (by decide))]
  simp only [List.forall_mem_cons]
  constructor
  · rintro ⟨-, -, -, -, -, hwhere, -⟩
    exact (List.forall_mem_append.mp hwhere).2
  · intro hwhere
    exact ⟨forall_marker hP h, forall_str hP (by decide), hlit (by decide) hwhere,
      fun d hd => absurd hd List.not_mem_nil, forall_str hP (by decide),
      hlit (by decide) hwhere, forall_str hP (by decide), forall_str hP (by decide),
      forall_str hP (by decide), fun d hd => absurd hd List.not_mem_nil, forall_str hP (by decide),
      forall_str hP (by decide), fun line hline => absurd hline List.not_mem_nil⟩

/-! ### What an apply needs -/

omit [Unicode] in
/-- The units that can be written. -/
theorem canWrite_iff (env : Accounts) (h : c.WellFormed) : CanWrite env c ↔ Writable c := by
  have hP : ∀ e : Char, e ≠ '\r' → ∃ d, chr e = .scalar d := fun e _ => ⟨e, rfl⟩
  unfold CanWrite Writable
  rw [encode_ne_none_iff, encode_ne_none_iff]
  unfold IsPlain
  rw [forall_mountText hP env h, forall_automountUnit hP h]
  constructor
  · rintro ⟨names, hnames, ⟨hhost, hshare, hplace⟩, -⟩
    rcases mountpointOf_of_namesOf hnames with ⟨mountpoint, hsome, -⟩
    rw [hsome] at hplace
    exact ⟨mountpoint, hsome, hplace, hhost, hshare⟩
  · rintro ⟨mountpoint, hsome, hplace, hhost, hshare⟩
    rcases Option.isSome_iff_exists.mp ((unitNames_isSome_iff mountpoint).mpr hplace) with
      ⟨names, hnames⟩
    have hown : namesOf c = .ok names := by
      unfold namesOf
      rw [hsome, Option.bind_some, hnames]
    rw [hsome]
    exact ⟨names, hown, ⟨hhost, hshare, hplace⟩, hplace⟩

omit [Unicode] in
/-- A unit file is read as it was written. -/
theorem WrittenFor.readText {name : Str} {bytes : List UInt8} (h : WrittenFor c name bytes) :
    ∃ env text, UnitText env c name text ∧ Smbpal.readText bytes = some text := by
  rcases h with ⟨hwf, env, text, hunit, hbytes⟩
  refine ⟨env, text, hunit, readText_writeText hbytes fun hcr => ?_⟩
  have hP : ∀ e : Char, e ≠ '\r' → chr e ≠ chr '\r' := fun e he heq => he (PyChar.scalar.inj heq)
  have hhost : ∀ d ∈ pyStr c.host, d ≠ chr '\r' := fun d hd heq =>
    not_mem_pyStr hwf.host (fun v hv => hv.not_mem (by decide)) (by decide) (heq ▸ hd)
  have hshare : ∀ d ∈ pyStr c.share, d ≠ chr '\r' := fun d hd heq =>
    not_mem_pyStr hwf.share (fun v hv => hv.not_mem (by decide)) (by decide) (heq ▸ hd)
  have hplace : ∀ d ∈ pyStr c.mountpoint, d ≠ chr '\r' := fun d hd heq =>
    not_mem_pyStr hwf.mountpoint (fun v hv => hv.noLine.2) (by decide) (heq ▸ hd)
  rcases hunit with ⟨names, -, ⟨-, rfl⟩ | ⟨-, rfl⟩⟩
  · exact (forall_mountText hP env hwf).mpr ⟨hhost, hshare, hplace⟩ _ hcr rfl
  · exact (forall_automountUnit hP hwf).mpr hplace _ hcr rfl

omit [Unicode] in
theorem foundAgain_iff {updated previous : Config} :
    FoundAgain previous updated c ↔
      ∃ d ∈ updated.connections ++ previous.connections, SamePlace c d := by
  unfold FoundAgain mayRemove untouched SamePlace
  rw [decide_eq_true_eq, List.mem_map]
  constructor
  · rintro ⟨mountpoint, hmem, hplace⟩
    rcases List.mem_filterMap.mp hmem with ⟨d, hd, hsome⟩
    exact ⟨d, hd, mountpoint, hsome, hplace⟩
  · rintro ⟨d, hd, mountpoint, hsome, hplace⟩
    exact ⟨mountpoint, List.mem_filterMap.mpr ⟨d, hd, hsome⟩, hplace⟩

variable {env : WorkingHost} {updated previous : Config} {files : Dict Str (List UInt8)}
  {name : Str} {bytes : List UInt8}

omit [Unicode] in
theorem WrittenFor.marked (h : WrittenFor c name bytes) : Marked bytes := by
  rcases h.readText with ⟨env, text, hunit, htext⟩
  exact ⟨text, htext, hunit.isOurs.2⟩

omit [Unicode] in
/-- A unit file that is nobody's goes when its mountpoint is one of the documents'. -/
theorem reaped_iff (h : WrittenFor c name bytes) (hfile : files.lookup name = some bytes)
    (hnone : UnitOfNone updated.connections name) :
    Reaped updated previous files name ↔
      ∃ d ∈ updated.connections ++ previous.connections, SamePlace c d := by
  rcases h.readText with ⟨env, text, hunit, htext⟩
  rw [← foundAgain_iff, ← hunit.belongs_iff h.1]
  constructor
  · rintro ⟨bytes', text', hfile', htext', -, -, hbelongs⟩
    rw [hfile, Option.some.injEq] at hfile'
    rw [← hfile', htext, Option.some.injEq] at htext'
    rwa [htext']
  · intro hbelongs
    exact ⟨bytes, text, hfile, htext, hunit.isOurs, hnone, hbelongs⟩

omit [Unicode] in
/-- A marked file can be read. -/
theorem canSweep_of_unmarked (h : ∀ name bytes, files.lookup name = some bytes → ¬Marked bytes →
    isUnitFile name = true → readText bytes ≠ none) : CanSweep updated files := by
  intro name bytes hfile hunit _
  by_cases hmarked : Marked bytes
  · rcases hmarked with ⟨text, htext, -⟩
    exact htext ▸ Option.some_ne_none text
  · exact h name bytes hfile hmarked hunit

/-- An apply removes what it should exactly when the units of the new document can be written and
    stand in nobody else's place, every other unit file can be read, and each of SMBPal's own that
    is not wanted names a mountpoint of one of the documents just when its name is of the one
    before. -/
theorem reaps_exactly_iff (hvalid : updated.Valid)
    (hours : ∀ name bytes, files.lookup name = some bytes → Marked bytes →
      ∃ c, WrittenFor c name bytes)
    (hfree : ∀ c ∈ updated.connections, Free env c) :
    ReapsExactly env updated previous files ↔
      (∀ c ∈ updated.connections, Writable c) ∧
      (∀ name bytes, files.lookup name = some bytes → ¬Marked bytes →
        UnitOfNone updated.connections name ∧ (isUnitFile name = true → readText bytes ≠ none)) ∧
      ∀ name bytes c, files.lookup name = some bytes → WrittenFor c name bytes →
        UnitOfNone updated.connections name →
          ((∃ d ∈ updated.connections ++ previous.connections, SamePlace c d) ↔
            ¬UnitOfNone previous.connections name) := by
  have hwf := hvalid.sound.connections
  have hwritable : (∀ c ∈ updated.connections, CanWrite env.accounts c) ↔
      ∀ c ∈ updated.connections, Writable c :=
    forall_congr' fun c => imp_congr_right fun hc => canWrite_iff env.accounts (hwf c hc)
  rw [← hwritable]
  constructor
  · intro h
    -- It returns, so everything could be written and read, and the run is the one computed.
    have hcan : (∀ c ∈ updated.connections, CanWrite env.accounts c) ∧ CanSweep updated files := by
      by_contra hnot
      rcases h.returns with ⟨planned, hok⟩
      have hraise : ∃ e, (applied env updated previous files).1 = .error e :=
        run_mounterApply_error hwf hfree hnot
      rcases hraise with ⟨e, herror⟩
      rw [hok] at herror
      cases herror
    have hrun := @run_mounterApply _ env updated previous files hwf hfree hcan.1 hcan.2
    rcases hrun with ⟨-, hrewritten, hremoved, -⟩
    refine ⟨hcan.1, fun name bytes hfile hnot => ?_, fun name bytes c hfile hwritten hnone => ?_⟩
    · have hnone : UnitOfNone updated.connections name := by
        by_contra hunit
        refine (h.spares name bytes hfile (Or.inl hnot)).1 ?_
        rw [hrewritten]
        exact mem_unitNamesOf.mpr hunit
      exact ⟨hnone, fun hunit => hcan.2 name bytes hfile hunit hnone⟩
    · rw [← reaped_iff hwritten hfile hnone, ← hremoved, h.removes]
      exact ⟨fun hall => hall.2.1, fun hprevious =>
        ⟨⟨bytes, hfile, hwritten.marked⟩, hprevious, hnone⟩⟩
  · rintro ⟨hcan, hothers, hown⟩
    have hsweep : CanSweep updated files :=
      canSweep_of_unmarked fun name bytes hfile hnot => (hothers name bytes hfile hnot).2
    have hrun := @run_mounterApply _ env updated previous files hwf hfree hcan hsweep
    rcases hrun with ⟨hreturns, hrewritten, hremoved, hstopped⟩
    have hreaped : ∀ name, Reaped updated previous files name ↔
        (∃ bytes, files.lookup name = some bytes ∧ Marked bytes) ∧
          ¬UnitOfNone previous.connections name ∧ UnitOfNone updated.connections name := by
      intro name
      constructor
      · rintro ⟨bytes, text, hfile, htext, hmarker, hnone, hbelongs⟩
        have hmarked : Marked bytes := ⟨text, htext, hmarker.2⟩
        rcases hours name bytes hfile hmarked with ⟨c, hwritten⟩
        have hplace : ∃ d ∈ updated.connections ++ previous.connections, SamePlace c d :=
          (reaped_iff hwritten hfile hnone).mp
            ⟨bytes, text, hfile, htext, hmarker, hnone, hbelongs⟩
        exact ⟨⟨bytes, hfile, hmarked⟩, (hown name bytes c hfile hwritten hnone).mp hplace, hnone⟩
      · rintro ⟨⟨bytes, hfile, hmarked⟩, hprevious, hnone⟩
        rcases hours name bytes hfile hmarked with ⟨c, hwritten⟩
        exact (reaped_iff hwritten hfile hnone).mpr
          ((hown name bytes c hfile hwritten hnone).mpr hprevious)
    refine ⟨hreturns, fun name => (hremoved name).trans (hreaped name), ?_⟩
    intro name bytes hfile hspared
    have hnone : UnitOfNone updated.connections name := by
      rcases hspared with hnot | hneither
      · exact (hothers name bytes hfile hnot).1
      · exact hneither.2
    have hstays : ¬Reaped updated previous files name := by
      intro hgoes
      rcases (hreaped name).mp hgoes with ⟨⟨bytes', hfile', hmarked⟩, hprevious, -⟩
      rw [hfile, Option.some.injEq] at hfile'
      rcases hspared with hnot | hneither
      · exact hnot (hfile' ▸ hmarked)
      · exact hprevious hneither.1
    refine ⟨fun hmem => ?_, fun hmem => ?_, fun hmem => hstays ((hremoved name).mp hmem)⟩
    · rw [hrewritten] at hmem
      exact mem_unitNamesOf.mp hmem hnone
    · rcases hstopped name hmem with hgoes | hunit
      · exact hstays hgoes
      · exact hunit hnone

end Reaping

section Examples

attribute [local instance] Unicode.ascii

/-- A machine with nothing mounted. -/
def quietMachine : WorkingHost where
  accounts := adasAccounts
  occupant := fun _ => none
  probeState := fun _ => str "idle"

/-- A document with music at a mountpoint. -/
def musicConfig (mountpoint : String) : Config :=
  { emptyConfig with connections := [nasMusicAt mountpoint] }

theorem lookup_singleton_iff {name other : Str} {bytes file : List UInt8} :
    (AList.singleton name bytes : Dict Str (List UInt8)).lookup other = some file ↔
      other = name ∧ file = bytes := by
  rw [← Option.mem_def, AList.mem_lookup_iff, AList.singleton_entries, List.mem_singleton]
  constructor
  · intro h
    cases h
    exact ⟨rfl, rfl⟩
  · rintro ⟨rfl, rfl⟩
    rfl

set_option maxRecDepth 10000 in
/-- The mount unit of a connection that is dropped goes. -/
theorem reaps_dropped_music : ∃ bytes,
    WrittenFor (nasMusicAt "/mnt/music") (str "mnt-music.mount") bytes ∧
      ReapsExactly quietMachine emptyConfig (musicConfig "/mnt/music")
        (AList.singleton (str "mnt-music.mount") bytes) := by
  have hvalid : (musicConfig "/mnt/music").Valid := by decide +kernel
  have hwf : (nasMusicAt "/mnt/music").WellFormed :=
    hvalid.sound.connections _ List.mem_cons_self
  have hnames : namesOf (nasMusicAt "/mnt/music") =
      .ok (str "mnt-music.mount", str "mnt-music.automount") := by decide +kernel
  have hcan : CanWrite adasAccounts (nasMusicAt "/mnt/music") := by
    refine (canWrite_iff _ hwf).mpr ⟨str "/mnt/music", rfl, ?_, ?_, ?_⟩
    · exact isPlain_str _
    · exact isPlain_str _
    · exact isPlain_str _
  -- The program wrote the unit, for the connection that was dropped.
  rcases hcan with ⟨-, -, hmount, -⟩
  rcases Option.ne_none_iff_exists'.mp hmount with ⟨bytes, hbytes⟩
  have hwritten : WrittenFor (nasMusicAt "/mnt/music") (str "mnt-music.mount") bytes :=
    ⟨hwf, adasAccounts, _, ⟨_, hnames, Or.inl ⟨rfl, rfl⟩⟩, hbytes⟩
  refine ⟨bytes, hwritten, ?_⟩
  refine (reaps_exactly_iff (by decide) (fun name file hfile _ => ?_)
    (fun c hc => absurd hc List.not_mem_nil)).mpr
      ⟨fun c hc => absurd hc List.not_mem_nil, fun name file hfile hnot => ?_,
        fun name file c hfile hown hnone => ?_⟩
  · obtain ⟨rfl, rfl⟩ := lookup_singleton_iff.mp hfile
    exact ⟨_, hwritten⟩
  · obtain ⟨rfl, rfl⟩ := lookup_singleton_iff.mp hfile
    exact absurd hwritten.marked hnot
  · -- It belongs to the old config and is nobody's in the new one.
    obtain ⟨rfl, rfl⟩ := lookup_singleton_iff.mp hfile
    rw [← reaped_iff hown hfile hnone, reaped_iff hwritten hfile hnone]
    refine iff_of_true ⟨_, List.mem_singleton_self _, str "/mnt/music", by decide, by decide⟩ ?_
    exact fun hnone => hnone _ List.mem_cons_self ⟨_, hnames, Or.inl rfl⟩

/-- A unit file of somebody else's, in Latin-1. -/
def latin1Unit : List UInt8 :=
  [0x23, 0x20, 0x42, 0xFC, 0x72, 0x6F]

/-- It is read before it is known to be nobody's, and no apply gets past it. -/
theorem latin1_unit_raises : emptyConfig.Valid ∧ ¬Marked latin1Unit ∧
    ¬ReapsExactly quietMachine emptyConfig emptyConfig
      (AList.singleton (str "backup.mount") latin1Unit) := by
  have hbytes : readText latin1Unit = none := by decide +kernel
  have hnot : ¬Marked latin1Unit := by
    rintro ⟨text, htext, -⟩
    rw [hbytes] at htext
    cases htext
  refine ⟨by decide, hnot, fun h => ?_⟩
  -- The unit is of none of the connections, and its text cannot be read.
  have hsweep : ¬CanSweep emptyConfig (AList.singleton (str "backup.mount") latin1Unit) :=
    fun hcan => hcan (str "backup.mount") latin1Unit
    (lookup_singleton_iff.mpr ⟨rfl, rfl⟩) (by decide)
      (fun c hc => absurd hc List.not_mem_nil) hbytes
  have hraise : ∃ e, (applied quietMachine emptyConfig emptyConfig
      (AList.singleton (str "backup.mount") latin1Unit)).1 = .error e :=
    run_mounterApply_error (fun c hc => absurd hc List.not_mem_nil)
      (fun c hc => absurd hc List.not_mem_nil) fun hboth => hsweep hboth.2
  rcases hraise with ⟨e, herror⟩
  rcases h.returns with ⟨planned, hok⟩
  rw [hok] at herror
  cases herror

end Examples

end Smbpal
