import Mathlib.Logic.Function.Basic
import Smbpal.Mounts.ReadBack

/-!
# The Unit Files of a Config

Unit files as a map from their names, and what the two loops of `Mounter.apply`
make of it.

`prescribed` is what a document alone would have there: the units of all its
connections, and under a name two of them share, those of the last. The sweep
takes away what is SMBPal's own, not wanted, and of a mountpoint it may touch.
`reapplied` is both, one after the other.

`Touched` is how far an apply of a new document can have got when it is
interrupted, and `Clean` when applying the previous one again then restores the
files: `restored_of_clean`, and `clean_of_restored` for the converse.

## Main definitions

* `prescribed`: The unit files a document prescribes.
* `swept`: The unit files after the sweep.
* `reapplied`: The unit files after the previous document is applied again.
* `Touched`: What an interrupted apply may leave.
* `Restored`: What a failed commit should leave.
* `Clean`: When it does.

## Theorems

* `prescribed_cases`: A unit is that of a connection, or nobody's.
* `swept_writeAll`: Writing and sweeping.
* `restored_of_clean`, `clean_of_restored`: When reapplying restores.
-/

namespace Smbpal

/-- What the texts of units depend on besides the config: the credentials files
    there are, and the accounts of the system. -/
structure Accounts where
  present : Str → Bool
  passwd : Str → Option OwnerIds

/-- Where a connection's credentials file is, when it is there. -/
def credentialsPathIn (env : Accounts) (c : Connection) : Option Str :=
  match truthy c.credentialRef with
  | none => none
  | some ref => if env.present ref then some (str "/etc/smbpal/credentials/" ++ ref) else none

/-- The ids of a connection's owner, when there is such an account. -/
def ownerIdsIn (env : Accounts) (c : Connection) : Option OwnerIds :=
  match truthy c.owner with
  | none => none
  | some owner => env.passwd owner

/-- The text of a connection's mount unit. -/
def mountText (env : Accounts) (c : Connection) : Str :=
  mountUnit c (ownerIdsIn env c) (credentialsPathIn env c)

/-- The unit files after one connection's units are written. -/
def writeOne (env : Accounts) (c : Connection) (units : Str → Option Str) : Str → Option Str :=
  match namesOf c with
  | .ok names =>
      Function.update (Function.update units names.1 (some (mountText env c))) names.2
        (some (automountUnit c))
  | .error _ => units

/-- The unit files after every connection's units are written, in order. -/
def writeAll (env : Accounts) : List Connection → (Str → Option Str) → Str → Option Str
  | [], units => units
  | c :: cs, units => writeAll env cs (writeOne env c units)

/-- The unit files a document prescribes. -/
def prescribed (env : Accounts) (doc : Config) : Str → Option Str :=
  writeAll env doc.connections fun _ => none

/-- Whether a text is read back with a mountpoint one of the documents has. -/
def Belongs (previous updated : Config) (text : Str) : Prop :=
  mayRemove (untouched updated (some previous)) (whereOf text) = true

instance (previous updated : Config) (text : Str) : Decidable (Belongs previous updated text) :=
  inferInstanceAs (Decidable (_ = true))

/-- SMBPal's unit files are those `previous` prescribes, and of the others the
    ones of mountpoints in neither document, unchanged. -/
def Restored (env : Accounts) (previous updated : Config)
    (before after : Str → Option Str) : Prop :=
  ∀ name text, (after name = some text ∧ IsOurs name text) ↔
    (prescribed env previous name = some text ∨
      (before name = some text ∧ IsOurs name text ∧ ¬ Belongs previous updated text))

/-- The unit files agree with a document: what it prescribes is there. -/
def Agrees (env : Accounts) (doc : Config) (units : Str → Option Str) : Prop :=
  ∀ name text, prescribed env doc name = some text → units name = some text

/-- The units of a document can all be named and written. -/
def Reapplies (env : Accounts) (doc : Config) : Prop :=
  ∀ c ∈ doc.connections, ∃ names, namesOf c = .ok names ∧
    encode (mountText env c) ≠ none ∧ encode (automountUnit c) ≠ none

/-- A unit that an apply of `doc` can get as far as writing: the connections
    before its own have names, and so has its own, and the texts up to it can be
    written. -/
def Reaches (env : Accounts) (doc : Config) (c : Connection) (name text : Str) : Prop :=
  ∃ before after, doc.connections = before ++ c :: after ∧
    (∀ b ∈ before, ∃ names, namesOf b = .ok names) ∧
      ∃ names, namesOf c = .ok names ∧ encode (mountText env c) ≠ none ∧
        ((name = names.1 ∧ text = mountText env c) ∨
          (name = names.2 ∧ text = automountUnit c ∧ encode text ≠ none))

/-- A connection's mountpoint is found again: without the whitespace around it,
    it is one of those the documents have. -/
def FoundAgain (previous updated : Config) (c : Connection) : Prop :=
  mayRemove (untouched updated (some previous)) (some (strip (pyStr c.mountpoint))) = true

instance (previous updated : Config) (c : Connection) : Decidable (FoundAgain previous updated c) :=
  inferInstanceAs (Decidable (_ = true))

/-- Every unit that is written where `previous` has none was there already, or is
    found again and is not in the place of a unit to be kept. -/
def Clean (env : Accounts) (previous updated : Config) (units : Str → Option Str) : Prop :=
  ∀ c name text, Reaches env updated c name text → prescribed env previous name = none →
    units name = some text ∨
      (FoundAgain previous updated c ∧
        ∀ old, units name = some old → IsOurs name old → Belongs previous updated old)

section Prescribed

variable {env : Accounts} {previous updated : Config}

/-- One of a connection's units, with its text. -/
def UnitText (env : Accounts) (c : Connection) (name text : Str) : Prop :=
  ∃ names, namesOf c = .ok names ∧
    ((name = names.1 ∧ text = mountText env c) ∨ (name = names.2 ∧ text = automountUnit c))

theorem UnitText.unitOf {c : Connection} {name text : Str} (h : UnitText env c name text) :
    UnitOf c name := by
  rcases h with ⟨names, hnames, ⟨rfl, -⟩ | ⟨rfl, -⟩⟩
  · exact ⟨names, hnames, Or.inl rfl⟩
  · exact ⟨names, hnames, Or.inr rfl⟩

theorem Reaches.unitText {c : Connection} {name text : Str} (h : Reaches env updated c name text) :
    c ∈ updated.connections ∧ UnitText env c name text := by
  rcases h with ⟨before, after, hsplit, -, names, hnames, -, hunit⟩
  refine ⟨hsplit ▸ List.mem_append_right _ List.mem_cons_self, names, hnames, ?_⟩
  rcases hunit with h | ⟨hname, htext, -⟩
  · exact Or.inl h
  · exact Or.inr ⟨hname, htext⟩

/-- Writing a connection's units replaces what was under their names. -/
theorem writeOne_apply (c : Connection) (name : Str) :
    (∃ text, UnitText env c name text ∧ ∀ units, writeOne env c units name = some text) ∨
      (¬ UnitOf c name ∧ ∀ units : Str → Option Str, writeOne env c units name = units name) := by
  unfold writeOne
  cases hnames : namesOf c with
  | error e =>
      refine Or.inr ⟨?_, fun _ => rfl⟩
      rintro ⟨names, h, -⟩
      rw [hnames] at h
      exact nomatch h
  | ok names =>
      dsimp only
      -- The automount unit is written last, so its name is looked at first.
      by_cases h2 : name = names.2
      · refine Or.inl ⟨automountUnit c, ⟨names, hnames, Or.inr ⟨h2, rfl⟩⟩, fun units => ?_⟩
        rw [h2, Function.update_self]
      · by_cases h1 : name = names.1
        · refine Or.inl ⟨mountText env c, ⟨names, hnames, Or.inl ⟨h1, rfl⟩⟩, fun units => ?_⟩
          rw [Function.update_of_ne h2, h1, Function.update_self]
        · refine Or.inr ⟨?_, fun units => ?_⟩
          · rintro ⟨names', h, hname⟩
            rw [hnames, Except.ok.injEq] at h
            subst h
            exact hname.elim h1 h2
          · rw [Function.update_of_ne h2, Function.update_of_ne h1]

/-- Under the name of a unit there is afterwards that of the last connection it
    is one of; under another name, what there was. -/
theorem writeAll_apply (cs : List Connection) (name : Str) :
    (∃ c ∈ cs, ∃ text, UnitText env c name text ∧ ∀ units, writeAll env cs units name = some text) ∨
      (UnitOfNone cs name ∧ ∀ units, writeAll env cs units name = units name) := by
  induction cs with
  | nil => exact Or.inr ⟨fun c hc => absurd hc List.not_mem_nil, fun _ => rfl⟩
  | cons c cs ih =>
      rcases ih with ⟨b, hb, text, hunit, hwrite⟩ | ⟨hnone, hwrite⟩
      · exact Or.inl ⟨b, List.mem_cons_of_mem _ hb, text, hunit, fun units => hwrite _⟩
      · rcases writeOne_apply c name with ⟨text, hunit, hone⟩ | ⟨hnot, hone⟩
        · exact Or.inl ⟨c, List.mem_cons_self, text, hunit,
            fun units => (hwrite _).trans (hone units)⟩
        · refine Or.inr ⟨fun b hb => ?_, fun units => (hwrite _).trans (hone units)⟩
          rcases List.mem_cons.mp hb with rfl | hb
          · exact hnot
          · exact hnone b hb

theorem prescribed_cases (env : Accounts) (doc : Config) (name : Str) :
    (∃ c ∈ doc.connections, ∃ text, UnitText env c name text ∧ prescribed env doc name = some text ∧
      ∀ units, writeAll env doc.connections units name = some text) ∨
    (UnitOfNone doc.connections name ∧ prescribed env doc name = none ∧
      ∀ units, writeAll env doc.connections units name = units name) := by
  rcases writeAll_apply doc.connections name with ⟨c, hc, text, hunit, hwrite⟩ | ⟨hnone, hwrite⟩
  · exact Or.inl ⟨c, hc, text, hunit, hwrite _, hwrite⟩
  · exact Or.inr ⟨hnone, hwrite _, hwrite⟩

/-- A unit is SMBPal's own. -/
theorem UnitText.isOurs {c : Connection} {name text : Str} (h : UnitText env c name text) :
    IsOurs name text := by
  rcases h with ⟨names, hnames, ⟨rfl, rfl⟩ | ⟨rfl, rfl⟩⟩
  · exact ⟨(isUnitFile_of_namesOf hnames).1, contains_marker_mountUnit⟩
  · exact ⟨(isUnitFile_of_namesOf hnames).2, contains_marker_automountUnit⟩

/-- A unit belongs where its connection is found again. -/
theorem UnitText.belongs_iff {c : Connection} {name text : Str} (h : UnitText env c name text)
    (hc : c.WellFormed) : Belongs previous updated text ↔ FoundAgain previous updated c := by
  unfold Belongs FoundAgain
  rcases h with ⟨names, -, ⟨-, rfl⟩ | ⟨-, rfl⟩⟩
  · unfold mountText
    rw [whereOf_mountUnit hc]
  · rw [whereOf_automountUnit hc]

end Prescribed

section Sweep

variable {env : Accounts} {previous updated : Config}

/-- Whether the sweep takes a file away. -/
def stale (wanted : List Str) (keep : Option (List Str)) (name : Str) : Option Str → Bool
  | none => false
  | some text => isUnitFile name && decide (name ∉ wanted) && contains marker text &&
      mayRemove keep (whereOf text)

/-- The unit files after the sweep has seen some names. -/
def swept (wanted : List Str) (keep : Option (List Str)) (names : List Str)
    (units : Str → Option Str) : Str → Option Str := fun name =>
  if name ∈ names ∧ stale wanted keep name (units name) = true then none else units name

theorem stale_some {wanted : List Str} {keep : Option (List Str)} {name text : Str} :
    stale wanted keep name (some text) = true ↔
      IsOurs name text ∧ name ∉ wanted ∧ mayRemove keep (whereOf text) = true := by
  unfold stale IsOurs
  simp only [Bool.and_eq_true, decide_eq_true_eq]
  exact ⟨fun h => ⟨⟨h.1.1.1, h.1.2⟩, h.1.1.2, h.2⟩, fun h => ⟨⟨⟨h.1.1, h.2.1⟩, h.1.2⟩, h.2.2⟩⟩

/-- Which of the two documents is the new one makes no difference. -/
theorem mayRemove_symm (place : Option Str) :
    mayRemove (untouched updated (some previous)) place =
      mayRemove (untouched previous (some updated)) place := by
  unfold mayRemove untouched
  refine decide_eq_decide.mpr ?_
  simp only [List.mem_map, List.mem_filterMap, List.mem_append]
  constructor
  · rintro ⟨m, ⟨c, hc, hm⟩, hplace⟩
    exact ⟨m, ⟨c, hc.symm, hm⟩, hplace⟩
  · rintro ⟨m, ⟨c, hc, hm⟩, hplace⟩
    exact ⟨m, ⟨c, hc.symm, hm⟩, hplace⟩

/-- The unit files after the previous document is applied again. -/
def reapplied (env : Accounts) (previous updated : Config) (units : Str → Option Str) :
    Str → Option Str := fun name =>
  match prescribed env previous name with
  | some text => some text
  | none =>
      match units name with
      | none => none
      | some text => if IsOurs name text ∧ Belongs previous updated text then none else some text

/-- The sweep goes through the names one by one. -/
theorem swept_cons (wanted : List Str) (keep : Option (List Str)) (name : Str) (names : List Str)
    (units : Str → Option Str) :
    swept wanted keep (name :: names) units =
      swept wanted keep names (swept wanted keep [name] units) := by
  funext other
  unfold swept
  simp only [List.mem_cons, List.not_mem_nil, or_false]
  -- A name is swept once, whether by the head or by the rest.
  by_cases hstale : stale wanted keep other (units other) = true
  · by_cases hname : other = name
    · have hone : (if other = name ∧ stale wanted keep other (units other) = true then none
          else units other) = none := if_pos ⟨hname, hstale⟩
      rw [if_pos ⟨Or.inl hname, hstale⟩, hone]
      exact (if_neg fun h => Bool.false_ne_true h.2).symm
    · have hone : (if other = name ∧ stale wanted keep other (units other) = true then none
          else units other) = units other := if_neg fun h => hname h.1
      rw [hone]
      exact if_congr (and_congr_left' (or_iff_right hname)) rfl rfl
  · have hone : (if other = name ∧ stale wanted keep other (units other) = true then none
        else units other) = units other := if_neg fun h => hstale h.2
    rw [if_neg fun h => hstale h.2, hone]
    exact (if_neg fun h => hstale h.2).symm

/-- Writing the previous units and sweeping every file is applying them again. -/
theorem swept_writeAll {wanted names : List Str} {units : Str → Option Str}
    (hwanted : ∀ name, name ∈ wanted ↔ ∃ c ∈ previous.connections, UnitOf c name)
    (hnames : ∀ name, writeAll env previous.connections units name ≠ none → name ∈ names) :
    swept wanted (untouched previous (some updated)) names
      (writeAll env previous.connections units) = reapplied env previous updated units := by
  funext name
  unfold swept reapplied
  rcases prescribed_cases env previous name with ⟨c, hc, text, hunit, hpre, hwrite⟩ |
    ⟨hnone, hpre, hwrite⟩
  · -- A unit of a connection is wanted, so it is not swept.
    have hmem : name ∈ wanted := (hwanted name).mpr ⟨c, hc, hunit.unitOf⟩
    rw [hwrite, hpre]
    exact if_neg fun h => (stale_some.mp h.2).2.1 hmem
  · -- Nobody's unit: it goes if it is ours and belongs to a connection of either.
    have hmem : name ∉ wanted := fun h => by
      rcases (hwanted name).mp h with ⟨c, hc, hunit⟩
      exact hnone c hc hunit
    have hlisted := hnames name
    rw [hwrite] at hlisted
    rw [hwrite, hpre]
    cases hfile : units name with
    | none => exact if_neg fun h => Bool.false_ne_true h.2
    | some text =>
        rw [hfile] at hlisted
        -- It is listed, so the sweep comes to it.
        have hiff : (name ∈ names ∧
            stale wanted (untouched previous (some updated)) name (some text) = true) ↔
            IsOurs name text ∧ Belongs previous updated text := by
          unfold Belongs
          rw [stale_some, mayRemove_symm]
          exact ⟨fun h => ⟨h.2.1, h.2.2.2⟩,
            fun h => ⟨hlisted (Option.some_ne_none text), h.1, hmem, h.2⟩⟩
        exact if_congr hiff rfl rfl

/-- What the first apply may leave of one file: what was there, a unit it got as
    far as writing, or nothing where it took one away. -/
def Touched (env : Accounts) (previous updated : Config) (before after : Str → Option Str) : Prop :=
  ∀ name, after name = before name ∨
    (∃ c text, Reaches env updated c name text ∧ after name = some text) ∨
    (after name = none ∧ UnitOfNone updated.connections name ∧
      ∃ old, before name = some old ∧ IsOurs name old ∧ Belongs previous updated old)

theorem touched_refl (units : Str → Option Str) : Touched env previous updated units units :=
  fun _ => Or.inl rfl

/-- After a clean first apply, however far it got, applying the previous document
    again restores the units. -/
theorem restored_of_clean {before after : Str → Option Str}
    (hwf : ∀ c ∈ updated.connections, c.WellFormed)
    (hagree : Agrees env previous before) (hclean : Clean env previous updated before)
    (h : Touched env previous updated before after) :
    Restored env previous updated before (reapplied env previous updated after) := by
  intro name text
  unfold reapplied
  rcases prescribed_cases env previous name with ⟨c, -, there, hunit, hpre, -⟩ | ⟨-, hpre, -⟩
  · -- A unit the previous document prescribes is written again.
    rw [hpre]
    constructor
    · exact fun h => Or.inl h.1
    · rintro (htext | ⟨hbefore, hours, -⟩)
      · cases htext
        exact ⟨rfl, hunit.isOurs⟩
      · rw [hagree name there hpre] at hbefore
        exact ⟨hbefore, hours⟩
  · rw [hpre]
    have hkept : after name = before name →
        (((match after name with
          | none => none
          | some text => if IsOurs name text ∧ Belongs previous updated text then none
              else some text) = some text ∧ IsOurs name text) ↔
          ((none : Option Str) = some text ∨
            (before name = some text ∧ IsOurs name text ∧ ¬ Belongs previous updated text))) := by
      intro hsame
      rw [hsame]
      cases before name with
      | none => simp only [reduceCtorEq, false_and, or_self]
      | some there =>
          by_cases hstale : IsOurs name there ∧ Belongs previous updated there
          · simp only [if_pos hstale, reduceCtorEq, false_and, false_or, Option.some.injEq]
            exact ⟨False.elim, fun h => by
              cases h.1
              exact h.2.2 hstale.2⟩
          · simp only [if_neg hstale, Option.some.injEq, reduceCtorEq, false_or]
            exact ⟨fun h => by
              cases h.1
              exact ⟨rfl, h.2, fun hb => hstale ⟨h.2, hb⟩⟩, fun h => ⟨h.1, h.2.1⟩⟩
    rcases h name with hsame | ⟨c, written, hreach, hafter⟩ | ⟨hafter, -, old, hold, -, hbelongs⟩
    · exact hkept hsame
    · rcases hclean c name written hreach hpre with hthere | ⟨hfound, hnone⟩
      · exact hkept (hafter.trans hthere.symm)
      · -- A new unit that is found again goes.
        rcases hreach.unitText with ⟨hc, hunit⟩
        have hbelongs := (hunit.belongs_iff
          (hwf c hc)).mpr hfound
        rw [hafter]
        dsimp only
        rw [if_pos ⟨hunit.isOurs, hbelongs⟩]
        simp only [reduceCtorEq, false_and, false_or, false_iff]
        exact fun h => h.2.2 (hnone text h.1 h.2.1)
    · rw [hafter]
      simp only [reduceCtorEq, false_and, false_or, false_iff]
      rintro ⟨hbefore, -, hnot⟩
      rw [hold, Option.some.injEq] at hbefore
      exact hnot (hbefore ▸ hbelongs)

/-- Where a written unit is restored, it was there or is found again. -/
theorem clean_of_restored {before after : Str → Option Str} {c : Connection} {name text : Str}
    (hwf : ∀ c ∈ updated.connections, c.WellFormed) (hreach : Reaches env updated c name text)
    (hpre : prescribed env previous name = none) (hafter : after name = some text)
    (h : Restored env previous updated before (reapplied env previous updated after)) :
    before name = some text ∨ (FoundAgain previous updated c ∧
      ∀ old, before name = some old → IsOurs name old → Belongs previous updated old) := by
  rcases hreach.unitText with ⟨hc, hunit⟩
  have hbelongs : Belongs previous updated text ↔ FoundAgain previous updated c :=
    hunit.belongs_iff (hwf c hc)
  unfold Restored reapplied at h
  -- The file is swept where its connection is found again.
  by_cases hfound : FoundAgain previous updated c
  · refine Or.inr ⟨hfound, fun old hold hours => ?_⟩
    by_contra hnot
    have hthere := ((h name old).mpr (Or.inr ⟨hold, hours, hnot⟩)).1
    rw [hpre, hafter] at hthere
    dsimp only at hthere
    rw [if_pos ⟨hunit.isOurs, hbelongs.mpr hfound⟩] at hthere
    exact nomatch hthere
  · -- It is left where it is, so it has to have been there before.
    have hnot : ¬ (IsOurs name text ∧ Belongs previous updated text) :=
      fun hb => hfound (hbelongs.mp hb.2)
    have hthere := (h name text).mp
    rw [hpre, hafter] at hthere
    dsimp only at hthere
    rw [if_neg hnot] at hthere
    rcases hthere ⟨rfl, hunit.isOurs⟩ with hnone | ⟨hbefore, -, -⟩
    · exact nomatch hnone
    · exact Or.inl hbefore

end Sweep

end Smbpal
