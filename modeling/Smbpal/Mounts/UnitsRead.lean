import Smbpal.Mounts.Prescribed
import Smbpal.Python.Directives

/-!
# What the Units Say

The texts of `mount_unit` and `automount_unit`, read by systemd's rules: the lines of
`Smbpal.Python.Directives`, and in a value `%` starts a specifier unless it is doubled.

The schema keeps `%` and the backslash out of a host and of a remote share, and a
mountpoint has to do without. So what the mount unit says is decided by three things:
how the share ends, how the mountpoint ends, and whether there is a `%` in it
(`units_mean_config`).

## Main definitions

* `mountSections`, `automountSections`: What the two units are meant to say.
* `Says`: A text is read as some sections, without specifiers.
* `Connection.UnitsMean`: Both units say what they are meant to.
* `Connection.IsPlain`: What the reader takes as it is.

## Theorems

* `read_mountUnit`: What the mount unit says, whatever the mountpoint.
* `read_automountUnit`: What the automount unit says of a plain mountpoint.
* `units_mean_config`: Exactly when both say what they are meant to.
-/

namespace Smbpal

/-- The sections of the mount unit. -/
def mountSections (source mountpoint options : Str) : List (Lib.Section PyChar) :=
  [ (str "Unit",
      [(str "Description", str "SMBPal mount of " ++ source),
        (str "After", str "network-online.target"),
        (str "Wants", str "network-online.target")]),
    (str "Mount",
      [(str "What", source), (str "Where", mountpoint), (str "Type", str "cifs"),
        (str "Options", options)]) ]

/-- The sections of the automount unit. -/
def automountSections (mountpoint : Str) : List (Lib.Section PyChar) :=
  [ (str "Unit", [(str "Description", str "SMBPal automount for " ++ mountpoint)]),
    (str "Automount", [(str "Where", mountpoint)]),
    (str "Install", [(str "WantedBy", str "multi-user.target")]) ]

/-- A section with its values read for specifiers. -/
def asPieces (s : Lib.Section PyChar) : Str × List (Str × List (Lib.Piece PyChar)) :=
  (s.1, s.2.map fun d => (d.1, Lib.pieces (chr '%') d.2))

/-- A section whose values are what they look like. -/
def asLiterals (s : Lib.Section PyChar) : Str × List (Str × List (Lib.Piece PyChar)) :=
  (s.1, s.2.map fun d => (d.1, d.2.map .literal))

section Reading

variable (sp : Spaces) (glue : Str)

/-- A text is read as these sections, no directive in front of them, and no specifier
    in a value. -/
def Says (text : Str) (sections : List (Lib.Section PyChar)) : Prop :=
  ((sp.rules glue).read text).1 = [] ∧
    ((sp.rules glue).read text).2.map asPieces = sections.map asLiterals

/-- What a line of a unit says, whatever its value. -/
theorem unitLine {line key value : Str} (hline : line = key ++ chr '=' :: value)
    (hkey : isKey key = true) :
    (sp.rules glue).item line = .entry key ((sp.rules glue).trim value) ∧
      (sp.rules glue).isComment line = false := by
  have hnone : ∀ c ∈ ([] : Str), c = chr ' ' := fun c hc => nomatch hc
  have hitem := sp.item_param glue hkey hnone hnone value
  have hcomment := sp.param_not_comment glue hkey hnone (chr '=' :: value)
  rw [List.nil_append] at hitem hcomment
  rw [List.append_nil] at hitem
  rw [hline]
  exact ⟨hitem, hcomment⟩

/-- A line is joined with the next when its value ends in a backslash. -/
theorem unitLine_continues {line key value : Str} (hline : line = key ++ chr '=' :: value)
    (hvalue : value ≠ []) :
    (sp.rules glue).continues line = decide (value.getLast? = some (chr '\\')) := by
  have happend := sp.continues_append glue (key ++ [chr '=']) hvalue
  rwa [List.append_assoc, List.singleton_append, ← hline] at happend

/-- A line of a unit whose value does not end in a backslash. -/
theorem unitLine_plain {line key value : Str} (hline : line = key ++ chr '=' :: value)
    (hkey : isKey key = true) (hne : value ≠ []) (hlast : value.getLast? ≠ some (chr '\\')) :
    (sp.rules glue).Reads line (.entry key ((sp.rules glue).trim value)) := by
  have hboth := unitLine sp glue hline hkey
  refine ⟨hboth.1, hboth.2, ?_⟩
  rw [unitLine_continues sp glue hline hne]
  exact decide_eq_false hlast

/-- A line of a unit with an upright value. -/
theorem unitLine_upright {line key value : Str} (hline : line = key ++ chr '=' :: value)
    (hkey : isKey key = true) (hvalue : isUpright value = true) :
    (sp.rules glue).Reads line (.entry key value) := by
  have hplain := unitLine_plain sp glue hline hkey (Spaces.upright_ne_nil hvalue)
    fun hlast => ((Spaces.upright_ends hvalue).2 _ hlast).2 rfl
  rwa [sp.trim_of_isUpright glue hvalue] at hplain

theorem sectionLine {line name : Str} (hline : line = chr '[' :: name ++ [chr ']'])
    (hname : isUpright name = true) : (sp.rules glue).Reads line (.header name) := by
  rw [hline]
  refine ⟨?_, sp.section_plain glue name⟩
  rw [sp.item_section glue name, sp.trim_of_isUpright glue hname]

theorem hashLine {line rest : Str} (hline : line = chr '#' :: rest) :
    (sp.rules glue).isComment line = true := by
  have hblank : ∀ d ∈ ([] : Str), (sp.rules glue).blank d = true := fun d hd => nomatch hd
  rw [hline]
  exact Lib.LineRules.isComment_of_head (sp.rules glue) hblank
    (sp.blank_of_isVisible (c := chr '#') (by decide)) rest

theorem emptyLine : (sp.rules glue).Reads [] .nothing :=
  ⟨rfl, rfl, rfl⟩

end Reading

/-- A character a reader of units takes as it is, wherever it stands. -/
def isTame (c : PyChar) : Bool :=
  isVisible c && decide (c ≠ chr '\\') && decide (c ≠ chr '%')

theorem isTame_of_isIdChar {c : PyChar} (h : isIdChar c = true) : isTame c = true := by
  have hord := isIdChar_ord h
  have hvisible : isVisible c = true := by
    rw [isVisible, Bool.and_eq_true, decide_eq_true_eq, decide_eq_true_eq]
    omega
  have hne : ∀ d, ord d = 92 ∨ ord d = 37 → c ≠ d := by
    rintro d hd rfl
    omega
  rw [isTame, hvisible, decide_eq_true (hne (chr '\\') (Or.inl rfl)),
    decide_eq_true (hne (chr '%') (Or.inr rfl))]
  rfl

theorem isTame_of_isDigit {c : PyChar} (h : isDigit c = true) : isTame c = true := by
  refine isTame_of_isIdChar ?_
  rw [isIdChar, h, Bool.or_true, Bool.true_or]

theorem forall_join {P : PyChar → Prop} {sep : Str} {parts : List Str} (hsep : ∀ c ∈ sep, P c)
    (hparts : ∀ part ∈ parts, ∀ c ∈ part, P c) : ∀ c ∈ join sep parts, P c := by
  induction parts with
  | nil => exact fun c hc => absurd hc List.not_mem_nil
  | cons part parts ih =>
      cases parts with
      | nil => exact hparts part List.mem_cons_self
      | cons next parts =>
          intro c hc
          rw [join, List.mem_append, List.mem_append] at hc
          rcases hc with (hc | hc) | hc
          · exact hparts part List.mem_cons_self c hc
          · exact hsep c hc
          · exact ih (fun p hp => hparts p (List.mem_cons_of_mem part hp)) c hc
          · exact fun h => nomatch h

/-- Every character of the options is tame, when those of the credentials path are. -/
theorem mountOptions_tame (ids : Option OwnerIds) {path : Option Str}
    (hpath : ∀ p ∈ path, ∀ c ∈ p, isTame c = true) :
    ∀ c ∈ mountOptions ids path, isTame c = true := by
  have hcat : ∀ a b : Str, (∀ c ∈ a, isTame c = true) → (∀ c ∈ b, isTame c = true) →
      ∀ c ∈ a ++ b, isTame c = true := fun a b ha hb c hc =>
    (List.mem_append.mp hc).elim (ha c) (hb c)
  refine forall_join (by decide) fun part hpart => ?_
  -- The fixed options, the credentials, and the owner's numbers.
  rcases List.mem_append.mp hpart with hpart | hpart
  · rcases List.mem_append.mp hpart with hpart | hpart
    · have hall : ∀ part ∈ [str "soft", str "_netdev", str "iocharset=utf8",
          str "file_mode=0755", str "dir_mode=0755"], ∀ c ∈ part, isTame c = true := by decide
      exact hall part hpart
    · cases path with
      | none =>
          rw [List.mem_singleton.mp hpart]
          decide
      | some p =>
          rw [List.mem_singleton.mp hpart]
          exact hcat _ _ (by decide) (hpath p rfl)
  · cases ids with
    | none => exact absurd hpart List.not_mem_nil
    | some ids =>
        have hdigits : ∀ n, ∀ c ∈ digits n, isTame c = true := fun n c hc =>
          isTame_of_isDigit (isDigit_of_mem_digits hc)
        simp only [List.mem_cons, List.not_mem_nil, or_false] at hpart
        rcases hpart with rfl | rfl | rfl | rfl
        · exact hcat _ _ (by decide) (hdigits ids.uid)
        · decide
        · exact hcat _ _ (by decide) (hdigits ids.gid)
        · decide

theorem mountOptions_upright (ids : Option OwnerIds) {path : Option Str}
    (hpath : ∀ p ∈ path, ∀ c ∈ p, isTame c = true) : isUpright (mountOptions ids path) = true := by
  refine Spaces.isUpright_of_forall ?_ fun c hc => ?_
  · cases path with
    | none => exact List.cons_ne_nil _ _
    | some p => exact List.cons_ne_nil _ _
  · have htame := mountOptions_tame ids hpath c hc
    rw [isTame, Bool.and_eq_true, Bool.and_eq_true, decide_eq_true_eq] at htame
    exact htame.1

section Units

variable (sp : Spaces) (glue : Str) {c : Connection}

/-- What the mount unit says of a source, whatever the mountpoint. -/
def readMountSections (source mountpoint options : Str) : List (Lib.Section PyChar) :=
  [ (str "Unit",
      [(str "Description", (sp.rules glue).trim (str "SMBPal mount of " ++ source)),
        (str "After", str "network-online.target"),
        (str "Wants", str "network-online.target")]),
    (str "Mount",
      (str "What", (sp.rules glue).trim source) ::
        ((if mountpoint.getLast? = some (chr '\\') then
          [(str "Where", (sp.rules glue).trim (mountpoint.dropLast ++ glue ++ str "Type=cifs"))]
        else
          [(str "Where", (sp.rules glue).trim mountpoint), (str "Type", str "cifs")]) ++
        [(str "Options", options)])) ]

/-- The last lines of the mount unit: the mountpoint, the type and the options. -/
theorem read_whereLines {mountpoint options : Str} (hmp : mountpoint ≠ [])
    (hoptions : isUpright options = true) :
    (sp.rules glue).readLines [str "Where=" ++ mountpoint, str "Type=cifs",
        str "Options=" ++ options, []] =
      ((if mountpoint.getLast? = some (chr '\\') then
          [(str "Where", (sp.rules glue).trim (mountpoint.dropLast ++ glue ++ str "Type=cifs"))]
        else
          [(str "Where", (sp.rules glue).trim mountpoint), (str "Type", str "cifs")]) ++
        [(str "Options", options)], []) := by
  have htype : (sp.rules glue).Reads (str "Type=cifs") (.entry (str "Type") (str "cifs")) :=
    unitLine_upright sp glue rfl (by decide) (by decide)
  have hopts : (sp.rules glue).Reads (str "Options=" ++ options) (.entry (str "Options") options) :=
    unitLine_upright sp glue rfl (by decide) hoptions
  have hend : (sp.rules glue).readLines [str "Options=" ++ options, []] =
      ([(str "Options", options)], []) := by
    rw [Lib.LineRules.readLines_entry _ hopts,
      Lib.LineRules.readLines_nothing _ (emptyLine sp glue)]
    rfl
  by_cases hlast : mountpoint.getLast? = some (chr '\\')
  · -- The next line becomes a part of the mountpoint.
    have hline : ∀ v, str "Where=" ++ v = str "Where" ++ chr '=' :: v := fun v => rfl
    have hcomment := (unitLine sp glue (hline mountpoint) (by decide)).2
    have hcont := (unitLine_continues sp glue (hline mountpoint) hmp).trans (decide_eq_true hlast)
    have hitem : (sp.rules glue).item
        ((str "Where=" ++ mountpoint).dropLast ++ glue ++ str "Type=cifs") =
        .entry (str "Where") ((sp.rules glue).trim
          (mountpoint.dropLast ++ glue ++ str "Type=cifs")) := by
      rw [List.dropLast_append_of_ne_nil hmp, List.append_assoc, List.append_assoc,
        ← List.append_assoc mountpoint.dropLast]
      exact (unitLine sp glue (hline _) (by decide)).1
    rw [Lib.LineRules.readLines_joined _ ⟨hcomment, hcont⟩ htype hitem, hend, if_pos hlast]
    rfl
  · have hwhere : (sp.rules glue).Reads (str "Where=" ++ mountpoint)
        (.entry (str "Where") ((sp.rules glue).trim mountpoint)) :=
      unitLine_plain sp glue rfl (by decide) hmp hlast
    rw [Lib.LineRules.readLines_entry _ hwhere, Lib.LineRules.readLines_entry _ htype, hend,
      if_neg hlast]
    rfl

theorem read_mountUnit (h : c.WellFormed) {mountpoint : Str}
    (hplace : c.mountpoint = some mountpoint)
    (hsource : (mountSource c).getLast? ≠ some (chr '\\')) (ids : Option OwnerIds)
    {path : Option Str} (hpath : ∀ p ∈ path, ∀ c ∈ p, isTame c = true) :
    (sp.rules glue).read (mountUnit c ids path) =
      ([], readMountSections sp glue (mountSource c) mountpoint (mountOptions ids path)) := by
  rcases unit_lines h with ⟨hid, hsourceLine, hplaceLine⟩
  -- The mountpoint is a path, so it is not empty.
  have hmp : mountpoint ≠ [] := by
    rintro rfl
    exact Bool.false_ne_true (h.mountpoint [] hplace).absolute
  have hoptions := mountOptions_upright ids hpath
  have hoptionsLine : chr '\n' ∉ mountOptions ids path := by
    intro hmem
    exact absurd (mountOptions_tame ids hpath _ hmem) (by decide)
  have hdescription : chr '\n' ∉ str "Description=SMBPal mount of " ++ mountSource c := by
    rw [List.mem_append]
    exact not_or.mpr ⟨by decide, hsourceLine⟩
  have hwhat : chr '\n' ∉ str "What=" ++ mountSource c := by
    rw [List.mem_append]
    exact not_or.mpr ⟨by decide, hsourceLine⟩
  have hwhere : chr '\n' ∉ str "Where=" ++ pyStr c.mountpoint := by
    rw [List.mem_append]
    exact not_or.mpr ⟨by decide, hplaceLine⟩
  have hopts : chr '\n' ∉ str "Options=" ++ mountOptions ids path := by
    rw [List.mem_append]
    exact not_or.mpr ⟨by decide, hoptionsLine⟩
  unfold mountUnit
  change (sp.rules glue).read ((sp.rules glue).blockText _) = _
  rw [Lib.LineRules.read_blockText]
  · -- Each line by itself: a comment, a section's header, or an entry.
    have hmarker : (sp.rules glue).isComment (marker ++ pyStr c.id ++
        str ". Do not edit.") = true :=
      hashLine sp glue rfl
    have hremote : (sp.rules glue).isComment
        (str "# The remote is on the network but the automount means nothing waits for it:") =
        true := hashLine sp glue rfl
    have haccess : (sp.rules glue).isComment
        (str "# the mount happens on first access, not during boot (M0 §4).") = true :=
      hashLine sp glue rfl
    have hunit : (sp.rules glue).Reads (str "[Unit]") (.header (str "Unit")) :=
      sectionLine sp glue rfl (by decide)
    have hmount : (sp.rules glue).Reads (str "[Mount]") (.header (str "Mount")) :=
      sectionLine sp glue rfl (by decide)
    have hsays : (sp.rules glue).Reads (str "Description=SMBPal mount of " ++ mountSource c)
        (.entry (str "Description")
          ((sp.rules glue).trim (str "SMBPal mount of " ++ mountSource c))) := by
      refine unitLine_plain sp glue rfl (by decide) (List.cons_ne_nil _ _) ?_
      have hne : mountSource c ≠ [] := List.cons_ne_nil _ _
      rwa [List.getLast?_append_of_ne_nil _ hne]
    have hafter : (sp.rules glue).Reads (str "After=network-online.target")
        (.entry (str "After") (str "network-online.target")) :=
      unitLine_upright sp glue rfl (by decide) (by decide)
    have hwants : (sp.rules glue).Reads (str "Wants=network-online.target")
        (.entry (str "Wants") (str "network-online.target")) :=
      unitLine_upright sp glue rfl (by decide) (by decide)
    have hwhatLine : (sp.rules glue).Reads (str "What=" ++ mountSource c)
        (.entry (str "What") ((sp.rules glue).trim (mountSource c))) :=
      unitLine_plain sp glue rfl (by decide) (List.cons_ne_nil _ _) hsource
    rw [hplace]
    simp only [List.cons_append, List.nil_append]
    rw [Lib.LineRules.readLines_comment _ hmarker, Lib.LineRules.readLines_header _ hunit,
      Lib.LineRules.readLines_entry _ hsays, Lib.LineRules.readLines_comment _ hremote,
      Lib.LineRules.readLines_comment _ haccess, Lib.LineRules.readLines_entry _ hafter,
      Lib.LineRules.readLines_entry _ hwants,
      Lib.LineRules.readLines_nothing _ (emptyLine sp glue),
      Lib.LineRules.readLines_header _ hmount, Lib.LineRules.readLines_entry _ hwhatLine,
      show pyStr (some mountpoint) = mountpoint from rfl, read_whereLines sp glue hmp hoptions]
    rfl
  · -- No line has a line feed in it, so the text is cut where it was joined.
    change ∀ line ∈ _, chr '\n' ∉ line
    simp only [List.forall_mem_cons]
    exact ⟨headLine hid, by decide, hdescription, by decide, by decide, by decide, by decide,
      by decide, by decide, hwhat, hwhere, by decide, hopts, fun line hline => nomatch hline⟩

/-- What the automount unit says of a mountpoint that is not joined to anything. -/
theorem read_automountUnit (h : c.WellFormed) {mountpoint : Str}
    (hplace : c.mountpoint = some mountpoint) (hlast : mountpoint.getLast? ≠ some (chr '\\')) :
    (sp.rules glue).read (automountUnit c) =
      ([], [ (str "Unit", [(str "Description",
              (sp.rules glue).trim (str "SMBPal automount for " ++ mountpoint))]),
            (str "Automount", [(str "Where", (sp.rules glue).trim mountpoint)]),
            (str "Install", [(str "WantedBy", str "multi-user.target")]) ]) := by
  rcases unit_lines h with ⟨hid, -, hplaceLine⟩
  -- The mountpoint is a path, so it is not empty.
  have hmp : mountpoint ≠ [] := by
    rintro rfl
    exact Bool.false_ne_true (h.mountpoint [] hplace).absolute
  have hdescription : chr '\n' ∉ str "Description=SMBPal automount for " ++ pyStr c.mountpoint := by
    rw [List.mem_append]
    exact not_or.mpr ⟨by decide, hplaceLine⟩
  have hwhereLine : chr '\n' ∉ str "Where=" ++ pyStr c.mountpoint := by
    rw [List.mem_append]
    exact not_or.mpr ⟨by decide, hplaceLine⟩
  unfold automountUnit
  change (sp.rules glue).read ((sp.rules glue).blockText _) = _
  rw [Lib.LineRules.read_blockText]
  · -- Each line by itself: a comment, a section's header, or an entry.
    have hcomment : ∀ line ∈ [marker ++ pyStr c.id ++ str ". Do not edit.",
        str "# TimeoutIdleSec is deliberately unset. M0 §4 watched a background desktop",
        str "# process re-trigger the automount 80 s after boot without the user touching",
        str "# anything, so idle unmounting cannot be relied on to happen at all."],
        (sp.rules glue).isComment line = true := by
      simp only [List.forall_mem_cons]
      exact ⟨hashLine sp glue rfl, hashLine sp glue rfl, hashLine sp glue rfl,
        hashLine sp glue rfl, fun line hline => nomatch hline⟩
    simp only [List.forall_mem_cons] at hcomment
    rcases hcomment with ⟨hmarker, hfirst, hsecond, hthird, -⟩
    have hunit : (sp.rules glue).Reads (str "[Unit]") (.header (str "Unit")) :=
      sectionLine sp glue rfl (by decide)
    have hautomount : (sp.rules glue).Reads (str "[Automount]") (.header (str "Automount")) :=
      sectionLine sp glue rfl (by decide)
    have hinstall : (sp.rules glue).Reads (str "[Install]") (.header (str "Install")) :=
      sectionLine sp glue rfl (by decide)
    have hsays : (sp.rules glue).Reads (str "Description=SMBPal automount for " ++ mountpoint)
        (.entry (str "Description")
          ((sp.rules glue).trim (str "SMBPal automount for " ++ mountpoint))) := by
      refine unitLine_plain sp glue rfl (by decide) (List.cons_ne_nil _ _) ?_
      rwa [List.getLast?_append_of_ne_nil _ hmp]
    have hwhere : (sp.rules glue).Reads (str "Where=" ++ mountpoint)
        (.entry (str "Where") ((sp.rules glue).trim mountpoint)) :=
      unitLine_plain sp glue rfl (by decide) hmp hlast
    have hwanted : (sp.rules glue).Reads (str "WantedBy=multi-user.target")
        (.entry (str "WantedBy") (str "multi-user.target")) :=
      unitLine_upright sp glue rfl (by decide) (by decide)
    rw [hplace, show pyStr (some mountpoint) = mountpoint from rfl]
    simp only [List.cons_append, List.nil_append]
    rw [Lib.LineRules.readLines_comment _ hmarker, Lib.LineRules.readLines_header _ hunit,
      Lib.LineRules.readLines_entry _ hsays, Lib.LineRules.readLines_nothing _ (emptyLine sp glue),
      Lib.LineRules.readLines_header _ hautomount, Lib.LineRules.readLines_entry _ hwhere,
      Lib.LineRules.readLines_comment _ hfirst, Lib.LineRules.readLines_comment _ hsecond,
      Lib.LineRules.readLines_comment _ hthird,
      Lib.LineRules.readLines_nothing _ (emptyLine sp glue),
      Lib.LineRules.readLines_header _ hinstall, Lib.LineRules.readLines_entry _ hwanted,
      Lib.LineRules.readLines_nothing _ (emptyLine sp glue)]
    rfl
  · -- No line has a line feed in it, so the text is cut where it was joined.
    change ∀ line ∈ _, chr '\n' ∉ line
    simp only [List.forall_mem_cons]
    exact ⟨headLine hid, by decide, hdescription, by decide, by decide, hwhereLine, by decide,
      by decide, by decide, by decide, by decide, by decide, fun line hline => nomatch hline⟩

/-- Both units of a connection say what they are meant to. -/
def Connection.UnitsMean (env : Accounts) (c : Connection) : Prop :=
  ∃ host share mountpoint, c.host = some host ∧ c.share = some share ∧
    c.mountpoint = some mountpoint ∧
    Says sp glue (mountText env c)
      (mountSections (str "//" ++ host ++ str "/" ++ share) mountpoint
        (mountOptions (ownerIdsIn env c) (credentialsPathIn env c))) ∧
    Says sp glue (automountUnit c) (automountSections mountpoint)

/-- A connection whose share and mountpoint the reader takes as they are. -/
def Connection.IsPlain (c : Connection) : Prop :=
  ∃ host share mountpoint, c.host = some host ∧ c.share = some share ∧
    c.mountpoint = some mountpoint ∧
    (∀ d, share.getLast? = some d → sp.blank d = false) ∧
    (∀ d, mountpoint.getLast? = some d → sp.blank d = false ∧ d ≠ chr '\\') ∧
    chr '%' ∉ mountpoint

theorem credentialsPathIn_tame (env : Accounts) (h : c.WellFormed) :
    ∀ p ∈ credentialsPathIn env c, ∀ d ∈ p, isTame d = true := by
  intro p hp d hd
  unfold credentialsPathIn at hp
  rcases href : truthy c.credentialRef with _ | ref
  · rw [href] at hp
    exact nomatch hp
  · rw [href] at hp
    dsimp only at hp
    -- A reference the schema takes is an id, and only a present one is answered.
    have hid : isId ref = true := by
      refine h.credentialRef ref ?_
      unfold truthy at href
      rcases hfield : c.credentialRef with _ | v
      · rw [hfield] at href
        exact nomatch href
      · rw [hfield] at href
        dsimp only at href
        split at href
        · exact nomatch href
        · exact href
    -- The path is the fixed directory and the id, and neither has a character of its own
    -- meaning.
    by_cases hpresent : env.present ref = true
    · rw [if_pos hpresent] at hp
      cases hp
      have hdir : ∀ d ∈ str "/etc/smbpal/credentials/", isTame d = true := by decide
      exact (List.mem_append.mp hd).elim (hdir d)
        fun hd => isTame_of_isIdChar (isId_chars hid d hd)
    · rw [if_neg hpresent] at hp
      exact nomatch hp

/-- A text says what it is read as when no value has a `%`. -/
theorem says_of_read {text : Str} {sections : List (Lib.Section PyChar)}
    (hread : (sp.rules glue).read text = ([], sections))
    (hclean : ∀ s ∈ sections, ∀ d ∈ s.2, chr '%' ∉ d.2) : Says sp glue text sections := by
  unfold Says
  rw [hread]
  refine ⟨rfl, List.map_congr_left fun s hs => ?_⟩
  unfold asPieces asLiterals
  refine congrArg (s.1, ·) (List.map_congr_left fun d hd => ?_)
  rw [Lib.pieces_of_not_mem (chr '%') (hclean s hs d hd)]

/-- A value in front of which something visible stands. -/
theorem trim_append {a s : Str} (hhead : a.head?.any isVisible = true) (hs : s ≠ [])
    (hlast : ∀ d, s.getLast? = some d → sp.blank d = false) :
    (sp.rules glue).trim (a ++ s) = a ++ s := by
  refine Lib.LineRules.trim_eq_self _ (fun d hd => ?_) fun d hd => ?_
  · cases a with
    | nil => exact nomatch hhead
    | cons e a =>
        obtain rfl := Option.some.inj hd
        exact sp.blank_of_isVisible hhead
  · rw [List.getLast?_append_of_ne_nil _ hs] at hd
    exact hlast d hd

/-- What the schema says of the three values. -/
theorem wellFormed_values (h : c.WellFormed) {host share mountpoint : Str}
    (hhost : c.host = some host) (hshare : c.share = some share)
    (hplace : c.mountpoint = some mountpoint) :
    mountSource c = str "//" ++ host ++ str "/" ++ share ∧ share ≠ [] ∧ mountpoint ≠ [] ∧
      (mountSource c).getLast? ≠ some (chr '\\') ∧ chr '%' ∉ mountSource c := by
  have hname := h.share share hshare
  have hsource : mountSource c = str "//" ++ host ++ str "/" ++ share := by
    unfold mountSource
    rw [hhost, hshare]
    rfl
  refine ⟨hsource, hname.nonempty, ?_, ?_, ?_⟩
  · -- An absolute mountpoint has its slash, and a share name has no backslash and no `%`.
    rintro rfl
    exact Bool.false_ne_true (h.mountpoint [] hplace).absolute
  · rw [hsource, List.getLast?_append_of_ne_nil _ hname.nonempty]
    intro hlast
    have hback : chr '\\' ∉ share := hname.not_mem (by decide)
    exact hback (List.mem_of_getLast? hlast)
  · rw [hsource]
    simp only [List.mem_append, not_or]
    exact ⟨⟨⟨by decide, (h.host host hhost).not_mem (by decide)⟩, by decide⟩,
      hname.not_mem (by decide)⟩

/-- A mount unit that says what it is meant to says it of a plain share and a plain
    mountpoint. -/
theorem plain_of_says {source mountpoint options : Str}
    (h : (readMountSections sp glue source mountpoint options).map asPieces =
      (mountSections source mountpoint options).map asLiterals) :
    (sp.rules glue).trim source = source ∧ (sp.rules glue).trim mountpoint = mountpoint ∧
      mountpoint.getLast? ≠ some (chr '\\') ∧ chr '%' ∉ mountpoint := by
  have hmount := (List.cons.inj (List.cons.inj h).2).1
  have hdirectives := congrArg Prod.snd hmount
  by_cases hlast : mountpoint.getLast? = some (chr '\\')
  · -- One directive is missing.
    have hlen := congrArg List.length hdirectives
    simp only [asPieces, asLiterals, if_pos hlast, List.map_cons, List.map_nil, List.length_cons,
      List.length_nil, List.cons_append, List.nil_append] at hlen
    omega
  · simp only [asPieces, asLiterals, if_neg hlast, List.map_cons, List.map_nil, List.cons_append,
      List.nil_append, List.cons.injEq, Prod.mk.injEq, true_and] at hdirectives
    rcases hdirectives with ⟨hwhat, hwhere, -⟩
    rw [Lib.pieces_eq_literal_iff _ ((sp.rules glue).length_trim_le source)] at hwhat
    rw [Lib.pieces_eq_literal_iff _ ((sp.rules glue).length_trim_le mountpoint)] at hwhere
    exact ⟨hwhat.1, hwhere.1, hlast, hwhere.2⟩

/-- Both units say what they are meant to exactly when the connection has a host, a
    share and a mountpoint, neither the share nor the mountpoint ends with a space, and
    the mountpoint has no `%` and no backslash at its end. -/
theorem unitsMean_iff (env : Accounts) (h : c.WellFormed) :
    c.UnitsMean sp glue env ↔ c.IsPlain sp := by
  have htame := credentialsPathIn_tame env h
  constructor
  · rintro ⟨host, share, mountpoint, hhost, hshare, hplace, ⟨-, hsays⟩, -⟩
    rcases wellFormed_values h hhost hshare hplace with ⟨hsource, hne, -, hback, -⟩
    rw [mountText, read_mountUnit sp glue h hplace hback _ htame, ← hsource] at hsays
    -- What is read back is trimmed, so both texts are their own trimmings.
    rcases plain_of_says sp glue hsays with ⟨htrimSource, htrimPlace, hlast, hpercent⟩
    refine ⟨host, share, mountpoint, hhost, hshare, hplace, fun d hd => ?_, fun d hd => ?_,
      hpercent⟩
    · refine (sp.rules glue).trim_getLast (s := mountSource c) ?_
      rw [htrimSource, hsource, List.getLast?_append_of_ne_nil _ hne]
      exact hd
    · refine ⟨(sp.rules glue).trim_getLast (s := mountpoint) (by rw [htrimPlace]; exact hd), ?_⟩
      rintro rfl
      exact hlast hd
  · rintro ⟨host, share, mountpoint, hhost, hshare, hplace, hshareEnd, hplaceEnd, hpercent⟩
    rcases wellFormed_values h hhost hshare hplace with ⟨hsource, hne, hmp, hback, hclean⟩
    have hlast : mountpoint.getLast? ≠ some (chr '\\') := fun hend => (hplaceEnd _ hend).2 rfl
    have hplaceBlank : ∀ d, mountpoint.getLast? = some d → sp.blank d = false := fun d hd =>
      (hplaceEnd d hd).1
    have hsourceBlank : ∀ d, (mountSource c).getLast? = some d → sp.blank d = false := by
      rw [hsource, List.getLast?_append_of_ne_nil _ hne]
      exact hshareEnd
    have hsourceNe : mountSource c ≠ [] := List.cons_ne_nil _ _
    have htrimSource : (sp.rules glue).trim (mountSource c) = mountSource c := by
      rw [hsource]
      exact trim_append sp glue rfl hne hshareEnd
    have htrimPlace : (sp.rules glue).trim mountpoint = mountpoint := by
      have habs := List.isPrefixOf_iff_prefix.mp (h.mountpoint mountpoint hplace).absolute
      rcases habs with ⟨rest, rfl⟩
      exact Lib.LineRules.trim_eq_self _ (fun d hd => by
        obtain rfl := Option.some.inj hd
        exact sp.blank_of_isVisible (c := chr '/') (by decide)) hplaceBlank
    -- No option can hold a `%`, whatever the account and the reference are.
    have hoptions : chr '%' ∉ mountOptions (ownerIdsIn env c) (credentialsPathIn env c) :=
      fun hmem => absurd (mountOptions_tame (ownerIdsIn env c) htame _ hmem) (by decide)
    have hmount : readMountSections sp glue (mountSource c) mountpoint
        (mountOptions (ownerIdsIn env c) (credentialsPathIn env c)) =
        mountSections (mountSource c) mountpoint
          (mountOptions (ownerIdsIn env c) (credentialsPathIn env c)) := by
      unfold readMountSections mountSections
      rw [trim_append sp glue rfl hsourceNe hsourceBlank, htrimSource, htrimPlace, if_neg hlast]
      rfl
    refine ⟨host, share, mountpoint, hhost, hshare, hplace, ?_, ?_⟩
    · rw [← hsource]
      refine says_of_read sp glue ?_ fun s hs d hd => ?_
      · rw [mountText, read_mountUnit sp glue h hplace hback _ htame, hmount]
      · simp only [mountSections, List.mem_cons, List.not_mem_nil, or_false] at hs
        rcases hs with rfl | rfl
        · simp only [List.mem_cons, List.not_mem_nil, or_false] at hd
          rcases hd with rfl | rfl | rfl
          · exact List.mem_append.not.mpr (not_or.mpr ⟨by decide, hclean⟩)
          · decide
          · decide
        · simp only [List.mem_cons, List.not_mem_nil, or_false] at hd
          rcases hd with rfl | rfl | rfl | rfl
          · exact hclean
          · exact hpercent
          · decide
          · exact hoptions
    · refine says_of_read sp glue ?_ fun s hs d hd => ?_
      · rw [read_automountUnit sp glue h hplace hlast, trim_append sp glue rfl hmp hplaceBlank,
          htrimPlace]
        rfl
      · simp only [automountSections, List.mem_cons, List.not_mem_nil, or_false] at hs
        rcases hs with rfl | rfl | rfl
        · rw [List.mem_singleton.mp hd]
          exact List.mem_append.not.mpr (not_or.mpr ⟨by decide, hpercent⟩)
        · rw [List.mem_singleton.mp hd]
          exact hpercent
        · rw [List.mem_singleton.mp hd]
          decide

/-- The units of a connection of a valid config say what they are meant to exactly when
    it is plain. -/
theorem units_mean_config [Unicode] {doc : Config} (h : doc.Valid) (hc : c ∈ doc.connections)
    (env : Accounts) : c.UnitsMean sp glue env ↔ c.IsPlain sp :=
  unitsMean_iff sp glue env (h.sound.connections c hc)

end Units

section Examples

attribute [local instance] Unicode.ascii

/-- The music of a NAS, mounted somewhere. -/
def nasMusicAt (mountpoint : String) : Connection where
  id := some (str "music")
  host := some (str "nas.local")
  share := some (str "Music")
  mountpoint := some (str mountpoint)
  credentialRef := some (str "music")
  autoConnect := none
  owner := some (str "ada")
  fallbackHost := none
  credentialAccount := none
  keychainCredential := none
  disconnected := none

/-- A machine with its credentials and its account. -/
def adasAccounts : Accounts where
  present := fun _ => true
  passwd := fun _ => some { uid := 1000, gid := 1000 }

set_option maxRecDepth 10000 in
theorem units_mean_config_music :
    (nasMusicAt "/mnt/music").UnitsMean spaceOnly (str " ") adasAccounts := by
  have hvalid : ({ emptyConfig with connections := [nasMusicAt "/mnt/music"] } : Config).Valid := by
    decide +kernel
  refine (units_mean_config spaceOnly (str " ") hvalid List.mem_cons_self adasAccounts).mpr ?_
  refine ⟨str "nas.local", str "Music", str "/mnt/music", rfl, rfl, rfl, ?_, ?_, by decide⟩
  · intro d hd
    obtain rfl := Option.some.inj hd
    decide
  · intro d hd
    obtain rfl := Option.some.inj hd
    decide

set_option maxRecDepth 10000 in
/-- A `%` in a mountpoint is a specifier in the unit. -/
theorem percent_is_specifier :
    ({ emptyConfig with connections := [nasMusicAt "/mnt/%h"] } : Config).Valid ∧
      ¬(nasMusicAt "/mnt/%h").UnitsMean spaceOnly (str " ") adasAccounts := by
  have hvalid : ({ emptyConfig with connections := [nasMusicAt "/mnt/%h"] } : Config).Valid := by
    decide +kernel
  refine ⟨hvalid, fun hmeans => ?_⟩
  have hwf := hvalid.sound.connections _ List.mem_cons_self
  rcases (unitsMean_iff spaceOnly (str " ") adasAccounts hwf).mp hmeans with
    ⟨host, share, mountpoint, -, -, hplace, -, -, hpercent⟩
  obtain rfl := Option.some.inj hplace
  exact hpercent (by decide)

end Examples

end Smbpal
