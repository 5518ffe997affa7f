import Smbpal.Config.Operations
import Smbpal.Python.Directives

/-!
# The Generated `smbpal.conf`

`samba/conf.py`: the file SMBPal owns completely, generated whole from the config.

What it says is what Samba's reader makes of it: `Spaces.rules` are the rules of that
reader, and `LineRules.read` what it reads. The text is a row of settled blocks, one
for each enabled share, whatever its name and path are (`read_confLines`): a path that
ends in a backslash swallows the line after it, and no more. So a share never alters
the directives of another, and whether the file means what the config says is a
question about each share alone.

## Main definitions

* `render`: The text, or the refusal.
* `Spaces`: What the reader takes for a space.
* `Share.readAs`: The section a share is read as.
* `Share.intended`: The section it is meant to be.
* `Share.IsPlain`: Name and path are not null, have no space around them, and the path
  does not end in a backslash.

## Theorems

* `read_confLines`: Each enabled share is one section, in order.
* `intended_eq_iff`: Exactly when it is the one that is meant.
* `conf_means_config`: Exactly when the file means what the config says.
-/

namespace Smbpal

section Render

variable [Unicode]

/-- `HEADER`, line by line; each line ends. -/
def confHeader : List Str :=
  [ str "# Generated by SMBPal. Do not edit.",
    str "#",
    str "# This file is rewritten in full whenever a share changes. SMBPal owns it",
    str "# completely and never parses or modifies /etc/samba/smb.conf beyond the one",
    str "# marked include block that points here." ]

/-- `share.get("enabled", True)`, as a condition. -/
def Share.isEnabled (s : Share) : Bool :=
  match s.enabled with
  | none => true
  | some enabled => enabled.getD false

/-- `_safe`: the value of a field, or the refusal to write it. -/
def safe (s : Share) (key : String) (value : Option Str) : Except Exc Str :=
  match value with
  | none | some [] =>
      .error <| .of .generationRefused
        (str "share " ++ pyRepr s.id ++ str " has no usable " ++ str key)
  | some v =>
      if v.any (oneOf "\n\r\x00") then
        .error <| .detailed .generationRefused
          (str "share " ++ pyRepr s.id ++ str " has a " ++ str key ++
            str " containing a line break")
          (str ("This should have been caught by validation. Refusing to " ++
            "write it either way."))
      else
        .ok v

/-- The `valid users` line, when there is a user. -/
def validUsersLine (s : Share) : Except Exc (List Str) :=
  match s.credentialRef with
  | none | some [] => .ok []
  | some user => do
      let user ← safe s "credential_ref" (some user)
      pure [str "   valid users = " ++ user]

/-- `'yes' if ... else 'no'`. -/
def yesNo (b : Bool) : Str :=
  if b then str "yes" else str "no"

/-- The lines of a share's section. -/
def sectionLines (name path : Str) (readOnly : Bool) (users : List Str) : List Str :=
  [ str "[" ++ name ++ str "]",
    str "   path = " ++ path,
    str "   read only = " ++ yesNo readOnly,
    str "   browseable = yes",
    str "   guest ok = no" ] ++ users

/-- `_render_share`. -/
def renderShare (s : Share) : Except Exc Str := do
  let name ← safe s "name" s.name
  let path ← safe s "path" s.path
  let users ← validUsersLine s
  pure (join (str "\n") (sectionLines name path (s.readOnly.getD false) users) ++ str "\n")

/-- `render`. -/
def render (shares : List Share) : Except Exc Str := do
  let sections ← (shares.filter Share.isEnabled).mapM renderShare
  pure (join (str "\n") (confHeader.flatMap (fun line => line ++ str "\n") :: sections))

end Render

section Reading

variable (r : Lib.LineRules PyChar)

/-- The section a share's lines are read as. A backslash at the end of the path takes
    the next line with it. -/
def readSection (name path : Str) (readOnly : Bool) (user : Option Str) : Lib.Section PyChar :=
  (r.trim name,
    (if path.getLast? = some (chr '\\') then
      [(str "path", r.trim (path.dropLast ++ r.glue ++ (str "   read only = " ++ yesNo readOnly)))]
    else
      [(str "path", r.trim path), (str "read only", yesNo readOnly)]) ++
    [(str "browseable", str "yes"), (str "guest ok", str "no")] ++
    user.toList.map fun u => (str "valid users", u))

/-- The section that is meant. -/
def intendedSection (name path : Str) (readOnly : Bool) (user : Option Str) :
    Lib.Section PyChar :=
  (name,
    [(str "path", path), (str "read only", yesNo readOnly), (str "browseable", str "yes"),
      (str "guest ok", str "no")] ++ user.toList.map fun u => (str "valid users", u))

/-- Exactly when the section that is read is the one that is meant. -/
theorem readSection_eq_iff (name path : Str) (readOnly : Bool) (user : Option Str) :
    readSection r name path readOnly user = intendedSection name path readOnly user ↔
      r.trim name = name ∧ r.trim path = path ∧ path.getLast? ≠ some (chr '\\') := by
  unfold readSection intendedSection
  by_cases hpath : path.getLast? = some (chr '\\')
  · -- One directive is missing.
    rw [if_pos hpath]
    refine iff_of_false (fun h => ?_) fun h => h.2.2 hpath
    have hlen := congrArg (fun s => s.2.length) h
    simp only [List.length_append, List.length_cons, List.length_nil] at hlen
    omega
  · rw [if_neg hpath, Prod.mk.injEq]
    simp only [List.cons_append, List.nil_append, List.cons.injEq, Prod.mk.injEq, true_and,
      and_true]
    exact ⟨fun h => ⟨h.1, h.2, hpath⟩, fun h => ⟨h.1, h.2.1⟩⟩

end Reading

section Lines

variable (sp : Spaces) (glue : Str)

/-- A directive's line in a section. -/
def confLine (key value : Str) : Str :=
  str "   " ++ key ++ str " = " ++ value

theorem confLine_not_comment (key : Str) (hkey : isKey key = true) (value : Str) :
    (sp.rules glue).isComment (confLine key value) = false := by
  have hspaces : ∀ c ∈ str "   ", c = chr ' ' := by decide
  have hline := sp.param_not_comment glue hkey hspaces (str " = " ++ value)
  rw [confLine]
  simpa only [List.append_assoc] using hline

/-- What a line of a section says, whatever its value. -/
theorem item_confLine (key : Str) (hkey : isKey key = true) (value : Str) :
    (sp.rules glue).item (confLine key value) = .entry key ((sp.rules glue).trim value) := by
  have hspaces : ∀ c ∈ str "   ", c = chr ' ' := by decide
  have hspace : ∀ c ∈ str " ", c = chr ' ' := by decide
  have hitem := sp.item_param glue hkey hspaces hspace (chr ' ' :: value)
  have hline : confLine key value =
      str "   " ++ (key ++ str " " ++ chr '=' :: (chr ' ' :: value)) := by
    rw [confLine, show str " = " = str " " ++ [chr '=', chr ' '] from rfl]
    simp only [List.append_assoc, List.cons_append, List.nil_append]
  rw [hline, hitem]
  have hblank : ∀ c ∈ [chr ' '], (sp.rules glue).blank c = true := by
    intro c hc
    rw [List.mem_singleton.mp hc]
    exact sp.space
  exact congrArg _ ((sp.rules glue).trim_blank hblank value)

/-- An upright value is read as it is, from a line that is neither a comment nor
    joined. -/
theorem confLine_upright (key value : Str) (hkey : isKey key = true)
    (hvalue : isUpright value = true) :
    (sp.rules glue).item (confLine key value) = .entry key value ∧
      (sp.rules glue).isComment (confLine key value) = false ∧
      (sp.rules glue).continues (confLine key value) = false := by
  refine ⟨?_, confLine_not_comment sp glue key hkey value, sp.not_continues glue _ hvalue⟩
  rw [item_confLine sp glue key hkey, sp.trim_of_isUpright glue hvalue]

/-- The lines of the users, when there are any. -/
def userLines (user : Option Str) : List Str :=
  user.toList.map fun u => str "   valid users = " ++ u

theorem yesNo_upright (b : Bool) : isUpright (yesNo b) = true := by
  cases b with
  | false => decide
  | true => decide

/-- The lines after the path, and what they say. -/
theorem read_rest {user : Option Str} (huser : ∀ u ∈ user, isUpright u = true) :
    (sp.rules glue).joined ([str "   browseable = yes", str "   guest ok = no"] ++
        userLines user ++ [[]]) =
      [str "   browseable = yes", str "   guest ok = no"] ++ userLines user ++ [[]] ∧
    Lib.group (([str "   browseable = yes", str "   guest ok = no"] ++
        userLines user ++ [[]]).map (sp.rules glue).item) =
      ([(str "browseable", str "yes"), (str "guest ok", str "no")] ++
        user.toList.map fun u => (str "valid users", u), []) := by
  have hbrowse := confLine_upright sp glue (str "browseable") (str "yes") (by decide) (by decide)
  have hguest := confLine_upright sp glue (str "guest ok") (str "no") (by decide) (by decide)
  change (sp.rules glue).item (str "   browseable = yes") = _ ∧ _ at hbrowse
  change (sp.rules glue).item (str "   guest ok = no") = _ ∧ _ at hguest
  -- The empty line between two shares is no item.
  have hnil : (sp.rules glue).item [] = .nothing := (sp.rules glue).item_nil
  cases user with
  | none =>
      constructor
      · refine (sp.rules glue).joined_plain fun line hline => ?_
        simp only [userLines, Option.toList_none, List.map_nil, List.cons_append, List.nil_append,
          List.mem_cons, List.not_mem_nil, or_false] at hline
        rcases hline with rfl | rfl | rfl
        · exact hbrowse.2
        · exact hguest.2
        · exact sp.nil_plain glue
      · simp only [userLines, Option.toList_none, List.map_nil, List.cons_append, List.nil_append,
          List.map_cons, hbrowse.1, hguest.1, hnil, Lib.group]
  | some u =>
      have huser' := confLine_upright sp glue (str "valid users") u (by decide) (huser u rfl)
      change (sp.rules glue).item (str "   valid users = " ++ u) = _ ∧ _ at huser'
      constructor
      · refine (sp.rules glue).joined_plain fun line hline => ?_
        simp only [userLines, Option.toList_some, List.map_cons, List.map_nil, List.cons_append,
          List.nil_append, List.mem_cons, List.not_mem_nil, or_false] at hline
        rcases hline with rfl | rfl | rfl | rfl
        · exact hbrowse.2
        · exact hguest.2
        · exact huser'.2
        · exact sp.nil_plain glue
      · simp only [userLines, Option.toList_some, List.map_nil, List.cons_append, List.nil_append,
          List.map_cons, hbrowse.1, hguest.1, huser'.1, hnil, Lib.group]

/-- A share's lines, with the empty one behind them, are read as one section. -/
theorem read_sectionLines (name : Str) {path : Str} (hpath : path ≠ []) (readOnly : Bool)
    {user : Option Str} (huser : ∀ u ∈ user, isUpright u = true) :
    Lib.group (((sp.rules glue).joined
        (sectionLines name path readOnly (userLines user) ++ [[]])).map (sp.rules glue).item) =
      ([], [readSection (sp.rules glue) name path readOnly user]) := by
  have hname := sp.section_plain glue name
  have hsection := sp.item_section glue name
  have hrest := read_rest sp glue huser
  have hread := confLine_upright sp glue (str "read only") (yesNo readOnly) (by decide)
    (yesNo_upright readOnly)
  rw [show confLine (str "read only") (yesNo readOnly) = str "   read only = " ++ yesNo readOnly
    from rfl] at hread
  have hcomment := confLine_not_comment sp glue (str "path") (by decide) path
  change (sp.rules glue).isComment (str "   path = " ++ path) = false at hcomment
  have hcont := sp.continues_append glue (str "   path = ") hpath
  have hlines : sectionLines name path readOnly (userLines user) ++ [[]] =
      (chr '[' :: name ++ [chr ']']) :: (str "   path = " ++ path) ::
        (str "   read only = " ++ yesNo readOnly) ::
          ([str "   browseable = yes", str "   guest ok = no"] ++ userLines user ++ [[]]) := by
    rfl
  have hbelow : (sp.rules glue).joined ((str "   read only = " ++ yesNo readOnly) ::
      ([str "   browseable = yes", str "   guest ok = no"] ++ userLines user ++ [[]])) =
      (str "   read only = " ++ yesNo readOnly) ::
        ([str "   browseable = yes", str "   guest ok = no"] ++ userLines user ++ [[]]) := by
    rw [Lib.LineRules.joined_cons_plain _ hread.2, hrest.1]
  rw [hlines, Lib.LineRules.joined_cons_plain _ hname]
  unfold readSection
  by_cases hlast : path.getLast? = some (chr '\\')
  · -- The path takes the next line with it.
    rw [decide_eq_true hlast] at hcont
    have hjoin : (sp.rules glue).joinFirst (str "   path = " ++ path)
        ((str "   read only = " ++ yesNo readOnly) ::
          ([str "   browseable = yes", str "   guest ok = no"] ++ userLines user ++ [[]])) =
        confLine (str "path") (path.dropLast ++ glue ++
        (str "   read only = " ++ yesNo readOnly)) ::
          ([str "   browseable = yes", str "   guest ok = no"] ++ userLines user ++ [[]]) := by
      rw [Lib.LineRules.joinFirst, List.dropLast_append_of_ne_nil hpath]
      change (str "   path = " ++ path.dropLast ++ glue ++ _) :: _ =
        (str "   path = " ++ (path.dropLast ++ glue ++ _)) :: _
      simp only [List.append_assoc]
    rw [Lib.LineRules.joined_cons_continues _ ⟨hcomment, hcont⟩, hbelow, hjoin, if_pos hlast,
      List.map_cons, List.map_cons, hsection, item_confLine sp glue (str "path")
      (by decide), Lib.group,
      Lib.group, hrest.2]
    rfl
  · rw [decide_eq_false hlast] at hcont
    have hpathItem := item_confLine sp glue (str "path") (by decide) path
    change (sp.rules glue).item (str "   path = " ++ path) = _ at hpathItem
    rw [Lib.LineRules.joined_cons_plain _ ⟨hcomment, hcont⟩, hbelow, if_neg hlast,
      List.map_cons, List.map_cons, List.map_cons, hsection, hpathItem, hread.1, Lib.group,
      Lib.group, Lib.group, hrest.2]
    rfl

end Lines

theorem isUpright_of_isId {v : Str} (h : isId v = true) : isUpright v = true := by
  refine Spaces.isUpright_of_forall (isId_ne_nil h) fun c hc => ?_
  have hord := isIdChar_ord (isId_chars h c hc)
  constructor
  · rw [isVisible, Bool.and_eq_true, decide_eq_true_eq, decide_eq_true_eq]
    omega
  · rintro rfl
    have hback : ord (chr '\\') = 92 := rfl
    omega

section Rendering

variable [Unicode]

omit [Unicode] in
/-- Lines joined by line breaks, with one behind them. -/
theorem join_eq_blockText (sp : Spaces) (glue : Str) {lines : List Str} (h : lines ≠ []) :
    join (str "\n") lines ++ str "\n" = (sp.rules glue).blockText lines := by
  induction lines with
  | nil => exact absurd rfl h
  | cons line lines ih =>
      cases lines with
      | nil =>
          change line ++ str "\n" = line ++ str "\n" ++ []
          rw [List.append_nil]
      | cons next lines =>
          have hrest := ih (List.cons_ne_nil next lines)
          change line ++ str "\n" ++ join (str "\n") (next :: lines) ++ str "\n" =
            line ++ str "\n" ++ (sp.rules glue).blockText (next :: lines)
          rw [← hrest, List.append_assoc]

theorem safe_eq_ok (s : Share) (key : String) {v : Str} (hne : v ≠ [])
    (hclean : ∀ c ∈ str "\n\r\x00", c ∉ v) : safe s key (some v) = .ok v := by
  unfold safe
  cases v with
  | nil => exact absurd rfl hne
  | cons c v =>
      have hany : (c :: v).any (oneOf "\n\r\x00") = false := by
        rw [List.any_eq_false]
        intro d hd hone
        exact hclean d (of_decide_eq_true hone) hd
      dsimp only
      rw [hany, if_neg Bool.false_ne_true]

/-- The lines of a share whose name and path are not null. -/
def Share.lines (s : Share) : List Str :=
  sectionLines (s.name.getD []) (s.path.getD []) (s.readOnly.getD false)
    (userLines s.credentialRef)

/-- A share that can be rendered: it has a name and a path. -/
def Share.IsNamed (s : Share) : Prop :=
  s.name.isSome = true ∧ s.path.isSome = true

omit [Unicode] in
theorem IsPath.ne_nil {v : Str} (h : IsPath v) : v ≠ [] := by
  rintro rfl
  exact Bool.false_ne_true h.absolute

omit [Unicode] in
theorem isId_clean {v : Str} (h : isId v = true) : ∀ c ∈ str "\n\r\x00", c ∉ v := by
  intro c hc hv
  have hord := isIdChar_ord (isId_chars h c hv)
  have hall : ∀ d ∈ str "\n\r\x00", ord d < 45 := by decide
  have := hall c hc
  omega

theorem validUsersLine_eq {s : Share} (h : s.WellFormed) :
    validUsersLine s = .ok (userLines s.credentialRef) := by
  unfold validUsersLine
  rcases href : s.credentialRef with _ | user
  · rfl
  · have hid := h.credentialRef user href
    cases user with
    | nil => exact absurd hid (by decide)
    | cons c user =>
        dsimp only
        rw [safe_eq_ok s "credential_ref" (List.cons_ne_nil c user) (isId_clean hid)]
        rfl

/-- A share with a name and a path is rendered as the text of its lines. -/
theorem renderShare_eq (sp : Spaces) (glue : Str) {s : Share} (h : s.WellFormed)
    (hnamed : s.IsNamed) : renderShare s = .ok ((sp.rules glue).blockText s.lines) := by
  rcases Option.isSome_iff_exists.mp hnamed.1 with ⟨name, hname⟩
  rcases Option.isSome_iff_exists.mp hnamed.2 with ⟨path, hpath⟩
  have hnameOk := (h.name name hname).1
  have hpathOk := h.path path hpath
  -- The schema refuses in a name what would break a line, and so in a path.
  have hcleanName : ∀ c ∈ str "\n\r\x00", c ∉ name := by
    intro c hc
    have hsub : ∀ d ∈ str "\n\r\x00", d ∈ str shareNameForbidden := by decide
    exact hnameOk.not_mem (hsub c hc)
  have hcleanPath : ∀ c ∈ str "\n\r\x00", c ∉ path := by
    intro c hc
    have hsub : ∀ d ∈ str "\n\r\x00", d = chr '\n' ∨ d = chr '\r' ∨ d = chr '\x00' := by decide
    rcases hsub c hc with rfl | rfl | rfl
    · exact hpathOk.noLine.1
    · exact hpathOk.noLine.2
    · exact hpathOk.noNul
  unfold renderShare Share.lines
  rw [hname, hpath, safe_eq_ok s "name" hnameOk.nonempty hcleanName,
    safe_eq_ok s "path" hpathOk.ne_nil hcleanPath, validUsersLine_eq h]
  exact congrArg Except.ok (join_eq_blockText sp glue (List.cons_ne_nil _ _))

/-- A share that is rendered has a name and a path. -/
theorem isNamed_of_renderShare {s : Share} {text : Str} (h : renderShare s = .ok text) :
    s.IsNamed := by
  unfold renderShare at h
  constructor
  · cases hname : s.name with
    | none =>
        rw [hname] at h
        exact nomatch h
    | some name => rfl
  · cases hpath : s.path with
    | none =>
        rw [hpath] at h
        cases hsafe : safe s "name" s.name with
        | error e =>
            rw [hsafe] at h
            exact nomatch h
        | ok name =>
            rw [hsafe] at h
            exact nomatch h
    | some path => rfl

/-- No line of a share's section holds a line break. -/
theorem lines_oneLine {s : Share} (h : s.WellFormed) : ∀ line ∈ s.lines, chr '\n' ∉ line := by
  -- No value of a share has a line feed: the schema refuses one in each.
  have hname : chr '\n' ∉ s.name.getD [] := by
    rcases hs : s.name with _ | name
    · exact List.not_mem_nil
    · exact (h.name name hs).1.not_mem (by decide)
  have hpath : chr '\n' ∉ s.path.getD [] := by
    rcases hs : s.path with _ | path
    · exact List.not_mem_nil
    · exact (h.path path hs).noLine.1
  have hread : chr '\n' ∉ yesNo (s.readOnly.getD false) := by
    cases s.readOnly.getD false with
    | false => decide
    | true => decide
  intro line hline
  rcases List.mem_append.mp hline with hline | hline
  · simp only [List.mem_cons, List.not_mem_nil, or_false] at hline
    rcases hline with rfl | rfl | rfl | rfl | rfl
    · simp only [List.mem_append, not_or]
      exact ⟨⟨by decide, hname⟩, by decide⟩
    · simp only [List.mem_append, not_or]
      exact ⟨by decide, hpath⟩
    · simp only [List.mem_append, not_or]
      exact ⟨by decide, hread⟩
    · decide
    · decide
  · rcases List.mem_map.mp hline with ⟨u, hu, rfl⟩
    have huser := isId_clean (h.credentialRef u (Option.mem_toList.mp hu)) (chr '\n') (by decide)
    simp only [List.mem_append, not_or]
    exact ⟨by decide, huser⟩

/-- The lines of the generated file. -/
def confLines (shares : List Share) : List Str :=
  confHeader ++ shares.flatMap fun s => [] :: s.lines

omit [Unicode] in
/-- A line break between sections that end with one is an empty line. -/
theorem join_sections (sp : Spaces) (glue : Str) (first : List Str) (shares : List Share) :
    join (str "\n") ((sp.rules glue).blockText first ::
        shares.map fun s => (sp.rules glue).blockText s.lines) =
      (sp.rules glue).blockText (first ++ shares.flatMap fun s => [] :: s.lines) := by
  induction shares generalizing first with
  | nil =>
      rw [List.flatMap_nil, List.append_nil]
      rfl
  | cons s shares ih =>
      have hrest := ih s.lines
      change (sp.rules glue).blockText first ++ str "\n" ++ join (str "\n")
        ((sp.rules glue).blockText s.lines :: shares.map _) = _
      rw [hrest, List.flatMap_cons]
      unfold Lib.LineRules.blockText
      simp only [List.flatMap_append, List.cons_append, List.flatMap_cons, List.append_assoc,
        List.nil_append]
      rfl

/-- The text that is rendered when every enabled share has a name and a path. -/
theorem render_eq (sp : Spaces) (glue : Str) {shares : List Share}
    (h : ∀ s ∈ shares, s.WellFormed) (hnamed : ∀ s ∈ shares.filter Share.isEnabled, s.IsNamed) :
    render shares =
      .ok ((sp.rules glue).blockText (confLines (shares.filter Share.isEnabled))) := by
  have htexts : (shares.filter Share.isEnabled).mapM renderShare =
      .ok ((shares.filter Share.isEnabled).map fun s => (sp.rules glue).blockText s.lines) := by
    have hwf : ∀ s ∈ shares.filter Share.isEnabled, s.WellFormed := fun s hs =>
      h s (List.mem_of_mem_filter hs)
    generalize shares.filter Share.isEnabled = on at hnamed hwf
    induction on with
    | nil => rfl
    | cons s on ih =>
        rw [List.mapM_cons, renderShare_eq sp glue (hwf s List.mem_cons_self)
            (hnamed s List.mem_cons_self),
          ih (fun t ht => hnamed t (List.mem_cons_of_mem s ht))
            (fun t ht => hwf t (List.mem_cons_of_mem s ht))]
        rfl
  unfold render
  rw [htexts]
  exact congrArg Except.ok (join_sections sp glue _ _)

/-- When the text is rendered, every enabled share has a name and a path. -/
theorem isNamed_of_render {shares : List Share} {text : Str} (h : render shares = .ok text) :
    ∀ s ∈ shares.filter Share.isEnabled, s.IsNamed := by
  unfold render at h
  rcases htexts : (shares.filter Share.isEnabled).mapM renderShare with e | texts
  · rw [htexts] at h
    exact nomatch h
  -- Each share of the list is rendered, or the list is not.
  generalize shares.filter Share.isEnabled = on at htexts
  induction on generalizing texts with
  | nil => exact fun s hs => absurd hs List.not_mem_nil
  | cons s on ih =>
      rw [List.mapM_cons] at htexts
      rcases hs : renderShare s with e | text'
      · rw [hs] at htexts
        exact nomatch htexts
      rcases hon : on.mapM renderShare with e | rest
      · rw [hs, hon] at htexts
        exact nomatch htexts
      intro t ht
      rcases List.mem_cons.mp ht with rfl | ht
      · exact isNamed_of_renderShare hs
      · exact ih rest hon t ht

end Rendering

section Meaning

variable [Unicode] (sp : Spaces) (glue : Str)

/-- The section a share is read as. -/
def Share.readAs (s : Share) : Lib.Section PyChar :=
  readSection (sp.rules glue) (s.name.getD []) (s.path.getD []) (s.readOnly.getD false)
    s.credentialRef

/-- The section a share is meant to be, when it has a name and a path. -/
def Share.intended (s : Share) : Option (Lib.Section PyChar) := do
  let name ← s.name
  let path ← s.path
  pure (intendedSection name path (s.readOnly.getD false) s.credentialRef)

omit [Unicode] in
theorem confHeader_comments : ∀ line ∈ confHeader, (sp.rules glue).isComment line = true := by
  have hhash : ∀ line ∈ confHeader, ∃ rest, line = chr '#' :: rest := by
    intro line hline
    simp only [confHeader, List.mem_cons, List.not_mem_nil, or_false] at hline
    rcases hline with rfl | rfl | rfl | rfl | rfl
    all_goals exact ⟨_, rfl⟩
  intro line hline
  rcases hhash line hline with ⟨rest, rfl⟩
  have hblank : ∀ d ∈ ([] : Str), (sp.rules glue).blank d = true := fun d hd => nomatch hd
  exact Lib.LineRules.isComment_of_head (sp.rules glue) hblank
    (sp.blank_of_isVisible (c := chr '#') (by decide)) rest

omit [Unicode] in
/-- An empty line in front of each block, or behind each. -/
theorem shift_nil (lines : Share → List Str) (shares : List Share) :
    (shares.flatMap fun s => [] :: lines s) ++ [[]] =
      [] :: shares.flatMap fun s => lines s ++ [[]] := by
  induction shares with
  | nil => rfl
  | cons s shares ih =>
      rw [List.flatMap_cons, List.append_assoc, ih, List.flatMap_cons]
      simp only [List.cons_append, List.append_assoc, List.nil_append]

/-- The generated file is read as one section for each share, in order. -/
theorem read_confLines {shares : List Share} (h : ∀ s ∈ shares, s.WellFormed)
    (hnamed : ∀ s ∈ shares, s.IsNamed) :
    (sp.rules glue).read ((sp.rules glue).blockText (confLines shares)) =
      ([], shares.map (Share.readAs sp glue)) := by
  have honeLine : ∀ line ∈ confLines shares, (sp.rules glue).newline ∉ line := by
    intro line hline
    rcases List.mem_append.mp hline with hline | hline
    · have hall : ∀ line ∈ confHeader, chr '\n' ∉ line := by decide
      exact hall line hline
    · rcases List.mem_flatMap.mp hline with ⟨s, hs, hline⟩
      rcases List.mem_cons.mp hline with rfl | hline
      · exact List.not_mem_nil
      · exact lines_oneLine (h s hs) line hline
  have hsettled : ∀ s ∈ shares, (sp.rules glue).Settled (s.lines ++ [[]]) := fun s _ =>
    ⟨s.lines, [], rfl, rfl, rfl⟩
  rw [Lib.LineRules.read_blockText _ honeLine, Lib.LineRules.readLines, confLines,
    List.append_assoc, shift_nil, Lib.LineRules.joined_comments _ (confHeader_comments sp glue),
    Lib.LineRules.joined_cons_plain _ (sp.nil_plain glue), Lib.LineRules.joined_flatMap _ hsettled,
    List.map_cons, Lib.LineRules.item_nil, Lib.group, List.map_flatMap]
  -- The header is comments, so what is read are the sections, one for each share.
  refine Lib.group_flatMap fun s hs => ?_
  have hpath : s.path.getD [] ≠ [] := by
    rcases Option.isSome_iff_exists.mp (hnamed s hs).2 with ⟨path, hpath⟩
    rw [hpath]
    exact ((h s hs).path path hpath).ne_nil
  exact read_sectionLines sp glue (s.name.getD []) hpath (s.readOnly.getD false)
    fun u hu => isUpright_of_isId ((h s hs).credentialRef u hu)

/-- The text that is rendered says what the shares are meant to be. -/
def MeansConfig (shares : List Share) : Prop :=
  ∃ text sections, render shares = .ok text ∧
    (shares.filter Share.isEnabled).mapM Share.intended = some sections ∧
    (sp.rules glue).read text = ([], sections)

/-- A share whose name and path the reader takes as they are. -/
def Share.IsPlain (s : Share) : Prop :=
  ∃ name path, s.name = some name ∧ s.path = some path ∧
    (sp.rules glue).trim name = name ∧ (sp.rules glue).trim path = path ∧
    path.getLast? ≠ some (chr '\\')

omit [Unicode] in
theorem intended_eq_iff {s : Share} (hnamed : s.IsNamed) :
    s.intended = some (s.readAs sp glue) ↔ s.IsPlain sp glue := by
  rcases Option.isSome_iff_exists.mp hnamed.1 with ⟨name, hname⟩
  rcases Option.isSome_iff_exists.mp hnamed.2 with ⟨path, hpath⟩
  have hiff := readSection_eq_iff (sp.rules glue) name path (s.readOnly.getD false) s.credentialRef
  unfold Share.intended Share.readAs Share.IsPlain
  rw [hname, hpath]
  change some (intendedSection name path (s.readOnly.getD false) s.credentialRef) =
    some (readSection (sp.rules glue) name path (s.readOnly.getD false) s.credentialRef) ↔ _
  rw [Option.some.injEq, eq_comm, hiff]
  constructor
  · exact fun h => ⟨name, path, rfl, rfl, h⟩
  · rintro ⟨name', path', hname', hpath', h⟩
    cases hname'
    cases hpath'
    exact h

omit [Unicode] in
theorem mapM_intended_eq_iff (shares : List Share) :
    shares.mapM Share.intended = some (shares.map (Share.readAs sp glue)) ↔
      ∀ s ∈ shares, s.intended = some (s.readAs sp glue) := by
  induction shares with
  | nil => exact iff_of_true rfl fun s hs => absurd hs List.not_mem_nil
  | cons s shares ih =>
      rw [List.mapM_cons, List.map_cons, List.forall_mem_cons, ← ih]
      rcases hs : s.intended with _ | meant
      · exact iff_of_false (fun h => nomatch h) fun h => nomatch h.1
      · rcases hrest : shares.mapM Share.intended with _ | rest
        · exact iff_of_false (fun h => nomatch h) fun h => nomatch h.2
        · change some (meant :: rest) = some _ ↔ some meant = some _ ∧ some rest = some _
          simp only [Option.some.injEq, List.cons.injEq]

/-- What the file says is what the shares are meant to be exactly when every enabled
    one is plain. -/
theorem meansConfig_iff {shares : List Share} (h : ∀ s ∈ shares, s.WellFormed) :
    MeansConfig sp glue shares ↔
      ∀ s ∈ shares.filter Share.isEnabled, s.IsPlain sp glue := by
  have hwf : ∀ s ∈ shares.filter Share.isEnabled, s.WellFormed := fun s hs =>
    h s (List.mem_of_mem_filter hs)
  constructor
  · rintro ⟨text, sections, hrender, hmeant, hread⟩
    have hnamed := isNamed_of_render hrender
    rw [render_eq sp glue h hnamed, Except.ok.injEq] at hrender
    rw [← hrender, read_confLines sp glue hwf hnamed, Prod.mk.injEq] at hread
    rw [← hread.2, mapM_intended_eq_iff] at hmeant
    exact fun s hs => (intended_eq_iff sp glue (hnamed s hs)).mp (hmeant s hs)
  · intro hplain
    have hnamed : ∀ s ∈ shares.filter Share.isEnabled, s.IsNamed := by
      intro s hs
      rcases hplain s hs with ⟨name, path, hname, hpath, -⟩
      exact ⟨by rw [hname]; rfl, by rw [hpath]; rfl⟩
    refine ⟨_, _, render_eq sp glue h hnamed, ?_, read_confLines sp glue hwf hnamed⟩
    rw [mapM_intended_eq_iff]
    exact fun s hs => (intended_eq_iff sp glue (hnamed s hs)).mpr (hplain s hs)

/-- A share as the applier serves it, which is not always as configured. -/
def Share.servedAs (effective : Share → Option Bool) (s : Share) : Share :=
  { s with readOnly := effective s }

/-- The generated file means what a valid config says exactly when each enabled share
    has a name and a path, no space around either, and no backslash at the end of the
    path. -/
theorem conf_means_config {doc : Config} (h : doc.Valid) (effective : Share → Option Bool) :
    MeansConfig sp glue (doc.shares.map (Share.servedAs effective)) ↔
      ∀ s ∈ doc.shares, s.isEnabled = true → s.IsPlain sp glue := by
  have hwf : ∀ s ∈ doc.shares.map (Share.servedAs effective), s.WellFormed := by
    intro t ht
    rcases List.mem_map.mp ht with ⟨s, hs, rfl⟩
    have := h.sound.shares s hs
    exact ⟨this.id, this.name, this.path, this.credentialRef⟩
  rw [meansConfig_iff sp glue hwf]
  constructor
  · intro hplain s hs hon
    exact hplain (s.servedAs effective)
      (List.mem_filter.mpr ⟨List.mem_map_of_mem hs, hon⟩)
  · intro hplain t ht
    rcases List.mem_filter.mp ht with ⟨ht, hon⟩
    rcases List.mem_map.mp ht with ⟨s, hs, rfl⟩
    exact hplain s hs hon

end Meaning

section Examples

attribute [local instance] Unicode.ascii

/-- A document with one share. -/
def sharing (path : String) : Config :=
  { emptyConfig with
    shares :=
      [{ id := some (str "films")
         name := some (str "Films")
         path := some (str path)
         readOnly := some true
         credentialRef := some (str "ada")
         enabled := none }] }

set_option maxRecDepth 10000 in
theorem conf_means_config_films :
    MeansConfig spaceOnly [] ((sharing "/srv/films").shares.map
    (Share.servedAs Share.readOnly)) := by
  have hvalid : (sharing "/srv/films").Valid := by decide +kernel
  refine (conf_means_config spaceOnly [] hvalid Share.readOnly).mpr fun s hs _ => ?_
  rw [List.mem_singleton.mp hs]
  exact ⟨str "Films", str "/srv/films", rfl, rfl, by decide +kernel, by decide +kernel,
    by decide +kernel⟩

set_option maxRecDepth 10000 in
/-- A path that ends in a backslash swallows the read only line. -/
theorem backslash_swallows_directive :
    (sharing "/srv/films\\").Valid ∧
      ¬MeansConfig spaceOnly []
        ((sharing "/srv/films\\").shares.map (Share.servedAs Share.readOnly)) := by
  have hvalid : (sharing "/srv/films\\").Valid := by decide +kernel
  refine ⟨hvalid, fun hmeans => ?_⟩
  rw [show (sharing "/srv/films\\").shares.map (Share.servedAs Share.readOnly) =
    (sharing "/srv/films\\").shares from rfl,
    meansConfig_iff spaceOnly [] hvalid.sound.shares] at hmeans
  rcases hmeans _ (List.mem_filter.mpr ⟨List.mem_cons_self, rfl⟩) with
    ⟨name, path, -, hpath, -, -, hlast⟩
  cases hpath
  exact hlast (by decide +kernel)

end Examples

end Smbpal
