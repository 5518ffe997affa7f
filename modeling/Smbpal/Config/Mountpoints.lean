import Mathlib.Data.List.Nodup
import Mathlib.Data.List.Perm.Subperm
import Smbpal.Config.Operations
import Smbpal.Lib.Directives
import Smbpal.Python.Dumps

/-!
# Derived Mountpoints

Where `default_mountpoint` puts a connection that says no mountpoint: under the root of the
platform's style, by the name of the share, the host added when that is taken, and a number when
that is taken too.

The numbering ends, because as many numbers as there are paths taken cannot all be
(`freeSuffix_free`). What is left of the share's name once whitespace, dots and whitespace again
are stripped may still start with a dot, and then the drive is hidden: `derives_shown_iff`.

## Main definitions

* `baseOf`: The directory under which a connection is mounted.
* `IsShown`: A path under it that a file manager shows.
* `Hides`: A share name that keeps a dot in front.

## Theorems

* `freeSuffix_spec`, `freeSuffix_free`: The numbering.
* `volumeName_dot_iff`: Which names start with a dot once they are stripped.
* `derives_shown_iff`: When a derived mountpoint is free and shown.
-/

namespace Smbpal

/-- The directory under which a connection is mounted. -/
def baseOf (style : MountpointStyle) (owner : Option Str) : Str :=
  if style.perUser then style.root ++ str "/" ++ pyStr owner else style.root

/-- A path of one component under a directory, which a file manager shows. -/
def IsShown (base path : Str) : Prop :=
  ∃ component, path = base ++ str "/" ++ component ∧ component ≠ [] ∧ chr '/' ∉ component ∧
    component ≠ str "." ∧ component ≠ str ".." ∧ startsWith component "." = false

/-- Behind the dots it starts with, and whitespace, there is another dot that the stripping
    leaves. -/
def Hides (share : Str) : Prop :=
  ∃ dots spaces rest, strip share = dots ++ spaces ++ chr '.' :: rest ∧
    dots ≠ [] ∧ (∀ d ∈ dots, d = chr '.') ∧ spaces ≠ [] ∧ (∀ d ∈ spaces, isSpace d = true) ∧
      ∃ d ∈ rest, d ≠ chr '.'

section Numbering

variable {taken : List Str} {path : Nat → Str}

/-- The loop stops at a path that is free, or runs out of steps; all before it are taken. -/
theorem freeSuffix_spec (fuel n : Nat) :
    n ≤ freeSuffix taken path fuel n ∧ freeSuffix taken path fuel n ≤ n + fuel ∧
      (∀ m, n ≤ m → m < freeSuffix taken path fuel n → path m ∈ taken) ∧
        (path (freeSuffix taken path fuel n) ∉ taken ∨
          freeSuffix taken path fuel n = n + fuel) := by
  induction fuel generalizing n with
  | zero =>
      refine ⟨Nat.le_refl n, Nat.le_refl n, fun m hn hm => ?_, Or.inr rfl⟩
      exact absurd (Nat.lt_of_le_of_lt hn hm) (Nat.lt_irrefl n)
  | succ fuel ih =>
      rw [freeSuffix]
      by_cases hn : path n ∈ taken
      · rw [if_pos hn]
        rcases ih (n + 1) with ⟨hle, hbound, hbefore, hend⟩
        refine ⟨by omega, by omega, fun m hnm hm => ?_, hend.imp_right fun h => by omega⟩
        by_cases heq : m = n
        · rwa [heq]
        · exact hbefore m (by omega) hm
      · rw [if_neg hn]
        exact ⟨Nat.le_refl n, by omega, fun m hnm hm => absurd hm (by omega), Or.inl hn⟩

/-- One step more than there are paths is never needed. -/
theorem freeSuffix_free (hinj : Function.Injective path) (n : Nat) :
    path (freeSuffix taken path taken.length n) ∉ taken := by
  rcases @freeSuffix_spec taken path taken.length n with ⟨-, -, hbefore, hfree | hend⟩
  · exact hfree
  · intro hmem
    have hsub : (List.range' n (taken.length + 1)).map path ⊆ taken := by
      intro p hp
      rcases List.mem_map.mp hp with ⟨m, hm, rfl⟩
      have hm := List.mem_range'_1.mp hm
      by_cases hlast : m = n + taken.length
      · rw [hlast, ← hend]
        exact hmem
      · exact hbefore m hm.1 (by omega)
    have hnodup : ((List.range' n (taken.length + 1)).map path).Nodup :=
      List.Nodup.map hinj List.nodup_range'
    have hlength := (List.subperm_of_subset hnodup hsub).length_le
    rw [List.length_map, List.length_range'] at hlength
    omega

end Numbering

section Stripping

/-- What is left after stripping does not end with what was stripped. -/
theorem stripWhile_last {p : PyChar → Bool} {s t : Str} {c : PyChar}
    (h : stripWhile p s = t ++ [c]) : p c = false := by
  by_contra hc
  rw [Bool.not_eq_false] at hc
  have hsame : (t ++ [c]).rdropWhile p = t ++ [c] := by
    rw [← h]
    exact List.rdropWhile_idempotent p _
  rw [List.rdropWhile_concat_pos p t c hc] at hsame
  have hlength := (List.rdropWhile_prefix p t).length_le
  rw [hsame, List.length_append, List.length_singleton] at hlength
  omega

/-- What is left of a name starts with a dot when the name hides. -/
theorem stripped_dot {share : Str} (h : Hides share) :
    ∃ rest, strip (stripChar '.' (strip share)) = chr '.' :: rest := by
  rcases h with ⟨dots, spaces, rest, hshare, -, hdots, hspaces, hspace, d, hd, hne⟩
  rcases List.append_of_mem hd with ⟨before, after, rfl⟩
  rw [hshare]
  -- The dots in front go, and the blank behind them stops it.
  have hfront : (dots ++ spaces ++ chr '.' :: (before ++ d :: after)).dropWhile
      (fun d => decide (d = chr '.')) = spaces ++ chr '.' :: (before ++ d :: after) := by
    rw [List.append_assoc, List.dropWhile_append_of_pos fun d hd => decide_eq_true (hdots d hd)]
    cases spaces with
    | nil => exact absurd rfl hspaces
    | cons s spaces =>
        have hs : s ≠ chr '.' := by
          rintro rfl
          exact absurd (hspace _ List.mem_cons_self) (by decide)
        exact List.dropWhile_cons_of_neg fun h => hs (of_decide_eq_true h)
  -- At the back it stops at the character that is no dot.
  have hdot : stripChar '.' (dots ++ spaces ++ chr '.' :: (before ++ d :: after)) =
      spaces ++ chr '.' :: (before ++ d :: after.rdropWhile fun d => decide (d = chr '.')) := by
    have hback : ((spaces ++ chr '.' :: before) ++ d :: after).rdropWhile
        (fun d => decide (d = chr '.')) = (spaces ++ chr '.' :: before) ++
          d :: after.rdropWhile fun d => decide (d = chr '.') :=
      Lib.LineRules.rdropWhile_append_of_not (p := fun d => decide (d = chr '.')) (c := d)
        (decide_eq_false hne) _ _
    rw [List.append_assoc, List.cons_append, List.append_assoc, List.cons_append] at hback
    unfold stripChar stripWhile
    rw [hfront, hback]
  -- The blanks go next, and the dot behind them is in front.
  have hspaced : (spaces ++ chr '.' :: (before ++ d ::
      after.rdropWhile fun d => decide (d = chr '.'))).dropWhile isSpace =
        chr '.' :: (before ++ d :: after.rdropWhile fun d => decide (d = chr '.')) := by
    rw [List.dropWhile_append_of_pos hspace]
    exact List.dropWhile_cons_of_neg (by decide)
  rw [hdot, strip, stripWhile, hspaced]
  exact ⟨_, Lib.LineRules.rdropWhile_append_of_not (p := isSpace) (by decide) [] _⟩

/-- When it does, the name hides. -/
theorem hides_of_stripped {share rest : Str}
    (h : strip (stripChar '.' (strip share)) = chr '.' :: rest) : Hides share := by
  rcases stripWhile_parts isSpace (stripChar '.' (strip share))
    with ⟨spaces, tail, hparts, hspace, -⟩
  rcases stripWhile_parts (fun d => decide (d = chr '.')) (strip share) with
    ⟨dots, dots', hname, hdots, -⟩
  have hinner : stripChar '.' (strip share) = spaces ++ chr '.' :: (rest ++ tail) := by
    have hcore : stripWhile isSpace (stripChar '.' (strip share)) = chr '.' :: rest := h
    rw [hcore, List.append_assoc, List.cons_append] at hparts
    exact hparts
  have hshare : strip share = dots ++ spaces ++ chr '.' :: (rest ++ tail ++ dots') := by
    have hcore : stripWhile (fun d => decide (d = chr '.')) (strip share) =
        spaces ++ chr '.' :: (rest ++ tail) := hinner
    rw [hcore] at hname
    rw [hname]
    simp only [List.append_assoc, List.cons_append]
  -- What the dots were stripped off does not start with one, so there is whitespace first;
  have hspaces : spaces ≠ [] := by
    rintro rfl
    have hhead := stripWhile_head (p := fun d => decide (d = chr '.')) hinner
    exact absurd hhead (by decide)
  -- what the whitespace was stripped off does not start with it, so there are dots first;
  have hdotsne : dots ≠ [] := by
    rintro rfl
    cases spaces with
    | nil => exact hspaces rfl
    | cons s spaces =>
        have hhead := stripWhile_head (p := isSpace) hshare
        rw [hspace s List.mem_cons_self] at hhead
        exact absurd hhead (by decide)
  refine ⟨dots, spaces, rest ++ tail ++ dots', hshare, hdotsne,
    fun d hd => of_decide_eq_true (hdots d hd), hspaces, hspace, ?_⟩
  -- and what the dots were stripped off does not end with one.
  by_contra hall
  push Not at hall
  have hend : chr '.' :: (rest ++ tail) ≠ [] := List.cons_ne_nil _ _
  have hlast : (chr '.' :: (rest ++ tail)).getLast hend = chr '.' := by
    rcases List.mem_cons.mp (List.getLast_mem hend) with h | h
    · exact h
    · exact hall _ (List.mem_append_left _ h)
  rw [← List.dropLast_append_getLast hend, ← List.append_assoc] at hinner
  have hnot := stripWhile_last (p := fun d => decide (d = chr '.')) hinner
  rw [hlast] at hnot
  exact absurd hnot (by decide)

end Stripping

section Derived

variable {share : Str} {owner host : Option Str} {taken : List Str} {style : MountpointStyle}

theorem startsWith_dot {s : Str} : startsWith s "." = true ↔ ∃ rest, s = chr '.' :: rest := by
  rw [startsWith, List.isPrefixOf_iff_prefix]
  constructor
  · rintro ⟨rest, h⟩
    exact ⟨rest, h.symm⟩
  · rintro ⟨rest, rfl⟩
    exact ⟨rest, rfl⟩

/-- A name starts with a dot once it is stripped exactly when it hides. -/
theorem volumeName_dot_iff : startsWith (volumeName share) "." = true ↔ Hides share := by
  rw [startsWith_dot]
  unfold volumeName
  constructor
  · rintro ⟨rest, h⟩
    by_cases hnil : strip (stripChar '.' (strip share)) = []
    · rw [if_pos hnil] at h
      exact absurd (List.cons.inj h).1 (by decide)
    · rw [if_neg hnil] at h
      exact hides_of_stripped h
  · intro h
    rcases stripped_dot h with ⟨rest, hrest⟩
    refine ⟨rest, ?_⟩
    rw [if_neg fun hnil => List.cons_ne_nil _ _ (hrest.symm.trans hnil), hrest]

/-- Nothing but what the share's name has is in the drive's. -/
theorem volumeName_spec (hshare : chr '/' ∉ share) :
    volumeName share ≠ [] ∧ chr '/' ∉ volumeName share := by
  unfold volumeName
  by_cases hnil : strip (stripChar '.' (strip share)) = []
  · rw [if_pos hnil]
    exact ⟨by decide, by decide⟩
  · rw [if_neg hnil]
    refine ⟨hnil, ?_⟩
    unfold strip stripChar
    rwa [mem_stripWhile (by decide), mem_stripWhile (by decide), mem_stripWhile (by decide)]

/-- What is added to the drive's name leaves its front, and adds no slash. -/
theorem isShown_iff {base name tail : Str} (hname : name ≠ [] ∧ chr '/' ∉ name)
    (htail : chr '/' ∉ tail) :
    IsShown base (base ++ str "/" ++ (name ++ tail)) ↔ startsWith name "." = false := by
  rcases hname with ⟨hne, hslash⟩
  -- The tail comes after the name, and a name is not empty.
  have hfront : startsWith (name ++ tail) "." = startsWith name "." := by
    cases name with
    | nil => exact absurd rfl hne
    | cons c name => rfl
  constructor
  · rintro ⟨component, hpath, -, -, -, -, hdot⟩
    rw [← List.append_cancel_left hpath, hfront] at hdot
    exact hdot
  · intro hdot
    refine ⟨name ++ tail, rfl, List.append_ne_nil_of_left_ne_nil hne tail,
      fun h => (List.mem_append.mp h).elim hslash htail, ?_, ?_, hfront.trans hdot⟩
    · intro h
      rw [← hfront, h] at hdot
      exact absurd hdot (by decide)
    · intro h
      rw [← hfront, h] at hdot
      exact absurd hdot (by decide)

theorem not_mem_digits (n : Nat) : chr '/' ∉ digits n := fun h =>
  absurd (isDigit_of_mem_digits h) (by decide)

/-- What the host adds to the drive's name. -/
def hostTail (host : Option Str) : Str :=
  match host with
  | some h => if h = [] then [] else str " on " ++ h
  | none => []

theorem hostTail_slash (hhost : NullOr (IsName 253 hostForbidden) host) :
    chr '/' ∉ hostTail host := by
  cases host with
  | none => exact List.not_mem_nil
  | some h =>
      unfold hostTail
      dsimp only
      by_cases hnil : h = []
      · rw [if_pos hnil]
        exact List.not_mem_nil
      · rw [if_neg hnil, List.mem_append]
        rintro (hmem | hmem)
        · exact absurd hmem (by decide)
        · exact (hhost h rfl).not_mem (by decide) hmem

/-- The candidates in order. -/
theorem defaultMountpoint_eq (howner : style.perUser = true → ∃ name, owner = some name ∧ name ≠ [])
    {path : Str → Str} (hpath : path = fun tail =>
      baseOf style owner ++ str "/" ++ (volumeName share ++ tail)) :
    defaultMountpoint share owner taken host style =
      if path [] ∉ taken then .ok (path [])
      else if path (hostTail host) ∉ taken then .ok (path (hostTail host))
      else .ok (path (hostTail host ++ str " " ++ digits (freeSuffix taken
        (fun n => path (hostTail host ++ str " " ++ digits n)) taken.length 2))) := by
  -- A path per user is only asked for a user with a name.
  have hok : ¬(style.perUser = true ∧ (owner = none ∨ owner = some [])) := by
    rintro ⟨huser, hnone⟩
    rcases howner huser with ⟨name, rfl, hname⟩
    rcases hnone with h | h
    · cases h
    · exact hname (Option.some.inj h)
  subst hpath
  unfold defaultMountpoint
  rw [if_neg hok]
  simp only [List.append_nil, ← List.append_assoc]
  cases host with
  | none =>
      rw [show hostTail none = [] from rfl]
      simp only [List.append_nil]
      rfl
  | some h =>
      -- An empty host counts as none.
      by_cases hnil : h = []
      · simp only [hnil, if_pos, hostTail, List.append_nil]
        rfl
      · simp only [if_neg hnil, hostTail, baseOf, List.append_assoc]

/-- Where a connection goes: the drive's name with something behind it, free. -/
theorem defaultMountpoint_spec (howner : style.perUser = true →
    ∃ name, owner = some name ∧ name ≠ [])
    (hhost : NullOr (IsName 253 hostForbidden) host) :
    ∃ tail, defaultMountpoint share owner taken host style =
        .ok (baseOf style owner ++ str "/" ++ (volumeName share ++ tail)) ∧
      baseOf style owner ++ str "/" ++ (volumeName share ++ tail) ∉ taken ∧ chr '/' ∉ tail := by
  obtain ⟨path, hpath⟩ : ∃ path : Str → Str, path = fun tail =>
    baseOf style owner ++ str "/" ++ (volumeName share ++ tail) := ⟨_, rfl⟩
  have htail := hostTail_slash hhost
  have hgives : ∀ tail, path tail = baseOf style owner ++ str "/" ++ (volumeName share ++ tail) :=
    fun tail => congrFun hpath tail
  simp only [← hgives]
  rw [defaultMountpoint_eq howner hpath]
  by_cases hfree : path [] ∉ taken
  · -- The first of three that is free is taken.
    exact ⟨[], if_pos hfree, hfree, List.not_mem_nil⟩
  · rw [if_neg hfree]
    by_cases hhostFree : path (hostTail host) ∉ taken
    · exact ⟨hostTail host, if_pos hhostFree, hhostFree, htail⟩
    · rw [if_neg hhostFree]
      -- The numbered paths all differ, so among more than are taken one is free.
      have hinj : Function.Injective fun n => path (hostTail host ++ str " " ++ digits n) := by
        intro m n h
        dsimp only at h
        rw [hgives, hgives] at h
        exact digits_injective
          (List.append_cancel_left (List.append_cancel_left (List.append_cancel_left h)))
      refine ⟨_, rfl, freeSuffix_free hinj 2, fun h => ?_⟩
      -- The tail is the host and a number, and neither has a slash.
      rcases List.mem_append.mp h with h | h
      · rcases List.mem_append.mp h with h | h
        · exact htail h
        · exact absurd h (by decide)
      · exact not_mem_digits _ h

/-- A derived mountpoint is free, and it is shown exactly when the share's name does not keep a
    dot in front. -/
theorem derives_shown_iff (hshare : IsName 80 remoteShareNameForbidden share)
    (hhost : NullOr (IsName 253 hostForbidden) host)
    (howner : style.perUser = true → ∃ name, owner = some name ∧ name ≠ []) :
    (∃ path, defaultMountpoint share owner taken host style = .ok path ∧ path ∉ taken ∧
      IsShown (baseOf style owner) path) ↔ ¬Hides share := by
  have hname := volumeName_spec (hshare.not_mem (by decide))
  rcases @defaultMountpoint_spec share owner host taken style howner hhost with
    ⟨tail, hpath, hfree, htail⟩
  rw [← volumeName_dot_iff, Bool.not_eq_true, ← isShown_iff hname htail]
  constructor
  · rintro ⟨path, hok, -, hshown⟩
    rw [hpath] at hok
    rwa [← Except.ok.inj hok] at hshown
  · intro hshown
    exact ⟨_, hpath, hfree, hshown⟩

end Derived

section Examples

/-- Music is taken, on that host too, and the number is free. -/
theorem shown_second_music :
    ∃ path, defaultMountpoint (str "Music") (some (str "pi"))
        [str "/media/pi/Music", str "/media/pi/Music on nas.local"] (some (str "nas.local"))
        linuxStyle = .ok path ∧
      path ∉ [str "/media/pi/Music", str "/media/pi/Music on nas.local"] ∧
      IsShown (baseOf linuxStyle (some (str "pi"))) path := by
  refine (derives_shown_iff ⟨by decide, by decide, by decide⟩ ?_ ?_).mpr ?_
  · intro v hv
    obtain rfl := Option.some.inj hv
    exact ⟨by decide, by decide, by decide⟩
  · exact fun _ => ⟨_, rfl, by decide⟩
  · rw [← volumeName_dot_iff]
    decide

/-- The dot behind the first one and a blank is left. -/
theorem second_dot_hides : IsName 80 remoteShareNameForbidden (str ". .private") ∧
    ¬∃ path, defaultMountpoint (str ". .private") (some (str "pi")) [] none linuxStyle = .ok path ∧
      path ∉ [] ∧ IsShown (baseOf linuxStyle (some (str "pi"))) path := by
  have hpath : defaultMountpoint (str ". .private") (some (str "pi")) [] none linuxStyle =
      .ok (baseOf linuxStyle (some (str "pi")) ++ str "/" ++ (str ".private" ++ [])) := by
    decide +kernel
  refine ⟨⟨by decide, by decide, by decide⟩, ?_⟩
  rintro ⟨path, hok, -, hshown⟩
  rw [hpath] at hok
  rw [← Except.ok.inj hok] at hshown
  have hdot := (isShown_iff ⟨by decide, by decide⟩ List.not_mem_nil).mp hshown
  exact absurd hdot (by decide)

end Examples

end Smbpal
