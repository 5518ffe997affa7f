import Smbpal.Helper.Inspect
import Smbpal.Shares.Ownership

/-!
# Which Folders May Be Shared

`share_path_verdict` and `inspect_path` in `helper/smbpal-helper.c`: which folder a path
leads to, and whether the helper lets it be shared.

A path is resolved before it is judged. What `realpath` answers is a list of names, none of
which is empty, a dot or two, so that to begin with a root is to lie below it
(`underRoot_iff`), whatever links the path had in it.

The policy refuses a home directory by comparing the folder with the home of one account:
the one that the system names for the folder's owner. A home that belongs to another user
than its own account's passes (`others_home_served`). Apart from such homes, what is let
through lies strictly below `/Users` or `/Volumes`, belongs to a person and is nobody's home
(`serves_no_forbidden_iff`).

What the system has of a folder's name is what `realpath` writes, however the name was
spelled. A relative home directory is looked for at the root, where the helper runs.

## Main definitions

* `FileSystem`, `realpath`: Names, links, and what a path leads to.
* `sharePathVerdict`, `inspectPath`: The policy, and the report.
* `Servable`: A folder that may be shared.
* `OwnersHomeOnly`: The condition.

## Theorems

* `underRoot_iff`: Lying below a root.
* `sharePathVerdict_ok_iff`: What the policy lets through.
* `serves_no_forbidden_iff`: When that is what may be shared.
* `others_home_served`: Somebody's home that is let through.
-/

namespace Smbpal

section Paths

/-- A name of an entry of a directory. -/
structure FileName where
  bytes : List UInt8
  proper : bytes ≠ [] ∧ bytes ≠ cBytes "." ∧ bytes ≠ cBytes ".." ∧ 47 ∉ bytes ∧ 0 ∉ bytes
  deriving DecidableEq

/-- What a name stands for. -/
inductive FileNode where
  | directory
  | link (target : List UInt8)
  | other

/-- The files of a machine. -/
structure FileSystem where
  /-- The entry of a directory under a name, with the name as the system has it. -/
  lookup : List FileName → List UInt8 → Option (FileName × FileNode)
  stat : List FileName → Option Stat
  hasAcl : List FileName → Bool

/-- A place in the file system as a path. -/
def pathText (names : List FileName) : List UInt8 :=
  if names = [] then [47] else names.flatMap fun name => 47 :: name.bytes

/-- The parts of a path. -/
def slashParts (path : List UInt8) : List (List UInt8) :=
  path.splitOn 47

/-- Go from a directory along the parts of a path, up to the first link. -/
def walk (fs : FileSystem)
    (follow : List FileName → List (List UInt8) → Option (List FileName)) :
    List FileName → List (List UInt8) → Option (List FileName)
  | names, [] => some names
  | names, part :: parts =>
      if part = [] ∨ part = cBytes "." then walk fs follow names parts
      else if part = cBytes ".." then walk fs follow names.dropLast parts
      else
        match fs.lookup names part with
        | none => none
        | some (name, .directory) => walk fs follow (names ++ [name]) parts
        | some (_, .link target) =>
            follow (if target.head? = some 47 then [] else names) (slashParts target ++ parts)
        | some (name, .other) => if parts = [] then some (names ++ [name]) else none

/-- Go along a path that has so many links in it at most. -/
def resolve (fs : FileSystem) : Nat → List FileName → List (List UInt8) → Option (List FileName)
  | 0 => walk fs fun _ _ => none
  | links + 1 => walk fs (resolve fs links)

/-- `MAXSYMLINKS`. -/
def maxSymlinks : Nat := 32

/-- `realpath`. -/
def realpath (fs : FileSystem) (path : List UInt8) : Option (List FileName) :=
  if path = [] then none
  else (resolve fs maxSymlinks [] (slashParts path)).filter fun names =>
    decide ((pathText names).length < pathMax)

end Paths

section Policy

/-- What inspecting uses of `struct passwd`. -/
structure Passwd where
  name : CString
  uid : Nat
  dir : List UInt8

/-- `FIRST_PERSON_UID`. -/
def Helper.firstPersonUid : Nat := 500

/-- `under_root`. -/
def underRoot (resolved root : List UInt8) : Bool :=
  root.isPrefixOf resolved && decide (resolved.length ≠ root.length)

/-- `share_path_verdict`. -/
def sharePathVerdict (resolved : List UInt8) (st : Stat) (ownerHome : Option (List UInt8)) :
    PathVerdict :=
  if sISDIR st.mode = false then .notDirectory
  else if underRoot resolved (cBytes "/Users/") = false ∧
      underRoot resolved (cBytes "/Volumes/") = false then .outsideRoots
  else if ownerHome = some resolved then .homeRoot
  else if st.uid < Helper.firstPersonUid then .systemOwned
  else .ok

/-- The home directory of an account, as far as it can be resolved. -/
def homeOf (fs : FileSystem) (pw : Passwd) : List UInt8 :=
  match realpath fs pw.dir with
  | some names => pathText names
  | none => pw.dir

/-- `getpwuid`. -/
def getpwuid (accounts : List Passwd) (uid : Nat) : Option Passwd :=
  accounts.find? fun pw => decide (pw.uid = uid)

/-- No name in a path has a NUL. -/
theorem pathText_no_nul (names : List FileName) : 0 ∉ pathText names := by
  unfold pathText
  split
  · decide
  · intro h
    rcases List.mem_flatMap.mp h with ⟨name, -, hmem⟩
    rcases List.mem_cons.mp hmem with hslash | hin
    · exact absurd hslash (by decide)
    · exact name.proper.2.2.2.2 hin

/-- An empty string. -/
def CString.empty : CString :=
  { bytes := [], no_nul := List.not_mem_nil }

/-- What fits of a string into so many bytes. -/
def CString.fit (s : CString) (size : Nat) : CString :=
  { bytes := s.bytes.take (size - 1)
    no_nul := fun h => s.no_nul (List.mem_of_mem_take h) }

/-- A number as a string: `%u`. -/
def CString.ofNat (n : Nat) : CString :=
  { bytes := (Nat.toDigits 10 n).map fun c => c.toNat.toUInt8
    no_nul := by
      intro h
      rcases List.mem_map.mp h with ⟨c, hc, hzero⟩
      have hdigit := Nat.isDigit_of_mem_toDigits (by omega) (by omega) hc
      have hlow : 48 ≤ c.toNat ∧ c.toNat ≤ 57 := by
        simpa [Char.isDigit, UInt32.le_iff_toNat_le] using hdigit
      have hmod := congrArg UInt8.toNat hzero
      simp at hmod
      omega }

/-- `inspect_path`: nothing for what is no path. -/
def inspectPath (fs : FileSystem) (accounts : List Passwd) (path : List UInt8) :
    Option InspectReport :=
  -- The path is absolute, is resolved, and only then looked at.
  if path.head? ≠ some 47 then none
  else
    match (realpath fs path).bind fun names => (fs.stat names).map fun st => (names, st) with
    | none =>
        some
          { verdict := .notFound
            resolved := .empty
            uid := 0
            gid := 0
            mode := 0
            owner := .empty
            hasAcl := false
            access := none }
    | some (names, st) =>
        some
          { verdict := sharePathVerdict (pathText names) st
              ((getpwuid accounts st.uid).map (homeOf fs))
            resolved := { bytes := pathText names, no_nul := pathText_no_nul names }
            uid := st.uid
            gid := st.gid
            mode := st.mode
            owner := match getpwuid accounts st.uid with
              | some pw => pw.name.fit 64
              | none => (CString.ofNat st.uid).fit 64
            hasAcl := fs.hasAcl names
            access := none }

/-- A folder lies strictly below `/Users` or `/Volumes`. -/
def Below (names : List FileName) : Prop :=
  ∃ root name rest, names = root :: name :: rest ∧
    (root.bytes = cBytes "Users" ∨ root.bytes = cBytes "Volumes")

/-- A folder that may be shared: it lies strictly below `/Users` or `/Volumes`, belongs to a
    person, and is the home of no account. -/
structure Servable (fs : FileSystem) (accounts : List Passwd) (path : List UInt8)
    (report : InspectReport) (names : List FileName) (st : Stat) : Prop where
  resolves : realpath fs path = some names
  resolved : report.resolved.bytes = pathText names
  stat : fs.stat names = some st
  below : Below names
  person : Helper.firstPersonUid ≤ st.uid
  nobodysHome : ∀ pw ∈ accounts, homeOf fs pw ≠ pathText names

/-- If the path is absolute and leads to a folder strictly below `/Users` or `/Volumes`
    that belongs to a person and is the home of an account, then it is the home of the
    account that the system names for its owner. -/
def OwnersHomeOnly (fs : FileSystem) (accounts : List Passwd) (path : List UInt8) : Prop :=
  ∀ names st, path.head? = some 47 → realpath fs path = some names → fs.stat names = some st →
    sISDIR st.mode = true → Below names → Helper.firstPersonUid ≤ st.uid →
      (∃ pw ∈ accounts, homeOf fs pw = pathText names) →
        ∃ pw, getpwuid accounts st.uid = some pw ∧ homeOf fs pw = pathText names

/-! ### Lying below a root -/

/-- The first part of a path is what stands before its first slash. -/
theorem eq_of_append_slash {a b u v : List UInt8} (ha : 47 ∉ a) (hb : 47 ∉ b)
    (h : a ++ 47 :: u = b ++ 47 :: v) : a = b := by
  induction a generalizing b with
  | nil =>
      cases b with
      | nil => rfl
      | cons c b =>
          rw [List.nil_append, List.cons_append, List.cons.injEq] at h
          exact absurd (h.1 ▸ List.mem_cons_self) hb
  | cons c a ih =>
      cases b with
      | nil =>
          rw [List.nil_append, List.cons_append, List.cons.injEq] at h
          exact absurd (h.1 ▸ List.mem_cons_self) ha
      | cons d b =>
          rw [List.cons_append, List.cons_append, List.cons.injEq] at h
          rw [h.1, ih (fun hmem => ha (List.mem_cons_of_mem _ hmem))
            (fun hmem => hb (List.mem_cons_of_mem _ hmem)) h.2]

theorem pathText_cons (name : FileName) (names : List FileName) :
    pathText (name :: names) =
      47 :: (name.bytes ++ names.flatMap fun name => 47 :: name.bytes) := by
  unfold pathText
  rw [if_neg (List.cons_ne_nil _ _), List.flatMap_cons, List.cons_append]

/-- To begin with a root and go on is to lie strictly below it. -/
theorem underRoot_iff {root : List UInt8} (hroot : 47 ∉ root) (hne : root ≠ [])
    (names : List FileName) :
    underRoot (pathText names) (47 :: (root ++ [47])) = true ↔
      ∃ first name rest, names = first :: name :: rest ∧ first.bytes = root := by
  unfold underRoot
  rw [Bool.and_eq_true, List.isPrefixOf_iff_prefix, decide_eq_true_eq]
  constructor
  · rintro ⟨⟨u, hu⟩, hlength⟩
    cases names with
    | nil =>
        have hlong := congrArg List.length hu
        have hpos : 0 < root.length := List.length_pos_iff.mpr hne
        rw [pathText, if_pos rfl, List.length_append, List.length_cons, List.length_append,
          List.length_singleton] at hlong
        omega
    | cons first names =>
        rw [pathText_cons, List.cons_append, List.cons.injEq, List.append_assoc,
          List.singleton_append] at hu
        cases names with
        | nil =>
            -- A single name has no slash in it.
            have hmem : 47 ∈ first.bytes := by
              have : 47 ∈ root ++ 47 :: u := List.mem_append_right _ List.mem_cons_self
              rw [hu.2, List.flatMap_nil, List.append_nil] at this
              exact this
            exact absurd hmem first.proper.2.2.2.1
        | cons name rest =>
            rw [List.flatMap_cons, List.cons_append] at hu
            exact ⟨first, name, rest, rfl,
              (eq_of_append_slash hroot first.proper.2.2.2.1 hu.2).symm⟩
  · rintro ⟨first, name, rest, rfl, rfl⟩
    rw [pathText_cons, List.flatMap_cons, List.cons_append]
    refine ⟨⟨name.bytes ++ rest.flatMap fun name => 47 :: name.bytes, ?_⟩, ?_⟩
    · rw [List.cons_append, List.append_assoc, List.singleton_append]
    · have hpos : 0 < name.bytes.length := List.length_pos_iff.mpr name.proper.1
      simp only [List.length_cons, List.length_append, List.length_nil]
      omega

theorem underRoots_iff (names : List FileName) :
    (underRoot (pathText names) (cBytes "/Users/") = true ∨
      underRoot (pathText names) (cBytes "/Volumes/") = true) ↔ Below names := by
  have husers : cBytes "/Users/" = 47 :: (cBytes "Users" ++ [47]) := by decide +kernel
  have hvolumes : cBytes "/Volumes/" = 47 :: (cBytes "Volumes" ++ [47]) := by decide +kernel
  rw [husers, hvolumes, underRoot_iff (by decide +kernel) (by decide +kernel),
    underRoot_iff (by decide +kernel) (by decide +kernel)]
  constructor
  · rintro (⟨first, name, rest, h, hroot⟩ | ⟨first, name, rest, h, hroot⟩)
    · exact ⟨first, name, rest, h, Or.inl hroot⟩
    · exact ⟨first, name, rest, h, Or.inr hroot⟩
  · rintro ⟨first, name, rest, h, hroot | hroot⟩
    · exact Or.inl ⟨first, name, rest, h, hroot⟩
    · exact Or.inr ⟨first, name, rest, h, hroot⟩

/-- What the policy lets through. -/
theorem sharePathVerdict_ok_iff (names : List FileName) (st : Stat)
    (ownerHome : Option (List UInt8)) :
    sharePathVerdict (pathText names) st ownerHome = .ok ↔
      sISDIR st.mode = true ∧ Below names ∧ ownerHome ≠ some (pathText names) ∧
        Helper.firstPersonUid ≤ st.uid := by
  unfold sharePathVerdict
  rw [← underRoots_iff]
  -- The rules in their order, each of which refuses with a verdict of its own.
  by_cases hdir : sISDIR st.mode = false
  · rw [if_pos hdir, hdir]
    exact ⟨fun h => absurd h (by decide), fun h => absurd h.1 Bool.false_ne_true⟩
  · rw [if_neg hdir]
    by_cases hunder : underRoot (pathText names) (cBytes "/Users/") = false ∧
        underRoot (pathText names) (cBytes "/Volumes/") = false
    · rw [if_pos hunder, hunder.1, hunder.2]
      exact ⟨fun h => absurd h (by decide), fun h =>
        absurd (or_self_iff.mp h.2.1) Bool.false_ne_true⟩
    · have hbelow : underRoot (pathText names) (cBytes "/Users/") = true ∨
          underRoot (pathText names) (cBytes "/Volumes/") = true := by
        rcases Bool.eq_false_or_eq_true (underRoot (pathText names) (cBytes "/Users/")) with h | h
        · exact Or.inl h
        · refine Or.inr (by_contra fun hnot => hunder ⟨h, Bool.not_eq_true _ ▸ hnot⟩)
      rw [if_neg hunder]
      by_cases hhome : ownerHome = some (pathText names)
      · rw [if_pos hhome]
        exact ⟨fun h => absurd h (by decide), fun h => absurd hhome h.2.2.1⟩
      · rw [if_neg hhome]
        by_cases huid : st.uid < Helper.firstPersonUid
        · rw [if_pos huid]
          exact ⟨fun h => absurd h (by decide), fun h => absurd huid (Nat.not_lt.mpr h.2.2.2)⟩
        · rw [if_neg huid]
          exact ⟨fun _ => ⟨Bool.not_eq_false _ ▸ hdir, hbelow, hhome, Nat.not_lt.mp huid⟩,
            fun _ => rfl⟩

/-- What the helper says of a path that leads somewhere. -/
theorem inspectPath_of {fs : FileSystem} (accounts : List Passwd) {path : List UInt8}
    {names : List FileName} {st : Stat} (hhead : path.head? = some 47)
    (hreal : realpath fs path = some names) (hstat : fs.stat names = some st) :
    ∃ report, inspectPath fs accounts path = some report ∧
      report.resolved.bytes = pathText names ∧
        report.verdict = sharePathVerdict (pathText names) st
          ((getpwuid accounts st.uid).map (homeOf fs)) := by
  unfold inspectPath
  rw [if_neg fun hnot => hnot hhead, hreal, Option.bind_some, hstat, Option.map_some]
  exact ⟨_, rfl, rfl, rfl⟩

/-- A path that may be shared leads somewhere. -/
theorem inspectPath_ok {fs : FileSystem} {accounts : List Passwd} {path : List UInt8}
    {report : InspectReport} (h : inspectPath fs accounts path = some report)
    (hok : report.verdict = .ok) :
    ∃ names st, path.head? = some 47 ∧ realpath fs path = some names ∧
      fs.stat names = some st ∧ report.resolved.bytes = pathText names ∧
        sharePathVerdict (pathText names) st ((getpwuid accounts st.uid).map (homeOf fs)) =
          .ok := by
  by_cases hhead : path.head? = some 47
  · -- What cannot be resolved or read has no verdict but that it was not found.
    cases hfound : (realpath fs path).bind fun names => (fs.stat names).map fun st =>
        (names, st) with
    | none =>
        unfold inspectPath at h
        rw [if_neg fun hnot => hnot hhead, hfound] at h
        cases h
        cases hok
    | some found =>
        rcases Option.bind_eq_some_iff.mp hfound with ⟨names, hreal, hmap⟩
        rcases Option.map_eq_some_iff.mp hmap with ⟨st, hstat, -⟩
        rcases inspectPath_of accounts hhead hreal hstat with
          ⟨report', hreport', hresolved, hverdict⟩
        rw [h, Option.some.injEq] at hreport'
        rw [← hreport'] at hresolved hverdict
        exact ⟨names, st, hhead, hreal, hstat, hresolved, hverdict.symm.trans hok⟩
  · unfold inspectPath at h
    rw [if_pos hhead] at h
    cases h

/-- What the helper lets be shared may be shared, exactly if the home directories among the
    folders it might let through are the homes of their owners. -/
theorem serves_no_forbidden_iff (fs : FileSystem) (accounts : List Passwd) (path : List UInt8) :
    (∀ report, inspectPath fs accounts path = some report → report.verdict = .ok →
      ∃ names st, Servable fs accounts path report names st) ↔
        OwnersHomeOnly fs accounts path := by
  constructor
  · rintro hserves names st hhead hreal hstat hdir hbelow hperson ⟨pw, hpw, hhome⟩
    by_contra hnot
    -- Then the owner's home is another folder, and this one is let through.
    rcases inspectPath_of accounts hhead hreal hstat with
      ⟨report, hreport, -, hverdict⟩
    have hok : report.verdict = .ok := by
      refine hverdict.trans ((sharePathVerdict_ok_iff names st _).mpr
        ⟨hdir, hbelow, fun hmap => hnot ?_, hperson⟩)
      exact Option.map_eq_some_iff.mp hmap
    rcases hserves report hreport hok with ⟨names', st', hservable⟩
    have hsame := hservable.resolves
    rw [hreal, Option.some.injEq] at hsame
    exact hservable.nobodysHome pw hpw (hsame ▸ hhome)
  · intro honly report hreport hok
    rcases inspectPath_ok hreport hok with ⟨names, st, hhead, hreal, hstat, hresolved, hverdict⟩
    rcases (sharePathVerdict_ok_iff names st _).mp hverdict with ⟨hdir, hbelow, hother, hperson⟩
    refine ⟨names, st, hreal, hresolved, hstat, hbelow, hperson, fun pw hpw hhome => ?_⟩
    have howners := honly names st hhead hreal hstat hdir hbelow hperson ⟨pw, hpw, hhome⟩
    exact hother (Option.map_eq_some_iff.mpr howners)

section Examples

/-- A name that may stand in a directory. -/
def FileName.ofString (s : String)
    (h : cBytes s ≠ [] ∧ cBytes s ≠ cBytes "." ∧ cBytes s ≠ cBytes ".." ∧ 47 ∉ cBytes s ∧
      0 ∉ cBytes s) : FileName :=
  { bytes := cBytes s, proper := h }

/-- `/Users`. -/
def usersName : FileName :=
  .ofString "Users" (by decide +kernel)

/-- Bob's home. -/
def bobName : FileName :=
  .ofString "bob" (by decide +kernel)

/-- A machine with Bob's home on it, which belongs to Alice. -/
def bobsHome : FileSystem :=
  { lookup := fun names part =>
      if names = [] ∧ part = usersName.bytes then some (usersName, .directory)
      else if names = [usersName] ∧ part = bobName.bytes then some (bobName, .directory)
      else none
    stat := fun _ => some { uid := 501, gid := 20, mode := 0o40755 }
    hasAcl := fun _ => false }

/-- An account. -/
def passwdOf (name : String) (h : 0 ∉ cBytes name) (uid : Nat) (dir : String) : Passwd :=
  { name := { bytes := cBytes name, no_nul := h }, uid := uid, dir := cBytes dir }

/-- Alice and Bob. -/
def aliceAndBob : List Passwd :=
  [passwdOf "alice" (by decide +kernel) 501 "/Users/alice",
    passwdOf "bob" (by decide +kernel) 502 "/Users/bob"]

/-- Bob's home, which belongs to Alice, is let through. -/
theorem others_home_served :
    ¬∀ report, inspectPath bobsHome aliceAndBob (cBytes "/Users/bob") = some report →
      report.verdict = .ok →
        ∃ names st, Servable bobsHome aliceAndBob (cBytes "/Users/bob") report names st := by
  intro h
  have hreal : realpath bobsHome (cBytes "/Users/bob") = some [usersName, bobName] := by
    decide +kernel
  rcases inspectPath_of aliceAndBob (by decide +kernel) hreal rfl with
    ⟨report, hreport, -, hverdict⟩
  have hok : report.verdict = .ok := by
    rw [hverdict]
    decide +kernel
  rcases h report hreport hok with ⟨names, st, hservable⟩
  have hsame := hservable.resolves
  rw [hreal, Option.some.injEq] at hsame
  rw [← hsame] at hservable
  refine hservable.nobodysHome (passwdOf "bob" (by decide +kernel) 502 "/Users/bob")
    (List.mem_cons_of_mem _ List.mem_cons_self) ?_
  decide +kernel

end Examples

end Policy

end Smbpal
