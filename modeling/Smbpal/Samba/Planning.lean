import Smbpal.Samba.Applier

/-!
# Planning, and the Directories That Are Missing

What the first half of an `apply` comes to: `plan`, and `_create_missing_directories`.

A plan only looks. It leaves the host alone, and a plan that returns is the one the accounts
and the directories make (`plannedIn`), so two plans differ only where one of these does.
Making the missing directories changes no directory that was there, whoever it belongs to:
`chown` is for the one `mkdir` has just made (`createMissingDirectories_spec`).

## Main definitions

* `plannedIn`: The plan, of the accounts and the directories.
* `Looks`: A program that leaves the host alone.
* `DirsGrow`: Nothing but new directories.

## Theorems

* `plan_looks`: A plan changes nothing, and one that returns is `plannedIn`.
* `createMissingDirectories_spec`: What is made, and what is left alone.
-/

namespace Smbpal

namespace HostM

variable {db : UserDatabase} {α β : Type} {s : HostState}

/-- The answers to one question. -/
theorem always_call {op : HostOp} {Q : Except HostExc op.Value → HostState → Prop} :
    Lib.Program.Always (hostMachine db) (HostM.call op) Q s ↔
      ∀ ans s', hostMachine db op s ans s' → Q ans s' :=
  Lib.Program.always_ask (S := hostSig) op id

/-- One part after another. -/
theorem always_seq {p : HostM α} {f : α → HostM β} {P : Except HostExc α → HostState → Prop}
    {Q : Except HostExc β → HostState → Prop}
    (hp : Lib.Program.Always (hostMachine db) p P s)
    (hok : ∀ v s', P (.ok v) s' → Lib.Program.Always (hostMachine db) (f v) Q s')
    (herror : ∀ e s', P (.error e) s' → Q (.error e) s') :
    Lib.Program.Always (hostMachine db) (p >>= f) Q s := by
  rw [Lib.Program.always_bind]
  refine Lib.Program.always_mono hp fun r s' hr => ?_
  cases r with
  | ok v => exact hok v s' hr
  | error e => exact herror e s' hr

/-- A part inside an `except`. -/
theorem always_catching {caught : HostExc → Bool} {p : HostM α} {handler : HostExc → HostM α}
    {P Q : Except HostExc α → HostState → Prop}
    (hp : Lib.Program.Always (hostMachine db) p P s)
    (hok : ∀ v s', P (.ok v) s' → Q (.ok v) s')
    (hpass : ∀ e s', P (.error e) s' → caught e = false → Q (.error e) s')
    (hcaught : ∀ e s', P (.error e) s' → caught e = true →
      Lib.Program.Always (hostMachine db) (handler e) Q s') :
    Lib.Program.Always (hostMachine db) (HostM.catching caught p handler) Q s := by
  unfold HostM.catching
  rw [Lib.Program.always_tryCatch]
  refine Lib.Program.always_mono hp fun r s' hr => ?_
  cases r with
  | ok v => exact hok v s' hr
  | error e =>
      rw [Lib.Program.orElse_error]
      by_cases h : caught e = true
      · rw [if_pos h]
        exact hcaught e s' hr h
      · rw [if_neg h]
        exact hpass e s' hr (eq_false_of_ne_true h)

/-- What is made of a value. -/
theorem always_map {f : α → β} {p : HostM α} {Q : Except HostExc β → HostState → Prop} :
    Lib.Program.Always (hostMachine db) (f <$> p) Q s ↔
      Lib.Program.Always (hostMachine db) p (fun r s' => Q (r.map f) s') s := by
  change Lib.Program.Always (hostMachine db) (p >>= fun v => pure (f v)) Q s ↔ _
  rw [Lib.Program.always_bind]
  constructor
  · intro h
    refine Lib.Program.always_mono h fun r s' hr => ?_
    cases r with
    | ok v => exact hr
    | error e => exact hr
  · intro h
    refine Lib.Program.always_mono h fun r s' hr => ?_
    cases r with
    | ok v => exact hr
    | error e => exact hr

end HostM

section Looking

variable {db : UserDatabase} {s : HostState}

/-- The program leaves the host alone, and returns nothing but this. -/
def Looks {α : Type} (db : UserDatabase) (s : HostState) (p : HostM α) (R : α → Prop) : Prop :=
  Lib.Program.Yields (hostMachine db) (fun s' => s' = s) R p

theorem Finds.eq {α : Type} {value : Option α} {there : Bool} {v : α}
    (h : Finds value there (.ok v)) : value = some v := by
  rcases h with ⟨w, hw, hv⟩ | ⟨e, he, -⟩
  · rw [hw, Except.ok.inj hv]
  · cases he

theorem Finds.refused {α : Type} {value : Option α} {there : Bool} {ans : Except HostExc α}
    (h : Finds value there ans) {e : HostExc} (he : ans = .error e) : e.isSmbpal = false := by
  rcases h with ⟨w, hw, hv⟩ | ⟨raised, hraised, hours, -⟩
  · exact absurd (he.symm.trans hv) (by intro h; cases h)
  · rw [Except.error.inj (he.symm.trans hraised)]
    exact hours

/-- What is said to be missing is. -/
theorem Finds.missing {α : Type} {value : Option α} {there : Bool} {ans : Except HostExc α}
    (h : Finds value there ans) {e : HostExc} (he : ans = .error e)
    (hmissing : e.isFileNotFound = true) : there = false := by
  rcases h with ⟨w, hw, hv⟩ | ⟨raised, hraised, -, hthere⟩
  · exact absurd (he.symm.trans hv) (by intro h; cases h)
  · rw [← Except.error.inj (he.symm.trans hraised)] at hthere
    refine eq_false_of_ne_true fun h => ?_
    exact Bool.false_ne_true ((hthere h).symm.trans hmissing)

theorem looks_host {op : HostOp} {R : op.Value → Prop}
    (h : ∀ ans s', hostMachine db op s ans s' → s' = s ∧ ∀ v, ans = .ok v → R v) :
    Looks db s (HostM.call op) R := by
  intro s₁ hs₁
  rw [HostM.always_call]
  intro ans s' hstep
  rw [hs₁] at hstep
  exact h ans s' hstep

theorem looks_catching {α : Type} {caught : HostExc → Bool} {p : HostM α}
    {handler : HostExc → HostM α} {R : α → Prop} (hp : Looks db s p R)
    (hh : ∀ e, caught e = true → Looks db s (handler e) R) :
    Looks db s (HostM.catching caught p handler) R := by
  refine Lib.Program.yields_tryCatch hp fun e => ?_
  by_cases h : caught e = true
  · rw [if_pos h]
    exact hh e h
  · rw [if_neg h]
    exact Lib.Program.yields_throw e

/-- It says this value, or raises what is caught only where the fallback is the value. -/
def SaysOr {α : Type} (value fallback : α) (caught : HostExc → Bool) : Except HostExc α → Prop
  | .ok v => v = value
  | .error e => caught e = true → value = fallback

/-- Where a failure that is caught means the fallback, the value is right either way. -/
theorem looks_default {α : Type} {caught : HostExc → Bool} {p : HostM α} {value fallback : α}
    (h : Lib.Program.Always (hostMachine db) p
      (fun r s' => s' = s ∧ SaysOr value fallback caught r) s) :
    Looks db s (HostM.catching caught p fun _ => pure fallback) fun v => v = value := by
  intro s₁ hs₁
  rw [hs₁]
  refine HostM.always_catching h ?_ ?_ ?_
  · rintro v s' ⟨hs', hv⟩
    exact ⟨hs', fun w hw => Except.ok.inj hw ▸ hv⟩
  · rintro e s' ⟨hs', -⟩ -
    exact ⟨hs', fun w hw => by cases hw⟩
  · rintro e s' ⟨hs', he⟩ hcaught
    exact ⟨hs', fun w hw => (Except.ok.inj hw).symm.trans (he hcaught).symm⟩

/-- What is there is found. -/
theorem statDirectory_looks (path : Str) :
    Looks db s (HostM.statDirectory path) fun found => found = s.dirs path := by
  unfold HostM.statDirectory
  refine looks_default (HostM.always_map.mpr (HostM.always_call.mpr ?_))
  rintro ans s' ⟨hs', hans⟩
  refine ⟨hs', ?_⟩
  cases ans with
  | ok info => exact hans.eq.symm
  | error e => exact fun hmissing => Option.isNone_iff_eq_none.mp (Option.isSome_eq_false_iff.mp
      (hans.missing rfl hmissing))

end Looking

section Plans

variable {db : UserDatabase} {s : HostState}

/-- The status of a directory, of the accounts and the directories there are. -/
def statusIn (db : UserDatabase) (dirs : Str → Option Stat) (path : Str)
    (identity : Option ServingIdentity) : DirectoryStatus :=
  match dirs path with
  | none => missingDirectory path
  | some info =>
      describeDirectory path info.uid info.gid info.mode
        (some ((db.userName info.uid).getD (digits info.uid))) identity false none

/-- The status is that of the directory there is. -/
theorem inspectDirectory_looks (path : Str) (identity : Option ServingIdentity) :
    Looks db s (HostM.inspectDirectory path identity) fun status =>
      status = statusIn db s.dirs path identity := by
  unfold HostM.inspectDirectory
  refine Lib.Program.yields_bind
    (looks_catching (statDirectory_looks path) fun e _ => Lib.Program.yields_throw _)
    fun found hfound => ?_
  unfold statusIn
  rw [← hfound]
  cases found with
  | none => exact Lib.Program.yields_pure rfl
  | some info =>
      refine Lib.Program.yields_bind (R := fun owner => owner = db.userName info.uid)
        (looks_host fun ans s' h => ⟨h.1, fun v hv => ?_⟩) fun owner howner => ?_
      · rw [hv] at h
        exact (Option.some.inj h.2.eq).symm
      · rw [howner]
        exact Lib.Program.yields_pure rfl

variable [Unicode]

/-- The account a share is served as, of the accounts there are. -/
def identityIn (db : UserDatabase) (share : Share) : Option ServingIdentity :=
  match share.credentialRef with
  | none => none
  | some [] => none
  | some user => (servingIdentityOf db.passwd db.groups user).toOption

/-- What is planned for a share. -/
def plannedShareIn (db : UserDatabase) (dirs : Str → Option Stat) (share : Share) :
    Option PlannedShare :=
  share.path.map fun path =>
    plannedAs share path (statusIn db dirs path (identityIn db share))

/-- The plan. -/
def plannedIn (db : UserDatabase) (dirs : Str → Option Stat) (shares : List Share) :
    Option (List PlannedShare) :=
  shares.mapM (plannedShareIn db dirs)

/-- The account is the one there is, and an error of ours says that there is none. -/
theorem servingIdentity_spec (user : Str) :
    Lib.Program.Always (hostMachine db) (HostM.servingIdentity user)
      (fun r s' => s' = s ∧ SaysOr (servingIdentityOf db.passwd db.groups user).toOption none
        HostExc.isSmbpal (r.map some)) s := by
  unfold HostM.servingIdentity
  refine HostM.always_seq (P := fun r s' => s' = s ∧ Finds (some (db.passwd user)) true r)
    (HostM.always_call.mpr fun ans s' h => h) ?_ ?_
  · rintro entry s' ⟨rfl, hentry⟩
    have hentry := Option.some.inj hentry.eq
    refine HostM.always_seq
      (P := fun r s₁ => s₁ = s' ∧ (∀ groups, r = .ok groups → entry ≠ none → groups = db.groups) ∧
        ∀ e, r = .error e → e.isSmbpal = false) ?_ ?_ ?_
    · -- The groups are read only when there is an account.
      unfold HostM.getgrall
      by_cases hsome : entry.isSome = true
      · rw [if_pos hsome, HostM.always_call]
        rintro ans s₁ ⟨rfl, hans⟩
        refine ⟨rfl, fun groups hgroups _ => ?_, fun e he => ?_⟩
        · rw [hgroups] at hans
          exact (Option.some.inj hans.eq).symm
        · exact hans.refused he
      · rw [if_neg hsome]
        exact ⟨rfl, fun _ _ hne => absurd (Option.isSome_iff_ne_none.mpr hne) hsome,
          fun e he => by cases he⟩
    · rintro groups s₁ ⟨rfl, hgroups, -⟩
      have hsame : servingIdentityOf (fun _ => entry) groups user =
          servingIdentityOf db.passwd db.groups user := by
        unfold servingIdentityOf
        rw [hentry]
        cases entry with
        | none => rfl
        | some ids => rw [hgroups groups rfl (Option.some_ne_none ids)]
      rw [hsame, Lib.Program.always_fromExcept]
      refine ⟨rfl, ?_⟩
      cases servingIdentityOf db.passwd db.groups user with
      | ok identity => rfl
      | error failure => exact fun _ => rfl
    · rintro e s₁ ⟨rfl, -, he⟩
      exact ⟨rfl, fun h => absurd (h.symm.trans (he e rfl)) Bool.noConfusion⟩
  · rintro e s' ⟨rfl, he⟩
    exact ⟨rfl, fun h => absurd (h.symm.trans (he.refused rfl)) Bool.noConfusion⟩

theorem identityFor_looks (share : Share) :
    Looks db s (Applier.identityFor share) fun identity => identity = identityIn db share := by
  unfold Applier.identityFor identityIn
  rcases share.credentialRef with _ | _ | ⟨c, rest⟩
  · exact Lib.Program.yields_pure rfl
  · exact Lib.Program.yields_pure rfl
  · exact looks_default (HostM.always_map.mpr (servingIdentity_spec (c :: rest)))

theorem planShare_looks (share : Share) :
    Looks db s (Applier.planShare share) fun planned =>
      plannedShareIn db s.dirs share = some planned := by
  unfold Applier.planShare plannedShareIn
  refine Lib.Program.yields_bind (identityFor_looks share) fun identity hidentity => ?_
  cases share.path with
  | none => exact Lib.Program.yields_throw _
  | some path =>
      refine Lib.Program.yields_bind (inspectDirectory_looks path identity) fun status hstatus => ?_
      rw [hstatus, hidentity]
      exact Lib.Program.yields_pure rfl

/-- A plan changes nothing, and one that returns is that of the accounts and the
    directories there are. -/
theorem plan_looks (shares : List Share) :
    Looks db s (Applier.plan shares) fun planned => plannedIn db s.dirs shares = some planned := by
  induction shares with
  | nil => exact Lib.Program.yields_pure rfl
  | cons share shares ih =>
      unfold Applier.plan
      refine Lib.Program.yields_bind (planShare_looks share) fun planned hplanned => ?_
      refine Lib.Program.yields_bind ih fun rest hrest => Lib.Program.yields_pure ?_
      unfold plannedIn at hrest ⊢
      rw [List.mapM_cons, hplanned, hrest]
      rfl

end Plans

section Directories

/-- Directories were made at most, and none that was there is another now. -/
structure DirsGrow (s s' : HostState) : Prop where
  kept : ∀ path info, s.dirs path = some info → s'.dirs path = some info
  files : s'.files = s.files
  loaded : s'.loaded = s.loaded
  dumped : s'.dumped = s.dumped

theorem DirsGrow.refl (s : HostState) : DirsGrow s s :=
  ⟨fun _ _ h => h, rfl, rfl, rfl⟩

theorem DirsGrow.trans {s s₁ s' : HostState} (h : DirsGrow s s₁) (h' : DirsGrow s₁ s') :
    DirsGrow s s' :=
  ⟨fun path info hp => h'.kept path info (h.kept path info hp), h'.files.trans h.files,
    h'.loaded.trans h.loaded, h'.dumped.trans h.dumped⟩

theorem DirsGrow.ne_none {s s' : HostState} (h : DirsGrow s s') {path : Str}
    (hp : s.dirs path ≠ none) : s'.dirs path ≠ none := by
  rcases Option.ne_none_iff_exists'.mp hp with ⟨info, hinfo⟩
  rw [h.kept path info hinfo]
  exact Option.some_ne_none info

variable {db : UserDatabase} {s : HostState}

/-- What making a directory leaves, whether it returns or not. -/
def MadeDir {α : Type} (s : HostState) (path : Str) (r : Except HostExc α) (s' : HostState) :
    Prop :=
  DirsGrow s s' ∧ ∀ v, r = .ok v → s'.dirs path ≠ none

/-- `mkdir` and `chown`. The owner that is set is that of the directory that was made. -/
theorem makeAndGive_spec (path : Str) (identity : ServingIdentity) :
    Lib.Program.Always (hostMachine db)
      (do
        HostM.call (.mkdir path)
        match lowestGid identity with
        | none => throw .exception
        | some gid => HostM.call (.chown path identity.uid gid))
      (MadeDir s path) s := by
  refine HostM.always_seq (HostM.always_call.mpr fun ans s' h => h) ?_ ?_
  · rintro v s' ⟨dirs, rfl, hkept, hmade, -⟩
    have hgrow : DirsGrow s { s with dirs := dirs } := ⟨hkept, rfl, rfl, rfl⟩
    rcases hmade rfl with ⟨hnew, hthere⟩
    cases lowestGid identity with
    | none => exact ⟨hgrow, fun v hv => by cases hv⟩
    | some gid =>
        refine HostM.always_call.mpr fun ans s' h => ?_
        rcases h with ⟨given, rfl, ⟨info, hinfo, rfl, rfl⟩ | ⟨e, rfl, -, rfl⟩⟩
        · refine ⟨⟨fun p old hp => ?_, rfl, rfl, rfl⟩, fun v hv => ?_⟩
          · -- the directory that is given away was not there
            have hne : p ≠ path := by
              intro heq
              rw [heq, hnew] at hp
              exact Option.some_ne_none old hp.symm
            exact (Function.update_of_ne hne _ dirs).trans (hkept p old hp)
          · change Function.update dirs path (some (info.chown identity.uid gid)) path ≠ none
            rw [Function.update_self]
            exact Option.some_ne_none _
        · exact ⟨hgrow, fun v hv => by cases hv⟩
  · rintro e s' ⟨dirs, rfl, hkept, -, -⟩
    exact ⟨⟨hkept, rfl, rfl, rfl⟩, fun v hv => by cases hv⟩

theorem createDirectory_spec (path : Str) (identity : ServingIdentity) :
    Lib.Program.Always (hostMachine db) (HostM.createDirectory path identity)
      (MadeDir s path) s := by
  unfold HostM.createDirectory
  refine HostM.always_seq (P := MadeDir s path)
    (HostM.always_catching (makeAndGive_spec path identity) (fun _ _ h => h) (fun _ _ h _ => h)
      fun e s' h _ => ?_) ?_ ?_
  · have hgrow : MadeDir s path (.error e : Except HostExc DirectoryStatus) s' :=
      ⟨h.1, fun v hv => by cases hv⟩
    by_cases hexists : e.isFileExists = true
    · rw [if_pos hexists]
      exact ⟨h.1, fun v hv => by cases hv⟩
    · rw [if_neg hexists]
      exact ⟨h.1, fun v hv => by cases hv⟩
  · intro v s' h
    refine Lib.Program.always_mono (inspectDirectory_looks path (some identity) s' rfl) ?_
    rintro r s₁ ⟨rfl, -⟩
    exact ⟨h.1, fun _ _ => h.2 v rfl⟩
  · intro e s' h
    exact ⟨h.1, fun v hv => by cases hv⟩

variable [Unicode]

/-- The directory of this share is made. -/
def IsMissing (db : UserDatabase) (item : PlannedShare) : Prop :=
  item.status.exists_ = false ∧ item.share.isEnabled = true ∧ identityIn db item.share ≠ none

theorem createMissing_spec (item : PlannedShare) :
    Lib.Program.Always (hostMachine db) (Applier.createMissing item)
      (fun r s' => DirsGrow s s' ∧ (r = .ok () → IsMissing db item →
        ∀ path, item.share.path = some path → s'.dirs path ≠ none)) s := by
  unfold Applier.createMissing
  -- What is there already, or not enabled, is passed over.
  by_cases hskip : item.status.exists_ = true ∨ item.share.isEnabled = false
  · rw [if_pos hskip]
    refine ⟨DirsGrow.refl s, fun _ hmissing => ?_⟩
    rcases hskip with hthere | hoff
    · exact absurd (hmissing.1.symm.trans hthere) Bool.false_ne_true
    · exact absurd (hoff.symm.trans hmissing.2.1) Bool.false_ne_true
  · rw [if_neg hskip]
    refine HostM.always_seq (identityFor_looks item.share s rfl) ?_ ?_
    · rintro identity s' ⟨rfl, hidentity⟩
      rw [hidentity identity rfl]
      cases hin : identityIn db item.share with
      | none => exact ⟨DirsGrow.refl s', fun _ hmissing => absurd hin hmissing.2.2⟩
      | some found =>
          cases hpath : item.share.path with
          | none => exact ⟨DirsGrow.refl s', fun h => by cases h⟩
          | some path =>
              refine HostM.always_seq (createDirectory_spec path found) ?_ ?_
              · intro status s₁ h
                refine ⟨h.1, fun _ _ p hp => ?_⟩
                rw [← Option.some.inj hp]
                exact h.2 status rfl
              · exact fun e s₁ h => ⟨h.1, fun h => by cases h⟩
    · rintro e s' ⟨rfl, -⟩
      exact ⟨DirsGrow.refl s', fun h => by cases h⟩

/-- Directories are made only, and when it returns those that were missing are there. -/
theorem createMissingDirectories_spec (items : List PlannedShare) :
    Lib.Program.Always (hostMachine db) (Applier.createMissingDirectories items)
      (fun r s' => DirsGrow s s' ∧ (r = .ok () → ∀ item ∈ items, IsMissing db item →
        ∀ path, item.share.path = some path → s'.dirs path ≠ none)) s := by
  induction items generalizing s with
  | nil => exact ⟨DirsGrow.refl s, fun _ _ h => absurd h List.not_mem_nil⟩
  | cons item items ih =>
      unfold Applier.createMissingDirectories
      refine HostM.always_seq (createMissing_spec item) ?_ ?_
      · intro v s₁ h
        refine Lib.Program.always_mono ih fun r s' h' => ⟨h.1.trans h'.1, fun hr => ?_⟩
        rw [List.forall_mem_cons]
        exact ⟨fun hmissing path hpath => h'.1.ne_none (h.2 rfl hmissing path hpath), h'.2 hr⟩
      · exact fun e s₁ h => ⟨h.1, fun h => by cases h⟩

end Directories

end Smbpal
