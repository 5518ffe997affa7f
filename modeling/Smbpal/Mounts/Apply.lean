import Smbpal.Daemon.Effects

/-!
# Applying Connections

`mounts/apply.py` and `mounts/credentials.py`: a config turned into units on
disk, and the credentials files they name.

`mounterApply` reconciles the units against a config: it writes the units of
every connection whose mountpoint nobody else holds, removes the units it
wrote that are no longer wanted, and arms the automounts. What it may remove is
bounded by `previous`, and a unit is its own by a marker in the text, never by
its name.

The loops are recursions over the list they go through, each with its body as a
program of its own, so that what is proved of a body is proved once.

## Main definitions

* `writeCredentials`, `forgetCredentials`: The credentials file of a reference.
* `prepareUnits`: The first loop of `Mounter.apply`, which writes.
* `removeStaleUnits`: What removes.
* `armUnits`: The second loop, which arms.
* `mounterApply`: `Mounter.apply`.
* `Reconciles`: What reconciling the units against a config may do.

## Theorems

* `footprint_mounterApply`: Applying writes and arms a connection's own units
  and takes away only what is nobody's.
-/

namespace Smbpal

open Lib Program

section Apply

variable [Unicode]

/-- `CredentialsStore.path_for`: the file of a reference that can be one. -/
def pathFor (ref : Str) : Except Exc Str :=
  if isId ref then .ok (str "/etc/smbpal/credentials/" ++ ref)
  else .error <| .of .invalidParams (repr ref ++ str " is not a usable credential reference")

/-- A character that would end a line of the credentials file. -/
def endsLine (c : PyChar) : Bool :=
  oneOf "\r\n\x00" c

/-- One of the two values `CredentialsStore.write` insists on. -/
def checkCredential (label value : Str) : Except Exc Unit :=
  if value = [] then
    .error <| .of .invalidParams (str "the " ++ label ++ str " must not be empty")
  else if value.any endsLine then
    .error <| .detailed .invalidParams (str "the " ++ label ++ str " contains a line break or NUL")
      (str "cifs reads this file one directive per line.")
  else .ok ()

/-- The domain, when there is one. -/
def domainOf (domain : Option Str) : Option Str :=
  match domain with
  | some d => if d = [] then none else some d
  | none => none

/-- The text of a credentials file, when its values can stand in one. -/
def credentialsBody (username password : Str) (domain : Option Str) : Except Exc Str := do
  checkCredential (str "username") username
  checkCredential (str "password") password
  refuseIf ((domainOf domain).filter fun d => d.any endsLine) fun _ =>
    .of .invalidParams (str "the domain contains a line break or NUL")
  pure <| str "username=" ++ username ++ str "\npassword=" ++ password ++ str "\n" ++
    match domainOf domain with
    | some d => str "domain=" ++ d ++ str "\n"
    | none => []

/-- `CredentialsStore.write`. -/
def writeCredentials (ref username password : Str) (domain : Option Str) : DaemonM Unit := do
  let body ← fromExcept (credentialsBody username password domain)
  let path ← fromExcept (pathFor ref)
  catching Exc.isOS (call (.credentialsWrite ref body)) fun _ =>
    throw (.of .credentials (str "cannot write " ++ path))

/-- `Mounter.forget_credentials`, which is `CredentialsStore.remove`. -/
def forgetCredentials (ref : Str) : DaemonM Unit := do
  let path ← fromExcept (pathFor ref)
  catching Exc.isOS (call (.credentialsUnlink ref)) fun _ =>
    throw (.of .credentials (str "cannot remove " ++ path))

/-- `CredentialsStore.exists`. -/
def credentialsExist (ref : Str) : DaemonM Bool := do
  let _ ← fromExcept (pathFor ref)
  call (.credentialsExists ref)

/-- A string field that is there and not empty. -/
def truthy (value : Option Str) : Option Str :=
  match value with
  | some v => if v = [] then none else some v
  | none => none

omit [Unicode] in
theorem truthy_eq_some_iff {value : Option Str} {v : Str} :
    truthy value = some v ↔ value = some v ∧ v ≠ [] := by
  cases value with
  | none => exact ⟨fun h => absurd h.symm (Option.some_ne_none v), fun h => h.1⟩
  | some w =>
      change (if w = [] then none else some w) = some v ↔ _
      by_cases hw : w = []
      · rw [if_pos hw]
        refine ⟨fun h => absurd h.symm (Option.some_ne_none v), fun h => absurd ?_ h.2⟩
        rw [← Option.some.inj h.1, hw]
      · rw [if_neg hw]
        refine ⟨fun h => ⟨h, ?_⟩, fun h => h.1⟩
        rw [← Option.some.inj h]
        exact hw

/-- `Mounter._credentials_path`. -/
def credentialsPath (c : Connection) : DaemonM (Option Str) :=
  match truthy c.credentialRef with
  | none => pure none
  | some ref => do
      let present ← credentialsExist ref
      if present then do
        let path ← fromExcept (pathFor ref)
        pure (some path)
      else pure none

/-- `Mounter._with_owner_ids`: the ids of the owner, when the account exists. -/
def ownerIds (c : Connection) : DaemonM (Option OwnerIds) :=
  match truthy c.owner with
  | none => pure none
  | some owner => call (.getpwnam owner)

/-- `connection["mountpoint"]` where a string is needed. -/
def mountpointOf (c : Connection) : Except Exc Str :=
  match c.mountpoint with
  | some mountpoint => .ok mountpoint
  | none => .error .exception

/-- The names of a connection's units, which a path without UTF-8 has not. -/
def namesOf (c : Connection) : Except Exc (Str × Str) :=
  match c.mountpoint.bind unitNames with
  | some names => .ok names
  | none => .error .exception

/-- `foreign_mount`: the mount at a mountpoint, when it is not this connection's. -/
def foreignMount (entry : Option MountEntry) (c : Connection) : Option MountEntry :=
  match entry with
  | none => none
  | some e =>
      if e.fstype ≠ str "cifs" then some e
      else if lower e.source = lower (mountSource c) then none
      else
        match truthy c.fallbackHost with
        | none => some e
        | some fallback =>
            if lower e.source = lower (str "//" ++ fallback ++ str "/" ++ pyStr c.share) then none
            else some e

/-- `Mounter.foreign_occupant`. -/
def foreignOccupant (c : Connection) : DaemonM (Option MountEntry) := do
  let mountpoint ← fromExcept (mountpointOf c)
  let entry ← call (.occupant mountpoint)
  pure (foreignMount entry c)

/-- `Mounter._write_unit`. -/
def writeUnit (name text : Str) : DaemonM Unit :=
  catching Exc.isOS (call (.writeUnit name text)) fun _ =>
    throw (.of .mountFailed (str "cannot write " ++ name))

/-- The units of one connection whose mountpoint is free. -/
def writeUnits (c : Connection) (names : Str × Str) : DaemonM Unit := do
  let mountpoint ← fromExcept (mountpointOf c)
  call (.ensureMountpoint mountpoint)
  let path ← credentialsPath c
  let ids ← ownerIds c
  writeUnit names.1 (mountUnit c ids path)
  writeUnit names.2 (automountUnit c)

/-- The first loop of `Mounter.apply`: the names that are wanted, and the ids
    of the connections whose mountpoint somebody else holds. -/
def prepareUnits : List Connection → DaemonM (List Str × List (Option Str))
  | [] => pure ([], [])
  | c :: cs => do
      let names ← fromExcept (namesOf c)
      let intruder ← foreignOccupant c
      match intruder with
      | some _ => do
          let rest ← prepareUnits cs
          pure (names.1 :: names.2 :: rest.1, c.id :: rest.2)
      | none => do
          writeUnits c names
          let rest ← prepareUnits cs
          pure (names.1 :: names.2 :: rest.1, rest.2)

/-- `Mounter._untouched`: the mountpoints this change is entitled to remove,
    or everything when a person asked for a full sweep. -/
def untouched (config : Config) (previous : Option Config) : Option (List Str) :=
  match previous with
  | none => none
  | some previous =>
      some <| ((config.connections ++ previous.connections).filterMap fun c =>
        truthy c.mountpoint).map normpath

/-- `path.suffix == suffix`: a name that is nothing but the suffix has none. -/
def hasSuffix (name : Str) (suffix : String) : Bool :=
  endsWith name suffix && decide (name ≠ str suffix)

/-- A file the reaping looks at. -/
def isUnitFile (name : Str) : Bool :=
  hasSuffix name ".mount" || hasSuffix name ".automount"

/-- `_where`, on the text: the mountpoint a generated unit names. -/
def whereOf (text : Str) : Option Str :=
  ((splitChar '\n' text).find? fun line => startsWith line "Where=").map fun line =>
    strip (line.drop 6)

/-- Whether `keep` lets a unit for this place be removed. -/
def mayRemove (keep : Option (List Str)) (place : Option Str) : Bool :=
  match keep with
  | none => true
  | some keep => decide (normpath (place.getD []) ∈ keep)

/-- `in_managed_root`, for `MANAGED_ROOTS`. -/
def inManagedRoot (mountpoint : Str) : Bool :=
  startsWith (normpath mountpoint) "/media/" || startsWith (normpath mountpoint) "/run/media/" ||
    startsWith (normpath mountpoint) "/Volumes/"

/-- Stop a unit that is to go, and say whether its mount is still up. -/
def standDown (name : Str) (place : Option Str) : DaemonM Bool :=
  if hasSuffix name ".automount" then do
    call (.systemctl (.disable name))
    pure false
  else do
    call (.systemctl (.stop name))
    match truthy place with
    | none => pure false
    | some mountpoint => do
        let mounted : Option Bool ← call (.isMounted mountpoint)
        pure (decide (mounted = some true))

/-- Delete a unit file, and the mountpoint it leaves when we chose it. -/
def unlinkUnit (name : Str) (place : Option Str) : DaemonM Bool := do
  let gone ← catching Exc.isOS (do call (.unlinkUnit name); pure true) fun _ => pure false
  if gone then
    match truthy place with
    | none => pure true
    | some mountpoint =>
        if inManagedRoot mountpoint then do
          catching Exc.isOS (call (.rmdir mountpoint)) fun _ => pure ()
          pure true
        else pure true
  else pure false

/-- The text of a unit file, none when it cannot be read. -/
def readUnit (name : Str) : DaemonM (Option Str) :=
  catching Exc.isOS (do let text ← call (.readUnit name); pure (some text)) fun _ => pure none

/-- The body of the loop of `_remove_stale_units`: whether the file went. -/
def removeIfStale (keep : Option (List Str)) (name : Str) : DaemonM Bool := do
  let text ← readUnit name
  if contains marker (text.getD []) then do
    let again ← readUnit name
    let place := again.bind whereOf
    if mayRemove keep place then do
      let busy ← standDown name place
      if busy then pure false else unlinkUnit name place
    else pure false
  else pure false

/-- The loop of `_remove_stale_units` over the names in the directory. -/
def removeStaleFrom (wanted : List Str) (keep : Option (List Str)) :
    List Str → DaemonM (List Str)
  | [] => pure []
  | name :: names =>
      if isUnitFile name = true ∧ name ∉ wanted then do
        let gone ← removeIfStale keep name
        let rest ← removeStaleFrom wanted keep names
        pure (if gone then name :: rest else rest)
      else removeStaleFrom wanted keep names

/-- `Mounter._remove_stale_units`. -/
def removeStaleUnits (wanted : List Str) (keep : Option (List Str)) : DaemonM (List Str) := do
  let names ← call .iterUnits
  removeStaleFrom wanted keep names

/-- The second loop of `Mounter.apply`. -/
def armUnits (blocked : List (Option Str)) : List Connection → DaemonM Unit
  | [] => pure ()
  | c :: cs =>
      if c.id ∈ blocked then armUnits blocked cs
      else do
        let names ← fromExcept (namesOf c)
        if c.autoConnect = some (str "never") then do
          call (.systemctl (.disable names.2))
          armUnits blocked cs
        else do
          call (.systemctl (.resetFailed names.1))
          call (.systemctl (.enable names.2))
          armUnits blocked cs

/-- What `Mounter.plan` says about one connection. -/
structure PlannedConnection where
  connection : Connection
  mountUnit : Str
  automountUnit : Str
  state : Str
  hasCredentials : Bool

/-- Whether a connection's credentials file is there. -/
def hasCredentials (c : Connection) : DaemonM Bool :=
  match truthy c.credentialRef with
  | none => pure false
  | some ref => credentialsExist ref

/-- `Mounter.plan`, for one connection. -/
def planOne (c : Connection) : DaemonM PlannedConnection := do
  let names ← fromExcept (namesOf c)
  let present ← hasCredentials c
  let mountpoint ← fromExcept (mountpointOf c)
  let state ← call (.probeState mountpoint)
  let intruder ← foreignOccupant c
  pure
    { connection := c
      mountUnit := names.1
      automountUnit := names.2
      state :=
        if intruder ≠ none then str "mountpoint in use"
        else if present = false ∧ truthy c.credentialRef ≠ none then str "no credentials"
        else state
      hasCredentials := present }

/-- `Mounter.plan`. -/
def plan : List Connection → DaemonM (List PlannedConnection)
  | [] => pure []
  | c :: cs => do
      let planned ← planOne c
      let rest ← plan cs
      pure (planned :: rest)

/-- `Mounter.apply`. -/
def mounterApply (config : Config) (previous : Option Config) :
    DaemonM (List PlannedConnection) := do
  let prepared ← prepareUnits config.connections
  let removed ← removeStaleUnits prepared.1 (untouched config previous)
  onlyIf (decide (prepared.1 ≠ [] ∨ removed ≠ [])) (call (.systemctl .daemonReload))
  armUnits prepared.2 config.connections
  plan config.connections

/-- A unit of a connection. -/
def UnitOf (c : Connection) (name : Str) : Prop :=
  ∃ names, namesOf c = .ok names ∧ (name = names.1 ∨ name = names.2)

/-- A unit of none of the connections. -/
def UnitOfNone (cs : List Connection) (name : Str) : Prop :=
  ∀ c ∈ cs, ¬ UnitOf c name

/-- What reconciling the units against `cs` may do: write a connection's own
    units with its own texts, arm them, and take away what is nobody's. -/
def Reconciles (cs : List Connection) : DaemonOp → Prop
  -- Units are written, stopped and enabled for the connections, and what is looked at is free.
  | .writeUnit name text => ∃ c ∈ cs, ∃ names, namesOf c = .ok names ∧
      ((name = names.1 ∧ ∃ ids path, text = mountUnit c ids path) ∨
        (name = names.2 ∧ text = automountUnit c))
  | .unlinkUnit name => UnitOfNone cs name
  | .systemctl (.stop name) => UnitOfNone cs name
  | .systemctl (.disable name) => UnitOfNone cs name ∨
      ∃ c ∈ cs, UnitOf c name ∧ c.autoConnect = some (str "never")
  | .systemctl (.resetFailed name) => ∃ c ∈ cs, UnitOf c name
  | .systemctl (.enable name) => ∃ c ∈ cs, UnitOf c name
  | .systemctl .daemonReload => True
  | .occupant _ => True
  | .isMounted _ => True
  | .probeState _ => True
  | .ensureMountpoint _ => True
  | .rmdir _ => True
  | .getpwnam _ => True
  | .credentialsExists _ => True
  | .iterUnits => True
  | .readUnit _ => True
  | _ => False

omit [Unicode] in
/-- A reference that is there can name a file. -/
theorem truthy_wellFormed {c : Connection} {ref : Str} (hc : c.WellFormed)
    (h : truthy c.credentialRef = some ref) : isId ref = true :=
  hc.credentialRef ref (truthy_eq_some_iff.mp h).1

omit [Unicode] in
/-- A connection with unit names has a mountpoint. -/
theorem mountpointOf_of_namesOf {c : Connection} {names : Str × Str} (h : namesOf c = .ok names) :
    ∃ mountpoint, c.mountpoint = some mountpoint ∧ mountpointOf c = .ok mountpoint := by
  unfold namesOf at h
  unfold mountpointOf
  cases hm : c.mountpoint with
  | none =>
      rw [hm] at h
      exact nomatch h
  | some mountpoint => exact ⟨mountpoint, rfl, rfl⟩

section Footprints

variable {cs : List Connection}

theorem footprint_credentialsExist (ref : Str) :
    Performs (S := daemonSig) (Reconciles cs) (credentialsExist ref) :=
  performs_bind ((footprint_fromExcept _).mpr fun _ _ => trivial) fun _ =>
    footprint_call trivial fun _ => trivial

theorem footprint_credentialsPath (c : Connection) :
    Performs (S := daemonSig) (Reconciles cs) (credentialsPath c) := by
  unfold credentialsPath
  split
  · exact (footprint_pure _).mpr trivial
  · refine performs_bind (footprint_credentialsExist _) fun present => ?_
    cases present with
    | true => exact performs_bind ((footprint_fromExcept _).mpr fun _ _ => trivial) fun _ => trivial
    | false => exact (footprint_pure _).mpr trivial

omit [Unicode] in
theorem footprint_ownerIds (c : Connection) :
    Performs (S := daemonSig) (Reconciles cs) (ownerIds c) := by
  unfold ownerIds
  split
  · exact (footprint_pure _).mpr trivial
  · exact footprint_call trivial fun _ => trivial

theorem footprint_foreignOccupant (c : Connection) :
    Performs (S := daemonSig) (Reconciles cs) (foreignOccupant c) :=
  performs_bind ((footprint_fromExcept _).mpr fun _ _ => trivial) fun _ =>
    performs_bind (footprint_call trivial fun _ => trivial) fun _ => trivial

omit [Unicode] in
theorem footprint_writeUnit {name text : Str} (h : Reconciles cs (.writeUnit name text)) :
    Performs (S := daemonSig) (Reconciles cs) (writeUnit name text) :=
  footprint_catching (footprint_call h fun _ => trivial) fun _ => trivial

theorem footprint_writeUnits {c : Connection} {names : Str × Str} (hc : c ∈ cs)
    (hn : namesOf c = .ok names) :
    Performs (S := daemonSig) (Reconciles cs) (writeUnits c names) := by
  refine performs_bind ((footprint_fromExcept _).mpr fun _ _ => trivial) fun mountpoint => ?_
  refine performs_bind (footprint_call trivial fun _ => trivial) fun _ => ?_
  refine performs_bind (footprint_credentialsPath c) fun path => ?_
  refine performs_bind (footprint_ownerIds c) fun ids => ?_
  refine performs_bind (footprint_writeUnit ⟨c, hc, names, hn, Or.inl ⟨rfl, ids, path, rfl⟩⟩)
    fun _ => ?_
  exact footprint_writeUnit ⟨c, hc, names, hn, Or.inr ⟨rfl, rfl⟩⟩

/-- The names `prepareUnits` wants are those of every connection it went
    through, blocked or not. -/
theorem footprint_prepareUnits {todo : List Connection} (hsub : ∀ c ∈ todo, c ∈ cs) :
    Footprint (S := daemonSig) (Reconciles cs)
      (fun prepared => ∀ c ∈ todo, ∀ name, UnitOf c name → name ∈ prepared.1)
      (prepareUnits todo) := by
  induction todo with
  | nil => exact (footprint_pure _).mpr fun c hc => absurd hc List.not_mem_nil
  | cons c todo ih =>
      have ih := ih fun d hd => hsub d (List.mem_cons_of_mem _ hd)
      -- The names of this connection go in front of those of the rest.
      have hkeep : ∀ {names : Str × Str} {rest : List Str × List (Option Str)}
          {blocked : List (Option Str)}, namesOf c = .ok names →
          (∀ d ∈ todo, ∀ name, UnitOf d name → name ∈ rest.1) →
          ∀ d ∈ c :: todo, ∀ name, UnitOf d name →
            name ∈ ((names.1 :: names.2 :: rest.1, blocked) : List Str × List (Option Str)).1 := by
        intro names rest blocked hn hrest d hd name hname
        rcases List.mem_cons.mp hd with rfl | hd
        · rcases hname with ⟨names', hn', hname⟩
          rw [hn, Except.ok.injEq] at hn'
          subst hn'
          rcases hname with rfl | rfl
          · exact List.mem_cons_self
          · exact List.mem_cons_of_mem _ List.mem_cons_self
        · exact List.mem_cons_of_mem _ (List.mem_cons_of_mem _ (hrest d hd name hname))
      refine footprint_bind (R := fun names => namesOf c = .ok names)
        ((footprint_fromExcept _).mpr fun _ h => h) fun names hn => ?_
      refine performs_bind (footprint_foreignOccupant c) fun intruder => ?_
      cases intruder with
      -- Something else is mounted there: no unit is written, but its names are wanted.
      | some entry =>
          exact footprint_bind ih fun rest hrest => (footprint_pure _).mpr (hkeep hn hrest)
      | none =>
          refine performs_bind (footprint_writeUnits (hsub c List.mem_cons_self) hn) fun _ => ?_
          exact footprint_bind ih fun rest hrest => (footprint_pure _).mpr (hkeep hn hrest)

omit [Unicode] in
theorem footprint_readUnit (name : Str) :
    Performs (S := daemonSig) (Reconciles cs) (readUnit name) :=
  footprint_catching (performs_bind (footprint_call trivial fun _ => trivial) fun _ => trivial)
    fun _ => trivial

omit [Unicode] in
theorem footprint_standDown {name : Str} {place : Option Str} (h : UnitOfNone cs name) :
    Performs (S := daemonSig) (Reconciles cs) (standDown name place) := by
  unfold standDown
  split
  · exact performs_bind (footprint_call (Or.inl h) fun _ => trivial) fun _ => trivial
  · refine performs_bind (footprint_call h fun _ => trivial) fun _ => ?_
    split
    · exact (footprint_pure _).mpr trivial
    · exact performs_bind (footprint_call trivial fun _ => trivial) fun _ => trivial

omit [Unicode] in
/-- What follows the unlinking of a unit is at most the removal of its mountpoint. -/
theorem footprint_afterUnlink {P : DaemonOp → Prop} (hP : ∀ mountpoint, P (.rmdir mountpoint))
    (place : Option Str) (gone : Bool) :
    Performs (S := daemonSig) P
      (if gone then
        match truthy place with
        | none => pure true
        | some mountpoint =>
            if inManagedRoot mountpoint then do
              catching Exc.isOS (call (.rmdir mountpoint)) fun _ => pure ()
              pure true
            else pure true
      else pure false) := by
  cases gone with
  | false => exact (footprint_pure _).mpr trivial
  | true =>
      rw [if_pos rfl]
      split
      · exact (footprint_pure _).mpr trivial
      · split
        · exact performs_bind (footprint_catching (footprint_call (hP _) fun _ => trivial)
            fun _ => trivial) fun _ => trivial
        · exact (footprint_pure _).mpr trivial

omit [Unicode] in
theorem footprint_unlinkUnit {name : Str} {place : Option Str} (h : UnitOfNone cs name) :
    Performs (S := daemonSig) (Reconciles cs) (unlinkUnit name place) :=
  performs_bind (footprint_catching (performs_bind (footprint_call h fun _ => trivial)
    fun _ => trivial) fun _ => trivial) (footprint_afterUnlink (fun _ => trivial) place)

omit [Unicode] in
theorem footprint_removeIfStale {name : Str} {keep : Option (List Str)} (h : UnitOfNone cs name) :
    Performs (S := daemonSig) (Reconciles cs) (removeIfStale keep name) := by
  refine performs_bind (footprint_readUnit name) fun text => ?_
  split
  · refine performs_bind (footprint_readUnit name) fun again => ?_
    dsimp only
    split
    · refine performs_bind (footprint_standDown h) fun busy => ?_
      split
      · exact (footprint_pure _).mpr trivial
      · exact footprint_unlinkUnit h
    · exact (footprint_pure _).mpr trivial
  · exact (footprint_pure _).mpr trivial

omit [Unicode] in
/-- Only a unit that nobody wants is stopped or removed. -/
theorem footprint_removeStaleFrom {wanted : List Str} {keep : Option (List Str)}
    (hw : ∀ c ∈ cs, ∀ name, UnitOf c name → name ∈ wanted) (names : List Str) :
    Performs (S := daemonSig) (Reconciles cs) (removeStaleFrom wanted keep names) := by
  induction names with
  | nil => exact (footprint_pure _).mpr trivial
  | cons name names ih =>
      unfold removeStaleFrom
      split
      · rename_i hname
        have hnone : UnitOfNone cs name := fun c hc hu => hname.2 (hw c hc name hu)
        exact performs_bind (footprint_removeIfStale hnone) fun _ =>
          performs_bind ih fun _ => (footprint_pure _).mpr trivial
      · exact ih

omit [Unicode] in
theorem footprint_armUnits {blocked : List (Option Str)} {todo : List Connection}
    (hsub : ∀ c ∈ todo, c ∈ cs) :
    Performs (S := daemonSig) (Reconciles cs) (armUnits blocked todo) := by
  induction todo with
  | nil => exact (footprint_pure _).mpr trivial
  | cons c todo ih =>
      have ih := ih fun d hd => hsub d (List.mem_cons_of_mem _ hd)
      have hc := hsub c List.mem_cons_self
      unfold armUnits
      split
      · exact ih
      · refine footprint_bind (R := fun names => namesOf c = .ok names)
          ((footprint_fromExcept _).mpr fun _ h => h) fun names hn => ?_
        -- The two units of the connection are its own, under either name.
        have h1 : UnitOf c names.1 := ⟨names, hn, Or.inl rfl⟩
        have h2 : UnitOf c names.2 := ⟨names, hn, Or.inr rfl⟩
        split
        · rename_i hnever
          exact performs_bind (footprint_call (Or.inr ⟨c, hc, h2, hnever⟩) fun _ => trivial)
            fun _ => ih
        · exact performs_bind (footprint_call ⟨c, hc, h1⟩ fun _ => trivial) fun _ =>
            performs_bind (footprint_call ⟨c, hc, h2⟩ fun _ => trivial) fun _ => ih

theorem footprint_planOne (c : Connection) :
    Performs (S := daemonSig) (Reconciles cs) (planOne c) := by
  have hpresent : Performs (S := daemonSig) (Reconciles cs) (hasCredentials c) := by
    unfold hasCredentials
    split
    · exact (footprint_pure _).mpr trivial
    · exact footprint_credentialsExist _
  refine performs_bind ((footprint_fromExcept _).mpr fun _ _ => trivial) fun names => ?_
  refine performs_bind hpresent fun present => ?_
  refine performs_bind ((footprint_fromExcept _).mpr fun _ _ => trivial) fun mountpoint => ?_
  refine performs_bind (footprint_call trivial fun _ => trivial) fun state => ?_
  exact performs_bind (footprint_foreignOccupant c) fun _ => (footprint_pure _).mpr trivial

theorem footprint_plan (todo : List Connection) :
    Performs (S := daemonSig) (Reconciles cs) (plan todo) := by
  induction todo with
  | nil => exact (footprint_pure _).mpr trivial
  | cons c todo ih =>
      exact performs_bind (footprint_planOne c) fun _ =>
        performs_bind ih fun _ => (footprint_pure _).mpr trivial

end Footprints

/-- Applying a config reconciles the units against its connections and does
    nothing else. -/
theorem footprint_mounterApply (config : Config) (previous : Option Config) :
    Performs (S := daemonSig) (Reconciles config.connections) (mounterApply config previous) := by
  refine footprint_bind (footprint_prepareUnits fun _ hc => hc) fun prepared hprepared => ?_
  refine performs_bind (performs_bind (footprint_call trivial fun _ => trivial) fun names =>
    footprint_removeStaleFrom hprepared names) fun removed => ?_
  exact performs_bind (footprint_onlyIf fun _ => footprint_call trivial fun _ => trivial)
    fun _ => performs_bind (footprint_armUnits fun _ hc => hc) fun _ => footprint_plan _

end Apply

end Smbpal
