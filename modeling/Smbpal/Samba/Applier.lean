import Smbpal.Samba.Apply
import Smbpal.Samba.Conf
import Smbpal.Samba.Host

/-!
# Turning a Config into a Serving Samba

`samba/apply.py` whole, with what it calls: `shares/ownership.py` to look at the directories
and create the missing ones, `samba/conf.py` for the text, `samba/include.py` for the block,
`samba/control.py` to have Samba read the files and see what it serves, and
`discovery/advertise.py` for the mDNS record.

## Main definitions

* `Applier.plan`, `PlannedShare`: How each share would be served.
* `Applier.apply`: The files, the reload, the check and the record.
* `Applier.teardown`: All of it undone.
-/

namespace Smbpal

section Ownership

/-- `grp.getgrall()`, which an account that is not there does not come to. -/
def HostM.getgrall (found : Bool) : HostM (List (Nat × List Str)) :=
  if found = true then HostM.call .getgrall else pure []

variable [Unicode]

/-- `serving_identity`. -/
def HostM.servingIdentity (username : Str) : HostM ServingIdentity := do
  let entry ← HostM.call (.getpwnam username)
  let groups ← HostM.getgrall entry.isSome
  Lib.Program.fromExcept
    ((servingIdentityOf (fun _ => entry) groups username).mapError HostExc.ofOwnership)

/-- The status of a directory that is not there. -/
def missingDirectory (path : Str) : DirectoryStatus where
  path := path
  exists_ := false
  isDir := false
  ownerUid := none
  ownerGid := none
  mode := none
  writable := none
  ownerName := none
  whyNotWritable := none
  fixable := true

/-- `path.stat()`, with no directory where it raises `FileNotFoundError`. -/
def HostM.statDirectory (path : Str) : HostM (Option Stat) :=
  HostM.catching HostExc.isFileNotFound (some <$> HostM.call (.stat path)) fun _ => pure none

/-- `inspect_directory`. -/
def HostM.inspectDirectory (path : Str) (identity : Option ServingIdentity) :
    HostM DirectoryStatus := do
  let found ← HostM.catching HostExc.isOS (HostM.statDirectory path) fun e =>
    throw (.smbpal .ownership (str "cannot inspect " ++ path) (some e.text))
  match found with
  | none => pure (missingDirectory path)
  | some info => do
      let owner ← HostM.call (.getpwuid info.uid)
      pure (describeDirectory path info.uid info.gid info.mode
        (some (owner.getD (digits info.uid))) identity false none)

/-- `effective_read_only`. -/
def effectiveReadOnly (configured : Bool) (status : DirectoryStatus) : Bool × Option Str :=
  if configured = true then (true, none)
  else if status.writable = some false then
    (true, some (str "read-only: " ++ pyStr status.whyNotWritable))
  else (false, none)

/-- `create_directory`. -/
def HostM.createDirectory (path : Str) (identity : ServingIdentity) : HostM DirectoryStatus := do
  HostM.catching HostExc.isOS
    (do
      HostM.call (.mkdir path)
      match lowestGid identity with
      | none => throw .exception
      | some gid => HostM.call (.chown path identity.uid gid))
    fun e =>
      if e.isFileExists = true then
        throw (.smbpal .ownership (path ++ str " already exists") none)
      else throw (.smbpal .ownership (str "cannot create " ++ path) (some e.text))
  HostM.inspectDirectory path (some identity)

end Ownership

section Planning

variable [Unicode]

/-- `PlannedShare`. -/
structure PlannedShare where
  share : Share
  status : DirectoryStatus
  readOnly : Bool
  reason : Option Str

/-- `_identity_for`. -/
def Applier.identityFor (share : Share) : HostM (Option ServingIdentity) :=
  match share.credentialRef with
  | none => pure none
  | some [] => pure none
  | some user =>
      HostM.catching HostExc.isSmbpal (some <$> HostM.servingIdentity user) fun _ => pure none

/-- What is planned for a share, once its directory has been looked at. -/
def plannedAs (share : Share) (path : Str) (status : DirectoryStatus) : PlannedShare :=
  let readOnly := effectiveReadOnly (share.readOnly.getD false) status
  { share := share
    status := status
    readOnly := readOnly.1
    reason :=
      if status.exists_ = true then readOnly.2
      else some (path ++
        str " does not exist yet — it will be created when the share is applied") }

/-- The body of the loop in `plan`. A share without a path is a `KeyError`. -/
def Applier.planShare (share : Share) : HostM PlannedShare := do
  let identity ← Applier.identityFor share
  match share.path with
  | none => throw .exception
  | some path => do
      let status ← HostM.inspectDirectory path identity
      pure (plannedAs share path status)

/-- `plan`. -/
def Applier.plan : List Share → HostM (List PlannedShare)
  | [] => pure []
  | share :: shares => do
      let planned ← Applier.planShare share
      let rest ← Applier.plan shares
      pure (planned :: rest)

/-- The body of the loop in `_create_missing_directories`. -/
def Applier.createMissing (item : PlannedShare) : HostM Unit :=
  if item.status.exists_ = true ∨ item.share.isEnabled = false then pure ()
  else do
    let identity ← Applier.identityFor item.share
    match identity, item.share.path with
    | none, _ => pure ()
    | some _, none => throw .exception
    | some identity, some path => do
        let _ ← HostM.createDirectory path identity
        pure ()

/-- `_create_missing_directories`. -/
def Applier.createMissingDirectories : List PlannedShare → HostM Unit
  | [] => pure ()
  | item :: items => do
      Applier.createMissing item
      Applier.createMissingDirectories items

end Planning

section Advertising

/-- `SERVICE_XML`, line by line. -/
def serviceXmlLines : List Str :=
  [ str "<?xml version=\"1.0\" standalone='no'?><!--*-nxml-*-->\n",
    str "<!DOCTYPE service-group SYSTEM \"avahi-service.dtd\">\n",
    str "<!-- Written by SMBPal while at least one share is active. Removed when none is. -->\n",
    str "<service-group>\n",
    str "  <name replace-wildcards=\"yes\">%h</name>\n",
    str "  <service>\n",
    str "    <type>_smbpal._tcp</type>\n",
    str "    <port>445</port>\n",
    str "    <txt-record>v=1</txt-record>\n",
    str "  </service>\n",
    str "</service-group>\n" ]

/-- `SERVICE_XML`. -/
def serviceXml : Str :=
  serviceXmlLines.flatten

/-- `Advertiser`, its path. -/
structure Advertiser where
  path : Str

/-- `_current`. -/
def Advertiser.current : HostM (Option Str) :=
  HostM.catching HostExc.isOS (some <$> HostM.call (.readText .service)) fun _ => pure none

/-- `self.path.exists() and self._current() == SERVICE_XML`. -/
def Advertiser.isCurrent : HostM Bool := do
  let there ← HostM.call (.present .service)
  if there = true then do
    let current ← Advertiser.current
    pure (decide (current = some serviceXml))
  else pure false

/-- `publish`. -/
def Advertiser.publish (adv : Advertiser) : HostM Bool := do
  let same ← Advertiser.isCurrent
  if same = true then pure true
  else do
    HostM.catching HostExc.isOS (HostM.call (.writeText .service serviceXml 0o644)) fun e =>
      throw (.smbpal .advertise (str "cannot write " ++ adv.path) (some e.text))
    pure true

/-- `withdraw`. -/
def Advertiser.withdraw (adv : Advertiser) : HostM Bool := do
  let there ← HostM.call (.present .service)
  if there = true then do
    HostM.catching HostExc.isOS (HostM.call (.unlink .service)) fun e =>
      throw (.smbpal .advertise (str "cannot remove " ++ adv.path) (some e.text))
    pure false
  else pure false

/-- `reconcile`. -/
def Advertiser.reconcile (adv : Advertiser) (shareCount : Nat) : HostM Bool :=
  if 0 < shareCount then adv.publish else adv.withdraw

end Advertising

section Files

/-- `Applier`, without its runner. -/
structure Applier extends SambaApplier where
  advertiser : Advertiser

/-- Where a file is. -/
def Applier.pathOf (a : Applier) : HostFile → Str
  | .smbConf => a.smbConf
  | .smbpalConf => a.smbpalConf.text
  | .service => a.advertiser.path

/-- `_write`. -/
def Applier.write (a : Applier) (f : HostFile) (text : Str) (mode : Nat) : HostM Unit :=
  HostM.catching HostExc.isOS (HostM.call (.writeText f text mode)) fun e =>
    throw (.smbpal (.known .applyFailed) (str "cannot write " ++ a.pathOf f) (some e.text))

/-- `_mode_of`. -/
def HostM.modeOf (f : HostFile) : HostM Nat :=
  HostM.catching HostExc.isOS ((· &&& 0o777) <$> HostM.call (.mode f)) fun _ => pure 0o644

/-- The errors of a text transform, raised on the host. -/
def HostM.check {α : Type} (r : Except Exc α) : HostM α :=
  Lib.Program.fromExcept (r.mapError HostExc.ofExc)

/-- `_ensure_include`. -/
def Applier.ensureInclude (a : Applier) : HostM Unit := do
  let original ← HostM.catching HostExc.isOS (HostM.call (.readText .smbConf)) fun e =>
    if e.isFileNotFound = true then
      throw (.smbpal (.known .applyFailed) (a.smbConf ++ str " does not exist")
        (some (str "Samba does not appear to be installed.")))
    else
      throw (.smbpal (.known .applyFailed) (str "cannot read " ++ a.smbConf) (some e.text))
  let updated ← HostM.check (insertInclude original a.includeLine)
  if updated = original then pure ()
  else do
    let mode ← HostM.modeOf .smbConf
    a.write .smbConf updated mode

end Files

section Samba

variable [Unicode]

/-- `(result.stderr or result.stdout).strip()`, or the other text where that is empty. -/
def CommandResult.complaint (r : CommandResult) (otherwise : Str) : Str :=
  let said := strip (if r.stderr = [] then r.stdout else r.stderr)
  if said = [] then otherwise else said

/-- `reload_config`. -/
def Control.reloadConfig : HostM Unit := do
  let result ← HostM.call .smbcontrol
  if result.isOk = true then pure ()
  else
    throw (.smbpal .reloadFailed (str "Samba would not reload its configuration")
      (some (result.complaint (str "smbcontrol exited " ++ statusText result.returncode))))

/-- `run([TESTPARM, "-s"]).check()`. -/
def Control.dump : HostM Str := do
  let result ← HostM.call .testparm
  if result.isOk = true then pure result.stdout
  else
    throw (.smbpal .commandFailed (str "testparm failed")
      (some (result.complaint (str "exit status " ++ statusText result.returncode))))

/-- `verify_present`. -/
def Control.verifyPresent (names : List Str) : HostM Unit := do
  let stdout ← Control.dump
  match missingShares names stdout with
  | [] => pure ()
  | missing =>
      throw (.smbpal .shareNotServed
        (str "Samba reloaded but is not serving " ++ join (str ", ") (missing.map repr))
        (some (str ("testparm reports OK even when the included file is malformed " ++
          "or missing (M0 §1a), so its verdict proves nothing. This check reads " ++
          "the effective configuration instead, and the share is not in it."))))

end Samba

section Applying

variable [Unicode]

/-- `ApplyReport`. -/
structure ApplyReport where
  shares : List PlannedShare
  served : List Str
  advertising : Bool

/-- The shares of a plan that are served. -/
def enabledOf (planned : List PlannedShare) : List PlannedShare :=
  planned.filter fun p => p.share.isEnabled

/-- `{**p.share, "read_only": p.read_only}`. -/
def PlannedShare.served (p : PlannedShare) : Share :=
  { p.share with readOnly := some p.readOnly }

/-- The text of `smbpal.conf` for a plan. -/
def renderPlanned (planned : List PlannedShare) : Except Exc Str :=
  render ((enabledOf planned).map PlannedShare.served)

/-- `{p.share["name"] for p in enabled}`. A share without a name was not rendered. -/
def expectedNames (planned : List PlannedShare) : List Str :=
  ((enabledOf planned).filterMap fun p => p.share.name).dedup

/-- `apply`. -/
def Applier.apply (a : Applier) (doc : Config) : HostM ApplyReport := do
  let planned ← Applier.plan doc.shares
  Applier.createMissingDirectories planned
  let planned ← Applier.plan doc.shares
  let rendered ← HostM.check (renderPlanned planned)
  a.write .smbpalConf rendered 0o644
  a.ensureInclude
  Control.reloadConfig
  Control.verifyPresent (expectedNames planned)
  let advertising ← a.advertiser.reconcile (enabledOf planned).length
  pure
    { shares := planned
      served := (expectedNames planned).insertionSort fun x y => strLe x y = true
      advertising := advertising }

end Applying

section Removing

/-- `teardown`, its first half: `smb.conf` without the block. -/
def Applier.stripInclude (a : Applier) : HostM Bool := do
  let original ← HostM.catching HostExc.isFileNotFound
    (some <$> HostM.call (.readText .smbConf)) fun _ => pure none
  match original with
  | none => pure false
  | some original => do
      let stripped ← HostM.check (removeInclude original a.includeLine)
      if stripped = original then pure false
      else do
        let mode ← HostM.modeOf .smbConf
        a.write .smbConf stripped mode
        pure true

/-- `unlink(missing_ok=True)`. -/
def HostM.unlinkMissingOk (f : HostFile) : HostM Unit :=
  HostM.catching HostExc.isFileNotFound (HostM.call (.unlink f)) fun _ => pure ()

/-- `teardown`. -/
def Applier.teardown (a : Applier) : HostM TeardownReport := do
  let includeRemoved ← a.stripInclude
  let smbpalConfRemoved ← HostM.call (.present .smbpalConf)
  HostM.unlinkMissingOk .smbpalConf
  let _ ← a.advertiser.withdraw
  HostM.catching HostExc.isSmbpal Control.reloadConfig fun _ => pure ()
  pure
    { smbConf := a.smbConf
      includeRemoved := includeRemoved
      smbpalConfRemoved := smbpalConfRemoved }

end Removing

end Smbpal
