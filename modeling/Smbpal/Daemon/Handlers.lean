import Smbpal.Mounts.Apply

/-!
# The Daemon's Handlers

`daemon/handlers.py`: the requests that change the config, each a program over
the daemon's operations.

Every handler has one shape. It loads the whole document, edits it, writes the
whole document back, and makes the system agree with it; `commit` is the last
two, with the undo of the first when the second fails. Nothing holds a lock
over any of it, so what other requests do in between is not the handler's to
say, and it is not said here.

On macOS the daemon has no mounter: mounting is done by the agent of whoever
asks, and passwords go to that person's login Keychain. On Linux it has a
mounter and no agents. A `Dispatcher` says which of them there are.

## Main definitions

* `Params`: The parameters of a request, and the readers of one.
* `Dispatcher`: What the daemon was started with.
* `commit`: `Dispatcher._commit`.
* `connectionAdd`, `connectionRemove`, `connectionSetCredentials`,
  `connectionUseFallback`, `connectionConnect`, `connectionDisconnect`,
  `shareAdd`, `shareRemove`: The handlers.
* `Request.program`: The handler of a request.
-/

namespace Smbpal

open Lib Program

/-- One parameter of a request. -/
inductive ParamValue where
  | null
  | string (s : Str)
  | bool (b : Bool)
  | other

/-- The parameters of a request; an absent one reads like null. -/
abbrev Params := String → ParamValue

/-- `_require_str`. -/
def requireStr (params : Params) (key : String) : Except Exc Str :=
  let refusal := Exc.of .invalidParams
    (str "'" ++ str key ++ str "' is required and must be a non-empty string")
  match params key with
  | .string s => if s = [] then .error refusal else .ok s
  | _ => .error refusal

/-- `_optional_str`. -/
def optionalStr (params : Params) (key : String) : Except Exc (Option Str) :=
  match params key with
  | .null => .ok none
  | .string s => .ok (some s)
  | _ => .error <| .of .invalidParams (str "'" ++ str key ++ str "' must be a string when present")

/-- `_optional_bool`. -/
def optionalBool (params : Params) (key : String) (default : Bool) : Except Exc Bool :=
  match params key with
  | .null => .ok default
  | .bool b => .ok b
  | _ => .error <|
      .of .invalidParams (str "'" ++ str key ++ str "' must be true or false when present")

/-- What the daemon was started with. -/
structure Dispatcher where
  /-- The applier, and whether it is one that applies only when shares change. -/
  applier : Option Bool
  mounter : Bool
  agents : Bool
  monitor : Bool
  style : MountpointStyle

section Handlers

variable [Unicode]

/-- `store.load()`. -/
def load : DaemonM Config :=
  call .load

/-- `store.save(doc)`. -/
def save (doc : Config) : DaemonM Unit :=
  call (.save doc)

/-- Whether this change has the applier run at all. -/
def Dispatcher.applies (d : Dispatcher) (previous updated : Config) : Bool :=
  match d.applier with
  | none => false
  | some onlyWhenSharesChange => !(onlyWhenSharesChange &&
    decide (previous.shares = updated.shares))

/-- Make the system agree with `doc`, where it was made to agree with `other`. -/
def applyAll (d : Dispatcher) (applies : Bool) (doc other : Config) : DaemonM Unit := do
  onlyIf applies (call (.applierApply doc))
  onlyIf d.mounter (do
    let _ ← mounterApply doc (some other)
    pure ())

/-- What `_commit` does when applying raised: the undo, and the exception
    again. -/
def rollBack (d : Dispatcher) (applies : Bool) (previous updated : Config) (e : Exc) :
    DaemonM Unit := do
  save previous
  catching Exc.isException (applyAll d applies previous updated) fun _ => pure ()
  throw e

/-- `_commit`: save, then apply, and undo the save if applying fails. -/
def commit (d : Dispatcher) (previous updated : Config) : DaemonM Unit := do
  save updated
  if d.applier = none ∧ d.mounter = false then pure ()
  else
    tryCatch (applyAll d (d.applies previous updated) updated previous)
      (rollBack d (d.applies previous updated) previous updated)

/-- `_find_connection`: the first whose id or mountpoint the reference is. -/
def findConnection (config : Config) (ref : Str) : Except Exc Connection :=
  match config.connections.find? fun c =>
      decide (c.id = some ref) || decide (c.mountpoint = some ref) with
  | some c => .ok c
  | none => .error <| .of .notFound (str "no connection called " ++ repr ref)

/-- `_same_credential`. -/
def sameCredential (c : Connection) (host account : Str) : Bool :=
  decide (casefold (pyStr c.host) = casefold host) && decide (c.credentialAccount = some account)

/-- `_keychain_mark`. -/
def keychainMark (config : Config) (host account : Str) (outcome : KeychainMark) : KeychainMark :=
  if outcome = .created then .created
  else if config.connections.any fun c =>
      decide (c.keychainCredential = some .created) && sameCredential c host account then .created
  else outcome

/-- Every record with this one's id, replaced by `f` of itself. -/
def updateWhere (config : Config) (id : Option Str) (f : Connection → Connection) : Config :=
  { config with connections := config.connections.map fun c => if c.id = id then f c else c }

/-- `_owner_from`. -/
def ownerFrom (uid : Nat) : DaemonM (Option Str) :=
  if uid = 0 then pure none else call (.getpwuid uid)

/-- The owner asked for, or whoever asks. -/
def chooseOwner (asked : Option Str) (uid : Nat) : DaemonM (Option Str) :=
  match truthy asked with
  | some owner => pure (some owner)
  | none => ownerFrom uid

/-- The mountpoints in use, when there is a mounter to see them. -/
def inUse (d : Dispatcher) : DaemonM (Option (List Str)) :=
  if d.mounter then do
    let taken ← call .occupiedMountpoints
    pure (some taken)
  else pure none

/-- A password, which a username needs. -/
def passwordFor (params : Params) (username : Option Str) : Except Exc (Option (Str × Str)) :=
  match truthy username with
  | none => .ok none
  | some username =>
      let refusal := Exc.of .invalidParams (str "'password' is required with 'username'")
      match params "password" with
      | .string password => if password = [] then .error refusal else
        .ok (some (username, password))
      | _ => .error refusal

/-- What was stored with a connection, and where. Never the password. -/
structure Stored where
  username : Str
  keychain : Option KeychainMark

/-- What `connection.add` answers. -/
structure AddedConnection where
  connection : Connection
  stored : Option Stored

/-- `StateMonitor.forget`, when there is a monitor. -/
def forgetState (d : Dispatcher) (id : Option Str) : DaemonM Unit :=
  onlyIf d.monitor (call (.monitorForget id))

/-- What `connection.add` reads from its parameters and asks the system for. -/
def newConnection (d : Dispatcher) (uid : Nat) (params : Params) : DaemonM NewConnection := do
  -- The checks are made in this order, so the first that fails is the one told.
  let host ← fromExcept (requireStr params "host")
  let share ← fromExcept (requireStr params "share")
  let mountpoint ← fromExcept (optionalStr params "mountpoint")
  let id ← fromExcept (optionalStr params "id")
  let credentialRef ← fromExcept (optionalStr params "credential_ref")
  let autoConnect ← fromExcept (optionalStr params "auto_connect")
  let asked ← fromExcept (optionalStr params "owner")
  let owner ← chooseOwner asked uid
  let fallbackHost ← fromExcept (optionalStr params "fallback_host")
  let taken ← inUse d
  pure
    { host := host
      share := share
      mountpoint := mountpoint
      id := id
      credentialRef := credentialRef
      autoConnect := (truthy autoConnect).getD (str "on_this_network")
      owner := owner
      fallbackHost := fallbackHost
      inUse := taken
      style := d.style }

/-- Delete the credentials file that was written for a connection, if any. -/
def takeBack (writtenRef : Option Str) : DaemonM Unit :=
  match writtenRef with
  | some ref => forgetCredentials ref
  | none => pure ()

/-- The end of `connection.add`, once the document to store is known. -/
def finishAdd (d : Dispatcher) (previous updated : Config) (connection : Connection)
    (stored : Option Stored) (writtenRef : Option Str) : DaemonM AddedConnection := do
  tryCatch (commit d previous updated) fun e => do
    takeBack writtenRef
    throw e
  forgetState d connection.id
  pure { connection := connection, stored := stored }

/-- `connection.add` with a password, on macOS: into the Keychain first. -/
def addWithKeychain (d : Dispatcher) (uid : Nat) (previous updated : Config)
    (connection : Connection) (username password : Str) : DaemonM AddedConnection := do
  let outcome ← call (.credentialSet uid (pyStr connection.host) username password)
  let mark := keychainMark previous (pyStr connection.host) username outcome
  let marked := { connection with
    credentialAccount := some username
    keychainCredential := some mark }
  finishAdd d previous (updateWhere updated connection.id fun _ => marked) marked
    (some { username := username, keychain := some mark }) none

/-- The reference of a connection's credentials file: its own, or its id. -/
def referenceOf (c : Connection) : Except Exc Str :=
  match truthy c.credentialRef, c.id with
  | some ref, _ => .ok ref
  | none, some id => .ok id
  | none, none => .error .exception

/-- `connection.add` with a password, on Linux: the credentials file first. -/
def addWithFile (d : Dispatcher) (params : Params) (previous updated : Config)
    (connection : Connection) (username password : Str) : DaemonM AddedConnection :=
  if d.mounter then do
    let ref ← fromExcept (referenceOf connection)
    let domain ← fromExcept (optionalStr params "domain")
    writeCredentials ref username password domain
    let named := { connection with credentialRef := some ref }
    finishAdd d previous (updateWhere updated connection.id fun _ => named) named
      (some { username := username, keychain := none }) (some ref)
  else
    throw (.of .internal (str ("this daemon was started with --no-apply, so it has nowhere " ++
      "to store a password; nothing was added")))

/-- `_connection_add`, from what it is asked for. -/
def addFrom (d : Dispatcher) (uid : Nat) (params : Params) (previous : Config)
    (args : NewConnection) : DaemonM AddedConnection := do
  let added ← fromExcept (addConnection previous args)
  let username ← fromExcept (optionalStr params "username")
  let credential ← fromExcept (passwordFor params username)
  match credential with
  | none => finishAdd d previous added.1 added.2 none none
  | some (username, password) =>
      if d.agents then addWithKeychain d uid previous added.1 added.2 username password
      else addWithFile d params previous added.1 added.2 username password

/-- `_connection_add`. -/
def connectionAdd (d : Dispatcher) (uid : Nat) (params : Params) : DaemonM AddedConnection := do
  let previous ← load
  let args ← newConnection d uid params
  addFrom d uid params previous args

/-- What `connection.remove` answers. -/
structure RemovedConnection where
  connection : Connection
  unmounted : List Str
  notes : List Str

/-- What is said about a mount that was left. -/
def leftNote (share : Str) (left : LeftMount) : Str :=
  if left.busy then
    share ++ str " is still mounted at " ++ left.mountpoint ++
      str " because it is in use. Eject it in Finder once nothing is using it."
  else
    share ++ str " is still mounted at " ++ left.mountpoint ++
      str (". SMBPal did not mount it, " ++
        "so it was left alone; eject it in Finder if you no longer need it.")

/-- `_smb_url`. -/
def smbUrl (c : Connection) : DaemonM Str :=
  call (.smbUrl (pyStr c.host) (pyStr c.share))

/-- `_release_mounts`. -/
def releaseMounts (uid : Nat) (c : Connection) : DaemonM (List Str × List Str) :=
  catching Exc.isSmbpal
    (do
      let url ← smbUrl c
      let released : Released ← call (.agentRelease uid url)
      pure (released.unmounted, released.left.map (leftNote (pyStr c.share))))
    fun e => pure ([], [pyStr c.share ++ str " was not unmounted: " ++
      (match e with
        | .smbpal e => e.message
        | _ => []) ++
      str ". If it is still mounted, eject it in Finder."])

/-- The other connections that mount with a removed connection's Keychain
    item. -/
def sharingWith (updated : Config) (c : Connection) : List Connection :=
  match truthy c.credentialAccount with
  | none => []
  | some account => updated.connections.filter fun other =>
      sameCredential other (pyStr c.host) account

/-- The document after a removal, with the mark moved to the connections left
    when the removed one carried it. -/
def moveMark (updated : Config) (c : Connection) : Config :=
  if c.keychainCredential = some .created ∧ sharingWith updated c ≠ [] then
    { updated with connections := updated.connections.map fun other =>
        if other ∈ sharingWith updated c then
          { other with keychainCredential := some .created }
        else other }
  else updated

/-- Delete the credentials file of a removed connection. -/
def takeFile (d : Dispatcher) (c : Connection) : DaemonM Unit :=
  onlyIf d.mounter (takeBack (truthy c.credentialRef))

/-- Delete the Keychain item of a removed connection, when SMBPal created it
    and no other connection uses it. -/
def takeItem (d : Dispatcher) (uid : Nat) (updated : Config) (c : Connection) : DaemonM Unit :=
  match truthy c.credentialAccount with
  | some account =>
      onlyIf (d.agents && decide (c.keychainCredential = some .created) &&
          decide (sharingWith updated c = []))
        (call (.credentialForget uid (pyStr c.host) account))
  | none => pure ()

/-- What `connection.remove` answers, once what was mounted is released. -/
def finishRemove (d : Dispatcher) (uid : Nat) (c : Connection) : DaemonM RemovedConnection :=
  if d.agents then do
    let released ← releaseMounts uid c
    pure { connection := c, unmounted := released.1, notes := released.2 }
  else pure { connection := c, unmounted := [], notes := [] }

/-- `_connection_remove`. -/
def connectionRemove (d : Dispatcher) (uid : Nat) (params : Params) :
    DaemonM RemovedConnection := do
  let ref ← fromExcept (requireStr params "ref")
  let previous ← load
  let removed ← fromExcept (removeConnection previous ref)
  commit d previous (moveMark removed.1 removed.2)
  takeFile d removed.2
  takeItem d uid removed.1 removed.2
  forgetState d removed.2.id
  finishRemove d uid removed.2

/-- What `connection.set_credentials` answers. -/
structure StoredCredentials where
  id : Option Str
  stored : Stored

/-- `_set_credentials_in_keychain`. -/
def setCredentialsInKeychain (d : Dispatcher) (uid : Nat) (ref username password : Str) :
    DaemonM StoredCredentials := do
  let previous ← load
  let connection ← fromExcept (findConnection previous ref)
  let outcome ← call (.credentialSet uid (pyStr connection.host) username password)
  let mark := keychainMark previous (pyStr connection.host) username outcome
  save (updateWhere previous connection.id fun c =>
    { c with credentialAccount := some username, keychainCredential := some mark })
  forgetState d connection.id
  pure { id := connection.id, stored := { username := username, keychain := some mark } }

/-- The Linux half of `_connection_set_credentials`. -/
def setCredentialsFile (d : Dispatcher) (params : Params) (ref username password : Str) :
    DaemonM StoredCredentials := do
  let previous ← load
  let connection ← fromExcept (findConnection previous ref)
  let credentialRef ← fromExcept (referenceOf connection)
  let domain ← fromExcept (optionalStr params "domain")
  writeCredentials credentialRef username password domain
  commit d previous (updateWhere previous connection.id fun c =>
    { c with credentialRef := some credentialRef })
  forgetState d connection.id
  pure { id := connection.id, stored := { username := username, keychain := none } }

/-- The password of `connection.set_credentials`. -/
def requirePassword (params : Params) : Except Exc Str :=
  let refusal := Exc.of .invalidParams
    (str "'password' is required and must be a non-empty string")
  match params "password" with
  | .string password => if password = [] then .error refusal else .ok password
  | _ => .error refusal

/-- `_connection_set_credentials`. -/
def connectionSetCredentials (d : Dispatcher) (uid : Nat) (params : Params) :
    DaemonM StoredCredentials := do
  let ref ← fromExcept (requireStr params "ref")
  let username ← fromExcept (requireStr params "username")
  let password ← fromExcept (requirePassword params)
  if d.agents then setCredentialsInKeychain d uid ref username password
  else if d.mounter then setCredentialsFile d params ref username password
  else throw (.of .internal (str "this daemon was started with --no-apply"))

/-- The swap of `connection.use_fallback`. -/
def swapHosts (fallback : Str) (c : Connection) : Connection :=
  { c with host := some fallback, fallbackHost := c.host }

/-- The recorded fallback address, which a swap needs. -/
def fallbackOf (c : Connection) : Except Exc Str :=
  match truthy c.fallbackHost with
  | some fallback => .ok fallback
  | none => .error <| .detailed .invalidParams
      (str "connection " ++ pyRepr c.id ++ str " has no recorded fallback address")
      (str "Add one with --fallback, or edit the host directly.")

/-- `_connection_use_fallback`. -/
def connectionUseFallback (d : Dispatcher) (params : Params) : DaemonM Connection := do
  let ref ← fromExcept (requireStr params "ref")
  let previous ← load
  let connection ← fromExcept (findConnection previous ref)
  let fallback ← fromExcept (fallbackOf connection)
  let swapped := swapHosts fallback connection
  commit d previous (updateWhere previous connection.id fun _ => swapped)
  pure swapped

/-- One record after a disconnect is recorded or cleared. -/
def markDisconnected (id : Option Str) (value : Bool) (c : Connection) : Connection :=
  if c.id = id ∧ c.disconnected.getD false ≠ value then
    { c with disconnected := if value then some true else none }
  else c

/-- `_set_disconnected`. -/
def setDisconnected (id : Option Str) (value : Bool) : DaemonM Unit := do
  let previous ← load
  onlyIf (previous.connections.any fun c =>
      decide (c.id = id) && decide (c.disconnected.getD false ≠ value))
    (save { previous with connections := previous.connections.map (markDisconnected id value) })

/-- `_record_where_it_landed`. -/
def recordWhereItLanded (c : Connection) (landed : Str) : DaemonM Unit :=
  if c.mountpoint = some landed then pure ()
  else do
    let previous ← load
    save (updateWhere previous c.id fun c => { c with mountpoint := some landed })

/-- `_connection_for`. -/
def connectionFor (params : Params) : DaemonM Connection := do
  let config ← load
  let ref ← fromExcept (requireStr params "ref")
  fromExcept (findConnection config ref)

/-- `_connect_via_agent`: where the share landed. -/
def connectViaAgent (uid : Nat) (params : Params) : DaemonM Str := do
  let connection ← connectionFor params
  let url ← smbUrl connection
  let landed : Str ←
    call (.agentMount uid url (truthy connection.credentialAccount) (pyStr connection.host))
  setDisconnected connection.id false
  recordWhereItLanded connection landed
  pure landed

/-- `_disconnect_via_agent`: whether anything was unmounted. -/
def disconnectViaAgent (uid : Nat) (params : Params) : DaemonM Bool := do
  let connection ← connectionFor params
  let url ← smbUrl connection
  let unmounted : Bool ← call (.agentUnmount uid connection.mountpoint url)
  setDisconnected connection.id true
  pure unmounted

/-- `_unit_for`. -/
def unitFor (d : Dispatcher) (params : Params) : DaemonM Str :=
  if d.mounter then do
    let connection ← connectionFor params
    let names ← fromExcept (namesOf connection)
    pure names.1
  else throw (.of .internal (str "this daemon was started with --no-apply"))

/-- `_connection_connect`. -/
def connectionConnect (d : Dispatcher) (uid : Nat) (params : Params) : DaemonM Unit :=
  if d.agents then do
    let _ ← connectViaAgent uid params
  else do
    let unit ← unitFor d params
    call (.systemctl (.resetFailed unit))
    call (.systemctl (.start unit))

/-- `_connection_disconnect`. -/
def connectionDisconnect (d : Dispatcher) (uid : Nat) (params : Params) : DaemonM Unit :=
  if d.agents then do
    let _ ← disconnectViaAgent uid params
  else do
    let unit ← unitFor d params
    call (.systemctl (.stop unit))

/-- `_refuse_to_shadow`. -/
def refuseToShadow (d : Dispatcher) (name : Str) (config : Config) : DaemonM Unit :=
  match d.applier with
  | none => pure ()
  | some _ => do
      let unmanaged : List (Str × Option Str) ← catching Exc.isSmbpal
        (call (.unmanagedShares (config.shares.map fun s => pyStr s.name))) fun _ => pure []
      fromExcept <| refuseIf (unmanaged.find? fun existing =>
          decide (lower existing.1 = lower name)) fun existing =>
        .detailed .alreadyExists
          (str "Samba is already serving a share called " ++ repr existing.1 ++
            str " that SMBPal did not create")
          (str "It is at " ++ (truthy existing.2).getD (str "an unrecorded path") ++
            str (". Adding a second section with this name would shadow it — " ++
              "Samba takes the last one — and SMBPal does not adopt or " ++
              "modify shares it did not write. Choose another name."))

/-- `_share_add`. -/
def shareAdd (d : Dispatcher) (params : Params) : DaemonM Share := do
  let name ← fromExcept (requireStr params "name")
  let path ← fromExcept (requireStr params "path")
  let previous ← load
  refuseToShadow d name previous
  let id ← fromExcept (optionalStr params "id")
  let readOnly ← fromExcept (optionalBool params "read_only" false)
  let credentialRef ← fromExcept (optionalStr params "credential_ref")
  let enabled ← fromExcept (optionalBool params "enabled" true)
  let added ← fromExcept (addShare previous
    { name := name
      path := path
      id := id
      readOnly := readOnly
      credentialRef := credentialRef
      enabled := enabled })
  commit d previous added.1
  call (.describeShare added.2)
  pure added.2

/-- `_share_remove`. -/
def shareRemove (d : Dispatcher) (params : Params) : DaemonM Share := do
  let ref ← fromExcept (requireStr params "ref")
  let previous ← load
  let removed ← fromExcept (removeShare previous ref)
  commit d previous removed.1
  pure removed.2

/-- The requests that change the stored config. -/
inductive Method where
  | connectionAdd
  | connectionRemove
  | connectionSetCredentials
  | connectionUseFallback
  | connectionConnect
  | connectionDisconnect
  | shareAdd
  | shareRemove
  deriving DecidableEq

/-- A request, and the uid the kernel reports for whoever sent it. -/
structure Request where
  method : Method
  uid : Nat
  params : Params

/-- Run a handler for its effects. -/
def acknowledge {α : Type} (handler : DaemonM α) : DaemonM Unit := do
  let _ ← handler
  pure ()

/-- The handler of a request. A value means the request is acknowledged, and an
    exception that it is refused. -/
def Request.program (d : Dispatcher) (r : Request) : DaemonM Unit :=
  match r.method with
  | .connectionAdd => acknowledge (connectionAdd d r.uid r.params)
  | .connectionRemove => acknowledge (connectionRemove d r.uid r.params)
  | .connectionSetCredentials => acknowledge (connectionSetCredentials d r.uid r.params)
  | .connectionUseFallback => acknowledge (connectionUseFallback d r.params)
  | .connectionConnect => connectionConnect d r.uid r.params
  | .connectionDisconnect => connectionDisconnect d r.uid r.params
  | .shareAdd => acknowledge (shareAdd d r.params)
  | .shareRemove => acknowledge (shareRemove d r.params)

end Handlers

end Smbpal
