import Smbpal.Daemon.Authoriser
import Smbpal.Daemon.Handlers
import Smbpal.State.Machine
import Mathlib.Algebra.Group.Nat.Defs
import Mathlib.Algebra.Order.Ring.Unbundled.Rat

/-!
# From a Frame to an Answer

`daemon/handlers.py`'s `Dispatcher.handle`: a line from the socket is parsed,
its method found, what the platform cannot do refused, and who sends it checked,
and only then is its handler run. Whatever is raised on the way is the answer.

The handlers that do not change the config are here, each with what it asks of
the system; what they make of the answers for their replies is left out.

## Main definitions

* `FullDispatcher`: What the daemon was started with.
* `methods`: The method table.
* `agentLink`: The methods of an agent's own link.
* `serveRequest`, `handle`: `Dispatcher.handle`.
-/

namespace Smbpal

open Lib Program

/-- What the daemon was started with. -/
structure FullDispatcher extends Dispatcher where
  policy : Policy
  serving : Bool
  /-- `applier.UNSUPPORTED_METHODS`, and their detail. -/
  unsupported : List Str
  unsupportedDetail : Str
  /-- The agents dial in, and say how their connections are. -/
  linked : Bool
  /-- The applier answers for each share whether anybody can sign in. -/
  signInPerShare : Bool
  /-- The applier makes a share writable itself. -/
  grantsAccess : Bool

/-- `--no-apply`, for what needs an applier or a mounter. -/
def notApplying : Exc :=
  .of .internal (str "this daemon was started with --no-apply")

/-- The parameters, as the handlers read them. -/
def paramsOf (request : WireRequest) : Params := fun key =>
  match getMember request.params key with
  | none => .null
  | some .null => .null
  | some (.string s) => .string s
  | some (.bool b) => .bool b
  | some _ => .other

/-- `except SmbpalError`. -/
def catchSmbpal {α : Type} (p : HandleM α) (handler : HandleM α) : HandleM α :=
  tryCatch p fun e => if e.isSmbpal then handler else throw e

/-- Do something for each of a list. -/
def forEach {α : Type} (f : α → HandleM Unit) : List α → HandleM Unit
  | [] => pure ()
  | a :: as => do
      f a
      forEach f as

/-- Do it when the condition holds. -/
def doIf (condition : Bool) (p : HandleM Unit) : HandleM Unit :=
  if condition then p else pure ()

/-- A handler's answer that is not looked at. -/
def ignoring {α : Type} (p : DaemonM α) : HandleM Unit := do
  let _ ← lift p
  pure ()

section Handlers

variable [Unicode]

/-- The stored config. -/
def loadConfig : HandleM Config :=
  lift load

/-- `_owner_uid`. -/
def ownerUid (c : Connection) : HandleM (Option Nat) :=
  match truthy c.owner with
  | none => pure none
  | some owner => do
      let ids : Option OwnerIds ← invoke (.daemon (.getpwnam owner))
      pure (ids.map OwnerIds.uid)

/-- What `_agent_rows` asks about one connection. -/
def agentRow (d : FullDispatcher) (c : Connection) : HandleM Unit := do
  let uid ← ownerUid c
  match uid with
  | none => pure ()
  | some uid =>
      let ask : HandleM Bool := if d.linked then invoke (.agentState uid c.id) else pure false
      let reported ← ask
      doIf (!reported) (do
        let _ ← invoke (.agentConnected uid)
        pure ())

/-- `_agent_rows`. -/
def agentRows (d : FullDispatcher) (config : Config) : HandleM Unit :=
  forEach (agentRow d) config.connections

/-- `_samba_state`. -/
def sambaState (d : FullDispatcher) : HandleM Unit :=
  match d.applier with
  | none => pure ()
  | some _ => catchSmbpal (invoke .serviceState) (pure ())

/-- `_smb_accounts`. -/
def smbAccounts : HandleM Unit :=
  catchSmbpal (invoke .listUsers) (pure ())

/-- `_unaccounted`. -/
def unaccounted (d : FullDispatcher) (config : Config) : HandleM Unit :=
  doIf d.mounter (invoke (.survey config))

/-- `_connection_states`. -/
def connectionStates (d : FullDispatcher) (config : Config) : HandleM Unit :=
  if d.mounter then do
    let planned ← lift (plan config.connections)
    doIf d.monitor (forEach (fun row => invoke (.stateFor row.connection.id)) planned)
  else doIf d.linked (agentRows d config)

/-- The names of what Samba serves, none when it cannot be asked. -/
def effectiveShares : HandleM (Option (List Str)) :=
  catchSmbpal
    (do
      let names ← invoke .effectiveShares
      pure (some names))
    (pure none)

/-- `_share_states`. -/
def shareStates (d : FullDispatcher) (config : Config) : HandleM Unit :=
  match d.applier with
  | none => pure ()
  | some _ => do
      let effective ← effectiveShares
      doIf (!d.signInPerShare) smbAccounts
      let planned : List Share ← invoke (.applierPlan config)
      doIf d.signInPerShare (forEach (fun share => invoke (.canSignIn share)) planned)
      doIf effective.isSome (ignoring (call (.unmanagedShares
        (config.shares.map fun s => pyStr s.name))))

/-- What SELinux says of the shares' paths. -/
def selinuxProblems (config : Config) : HandleM Unit :=
  forEach (fun path => invoke (.unserveable path)) (config.shares.filterMap fun s => truthy s.path)

/-- `_status`. -/
def status (d : FullDispatcher) : HandleM Unit := do
  let config ← loadConfig
  invoke .identify
  shareStates d config
  sambaState d
  selinuxProblems config
  connectionStates d config
  unaccounted d config

/-- `_config_get`, `_share_list` and `_connection_list`, up to what of the config
    they answer. -/
def readConfig : HandleM Unit := do
  let _ ← loadConfig
  pure ()

/-- `_connection_live`. -/
def connectionLive (d : FullDispatcher) : HandleM Unit := do
  let config ← loadConfig
  unaccounted d config

/-- `_connection_watch`. -/
def connectionWatch (d : FullDispatcher) : HandleM Unit :=
  if d.monitor then invoke .snapshot
  else if d.linked then do
    let config ← loadConfig
    agentRows d config
  else throw (.of .internal (str "this daemon is not watching connection state"))

/-- `float(n)` for an integer: too large a one has no double. -/
def floatOf (n : Int) : Except Exc Rat :=
  if n.natAbs < 2 ^ 1024 - 2 ^ 970 then .ok n else .error .exception

/-- A timeout in seconds, between one and thirty. -/
def timeoutOf (request : WireRequest) : Except Exc Rat := do
  match getMember request.params "timeout" with
  | none => pure 5
  | some (.int n) => do
      let seconds ← floatOf n
      pure (max 1 (min seconds 30))
  | some (.float (.finite q)) => pure (max 1 (min q 30))
  | some (.float .infinity) => pure 30
  | some (.float _) => pure 1
  | some _ => throw (.of .invalidParams (str "'timeout' must be a number of seconds"))

/-- `_browse`. -/
def browse (request : WireRequest) : HandleM Unit := do
  let timeout ← fromExcept (timeoutOf request)
  invoke (.discover timeout)

/-- A check that comes before another, and its order. -/
def timeoutKind (request : WireRequest) : Except Exc Unit :=
  match getMember request.params "timeout" with
  | none => .ok ()
  | some (.int _) => .ok ()
  | some (.float _) => .ok ()
  | some _ => .error (.of .invalidParams (str "'timeout' must be a number of seconds"))

/-- `_server_shares`. -/
def serverShares (request : WireRequest) : HandleM Unit := do
  let host ← fromExcept (requireStr (paramsOf request) "host")
  fromExcept (timeoutKind request)
  let username ← fromExcept (optionalStr (paramsOf request) "username")
  let password ← fromExcept (optionalStr (paramsOf request) "password")
  let timeout ← fromExcept (timeoutOf request)
  invoke (.listShares host (username.getD []) (password.getD []) timeout)

/-- `_apply`. -/
def applyHandler (d : FullDispatcher) : HandleM Unit :=
  match d.applier with
  | none => throw notApplying
  | some _ => do
      let config ← loadConfig
      invoke (.daemon (.applierApply config))
      doIf d.mounter (ignoring (mounterApply config none))

/-- `Mounter.teardown`. -/
def mounterTeardown : DaemonM Unit := do
  let removed ← removeStaleUnits [] none
  onlyIf (decide (removed ≠ [])) (call (.systemctl .daemonReload))

/-- `_teardown`. -/
def teardownHandler (d : FullDispatcher) : HandleM Unit :=
  if d.applier = none ∧ d.mounter = false then throw notApplying
  else do
    doIf d.applier.isSome (invoke .applierTeardown)
    doIf d.mounter (lift mounterTeardown)

/-- `_find_share`: by id, or by name in any case. -/
def findShare (config : Config) (ref : Str) : Except Exc Share :=
  match config.shares.find? fun s =>
      decide (s.id = some ref) || decide (lower (pyStr s.name) = lower ref) with
  | some share => .ok share
  | none => .error (.of .notFound (str "no share called " ++ repr ref))

/-- The account a share is served as, which making it writable needs. -/
def servedAs (share : Share) : Except Exc Str :=
  match truthy share.credentialRef with
  | some user => .ok user
  | none => .error (.detailed .invalidParams
      (str "share " ++ pyRepr share.id ++ str " has no user assigned")
      (str ("Assign one with --user so there is an identity to give " ++ "the directory to.")))

/-- The path of a share. -/
def pathOf (share : Share) : Except Exc Str :=
  match share.path with
  | some path => .ok path
  | none => .error .exception

/-- `_share_make_writable`. -/
def makeWritableHandler (d : FullDispatcher) (request : WireRequest) : HandleM Unit := do
  let ref ← fromExcept (requireStr (paramsOf request) "ref")
  let config ← loadConfig
  let share ← fromExcept (findShare config ref)
  let user ← fromExcept (servedAs share)
  if d.grantsAccess then invoke (.applierMakeWritable share)
  else do
    let identity : ServingIdentity ← invoke (.servingIdentity user)
    let path ← fromExcept (pathOf share)
    invoke (.makeWritable path identity)
    doIf d.applier.isSome (invoke (.daemon (.applierApply config)))

/-- `_credential_set`. -/
def credentialSetHandler (request : WireRequest) : HandleM Unit := do
  let username ← fromExcept (requireStr (paramsOf request) "username")
  let password ← fromExcept (requirePassword (paramsOf request))
  invoke (.setPassword username password)

/-- `_credential_remove`. -/
def credentialRemoveHandler (request : WireRequest) : HandleM Unit := do
  let username ← fromExcept (requireStr (paramsOf request) "username")
  invoke (.removeUser username)

/-- A handler. -/
abbrev Handler :=
  FullDispatcher → Peer → WireRequest → HandleM Unit

/-- `_METHODS`. -/
def methods : List (Str × Handler) :=
  [(str "ping", fun _ _ _ => pure ()),
    (str "version", fun _ _ _ => pure ()),
    (str "status", fun d _ _ => status d),
    (str "config.get", fun _ _ _ => readConfig),
    (str "share.list", fun _ _ _ => readConfig),
    (str "share.add", fun d _ r => ignoring (shareAdd d.toDispatcher (paramsOf r))),
    (str "share.remove", fun d _ r => ignoring (shareRemove d.toDispatcher (paramsOf r))),
    (str "apply", fun d _ _ => applyHandler d),
    (str "teardown", fun d _ _ => teardownHandler d),
    (str "share.make_writable", fun d _ r => makeWritableHandler d r),
    (str "credential.list", fun _ _ _ => invoke .listUsers),
    (str "credential.set", fun _ _ r => credentialSetHandler r),
    (str "credential.remove", fun _ _ r => credentialRemoveHandler r),
    (str "connection.list", fun _ _ _ => readConfig),
    (str "connection.add", fun d peer r =>
      ignoring (connectionAdd d.toDispatcher peer.uid (paramsOf r))),
    (str "connection.remove", fun d peer r =>
      ignoring (connectionRemove d.toDispatcher peer.uid (paramsOf r))),
    (str "connection.set_credentials", fun d peer r =>
      ignoring (connectionSetCredentials d.toDispatcher peer.uid (paramsOf r))),
    (str "connection.connect", fun d peer r =>
      ignoring (connectionConnect d.toDispatcher peer.uid (paramsOf r))),
    (str "connection.disconnect", fun d peer r =>
      ignoring (connectionDisconnect d.toDispatcher peer.uid (paramsOf r))),
    (str "connection.use_fallback", fun d _ r =>
      ignoring (connectionUseFallback d.toDispatcher (paramsOf r))),
    (str "connection.live", fun d _ _ => connectionLive d),
    (str "connection.watch", fun d _ _ => connectionWatch d),
    (str "browse", fun _ _ r => browse r),
    (str "server.shares", fun _ _ r => serverShares r)]

/-- `_LINK_METHODS`. -/
def linkMethods : List Str :=
  [str "agent.register", str "agent.reply", str "agent.state"]

/-- `SERVING_METHODS`. -/
def servingMethods : List Str :=
  [str "share.add", str "share.remove", str "share.make_writable", str "apply", str "teardown",
    str "credential.set", str "credential.remove"]

/-- `STATES`. -/
def stateWords : List Str :=
  [str "idle", str "connecting", str "connected", str "reconnecting", str "unreachable",
    str "unresolved", str "auth_failed", str "failed", str "disabled", str "unknown"]

/-- `_clean_state`: the id of a reported row, if it is one. -/
def cleanState : Json → Option Str
  | .object row =>
      match getMember row "id", getMember row "state" with
      | some (.string id), some (.string state) => if state ∈ stateWords then some id else none
      | _, _ => none
  | _ => none

/-- The ids of the connections an account owns. -/
def ownedBy (uid : Nat) : List Connection → HandleM (List (Option Str))
  | [] => pure []
  | c :: cs => do
      let owner ← ownerUid c
      let rest ← ownedBy uid cs
      pure (if owner = some uid then c.id :: rest else rest)

/-- The rows of a report. -/
def reportedRows (request : WireRequest) : Except Exc (List Json) :=
  match getMember request.params "states" with
  | some (.array rows) => .ok rows
  | _ => .error (.of .invalidParams (str "states must be a list"))

/-- `_agent_state`. -/
def agentStateHandler (peer : Peer) (request : WireRequest) : HandleM Unit := do
  let registered : Bool ← invoke .agentRegistered
  refuseUnless registered
    (.of .notPermitted (str "only a registered agent reports connection state"))
  let rows ← fromExcept (reportedRows request)
  let config ← loadConfig
  let owned ← ownedBy peer.uid config.connections
  let accepted := (rows.filterMap cleanState).filter fun id => decide (some id ∈ owned)
  let changed : List Str ← invoke (.agentSetStates peer.uid accepted)
  forEach (fun id => invoke (.pushState id)) changed

/-- `_agent_link`. -/
def agentLink (d : FullDispatcher) (peer : Peer) (request : WireRequest) : HandleM Unit :=
  if d.linked = false then
    throw (.of .notSupported (request.method ++
      str (" is for the macOS agent, and this daemon does " ++ "not mount through one")))
  else if request.method = str "agent.register" then invoke .agentRegister
  else if request.method = str "agent.state" then agentStateHandler peer request
  else invoke (.agentReply request.params)

/-- What the platform cannot do. -/
def checkSupported (d : FullDispatcher) (method : Str) : Except Exc Unit :=
  let refused := method ++ str " is not supported on this platform yet"
  if method ∈ d.unsupported then .error (.detailed .notSupported refused d.unsupportedDetail)
  else if d.serving = false ∧ method ∈ servingMethods then
    .error (.detailed .notSupported refused
      (str ("serving a folder over SMB means writing Samba's " ++
        "configuration, which this platform does not use. " ++
        "Connecting to shares other machines serve does work: ") ++
        str "see `smbpal browse` and `smbpal connection add`."))
  else .ok ()

/-- `_require_account`. -/
def requireAccount (request : WireRequest) : HandleM Unit := do
  let user ← fromExcept (optionalStr (paramsOf request) "credential_ref")
  match truthy user with
  | none => pure ()
  | some user => do
      let ids : Option OwnerIds ← invoke (.daemon (.getpwnam user))
      refuseUnless ids.isSome (.detailed .notFound
        (str "there is no account called " ++ repr user ++ str " on this machine")
        (str "A share is served as an existing account (§3b). Check the name " ++
          str "with `id " ++ user ++ str "`, or add the share without --user."))

/-- `_PRECHECKS`. -/
def prechecks : List (Str × (WireRequest → HandleM Unit)) :=
  [(str "share.add", requireAccount)]

/-- The check of a method that needs no permission. -/
def precheck (request : WireRequest) : HandleM Unit :=
  match prechecks.lookup request.method with
  | some check => check request
  | none => pure ()

/-- `handle`, for a request that was parsed. -/
def serveRequest (d : FullDispatcher) (peer : Peer) (request : WireRequest) : HandleM Unit :=
  if request.method ∈ linkMethods then agentLink d peer request
  else
    match methods.lookup request.method with
    | none => throw (.of .unknownMethod (str "no such method: " ++ request.method))
    | some handler => do
        fromExcept (checkSupported d request.method)
        precheck request
        check d.policy peer request.method request.auth
        handler d peer request

/-- An answer: that the request was served, or why it was not. -/
inductive Reply where
  | success (id : Str)
  | failure (id : Option Str) (error : SmbpalError)

/-- The answer to what was raised. -/
def answerFailure (id : Option Str) : Exc → HandleM Reply
  | .smbpal e => pure (.failure id e)
  | .interrupt => throw .interrupt
  | _ => pure (.failure id
      { code := .internal
        message := str "the daemon hit an internal error; see its journal"
        detail := none })

/-- `Dispatcher.handle`. -/
def handle [JsonText] (d : FullDispatcher) (peer : Peer) (line : List UInt8) : HandleM Reply :=
  match parseRequest line with
  | .error e => answerFailure none e
  | .ok request =>
      tryCatch
        (do
          serveRequest d peer request
          pure (.success request.id))
        (answerFailure (some request.id))

end Handlers

end Smbpal
