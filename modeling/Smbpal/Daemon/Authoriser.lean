import Mathlib.Data.Rat.Defs
import Smbpal.Daemon.Effects
import Smbpal.Ipc.Protocol
import Smbpal.Lib.Audit

/-!
# Who May Act

`daemon/handlers.py`'s `Authoriser`: whether a peer that may talk to the daemon
may have it do something.

The methods that only read need no permission. Each of the others has an action
in one table, and each action a right in another for the platform that checks
rights; a method that is in neither is refused. Who is asked is the policy's:
`polkit` asks polkit, `helper` the privileged helper, and the other two ask
nobody.

The operations here are those of any request, not only of those that change the
config: what the authoriser asks, what a status reads, what an agent's own link
sends.

## Main definitions

* `HandleOp`, `HandleM`: The operations of a request, and the programs over them.
* `HandleOp.Mutates`: Those that change something.
* `readOnlyMethods`, `actions`, `macosRights`: The tables.
* `check`: `Authoriser.check`.
-/

namespace Smbpal

open Lib Program

/-- `PeerCredentials`: who is at the other end of the socket. -/
structure Peer where
  uid : Nat
  gid : Nat
  pid : Option Nat

/-- `PeerCredentials.describe`. -/
def Peer.describe (peer : Peer) : Str :=
  let who := str "uid=" ++ digits peer.uid ++ str " gid=" ++ digits peer.gid
  match peer.pid with
  | some pid => who ++ str " pid=" ++ digits pid
  | none => who

/-- Whom Samba acts as. -/
structure ServingIdentity where
  username : Str
  uid : Nat
  gids : List Nat

/-- One operation of a request. -/
inductive HandleOp where
  /-- An operation of those that change the config. -/
  | daemon (op : DaemonOp)
  /-- `Polkit.check`. -/
  | polkitCheck (peer : Peer) (action : Str)
  /-- `Helper.check_grant`. -/
  | checkGrant (right : Str) (auth : List UInt8)
  /-- `applier.teardown`. -/
  | applierTeardown
  /-- `applier.make_writable`. -/
  | applierMakeWritable (share : Share)
  /-- `ownership.make_writable`. -/
  | makeWritable (path : Str) (identity : ServingIdentity)
  /-- `passwd.set_password`. -/
  | setPassword (username password : Str)
  /-- `passwd.remove_user`. -/
  | removeUser (username : Str)
  /-- `ownership.serving_identity`. -/
  | servingIdentity (username : Str)
  /-- `identity`. -/
  | identify
  /-- `applier.service_state`. -/
  | serviceState
  /-- `applier.effective_shares`: the names. -/
  | effectiveShares
  /-- `applier.plan`: the shares it plans. -/
  | applierPlan (config : Config)
  /-- `applier.can_sign_in`. -/
  | canSignIn (share : Share)
  /-- `passwd.list_users`. -/
  | listUsers
  /-- `selinux.unserveable`. -/
  | unserveable (path : Str)
  /-- `inventory.survey`. -/
  | survey (config : Config)
  /-- `StateMonitor.state_for`. -/
  | stateFor (id : Option Str)
  /-- `StateMonitor.snapshot`. -/
  | snapshot
  /-- `discover`. -/
  | discover (timeout : Rat)
  /-- `list_shares`. -/
  | listShares (host username password : Str) (timeout : Rat)
  /-- `AgentLinks.state_for`: whether the agent reported one. -/
  | agentState (uid : Nat) (id : Option Str)
  /-- `AgentLinks.connected`. -/
  | agentConnected (uid : Nat)
  /-- `AgentLinks.register`. -/
  | agentRegister
  /-- `AgentLinks.is_registered`. -/
  | agentRegistered
  /-- `AgentLinks.reply`. -/
  | agentReply (params : List (Str × Json))
  /-- `AgentLinks.set_states`: the ids whose state changed. -/
  | agentSetStates (uid : Nat) (ids : List Str)
  /-- `_push_state`. -/
  | pushState (id : Str)

/-- What an operation returns when it does not raise. -/
@[reducible] def HandleOp.Value : HandleOp → Type
  | .daemon op => op.Value
  | .polkitCheck _ _ => Bool
  | .checkGrant _ _ => Bool
  | .servingIdentity _ => ServingIdentity
  | .effectiveShares => List Str
  | .applierPlan _ => List Share
  | .agentState _ _ => Bool
  | .agentConnected _ => Bool
  | .agentRegistered => Bool
  | .agentSetStates _ _ => List Str
  | _ => Unit

/-- The operations, each answered by a value or an exception. -/
def handleSig : Signature :=
  { Op := HandleOp, Answer := fun op => Except Exc op.Value }

/-- A program of a request. -/
abbrev HandleM (α : Type) :=
  Program handleSig Exc α

/-- Perform an operation, raising what it raises. -/
def invoke (op : HandleOp) : HandleM op.Value :=
  Program.ask (S := handleSig) op fun ans => ans

/-- A program of those that change the config, among the others. -/
def lift {α : Type} (p : DaemonM α) : HandleM α :=
  p.translate (T := handleSig) HandleOp.daemon fun _ ans => ans

/-- The operations that only look. -/
def DaemonOp.looks : DaemonOp → Bool
  | .load | .unmanagedShares _ | .describeShare _ | .getpwuid _ | .getpwnam _ => true
  | .occupiedMountpoints | .occupant _ | .isMounted _ | .probeState _ => true
  | .credentialsExists _ | .iterUnits | .readUnit _ | .smbUrl _ _ => true
  | _ => false

/-- The operations that save the config, write or delete credentials, or have
    the applier, the mounter, systemd or an agent change something. -/
def HandleOp.Mutates : HandleOp → Prop
  | .daemon op => op.looks = false
  | .applierTeardown | .applierMakeWritable _ | .makeWritable _ _ => True
  | .setPassword _ _ | .removeUser _ => True
  | _ => False

/-- `polkit.MANAGE_SHARES`. -/
def manageShares : Str := str "org.smbpal.manage-shares"

/-- `polkit.MANAGE_CONNECTIONS`. -/
def manageConnections : Str := str "org.smbpal.manage-connections"

/-- `polkit.USE_CONNECTIONS`. -/
def useConnections : Str := str "org.smbpal.use-connections"

/-- `Authoriser.READ_ONLY`. -/
def readOnlyMethods : List Str :=
  [str "ping", str "version", str "config.get", str "status", str "share.list",
    str "connection.list", str "connection.live", str "credential.list", str "connection.watch",
    str "browse", str "server.shares"]

/-- `Authoriser.ACTIONS`. -/
def actions : List (Str × Str) :=
  [(str "share.add", manageShares),
    (str "share.remove", manageShares),
    (str "share.make_writable", manageShares),
    (str "apply", manageShares),
    (str "teardown", manageShares),
    (str "credential.set", manageShares),
    (str "credential.remove", manageShares),
    (str "connection.add", manageConnections),
    (str "connection.remove", manageConnections),
    (str "connection.set_credentials", manageConnections),
    (str "connection.use_fallback", manageConnections),
    (str "connection.connect", useConnections),
    (str "connection.disconnect", useConnections)]

/-- `Authoriser.MACOS_RIGHTS`. -/
def macosRights : List (Str × Str) :=
  [(manageShares, str "app.smbpal.manage-shares"),
    (manageConnections, str "app.smbpal.manage-connections"),
    (useConnections, str "app.smbpal.use-connections")]

/-- `UNPROMPTED`. -/
def unprompted : List Str :=
  [str "app.smbpal.use-connections"]

/-- `Authoriser.POLICIES`. -/
inductive Policy where
  | polkit
  | root
  | group
  | helper
  deriving DecidableEq

/-- `Authoriser._refusal`. -/
def refusal (peer : Peer) (method : Str) (action : Option Str) : Exc :=
  let detail := str "peer " ++ peer.describe ++ str " is not permitted to perform this action"
  .detailed .notPermitted (method ++ str " requires authorisation")
    (match action with
      | some action => detail ++ str " (" ++ action ++ str ")"
      | none => detail)

/-- Go on when the checker allowed it. -/
def refuseUnless (allowed : Bool) (refused : Exc) : HandleM Unit :=
  if allowed then pure () else throw refused

/-- The policy `helper`, for a method with this action. -/
def checkRight (peer : Peer) (method action : Str) (auth : Option (List UInt8)) : HandleM Unit :=
  match macosRights.lookup action with
  | none => throw (refusal peer method (some action))
  | some right =>
      if right ∈ unprompted then pure ()
      else
        match auth with
        | none =>
            throw (.of (.needsAuthorisation right) (method ++ str " needs authorisation on macOS"))
        | some auth => do
            let allowed ← invoke (.checkGrant right auth)
            refuseUnless allowed (refusal peer method (some right))

/-- `Authoriser.check`. -/
def check (policy : Policy) (peer : Peer) (method : Str) (auth : Option (List UInt8)) :
    HandleM Unit :=
  if method ∈ readOnlyMethods then pure ()
  else if peer.uid = 0 then pure ()
  else if policy = .group then pure ()
  else if policy = .root then throw (refusal peer method none)
  else
    match actions.lookup method with
    | none => throw (refusal peer method none)
    | some action =>
        if policy = .helper then checkRight peer method action auth
        else do
          let allowed ← invoke (.polkitCheck peer action)
          refuseUnless allowed (refusal peer method (some action))

end Smbpal
