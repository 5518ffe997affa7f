import Smbpal.Helper.HashList
import Smbpal.Helper.Uninstall
import Smbpal.Lib.Warrant

/-!
# One Connection to the Helper

`serve_one` in `helper/smbpal-helper.c`: who may ask, the frame, and the eight verbs.

Three verbs change something. They verify the grant themselves, though the daemon has asked
`auth.check` before, since the daemon's code can be replaced. So what is shown is about every
connection, whatever comes over it and whatever the system answers: each change comes after
the form of that very request was verified, after a look at the folder that found it fit to
share, and after whatever else the verb relies on (`serve_warranted`). A deny that was seen
is not overridden, an entry is taken back only after it was added and could not be recorded,
and a sharepoint is removed only if it is on the list or could not be put on it.

The sharepoint verbs are those of `sharePublish` and `shareUnpublish`, run over the
operations of the whole helper.

## Main definitions

* `serveOne`: A connection.
* `Reason`: What an operation that changes something has before it.
* `Warranted`: That, and who asked for it.

## Theorems

* `checks_grantAce`, `checks_publishFolder`: The verbs that change something.
* `serve_warranted`: Every change on every connection.
-/

namespace Smbpal

open Lib Program

section Serving

/-- `MANAGE_SHARES_RIGHT`. -/
def manageSharesRight : List UInt8 :=
  cBytes "app.smbpal.manage-shares"

/-- The names in `RIGHTS`. -/
def registeredRights : List (List UInt8) :=
  [manageSharesRight, cBytes "app.smbpal.manage-connections"]

/-- What the verbs use of `struct passwd`. -/
structure PasswdEntry where
  name : List UInt8
  account : Account
  deriving DecidableEq

/-- What the helper asks of the system. -/
inductive ServeOp where
  | verifyForm (right form : List UInt8)
  | inspectPath (path : List UInt8)
  | sharepoint (op : SharepointOp)
  /-- `sharing -l -f json`. -/
  | listSharing
  | getpwnam (name : List UInt8)
  | getpwuid (uid : Nat)
  /-- `dscl . -read /Users/NAME AuthenticationAuthority`. -/
  | authenticationAuthority (name : List UInt8)
  | aceFor (path : List UInt8) (who : Account)
  | aceAdd (who : PasswdEntry) (path : List UInt8)
  | aceRemove (who : PasswdEntry) (path : List UInt8)
  | grantsAdd (user path : List UInt8)

/-- What it is answered. -/
abbrev ServeOp.Value : ServeOp → Type
  | .verifyForm _ _ => Bool
  | .inspectPath _ => Option InspectReport
  | .sharepoint op => op.Value
  | .listSharing => Option (List UInt8)
  | .getpwnam _ => Option PasswdEntry
  | .getpwuid _ => Option PasswdEntry
  | .authenticationAuthority _ => Option CString
  | .aceFor _ _ => AccessState
  | .aceAdd _ _ => Unit
  | .aceRemove _ _ => Unit
  | .grantsAdd _ _ => Bool

/-- The operations and their answers. -/
def serveSig : Signature :=
  { Op := ServeOp, Answer := ServeOp.Value }

/-- A program of the helper. -/
abbrev ServeM (α : Type) :=
  Program serveSig Empty α

/-- Perform one operation. -/
def serveCall (op : ServeOp) : ServeM op.Value :=
  .perform (S := serveSig) op .ret

/-- What the helper answers: `OK` with what follows, or `ERR` and a token. -/
inductive ServeReply where
  | ok (payload : List UInt8)
  | err (token : String)
  deriving DecidableEq

/-- The bytes of an answer: `respond` and `respond_err`, whose line has room for 31. -/
def ServeReply.bytes : ServeReply → List UInt8
  | .ok payload => cBytes "OK\n" ++ payload
  | .err token => (cBytes "ERR " ++ cBytes token ++ [10]).take 31

/-- What the sharepoint verbs answer. -/
def HelperReply.reply : HelperReply → ServeReply
  | .ok => .ok []
  | .err token => .err token

/-- An operation of the sharepoint verbs. -/
def sharepointOp : SharepointOp → ServeOp
  | .verifyForm form => .verifyForm manageSharesRight form
  | .inspectPath path => .inspectPath path
  | .sharepointExists name => .sharepoint (.sharepointExists name)
  | .sharingAdd name path readOnly => .sharepoint (.sharingAdd name path readOnly)
  | .sharingRemove name => .sharepoint (.sharingRemove name)
  | .ledgerContains name => .sharepoint (.ledgerContains name)
  | .ledgerAdd name => .sharepoint (.ledgerAdd name)
  | .ledgerRemove name => .sharepoint (.ledgerRemove name)
  | .readLedger => .sharepoint .readLedger
  | .unlinkLedger => .sharepoint .unlinkLedger

/-- What the sharepoint verbs use of a report. -/
def InspectReport.brief (r : InspectReport) : PathReport :=
  { verdict := r.verdict, resolved := r.resolved.bytes }

/-- What the sharepoint verbs take from an answer. -/
def sharepointValue : (op : SharepointOp) → (sharepointOp op).Value → op.Value
  | .verifyForm _, verified => verified
  | .inspectPath _, report => report.map InspectReport.brief
  | .sharepointExists _, found => found
  | .sharingAdd _ _ _, done => done
  | .sharingRemove _, done => done
  | .ledgerContains _, listed => listed
  | .ledgerAdd _, written => written
  | .ledgerRemove _, written => written
  | .readLedger, lines => lines
  | .unlinkLedger, done => done

/-- A program of the sharepoint verbs, run by the helper. -/
def withSharepoints {α : Type} (p : SharepointM α) : ServeM α :=
  p.translate (T := serveSig) sharepointOp sharepointValue

/-- `person`. -/
def personNamed (name : List UInt8) : ServeM (Option PasswdEntry) :=
  if userNameOk name then do
    let found ← serveCall (.getpwnam name)
    pure (found.filter fun who => decide (Helper.firstPersonUid ≤ who.account.uid))
  else
    pure none

/-- What `grant_ace` returns. -/
inductive GrantResult where
  | added
  | already
  | chmod
  | ledger
  deriving DecidableEq

/-- `grant_ace`. -/
def grantAce (who : PasswdEntry) (resolved : List UInt8) : ServeM GrantResult := do
  let state ← serveCall (.aceFor resolved who.account)
  if state = .allow then
    pure .already
  else
    let _ ← serveCall (.aceAdd who resolved)
    let state ← serveCall (.aceFor resolved who.account)
    if state = .allow then
      let written ← serveCall (.grantsAdd who.name resolved)
      if written then
        pure .added
      else
        let _ ← serveCall (.aceRemove who resolved)
        pure .ledger
    else
      pure .chmod

/-- Of `share.grant`: the owner gets the same, unless he is somebody the helper grants
    nothing, or is denied it. -/
def grantOwner (owner : PasswdEntry) (resolved : List UInt8) : ServeM ServeReply := do
  match ← personNamed owner.name with
  | none => pure (.ok [])
  | some owner =>
      let state ← serveCall (.aceFor resolved owner.account)
      if state = .deny then
        pure (.ok [])
      else
        let granted ← grantAce owner resolved
        match granted with
        | .added | .already => pure (.ok [])
        | .chmod | .ledger => pure (.err "owner")

/-- `share.grant`, once the person is granted: the folder's owner is as well, if that is
    somebody else. -/
def grantRest (who : PasswdEntry) (report : InspectReport) : ServeM ServeReply := do
  match ← serveCall (.getpwuid report.uid) with
  | none => pure (.ok [])
  | some owner =>
      if owner.account.uid = who.account.uid then pure (.ok [])
      else grantOwner owner report.resolved.bytes

/-- `share.grant`, when the path may be shared. -/
def grantFolder (user : List UInt8) (report : InspectReport) : ServeM ServeReply := do
  match ← personNamed user with
  | none => pure (.err "account")
  | some who =>
      let state ← serveCall (.aceFor report.resolved.bytes who.account)
      if state = .deny then
        pure (.err "deny-ace")
      else
        let granted ← grantAce who report.resolved.bytes
        match granted with
        | .chmod => pure (.err "chmod")
        | .ledger => pure (.err "ledger")
        | .added | .already => grantRest who report

/-- `share.grant`. -/
def shareGrant (req : HelperRequest) : ServeM ServeReply :=
  match req.auth, req.args with
  | some form, [path, user] =>
      if userNameOk user then do
        let verified ← serveCall (.verifyForm manageSharesRight form)
        if verified then
          match ← serveCall (.inspectPath path) with
          | none => pure (.err "args")
          | some report =>
              if report.verdict = .ok then grantFolder user report
              else pure (.err report.verdict.token)
        else
          pure (.err "denied")
      else
        pure (.err "args")
  | _, _ => pure (.err "args")

/-- `share.list`. -/
def shareList (req : HelperRequest) : ServeM ServeReply :=
  if req.auth.isSome ∨ req.args.length ≠ 0 then pure (.err "args")
  else do
    match ← serveCall .listSharing with
    | none => pure (.err "sharing")
    | some out => pure (.ok out)

/-- `auth.check`. -/
def authCheck (req : HelperRequest) : ServeM ServeReply :=
  match req.auth, req.args with
  | some form, [right] =>
      if registeredRights.contains right then do
        let verified ← serveCall (.verifyForm right form)
        pure (if verified then .ok [] else .err "denied")
      else
        pure (.err "right")
  | _, _ => pure (.err "args")

/-- What `path.inspect` answers, when it can describe the folder. -/
def describePath (report : InspectReport) (who : Option PasswdEntry) : ServeM ServeReply :=
  match pathReply { report with access := none } with
  | none => pure (.err "path")
  | some out =>
      match who with
      | none => pure (.ok out)
      | some who =>
          if report.verdict = .notFound then pure (.ok out)
          else do
            let access ← serveCall (.aceFor report.resolved.bytes who.account)
            match pathReply { report with access := some access } with
            | none => pure (.err "path")
            | some out => pure (.ok out)

/-- `path.inspect`. -/
def pathInspect (req : HelperRequest) : ServeM ServeReply :=
  if req.auth.isSome then pure (.err "args")
  else
    match req.args with
    | [path] => do
        match ← serveCall (.inspectPath path) with
        | none => pure (.err "args")
        | some report => describePath report none
    | [path, user] => do
        match ← serveCall (.inspectPath path) with
        | none => pure (.err "args")
        | some report =>
            match ← personNamed user with
            | none => pure (.err "account")
            | some who => describePath report (some who)
    | _ => pure (.err "args")

/-- `account.smb`. -/
def accountSmb (req : HelperRequest) : ServeM ServeReply :=
  if req.auth.isSome then pure (.err "args")
  else
    match req.args with
    | [user] => do
        match ← personNamed user with
        | none => pure (.err "account")
        | some who =>
            let text ← serveCall (.authenticationAuthority who.name)
            let found := decide ((text.bind fun text => hashlistHasSmbNt text.bytes) = some 1)
            pure (.ok (cBytes (if found then "smb-nt 1\n" else "smb-nt 0\n")))
    | _ => pure (.err "args")

/-- `share.owned`. The lines of the list have their ends, as `ledger_add` writes them; one that
    had none would be sent without. -/
def shareOwned (req : HelperRequest) : ServeM ServeReply :=
  if req.auth.isSome ∨ req.args.length ≠ 0 then pure (.err "args")
  else do
    let lines ← serveCall (.sharepoint .readLedger)
    pure (.ok ((lines.getD []).flatMap fun line => line ++ [10]))

/-- `serve_one`, once it has a request. -/
def serveVerb (req : HelperRequest) : ServeM ServeReply :=
  if req.verb = cBytes "share.list" then shareList req
  else if req.verb = cBytes "auth.check" then authCheck req
  else if req.verb = cBytes "path.inspect" then pathInspect req
  else if req.verb = cBytes "account.smb" then accountSmb req
  else if req.verb = cBytes "share.grant" then shareGrant req
  else if req.verb = cBytes "share.owned" then shareOwned req
  else if req.verb = cBytes "share.publish" then do
    let answer ← withSharepoints (sharePublish req)
    pure answer.reply
  else if req.verb = cBytes "share.unpublish" then do
    let answer ← withSharepoints (shareUnpublish req)
    pure answer.reply
  else pure (.err "verb")

/-- What comes over a connection: who `getpeereid` says has made it, and what is read. -/
structure Connecting where
  peer : Option Nat
  parts : List Part
  ending : PartsEnd

/-- `serve_one`. -/
def serveOne (expectedPeer : Nat) (conn : Connecting) : ServeM ServeReply :=
  match conn.peer with
  | none => pure (.err "peer")
  | some uid =>
      if uid ≠ expectedPeer then pure (.err "refused")
      else
        match acceptFrame conn.parts conn.ending with
        | none => pure (.err "frame")
        | some req => serveVerb req

end Serving

section Warranting

/-- What the helper asked for and was answered. -/
abbrev ServeLog := List (Logged serveSig)

/-- The helper was answered this. -/
abbrev Saw (log : ServeLog) (op : ServeOp) (answer : op.Value) : Prop :=
  Told (S := serveSig) log op answer

/-- The helper asked for this. -/
abbrev Did (log : ServeLog) (op : ServeOp) : Prop :=
  AskedFor (S := serveSig) log op

/-- Whether an operation changes something. -/
def ServeOp.changes : ServeOp → Bool
  | .sharepoint (.sharingAdd _ _ _) => true
  | .sharepoint (.sharingRemove _) => true
  | .sharepoint (.ledgerAdd _) => true
  | .sharepoint (.ledgerRemove _) => true
  | .sharepoint .unlinkLedger => true
  | .aceAdd _ _ => true
  | .aceRemove _ _ => true
  | .grantsAdd _ _ => true
  | _ => false

/-- A look at this path found a folder fit to share. -/
def Fit (log : ServeLog) (asked : List UInt8) (report : InspectReport) : Prop :=
  Saw log (.inspectPath asked) (some report) ∧ report.verdict = .ok

/-- Somebody who may be granted access to a folder: a person, namely the one the request is
    about or the folder's owner, who was not found to be denied it. -/
structure Grantable (log : ServeLog) (user : List UInt8) (report : InspectReport)
    (who : PasswdEntry) : Prop where
  person : Helper.firstPersonUid ≤ who.account.uid
  known : Saw log (.getpwnam user) (some who) ∨ ∃ owner,
    Saw log (.getpwuid report.uid) (some owner) ∧ Saw log (.getpwnam owner.name) (some who)
  notDenied : ∃ state, Saw log (.aceFor report.resolved.bytes who.account) state ∧ state ≠ .deny

/-- What an operation that changes something has before it. -/
def Reason (req : HelperRequest) (log : ServeLog) : ServeOp → Prop
  -- A folder is published only under the path its inspection resolved.
  | .sharepoint (.sharingAdd name path _) =>
      (∃ asked report, req.args.take 2 = [name, asked] ∧ Fit log asked report ∧
        report.resolved.bytes = path) ∧ Saw log (.sharepoint (.sharepointExists name)) false
  | .sharepoint (.ledgerAdd name) =>
      (∃ path readOnly, Did log (.sharepoint (.sharingAdd name path readOnly))) ∧
        Saw log (.sharepoint (.sharepointExists name)) true
  | .sharepoint (.sharingRemove name) =>
      req.args.head? = some name ∧ (Saw log (.sharepoint (.ledgerContains name)) true ∨
        Saw log (.sharepoint (.ledgerAdd name)) false)
  | .sharepoint (.ledgerRemove name) =>
      Saw log (.sharepoint (.ledgerContains name)) true ∧
        Saw log (.sharepoint (.sharepointExists name)) false
  | .sharepoint .unlinkLedger => False
  | .aceAdd who path =>
      ∃ asked user report, req.args = [asked, user] ∧ Fit log asked report ∧
        report.resolved.bytes = path ∧ Grantable log user report who
  | .aceRemove who path =>
      Did log (.aceAdd who path) ∧ Saw log (.grantsAdd who.name path) false
  | .grantsAdd user path =>
      ∃ who, who.name = user ∧ Did log (.aceAdd who path) ∧
        Saw log (.aceFor path who.account) .allow
  | _ => True

/-- An operation that changes something is asked for by the daemon, in a request whose form
    was verified, and has its reason. -/
def Warranted (expectedPeer : Nat) (conn : Connecting) (op : ServeOp) (log : ServeLog) : Prop :=
  op.changes = true → conn.peer = some expectedPeer ∧ ∃ req form,
    acceptFrame conn.parts conn.ending = some req ∧ req.auth = some form ∧
      Saw log (.verifyForm manageSharesRight form) true ∧ Reason req log op

/-- What `auth.check` has seen when it answers `OK`. -/
def CheckDone (req : HelperRequest) (log : ServeLog) : Prop :=
  ∃ right form, req.args = [right] ∧ req.auth = some form ∧ right ∈ registeredRights ∧
    Saw log (.verifyForm right form) true

/-- What `share.grant` has: an entry of the folder's allows the account. -/
def GrantDone (req : HelperRequest) (log : ServeLog) : Prop :=
  ∃ asked user report who, req.args = [asked, user] ∧ Fit log asked report ∧
    Saw log (.getpwnam user) (some who) ∧ Saw log (.aceFor report.resolved.bytes who.account) .allow

/-- What `share.publish` has: the sharepoint is there, and on the list. -/
def PublishDone (req : HelperRequest) (log : ServeLog) : Prop :=
  ∃ name, req.args.head? = some name ∧ Saw log (.sharepoint (.sharepointExists name)) true ∧
    Saw log (.sharepoint (.ledgerAdd name)) true

/-- What `share.unpublish` has: the sharepoint is gone, and no longer on the list. -/
def UnpublishDone (req : HelperRequest) (log : ServeLog) : Prop :=
  ∃ name, req.args.head? = some name ∧ Saw log (.sharepoint (.sharepointExists name)) false ∧
    Saw log (.sharepoint (.ledgerRemove name)) true

/-- What has been seen when a request is answered `OK`. -/
structure Done (req : HelperRequest) (log : ServeLog) : Prop where
  check : req.verb = cBytes "auth.check" → CheckDone req log
  grant : req.verb = cBytes "share.grant" → GrantDone req log
  publish : req.verb = cBytes "share.publish" → PublishDone req log
  unpublish : req.verb = cBytes "share.unpublish" → UnpublishDone req log

variable {α : Type} {enough : ServeOp → ServeLog → Prop} {log : ServeLog}
variable {Q : Except Empty α → ServeLog → Prop}

/-- The program is checked against a log. -/
abbrev Checks (enough : ServeOp → ServeLog → Prop) (p : ServeM α)
    (Q : Except Empty α → ServeLog → Prop) (log : ServeLog) : Prop :=
  Checked (S := serveSig) enough p Q log

/-- One operation, and what follows once it was answered. -/
theorem checks_call {op : ServeOp} {f : op.Value → ServeM α} (hop : enough op log)
    (hnext : ∀ answer log', log <+: log' → Saw log' op answer → Checks enough (f answer) Q log') :
    Checks enough (serveCall op >>= f) Q log :=
  checked_perform (S := serveSig) hop fun answer =>
    hnext answer _ (List.prefix_append _ _) (told_last (S := serveSig) _ _ _)

/-- The request came from the daemon and its form was verified. -/
structure Verified (expectedPeer : Nat) (conn : Connecting) (req : HelperRequest)
    (log : ServeLog) : Prop where
  peer : conn.peer = some expectedPeer
  frame : acceptFrame conn.parts conn.ending = some req
  form : ∃ form, req.auth = some form ∧ Saw log (.verifyForm manageSharesRight form) true

variable {expectedPeer : Nat} {conn : Connecting} {req : HelperRequest} {log' : ServeLog}

theorem Verified.mono (h : Verified expectedPeer conn req log) (hle : log <+: log') :
    Verified expectedPeer conn req log' :=
  { h with form := h.form.imp fun _ hform => ⟨hform.1, hform.2.mono hle⟩ }

theorem Verified.warranted {op : ServeOp} (h : Verified expectedPeer conn req log)
    (hreason : Reason req log op) : Warranted expectedPeer conn op log := by
  rcases h.form with ⟨form, hauth, hsaw⟩
  exact fun _ => ⟨h.peer, req, form, h.frame, hauth, hsaw, hreason⟩

theorem warranted_quiet {op : ServeOp} (h : op.changes = false) :
    Warranted expectedPeer conn op log := fun hchanges =>
  absurd (h.symm.trans hchanges) Bool.false_ne_true

theorem Grantable.mono {user : List UInt8} {report : InspectReport} {who : PasswdEntry}
    (h : Grantable log user report who) (hle : log <+: log') :
    Grantable log' user report who where
  person := h.person
  known := h.known.imp (fun hsaw => hsaw.mono hle)
    fun ⟨owner, howner, hsaw⟩ => ⟨owner, howner.mono hle, hsaw.mono hle⟩
  notDenied := h.notDenied.imp fun _ hstate => ⟨hstate.1.mono hle, hstate.2⟩

/-- `person` looks an account up and changes nothing. -/
theorem checks_personNamed (name : List UInt8) :
    Checks (Warranted expectedPeer conn) (personNamed name) (fun r log' => log <+: log' ∧
      ∀ who, r = .ok (some who) → Saw log' (.getpwnam name) (some who) ∧
        Helper.firstPersonUid ≤ who.account.uid) log := by
  unfold personNamed
  by_cases hname : userNameOk name = true
  · rw [if_pos hname]
    refine checks_call (warranted_quiet rfl) fun found log' hle hsaw => ⟨hle, fun who h => ?_⟩
    have hfound := Except.ok.inj h
    rw [Option.filter_eq_some_iff, decide_eq_true_eq] at hfound
    rw [← hfound.1]
    exact ⟨hsaw, hfound.2⟩
  · rw [if_neg hname]
    exact ⟨List.prefix_rfl, fun who h => nomatch h⟩

/-- An answer of `OK` is true of what was seen. -/
abbrev IfOk (P : ServeLog → Prop) (r : Except Empty ServeReply) (log : ServeLog) : Prop :=
  ∀ payload, r = .ok (.ok payload) → P log

theorem ifOk_err {P : ServeLog → Prop} (token : String) : IfOk P (.ok (.err token)) log :=
  fun _ h => nomatch h

/-- `grant_ace`, for somebody who may be granted access: unless it fails, an entry was seen
    that allows it. -/
theorem checks_grantAce {asked user : List UInt8} {report : InspectReport} {who : PasswdEntry}
    (hverified : Verified expectedPeer conn req log) (hargs : req.args = [asked, user])
    (hfit : Fit log asked report) (hwho : Grantable log user report who) :
    Checks (Warranted expectedPeer conn) (grantAce who report.resolved.bytes)
      (fun r log' => log <+: log' ∧ (r = .ok .added ∨ r = .ok .already →
        Saw log' (.aceFor report.resolved.bytes who.account) .allow)) log := by
  unfold grantAce
  refine checks_call (warranted_quiet rfl) fun state log₁ hle₁ hstate => ?_
  by_cases hallowed : state = .allow
  · rw [if_pos hallowed]
    subst hallowed
    exact ⟨hle₁, fun _ => hstate⟩
  · rw [if_neg hallowed]
    refine checks_call ((hverified.mono hle₁).warranted ⟨asked, user, report, hargs,
      ⟨hfit.1.mono hle₁, hfit.2⟩, rfl, hwho.mono hle₁⟩) fun _ log₂ hle₂ hadded => ?_
    refine checks_call (warranted_quiet rfl) fun state' log₃ hle₃ hstate' => ?_
    have hle := (hle₁.trans hle₂).trans hle₃
    have hdid : Did log₃ (.aceAdd who report.resolved.bytes) := ⟨_, hadded.mono hle₃⟩
    by_cases htaken : state' = .allow
    · rw [if_pos htaken]
      subst htaken
      refine checks_call ((hverified.mono hle).warranted ⟨who, rfl, hdid, hstate'⟩)
        fun written log₄ hle₄ hwritten => ?_
      cases written with
      | true => exact ⟨hle.trans hle₄, fun _ => hstate'.mono hle₄⟩
      | false =>
          -- an entry that cannot be recorded is taken back
          exact checks_call ((hverified.mono (hle.trans hle₄)).warranted
            ⟨hdid.mono hle₄, hwritten⟩) fun _ _ hle₅ _ =>
              ⟨(hle.trans hle₄).trans hle₅, fun _ => (hstate'.mono hle₄).mono hle₅⟩
    · rw [if_neg htaken]
      exact ⟨hle, fun h => h.elim (fun h => nomatch h) fun h => nomatch h⟩

/-- The owner's part of `share.grant`. -/
theorem checks_grantOwner {asked user : List UInt8} {report : InspectReport} {owner : PasswdEntry}
    (hverified : Verified expectedPeer conn req log) (hargs : req.args = [asked, user])
    (hfit : Fit log asked report) (howner : Saw log (.getpwuid report.uid) (some owner)) :
    Checks (Warranted expectedPeer conn) (grantOwner owner report.resolved.bytes)
      (fun _ log' => log <+: log') log := by
  unfold grantOwner
  refine checked_bind (checks_personNamed owner.name) (fun found log₁ hfound => ?_)
    fun e => nomatch e
  rcases hfound with ⟨hle₁, hperson⟩
  cases found with
  | none => exact hle₁
  | some who =>
      -- The owner is somebody, so what is given is given to a person.
      rcases hperson who rfl with ⟨hknown, huid⟩
      refine checks_call (warranted_quiet rfl) fun state log₂ hle₂ hstate => ?_
      have hle := hle₁.trans hle₂
      by_cases hdenied : state = .deny
      · rw [if_pos hdenied]
        -- A denial that stands is not overruled.
        exact hle
      · rw [if_neg hdenied]
        refine checked_bind (checks_grantAce (hverified.mono hle) hargs
          ⟨hfit.1.mono hle, hfit.2⟩
          { person := huid
            known := Or.inr ⟨owner, howner.mono hle, hknown.mono hle₂⟩
            notDenied := ⟨state, hstate, hdenied⟩ }) (fun granted log₃ hgranted => ?_)
          fun e => nomatch e
        have hle' := hle.trans hgranted.1
        cases granted <;> exact hle'

/-- Of `share.grant`, what follows once the account has its entry. -/
theorem checks_grantRest {asked user : List UInt8} {report : InspectReport} {who : PasswdEntry}
    (hverified : Verified expectedPeer conn req log) (hargs : req.args = [asked, user])
    (hfit : Fit log asked report) :
    Checks (Warranted expectedPeer conn) (grantRest who report) (fun _ log' => log <+: log')
      log := by
  unfold grantRest
  refine checks_call (warranted_quiet rfl) fun entry log₁ hle₁ hentry => ?_
  cases entry with
  | none => exact hle₁
  | some owner =>
      dsimp only
      split
      · exact hle₁
      · exact vouched_mono (checks_grantOwner (hverified.mono hle₁) hargs
          ⟨hfit.1.mono hle₁, hfit.2⟩ hentry) fun _ _ hle => hle₁.trans hle

/-- `share.grant` of a folder that may be shared. -/
theorem checks_grantFolder {asked user : List UInt8} {report : InspectReport}
    (hverified : Verified expectedPeer conn req log) (hargs : req.args = [asked, user])
    (hfit : Fit log asked report) :
    Checks (Warranted expectedPeer conn) (grantFolder user report)
      (IfOk (GrantDone req)) log := by
  unfold grantFolder
  refine checked_bind (checks_personNamed user) (fun found log₁ hfound => ?_) fun e => nomatch e
  rcases hfound with ⟨hle₁, hperson⟩
  cases found with
  | none => exact ifOk_err _
  | some who =>
      -- The user is a person, by what the database says of the name.
      rcases hperson who rfl with ⟨hknown, huid⟩
      refine checks_call (warranted_quiet rfl) fun state log₂ hle₂ hstate => ?_
      by_cases hdenied : state = .deny
      · rw [if_pos hdenied]
        exact ifOk_err _
      · rw [if_neg hdenied]
        have hle := hle₁.trans hle₂
        refine checked_bind (checks_grantAce (hverified.mono hle) hargs
          ⟨hfit.1.mono hle, hfit.2⟩
          { person := huid
            known := Or.inl (hknown.mono hle₂)
            notDenied := ⟨state, hstate, hdenied⟩ }) (fun granted log₃ hgranted => ?_)
          fun e => nomatch e
        rcases hgranted with ⟨hle₃, hallowed⟩
        have hle' := hle.trans hle₃
        -- Where the access is there, the rest is all that is left to do.
        have hrest : granted = .added ∨ granted = .already →
            Checks (Warranted expectedPeer conn) (grantRest who report) (IfOk (GrantDone req))
              log₃ := by
          intro h
          have hsaw := hallowed (h.imp (congrArg _) (congrArg _))
          refine vouched_mono (checks_grantRest (hverified.mono hle') hargs
            ⟨hfit.1.mono hle', hfit.2⟩) fun _ log₄ hle₄ _ _ => ?_
          exact ⟨asked, user, report, who, hargs, ⟨hfit.1.mono (hle'.trans hle₄), hfit.2⟩,
            ((hknown.mono hle₂).mono hle₃).mono hle₄, hsaw.mono hle₄⟩
        cases granted with
        | added => exact hrest (Or.inl rfl)
        | already => exact hrest (Or.inr rfl)
        | chmod => exact ifOk_err _
        | ledger => exact ifOk_err _

/-- `share.grant`. -/
theorem checks_shareGrant (hpeer : conn.peer = some expectedPeer)
    (hframe : acceptFrame conn.parts conn.ending = some req) :
    Checks (Warranted expectedPeer conn) (shareGrant req) (IfOk (GrantDone req)) log := by
  unfold shareGrant
  -- Every answer but the last is a refusal, and a refusal grants nothing.
  split
  · rename_i form path user hauth hargs
    split
    · refine checks_call (warranted_quiet rfl) fun verified log₁ _ hverified => ?_
      cases verified with
      | false => exact ifOk_err _
      | true =>
          refine checks_call (warranted_quiet rfl) fun found log₂ hle₂ hfound => ?_
          cases found with
          | none => exact ifOk_err _
          | some report =>
              dsimp only
              by_cases hok : report.verdict = .ok
              · rw [if_pos hok]
                exact checks_grantFolder
                  { peer := hpeer, frame := hframe, form := ⟨form, hauth, hverified.mono hle₂⟩ }
                  hargs ⟨hfound, hok⟩
              · rw [if_neg hok]
                exact ifOk_err _
    · exact ifOk_err _
  · exact ifOk_err _

/-! ### The sharepoint verbs -/

/-- One operation of a sharepoint verb, and what follows once it was answered. -/
theorem checks_sharepointCall {op : SharepointOp} {f : op.Value → SharepointM α}
    (hop : enough (sharepointOp op) log)
    (hnext : ∀ answer log', log <+: log' → Saw log' (sharepointOp op) answer →
      Checks enough (withSharepoints (f (sharepointValue op answer))) Q log') :
    Checks enough (withSharepoints (sharepointCall op >>= f)) Q log :=
  checks_call hop hnext

theorem withSharepoints_bind {β : Type} (p : SharepointM β) (f : β → SharepointM α) :
    withSharepoints (p >>= f) = withSharepoints p >>= fun b => withSharepoints (f b) :=
  translate_bind p f

/-- Sequencing in a sharepoint verb. -/
theorem checks_sharepointBind {β : Type} {p : SharepointM β} {f : β → SharepointM α}
    {Q' : Except Empty β → ServeLog → Prop} (h : Checks enough (withSharepoints p) Q' log)
    (hok : ∀ b log', Q' (.ok b) log' → Checks enough (withSharepoints (f b)) Q log') :
    Checks enough (withSharepoints (p >>= f)) Q log := by
  rw [withSharepoints_bind]
  exact checked_bind h hok fun e => nomatch e

/-- `sharepoint_remove`, of a name that may go: what it answers was seen. -/
theorem checks_sharepointRemove {name : List UInt8} (hverified : Verified expectedPeer conn req log)
    (hreason : Reason req log (.sharepoint (.sharingRemove name))) :
    Checks (Warranted expectedPeer conn) (withSharepoints (sharepointRemove name))
      (fun r log' => log <+: log' ∧
        (r = .ok true → Saw log' (.sharepoint (.sharepointExists name)) false)) log := by
  refine checks_sharepointCall (hverified.warranted hreason) fun _ log₁ hle₁ _ => ?_
  refine checks_sharepointCall (warranted_quiet rfl) fun found log₂ hle₂ hfound => ?_
  refine ⟨hle₁.trans hle₂, fun h => ?_⟩
  cases found with
  | true => exact nomatch Except.ok.inj h
  | false => exact hfound

/-- `share.publish` of a folder that may be shared. -/
theorem checks_publishFolder {name asked : List UInt8} {report : InspectReport} {readOnly : Bool}
    (hverified : Verified expectedPeer conn req log) (hargs : req.args.take 2 = [name, asked])
    (hfit : Fit log asked report) :
    Checks (Warranted expectedPeer conn)
      (withSharepoints (publishFolder name report.resolved.bytes readOnly))
      (fun r log' => r = .ok .ok → PublishDone req log') log := by
  have hname : req.args.head? = some name := by
    have htake := congrArg List.head? hargs
    rw [List.head?_take] at htake
    exact htake
  refine checks_sharepointCall (warranted_quiet rfl) fun found log₁ hle₁ hfound => ?_
  cases found with
  | true =>
      refine checks_sharepointCall (warranted_quiet rfl) fun _ _ _ _ h => nomatch h
  | false =>
      refine checks_sharepointCall ((hverified.mono hle₁).warranted
        ⟨⟨asked, report, hargs, ⟨hfit.1.mono hle₁, hfit.2⟩, rfl⟩, hfound⟩)
        fun _ log₂ hle₂ hadded => ?_
      refine checks_sharepointCall (warranted_quiet rfl) fun found log₃ hle₃ hfound' => ?_
      have hle := (hle₁.trans hle₂).trans hle₃
      cases found with
      | false => exact fun h => nomatch h
      | true =>
          refine checks_sharepointCall ((hverified.mono hle).warranted
            ⟨⟨_, _, _, hadded.mono hle₃⟩, hfound'⟩) fun written log₄ hle₄ hwritten => ?_
          cases written with
          | true => exact fun _ => ⟨name, hname, hfound'.mono hle₄, hwritten⟩
          | false =>
              -- a sharepoint that is not on the list does not stay
              exact checks_sharepointBind (checks_sharepointRemove
                (hverified.mono (hle.trans hle₄)) ⟨hname, Or.inr hwritten⟩)
                fun _ _ _ h => nomatch h

/-- `share.publish`. -/
theorem checks_sharePublish (hpeer : conn.peer = some expectedPeer)
    (hframe : acceptFrame conn.parts conn.ending = some req) :
    Checks (Warranted expectedPeer conn) (withSharepoints (sharePublish req))
      (fun r log' => r = .ok .ok → PublishDone req log') log := by
  unfold sharePublish
  cases hargs : publishArgs req with
  | none => exact fun h => nomatch h
  | some args =>
      rcases args with ⟨form, name, path, readOnly⟩
      -- The arguments are the request's own, with or without the flag.
      have hreq : req.auth = some form ∧ req.args.take 2 = [name, path] := by
        unfold publishArgs at hargs
        split at hargs
        · rename_i hauth hlist
          split at hargs
          · cases hargs
            exact ⟨hauth, congrArg (List.take 2) hlist⟩
          · exact nomatch hargs
        · rename_i hauth hlist
          split at hargs
          · cases hargs
            exact ⟨hauth, congrArg (List.take 2) hlist⟩
          · exact nomatch hargs
        · exact nomatch hargs
      refine checks_sharepointCall (warranted_quiet rfl) fun verified log₁ _ hverified => ?_
      cases verified with
      | false => exact fun h => nomatch h
      | true =>
          refine checks_sharepointCall (warranted_quiet rfl) fun found log₂ hle₂ hfound => ?_
          cases found with
          | none => exact fun h => nomatch h
          | some report =>
              -- The form is verified from here on.
              have hgood : Verified expectedPeer conn req log₂ :=
                { peer := hpeer, frame := hframe, form := ⟨form, hreq.1, hverified.mono hle₂⟩ }
              change Checks _ (withSharepoints (if report.brief.verdict = .ok then
                publishFolder name report.brief.resolved readOnly
                else pure (.err report.brief.verdict.token))) _ _
              by_cases hok : report.brief.verdict = .ok
              · rw [if_pos hok]
                exact checks_publishFolder hgood hreq.2 ⟨hfound, hok⟩
              · rw [if_neg hok]
                exact fun h => nomatch h

/-- `share.unpublish`. -/
theorem checks_shareUnpublish (hpeer : conn.peer = some expectedPeer)
    (hframe : acceptFrame conn.parts conn.ending = some req) :
    Checks (Warranted expectedPeer conn) (withSharepoints (shareUnpublish req))
      (fun r log' => r = .ok .ok → UnpublishDone req log') log := by
  unfold shareUnpublish
  split
  · rename_i form name hauth hargs
    have hname := congrArg List.head? hargs
    split
    · refine checks_sharepointCall (warranted_quiet rfl) fun verified log₁ _ hverified => ?_
      cases verified with
      | false => exact fun h => nomatch h
      | true =>
          have hgood : Verified expectedPeer conn req log₁ :=
            { peer := hpeer, frame := hframe, form := ⟨form, hauth, hverified⟩ }
          -- Only a name in the ledger is removed.
          refine checks_sharepointCall (warranted_quiet rfl) fun listed log₂ hle₂ hlisted => ?_
          cases listed with
          | false => exact fun h => nomatch h
          | true =>
              refine checks_sharepointBind (checks_sharepointRemove (hgood.mono hle₂)
                ⟨hname, Or.inl hlisted⟩) fun gone log₃ hgone => ?_
              cases gone with
              | false => exact fun h => nomatch h
              | true =>
                  -- The line is taken out once the record is gone.
                  refine checks_sharepointCall (((hgood.mono hle₂).mono hgone.1).warranted
                    ⟨hlisted.mono hgone.1, hgone.2 rfl⟩) fun written log₄ hle₄ hwritten => ?_
                  cases written with
                  | true => exact fun _ => ⟨name, hname, (hgone.2 rfl).mono hle₄, hwritten⟩
                  | false => exact fun h => nomatch h
    · exact fun h => nomatch h
  · exact fun h => nomatch h

/-! ### The connection -/

/-- A program that changes nothing. -/
theorem checks_quiet {p : ServeM α}
    (hp : Performs (S := serveSig) (fun op => ServeOp.changes op = false) p) :
    Checks (Warranted expectedPeer conn) p (fun _ _ => True) log := by
  induction p generalizing log with
  | ret a => trivial
  | raise e => trivial
  | perform op next ih =>
      exact checked_perform (warranted_quiet hp.1) fun answer => ih answer (hp.2 answer)

/-- Nothing it performs changes anything. -/
abbrev Reads (p : ServeM α) : Prop :=
  Performs (S := serveSig) (fun op => ServeOp.changes op = false) p

theorem reads_call {op : ServeOp} {f : op.Value → ServeM α} (hop : op.changes = false)
    (hf : ∀ answer, Reads (f answer)) : Reads (serveCall op >>= f) :=
  ⟨hop, hf⟩

theorem reads_personNamed (name : List UInt8) : Reads (personNamed name) := by
  unfold personNamed
  split
  · exact reads_call rfl fun _ => trivial
  · trivial

theorem reads_shareList (req : HelperRequest) : Reads (shareList req) := by
  unfold shareList
  split
  · trivial
  · exact reads_call rfl fun out => by cases out <;> trivial

theorem reads_describePath (report : InspectReport) (who : Option PasswdEntry) :
    Reads (describePath report who) := by
  unfold describePath
  split
  · trivial
  · split
    · trivial
    · split
      · trivial
      · exact reads_call rfl fun access => by split <;> trivial

theorem reads_pathInspect (req : HelperRequest) : Reads (pathInspect req) := by
  unfold pathInspect
  split
  · trivial
  · split
    · refine reads_call rfl fun found => ?_
      cases found with
      | none => trivial
      | some report => exact reads_describePath report none
    · refine reads_call rfl fun found => ?_
      cases found with
      | none => trivial
      | some report =>
          refine performs_bind (reads_personNamed _) fun who => ?_
          cases who with
          | none => trivial
          | some who => exact reads_describePath report (some who)
    · trivial

theorem reads_accountSmb (req : HelperRequest) : Reads (accountSmb req) := by
  unfold accountSmb
  split
  · trivial
  · split
    · refine performs_bind (reads_personNamed _) fun who => ?_
      cases who with
      | none => trivial
      | some who => exact reads_call rfl fun _ => trivial
    · trivial

theorem reads_shareOwned (req : HelperRequest) : Reads (shareOwned req) := by
  unfold shareOwned
  split
  · trivial
  · exact reads_call rfl fun _ => trivial

/-- `auth.check`. -/
theorem checks_authCheck :
    Checks (Warranted expectedPeer conn) (authCheck req) (IfOk (CheckDone req)) log := by
  unfold authCheck
  split
  · rename_i form right hauth hargs
    by_cases hright : registeredRights.contains right = true
    · rw [if_pos hright]
      refine checks_call (warranted_quiet rfl) fun verified log₁ _ hverified => ?_
      cases verified with
      | true =>
          exact fun _ _ => ⟨right, form, hargs, hauth, List.contains_iff_mem.mp hright, hverified⟩
      | false => exact ifOk_err _
    · rw [if_neg hright]
      exact ifOk_err _
  · exact ifOk_err _

/-- A request with a verb that none of the four outcomes is about. -/
theorem done_other (hcheck : req.verb ≠ cBytes "auth.check")
    (hgrant : req.verb ≠ cBytes "share.grant") (hpublish : req.verb ≠ cBytes "share.publish")
    (hunpublish : req.verb ≠ cBytes "share.unpublish") : Done req log where
  check := fun h => absurd h hcheck
  grant := fun h => absurd h hgrant
  publish := fun h => absurd h hpublish
  unpublish := fun h => absurd h hunpublish

/-- What is done with a request. -/
theorem checks_serveVerb (hpeer : conn.peer = some expectedPeer)
    (hframe : acceptFrame conn.parts conn.ending = some req) :
    Checks (Warranted expectedPeer conn) (serveVerb req) (IfOk (Done req)) log := by
  -- two verbs are not the same
  have hne : ∀ {a b : List UInt8}, req.verb = a → a ≠ b → req.verb ≠ b :=
    fun h hab h' => hab (h.symm.trans h')
  have hread : ∀ {p : ServeM ServeReply}, Reads p → (∀ log', Done req log') →
      Checks (Warranted expectedPeer conn) p (IfOk (Done req)) log := fun hp hdone =>
    vouched_mono (checks_quiet hp) fun _ log' _ _ _ => hdone log'
  unfold serveVerb
  by_cases h₁ : req.verb = cBytes "share.list"
  · rw [if_pos h₁]
    exact hread (reads_shareList req) fun _ => done_other (hne h₁ (by decide)) (hne h₁ (by decide))
      (hne h₁ (by decide)) (hne h₁ (by decide))
  rw [if_neg h₁]
  by_cases h₂ : req.verb = cBytes "auth.check"
  · rw [if_pos h₂]
    exact vouched_mono checks_authCheck fun _ _ hdone payload hok =>
      { check := fun _ => hdone payload hok
        grant := fun h => absurd h (hne h₂ (by decide))
        publish := fun h => absurd h (hne h₂ (by decide))
        unpublish := fun h => absurd h (hne h₂ (by decide)) }
  rw [if_neg h₂]
  by_cases h₃ : req.verb = cBytes "path.inspect"
  · rw [if_pos h₃]
    exact hread (reads_pathInspect req) fun _ => done_other h₂ (hne h₃ (by decide))
      (hne h₃ (by decide)) (hne h₃ (by decide))
  rw [if_neg h₃]
  by_cases h₄ : req.verb = cBytes "account.smb"
  · rw [if_pos h₄]
    exact hread (reads_accountSmb req) fun _ => done_other h₂ (hne h₄ (by decide))
      (hne h₄ (by decide)) (hne h₄ (by decide))
  rw [if_neg h₄]
  by_cases h₅ : req.verb = cBytes "share.grant"
  · rw [if_pos h₅]
    exact vouched_mono (checks_shareGrant hpeer hframe) fun _ _ hdone payload hok =>
      { check := fun h => absurd h h₂
        grant := fun _ => hdone payload hok
        publish := fun h => absurd h (hne h₅ (by decide))
        unpublish := fun h => absurd h (hne h₅ (by decide)) }
  rw [if_neg h₅]
  by_cases h₆ : req.verb = cBytes "share.owned"
  · rw [if_pos h₆]
    exact hread (reads_shareOwned req) fun _ => done_other h₂ h₅ (hne h₆ (by decide))
      (hne h₆ (by decide))
  rw [if_neg h₆]
  by_cases h₇ : req.verb = cBytes "share.publish"
  · rw [if_pos h₇]
    refine checked_bind (checks_sharePublish hpeer hframe) (fun answer log' hdone payload hok => ?_)
      fun e => nomatch e
    cases answer with
    | err token => exact nomatch hok
    | ok =>
        exact
          { check := fun h => absurd h h₂
            grant := fun h => absurd h h₅
            publish := fun _ => hdone rfl
            unpublish := fun h => absurd h (hne h₇ (by decide)) }
  rw [if_neg h₇]
  by_cases h₈ : req.verb = cBytes "share.unpublish"
  · rw [if_pos h₈]
    refine checked_bind (checks_shareUnpublish hpeer hframe)
      (fun answer log' hdone payload hok => ?_) fun e => nomatch e
    cases answer with
    | err token => exact nomatch hok
    | ok =>
        exact
          { check := fun h => absurd h h₂
            grant := fun h => absurd h h₅
            publish := fun h => absurd h h₇
            unpublish := fun _ => hdone rfl }
  rw [if_neg h₈]
  exact ifOk_err _

/-- What is done with a connection of the daemon's. -/
theorem serveOne_request (hpeer : conn.peer = some expectedPeer)
    (hframe : acceptFrame conn.parts conn.ending = some req) :
    serveOne expectedPeer conn = serveVerb req := by
  unfold serveOne
  rw [hpeer, hframe]
  exact if_neg (not_not_intro rfl)

/-- `serve_one`: what is answered `OK` came from the daemon, and is true. -/
theorem checks_serveOne :
    Checks (Warranted expectedPeer conn) (serveOne expectedPeer conn)
      (IfOk fun log' => conn.peer = some expectedPeer ∧ ∃ req,
        acceptFrame conn.parts conn.ending = some req ∧ Done req log') log := by
  unfold serveOne
  cases hpeer : conn.peer with
  | none => exact fun _ h => nomatch h
  | some uid =>
      dsimp only
      by_cases huid : uid = expectedPeer
      · rw [if_neg (not_not_intro huid)]
        subst huid
        cases hframe : acceptFrame conn.parts conn.ending with
        | none => exact fun _ h => nomatch h
        | some req =>
            exact vouched_mono (checks_serveVerb hpeer hframe) fun _ _ hdone payload hok =>
              ⟨rfl, req, rfl, hdone payload hok⟩
      · rw [if_pos huid]
        exact fun _ h => nomatch h

/-- Whoever connects, whatever is read and whatever the system answers: whatever the helper
    changes was asked for by the daemon, in a request whose form was verified before, and
    has its reason. -/
theorem serve_warranted (expectedPeer : Nat) (conn : Connecting) :
    Always logMachine (serveOne expectedPeer conn)
      (fun _ log => Justified (S := serveSig) (Warranted expectedPeer conn) log) [] :=
  (always_iff _).mpr fun _ _ hrun => (checks_serveOne.justified (justified_nil _) hrun).1

end Warranting

end Smbpal
