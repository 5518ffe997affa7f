import Smbpal.Helper.Outcomes
import Smbpal.Samba.Conf
import Smbpal.State.Monitor

/-!
# Publishing the Shares of a Mac

`SharepointApplier.apply` in `sharepoints/apply.py`: what is published that should not be
goes, what is missing is published, and then it is looked whether it is there and
read-only where that was asked for.

The helper's verbs come to the outcomes of `Helper.Outcomes`, over names as the client
writes them: whatever the helper does when it is asked, the client's side has an outcome that
mirrors it (`publish_mirrored`, `unpublish_mirrored`). What the other side answers is a
parameter: the folders, the accounts, which call fails, and what `sharing` makes of each
publishing.

Where a record is at another folder than it should be, that is found first, and where a
publishing is refused, nothing is looked at any more. A share that was to be read-only and
came back writable is then left as it is (`read_only_left_writable`). A share that was to
be writable and came back read-only is not found at all.

## Main definitions

* `SharingEnv`: What the other side answers.
* `ServedShares`: The records and the list, with what was asked of the helper.
* `ServedShares.Mirrors`: They are what the helper has.
* `applyPlan`: What `apply` makes out before it changes anything.
* `applyShares`: `apply`.
* `Converges`: What it is to do.
* `ConvergesWhen`: When it does.

## Theorems

* `publish_mirrored`, `unpublish_mirrored`: What a verb of the helper comes to is an outcome.
-/

namespace Smbpal

open Lib

section Helper

/-- A `HelperError`. -/
structure HelperError where
  message : Str
  detail : Option Str
  token : Option Str

/-- What a call of the helper raises: its own error, or one of Python's. -/
inductive HelperFailure where
  | helper (e : HelperError)
  | other

/-- The exception. -/
def HelperFailure.exc : HelperFailure → Exc
  | .helper e => .smbpal { code := .internal, message := e.message, detail := e.detail }
  | .other => .exception

/-- What `sharing -l` says of a record. -/
structure ListedRecord where
  path : Option Str
  readOnly : Bool
  deriving DecidableEq

/-- What `path.inspect` says of a folder: one that is there has a path of its own. -/
structure PathFacts where
  verdict : PathVerdict
  resolved : Option Str
  owner : Option Str
  is_resolved : verdict ≠ .notFound → resolved.isSome = true

/-- What a reading of the sharepoints raises. -/
inductive ListFailure where
  | helper (e : HelperFailure)
  | unreadable (detail : Str)

/-- The exception. -/
def ListFailure.exc : ListFailure → Exc
  | .helper e => e.exc
  | .unreadable detail =>
      .detailed .applyFailed (str "could not read this Mac's sharepoints") detail

/-- What the other side answers. -/
structure SharingEnv where
  /-- `serving_identity`: the account's name and its uid. -/
  account : Str → Option (Str × Nat)
  inspect : Str → Option Str → Except HelperFailure PathFacts
  owned : Option HelperFailure
  /-- The readings of `sharing -l`, one after another. -/
  list : Nat → Option ListFailure
  /-- Unpublishing what should not be there. -/
  unpublish : Str → UnpublishOutcome HelperFailure
  publish : Str → Str → Bool → PublishOutcome ListedRecord HelperFailure
  /-- Unpublishing what came back writable. -/
  unshare : Str → UnpublishOutcome HelperFailure

/-- The records and the list; what the helper was asked to publish, and whether it refused
    to unpublish. -/
structure ServedShares where
  records : Str → Option ListedRecord
  ledger : List Str
  published : List Str
  unpublishFailed : Bool

/-- Nothing was asked of the helper. -/
def ServedShares.start (records : Str → Option ListedRecord) (ledger : List Str) :
    ServedShares where
  records := records
  ledger := ledger
  published := []
  unpublishFailed := false

/-- An unpublishing. -/
def ServedShares.unpublish (w : ServedShares) (name : Str)
    (o : UnpublishOutcome HelperFailure) : ServedShares :=
  { w with
    records := o.records name w.records
    ledger := o.ledger name w.ledger
    unpublishFailed := w.unpublishFailed || !o.isOk }

/-- A publishing. -/
def ServedShares.publish (w : ServedShares) (name : Str)
    (o : PublishOutcome ListedRecord HelperFailure) : ServedShares :=
  { w with
    records := o.records name w.records
    ledger := o.ledger name w.ledger
    published := w.published ++ [name] }

end Helper

section Mirror

variable {shows : SharepointRecord → ListedRecord} {w : ServedShares} {s s' : Sharepoints}
  {name : Str} {bytes : List UInt8} {reply : HelperReply} {req : HelperRequest}

/-- What the helper has, as the client sees it: under every name that can be sent its record,
    as `sharing -l` shows it, and the list. -/
structure ServedShares.Mirrors (shows : SharepointRecord → ListedRecord) (w : ServedShares)
    (s : Sharepoints) : Prop where
  records : ∀ other sent, encode other = some sent →
    w.records other = (s.records sent).map shows
  ledger : List.Forall₂ (fun other sent => encode other = some sent) w.ledger s.ledger

/-- A record that is set on one side is set on the other. -/
theorem mirrored_update (h : w.Mirrors shows s) (hname : encode name = some bytes)
    (record : Option SharepointRecord) (other : Str) (sent : List UInt8)
    (hother : encode other = some sent) :
    Function.update w.records name (record.map shows) other =
      (Function.update s.records bytes record sent).map shows := by
  by_cases heq : other = name
  · have hsent : sent = bytes := Option.some.inj (hother.symm.trans (heq ▸ hname))
    rw [heq, hsent, Function.update_self, Function.update_self]
  · have hsent : sent ≠ bytes := fun hsame => heq (encode_injective (hsame ▸ hother) hname)
    rw [Function.update_of_ne heq, Function.update_of_ne hsent]
    exact h.records other sent hother

/-- The list loses the same names on both sides. -/
theorem mirrored_filter (h : w.Mirrors shows s) (hname : encode name = some bytes) :
    List.Forall₂ (fun other sent => encode other = some sent)
      (w.ledger.filter fun line => decide (line ≠ name))
      (s.ledger.filter fun line => decide (line ≠ bytes)) := by
  refine List.rel_filter (fun {other sent} hother => ?_) h.ledger
  refine decide_eq_true_iff.trans (Iff.trans (not_congr ?_) decide_eq_true_iff.symm)
  refine ⟨fun heq => ?_, fun heq => ?_⟩
  · exact Option.some.inj (hother.symm.trans (heq ▸ hname))
  · exact encode_injective (heq ▸ hother) hname

theorem ServedShares.Mirrors.publish (h : w.Mirrors shows s) (hname : encode name = some bytes)
    {o : PublishOutcome SharepointRecord Unit} (hpublish : PublishesAs s bytes reply s' o)
    (raised : Unit → HelperFailure) :
    (w.publish name (o.map shows raised)).Mirrors shows s' := by
  -- A name goes on both lists or on neither.
  have hlist : ∀ listed : Bool, List.Forall₂ (fun other sent => encode other = some sent)
      (if listed then w.ledger ++ [name] else w.ledger)
      (if listed then s.ledger ++ [bytes] else s.ledger) := by
    intro listed
    cases listed with
    | true => exact List.rel_append h.ledger (List.Forall₂.cons hname List.Forall₂.nil)
    | false => exact h.ledger
  refine ⟨?_, ?_⟩
  · rw [hpublish.records]
    cases o with
    | ok record => exact mirrored_update h hname (some record)
    | refused e left listed =>
        cases left with
        | none => exact h.records
        | some record => exact mirrored_update h hname (some record)
  · rw [hpublish.ledger]
    cases o with
    | ok record => exact hlist true
    | refused e left listed => exact hlist listed

theorem ServedShares.Mirrors.unpublish (h : w.Mirrors shows s)
    (hname : encode name = some bytes) {o : UnpublishOutcome Unit}
    (hunpublish : UnpublishesAs s bytes reply s' o) (raised : Unit → HelperFailure) :
    (w.unpublish name (o.map raised)).Mirrors shows s' := by
  -- A record goes on both sides or on neither.
  have hrecords : ∀ gone : Bool, ∀ other sent, encode other = some sent →
      (if gone then Function.update w.records name none else w.records) other =
        ((if gone then Function.update s.records bytes none else s.records) sent).map shows := by
    intro gone
    cases gone with
    | true => exact mirrored_update h hname none
    | false => exact h.records
  refine ⟨?_, ?_⟩
  · rw [hunpublish.records]
    cases o with
    | ok => exact hrecords true
    | refused e gone unlisted => exact hrecords gone
  · rw [hunpublish.ledger]
    cases o with
    | ok => exact mirrored_filter h hname
    | refused e gone unlisted =>
        cases unlisted with
        | true => exact mirrored_filter h hname
        | false => exact h.ledger

/-- Whatever becomes of a `share.publish`, the client's side has an outcome that mirrors it,
    and it is done on the one side if it is done on the other. -/
theorem publish_mirrored (h : w.Mirrors shows s) (hname : encode name = some bytes)
    {form path : List UInt8} {readOnly : Bool}
    (hargs : publishArgs req = some (form, bytes, path, readOnly))
    (hexec : Program.Exec sharepointMachine (sharePublish req) s (.ok reply) s')
    (raised : Unit → HelperFailure) :
    ∃ o : PublishOutcome ListedRecord HelperFailure,
      (o.isOk = true ↔ reply = .ok) ∧ (w.publish name o).Mirrors shows s' := by
  rcases exec_sharePublish hexec with ⟨hnone, -, -⟩ | ⟨_, name', _, _, hsome, o, hpublish⟩
  · rw [hargs] at hnone
    cases hnone
  · rw [hargs] at hsome
    cases hsome
    refine ⟨o.map shows raised, ?_, h.publish hname hpublish raised⟩
    rw [← hpublish.reply]
    cases o with
    | ok record => exact Iff.rfl
    | refused e left listed => exact Iff.rfl

/-- The same of a `share.unpublish`. -/
theorem unpublish_mirrored (h : w.Mirrors shows s) (hname : encode name = some bytes)
    (hargs : req.args = [bytes])
    (hexec : Program.Exec sharepointMachine (shareUnpublish req) s (.ok reply) s')
    (raised : Unit → HelperFailure) :
    ∃ o : UnpublishOutcome HelperFailure,
      (o.isOk = true ↔ reply = .ok) ∧ (w.unpublish name o).Mirrors shows s' := by
  have hrefused : ∀ token, reply = .err token → s' = s →
      ∃ o, UnpublishesAs s bytes reply s' o := by
    rintro token rfl rfl
    exact unpublishesAs_nothing rfl rfl
  -- A request with other arguments is refused, and this one has the name alone.
  have houtcome : ∃ o, UnpublishesAs s bytes reply s' o := by
    rcases exec_shareUnpublish hexec with ⟨hreply, hsame⟩ | ⟨name', hname', o, hunpublish⟩
    · exact hrefused "args" hreply hsame
    · rw [hargs] at hname'
      cases hname'
      exact ⟨o, hunpublish⟩
  rcases houtcome with ⟨o, hunpublish⟩
  refine ⟨o.map raised, ?_, h.unpublish hname hunpublish raised⟩
  rw [← hunpublish.reply]
  cases o with
  | ok => exact Iff.rfl
  | refused e gone unlisted => exact Iff.rfl

end Mirror

section Plan

variable [Unicode]

/-- `authorization.MANAGE_SHARES`. -/
def macManageShares : Str := str "app.smbpal.manage-shares"

/-- `FIRST_PERSON_UID`. -/
def firstPersonUid : Nat := 500

/-- A dict comprehension: of two values of a key the last one stays. -/
def dictGet {κ ν : Type} [DecidableEq κ] (entries : List (κ × ν)) (key : κ) : Option ν :=
  entries.reverse.lookup key

/-- The keys of a dict. -/
def dictKeys {κ ν : Type} [DecidableEq κ] (entries : List (κ × ν)) : List κ :=
  (entries.map Prod.fst).dedup

/-- `refusal`: why a folder is not shared. -/
def folderRefusal (path : Str) (facts : PathFacts) : Option Str :=
  let resolved := facts.resolved
  -- Where the path resolves to another, the message says so.
  let via :=
    match resolved with
    | some resolved =>
        if resolved ≠ [] ∧ resolved ≠ path then str " (it resolves to " ++ resolved ++ str ")"
        else []
    | none => []
  match facts.verdict with
  | .ok => none
  | .notFound =>
      some (path ++ str " does not exist. On macOS SMBPal shares a folder that is " ++
        str "already there; create it first.")
  | .notDirectory => some (path ++ str " is not a folder" ++ via)
  | .outsideRoots =>
      some (path ++ str " is not inside /Users or /Volumes" ++ via ++ str ". On macOS SMBPal " ++
        str "shares folders in people's home folders and on attached disks.")
  | .homeRoot =>
      some (path ++ str " is " ++ pyStr facts.owner ++ str "'s whole home folder" ++ via ++
        str ". Share a folder inside it instead, such as Documents or Public.")
  | .systemOwned =>
      some (path ++ str " belongs to " ++ pyStr facts.owner ++ str ", a system account" ++ via ++
        str ". SMBPal shares folders that belong to a person.")

/-- `_identity_for`, and whether the helper would take its name. -/
def userFor (env : SharingEnv) (s : Share) : Option Str :=
  match s.credentialRef with
  | none | some [] => none
  | some user =>
      match env.account user with
      | some (name, uid) => if firstPersonUid ≤ uid then some name else none
      | none => none

/-- `_facts`. A path that is null cannot be put in a frame. -/
def factsFor (env : SharingEnv) (s : Share) : Except Exc PathFacts :=
  match s.path with
  | none => .error .exception
  | some path =>
      match env.inspect path (userFor env s) with
      | .ok facts => .ok facts
      | .error e => .error e.exc

/-- The facts of the shares, by id. -/
def inspectShares (env : SharingEnv) : List Share → Except Exc (List (Option Str × PathFacts))
  | [] => .ok []
  | s :: shares => do
      let facts ← factsFor env s
      let rest ← inspectShares env shares
      pure ((s.id, facts) :: rest)

/-- The first share that is refused. -/
def refuseShares (facts : List (Option Str × PathFacts)) : List Share → Except Exc Unit
  | [] => .ok ()
  | s :: shares =>
      match (dictGet facts s.id).bind (folderRefusal (pyStr s.path)) with
      | some refused =>
          .error (.detailed .applyFailed (str "cannot share " ++ pyRepr s.name) refused)
      | none => refuseShares facts shares

/-- The two dicts `wanted` and `read_only`. -/
abbrev Wanted := List (Option Str × Option Str × Bool)

/-- What should be published. -/
def wantedShares (facts : List (Option Str × PathFacts)) (enabled : List Share) : Wanted :=
  enabled.map fun s =>
    (s.name, (dictGet facts s.id).bind PathFacts.resolved, s.readOnly.getD false)

/-- `current.get(name, {}).get("path")`. -/
def currentPath (w : ServedShares) (name : Str) : Option Str :=
  (w.records name).bind ListedRecord.path

/-- `_is_read_only(current.get(name, {}))`. -/
def currentReadOnly (w : ServedShares) (name : Str) : Bool :=
  match w.records name with
  | some record => record.readOnly
  | none => false

/-- Whether a name on the list should not be there as it is. -/
def isStale (wanted : Wanted) (w : ServedShares) (name : Str) : Bool :=
  match dictGet wanted (some name) with
  | none => true
  | some (path, readOnly) =>
      decide (currentPath w name ≠ path) || decide (currentReadOnly w name ≠ readOnly)

/-- `stale`. -/
def staleNames (wanted : Wanted) (w : ServedShares) : List Str :=
  (w.ledger.dedup.filter (isStale wanted w)).insertionSort fun a b => strLe a b = true

/-- Whether a name has to be published. -/
def isMissing (w : ServedShares) (stale : List Str) (name : Option Str) : Bool :=
  match name with
  | none => true
  | some name => decide (name ∉ w.ledger) || decide (name ∈ stale)

/-- The first name that is somebody else's. -/
def refuseTaken (w : ServedShares) : List (Option Str) → Except Exc Unit
  | [] => .ok ()
  | none :: names => refuseTaken w names
  | some name :: names =>
      match w.records name with
      | some record =>
          if name ∈ w.ledger then refuseTaken w names
          else
            let path := record.path.getD []
            .error <| .detailed .alreadyExists
              (str "this Mac already shares a folder called " ++ repr name ++
                str " that SMBPal did not create")
              (str "It is at " ++ (if path = [] then str "an unrecorded path" else path) ++
                str ". SMBPal does not adopt or replace sharepoints it did not " ++
                str "publish. Choose another name.")
      | none => refuseTaken w names

/-- A change needs a grant. -/
def needGrant (changes : Bool) (grant : Option (List UInt8)) : Except Exc Unit :=
  if changes = true ∧ grant = none then
    .error (.of (.needsAuthorisation macManageShares)
      (str "changing what this Mac shares needs an administrator's " ++
        str "authorisation, even for root"))
  else .ok ()

/-- What `apply` makes out before it changes anything. -/
structure ApplyPlan where
  wanted : Wanted
  stale : List Str
  missing : List (Option Str)

/-- A reading that fails, or not. -/
def failing {α : Type} (exc : α → Exc) : Option α → Except Exc Unit
  | none => .ok ()
  | some e => .error (exc e)

/-- `apply`, as far as the first change. -/
def applyPlan (env : SharingEnv) (config : Config) (grant : Option (List UInt8))
    (w : ServedShares) : Except Exc ApplyPlan := do
  let enabled := config.shares.filter Share.isEnabled
  let facts ← inspectShares env config.shares
  let _ ← refuseShares facts enabled
  let wanted := wantedShares facts enabled
  let _ ← failing HelperFailure.exc env.owned
  let _ ← failing ListFailure.exc (env.list 0)
  let stale := staleNames wanted w
  let missing ← sortedIds ((dictKeys wanted).filter (isMissing w stale))
  let _ ← refuseTaken w missing
  let _ ← needGrant (!stale.isEmpty || !missing.isEmpty) grant
  pure { wanted := wanted, stale := stale, missing := missing }

end Plan

section Apply

variable [Unicode]

/-- `_HELPER_REFUSALS`. -/
def helperRefusals : List (Str × Str) :=
  [ (str "denied", str "the authorisation was not accepted -- it may have expired; try again"),
    (str "exists",
      str "a sharepoint with that name already exists and SMBPal did not create it"),
    (str "published", str "SMBPal already published that sharepoint; run `smbpal apply`"),
    (str "not-ours",
      str "that sharepoint was not published by SMBPal, so SMBPal will not remove it"),
    (str "account",
      str "that is not an existing person's account on this Mac -- SMBPal " ++
        str "grants access to people, not to system or role accounts"),
    (str "deny-ace",
      str "an access entry on the folder denies that account; somebody set it " ++
        str "on purpose, so SMBPal leaves it alone"),
    (str "chmod", str "macOS's `chmod` did not add the access entry"),
    (str "owner",
      str "the share's account can now write, but the folder's owner could not be " ++
        str "given access to what it writes; run make-writable again"),
    (str "sharing", str "macOS's `sharing` tool did not make the change"),
    (str "ledger", str "the helper could not update its record of what SMBPal published") ]

omit [Unicode] in
/-- `_explain`. -/
def explain (e : HelperError) : Exc :=
  let token := e.token.getD []
  let detail :=
    match helperRefusals.lookup token with
    | some detail => some detail
    | none =>
        if token ≠ [] then some (str "the helper refused the folder: " ++ token) else e.detail
  .smbpal { code := .applyFailed, message := e.message, detail := detail }

omit [Unicode] in
/-- What a failure inside the `try` comes out as. -/
def explained : HelperFailure → Exc
  | .helper e => explain e
  | .other => .exception

omit [Unicode] in
/-- Unpublish what is stale, up to the first failure. -/
def unpublishAll (env : SharingEnv) : List Str → ServedShares → Option Exc × ServedShares
  | [], w => (none, w)
  | name :: names, w =>
      match env.unpublish name with
      | .ok => unpublishAll env names (w.unpublish name .ok)
      | .refused e gone unlisted =>
          (some (explained e), w.unpublish name (.refused e gone unlisted))

omit [Unicode] in
/-- What a publishing comes to. A name or a path that is null cannot be put in a frame. -/
def publishOutcome (env : SharingEnv) (wanted : Wanted) :
    Option Str → PublishOutcome ListedRecord HelperFailure
  | none => .refused .other none false
  | some name =>
      match dictGet wanted (some name) with
      | some (some path, readOnly) => env.publish name path readOnly
      | _ => .refused .other none false

omit [Unicode] in
/-- One publishing. -/
def ServedShares.publishOne (w : ServedShares) (name : Option Str)
    (o : PublishOutcome ListedRecord HelperFailure) : ServedShares :=
  match name with
  | none => w
  | some name => w.publish name o

omit [Unicode] in
/-- Publish what is missing, up to the first failure. -/
def publishAll (env : SharingEnv) (wanted : Wanted) :
    List (Option Str) → ServedShares → Option Exc × ServedShares
  | [], w => (none, w)
  | name :: names, w =>
      let w := w.publishOne name (publishOutcome env wanted name)
      match publishOutcome env wanted name with
      | .ok _ => publishAll env wanted names w
      | .refused e _ _ => (some (explained e), w)

omit [Unicode] in
/-- The names whose record is not at the folder that is wanted. -/
def wrongNames (wanted : Wanted) (w : ServedShares) : List (Option Str) :=
  (dictKeys wanted).filter fun name =>
    decide (name.bind (currentPath w) ≠ (dictGet wanted name).bind Prod.fst)

/-- `_verify_present`. -/
def verifyPresent (env : SharingEnv) (wanted : Wanted) (w : ServedShares) : Except Exc Unit := do
  let _ ← failing ListFailure.exc (env.list 1)
  let wrong ← sortedIds (wrongNames wanted w)
  if wrong = [] then pure ()
  else
    .error <| .detailed .applyFailed
      (str "macOS did not publish " ++ join (str ", ") (wrong.map pyRepr))
      (str "`sharing` accepted the request but the sharepoint is not " ++
        str "in `sharing -l` at the folder asked for.")

omit [Unicode] in
/-- Whether a name is to be read-only. -/
def asksReadOnly (wanted : Wanted) (name : Option Str) : Bool :=
  match dictGet wanted name with
  | some (_, readOnly) => readOnly
  | none => false

omit [Unicode] in
/-- The names that are to be read-only and are not. -/
def writableNames (wanted : Wanted) (w : ServedShares) : List (Option Str) :=
  (dictKeys wanted).filter fun name =>
    asksReadOnly wanted name && !(name.elim false (currentReadOnly w))

omit [Unicode] in
/-- Unpublish what came back writable; a refusal is logged. -/
def unshareAll (env : SharingEnv) : List (Option Str) → ServedShares → Option Exc × ServedShares
  | [], w => (none, w)
  | none :: _, w => (some .exception, w)
  | some name :: names, w =>
      let w := w.unpublish name (env.unshare name)
      match env.unshare name with
      | .refused .other _ _ => (some .exception, w)
      | _ => unshareAll env names w

/-- `_verify_read_only`. -/
def verifyReadOnly (env : SharingEnv) (wanted : Wanted) (w : ServedShares) :
    Option Exc × ServedShares :=
  match env.list 2 with
  | some e => (some e.exc, w)
  | none =>
      match sortedIds (writableNames wanted w) with
      | .error e => (some e, w)
      | .ok [] => (none, w)
      | .ok writable =>
          match unshareAll env writable w with
          | (some e, w) => (some e, w)
          | (none, w) =>
              (some (.detailed .applyFailed
                (str "macOS did not make " ++ join (str ", ") (writable.map pyRepr) ++
                  str " read-only")
                (str "`sharing -R 1` was asked for and `sharing -l` reports the share " ++
                  str "writable, so SMBPal unshared it rather than serve it writable.")), w)

/-- `SharepointApplier.apply`: the names that are served. -/
def applyShares (env : SharingEnv) (config : Config) (grant : Option (List UInt8))
    (w : ServedShares) : Except Exc (List (Option Str)) × ServedShares :=
  match applyPlan env config grant w with
  | .error e => (.error e, w)
  | .ok plan =>
      match unpublishAll env plan.stale w with
      | (some e, w) => (.error e, w)
      | (none, w) =>
          match publishAll env plan.wanted plan.missing w with
          | (some e, w) => (.error e, w)
          | (none, w) =>
              match verifyPresent env plan.wanted w with
              | .error e => (.error e, w)
              | .ok () =>
                  match verifyReadOnly env plan.wanted w with
                  | (some e, w) => (.error e, w)
                  | (none, w) => (sortedIds (dictKeys plan.wanted), w)

end Apply

section Converging

variable [Unicode]

/-- What `apply` does. If it returns, the list names exactly the enabled shares, each has a
    record at its resolved path, read-only exactly when asked, and every other record is as
    it was; if it raises one of two errors, all is unchanged; and provided the helper did
    not refuse to unpublish, no share it published that was to be read-only is left
    writable. -/
structure Converges (env : SharingEnv) (config : Config) (grant : Option (List UInt8))
    (w w' : ServedShares) (r : Except Exc (List (Option Str))) : Prop where
  names : ∀ served, r = .ok served → ∀ name, name ∈ w'.ledger ↔
    ∃ s ∈ config.shares, s.isEnabled = true ∧ s.name = some name
  shares : ∀ served, r = .ok served → ∀ s ∈ config.shares, s.isEnabled = true →
    ∃ name facts record, s.name = some name ∧ factsFor env s = .ok facts ∧
      w'.records name = some record ∧ record.path = facts.resolved ∧
        record.readOnly = s.readOnly.getD false
  others : ∀ served, r = .ok served → ∀ name, name ∉ w.ledger → name ∉ w'.ledger →
    w'.records name = w.records name
  unchanged : ∀ e, r = .error (.smbpal e) →
    (e.code = .alreadyExists ∨ ∃ right, e.code = .needsAuthorisation right) →
      w'.records = w.records ∧ w'.ledger = w.ledger
  readOnly : w'.unpublishFailed = false → ∀ s ∈ config.shares, s.isEnabled = true →
    s.readOnly = some true → ∀ name, s.name = some name → name ∈ w'.published →
      ∀ record, w'.records name = some record → record.readOnly = true

omit [Unicode] in
/-- The names the helper is asked to publish: up to the first it refuses. -/
def attempted (env : SharingEnv) (wanted : Wanted) : List (Option Str) → List (Option Str)
  | [] => []
  | name :: names =>
      name :: if (publishOutcome env wanted name).isOk then attempted env wanted names else []

omit [Unicode] in
/-- A publishing is refused, a record is at another folder, or the sharepoints cannot be
    read. -/
def StopsShort (env : SharingEnv) (plan : ApplyPlan) : Prop :=
  (∃ name ∈ plan.missing, (publishOutcome env plan.wanted name).isOk = false) ∨
    env.list 1 ≠ none ∨
    (∃ name ∈ plan.missing, ∃ record, (publishOutcome env plan.wanted name).left = some record ∧
      record.path ≠ (dictGet plan.wanted name).bind Prod.fst) ∨
    env.list 2 ≠ none

omit [Unicode] in
/-- Among these names one that was to be read-only came back writable. -/
def CameWritable (env : SharingEnv) (plan : ApplyPlan) (names : List (Option Str)) : Prop :=
  ∃ name ∈ names, asksReadOnly plan.wanted name = true ∧
    ∃ record, (publishOutcome env plan.wanted name).left = some record ∧ record.readOnly = false

omit [Unicode] in
/-- One that was to be writable came back read-only. -/
def CameReadOnly (env : SharingEnv) (plan : ApplyPlan) : Prop :=
  ∃ name ∈ plan.missing, asksReadOnly plan.wanted name = false ∧
    ∃ record, (publishOutcome env plan.wanted name).left = some record ∧ record.readOnly = true

omit [Unicode] in
/-- Each share is published at its own folder; two that have no id are told apart by
    nothing. -/
def OwnFolders (env : SharingEnv) (config : Config) (plan : ApplyPlan) : Prop :=
  ∀ s ∈ config.shares, s.isEnabled = true → ∃ facts, factsFor env s = .ok facts ∧
    (dictGet plan.wanted s.name).bind Prod.fst = facts.resolved

/-- Where `apply` gets to publishing: if it stops short, none of what it asked to publish
    came back writable that was to be read-only; and if it does not, one did, or none came
    back read-only that was to be writable and each is at its own folder. -/
def ConvergesWhen (env : SharingEnv) (config : Config) (grant : Option (List UInt8))
    (w : ServedShares) : Prop :=
  ∀ plan, applyPlan env config grant w = .ok plan →
    (∀ name ∈ plan.stale, (env.unpublish name).isOk = true) →
      (StopsShort env plan → ¬CameWritable env plan (attempted env plan.wanted plan.missing)) ∧
        (¬StopsShort env plan → CameWritable env plan plan.missing ∨
          ¬CameReadOnly env plan ∧ OwnFolders env config plan)

end Converging

end Smbpal
