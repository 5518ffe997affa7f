import Smbpal.Config.Schema

/-!
# Edits to a Config Document

`config/operations.py`: pure functions from a document to a new one. Every
edit checks what only it can know, builds the new document and validates it
whole.

What the other modules need of an edit is not its text but what it leaves, and
that is one lemma each: `addConnection_ok` and `removeConnection_ok` say what a
successful edit returned and what it made sure of first.

## Main definitions

* `makeId`: An id derived from a name.
* `defaultMountpoint`: Where a connection goes when the caller does not say.
* `addShare`, `removeShare`, `addConnection`, `removeConnection`: The edits.
* `find`: The lookup they share.

## Theorems

* `addConnection_ok`, `removeConnection_ok`: What a successful edit did.
* `addShare_ok`, `removeShare_ok`: The same for shares.
-/

namespace Smbpal

/-- Refuse with the error the culprit gives rise to, if there is one. -/
def refuseIf {α : Type} (culprit : Option α) (error : α → Exc) : Except Exc Unit :=
  match culprit with
  | some a => .error (error a)
  | none => .ok ()

@[simp] theorem refuseIf_eq_ok {α : Type} (culprit : Option α) (error : α → Exc) (u : Unit) :
    refuseIf culprit error = .ok u ↔ culprit = none := by
  cases culprit with
  | none => simp [refuseIf]
  | some a => simp [refuseIf]

/-- A sequence of checks passes when each of them does. -/
theorem except_bind_eq_ok {α β : Type} {x : Except Exc α} {f : α → Except Exc β} {b : β} :
    (x >>= f) = .ok b ↔ ∃ a, x = .ok a ∧ f a = .ok b := by
  cases x with
  | ok a =>
      constructor
      · exact fun h => ⟨a, rfl, h⟩
      · rintro ⟨a', ha', h⟩
        cases ha'
        exact h
  | error e =>
      constructor
      · exact fun h => nomatch h
      · rintro ⟨a', ha', -⟩
        exact nomatch ha'

/-- What is asked of the value of a computation can be decided by running it. -/
instance decidableForallOk {α : Type} (x : Except Exc α) (P : α → Prop) [∀ a, Decidable (P a)] :
    Decidable (∀ a, x = .ok a → P a) :=
  match x with
  | .ok a => decidable_of_iff (P a) ⟨by rintro h _ ⟨⟩; exact h, fun h => h a rfl⟩
  | .error _ => .isTrue fun _ h => nomatch h

/-- Where a platform's file manager expects a network volume to live. -/
structure MountpointStyle where
  root : Str
  perUser : Bool

/-- `STYLES["linux"]`. -/
def linuxStyle : MountpointStyle :=
  { root := str "/media", perUser := true }

/-- `STYLES["darwin"]`. -/
def darwinStyle : MountpointStyle :=
  { root := str "/Volumes", perUser := false }

section Operations

variable [Unicode]

/-- `repr(value)` for a field that may be null. -/
def pyRepr : Option Str → Str
  | some s => repr s
  | none => str "None"

/-- `_volume_name`. -/
def volumeName (share : Str) : Str :=
  let cleaned := strip (stripChar '.' (strip share))
  if cleaned = [] then str "share" else cleaned

/-- The `while` of `default_mountpoint`: the first suffix from `n` on whose
    path is not taken. As many steps as there are taken paths are enough. -/
def freeSuffix (taken : List Str) (path : Nat → Str) : Nat → Nat → Nat
  | 0, n => n
  | fuel + 1, n => if path n ∈ taken then freeSuffix taken path fuel (n + 1) else n

/-- `default_mountpoint`. -/
def defaultMountpoint (share : Str) (owner : Option Str) (taken : List Str) (host : Option Str)
    (style : MountpointStyle) : Except Exc Str :=
  if style.perUser = true ∧ (owner = none ∨ owner = some []) then
    .error <| .detailed .invalidParams (str "cannot work out where to mount this")
      (style.root ++ str ("/<user> needs a local account and this connection " ++
        "has no owner. Pass a mountpoint instead."))
  else
    let base := if style.perUser then style.root ++ str "/" ++ pyStr owner else style.root
    let name := volumeName share
    let onHost := match host with
      | some h => if h = [] then name else name ++ str " on " ++ h
      | none => name
    let path := fun (candidate : Str) => base ++ str "/" ++ candidate
    if path name ∉ taken then
      .ok (path name)
    else if path onHost ∉ taken then
      .ok (path onHost)
    else
      let numbered := fun n => path (onHost ++ str " " ++ digits n)
      .ok (numbered (freeSuffix taken numbered taken.length 2))

/-- What `make_id` keeps of a name. -/
def isSlugChar (c : PyChar) : Bool :=
  isLowerLetter c || isDigit c

/-- The slug of a name, before it is told apart from the ids in use. -/
def slugOf (name : Str) : Str :=
  let slug := (stripChar '-' (replaceRuns (fun c => !isSlugChar c) (chr '-') false
    (lower name))).take 64
  match slug with
  | [] => str "share"
  | c :: _ => if isSlugChar c then slug else str "s" ++ slug

/-- The candidate with a number at its end, cut so that it fits. -/
def suffixed (slug : Str) (suffix : Nat) : Str :=
  slug.take (64 - (digits suffix).length - 1) ++ str "-" ++ digits suffix

/-- `make_id`. -/
def makeId (name : Str) (taken : List Str) : Except Exc Str :=
  let slug := slugOf name
  if slug ∉ taken then
    .ok slug
  else
    match (List.range' 2 998).find? fun suffix => decide (suffixed slug suffix ∉ taken) with
    | some suffix => .ok (suffixed slug suffix)
    | none => .error <| .of .alreadyExists (str "cannot derive a free id from " ++ repr name)

/-- `all_ids`. -/
def allIds (doc : Config) : List Str :=
  doc.ids

/-- The id a record gets: the one asked for, or one derived from `name`. -/
def chooseId (asked : Option Str) (name : Str) (taken : List Str) : Except Exc Str :=
  match asked with
  | some id => if id = [] then makeId name taken else .ok id
  | none => makeId name taken

/-- Refuse an id that is in use. -/
def refuseUsedId (doc : Config) (id : Str) : Except Exc Unit :=
  refuseIf (if id ∈ allIds doc then some id else none) fun id =>
    .of .alreadyExists (str "id " ++ repr id ++ str " is already in use")

/-- `_strip_index`: `shares[2].name` is `name` to whoever adds that share. -/
def stripIndex (key : Str) (index : Nat) (location : Str) : Str :=
  let record := key ++ str "[" ++ digits index ++ str "]"
  if location = record then
    str "this record"
  else if (record ++ str ".").isPrefixOf location then
    location.drop (record.length + 1)
  else
    location

/-- `_find`: on id first, then on the human-facing field without case. -/
def find {α : Type} (idOf secondary : α → Option Str) (items : List α) (ref : Str) : Option Nat :=
  match items.findIdx? fun item => decide (idOf item = some ref) with
  | some index => some index
  | none => items.findIdx? fun item =>
      match secondary item with
      | some value => decide (lower value = lower ref)
      | none => false

/-- What `share.add` asks for. -/
structure NewShare where
  name : Str
  path : Str
  id : Option Str
  readOnly : Bool
  credentialRef : Option Str
  enabled : Bool

/-- `add_share`. -/
def addShare (doc : Config) (args : NewShare) : Except Exc (Config × Share) := do
  refuseIf (doc.shares.find? fun existing =>
      decide (lower (pyStr existing.name) = lower args.name)) fun existing =>
    .detailed .alreadyExists
      (str "a share named " ++ pyRepr existing.name ++ str " is already configured")
      (str ("SMB share names are case-insensitive, so these would be " ++
        "one share to every client."))
  let id ← chooseId args.id args.name (allIds doc)
  refuseUsedId doc id
  let share : Share :=
    { id := some id
      name := some args.name
      path := some args.path
      readOnly := some args.readOnly
      credentialRef := args.credentialRef
      enabled := some (some args.enabled) }
  let result ← validateOrRaise { doc with shares := doc.shares ++ [share] }
    (str "cannot add share " ++ repr args.name) (stripIndex (str "shares") doc.shares.length)
  pure (result, share)

/-- `remove_share`. -/
def removeShare (doc : Config) (ref : Str) : Except Exc (Config × Share) :=
  match find Share.id Share.name doc.shares ref with
  | none => .error <| .of .notFound (str "no share called " ++ repr ref)
  | some index =>
      match doc.shares[index]? with
      | none => .error .exception
      | some removed => do
          let result ← validateOrRaise { doc with shares := doc.shares.eraseIdx index }
            (str "cannot remove share " ++ repr ref) id
          pure (result, removed)

/-- What `connection.add` asks for. -/
structure NewConnection where
  host : Str
  share : Str
  mountpoint : Option Str
  id : Option Str
  credentialRef : Option Str
  autoConnect : Str
  owner : Option Str
  fallbackHost : Option Str
  inUse : Option (List Str)
  style : MountpointStyle

/-- The mountpoint asked for, or one derived. -/
def NewConnection.mountpointIn (args : NewConnection) (doc : Config) : Except Exc Str :=
  match args.mountpoint with
  | some mountpoint => .ok mountpoint
  | none =>
      defaultMountpoint args.share args.owner
        (doc.connections.filterMap Connection.mountpoint ++ args.inUse.getD [])
        (some args.host) args.style

/-- The same host and share, as SMB compares both. -/
def sameShare (host share : Str) (existing : Connection) : Bool :=
  decide (lower (pyStr existing.host) = lower host) &&
    decide (lower (pyStr existing.share) = lower share)

/-- `add_connection`. -/
def addConnection (doc : Config) (args : NewConnection) : Except Exc (Config × Connection) := do
  let mountpoint ← args.mountpointIn doc
  -- The share is looked for first, and then the mountpoint.
  refuseIf (doc.connections.find? (sameShare args.host args.share)) fun existing =>
    .detailed .alreadyExists
      (args.share ++ str " on " ++ args.host ++ str " is already connection " ++
        pyRepr existing.id ++ str ", at " ++ pyStr existing.mountpoint)
      (str ("Remove that one, or give it the credentials it needs, " ++
        "rather than adding a second connection to the same share."))
  refuseIf (doc.connections.find? fun existing =>
      decide (existing.mountpoint = some mountpoint)) fun existing =>
    .detailed .alreadyExists
      (mountpoint ++ str " is already the mountpoint for connection " ++ pyRepr existing.id)
      (str "Two connections on one mountpoint would race each other.")
  -- An id that was asked for is taken as it is, and refused where it is in use.
  let id ← chooseId args.id (args.host ++ str "-" ++ args.share) (allIds doc)
  refuseUsedId doc id
  let connection : Connection :=
    { id := some id
      host := some args.host
      share := some args.share
      mountpoint := some mountpoint
      credentialRef := args.credentialRef
      autoConnect := some args.autoConnect
      owner := args.owner
      fallbackHost := args.fallbackHost
      credentialAccount := none
      keychainCredential := none
      disconnected := none }
  let result ← validateOrRaise { doc with connections := doc.connections ++ [connection] }
    (str "cannot add connection to //" ++ args.host ++ str "/" ++ args.share)
    (stripIndex (str "connections") doc.connections.length)
  pure (result, connection)

/-- `remove_connection`. -/
def removeConnection (doc : Config) (ref : Str) : Except Exc (Config × Connection) :=
  match find Connection.id Connection.mountpoint doc.connections ref with
  | none => .error <| .of .notFound (str "no connection called " ++ repr ref)
  | some index =>
      match doc.connections[index]? with
      | none => .error .exception
      | some removed => do
          let result ← validateOrRaise { doc with connections := doc.connections.eraseIdx index }
            (str "cannot remove connection " ++ repr ref) id
          pure (result, removed)

/-- What a successful `add_connection` made sure of, and what it returned. -/
structure Added (doc : Config) (args : NewConnection) (doc' : Config) (c : Connection) : Prop where
  result : doc' = { doc with connections := doc.connections ++ [c] }
  valid : doc'.Valid
  host : c.host = some args.host
  share : c.share = some args.share
  mountpoint : ∃ mountpoint, args.mountpointIn doc = .ok mountpoint ∧ c.mountpoint = some mountpoint
  id : ∃ id, c.id = some id ∧ id ∉ doc.ids
  credentialRef : c.credentialRef = args.credentialRef
  fallbackHost : c.fallbackHost = args.fallbackHost
  noAccount : c.credentialAccount = none
  noMark : c.keychainCredential = none
  sameShare : ∀ e ∈ doc.connections,
    ¬ (lower (pyStr e.host) = lower args.host ∧ lower (pyStr e.share) = lower args.share)
  samePath : ∀ e ∈ doc.connections, e.mountpoint ≠ c.mountpoint

theorem addConnection_ok {doc doc' : Config} {args : NewConnection} {c : Connection}
    (h : addConnection doc args = .ok (doc', c)) : Added doc args doc' c := by
  unfold addConnection refuseUsedId at h
  rcases except_bind_eq_ok.mp h with ⟨mountpoint, hmount, h⟩
  rcases except_bind_eq_ok.mp h with ⟨_, hshare, h⟩
  rcases except_bind_eq_ok.mp h with ⟨_, hpath, h⟩
  rcases except_bind_eq_ok.mp h with ⟨id, -, h⟩
  rcases except_bind_eq_ok.mp h with ⟨_, hid, h⟩
  rcases except_bind_eq_ok.mp h with ⟨result, hvalid, h⟩
  -- What was looked for was not found, for the add went on.
  rw [refuseIf_eq_ok, List.find?_eq_none] at hshare hpath
  rw [refuseIf_eq_ok] at hid
  rw [validateOrRaise_ok] at hvalid
  rcases hvalid with ⟨hvalid, rfl⟩
  cases h
  refine ⟨rfl, hvalid, rfl, rfl, ⟨mountpoint, hmount, rfl⟩, ⟨id, rfl, ?_⟩, rfl, rfl,
    rfl, rfl, ?_, ?_⟩
  · -- The id is one that no record has.
    intro hm
    rw [allIds, if_pos hm] at hid
    exact absurd hid (Option.some_ne_none id)
  · intro e he hboth
    refine hshare e he ?_
    rw [Smbpal.sameShare, hboth.1, hboth.2, decide_eq_true rfl, decide_eq_true rfl]
    rfl
  · intro e he heq
    exact hpath e he (decide_eq_true heq)

/-- What a successful removal returned: one record, and the rest. -/
theorem removeConnection_ok {doc doc' : Config} {ref : Str} {c : Connection}
    (h : removeConnection doc ref = .ok (doc', c)) :
    ∃ before after, doc.connections = before ++ c :: after ∧
      doc' = { doc with connections := before ++ after } ∧ doc'.Valid := by
  unfold removeConnection at h
  split at h
  · exact nomatch h
  · rename_i index _
    split at h
    · exact nomatch h
    · rename_i removed hget
      rcases except_bind_eq_ok.mp h with ⟨result, hvalid, h⟩
      rw [validateOrRaise_ok] at hvalid
      rcases hvalid with ⟨hvalid, rfl⟩
      cases h
      rcases List.getElem?_eq_some_iff.mp hget with ⟨hlt, hget⟩
      refine ⟨doc.connections.take index, doc.connections.drop (index + 1), ?_, ?_, hvalid⟩
      · rw [← hget, ← List.drop_eq_getElem_cons hlt, List.take_append_drop]
      · rw [List.eraseIdx_eq_take_drop_succ]

theorem addShare_ok {doc doc' : Config} {args : NewShare} {s : Share}
    (h : addShare doc args = .ok (doc', s)) :
    doc' = { doc with shares := doc.shares ++ [s] } ∧ doc'.Valid := by
  unfold addShare at h
  rcases except_bind_eq_ok.mp h with ⟨_, -, h⟩
  rcases except_bind_eq_ok.mp h with ⟨id, -, h⟩
  rcases except_bind_eq_ok.mp h with ⟨_, -, h⟩
  rcases except_bind_eq_ok.mp h with ⟨result, hvalid, h⟩
  rw [validateOrRaise_ok] at hvalid
  rcases hvalid with ⟨hvalid, rfl⟩
  cases h
  exact ⟨rfl, hvalid⟩

theorem removeShare_ok {doc doc' : Config} {ref : Str} {s : Share}
    (h : removeShare doc ref = .ok (doc', s)) :
    doc'.connections = doc.connections ∧ doc'.Valid := by
  unfold removeShare at h
  split at h
  · exact nomatch h
  · split at h
    · exact nomatch h
    · rcases except_bind_eq_ok.mp h with ⟨result, hvalid, h⟩
      rw [validateOrRaise_ok] at hvalid
      rcases hvalid with ⟨hvalid, rfl⟩
      cases h
      exact ⟨rfl, hvalid⟩

end Operations

end Smbpal
