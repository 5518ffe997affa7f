import Smbpal.Config.Schema
import Smbpal.Python.Loads
import Mathlib.Data.List.Sort

/-!
# The Config as JSON

`config/schema.py` on what `json.loads` returned: every check, with what it makes of a
value of the wrong type. `Smbpal.Config.Schema` has the same checks on a document whose
types are right, and what is a string here is checked there.

Almost every check returns on `None` before it looks any further, so a field that is
`null` passes it, a required one as well: only the absence of its key is a problem. One
check asks whether a value is in a set before it knows what the value is, and a list or
an object has no hash. And a problem that shows the value takes its `repr`, or the `str`
of a version: there is none of a number with too many digits, or of what is nested too
deeply.

## Main definitions

* `kindOf`: `_kind`.
* `checkKeys`: `_check_keys`.
* `checkMember`: A check that `None` passes.
* `representable`, `checkShown`: A check that `None` passes, and that shows what it
  refuses.
* `validateShareObject`, `validateConnectionObject`: The elements.
* `validateObjects`: `_validate_list`.
* `validateDocument`: `validate`, on any JSON.
* `toConfig`: The typed records of a document.
-/

namespace Smbpal

/-- The members of an object. -/
abbrev Members := List (Str × Json)

/-- `_kind`. -/
def kindOf : Json → Str
  | .null => str "null"
  | .bool _ => str "a boolean"
  | .int _ => str "a number"
  | .float _ => str "a number"
  | .string _ => str "a string"
  | .array _ => str "a list"
  | .object _ => str "an object"

/-- `_SHARE_KEYS`. -/
def shareKeys : List Str :=
  [str "type", str "id", str "name", str "path", str "read_only", str "credential_ref",
    str "enabled"]

/-- `_CONNECTION_KEYS`. -/
def connectionKeys : List Str :=
  [str "type", str "id", str "host", str "share", str "mountpoint", str "credential_ref",
    str "auto_connect", str "owner", str "fallback_host", str "credential_account",
    str "keychain_credential", str "disconnected"]

/-- `_TOP_KEYS`. -/
def topKeys : List Str :=
  [str "version", str "shares", str "connections"]

/-- The string a member is. -/
def textMember (members : Members) (key : String) : Option Str :=
  match getMember members key with
  | some (.string s) => some s
  | _ => none

/-- The boolean a member is. -/
def boolMember (members : Members) (key : String) : Option Bool :=
  match getMember members key with
  | some (.bool b) => some b
  | _ => none

/-- The text of a string. Anything else stands as the empty one, which the checks that
    use this refuse in the same words. -/
def textOf : Json → Str
  | .string s => s
  | _ => []

/-- A check that `None` passes, and so does a key that is not there. -/
def checkMember (value : Option Json) (check : Json → List Problem) : List Problem :=
  match value with
  | none => []
  | some .null => []
  | some v => check v

/-- The first thing the checks of a name, a host and a path ask. -/
def checkText (location : Str) (value : Option Json) (check : Option Str → List Problem) :
    List Problem :=
  checkMember value fun v =>
    match v with
    | .string s => check (some s)
    | v => [{ location := location, message := str "expected a string, got " ++ kindOf v }]

/-- `_check_optional_bool`. -/
def checkOptionalBool (location : Str) (value : Option Json) : List Problem :=
  checkMember value fun v =>
    match v with
    | .bool _ => []
    | v => [{ location := location
              message := str "expected true or false, got " ++ kindOf v }]

mutual

/-- Whether `repr` returns, with room for so many lists and objects inside each other. -/
def representable : Nat → Json → Bool
  | _, .null => true
  | _, .bool _ => true
  | _, .int n => decide ((digits n.natAbs).length ≤ maxStrDigits)
  | _, .float _ => true
  | _, .string _ => true
  | levels, .array items => decide (0 < levels) && representableItems (levels - 1) items
  | levels, .object members => decide (0 < levels) && representableMembers (levels - 1) members

/-- The same of the items of a list. -/
def representableItems : Nat → List Json → Bool
  | _, [] => true
  | levels, v :: vs => representable levels v && representableItems levels vs

/-- The same of the values of an object. -/
def representableMembers : Nat → List (Str × Json) → Bool
  | _, [] => true
  | levels, (_, v) :: ms => representable levels v && representableMembers levels ms

end

/-- `repr`, or what it raises. -/
def reprOf [JsonText] (v : Json) : Except Exc Str :=
  if representable reprLevels v then .ok (reprJson v) else .error .exception

/-- A check that `None` passes, and that shows what it refuses. -/
def checkShown [JsonText] (location : Str) (value : Option Json) (accepts : Json → Bool)
    (message : Str → Str) : Except Exc (List Problem) :=
  match value with
  | none => .ok []
  | some .null => .ok []
  | some v =>
      if accepts v then .ok []
      else do
        let text ← reprOf v
        pure [{ location := location, message := message text }]

section Validation

variable [Unicode] [JsonText]

omit [JsonText] in
/-- `_check_keys`; the required keys are given in their order. -/
def checkKeys (location : Str) (members : Members) (allowed required : List Str) :
    List Problem :=
  (((members.map Prod.fst).filter fun key => decide (key ∉ allowed)).insertionSort
      fun a b => strLe a b = true).map
      (fun key =>
        { location := location ++ str "." ++ key, message := str "is not a recognised field" }) ++
    (required.filter fun key => decide (key ∉ members.map Prod.fst)).map fun key =>
      { location := location, message := str "is missing required field " ++ repr key }

/-- Whether a value is this string. -/
def isText (s : Str) : Json → Bool
  | .string t => decide (t = s)
  | _ => false

omit [Unicode] in
/-- `_check_type_discriminator`. -/
def checkTypeDiscriminator (location : Str) (members : Members) : Except Exc (List Problem) :=
  checkShown (location ++ str ".type") (getMember members "type") (isText (str "os"))
    fun text => str "is " ++ text ++ str "; Phase 1 supports only 'os'"

omit [JsonText] in
/-- The checks of a share behind that of its type. -/
def checkShareFields (location : Str) (m : Members) : List Problem :=
  checkMember (getMember m "id") (fun v => checkId location (some (textOf v))) ++
    checkText (location ++ str ".name") (getMember m "name")
      (checkServedShareName (location ++ str ".name")) ++
    checkText (location ++ str ".path") (getMember m "path")
      (checkAbsolutePath (location ++ str ".path")) ++
    checkOptionalBool (location ++ str ".read_only") (getMember m "read_only") ++
    checkOptionalBool (location ++ str ".enabled") (getMember m "enabled") ++
    checkMember (getMember m "credential_ref")
      (fun v => checkOptionalRef (location ++ str ".credential_ref") (some (textOf v)))

/-- `_validate_share`. -/
def validateShareObject (location : Str) (m : Members) : Except Exc (List Problem) := do
  let discriminator ← checkTypeDiscriminator location m
  pure (checkKeys location m shareKeys [str "id", str "name", str "path", str "type"] ++
    discriminator ++ checkShareFields location m)

omit [Unicode] in
/-- The check of `keychain_credential`, which `_validate_connection` makes itself. A list
    and an object cannot be looked up in a set. -/
def checkKeychain (location : Str) (value : Option Json) : Except Exc (List Problem) :=
  match value with
  | some (.array _) => .error .exception
  | some (.object _) => .error .exception
  | value =>
      checkShown location value (fun v => isText (str "created") v || isText (str "replaced") v)
        fun text => str "expected one of created, replaced, got " ++ text

omit [Unicode] in
/-- The check of `auto_connect`, which `_validate_connection` makes itself. -/
def checkAutoConnectMember (location : Str) (value : Option Json) : Except Exc (List Problem) :=
  checkShown location value (fun v => autoConnectValues.any fun s => isText s v)
    fun text => str "is " ++ text ++ str "; expected one of " ++ join (str ", ") autoConnectValues

omit [JsonText] in
/-- The checks of a connection between that of its type and that of
    `keychain_credential`. -/
def checkConnectionFields (location : Str) (m : Members) : List Problem :=
  checkMember (getMember m "id") (fun v => checkId location (some (textOf v))) ++
    checkText (location ++ str ".host") (getMember m "host")
      (checkHost (location ++ str ".host")) ++
    checkText (location ++ str ".share") (getMember m "share")
      (checkRemoteShareName (location ++ str ".share")) ++
    checkText (location ++ str ".mountpoint") (getMember m "mountpoint")
      (checkAbsolutePath (location ++ str ".mountpoint")) ++
    checkMember (getMember m "credential_ref")
      (fun v => checkOptionalRef (location ++ str ".credential_ref") (some (textOf v))) ++
    checkMember (getMember m "owner")
      (fun v => checkOwner (location ++ str ".owner") (some (textOf v))) ++
    checkText (location ++ str ".fallback_host") (getMember m "fallback_host")
      (checkHost (location ++ str ".fallback_host")) ++
    checkMember (getMember m "credential_account")
      (fun v => checkRemoteAccount (location ++ str ".credential_account") (some (textOf v))) ++
    checkOptionalBool (location ++ str ".disconnected") (getMember m "disconnected")

/-- `_validate_connection`. -/
def validateConnectionObject (location : Str) (m : Members) : Except Exc (List Problem) := do
  let discriminator ← checkTypeDiscriminator location m
  let keychain ← checkKeychain (location ++ str ".keychain_credential")
    (getMember m "keychain_credential")
  let auto ← checkAutoConnectMember (location ++ str ".auto_connect") (getMember m "auto_connect")
  pure (checkKeys location m connectionKeys
      [str "host", str "id", str "mountpoint", str "share", str "type"] ++
    discriminator ++ checkConnectionFields location m ++ keychain ++ auto)

omit [Unicode] [JsonText] in
/-- The loop of `_validate_list`, from an index on. -/
def validateObjects (key : Str) (validator : Str → Members → Except Exc (List Problem)) :
    Nat → List Json → SeenIds → Except Exc (List Problem × SeenIds)
  | _, [], seen => .ok ([], seen)
  | index, .object members :: items, seen => do
      let location := key ++ str "[" ++ digits index ++ str "]"
      let problems ← validator location members
      let unique := checkIdUnique location (textMember members "id") seen
      let rest ← validateObjects key validator (index + 1) items unique.2
      pure (problems ++ unique.1 ++ rest.1, rest.2)
  | index, item :: items, seen => do
      let rest ← validateObjects key validator (index + 1) items seen
      pure ({ location := key ++ str "[" ++ digits index ++ str "]"
              message := str "expected an object, got " ++ kindOf item } :: rest.1, rest.2)

omit [Unicode] [JsonText] in
/-- `_validate_list`. A key that is not there is an empty list. -/
def validateObjectList (doc : Members) (key : String)
    (validator : Str → Members → Except Exc (List Problem)) (seen : SeenIds) :
    Except Exc (List Problem × SeenIds) :=
  match getMember doc key with
  | none => .ok ([], seen)
  | some (.array items) => validateObjects (str key) validator 0 items seen
  | some v =>
      .ok ([{ location := str key, message := str "expected a list, got " ++ kindOf v }], seen)

omit [Unicode] [JsonText] in
/-- The check of `version`. The problem has the number in it, and `str` raises of one with
    too many digits. -/
def checkVersionMember (value : Option Json) : Except Exc (List Problem) :=
  match value with
  | some (.int n) =>
      if checkVersion n = [] ∨ (digits n.natAbs).length ≤ maxStrDigits then .ok (checkVersion n)
      else .error .exception
  | v => .ok [{ location := str "version"
                message := str "expected an integer, got " ++ kindOf (v.getD .null) }]

/-- The loop of `_check_unique_share_names`, on the names that are strings, from an index
    on. -/
def checkUniqueNames : Nat → List (Option Str) → List (Str × Nat) → List Problem
  | _, [], _ => []
  | index, none :: names, seen => checkUniqueNames (index + 1) names seen
  | index, some name :: names, seen =>
      match seen.lookup (lower name) with
      | some first =>
          { location := str "shares[" ++ digits index ++ str "].name"
            message := str "is " ++ repr name ++ str ", which collides with shares[" ++
              digits first ++ str "] — SMB share names are case-insensitive" } ::
            checkUniqueNames (index + 1) names seen
      | none => checkUniqueNames (index + 1) names (seen ++ [(lower name, index)])

/-- The name of an element, when it is an object whose name is a string. -/
def nameOf : Json → Option Str
  | .object members => textMember members "name"
  | _ => none

/-- `_check_unique_share_names`. -/
def checkUniqueShareObjects (shares : Option Json) : List Problem :=
  match shares with
  | some (.array items) => checkUniqueNames 0 (items.map nameOf) []
  | _ => []

/-- `validate`: every problem of any JSON document. -/
def validateDocument (doc : Json) : Except Exc (List Problem) :=
  match doc with
  | .object members => do
      let version ← checkVersionMember (getMember members "version")
      let shares ← validateObjectList members "shares" validateShareObject []
      let connections ← validateObjectList members "connections" validateConnectionObject shares.2
      pure (checkKeys (str "<document>") members topKeys [str "version"] ++ version ++ shares.1 ++
        connections.1 ++ checkUniqueShareObjects (getMember members "shares"))
  | doc =>
      .ok [{ location := str "<document>"
             message := str "expected an object, got " ++ kindOf doc }]

end Validation

/-! ## The typed document -/

/-- The members of a value that is an object. -/
def asObject : Json → Option Members
  | .object m => some m
  | _ => none

/-- The items of the list under a key. -/
def itemsOf (m : Members) (key : String) : List Json :=
  match getMember m key with
  | some (.array items) => items
  | _ => []

/-- The objects of the list under a key. -/
def recordsOf (m : Members) (key : String) : List Members :=
  (itemsOf m key).filterMap asObject

/-- The boolean a value is. -/
def boolOf : Json → Option Bool
  | .bool b => some b
  | _ => none

/-- The record of a share. -/
def shareOf (m : Members) : Share where
  id := textMember m "id"
  name := textMember m "name"
  path := textMember m "path"
  readOnly := boolMember m "read_only"
  credentialRef := textMember m "credential_ref"
  enabled := (getMember m "enabled").map boolOf

/-- The mark that `keychain_credential` is. -/
def keychainMarkOf (value : Option Str) : Option KeychainMark :=
  if value = some (str "created") then some .created
  else if value = some (str "replaced") then some .replaced
  else none

/-- The record of a connection. -/
def connectionOf (m : Members) : Connection where
  id := textMember m "id"
  host := textMember m "host"
  share := textMember m "share"
  mountpoint := textMember m "mountpoint"
  credentialRef := textMember m "credential_ref"
  autoConnect := textMember m "auto_connect"
  owner := textMember m "owner"
  fallbackHost := textMember m "fallback_host"
  credentialAccount := textMember m "credential_account"
  keychainCredential := keychainMarkOf (textMember m "keychain_credential")
  disconnected := boolMember m "disconnected"

/-- The version a value is. -/
def versionOf : Option Json → Int
  | some (.int n) => n
  | _ => 0

/-- The typed records of a document. -/
def toConfig : Json → Config
  | .object m =>
      { version := versionOf (getMember m "version")
        shares := (recordsOf m "shares").map shareOf
        connections := (recordsOf m "connections").map connectionOf }
  | _ => { version := 0, shares := [], connections := [] }

end Smbpal
