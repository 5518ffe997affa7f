import Smbpal.Errors

/-!
# The Config Schema

`config/schema.py`: the stored document and its validation.

A document is kept here as the typed records its JSON stands for once the types
of its fields are right. Two things of the JSON survive, because the schema
lets them through: a required field may be `null` (`_check_id` and its like
return early on `None`, and only an *absent* key is refused), and an optional
one may be absent or `null`, which every reader takes for the same. So both are
an `Option`. The exception is `enabled`, whose readers default to true when it is
absent and find it false when it is `null`.

`validate` returns every problem, each with the path of the field it is about
and its text. `Valid` is what the rest of the development knows about a
document that has none.

## Main definitions

* `Share`, `Connection`, `Config`: The document.
* `Problem`: One failure, addressed the way a user can act on.
* `validate`, `validateOrRaise`: The check.
* `Config.Valid`: A document with no problems.
* `Share.WellFormed`, `Connection.WellFormed`, `Config.Sound`: What that comes
  to, record by record.

## Theorems

* `valid_iff`: A document is valid exactly when its records are well formed,
  no id is used twice, and no two share names agree without case.
* `validateOrRaise_ok`: What passes is what is valid.
* `Config.Sound.connection_unique`: No two connections share an id that is not
  null.
-/

namespace Smbpal

/-- A share this machine serves. -/
structure Share where
  id : Option Str
  name : Option Str
  path : Option Str
  readOnly : Option Bool
  credentialRef : Option Str
  /-- Absent, `null`, or a value. -/
  enabled : Option (Option Bool)
  deriving DecidableEq

/-- `KEYCHAIN_CREDENTIAL_VALUES`. -/
inductive KeychainMark where
  | created
  | replaced
  deriving DecidableEq

/-- A share of another machine that this one mounts. -/
structure Connection where
  id : Option Str
  host : Option Str
  share : Option Str
  mountpoint : Option Str
  credentialRef : Option Str
  autoConnect : Option Str
  owner : Option Str
  fallbackHost : Option Str
  credentialAccount : Option Str
  keychainCredential : Option KeychainMark
  disconnected : Option Bool
  deriving DecidableEq

/-- The stored document. -/
structure Config where
  version : Int
  shares : List Share
  connections : List Connection
  deriving DecidableEq

/-- `AUTO_CONNECT_VALUES`. -/
def autoConnectValues : List Str :=
  [str "always", str "on_this_network", str "never"]

/-- `SCHEMA_VERSION`. -/
def schemaVersion : Int := 1

/-- A valid config with nothing in it: what a first boot loads. -/
def emptyConfig : Config :=
  { version := schemaVersion, shares := [], connections := [] }

/-- `str(value)` for a field that may be null. -/
def pyStr : Option Str → Str
  | some s => s
  | none => str "None"

/-- One validation failure. -/
structure Problem where
  location : Str
  message : Str
  deriving DecidableEq

section Validation

variable [Unicode]

/-- A problem on one field, when the check fails. -/
def problemUnless (ok : Bool) (location message : Str) : List Problem :=
  if ok then [] else [{ location := location, message := message }]

/-- `_ID_RE`. -/
def isId : Str → Bool
  | [] => false
  | c :: s =>
      (isLowerLetter c || isUpperLetter c || isDigit c) &&
        (s.all fun d => isLowerLetter d || isUpperLetter d || isDigit d || oneOf "_-" d) &&
          decide (s.length ≤ 63)

/-- The POSIX user names `_check_owner` admits. -/
def isOwner : Str → Bool
  | [] => false
  | c :: s =>
      (isLowerLetter c || decide (c = chr '_')) &&
        (s.all fun d => isLowerLetter d || isDigit d || oneOf "_-" d) && decide (s.length ≤ 31)

/-- The characters of a literal that occur in a string, in the literal's order. -/
def forbiddenIn (forbidden : String) (value : Str) : Str :=
  (str forbidden).filter fun c => decide (c ∈ value)

/-- The `repr` of each character, separated by commas. -/
def reprAll (bad : Str) : Str :=
  join (str ", ") (bad.map fun c => repr [c])

/-- `_SHARE_NAME_FORBIDDEN`, in code point order. -/
def shareNameForbidden : String := "\x00\t\n\r\"$%'/:;[\\]`"

/-- `_REMOTE_SHARE_NAME_FORBIDDEN`, in code point order. -/
def remoteShareNameForbidden : String := "\x00\t\n\r%/\\"

/-- `_HOST_FORBIDDEN`, in code point order. -/
def hostForbidden : String := "\x00\t\n\r \"$%'/[\\]`"

/-- `RESERVED_SHARE_NAMES`. -/
def reservedShareNames : List Str :=
  [str "global", str "homes", str "printers", str "print$"]

/-- A check that lets null through. -/
def checkPresent (value : Option Str) (check : Str → List Problem) : List Problem :=
  match value with
  | none => []
  | some v => check v

/-- A string field that must not be empty, too long, or hold a forbidden
    character, with the text that follows the characters found. -/
def checkName (location : Str) (longest : Nat) (forbidden : String) (tail : Str) (value : Str) :
    List Problem :=
  if value = [] then
    [{ location := location, message := str "must not be empty" }]
  else
    problemUnless (decide (value.length ≤ longest)) location
        (str "is longer than " ++ digits longest ++ str " characters") ++
      problemUnless (decide (forbiddenIn forbidden value = [])) location
        (str "contains " ++ reprAll (forbiddenIn forbidden value) ++ tail)

/-- `_check_share_name` for a share SMBPal publishes. -/
def checkServedShareName (location : Str) (value : Option Str) : List Problem :=
  checkPresent value fun v =>
    checkName location 80 shareNameForbidden
        (str (". A share name is written into a section header, so a " ++
          "newline in it is arbitrary smb.conf.")) v ++
      problemUnless (decide (v = []) || decide (lower v ∉ reservedShareNames)) location
        (str "is " ++ repr v ++ str ", which Samba reserves for its own section")

/-- `_check_share_name` for a share SMBPal mounts. -/
def checkRemoteShareName (location : Str) (value : Option Str) : List Problem :=
  checkPresent value <| checkName location 80 remoteShareNameForbidden
    (str ". A mount unit's What= carries this value, and systemd reads '%' in it as a specifier.")

/-- `_check_host`. -/
def checkHost (location : Str) (value : Option Str) : List Problem :=
  checkPresent value <| checkName location 253 hostForbidden []

/-- `_check_absolute_path`. -/
def checkAbsolutePath (location : Str) (value : Option Str) : List Problem :=
  checkPresent value fun v =>
    if startsWith v "/" then
      problemUnless (decide (chr '\x00' ∉ v)) location (str "contains a NUL byte") ++
        problemUnless (decide (chr '\n' ∉ v ∧ chr '\r' ∉ v)) location
          (str "contains a newline, which would break every file we write") ++
        problemUnless (decide (str ".." ∉ splitChar '/' v)) location
          (str ("contains a '..' component. Store the resolved path so that what is " ++
            "validated is what is used."))
    else
      [{ location := location
         message := str "is " ++ repr v ++ str "; must be an absolute path" }]

/-- `_check_id`. -/
def checkId (location : Str) (value : Option Str) : List Problem :=
  checkPresent value fun v =>
    problemUnless (isId v) (location ++ str ".id")
      (str ("must be 1-64 characters of letters, digits, '-' or '_', starting " ++
        "with a letter or digit. Ids become systemd unit names and file " ++
        "paths, so anything else is a way out of them."))

/-- `_check_owner`. -/
def checkOwner (location : Str) (value : Option Str) : List Problem :=
  checkPresent value fun v =>
    problemUnless (isOwner v) location (str "must be null or a POSIX user name")

/-- A control character, as `_check_remote_account` has it. -/
def isControl (c : PyChar) : Bool :=
  decide (ord c < 0x20) || decide (ord c = 0x7F)

/-- `_check_remote_account`. -/
def checkRemoteAccount (location : Str) (value : Option Str) : List Problem :=
  checkPresent value fun v =>
    if v = [] then
      [{ location := location, message := str "must be null or a non-empty account name" }]
    else
      problemUnless (!v.any isControl) location (str "must not contain a control character")

/-- `_check_optional_ref`. -/
def checkOptionalRef (location : Str) (value : Option Str) : List Problem :=
  checkPresent value fun v =>
    problemUnless (isId v) location
      (str ("must be null or a reference of letters, digits, '-' or '_'. " ++
        "It names a credential; it never holds one."))

/-- The check of `auto_connect`, which `_validate_connection` makes itself. -/
def checkAutoConnect (location : Str) (value : Option Str) : List Problem :=
  checkPresent value fun v =>
    problemUnless (decide (v ∈ autoConnectValues)) location
      (str "is " ++ repr v ++ str "; expected one of " ++ join (str ", ") autoConnectValues)

/-- `_validate_share`. -/
def validateShare (location : Str) (s : Share) : List Problem :=
  checkId location s.id ++
    checkServedShareName (location ++ str ".name") s.name ++
    checkAbsolutePath (location ++ str ".path") s.path ++
    checkOptionalRef (location ++ str ".credential_ref") s.credentialRef

/-- `_validate_connection`. -/
def validateConnection (location : Str) (c : Connection) : List Problem :=
  checkId location c.id ++
    checkHost (location ++ str ".host") c.host ++
    checkRemoteShareName (location ++ str ".share") c.share ++
    checkAbsolutePath (location ++ str ".mountpoint") c.mountpoint ++
    checkOptionalRef (location ++ str ".credential_ref") c.credentialRef ++
    checkOwner (location ++ str ".owner") c.owner ++
    checkHost (location ++ str ".fallback_host") c.fallbackHost ++
    checkRemoteAccount (location ++ str ".credential_account") c.credentialAccount ++
    checkAutoConnect (location ++ str ".auto_connect") c.autoConnect

/-- The ids seen so far, each with where. -/
abbrev SeenIds := List (Str × Str)

/-- `_check_id_unique`: the problem, and the ids seen from here on. -/
def checkIdUnique (location : Str) (id : Option Str) (seen : SeenIds) : List Problem × SeenIds :=
  match id with
  | none => ([], seen)
  | some v =>
      match seen.lookup v with
      | some first =>
          ([{ location := location ++ str ".id"
              message := str "duplicates the id already used by " ++ first }], seen)
      | none => ([], seen ++ [(v, location)])

/-- `_validate_list`, from an index on. -/
def validateList {α : Type} (key : Str) (validator : Str → α → List Problem)
    (idOf : α → Option Str) : Nat → List α → SeenIds → List Problem × SeenIds
  | _, [], seen => ([], seen)
  | index, item :: items, seen =>
      let location := key ++ str "[" ++ digits index ++ str "]"
      let unique := checkIdUnique location (idOf item) seen
      let rest := validateList key validator idOf (index + 1) items unique.2
      (validator location item ++ unique.1 ++ rest.1, rest.2)

/-- `_check_unique_share_names`, from an index on. -/
def checkUniqueShareNames : Nat → List Share → List (Str × Nat) → List Problem
  | _, [], _ => []
  | index, share :: shares, seen =>
      match share.name with
      | none => checkUniqueShareNames (index + 1) shares seen
      | some name =>
          match seen.lookup (lower name) with
          | some first =>
              { location := str "shares[" ++ digits index ++ str "].name"
                message := str "is " ++ repr name ++ str ", which collides with shares[" ++
                  digits first ++ str "] — SMB share names are case-insensitive" } ::
                checkUniqueShareNames (index + 1) shares seen
          | none => checkUniqueShareNames (index + 1) shares (seen ++ [(lower name, index)])

/-- The version's own check. -/
def checkVersion (version : Int) : List Problem :=
  if schemaVersion < version then
    [{ location := str "version"
       message := str "is " ++ digits version.toNat ++ str ", but this SMBPal understands up to " ++
         digits schemaVersion.toNat ++
         str (". This file was written by a newer version — upgrade rather than " ++
           "editing it down.") }]
  else if version < 1 then
    [{ location := str "version"
       message := str "is " ++ (if version < 0 then str "-" else []) ++ digits version.natAbs ++
         str "; the first schema version is 1" }]
  else []

/-- `validate`: every problem, not the first. -/
def validate (doc : Config) : List Problem :=
  let shares := validateList (str "shares") validateShare Share.id 0 doc.shares []
  let connections :=
    validateList (str "connections") validateConnection Connection.id 0 doc.connections shares.2
  checkVersion doc.version ++ shares.1 ++ connections.1 ++ checkUniqueShareNames 0 doc.shares []

/-- `validate_or_raise`: the document, or every problem with it. -/
def validateOrRaise (doc : Config) (source : Str) (relabel : Str → Str) : Except Exc Config :=
  let problems := validate doc
  if problems = [] then
    .ok doc
  else
    let lines := problems.map fun p => str "  - " ++ relabel p.location ++ str ": " ++ p.message
    .error <| .detailed .configInvalid source <|
      digits problems.length ++ str " problem" ++
        (if problems.length = 1 then [] else str "s") ++ str ":\n" ++ join (str "\n") lines

/-- A document with no problems. -/
def Config.Valid (doc : Config) : Prop :=
  validate doc = []

instance (doc : Config) : Decidable doc.Valid :=
  inferInstanceAs (Decidable (validate doc = []))

/-- A field that is null or satisfies `P`. -/
def NullOr (P : Str → Prop) (value : Option Str) : Prop :=
  ∀ v, value = some v → P v

omit [Unicode] in
theorem nullOr_congr {P Q : Str → Prop} {value : Option Str} (h : ∀ v, P v ↔ Q v) :
    NullOr P value ↔ NullOr Q value :=
  forall_congr' fun v => imp_congr_right fun _ => h v

/-- What `checkName` admits. -/
structure IsName (longest : Nat) (forbidden : String) (v : Str) : Prop where
  nonempty : v ≠ []
  short : v.length ≤ longest
  clean : forbiddenIn forbidden v = []

/-- What `_check_absolute_path` admits. -/
structure IsPath (v : Str) : Prop where
  absolute : startsWith v "/" = true
  noNul : chr '\x00' ∉ v
  noLine : chr '\n' ∉ v ∧ chr '\r' ∉ v
  resolved : str ".." ∉ splitChar '/' v

/-- What `_check_remote_account` admits. -/
structure IsAccount (v : Str) : Prop where
  nonempty : v ≠ []
  printable : v.any isControl = false

instance (v : Str) : Decidable (IsAccount v) :=
  decidable_of_iff (v ≠ [] ∧ v.any isControl = false)
    ⟨fun h => ⟨h.1, h.2⟩, fun h => ⟨h.nonempty, h.printable⟩⟩

/-- What the schema asks of one share. -/
structure Share.WellFormed (s : Share) : Prop where
  id : NullOr (fun v => isId v = true) s.id
  name : NullOr (fun v => IsName 80 shareNameForbidden v ∧ lower v ∉ reservedShareNames) s.name
  path : NullOr IsPath s.path
  credentialRef : NullOr (fun v => isId v = true) s.credentialRef

/-- What the schema asks of one connection. -/
structure Connection.WellFormed (c : Connection) : Prop where
  id : NullOr (fun v => isId v = true) c.id
  host : NullOr (IsName 253 hostForbidden) c.host
  share : NullOr (IsName 80 remoteShareNameForbidden) c.share
  mountpoint : NullOr IsPath c.mountpoint
  credentialRef : NullOr (fun v => isId v = true) c.credentialRef
  owner : NullOr (fun v => isOwner v = true) c.owner
  fallbackHost : NullOr (IsName 253 hostForbidden) c.fallbackHost
  credentialAccount : NullOr IsAccount c.credentialAccount
  autoConnect : NullOr (fun v => v ∈ autoConnectValues) c.autoConnect

omit [Unicode] in
/-- What a name of the schema keeps out. -/
theorem IsName.not_mem {longest : Nat} {forbidden : String} {v : Str} {c : PyChar}
    (h : IsName longest forbidden v) (hc : c ∈ str forbidden) : c ∉ v := by
  intro hv
  have hmem : c ∈ forbiddenIn forbidden v :=
    List.mem_filter.mpr ⟨hc, decide_eq_true hv⟩
  rw [h.clean] at hmem
  exact absurd hmem List.not_mem_nil

/-- The characters of an id. -/
def isIdChar (c : PyChar) : Bool :=
  isLowerLetter c || isUpperLetter c || isDigit c || oneOf "_-" c

omit [Unicode] in
theorem isId_ne_nil {v : Str} (h : isId v = true) : v ≠ [] := by
  rintro rfl
  exact Bool.false_ne_true h

omit [Unicode] in
theorem isId_chars {v : Str} (h : isId v = true) : ∀ c ∈ v, isIdChar c = true := by
  intro d hd
  cases v with
  | nil => exact absurd hd List.not_mem_nil
  | cons c s =>
      rw [isId, Bool.and_eq_true, Bool.and_eq_true] at h
      rcases List.mem_cons.mp hd with rfl | hd
      · exact Bool.or_eq_true _ _ |>.mpr (Or.inl h.1.1)
      · exact List.all_eq_true.mp h.1.2 _ hd

omit [Unicode] in
/-- Letters, digits, a dash and an underscore. -/
theorem isIdChar_ord {c : PyChar} (h : isIdChar c = true) :
    97 ≤ ord c ∧ ord c ≤ 122 ∨ 65 ≤ ord c ∧ ord c ≤ 90 ∨ 48 ≤ ord c ∧ ord c ≤ 57 ∨
      ord c = 95 ∨ ord c = 45 := by
  rw [isIdChar, Bool.or_eq_true, Bool.or_eq_true, Bool.or_eq_true] at h
  rcases h with ((h | h) | h) | h
  · cases c with
    | surrogate n => exact nomatch h
    | scalar d =>
        rw [isLowerLetter, Bool.and_eq_true, decide_eq_true_eq, decide_eq_true_eq] at h
        exact Or.inl h
  · cases c with
    | surrogate n => exact nomatch h
    | scalar d =>
        rw [isUpperLetter, Bool.and_eq_true, decide_eq_true_eq, decide_eq_true_eq] at h
        exact Or.inr (Or.inl h)
  · cases c with
    | surrogate n => exact nomatch h
    | scalar d =>
        rw [isDigit, Bool.and_eq_true, decide_eq_true_eq, decide_eq_true_eq] at h
        exact Or.inr (Or.inr (Or.inl h))
  · -- What is left is a dash or an underscore.
    have hmem := of_decide_eq_true h
    have hall : ∀ d ∈ str "_-", ord d = 95 ∨ ord d = 45 := by decide
    exact Or.inr (Or.inr (Or.inr (hall c hmem)))

omit [Unicode] in
@[simp] theorem problemUnless_eq_nil (ok : Bool) (location message : Str) :
    problemUnless ok location message = [] ↔ ok = true := by
  unfold problemUnless
  cases ok with
  | true => simp
  | false => simp

omit [Unicode] in
@[simp] theorem checkPresent_eq_nil (value : Option Str) (check : Str → List Problem) :
    checkPresent value check = [] ↔ NullOr (fun v => check v = []) value := by
  cases value with
  | none => simp [checkPresent, NullOr]
  | some v => simp [checkPresent, NullOr]

theorem checkName_eq_nil (location : Str) (longest : Nat) (forbidden : String) (tail v : Str) :
    checkName location longest forbidden tail v = [] ↔ IsName longest forbidden v := by
  unfold checkName
  by_cases hv : v = []
  · rw [if_pos hv]
    exact ⟨fun h => absurd h (List.cons_ne_nil _ _), fun h => absurd hv h.nonempty⟩
  · rw [if_neg hv, List.append_eq_nil_iff, problemUnless_eq_nil, problemUnless_eq_nil,
      decide_eq_true_eq, decide_eq_true_eq]
    exact ⟨fun h => ⟨hv, h.1, h.2⟩, fun h => ⟨h.short, h.clean⟩⟩

theorem checkAbsolutePath_eq_nil (location : Str) (value : Option Str) :
    checkAbsolutePath location value = [] ↔ NullOr IsPath value := by
  unfold checkAbsolutePath
  rw [checkPresent_eq_nil]
  refine nullOr_congr fun v => ?_
  by_cases habs : startsWith v "/" = true
  · rw [if_pos habs, List.append_eq_nil_iff, List.append_eq_nil_iff]
    simp only [problemUnless_eq_nil, decide_eq_true_eq]
    exact ⟨fun h => ⟨habs, h.1.1, h.1.2, h.2⟩, fun h => ⟨⟨h.noNul, h.noLine⟩, h.resolved⟩⟩
  · rw [if_neg habs]
    exact ⟨fun h => absurd h (List.cons_ne_nil _ _), fun h => absurd h.absolute habs⟩

omit [Unicode] in
theorem checkRemoteAccount_eq_nil (location : Str) (value : Option Str) :
    checkRemoteAccount location value = [] ↔ NullOr IsAccount value := by
  unfold checkRemoteAccount
  rw [checkPresent_eq_nil]
  refine nullOr_congr fun v => ?_
  by_cases hv : v = []
  · rw [if_pos hv]
    exact ⟨fun h => absurd h (List.cons_ne_nil _ _), fun h => absurd hv h.nonempty⟩
  · rw [if_neg hv, problemUnless_eq_nil, Bool.not_eq_true']
    exact ⟨fun h => ⟨hv, h⟩, fun h => h.printable⟩

theorem validateShare_eq_nil (location : Str) (s : Share) :
    validateShare location s = [] ↔ s.WellFormed := by
  unfold validateShare checkId checkServedShareName checkOptionalRef
  simp only [List.append_eq_nil_iff, checkPresent_eq_nil, checkAbsolutePath_eq_nil,
    problemUnless_eq_nil, checkName_eq_nil, Bool.or_eq_true, decide_eq_true_eq]
  constructor
  · rintro ⟨⟨⟨hid, hname⟩, hpath⟩, href⟩
    refine ⟨hid, fun v hv => ⟨(hname v hv).1, ?_⟩, hpath, href⟩
    exact (hname v hv).2.resolve_left (hname v hv).1.nonempty
  · intro h
    exact ⟨⟨⟨h.id, fun v hv => ⟨(h.name v hv).1, Or.inr (h.name v hv).2⟩⟩, h.path⟩,
      h.credentialRef⟩

theorem validateConnection_eq_nil (location : Str) (c : Connection) :
    validateConnection location c = [] ↔ c.WellFormed := by
  unfold validateConnection checkId checkHost checkRemoteShareName checkOptionalRef checkOwner
    checkAutoConnect
  simp only [List.append_eq_nil_iff, checkPresent_eq_nil, checkAbsolutePath_eq_nil,
    checkRemoteAccount_eq_nil, problemUnless_eq_nil, checkName_eq_nil, decide_eq_true_eq]
  constructor
  · rintro ⟨⟨⟨⟨⟨⟨⟨⟨hid, hhost⟩, hshare⟩, hpath⟩, href⟩, howner⟩, hfallback⟩, haccount⟩, hauto⟩
    exact ⟨hid, hhost, hshare, hpath, href, howner, hfallback, haccount, hauto⟩
  · intro h
    exact ⟨⟨⟨⟨⟨⟨⟨⟨h.id, h.host⟩, h.share⟩, h.mountpoint⟩, h.credentialRef⟩, h.owner⟩,
      h.fallbackHost⟩, h.credentialAccount⟩, h.autoConnect⟩

omit [Unicode] in
theorem lookup_eq_none_iff_keys {β : Type} (seen : List (Str × β)) (v : Str) :
    seen.lookup v = none ↔ v ∉ seen.map Prod.fst := by
  induction seen with
  | nil => simp
  | cons p seen ih =>
      rcases p with ⟨k, w⟩
      rw [List.lookup_cons, List.map_cons, List.mem_cons, not_or]
      by_cases hk : v = k
      · simp [hk]
      · rw [show (v == k) = false from beq_false_of_ne hk]
        simp only [ih, hk, not_false_eq_true, true_and]

omit [Unicode] in
/-- `_validate_list` finds nothing when every item passes and no id is taken,
    and then the ids it has seen are those of the list as well. -/
theorem validateList_eq_nil {α : Type} (key : Str) (validator : Str → α → List Problem)
    (idOf : α → Option Str) (P : α → Prop) (hP : ∀ location a, validator location a = [] ↔ P a)
    (index : Nat) (items : List α) (seen : SeenIds) :
    ((validateList key validator idOf index items seen).1 = [] ↔
      (∀ a ∈ items, P a) ∧ (items.filterMap idOf).Nodup ∧
        ∀ v ∈ items.filterMap idOf, v ∉ seen.map Prod.fst) ∧
    ((validateList key validator idOf index items seen).1 = [] →
      (validateList key validator idOf index items seen).2.map Prod.fst =
        seen.map Prod.fst ++ items.filterMap idOf) := by
  induction items generalizing index seen with
  | nil => simp [validateList]
  | cons a items ih =>
      simp only [validateList, List.append_eq_nil_iff, hP, List.mem_cons, forall_eq_or_imp]
      cases hid : idOf a with
      | none =>
          -- A record with no id adds none to those seen.
          rw [List.filterMap_cons_none hid]
          have hu : ∀ location, checkIdUnique location none seen = ([], seen) := fun _ => rfl
          simp only [hu, and_true]
          have := ih (index + 1) seen
          exact ⟨by rw [this.1, and_assoc], fun h => this.2 h.2⟩
      | some v =>
          rw [List.filterMap_cons_some hid]
          by_cases hv : v ∈ seen.map Prod.fst
          · have hlook : ∃ first, seen.lookup v = some first := by
              rw [← Option.isSome_iff_exists, Option.isSome_iff_ne_none, Ne,
                lookup_eq_none_iff_keys, not_not]
              exact hv
            rcases hlook with ⟨first, hlook⟩
            -- An id seen before is a problem of this record.
            simp only [checkIdUnique, hlook, List.cons_ne_nil, and_false, false_and, false_iff,
              not_and, List.mem_cons, forall_eq_or_imp, false_implies, and_true]
            exact fun _ _ h => absurd hv h
          · have hlook : seen.lookup v = none := (lookup_eq_none_iff_keys seen v).mpr hv
            have := ih (index + 1) (seen ++ [(v, key ++ str "[" ++ digits index ++ str "]")])
            simp only [checkIdUnique, hlook, and_true]
            rw [List.map_append] at this
            constructor
            · -- The ids behind it have to differ from this one as well.
              rw [this.1]
              simp only [List.nodup_cons, List.mem_cons, forall_eq_or_imp, List.map_cons,
                List.map_nil, List.mem_append, List.not_mem_nil, or_false, not_or]
              constructor
              · rintro ⟨ha, hall, hnd, hdis⟩
                exact ⟨⟨ha, hall⟩, ⟨fun hm => (hdis v hm).2 rfl, hnd⟩, hv,
                  fun w hw => (hdis w hw).1⟩
              · rintro ⟨⟨ha, hall⟩, ⟨hva, hnd⟩, -, hdis⟩
                refine ⟨ha, hall, hnd, fun w hw => ⟨hdis w hw, fun hwv => ?_⟩⟩
                exact hva (hwv ▸ hw)
            · intro h
              rw [this.2 h.2, List.append_assoc]
              rfl

/-- The ids of the document that are not null, shares first. -/
def Config.ids (doc : Config) : List Str :=
  doc.shares.filterMap Share.id ++ doc.connections.filterMap Connection.id

/-- What validity comes to for everything but the shares' names. -/
structure Config.Sound (doc : Config) : Prop where
  version : doc.version = schemaVersion
  shares : ∀ s ∈ doc.shares, s.WellFormed
  connections : ∀ c ∈ doc.connections, c.WellFormed
  ids : doc.ids.Nodup

theorem valid_iff (doc : Config) :
    doc.Valid ↔ doc.Sound ∧ checkUniqueShareNames 0 doc.shares [] = [] := by
  have hversion : checkVersion doc.version = [] ↔ doc.version = schemaVersion := by
    unfold checkVersion schemaVersion
    split_ifs with h1 h2
    · simp
      omega
    · simp
      omega
    · simp
      omega
  have hs := validateList_eq_nil (str "shares") validateShare Share.id Share.WellFormed
    validateShare_eq_nil 0 doc.shares []
  have hc := validateList_eq_nil (str "connections") validateConnection Connection.id
    Connection.WellFormed validateConnection_eq_nil 0 doc.connections
    (validateList (str "shares") validateShare Share.id 0 doc.shares []).2
  unfold Config.Valid validate
  simp only [List.append_eq_nil_iff, hversion, hc.1, hs.1]
  constructor
  · rintro ⟨⟨⟨hv, hshares⟩, hconns, hnd, hdis⟩, hnames⟩
    -- The connections are checked against the ids of the shares.
    rw [hs.2 (hs.1.mpr hshares), List.map_nil, List.nil_append] at hdis
    refine ⟨⟨hv, hshares.1, hconns, ?_⟩, hnames⟩
    rw [Config.ids, List.nodup_append]
    exact ⟨hshares.2.1, hnd, fun a ha b hb hab => hdis b hb (hab ▸ ha)⟩
  · rintro ⟨⟨hv, hshares, hconns, hids⟩, hnames⟩
    rw [Config.ids, List.nodup_append] at hids
    have hsh : (∀ s ∈ doc.shares, s.WellFormed) ∧ (doc.shares.filterMap Share.id).Nodup ∧
        ∀ v ∈ doc.shares.filterMap Share.id, v ∉ List.map Prod.fst ([] : SeenIds) :=
      ⟨hshares, hids.1, fun _ _ => List.not_mem_nil⟩
    refine ⟨⟨⟨hv, hsh⟩, hconns, hids.2.1, ?_⟩, hnames⟩
    rw [hs.2 (hs.1.mpr hsh), List.map_nil, List.nil_append]
    exact fun v hv hm => hids.2.2 v hm v hv rfl

theorem validateOrRaise_ok {doc doc' : Config} {source : Str} {relabel : Str → Str} :
    validateOrRaise doc source relabel = .ok doc' ↔ doc.Valid ∧ doc' = doc := by
  unfold validateOrRaise Config.Valid
  by_cases h : validate doc = []
  · simp [h, eq_comm]
  · simp [h]

theorem Config.Valid.sound {doc : Config} (h : doc.Valid) : doc.Sound :=
  ((valid_iff doc).mp h).1

/-- A document stays valid when its connections keep their ids and stay well
    formed. -/
theorem Config.Valid.mapConnections {doc : Config} (h : doc.Valid) {f : Connection → Connection}
    (hid : ∀ c, (f c).id = c.id) (hwf : ∀ c ∈ doc.connections, (f c).WellFormed) :
    ({ doc with connections := doc.connections.map f } : Config).Valid := by
  rw [valid_iff] at h ⊢
  rcases h with ⟨hsound, hnames⟩
  refine ⟨⟨hsound.version, hsound.shares, List.forall_mem_map.mpr hwf, ?_⟩, hnames⟩
  have hids : (doc.connections.map f).filterMap Connection.id =
      doc.connections.filterMap Connection.id := by
    rw [List.filterMap_map]
    exact congrArg (fun g => doc.connections.filterMap g) (funext hid)
  unfold Config.ids
  rw [hids]
  exact hsound.ids

omit [Unicode] in
/-- Two members with one value of a field that is nowhere twice are one. -/
theorem eq_of_nodup_filterMap {α β : Type} {f : α → Option β} {l : List α} {a b : α} {v : β}
    (h : (l.filterMap f).Nodup) (ha : a ∈ l) (hb : b ∈ l) (hfa : f a = some v)
    (hfb : f b = some v) : a = b := by
  induction l with
  | nil => exact absurd ha List.not_mem_nil
  | cons first l ih =>
      have htail : (l.filterMap f).Nodup := by
        cases hf : f first with
        | none => rwa [List.filterMap_cons_none hf] at h
        | some w =>
            rw [List.filterMap_cons_some hf] at h
            exact h.of_cons
      have hfirst : f first = some v → v ∉ l.filterMap f := fun hf => by
        rw [List.filterMap_cons_some hf] at h
        exact (List.nodup_cons.mp h).1
      -- The value comes from one element, so the head gives it or the tail does.
      rcases List.mem_cons.mp ha with rfl | ha'
      · rcases List.mem_cons.mp hb with rfl | hb'
        · rfl
        · exact absurd (List.mem_filterMap.mpr ⟨b, hb', hfb⟩) (hfirst hfa)
      · rcases List.mem_cons.mp hb with rfl | hb'
        · exact absurd (List.mem_filterMap.mpr ⟨a, ha', hfa⟩) (hfirst hfb)
        · exact ih htail ha' hb'

/-- Two connections with one id that is not null are one. -/
theorem Config.Sound.connection_unique {doc : Config} (h : doc.Sound) {c c' : Connection}
    (hc : c ∈ doc.connections) (hc' : c' ∈ doc.connections) {id : Str} (hid : c.id = some id)
    (hid' : c'.id = some id) : c = c' :=
  eq_of_nodup_filterMap (List.nodup_append.mp h.ids).2.1 hc hc' hid hid'

end Validation

end Smbpal
