import Smbpal.Config.Document
import Smbpal.Config.Operations
import Smbpal.Mounts.Units
import Smbpal.Samba.Conf

/-!
# What Validation Accepts

The schema as a property of a JSON document, and how far `validate` decides it.

`Meets` is stated twice over, with and without `null` in the required fields, because
that is where the two part: `validate` finds nothing exactly when the document meets the
schema that lets `null` through (`validateDocument_eq_nil`), as long as it returns at
all (`validateDocument_ok`). It does unless some connection's `keychain_credential` is a
list or an object, which has no hash, or what a problem has to show cannot be shown.

What is accepted is a `Config` that is valid in the sense of the rest of the development
(`valid_toConfig`), so everything that is proved of a valid config holds of it.

## Main definitions

* `Field`, `OptionalText`, `OptionalBool`: What the schema asks of one field.
* `ShareMeets`, `ConnectionMeets`, `DocumentMeets`, `Meets`: The schema.
* `Looked`: Every `keychain_credential` can be looked up, and what a problem may have to
  show can be shown.
* `NoNulls`: No required field is null.
* `Served`: Unit names and `smbpal.conf` can be made of a document.
* `Exact`: Validation decides the schema, and what it accepts can be served.

## Theorems

* `validateShareObject_eq_nil`, `validateConnectionObject_eq_nil`: One element.
* `validateObjects_eq`: On a list of objects it is the loop on records.
* `validateDocument_ok`: When validation returns.
* `validateDocument_eq_nil`: What is accepted.
* `valid_toConfig`: An accepted document is a valid config.
* `Meets.served`: What meets the schema can be served.
* `schema_exact`: Exactly when validation is exact.
-/

namespace Smbpal

/-- What the schema asks of a required field: a string that satisfies `P`. Where
    `nullable` says so, `null` will do. -/
def Field (nullable : Bool) (P : Str → Prop) (value : Option Json) : Prop :=
  nullable = true ∧ value = some .null ∨ ∃ s, value = some (.string s) ∧ P s

/-- What the schema asks of an optional field that is a string. -/
def OptionalText (P : Str → Prop) (value : Option Json) : Prop :=
  ∀ v, value = some v → v = .null ∨ ∃ s, v = .string s ∧ P s

/-- What the schema asks of an optional field that is a boolean. -/
def OptionalBool (value : Option Json) : Prop :=
  ∀ v, value = some v → v = .null ∨ ∃ b, v = .bool b

/-- What the schema asks of a list of records: that it is a list of objects, or not
    there. -/
def IsRecords (value : Option Json) : Prop :=
  ∀ v, value = some v → ∃ items, v = .array items ∧ ∀ item ∈ items, ∃ m, item = .object m

section Schema

variable [Unicode]

/-- What the schema asks of a share. -/
structure ShareMeets (nullable : Bool) (m : Members) : Prop where
  keys : ∀ key ∈ m.map Prod.fst, key ∈ shareKeys
  type : Field nullable (fun s => s = str "os") (getMember m "type")
  id : Field nullable (fun s => isId s = true) (getMember m "id")
  name : Field nullable
    (fun s => IsName 80 shareNameForbidden s ∧ lower s ∉ reservedShareNames) (getMember m "name")
  path : Field nullable IsPath (getMember m "path")
  readOnly : OptionalBool (getMember m "read_only")
  enabled : OptionalBool (getMember m "enabled")
  credentialRef : OptionalText (fun s => isId s = true) (getMember m "credential_ref")

omit [Unicode] in
/-- What the schema asks of a connection. -/
structure ConnectionMeets (nullable : Bool) (m : Members) : Prop where
  keys : ∀ key ∈ m.map Prod.fst, key ∈ connectionKeys
  type : Field nullable (fun s => s = str "os") (getMember m "type")
  id : Field nullable (fun s => isId s = true) (getMember m "id")
  host : Field nullable (IsName 253 hostForbidden) (getMember m "host")
  share : Field nullable (IsName 80 remoteShareNameForbidden) (getMember m "share")
  mountpoint : Field nullable IsPath (getMember m "mountpoint")
  credentialRef : OptionalText (fun s => isId s = true) (getMember m "credential_ref")
  owner : OptionalText (fun s => isOwner s = true) (getMember m "owner")
  fallbackHost : OptionalText (IsName 253 hostForbidden) (getMember m "fallback_host")
  credentialAccount : OptionalText IsAccount (getMember m "credential_account")
  disconnected : OptionalBool (getMember m "disconnected")
  keychainCredential : OptionalText (fun s => s = str "created" ∨ s = str "replaced")
    (getMember m "keychain_credential")
  autoConnect : OptionalText (fun s => s ∈ autoConnectValues) (getMember m "auto_connect")

/-- The ids of the objects under a key. -/
def idsOf (m : Members) (key : String) : List Str :=
  (recordsOf m key).filterMap fun r => textMember r "id"

/-- The names of the shares. -/
def shareNamesOf (m : Members) : List Str :=
  (recordsOf m "shares").filterMap fun r => textMember r "name"

/-- What the schema asks of a document. -/
structure DocumentMeets (nullable : Bool) (m : Members) : Prop where
  keys : ∀ key ∈ m.map Prod.fst, key ∈ topKeys
  version : getMember m "version" = some (.int schemaVersion)
  shareList : IsRecords (getMember m "shares")
  connectionList : IsRecords (getMember m "connections")
  shares : ∀ s ∈ recordsOf m "shares", ShareMeets nullable s
  connections : ∀ c ∈ recordsOf m "connections", ConnectionMeets nullable c
  ids : (idsOf m "shares" ++ idsOf m "connections").Nodup
  names : ((shareNamesOf m).map lower).Nodup

/-- A document meets the schema. -/
def Meets (nullable : Bool) (doc : Json) : Prop :=
  ∃ m, doc = .object m ∧ DocumentMeets nullable m

end Schema

/-! ## Fields -/

theorem checkMember_eq_nil (value : Option Json) (check : Json → List Problem) :
    checkMember value check = [] ↔ ∀ v, value = some v → v = .null ∨ check v = [] := by
  unfold checkMember
  cases value with
  | none => exact iff_of_true rfl fun v h => nomatch h
  | some v =>
      cases v with
      | null => exact iff_of_true rfl fun v h => Or.inl (Option.some.inj h).symm
      | _ =>
          constructor
          · intro h w hw
            obtain rfl := Option.some.inj hw
            exact Or.inr h
          · intro h
            exact (h _ rfl).resolve_left (by simp)

theorem checkText_eq_nil (location : Str) (value : Option Json)
    (check : Option Str → List Problem) :
    checkText location value check = [] ↔ OptionalText (fun s => check (some s) = []) value := by
  unfold checkText
  rw [checkMember_eq_nil]
  refine forall₂_congr fun v _ => or_congr_right ?_
  cases v with
  | string s => simp
  | _ => simp

/-- A check that refuses the empty string refuses what is no string. -/
theorem checkMember_text (check : Str → List Problem) (hempty : check [] ≠ [])
    (value : Option Json) :
    checkMember value (fun v => check (textOf v)) = [] ↔
      OptionalText (fun s => check s = []) value := by
  rw [checkMember_eq_nil]
  refine forall₂_congr fun v _ => or_congr_right ?_
  cases v with
  | string s => simp [textOf]
  | _ => simp [textOf, hempty]

theorem checkOptionalBool_eq_nil (location : Str) (value : Option Json) :
    checkOptionalBool location value = [] ↔ OptionalBool value := by
  unfold checkOptionalBool
  rw [checkMember_eq_nil]
  refine forall₂_congr fun v _ => or_congr_right ?_
  cases v with
  | bool b => simp
  | _ => simp

theorem OptionalText.congr {P Q : Str → Prop} {value : Option Json} (h : ∀ s, P s ↔ Q s) :
    OptionalText P value ↔ OptionalText Q value :=
  forall₂_congr fun _ _ => or_congr_right (exists_congr fun s => and_congr_right fun _ => h s)

theorem isText_eq_true (s : Str) (v : Json) : isText s v = true ↔ v = .string s := by
  cases v with
  | string t => simp [isText]
  | _ => simp [isText]

/-- A key is there when looking it up finds something. -/
theorem mem_keys_iff (m : Members) (key : String) :
    str key ∈ m.map Prod.fst ↔ getMember m key ≠ none := by
  rw [getMember, Ne, lookup_eq_none_iff_keys, not_not]

/-- A required field is there, and null or well formed. -/
theorem field_iff (P : Str → Prop) (m : Members) (key : String) :
    Field true P (getMember m key) ↔
      str key ∈ m.map Prod.fst ∧ OptionalText P (getMember m key) := by
  rw [mem_keys_iff]
  constructor
  · rintro (⟨-, h⟩ | ⟨s, h, hs⟩)
    · rw [h]
      exact ⟨Option.some_ne_none _, fun v hv => Or.inl (Option.some.inj hv).symm⟩
    · rw [h]
      exact ⟨Option.some_ne_none _, fun v hv => Or.inr ⟨s, (Option.some.inj hv).symm, hs⟩⟩
  · rintro ⟨hne, hopt⟩
    rcases Option.ne_none_iff_exists'.mp hne with ⟨v, hv⟩
    rcases hopt v hv with rfl | ⟨s, rfl, hs⟩
    · exact Or.inl ⟨rfl, hv⟩
    · exact Or.inr ⟨s, hv, hs⟩

/-- A field that may be null and is not. -/
theorem Field.strict_iff {P : Str → Prop} {value : Option Json} :
    Field false P value ↔ Field true P value ∧ value ≠ some .null := by
  constructor
  · rintro (⟨h, -⟩ | ⟨s, rfl, hs⟩)
    · exact absurd h Bool.false_ne_true
    · exact ⟨Or.inr ⟨s, rfl, hs⟩, by simp⟩
  · rintro ⟨⟨-, h⟩ | h, hne⟩
    · exact absurd h hne
    · exact Or.inr h

/-- The typed field of one that meets the schema. -/
theorem Field.nullOr {nullable : Bool} {P : Str → Prop} {m : Members} {key : String}
    (h : Field nullable P (getMember m key)) : NullOr P (textMember m key) := by
  intro s hs
  unfold textMember at hs
  rcases h with ⟨-, h⟩ | ⟨t, h, ht⟩
  · rw [h] at hs
    exact nomatch hs
  · rw [h] at hs
    exact Option.some.inj hs ▸ ht

theorem OptionalText.nullOr {P : Str → Prop} {m : Members} {key : String}
    (h : OptionalText P (getMember m key)) : NullOr P (textMember m key) := by
  intro s hs
  unfold textMember at hs
  cases hv : getMember m key with
  | none =>
      rw [hv] at hs
      exact nomatch hs
  | some v =>
      rw [hv] at hs
      rcases h v hv with rfl | ⟨t, rfl, ht⟩
      · exact nomatch hs
      · exact Option.some.inj hs ▸ ht

/-! ## Elements -/

section Elements

theorem problems_ne_nil {p : Problem} {problems : List Problem} : ¬p :: problems = [] :=
  List.cons_ne_nil _ _

variable [Unicode]

theorem checkKeys_eq_nil (location : Str) (m : Members) (allowed required : List Str) :
    checkKeys location m allowed required = [] ↔
      (∀ key ∈ m.map Prod.fst, key ∈ allowed) ∧ ∀ key ∈ required, key ∈ m.map Prod.fst := by
  unfold checkKeys
  rw [List.append_eq_nil_iff, List.map_eq_nil_iff, List.map_eq_nil_iff, List.filter_eq_nil_iff,
    ← List.length_eq_zero_iff, List.length_insertionSort, List.length_eq_zero_iff,
    List.filter_eq_nil_iff]
  simp only [decide_eq_true_eq, not_not]

omit [Unicode] in
/-- The checks of an id, a reference and an owner. -/
theorem checkPattern_eq_nil (p : Str → Bool) (hempty : p [] = false)
    (location message : Str) (value : Option Json) :
    checkMember value (fun v => problemUnless (p (textOf v)) location message) = [] ↔
      OptionalText (fun s => p s = true) value := by
  have hne : problemUnless (p []) location message ≠ [] := by
    rw [Ne, problemUnless_eq_nil, hempty]
    exact Bool.false_ne_true
  rw [checkMember_text (fun s => problemUnless (p s) location message) hne]
  exact OptionalText.congr fun s => problemUnless_eq_nil _ _ _

/-- Whether a value can be shown: it is nested no deeper than `repr` goes, and no number in
    it has too many digits. -/
def Shown [JsonText] (value : Option Json) : Prop :=
  ∀ v, value = some v → representable reprLevels v = true

omit [Unicode] in
theorem OptionalText.shown [JsonText] {P : Str → Prop} {value : Option Json}
    (h : OptionalText P value) : Shown value := by
  intro v hv
  rcases h v hv with rfl | ⟨s, rfl, -⟩
  · rfl
  · rfl

omit [Unicode] in
theorem Field.shown [JsonText] {nullable : Bool} {P : Str → Prop} {value : Option Json}
    (h : Field nullable P value) : Shown value := by
  intro v hv
  rcases h with ⟨-, h⟩ | ⟨s, h, -⟩
  · rw [← Option.some.inj (h.symm.trans hv)]
    rfl
  · rw [← Option.some.inj (h.symm.trans hv)]
    rfl

section Shows

variable [JsonText] (location : Str) (value : Option Json) {accepts : Json → Bool}
  (message : Str → Str)

omit [Unicode] in
/-- A check that accepts strings only returns where the value can be shown. -/
theorem checkShown_ok (haccepts : ∀ v, accepts v = true → ∃ s, v = .string s) :
    (∃ problems, checkShown location value accepts message = .ok problems) ↔ Shown value := by
  -- Only a value that is refused is put in the message, and it has to have a text.
  have hok : ∀ v, (∃ problems, (if accepts v then .ok []
      else do
        let text ← reprOf v
        pure [{ location := location, message := message text }] : Except Exc (List Problem)) =
          .ok problems) ↔ representable reprLevels v = true := by
    intro v
    unfold reprOf
    split
    · rename_i haccept
      rcases haccepts v haccept with ⟨s, rfl⟩
      exact iff_of_true ⟨_, rfl⟩ rfl
    · split
      · rename_i hshown
        exact iff_of_true ⟨_, rfl⟩ hshown
      · rename_i hshown
        exact iff_of_false (fun ⟨_, h⟩ => nomatch h) hshown
  unfold Shown
  cases value with
  | none => exact iff_of_true ⟨_, rfl⟩ fun v h => nomatch h
  | some v =>
      have hone : (∀ w, some v = some w → representable reprLevels w = true) ↔
          representable reprLevels v = true :=
        ⟨fun h => h v rfl, fun h w hw => Option.some.inj hw ▸ h⟩
      rw [hone, ← hok v]
      cases v with
      | null => exact iff_of_true ⟨_, rfl⟩ ((hok .null).mpr rfl)
      | _ => exact Iff.rfl

omit [Unicode] in
/-- It finds nothing where it accepts the value. -/
theorem checkShown_eq_nil : checkShown location value accepts message = .ok [] ↔
    ∀ v, value = some v → v = .null ∨ accepts v = true := by
  -- A refusal always says so.
  have hnil : ∀ v, (if accepts v then .ok []
      else do
        let text ← reprOf v
        pure [{ location := location, message := message text }] : Except Exc (List Problem)) =
          .ok [] ↔ accepts v = true := by
    intro v
    unfold reprOf
    split
    · rename_i haccept
      exact iff_of_true rfl haccept
    · rename_i haccept
      split
      · exact iff_of_false (fun h => problems_ne_nil (Except.ok.inj h)) haccept
      · exact iff_of_false (fun h => nomatch h) haccept
  cases value with
  | none => exact iff_of_true rfl fun v h => nomatch h
  | some v =>
      have hone : (∀ w, some v = some w → w = .null ∨ accepts w = true) ↔
          v = .null ∨ accepts v = true :=
        ⟨fun h => h v rfl, fun h w hw => Option.some.inj hw ▸ h⟩
      rw [hone]
      cases v with
      | null => exact iff_of_true rfl (Or.inl rfl)
      | _ => exact (hnil _).trans (or_iff_right (by simp)).symm

end Shows

omit [Unicode] in
theorem isText_string {s : Str} {v : Json} (h : isText s v = true) : ∃ t, v = .string t :=
  ⟨s, (isText_eq_true s v).mp h⟩

omit [Unicode] in
theorem checkTypeDiscriminator_ok [JsonText] (location : Str) (m : Members) :
    (∃ problems, checkTypeDiscriminator location m = .ok problems) ↔ Shown (getMember m "type") :=
  checkShown_ok _ _ _ fun _ => isText_string

omit [Unicode] in
theorem checkTypeDiscriminator_eq_nil [JsonText] (location : Str) (m : Members) :
    checkTypeDiscriminator location m = .ok [] ↔
      OptionalText (fun s => s = str "os") (getMember m "type") := by
  unfold checkTypeDiscriminator
  rw [checkShown_eq_nil]
  refine forall₂_congr fun v _ => or_congr_right ?_
  rw [isText_eq_true]
  exact ⟨fun h => ⟨_, h, rfl⟩, fun ⟨s, h, hs⟩ => hs ▸ h⟩

theorem checkServedShareName_eq_nil (location s : Str) :
    checkServedShareName location (some s) = [] ↔
      IsName 80 shareNameForbidden s ∧ lower s ∉ reservedShareNames := by
  change checkName _ _ _ _ _ ++ problemUnless _ _ _ = [] ↔ _
  rw [List.append_eq_nil_iff, checkName_eq_nil, problemUnless_eq_nil, Bool.or_eq_true,
    decide_eq_true_eq, decide_eq_true_eq]
  exact and_congr_right fun h => or_iff_right h.nonempty

theorem checkAbsolutePath_some (location s : Str) :
    checkAbsolutePath location (some s) = [] ↔ IsPath s := by
  rw [checkAbsolutePath_eq_nil]
  exact ⟨fun h => h s rfl, fun h v hv => Option.some.inj hv ▸ h⟩

theorem checkShareFields_eq_nil (location : Str) (m : Members) :
    checkKeys location m shareKeys [str "id", str "name", str "path", str "type"] = [] ∧
        OptionalText (fun s => s = str "os") (getMember m "type") ∧
        checkShareFields location m = [] ↔
      ShareMeets true m := by
  unfold checkShareFields checkId checkOptionalRef
  simp only [List.append_eq_nil_iff, checkKeys_eq_nil, checkPresent,
    checkPattern_eq_nil isId rfl, checkText_eq_nil, checkOptionalBool_eq_nil,
    checkServedShareName_eq_nil, checkAbsolutePath_some]
  constructor
  · -- What is required and what is checked of a key are together what its field asks for.
    rintro ⟨⟨hkeys, hreq⟩, htype, ⟨⟨⟨⟨hid, hname⟩, hpath⟩, hro⟩, hon⟩, href⟩
    simp only [List.forall_mem_cons] at hreq
    rcases hreq with ⟨hid', hname', hpath', htype', -⟩
    exact ⟨hkeys, (field_iff _ m _).mpr ⟨htype', htype⟩, (field_iff _ m _).mpr ⟨hid', hid⟩,
      (field_iff _ m _).mpr ⟨hname', hname⟩, (field_iff _ m _).mpr ⟨hpath', hpath⟩, hro, hon, href⟩
  · intro h
    rcases (field_iff _ m _).mp h.type with ⟨htype', htype⟩
    rcases (field_iff _ m _).mp h.id with ⟨hid', hid⟩
    rcases (field_iff _ m _).mp h.name with ⟨hname', hname⟩
    rcases (field_iff _ m _).mp h.path with ⟨hpath', hpath⟩
    refine ⟨⟨h.keys, ?_⟩, htype, ⟨⟨⟨⟨hid, hname⟩, hpath⟩, h.readOnly⟩, h.enabled⟩,
      h.credentialRef⟩
    simp only [List.forall_mem_cons]
    exact ⟨hid', hname', hpath', htype', fun key h => absurd h List.not_mem_nil⟩

/-- The check of a share returns where its type can be shown. -/
theorem validateShareObject_ok [JsonText] (location : Str) (m : Members) :
    (∃ problems, validateShareObject location m = .ok problems) ↔ Shown (getMember m "type") := by
  rw [← checkTypeDiscriminator_ok location]
  unfold validateShareObject
  cases checkTypeDiscriminator location m with
  | error e => exact iff_of_false (fun ⟨_, h⟩ => nomatch h) fun ⟨_, h⟩ => nomatch h
  | ok problems => exact iff_of_true ⟨_, rfl⟩ ⟨_, rfl⟩

/-- A share has no problem exactly when it meets the schema that lets null through. -/
theorem validateShareObject_eq_nil [JsonText] (location : Str) (m : Members) :
    validateShareObject location m = .ok [] ↔ ShareMeets true m := by
  rw [← checkShareFields_eq_nil location, ← checkTypeDiscriminator_eq_nil location]
  unfold validateShareObject
  cases checkTypeDiscriminator location m with
  | error e => exact iff_of_false (fun h => nomatch h) fun h => nomatch h.2.1
  | ok problems =>
      change Except.ok _ = Except.ok [] ↔ _
      rw [Except.ok.injEq, Except.ok.injEq, List.append_eq_nil_iff, List.append_eq_nil_iff,
        and_assoc]

omit [Unicode] in
/-- The account: the empty string has words of its own, and so has what is no string. -/
theorem checkRemoteAccount_text (location : Str) (value : Option Json) :
    checkMember value (fun v => checkRemoteAccount location (some (textOf v))) = [] ↔
      OptionalText IsAccount value := by
  rw [checkMember_text (fun s => checkRemoteAccount location (some s)) problems_ne_nil]
  refine OptionalText.congr fun s => ?_
  rw [checkRemoteAccount_eq_nil]
  exact ⟨fun h => h s rfl, fun h v hv => Option.some.inj hv ▸ h⟩

omit [Unicode] in
theorem checkAutoConnectMember_ok [JsonText] (location : Str) (value : Option Json) :
    (∃ problems, checkAutoConnectMember location value = .ok problems) ↔ Shown value := by
  refine checkShown_ok _ _ _ fun v h => ?_
  rcases List.any_eq_true.mp h with ⟨s, -, hs⟩
  exact isText_string hs

omit [Unicode] in
theorem checkAutoConnectMember_eq_nil [JsonText] (location : Str) (value : Option Json) :
    checkAutoConnectMember location value = .ok [] ↔
      OptionalText (fun s => s ∈ autoConnectValues) value := by
  unfold checkAutoConnectMember
  rw [checkShown_eq_nil]
  refine forall₂_congr fun v _ => or_congr_right ?_
  rw [List.any_eq_true]
  simp only [isText_eq_true]
  exact ⟨fun ⟨s, hs, h⟩ => ⟨s, h, hs⟩, fun ⟨s, h, hs⟩ => ⟨s, hs, h⟩⟩

/-- Whether a value can be looked up in a set. -/
def Hashable (value : Option Json) : Prop :=
  ∀ v, value = some v → (∀ items, v ≠ .array items) ∧ ∀ m, v ≠ .object m

omit [Unicode] in
theorem OptionalText.hashable {P : Str → Prop} {value : Option Json} (h : OptionalText P value) :
    Hashable value := by
  intro v hv
  rcases h v hv with rfl | ⟨s, rfl, -⟩
  · exact ⟨fun _ h => (nomatch h), fun _ h => (nomatch h)⟩
  · exact ⟨fun _ h => (nomatch h), fun _ h => (nomatch h)⟩

omit [Unicode] in
/-- The two words a mark may be. -/
theorem isMark_string {v : Json}
    (h : (isText (str "created") v || isText (str "replaced") v) = true) : ∃ s, v = .string s := by
  rcases (Bool.or_eq_true _ _).mp h with h | h
  · exact isText_string h
  · exact isText_string h

omit [Unicode] in
theorem checkKeychain_ok [JsonText] (location : Str) (value : Option Json) :
    (∃ problems, checkKeychain location value = .ok problems) ↔
      Hashable value ∧ Shown value := by
  have hfound : Hashable value → ((∃ problems, checkKeychain location value = .ok problems) ↔
      Shown value) := by
    intro hhash
    unfold checkKeychain
    split
    · exact absurd rfl ((hhash _ rfl).1 _)
    · exact absurd rfl ((hhash _ rfl).2 _)
    · exact checkShown_ok _ _ _ fun _ => isMark_string
  constructor
  · rintro ⟨problems, h⟩
    -- A list or an object has no hash, and raises before it is looked up.
    have hhash : Hashable value := by
      rintro v rfl
      refine ⟨fun items heq => ?_, fun m heq => ?_⟩
      · subst heq
        exact nomatch h
      · subst heq
        exact nomatch h
    exact ⟨hhash, (hfound hhash).mp ⟨problems, h⟩⟩
  · exact fun h => (hfound h.1).mpr h.2

omit [Unicode] in
theorem checkKeychain_eq_nil [JsonText] (location : Str) (value : Option Json) :
    checkKeychain location value = .ok [] ↔
      OptionalText (fun s => s = str "created" ∨ s = str "replaced") value := by
  unfold checkKeychain
  split
  · refine iff_of_false (fun h => nomatch h) fun h => ?_
    rcases h _ rfl with h | ⟨s, h, -⟩
    · exact nomatch h
    · exact nomatch h
  · refine iff_of_false (fun h => nomatch h) fun h => ?_
    rcases h _ rfl with h | ⟨s, h, -⟩
    · exact nomatch h
    · exact nomatch h
  · rw [checkShown_eq_nil]
    refine forall₂_congr fun v _ => or_congr_right ?_
    rw [Bool.or_eq_true, isText_eq_true, isText_eq_true]
    constructor
    · rintro (h | h)
      · exact ⟨_, h, Or.inl rfl⟩
      · exact ⟨_, h, Or.inr rfl⟩
    · rintro ⟨s, h, rfl | rfl⟩
      · exact Or.inl h
      · exact Or.inr h

theorem checkConnectionFields_eq_nil (location : Str) (m : Members) :
    checkKeys location m connectionKeys
          [str "host", str "id", str "mountpoint", str "share", str "type"] = [] ∧
        OptionalText (fun s => s = str "os") (getMember m "type") ∧
        checkConnectionFields location m = [] ∧
        OptionalText (fun s => s = str "created" ∨ s = str "replaced")
          (getMember m "keychain_credential") ∧
        OptionalText (fun s => s ∈ autoConnectValues) (getMember m "auto_connect") ↔
      ConnectionMeets true m := by
  unfold checkConnectionFields checkId checkOptionalRef checkOwner
  simp only [List.append_eq_nil_iff, checkKeys_eq_nil, checkPresent,
    checkPattern_eq_nil isId rfl, checkPattern_eq_nil isOwner rfl, checkText_eq_nil,
    checkOptionalBool_eq_nil, checkHost, checkRemoteShareName, checkName_eq_nil,
    checkRemoteAccount_text, checkAbsolutePath_some]
  constructor
  · -- What is required and what is checked of a key are together what its field asks for.
    rintro ⟨⟨hkeys, hreq⟩, htype, ⟨⟨⟨⟨⟨⟨⟨⟨hid, hhost⟩, hshare⟩, hpath⟩, href⟩, howner⟩,
      hfallback⟩, haccount⟩, hoff⟩, hkeychain, hauto⟩
    simp only [List.forall_mem_cons] at hreq
    rcases hreq with ⟨hhost', hid', hpath', hshare', htype', -⟩
    exact ⟨hkeys, (field_iff _ m _).mpr ⟨htype', htype⟩, (field_iff _ m _).mpr ⟨hid', hid⟩,
      (field_iff _ m _).mpr ⟨hhost', hhost⟩, (field_iff _ m _).mpr ⟨hshare', hshare⟩,
      (field_iff _ m _).mpr ⟨hpath', hpath⟩, href, howner, hfallback, haccount, hoff, hkeychain,
      hauto⟩
  · intro h
    rcases (field_iff _ m _).mp h.type with ⟨htype', htype⟩
    rcases (field_iff _ m _).mp h.id with ⟨hid', hid⟩
    rcases (field_iff _ m _).mp h.host with ⟨hhost', hhost⟩
    rcases (field_iff _ m _).mp h.share with ⟨hshare', hshare⟩
    rcases (field_iff _ m _).mp h.mountpoint with ⟨hpath', hpath⟩
    refine ⟨⟨h.keys, ?_⟩, htype, ⟨⟨⟨⟨⟨⟨⟨⟨hid, hhost⟩, hshare⟩, hpath⟩, h.credentialRef⟩,
      h.owner⟩, h.fallbackHost⟩, h.credentialAccount⟩, h.disconnected⟩, h.keychainCredential,
      h.autoConnect⟩
    simp only [List.forall_mem_cons]
    exact ⟨hhost', hid', hpath', hshare', htype', fun key h => absurd h List.not_mem_nil⟩

/-- What the check of a connection returns for: a `keychain_credential` that can be looked
    up, and values that can be shown. -/
structure ConnectionLooked [JsonText] (m : Members) : Prop where
  type : Shown (getMember m "type")
  hashable : Hashable (getMember m "keychain_credential")
  keychain : Shown (getMember m "keychain_credential")
  autoConnect : Shown (getMember m "auto_connect")

omit [Unicode] in
theorem ConnectionMeets.looked [JsonText] {nullable : Bool} {m : Members}
    (h : ConnectionMeets nullable m) : ConnectionLooked m where
  type := Field.shown h.type
  hashable := h.keychainCredential.hashable
  keychain := h.keychainCredential.shown
  autoConnect := h.autoConnect.shown

theorem validateConnectionObject_ok [JsonText] (location : Str) (m : Members) :
    (∃ problems, validateConnectionObject location m = .ok problems) ↔ ConnectionLooked m := by
  have htype := checkTypeDiscriminator_ok location m
  have hkeychain := checkKeychain_ok (location ++ str ".keychain_credential")
    (getMember m "keychain_credential")
  have hauto := checkAutoConnectMember_ok (location ++ str ".auto_connect")
    (getMember m "auto_connect")
  unfold validateConnectionObject
  -- The three checks that may raise come one after another.
  constructor
  · rintro ⟨problems, h⟩
    rcases except_bind_eq_ok.mp h with ⟨_, hfirst, h⟩
    rcases except_bind_eq_ok.mp h with ⟨_, hsecond, h⟩
    rcases except_bind_eq_ok.mp h with ⟨_, hthird, -⟩
    rcases hkeychain.mp ⟨_, hsecond⟩ with ⟨hhash, hshown⟩
    exact ⟨htype.mp ⟨_, hfirst⟩, hhash, hshown, hauto.mp ⟨_, hthird⟩⟩
  · intro h
    rcases htype.mpr h.type with ⟨_, hfirst⟩
    rcases hkeychain.mpr ⟨h.hashable, h.keychain⟩ with ⟨_, hsecond⟩
    rcases hauto.mpr h.autoConnect with ⟨_, hthird⟩
    exact ⟨_, except_bind_eq_ok.mpr ⟨_, hfirst, except_bind_eq_ok.mpr ⟨_, hsecond,
      except_bind_eq_ok.mpr ⟨_, hthird, rfl⟩⟩⟩⟩

/-- It has no problem exactly when it meets the schema that lets null through. -/
theorem validateConnectionObject_eq_nil [JsonText] (location : Str) (m : Members) :
    validateConnectionObject location m = .ok [] ↔ ConnectionMeets true m := by
  rw [← checkConnectionFields_eq_nil location, ← checkTypeDiscriminator_eq_nil location,
    ← checkKeychain_eq_nil (location ++ str ".keychain_credential"),
    ← checkAutoConnectMember_eq_nil (location ++ str ".auto_connect")]
  unfold validateConnectionObject
  constructor
  · intro h
    rcases except_bind_eq_ok.mp h with ⟨discriminator, hfirst, h⟩
    rcases except_bind_eq_ok.mp h with ⟨keychain, hsecond, h⟩
    rcases except_bind_eq_ok.mp h with ⟨auto, hthird, h⟩
    have hnil := Except.ok.inj h
    simp only [List.append_eq_nil_iff] at hnil
    rcases hnil with ⟨⟨⟨⟨hkeys, rfl⟩, hfields⟩, rfl⟩, rfl⟩
    exact ⟨hkeys, hfirst, hfields, hsecond, hthird⟩
  · rintro ⟨hkeys, hfirst, hfields, hsecond, hthird⟩
    refine except_bind_eq_ok.mpr ⟨[], hfirst, except_bind_eq_ok.mpr ⟨[], hsecond,
      except_bind_eq_ok.mpr ⟨[], hthird, ?_⟩⟩⟩
    rw [hkeys, hfields]
    rfl

end Elements

/-! ## Lists -/

section Lists

/-- What a validator finds, one that raises counted as one that finds something. -/
def settled (validator : Str → Members → Except Exc (List Problem)) (location : Str)
    (m : Members) : List Problem :=
  match validator location m with
  | .ok problems => problems
  | .error _ => [{ location := location, message := [] }]

theorem settled_eq_nil (validator : Str → Members → Except Exc (List Problem)) (location : Str)
    (m : Members) : settled validator location m = [] ↔ validator location m = .ok [] := by
  unfold settled
  cases validator location m with
  | error e => exact iff_of_false problems_ne_nil fun h => nomatch h
  | ok problems => exact Except.ok.injEq _ _ ▸ Iff.rfl

variable (key : Str) (validator : Str → Members → Except Exc (List Problem))

/-- One object of the loop. -/
theorem validateObjects_object {index : Nat} {m : Members} {items : List Json} {seen : SeenIds}
    {r : List Problem × SeenIds} :
    validateObjects key validator index (.object m :: items) seen = .ok r ↔
      let location := key ++ str "[" ++ digits index ++ str "]"
      let unique := checkIdUnique location (textMember m "id") seen
      ∃ problems, validator location m = .ok problems ∧
        ∃ rest, validateObjects key validator (index + 1) items unique.2 = .ok rest ∧
          (problems ++ unique.1 ++ rest.1, rest.2) = r := by
  refine except_bind_eq_ok.trans (exists_congr fun problems => and_congr_right fun _ => ?_)
  refine except_bind_eq_ok.trans (exists_congr fun rest => and_congr_right fun _ => ?_)
  exact ⟨Except.ok.inj, congrArg Except.ok⟩

/-- One item of the loop that is no object. -/
theorem validateObjects_other {index : Nat} {item : Json} {items : List Json} {seen : SeenIds}
    {r : List Problem × SeenIds} (hitem : asObject item = none) :
    validateObjects key validator index (item :: items) seen = .ok r ↔
      ∃ rest, validateObjects key validator (index + 1) items seen = .ok rest ∧
        ({ location := key ++ str "[" ++ digits index ++ str "]"
           message := str "expected an object, got " ++ kindOf item } :: rest.1, rest.2) = r := by
  cases item with
  | object m => exact nomatch hitem
  | _ =>
      refine except_bind_eq_ok.trans (exists_congr fun rest => and_congr_right fun _ => ?_)
      exact ⟨Except.ok.inj, congrArg Except.ok⟩

theorem asObject_eq_some {item : Json} {m : Members} (h : asObject item = some m) :
    item = .object m := by
  cases item with
  | object members => exact congrArg Json.object (Option.some.inj h)
  | _ => exact nomatch h

/-- The loop returns when every object is looked at. -/
theorem validateObjects_ok {Looked : Members → Prop}
    (hlooked : ∀ location m, (∃ problems, validator location m = .ok problems) ↔ Looked m)
    (index : Nat) (items : List Json) (seen : SeenIds) :
    (∃ r, validateObjects key validator index items seen = .ok r) ↔
      ∀ m ∈ items.filterMap asObject, Looked m := by
  induction items generalizing index seen with
  | nil => exact iff_of_true ⟨_, rfl⟩ fun m h => absurd h List.not_mem_nil
  | cons item items ih =>
      cases hitem : asObject item with
      | some m =>
          obtain rfl := asObject_eq_some hitem
          -- A record: its own check and the rest of the list have to return.
          rw [List.filterMap_cons_some hitem, List.forall_mem_cons,
            ← hlooked (key ++ str "[" ++ digits index ++ str "]")]
          constructor
          · rintro ⟨r, hr⟩
            rcases (validateObjects_object key validator).mp hr with ⟨problems, hm, rest, h, -⟩
            exact ⟨⟨problems, hm⟩, (ih _ _).mp ⟨rest, h⟩⟩
          · rintro ⟨⟨problems, hm⟩, hitems⟩
            rcases (ih _ _).mpr hitems with ⟨rest, h⟩
            exact ⟨_, (validateObjects_object key validator).mpr ⟨problems, hm, rest, h, rfl⟩⟩
      | none =>
          -- Anything else gets a problem of its own, whatever it is.
          rw [List.filterMap_cons_none hitem, ← ih (index + 1) seen]
          constructor
          · rintro ⟨r, hr⟩
            rcases (validateObjects_other key validator hitem).mp hr with ⟨rest, h, -⟩
            exact ⟨rest, h⟩
          · rintro ⟨rest, h⟩
            exact ⟨_, (validateObjects_other key validator hitem).mpr ⟨rest, h, rfl⟩⟩

/-- When nothing is found every item is an object. -/
theorem validateObjects_objects {index : Nat} {items : List Json} {seen : SeenIds}
    {r : List Problem × SeenIds} (h : validateObjects key validator index items seen = .ok r)
    (hr : r.1 = []) : ∀ item ∈ items, ∃ m, item = .object m := by
  induction items generalizing index seen r with
  | nil => exact fun item hitem => absurd hitem List.not_mem_nil
  | cons item items ih =>
      cases hitem : asObject item with
      | some m =>
          obtain rfl := asObject_eq_some hitem
          rcases (validateObjects_object key validator).mp h with ⟨problems, -, rest, hrest, rfl⟩
          exact List.forall_mem_cons.mpr ⟨⟨m, rfl⟩, ih hrest (List.append_eq_nil_iff.mp hr).2⟩
      | none =>
          rcases (validateObjects_other key validator hitem).mp h with ⟨rest, -, rfl⟩
          exact absurd hr problems_ne_nil

/-- On a list of objects it is the loop on records. -/
theorem validateObjects_eq {index : Nat} {items : List Json} {seen : SeenIds}
    {r : List Problem × SeenIds} (hall : ∀ item ∈ items, ∃ m, item = .object m)
    (h : validateObjects key validator index items seen = .ok r) :
    r = validateList key (settled validator) (textMember · "id") index
      (items.filterMap asObject) seen := by
  induction items generalizing index seen r with
  | nil => exact (Except.ok.inj h).symm
  | cons item items ih =>
      rw [List.forall_mem_cons] at hall
      rcases hall with ⟨⟨m, rfl⟩, hall⟩
      rcases (validateObjects_object key validator).mp h with ⟨problems, hm, rest, hrest, rfl⟩
      have hsettled : settled validator (key ++ str "[" ++ digits index ++ str "]") m =
          problems := by
        rw [settled, hm]
      rw [List.filterMap_cons_some (show asObject (.object m) = some m from rfl), validateList,
        ← ih hall hrest, hsettled]

variable (doc : Members) (name : String)

/-- The list under a key is looked at when every object of it is. -/
theorem validateObjectList_ok {Looked : Members → Prop}
    (hlooked : ∀ location m, (∃ problems, validator location m = .ok problems) ↔ Looked m)
    (seen : SeenIds) :
    (∃ r, validateObjectList doc name validator seen = .ok r) ↔
      ∀ m ∈ recordsOf doc name, Looked m := by
  unfold validateObjectList recordsOf itemsOf
  cases getMember doc name with
  | none => exact iff_of_true ⟨_, rfl⟩ fun m h => absurd h List.not_mem_nil
  | some v =>
      cases v with
      | array items => exact validateObjects_ok _ validator hlooked 0 items seen
      | _ => exact iff_of_true ⟨_, rfl⟩ fun m h => absurd h List.not_mem_nil

/-- It has no problem when it is a list of objects that have none, and no id is taken. -/
theorem validateObjectList_eq_nil {P : Members → Prop}
    (hP : ∀ location m, validator location m = .ok [] ↔ P m) {seen : SeenIds}
    {r : List Problem × SeenIds} (h : validateObjectList doc name validator seen = .ok r) :
    (r.1 = [] ↔ IsRecords (getMember doc name) ∧ (∀ m ∈ recordsOf doc name, P m) ∧
      (idsOf doc name).Nodup ∧ ∀ v ∈ idsOf doc name, v ∉ seen.map Prod.fst) ∧
    (r.1 = [] → r.2.map Prod.fst = seen.map Prod.fst ++ idsOf doc name) := by
  unfold validateObjectList at h
  unfold IsRecords idsOf recordsOf itemsOf
  rcases hv : getMember doc name with _ | v
  · rw [hv] at h
    obtain rfl := Except.ok.inj h
    simp
  · rw [hv] at h
    cases v with
    | array items =>
        dsimp only at h ⊢
        by_cases hall : ∀ item ∈ items, ∃ m, item = .object m
        · -- All items are records, so the list is checked as their members are.
          obtain rfl := validateObjects_eq (str name) validator hall h
          have hsettled : ∀ location m, settled validator location m = [] ↔ P m := fun location m =>
            (settled_eq_nil validator location m).trans (hP location m)
          have hlist := validateList_eq_nil (str name) (settled validator) (textMember · "id") P
            hsettled 0 (items.filterMap asObject) seen
          refine ⟨hlist.1.trans ⟨fun h => ⟨fun v hv => ?_, h⟩, fun h => h.2⟩, hlist.2⟩
          exact ⟨items, (Option.some.inj hv).symm, hall⟩
        · -- An item that is no record has a problem.
          have hne : r.1 ≠ [] := fun hr =>
            hall (validateObjects_objects (str name) validator h hr)
          refine ⟨iff_of_false hne fun hmeets => ?_, fun hr => absurd hr hne⟩
          rcases hmeets.1 _ rfl with ⟨items', heq, hall'⟩
          exact hall (Json.array.inj heq ▸ hall')
    -- A member that is no list has a problem.
    | _ =>
        obtain rfl := Except.ok.inj h
        refine ⟨iff_of_false problems_ne_nil fun hmeets => ?_, fun hr => absurd hr problems_ne_nil⟩
        rcases hmeets.1 _ rfl with ⟨items, heq, -⟩
        exact nomatch heq

end Lists

/-! ## Documents -/

section Documents

variable [Unicode]

/-- No two names agree without case. -/
theorem checkUniqueNames_eq_nil (index : Nat) (names : List (Option Str))
    (seen : List (Str × Nat)) :
    checkUniqueNames index names seen = [] ↔
      ((names.filterMap id).map lower).Nodup ∧
        ∀ v ∈ (names.filterMap id).map lower, v ∉ seen.map Prod.fst := by
  induction names generalizing index seen with
  | nil => simp [checkUniqueNames]
  | cons name names ih =>
      cases name with
      | none =>
          rw [List.filterMap_cons_none rfl, checkUniqueNames]
          exact ih (index + 1) seen
      | some name =>
          rw [List.filterMap_cons_some (show id (some name) = some name from rfl), List.map_cons,
            List.nodup_cons, List.forall_mem_cons, checkUniqueNames]
          rcases hlook : seen.lookup (lower name) with _ | first
          · -- A name not seen before: it has to differ from those behind it too.
            have hnot := (lookup_eq_none_iff_keys seen (lower name)).mp hlook
            dsimp only
            rw [ih, List.map_append]
            simp only [List.map_cons, List.map_nil, List.mem_append, List.mem_singleton, not_or]
            constructor
            · rintro ⟨hnd, hdis⟩
              exact ⟨⟨fun hm => (hdis _ hm).2 rfl, hnd⟩, hnot, fun v hv => (hdis v hv).1⟩
            · rintro ⟨⟨hname, hnd⟩, -, hdis⟩
              exact ⟨hnd, fun v hv => ⟨hdis v hv, fun heq => hname (heq ▸ hv)⟩⟩
          · -- A name seen before is a problem, and is among those seen.
            have hmem : lower name ∈ seen.map Prod.fst := by
              by_contra hnot
              rw [(lookup_eq_none_iff_keys seen (lower name)).mpr hnot] at hlook
              exact nomatch hlook
            exact iff_of_false problems_ne_nil fun h => h.2.1 hmem

/-- The names of the records are those of the objects. -/
theorem checkUniqueShareNames_eq (index : Nat) (shares : List Share) (seen : List (Str × Nat)) :
    checkUniqueShareNames index shares seen =
      checkUniqueNames index (shares.map Share.name) seen := by
  induction shares generalizing index seen with
  | nil => rfl
  | cons share shares ih =>
      rw [List.map_cons, checkUniqueShareNames]
      cases share.name with
      | none => exact ih (index + 1) seen
      | some name =>
          dsimp only
          rw [checkUniqueNames]
          cases seen.lookup (lower name) with
          | none => exact ih (index + 1) _
          | some first => exact congrArg (List.cons _) (ih (index + 1) seen)

omit [Unicode] in
theorem filterMap_nameOf (items : List Json) :
    (items.map nameOf).filterMap id =
      (items.filterMap asObject).filterMap fun r => textMember r "name" := by
  rw [List.filterMap_map, List.filterMap_filterMap]
  refine List.filterMap_congr fun item _ => ?_
  cases item with
  | object m => rfl
  | _ => rfl

theorem checkUniqueShareObjects_eq_nil (m : Members) :
    checkUniqueShareObjects (getMember m "shares") = [] ↔ ((shareNamesOf m).map lower).Nodup := by
  unfold checkUniqueShareObjects shareNamesOf recordsOf itemsOf
  rcases getMember m "shares" with _ | v
  · exact iff_of_true rfl List.nodup_nil
  · cases v with
    | array items =>
        dsimp only
        rw [checkUniqueNames_eq_nil, filterMap_nameOf]
        exact and_iff_left fun v _ => List.not_mem_nil
    | _ => exact iff_of_true rfl List.nodup_nil

omit [Unicode] in
theorem checkVersion_eq_nil (n : Int) : checkVersion n = [] ↔ n = schemaVersion := by
  unfold checkVersion schemaVersion
  by_cases hnew : 1 < n
  · rw [if_pos hnew]
    exact iff_of_false problems_ne_nil (by omega)
  · rw [if_neg hnew]
    by_cases hold : n < 1
    · rw [if_pos hold]
      exact iff_of_false problems_ne_nil (by omega)
    · rw [if_neg hold]
      exact iff_of_true rfl (by omega)

/-- A version with not too many digits. -/
def ShortVersion (value : Option Json) : Prop :=
  ∀ n, value = some (.int n) → (digits n.natAbs).length ≤ maxStrDigits

omit [Unicode] in
theorem shortVersion_schemaVersion : ShortVersion (some (.int schemaVersion)) := by
  rintro n ⟨⟩
  decide

omit [Unicode] in
theorem checkVersionMember_ok (value : Option Json) :
    (∃ problems, checkVersionMember value = .ok problems) ↔ ShortVersion value := by
  unfold checkVersionMember
  split
  · rename_i n
    split
    · rename_i hshort
      refine iff_of_true ⟨_, rfl⟩ ?_
      rintro m ⟨⟩
      rcases hshort with hnil | hshort
      · rw [(checkVersion_eq_nil n).mp hnil]
        decide
      · exact hshort
    · rename_i hlong
      exact iff_of_false (fun ⟨_, h⟩ => nomatch h) fun h => hlong (Or.inr (h n rfl))
  · rename_i hnot
    exact iff_of_true ⟨_, rfl⟩ fun n hn => absurd hn (hnot n)

omit [Unicode] in
theorem checkVersionMember_eq_nil (value : Option Json) :
    checkVersionMember value = .ok [] ↔ value = some (.int schemaVersion) := by
  unfold checkVersionMember
  split
  · rename_i n
    rw [Option.some.injEq, Json.int.injEq, ← checkVersion_eq_nil]
    split
    · exact ⟨Except.ok.inj, congrArg Except.ok⟩
    · rename_i hlong
      exact iff_of_false (fun h => nomatch h) fun h => hlong (Or.inl h)
  · rename_i hnot
    exact iff_of_false (fun h => problems_ne_nil (Except.ok.inj h)) (hnot schemaVersion)

variable [JsonText]

/-- Every connection's `keychain_credential` can be looked up, and what a problem may have
    to show can be shown. -/
def Looked (doc : Json) : Prop :=
  ∀ m, doc = .object m → ShortVersion (getMember m "version") ∧
    (∀ s ∈ recordsOf m "shares", Shown (getMember s "type")) ∧
      ∀ c ∈ recordsOf m "connections", ConnectionLooked c

theorem DocumentMeets.looked {nullable : Bool} {m : Members} (h : DocumentMeets nullable m) :
    Looked (.object m) := by
  intro m' heq
  obtain rfl := Json.object.inj heq
  refine ⟨?_, fun s hs => Field.shown (h.shares s hs).type, fun c hc => (h.connections c hc).looked⟩
  rw [h.version]
  exact shortVersion_schemaVersion

/-- The parts of a document that is an object. -/
theorem validateDocument_object {m : Members} {problems : List Problem} :
    validateDocument (.object m) = .ok problems ↔
      ∃ version, checkVersionMember (getMember m "version") = .ok version ∧
        ∃ shares, validateObjectList m "shares" validateShareObject [] = .ok shares ∧
          ∃ connections, validateObjectList m "connections" validateConnectionObject shares.2 =
              .ok connections ∧
            checkKeys (str "<document>") m topKeys [str "version"] ++ version ++ shares.1 ++
              connections.1 ++ checkUniqueShareObjects (getMember m "shares") = problems := by
  refine except_bind_eq_ok.trans (exists_congr fun version => and_congr_right fun _ => ?_)
  refine except_bind_eq_ok.trans (exists_congr fun shares => and_congr_right fun _ => ?_)
  refine except_bind_eq_ok.trans (exists_congr fun connections => and_congr_right fun _ => ?_)
  exact ⟨Except.ok.inj, congrArg Except.ok⟩

/-- Validation returns exactly where everything can be looked at. -/
theorem validateDocument_ok (doc : Json) :
    (∃ problems, validateDocument doc = .ok problems) ↔ Looked doc := by
  cases doc with
  | object m =>
      have hversion := checkVersionMember_ok (getMember m "version")
      have hshares := validateObjectList_ok validateShareObject m "shares" validateShareObject_ok []
      have hconns := validateObjectList_ok validateConnectionObject m "connections"
        validateConnectionObject_ok
      -- A document goes through the version, the shares and the connections.
      constructor
      · rintro ⟨problems, h⟩ m' heq
        obtain rfl := Json.object.inj heq
        rcases validateDocument_object.mp h with ⟨version, hv, shares, hs, connections, hc, -⟩
        exact ⟨hversion.mp ⟨version, hv⟩, hshares.mp ⟨shares, hs⟩,
          (hconns shares.2).mp ⟨connections, hc⟩⟩
      · intro h
        rcases h m rfl with ⟨hshort, hshown, hlooked⟩
        rcases hversion.mpr hshort with ⟨version, hv⟩
        rcases hshares.mpr hshown with ⟨shares, hs⟩
        rcases (hconns shares.2).mpr hlooked with ⟨connections, hc⟩
        exact ⟨_, validateDocument_object.mpr ⟨version, hv, shares, hs, connections, hc, rfl⟩⟩
  | _ => exact iff_of_true ⟨_, rfl⟩ fun m h => nomatch h

/-- What is accepted is what meets the schema that lets null through. -/
theorem validateDocument_eq_nil (doc : Json) :
    validateDocument doc = .ok [] ↔ Meets true doc := by
  cases doc with
  | object m =>
      constructor
      · intro h
        rcases validateDocument_object.mp h with
          ⟨version, hversion, shares, hshares, connections, hconns, hnil⟩
        simp only [List.append_eq_nil_iff, checkKeys_eq_nil, checkUniqueShareObjects_eq_nil] at hnil
        rcases hnil with ⟨⟨⟨⟨⟨hkeys, -⟩, rfl⟩, hs⟩, hc⟩, hnames⟩
        have hsl := validateObjectList_eq_nil _ m "shares" validateShareObject_eq_nil hshares
        have hcl := validateObjectList_eq_nil _ m "connections" validateConnectionObject_eq_nil
          hconns
        -- The second list goes on with the ids of the first, so none is in both.
        rcases hsl.1.mp hs with ⟨hslist, hsall, hsnd, -⟩
        rcases hcl.1.mp hc with ⟨hclist, hcall, hcnd, hdis⟩
        rw [hsl.2 hs] at hdis
        refine ⟨m, rfl, hkeys, (checkVersionMember_eq_nil _).mp hversion, hslist, hclist, hsall,
          hcall, ?_, hnames⟩
        exact List.nodup_append.mpr ⟨hsnd, hcnd, fun a ha b hb hab => hdis b hb (hab ▸ ha)⟩
      · rintro ⟨m', heq, h⟩
        obtain rfl := Json.object.inj heq
        rcases List.nodup_append.mp h.ids with ⟨hsnd, hcnd, hdis⟩
        -- A document that meets the schema can be shown, so the checks return.
        rcases (validateDocument_ok (.object m)).mpr h.looked with ⟨problems, hp⟩
        rcases validateDocument_object.mp hp with
          ⟨version, hversion, shares, hshares, connections, hconns, rfl⟩
        have hsl := validateObjectList_eq_nil _ m "shares" validateShareObject_eq_nil hshares
        have hcl := validateObjectList_eq_nil _ m "connections" validateConnectionObject_eq_nil
          hconns
        have hs := hsl.1.mpr ⟨h.shareList, h.shares, hsnd, fun v _ => List.not_mem_nil⟩
        have hc := hcl.1.mpr ⟨h.connectionList, h.connections, hcnd, fun v hv hm => by
          rw [hsl.2 hs] at hm
          exact hdis v hm v hv rfl⟩
        have hkey : str "version" ∈ m.map Prod.fst := by
          rw [mem_keys_iff, h.version]
          exact Option.some_ne_none _
        obtain rfl := Except.ok.inj (((checkVersionMember_eq_nil _).mpr h.version).symm.trans
          hversion)
        rw [hp, hs, hc, (checkKeys_eq_nil _ m _ _).mpr ⟨h.keys, List.forall_mem_singleton.mpr hkey⟩,
          (checkUniqueShareObjects_eq_nil m).mpr h.names]
        rfl
  | _ => exact iff_of_false (fun h => problems_ne_nil (Except.ok.inj h)) fun ⟨m, h, _⟩ => nomatch h

end Documents

/-! ## The typed document -/

section Typed

variable [Unicode]

theorem ShareMeets.wellFormed {nullable : Bool} {m : Members} (h : ShareMeets nullable m) :
    (shareOf m).WellFormed where
  id := h.id.nullOr
  name := h.name.nullOr
  path := h.path.nullOr
  credentialRef := h.credentialRef.nullOr

omit [Unicode] in
theorem ConnectionMeets.wellFormed {nullable : Bool} {m : Members}
    (h : ConnectionMeets nullable m) : (connectionOf m).WellFormed where
  id := h.id.nullOr
  host := h.host.nullOr
  share := h.share.nullOr
  mountpoint := h.mountpoint.nullOr
  credentialRef := h.credentialRef.nullOr
  owner := h.owner.nullOr
  fallbackHost := h.fallbackHost.nullOr
  credentialAccount := h.credentialAccount.nullOr
  autoConnect := h.autoConnect.nullOr

/-- An accepted document is a valid config. -/
theorem valid_toConfig {nullable : Bool} {doc : Json} (h : Meets nullable doc) :
    (toConfig doc).Valid := by
  rcases h with ⟨m, rfl, h⟩
  rw [valid_iff, checkUniqueShareNames_eq, checkUniqueNames_eq_nil]
  refine ⟨⟨?_, ?_, ?_, ?_⟩, ?_, fun v _ => List.not_mem_nil⟩
  · -- The typed records have what the schema has checked.
    change versionOf (getMember m "version") = schemaVersion
    rw [h.version]
    rfl
  · exact List.forall_mem_map.mpr fun s hs => (h.shares s hs).wellFormed
  · exact List.forall_mem_map.mpr fun c hc => (h.connections c hc).wellFormed
  · have hids := h.ids
    unfold idsOf at hids
    change (((recordsOf m "shares").map shareOf).filterMap Share.id ++
      ((recordsOf m "connections").map connectionOf).filterMap Connection.id).Nodup
    rw [List.filterMap_map, List.filterMap_map]
    exact hids
  · have hnames := h.names
    unfold shareNamesOf at hnames
    change ((((recordsOf m "shares").map shareOf).map Share.name).filterMap id |>.map lower).Nodup
    rw [List.filterMap_map, List.filterMap_map]
    exact hnames

/-- The members that have to be there, and have a value. -/
def requiredShareKeys : List String :=
  ["type", "id", "name", "path"]

/-- The members of a connection that have to be there, and have a value. -/
def requiredConnectionKeys : List String :=
  ["type", "id", "host", "share", "mountpoint"]

/-- No required field of a share or a connection is null. -/
def NoNulls (doc : Json) : Prop :=
  ∀ m, doc = .object m →
    (∀ s ∈ recordsOf m "shares", ∀ key ∈ requiredShareKeys, getMember s key ≠ some .null) ∧
    ∀ c ∈ recordsOf m "connections", ∀ key ∈ requiredConnectionKeys, getMember c key ≠ some .null

theorem shareMeets_strict (m : Members) :
    ShareMeets false m ↔
      ShareMeets true m ∧ ∀ key ∈ requiredShareKeys, getMember m key ≠ some .null := by
  unfold requiredShareKeys
  simp only [List.forall_mem_cons, List.not_mem_nil, false_implies, implies_true, and_true]
  constructor
  · intro h
    rcases Field.strict_iff.mp h.type with ⟨htype, htype'⟩
    rcases Field.strict_iff.mp h.id with ⟨hid, hid'⟩
    rcases Field.strict_iff.mp h.name with ⟨hname, hname'⟩
    rcases Field.strict_iff.mp h.path with ⟨hpath, hpath'⟩
    exact ⟨⟨h.keys, htype, hid, hname, hpath, h.readOnly, h.enabled, h.credentialRef⟩,
      htype', hid', hname', hpath'⟩
  · rintro ⟨h, htype, hid, hname, hpath⟩
    exact ⟨h.keys, Field.strict_iff.mpr ⟨h.type, htype⟩, Field.strict_iff.mpr ⟨h.id, hid⟩,
      Field.strict_iff.mpr ⟨h.name, hname⟩, Field.strict_iff.mpr ⟨h.path, hpath⟩, h.readOnly,
      h.enabled, h.credentialRef⟩

omit [Unicode] in
theorem connectionMeets_strict (m : Members) :
    ConnectionMeets false m ↔
      ConnectionMeets true m ∧ ∀ key ∈ requiredConnectionKeys, getMember m key ≠ some .null := by
  unfold requiredConnectionKeys
  simp only [List.forall_mem_cons, List.not_mem_nil, false_implies, implies_true, and_true]
  constructor
  · intro h
    rcases Field.strict_iff.mp h.type with ⟨htype, htype'⟩
    rcases Field.strict_iff.mp h.id with ⟨hid, hid'⟩
    rcases Field.strict_iff.mp h.host with ⟨hhost, hhost'⟩
    rcases Field.strict_iff.mp h.share with ⟨hshare, hshare'⟩
    rcases Field.strict_iff.mp h.mountpoint with ⟨hpath, hpath'⟩
    exact ⟨⟨h.keys, htype, hid, hhost, hshare, hpath, h.credentialRef, h.owner, h.fallbackHost,
      h.credentialAccount, h.disconnected, h.keychainCredential, h.autoConnect⟩,
      htype', hid', hhost', hshare', hpath'⟩
  · rintro ⟨h, htype, hid, hhost, hshare, hpath⟩
    exact ⟨h.keys, Field.strict_iff.mpr ⟨h.type, htype⟩, Field.strict_iff.mpr ⟨h.id, hid⟩,
      Field.strict_iff.mpr ⟨h.host, hhost⟩, Field.strict_iff.mpr ⟨h.share, hshare⟩,
      Field.strict_iff.mpr ⟨h.mountpoint, hpath⟩, h.credentialRef, h.owner, h.fallbackHost,
      h.credentialAccount, h.disconnected, h.keychainCredential, h.autoConnect⟩

/-- What meets the schema that lets null through meets the schema when it has no null. -/
theorem meets_strict (doc : Json) : Meets false doc ↔ Meets true doc ∧ NoNulls doc := by
  constructor
  · rintro ⟨m, rfl, h⟩
    refine ⟨⟨m, rfl, h.keys, h.version, h.shareList, h.connectionList, fun s hs => ?_,
      fun c hc => ?_, h.ids, h.names⟩, fun m' heq => ?_⟩
    · exact ((shareMeets_strict s).mp (h.shares s hs)).1
    · exact ((connectionMeets_strict c).mp (h.connections c hc)).1
    · obtain rfl := Json.object.inj heq
      exact ⟨fun s hs => ((shareMeets_strict s).mp (h.shares s hs)).2,
        fun c hc => ((connectionMeets_strict c).mp (h.connections c hc)).2⟩
  · rintro ⟨⟨m, rfl, h⟩, hno⟩
    rcases hno m rfl with ⟨hshares, hconns⟩
    refine ⟨m, rfl, h.keys, h.version, h.shareList, h.connectionList, fun s hs => ?_,
      fun c hc => ?_, h.ids, h.names⟩
    · exact (shareMeets_strict s).mpr ⟨h.shares s hs, hshares s hs⟩
    · exact (connectionMeets_strict c).mpr ⟨h.connections c hc, hconns c hc⟩

/-- Every mountpoint has a UTF-8. -/
def PlainMountpoints (doc : Json) : Prop :=
  ∀ c ∈ (toConfig doc).connections, ∀ p, c.mountpoint = some p → IsPlain p

/-- Unit names can be made of every connection, and `smbpal.conf` of the shares. The
    source of a mount is always a text. -/
def Served (doc : Json) : Prop :=
  (∀ c ∈ (toConfig doc).connections, (c.mountpoint.bind unitNames).isSome = true) ∧
    ∃ text, render (toConfig doc).shares = .ok text

omit [Unicode] in
theorem Field.text {P : Str → Prop} {m : Members} {key : String}
    (h : Field false P (getMember m key)) : ∃ s, textMember m key = some s := by
  rcases h with ⟨h, -⟩ | ⟨s, h, -⟩
  · exact absurd h Bool.false_ne_true
  · exact ⟨s, by rw [textMember, h]⟩

/-- What meets the schema can be served when its mountpoints have a UTF-8. -/
theorem Meets.served {doc : Json} (h : Meets false doc) (hplain : PlainMountpoints doc) :
    Served doc := by
  have hvalid := valid_toConfig h
  rcases h with ⟨m, rfl, h⟩
  constructor
  · intro c hc
    rcases List.mem_map.mp hc with ⟨r, hr, rfl⟩
    rcases (h.connections r hr).mountpoint.text with ⟨p, hp⟩
    have hfield : (connectionOf r).mountpoint = some p := hp
    rw [hfield]
    exact (unitNames_isSome_iff p).mpr (hplain _ hc p hfield)
  · refine ⟨_, render_eq spaceOnly [] hvalid.sound.shares fun s hs => ?_⟩
    rcases List.mem_map.mp (List.mem_of_mem_filter hs) with ⟨r, hr, rfl⟩
    exact ⟨Option.isSome_iff_exists.mpr (h.shares r hr).name.text,
      Option.isSome_iff_exists.mpr (h.shares r hr).path.text⟩

/-- Validation is exact on a document: it returns, it finds nothing exactly when the
    document meets the schema, and what it accepts can be served. -/
def Exact [JsonText] (doc : Json) : Prop :=
  (∃ problems, validateDocument doc = .ok problems ∧ (problems = [] ↔ Meets false doc)) ∧
    (validateDocument doc = .ok [] → Served doc)

/-- Validation is exact unless a connection's `keychain_credential` is a list or an
    object, or what a problem has to show cannot be shown, or all that is wrong with a
    document is a null in a required field, or a mountpoint with no UTF-8. -/
theorem schema_exact [JsonText] (doc : Json) :
    Exact doc ↔ Looked doc ∧ (Meets true doc → NoNulls doc ∧ PlainMountpoints doc) := by
  constructor
  · rintro ⟨⟨problems, hret, hiff⟩, hserved⟩
    refine ⟨(validateDocument_ok doc).mp ⟨problems, hret⟩, fun hmeets => ?_⟩
    have hnil := (validateDocument_eq_nil doc).mpr hmeets
    -- What is accepted meets the schema with nulls, and by exactness the one without.
    have hstrict := hiff.mp (Except.ok.inj (hret.symm.trans hnil))
    refine ⟨((meets_strict doc).mp hstrict).2, fun c hc p hp => ?_⟩
    have hnames := (hserved hnil).1 c hc
    rw [hp] at hnames
    exact (unitNames_isSome_iff p).mp hnames
  · rintro ⟨hlooked, hmeets⟩
    rcases (validateDocument_ok doc).mpr hlooked with ⟨problems, hret⟩
    have haccept : problems = [] ↔ Meets true doc := by
      rw [← validateDocument_eq_nil, hret]
      exact ⟨congrArg Except.ok, Except.ok.inj⟩
    refine ⟨⟨problems, hret, haccept.trans ⟨fun h => ?_, fun h => ?_⟩⟩, fun hnil => ?_⟩
    · exact (meets_strict doc).mpr ⟨h, (hmeets h).1⟩
    · exact ((meets_strict doc).mp h).1
    · have h := (validateDocument_eq_nil doc).mp hnil
      exact ((meets_strict doc).mpr ⟨h, (hmeets h).1⟩).served (hmeets h).2

end Typed

section Examples

attribute [local instance] Unicode.ascii

/-- A document with one share, with this for a name. -/
def shareNamed (name : Json) : Json :=
  .object
    [(str "version", .int 1),
      (str "shares", .array
        [.object [(str "type", .string (str "os")), (str "id", .string (str "films")),
          (str "name", name), (str "path", .string (str "/srv/films"))]])]

/-- A document with one connection that has no more than this. -/
def connectionMarked (mark : Json) : Json :=
  .object
    [(str "version", .int 1),
      (str "connections", .array [.object [(str "keychain_credential", mark)]])]

attribute [local instance] JsonText.none

set_option maxRecDepth 10000 in
/-- A share with no name is accepted, and a list for a mark raises. -/
theorem null_name_accepted :
    ¬Exact (shareNamed .null) ∧ ¬Exact (connectionMarked (.array [])) := by
  constructor
  · rintro ⟨⟨problems, hret, hiff⟩, -⟩
    have hnil : validateDocument (shareNamed .null) = .ok [] := by rfl
    have hstrict := hiff.mp (Except.ok.inj (hret.symm.trans hnil))
    have hno := ((meets_strict _).mp hstrict).2 _ rfl
    exact hno.1 _ List.mem_cons_self "name" (by decide) rfl
  · rintro ⟨⟨problems, hret, -⟩, -⟩
    have hlooked := (validateDocument_ok _).mp ⟨problems, hret⟩ _ rfl
    exact ((hlooked.2.2 _ List.mem_cons_self).hashable _ rfl).1 [] rfl

end Examples

end Smbpal
