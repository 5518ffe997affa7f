import Smbpal.Helper.Sharepoints
import Smbpal.Mounts.MountTable
import Smbpal.Python.Numbers

/-!
# The Helper's Report of a Path

`path.inspect`: what the helper says of a path, a line for a field, and
`parse_path_facts` in `system/helper.py`, which reads it.

The helper refuses a path with a line feed or a carriage return in it, so that
no path can end a line and put a field of its own behind it. Python's lines have
more ends than these two, and the reader cuts at all of them; and it decodes the
report as UTF-8, which a path need not be. So a path, or an owner's name, comes
through exactly if it has a UTF-8 without any of Python's line ends
(`report_survives_iff`). With one of the others in it, a path can say what an
account may do there that nobody asked about (`access_forged`).

A number is read as Python reads it. The numbers of a report are the helper's
own in any case: a second field of a name is refused.

## Main definitions

* `InspectReport`, `pathReply`: What the helper holds, and what it answers.
* `InspectFacts`, `parsePathFacts`: What the daemon makes of it.
* `InspectReport.Told`: The report, as it is to be told.
* `DecodesToLine`: Bytes that are one line of text to Python.

## Theorems

* `readFields_rendered`: Fields without line ends are read back.
* `report_survives_iff`: When the report survives the trip.
* `access_forged`: A path that forges a field.
-/

namespace Smbpal

/-! ### The helper's side -/

/-- What is said of a verdict. -/
def PathVerdict.word (verdict : PathVerdict) : Str :=
  str verdict.token

/-- `ACCESS_STATES`: what an ACE says of an account. -/
inductive AccessState where
  | none
  | allow
  | deny
  deriving DecidableEq

/-- What is said of it. -/
def AccessState.word : AccessState → Str
  | .none => str "none"
  | .allow => str "allow"
  | .deny => str "deny"

/-- A string of C. -/
structure CString where
  bytes : List UInt8
  no_nul : 0 ∉ bytes

/-- `struct path_report` with all its fields, and what an ACE says of the account
    that was asked about. -/
structure InspectReport where
  verdict : PathVerdict
  resolved : CString
  uid : Nat
  gid : Nat
  mode : Nat
  owner : CString
  hasAcl : Bool
  access : Option AccessState

/-- A number in base eight, with four digits or more: `%04o`. -/
def octalDigits (n : Nat) : Str :=
  (List.replicate (4 - (Nat.toDigits 8 n).length) '0' ++ Nat.toDigits 8 n).map .scalar

/-- `st_mode & 07777`. -/
def InspectReport.permissions (r : InspectReport) : Nat :=
  r.mode % 4096

/-- The fields of a report, in their order. -/
def InspectReport.fields (r : InspectReport) : List (String × List UInt8) :=
  if r.verdict = .notFound then [("verdict", utf8 r.verdict.word)]
  else
    [("verdict", utf8 r.verdict.word), ("resolved", r.resolved.bytes),
      ("uid", utf8 (digits r.uid)), ("gid", utf8 (digits r.gid)),
      ("mode", utf8 (octalDigits r.permissions)), ("owner", r.owner.bytes),
      ("acl", utf8 (if r.hasAcl then str "1" else str "0"))] ++
    (match r.access with
      | some access => [("access", utf8 access.word)]
      | none => [])

/-- A field's line. -/
def fieldLine (field : String × List UInt8) : List UInt8 :=
  utf8 (str field.1) ++ 32 :: field.2 ++ [10]

/-- `PATH_MAX`. -/
def pathMax : Nat := 1024

/-- What follows the helper's `OK`; otherwise it refuses. -/
def pathReply (r : InspectReport) : Option (List UInt8) :=
  if 10 ∈ r.resolved.bytes ∨ 13 ∈ r.resolved.bytes then none
  else
    let out := r.fields.flatMap fieldLine
    if pathMax + 256 ≤ 3 + out.length then none else some out

/-! ### The daemon's side -/

/-- `PathFacts`, with all its fields. -/
structure InspectFacts where
  verdict : PathVerdict
  resolved : Option Str
  uid : Option Int
  gid : Option Int
  mode : Option Int
  owner : Option Str
  hasAcl : Bool
  access : Option AccessState
  deriving DecidableEq

/-- What `parse_path_facts` raises: a `HelperError` with this message, or a
    `UnicodeDecodeError`. -/
inductive InspectError where
  | helper (message : Str)
  | undecodable
  deriving DecidableEq

/-- The answer is not one the helper gives. -/
def malformedAnswer : InspectError :=
  .helper (str "the helper's path.inspect answer is malformed")

/-- `line.partition(" ")`, when there is a blank. -/
def partitionBlank : Str → Option (Str × Str)
  | [] => none
  | c :: s =>
      if c = chr ' ' then some ([], s)
      else (partitionBlank s).map fun parts => (c :: parts.1, parts.2)

/-- The keys that are known. -/
def knownKeys : List Str :=
  [str "verdict", str "resolved", str "uid", str "gid", str "mode", str "owner", str "acl",
    str "access"]

/-- The fields of some lines, after those read before. -/
def readFields (fields : List (Str × Str)) : List Str → Except InspectError (List (Str × Str))
  | [] => .ok fields
  | line :: lines =>
      match partitionBlank line with
      | none => .error malformedAnswer
      | some (key, value) =>
          if key ∈ fields.map Prod.fst ∨ key ∉ knownKeys then .error malformedAnswer
          else readFields (fields ++ [(key, value)]) lines

/-- The verdict a word says. -/
def verdictOf (word : Str) : Option PathVerdict :=
  [PathVerdict.ok, .notFound, .notDirectory, .outsideRoots, .homeRoot, .systemOwned].find?
    fun verdict => decide (verdict.word = word)

/-- `_access`, of a value that is there. -/
def accessOf (word : Str) : Except InspectError AccessState :=
  match [AccessState.allow, .deny, .none].find? fun access => decide (access.word = word) with
  | some access => .ok access
  | none => .error (.helper (str "the helper's path.inspect answer has an unknown access state"))

section Numbers

variable [Decimals]

/-- A value that must be there and be readable: a `KeyError` and a `ValueError`
    become the one refusal. -/
def required {α : Type} : Option α → Except InspectError α
  | some value => .ok value
  | none => .error malformedAnswer

/-- `_access`. -/
def accessField (word : Option Str) : Except InspectError (Option AccessState) :=
  match word with
  | none => .ok none
  | some word => (accessOf word).map some

/-- The facts of a path that is there. -/
def factsOf (verdict : PathVerdict) (fields : List (Str × Str)) :
    Except InspectError InspectFacts := do
  let resolved ← required (fields.lookup (str "resolved"))
  let uid ← required ((fields.lookup (str "uid")).bind (pyInt 10))
  let gid ← required ((fields.lookup (str "gid")).bind (pyInt 10))
  let mode ← required ((fields.lookup (str "mode")).bind (pyInt 8))
  let owner ← required (fields.lookup (str "owner"))
  let acl ← required (fields.lookup (str "acl"))
  let access ← accessField (fields.lookup (str "access"))
  pure
    { verdict := verdict
      resolved := some resolved
      uid := some uid
      gid := some gid
      mode := some mode
      owner := some owner
      hasAcl := decide (acl = str "1")
      access := access }

/-- The facts of a path that is not there. -/
def nothingFound : InspectFacts where
  verdict := .notFound
  resolved := none
  uid := none
  gid := none
  mode := none
  owner := none
  hasAcl := false
  access := none

/-- The facts, once there is a verdict. -/
def describe (verdict : Option PathVerdict) (fields : List (Str × Str)) :
    Except InspectError InspectFacts :=
  match verdict with
  | none => .error (.helper (str "the helper's path.inspect answer has no known verdict"))
  | some verdict => if verdict = .notFound then .ok nothingFound else factsOf verdict fields

/-- `parse_path_facts`. -/
def parsePathFacts (payload : List UInt8) : Except InspectError InspectFacts :=
  match decodeUtf8 payload with
  | none => .error .undecodable
  | some text => do
      let fields ← readFields [] ((splitlines text).map lineText)
      describe ((fields.lookup (str "verdict")).bind verdictOf) fields

end Numbers

/-- The facts are the report's: the same values, and the path and the owner's name
    decoded reversibly. Of a path that is not there, only the verdict is said. -/
def InspectReport.Told (r : InspectReport) (facts : InspectFacts) : Prop :=
  if r.verdict = .notFound then facts = nothingFound
  else
    facts.verdict = r.verdict ∧
      (∃ resolved, facts.resolved = some resolved ∧ fsEncode resolved = some r.resolved.bytes) ∧
      facts.uid = some (r.uid : Int) ∧ facts.gid = some (r.gid : Int) ∧
      facts.mode = some (r.permissions : Int) ∧
      (∃ owner, facts.owner = some owner ∧ fsEncode owner = some r.owner.bytes) ∧
      facts.hasAcl = r.hasAcl ∧ facts.access = r.access

/-- Bytes that are text to Python, and one line of it. -/
def DecodesToLine (bytes : List UInt8) : Prop :=
  ∃ text, decodeUtf8 bytes = some text ∧ ∀ c ∈ text, isLineBoundary c = false

/-! ### Numbers -/

section ReadNumbers

variable [Decimals]

omit [Decimals] in
theorem isDigitOf_of_mem_octal {n : Nat} {c : Char}
    (hc : c ∈ List.replicate (4 - (Nat.toDigits 8 n).length) '0' ++ Nat.toDigits 8 n) :
    IsDigitOf 8 c := by
  rcases List.mem_append.mp hc with hc | hc
  · rw [(List.mem_replicate.mp hc).2]
    exact ⟨by decide, by decide⟩
  · exact ⟨Nat.isDigit_of_mem_toDigits (by omega) (by omega) hc,
      digit_lt_of_mem_toDigits (by omega) (by omega) hc⟩

theorem pyInt_octal (n : Nat) : pyInt 8 (octalDigits n) = some (n : Int) := by
  unfold octalDigits
  rw [pyInt_digits]
  · rw [Nat.ofDigitChars_append, Nat.ofDigitChars_replicate_zero, Nat.mul_zero,
      Nat.ofDigitChars_toDigits (by omega) (by omega)]
  · exact List.append_ne_nil_of_right_ne_nil _ Nat.toDigits_ne_nil
  · exact fun c hc => isDigitOf_of_mem_octal hc

end ReadNumbers

/-! ### Fields that are read back -/

section ReadBackFields

/-- A field's line as text. -/
def fieldText (field : Str × Str) : Str :=
  field.1 ++ chr ' ' :: field.2

/-- No line of Python's ends in the text. -/
def NoLineEnd (text : Str) : Prop :=
  ∀ c ∈ text, isLineBoundary c = false

theorem partitionBlank_fieldText {field : Str × Str} (h : chr ' ' ∉ field.1) :
    partitionBlank (fieldText field) = some field := by
  rcases field with ⟨key, value⟩
  unfold fieldText
  induction key with
  | nil => rfl
  | cons c key ih =>
      have hc : c ≠ chr ' ' := fun heq => h (heq ▸ List.mem_cons_self)
      have hrest := ih fun hmem => h (List.mem_cons_of_mem c hmem)
      dsimp only at hrest ⊢
      rw [List.cons_append, partitionBlank, if_neg hc, hrest]
      rfl

/-- Known keys have no blank in them, and end no line. -/
theorem knownKeys_plain : ∀ key ∈ knownKeys, chr ' ' ∉ key ∧ NoLineEnd key := by
  have hall : (knownKeys.all fun key => key.all fun c =>
      decide (c ≠ chr ' ') && !isLineBoundary c) = true := by decide
  intro key hkey
  have hkey := List.all_eq_true.mp (List.all_eq_true.mp hall key hkey)
  refine ⟨fun hmem => ?_, fun c hc => ?_⟩
  · have hblank := (Bool.and_eq_true_iff.mp (hkey _ hmem)).1
    exact absurd hblank (by decide)
  · have hend := (Bool.and_eq_true_iff.mp (hkey c hc)).2
    simpa using hend

/-- Fields of different known keys are read back, behind those read before. -/
theorem readFields_fieldText {done fields : List (Str × Str)}
    (hkeys : ((done ++ fields).map Prod.fst).Nodup) (hknown : ∀ f ∈ fields, f.1 ∈ knownKeys) :
    readFields done (fields.map fieldText) = .ok (done ++ fields) := by
  induction fields generalizing done with
  | nil => rw [List.append_nil]; rfl
  | cons field fields ih =>
      rw [List.forall_mem_cons] at hknown
      have hblank : chr ' ' ∉ field.1 := (knownKeys_plain _ hknown.1).1
      have hnew : ¬(field.1 ∈ done.map Prod.fst ∨ field.1 ∉ knownKeys) := by
        rintro (hmem | hnot)
        · rw [List.map_append, List.nodup_append] at hkeys
          exact hkeys.2.2 _ hmem _ (List.mem_cons_self) rfl
        · exact hnot hknown.1
      have hsplit : done ++ field :: fields = (done ++ [field]) ++ fields := by
        rw [List.append_assoc, List.singleton_append]
      rw [List.map_cons, readFields, partitionBlank_fieldText hblank]
      dsimp only
      rw [if_neg hnew, hsplit]
      exact ih (hsplit ▸ hkeys) hknown.2

/-- The lines of some fields. -/
def renderFields (fields : List (Str × Str)) : Str :=
  fields.flatMap fun field => fieldText field ++ [chr '\n']

theorem lines_renderFields {fields : List (Str × Str)}
    (h : ∀ f ∈ fields, NoLineEnd f.1 ∧ NoLineEnd f.2) :
    (splitlines (renderFields fields)).map lineText = fields.map fieldText := by
  induction fields with
  | nil => rfl
  | cons field fields ih =>
      rw [List.forall_mem_cons] at h
      have hbody : NoLineEnd (fieldText field) := by
        intro c hc
        rcases List.mem_append.mp hc with hc | hc
        · exact h.1.1 c hc
        · rcases List.mem_cons.mp hc with rfl | hc
          · decide
          · exact h.1.2 c hc
      have htext : renderFields (field :: fields)
          = fieldText field ++ str "\n" ++ renderFields fields := rfl
      rw [htext, splitlines_line hbody (Or.inl rfl), List.map_cons, ih h.2, List.map_cons,
        lineText_append hbody (by decide)]

/-- Fields of different known keys whose values end no line are read back. -/
theorem readFields_rendered {fields : List (Str × Str)} (hkeys : (fields.map Prod.fst).Nodup)
    (hknown : ∀ f ∈ fields, f.1 ∈ knownKeys) (hvalues : ∀ f ∈ fields, NoLineEnd f.2) :
    readFields [] ((splitlines (renderFields fields)).map lineText) = .ok fields := by
  rw [lines_renderFields fun f hf => ⟨(knownKeys_plain _ (hknown f hf)).2, hvalues f hf⟩]
  have hread : readFields [] (fields.map fieldText) = .ok ([] ++ fields) :=
    readFields_fieldText hkeys hknown
  exact hread

theorem pathReply_eq {r : InspectReport} {payload : List UInt8} (h : pathReply r = some payload) :
    payload = r.fields.flatMap fieldLine := by
  unfold pathReply at h
  split at h
  · exact nomatch h
  · dsimp only at h
    split at h
    · exact nomatch h
    · exact (Option.some.inj h).symm

/-- A field's bytes are its text's. -/
def IsFieldOf (field : String × List UInt8) (text : Str × Str) : Prop :=
  text.1 = str field.1 ∧ encode text.2 = some field.2

theorem encode_renderFields {fields : List (String × List UInt8)} {texts : List (Str × Str)}
    (h : List.Forall₂ IsFieldOf fields texts) :
    encode (renderFields texts) = some (fields.flatMap fieldLine) := by
  induction h with
  | nil => rfl
  | @cons field text fields texts hfield _ ih =>
      rcases hfield with ⟨hkey, hvalue⟩
      -- Keys are ASCII, so they have bytes whatever the value is.
      have hkeyEnc : encode (str field.1) = some (utf8 (str field.1)) := by
        have hplain : IsPlain (str field.1) := by
          intro c hc
          rcases List.mem_map.mp hc with ⟨d, -, rfl⟩
          exact ⟨d, rfl⟩
        exact hplain.encode_eq
      have hblank : encode [chr ' '] = some [32] := by decide
      have hfeed : encode [chr '\n'] = some [10] := by decide
      have hline := encode_append (encode_append (encode_append hkeyEnc
        (encode_append hblank hvalue))
        hfeed) ih
      have htext : renderFields (text :: texts)
          = str field.1 ++ ([chr ' '] ++ text.2) ++ [chr '\n'] ++ renderFields texts := by
        rw [← hkey]
        rfl
      rw [htext, hline]
      simp only [List.flatMap_cons, fieldLine, List.append_assoc, List.cons_append,
        List.nil_append]

theorem partitionBlank_suffix {line : Str} {parts : Str × Str}
    (h : partitionBlank line = some parts) : parts.2 <:+ line := by
  induction line generalizing parts with
  | nil => exact nomatch h
  | cons c line ih =>
      rw [partitionBlank] at h
      by_cases hc : c = chr ' '
      · rw [if_pos hc] at h
        rw [← Option.some.inj h]
        exact List.suffix_cons c line
      · rw [if_neg hc] at h
        rcases Option.map_eq_some_iff.mp h with ⟨rest, hrest, rfl⟩
        exact (ih hrest).trans (List.suffix_cons c line)

/-- A value that was read is the end of a line. -/
theorem readFields_mem {done fields : List (Str × Str)} {lines : List Str}
    (h : readFields done lines = .ok fields) :
    ∀ f ∈ fields, f ∈ done ∨ ∃ line ∈ lines, f.2 <:+ line := by
  induction lines generalizing done with
  | nil =>
      rw [← Except.ok.inj h]
      exact fun f hf => Or.inl hf
  | cons line lines ih =>
      rw [readFields] at h
      cases hparts : partitionBlank line with
      | none =>
          rw [hparts] at h
          exact nomatch h
      | some parts =>
          rw [hparts] at h
          dsimp only at h
          -- A key that came before ends the reading.
          split at h
          · exact nomatch h
          · intro f hf
            rcases ih h f hf with hdone | ⟨line', hline', hsuffix⟩
            · rcases List.mem_append.mp hdone with hdone | hnew
              · exact Or.inl hdone
              · rw [List.mem_singleton.mp hnew]
                exact Or.inr ⟨line, List.mem_cons_self, partitionBlank_suffix hparts⟩
            · exact Or.inr ⟨line', List.mem_cons_of_mem line hline', hsuffix⟩

end ReadBackFields

/-! ### The trip -/

section Trip

variable {r : InspectReport} {resolved owner : Str}

/-- The fields of a report as text. -/
def InspectReport.texts (r : InspectReport) (resolved owner : Str) : List (Str × Str) :=
  if r.verdict = .notFound then [(str "verdict", r.verdict.word)]
  else
    [(str "verdict", r.verdict.word), (str "resolved", resolved), (str "uid", digits r.uid),
      (str "gid", digits r.gid), (str "mode", octalDigits r.permissions), (str "owner", owner),
      (str "acl", if r.hasAcl then str "1" else str "0")] ++
    (match r.access with
      | some access => [(str "access", access.word)]
      | none => [])

theorem encode_of_digitChars {cs : List Char} :
    encode (cs.map .scalar) = some (utf8 (cs.map .scalar)) := by
  have hplain : IsPlain (cs.map PyChar.scalar) := by
    intro c hc
    rcases List.mem_map.mp hc with ⟨d, -, rfl⟩
    exact ⟨d, rfl⟩
  exact hplain.encode_eq

theorem encode_word (verdict : PathVerdict) : encode verdict.word = some (utf8 verdict.word) := by
  cases verdict with
  | _ => exact encode_of_digitChars

/-- The texts are those of the fields. -/
theorem fields_texts (hresolved : encode resolved = some r.resolved.bytes)
    (howner : encode owner = some r.owner.bytes) :
    List.Forall₂ IsFieldOf r.fields (r.texts resolved owner) := by
  -- What is written from numbers and words is plain text.
  have hacl : encode (if r.hasAcl then str "1" else str "0")
      = some (utf8 (if r.hasAcl then str "1" else str "0")) := by
    cases r.hasAcl with
    | true => decide
    | false => decide
  have haccess : List.Forall₂ IsFieldOf
      (match r.access with | some access => [("access", utf8 access.word)] | none => [])
      (match r.access with | some access => [(str "access", access.word)] | none => []) := by
    cases r.access with
    | none => exact List.Forall₂.nil
    | some access =>
        refine List.Forall₂.cons ⟨rfl, ?_⟩ List.Forall₂.nil
        cases access with
        | _ => exact encode_of_digitChars
  unfold InspectReport.fields InspectReport.texts
  -- Of what was not found there is the verdict alone.
  by_cases hfound : r.verdict = .notFound
  · rw [if_pos hfound, if_pos hfound]
    exact List.Forall₂.cons ⟨rfl, encode_word _⟩ List.Forall₂.nil
  · rw [if_neg hfound, if_neg hfound]
    exact List.rel_append
      (.cons ⟨rfl, encode_word _⟩ <| .cons ⟨rfl, hresolved⟩ <|
        .cons ⟨rfl, encode_of_digitChars⟩ <| .cons ⟨rfl, encode_of_digitChars⟩ <|
        .cons ⟨rfl, encode_of_digitChars⟩ <| .cons ⟨rfl, howner⟩ <| .cons ⟨rfl, hacl⟩ .nil)
      haccess

theorem not_boundary_of_isDigitOf {base : Nat} {c : Char} (h : IsDigitOf base c) :
    isLineBoundary (.scalar c) = false := by
  refine eq_false_of_ne_true fun hend => ?_
  have hspace := isSpace_of_boundary hend
  rw [not_space_of_isDigitOf h] at hspace
  exact Bool.false_ne_true hspace

theorem noLineEnd_digits (n : Nat) : NoLineEnd (digits n) := by
  intro c hc
  rcases List.mem_map.mp hc with ⟨d, hd, rfl⟩
  have hten : IsDigitOf 10 d := ⟨Nat.isDigit_of_mem_toDigits (by omega) (by omega) hd,
    digit_lt_of_mem_toDigits (by omega) (by omega) hd⟩
  exact not_boundary_of_isDigitOf hten

theorem noLineEnd_octalDigits (n : Nat) : NoLineEnd (octalDigits n) := by
  intro c hc
  rcases List.mem_map.mp hc with ⟨d, hd, rfl⟩
  exact not_boundary_of_isDigitOf (isDigitOf_of_mem_octal hd)

/-- The fields have different known keys, and no value ends a line. -/
theorem texts_readable (hresolved : NoLineEnd resolved) (howner : NoLineEnd owner) :
    ((r.texts resolved owner).map Prod.fst).Nodup ∧
      (∀ f ∈ r.texts resolved owner, f.1 ∈ knownKeys) ∧
      ∀ f ∈ r.texts resolved owner, NoLineEnd f.2 := by
  -- The words and numbers of a report are on one line.
  have hverdict : NoLineEnd r.verdict.word := by
    cases r.verdict with
    | _ => unfold NoLineEnd; decide
  have hacl : NoLineEnd (if r.hasAcl then str "1" else str "0") := by
    cases r.hasAcl with
    | _ => unfold NoLineEnd; decide
  unfold InspectReport.texts
  by_cases hfound : r.verdict = .notFound
  · rw [if_pos hfound]
    refine ⟨List.nodup_singleton _, fun f hf => ?_, fun f hf => ?_⟩
    · rw [List.mem_singleton.mp hf]
      change str "verdict" ∈ knownKeys
      decide
    · rw [List.mem_singleton.mp hf]
      exact hverdict
  · rw [if_neg hfound]
    -- The access is a field only where it was asked for.
    cases r.access with
    | none =>
        refine ⟨?_, ?_, ?_⟩
        · change [str "verdict", str "resolved", str "uid", str "gid", str "mode", str "owner",
            str "acl"].Nodup
          decide
        · simp only [List.append_nil, List.forall_mem_cons]
          exact ⟨by decide, by decide, by decide, by decide, by decide, by decide, by decide,
            fun f hf => absurd hf List.not_mem_nil⟩
        · simp only [List.append_nil, List.forall_mem_cons]
          exact ⟨hverdict, hresolved, noLineEnd_digits _, noLineEnd_digits _,
            noLineEnd_octalDigits _, howner, hacl, fun f hf => absurd hf List.not_mem_nil⟩
    | some access =>
        have haccess : NoLineEnd access.word := by
          cases access with
          | _ => unfold NoLineEnd; decide
        refine ⟨?_, ?_, ?_⟩
        · change [str "verdict", str "resolved", str "uid", str "gid", str "mode", str "owner",
            str "acl", str "access"].Nodup
          decide
        · simp only [List.cons_append, List.nil_append, List.forall_mem_cons]
          exact ⟨by decide, by decide, by decide, by decide, by decide, by decide, by decide,
            by decide, fun f hf => absurd hf List.not_mem_nil⟩
        · simp only [List.cons_append, List.nil_append, List.forall_mem_cons]
          exact ⟨hverdict, hresolved, noLineEnd_digits _, noLineEnd_digits _,
            noLineEnd_octalDigits _, howner, hacl, haccess, fun f hf => absurd hf List.not_mem_nil⟩

theorem verdictOf_word (verdict : PathVerdict) : verdictOf verdict.word = some verdict := by
  cases verdict with
  | _ => decide

theorem accessOf_word (access : AccessState) : accessOf access.word = .ok access := by
  cases access with
  | _ => decide

theorem hasAcl_word (hasAcl : Bool) :
    decide ((if hasAcl then str "1" else str "0") = str "1") = hasAcl := by
  cases hasAcl with
  | _ => decide

variable [Decimals]

omit [Decimals] in
/-- What is found under each key. -/
theorem lookup_texts (resolved owner : Str) (hfound : r.verdict ≠ .notFound) :
    (r.texts resolved owner).lookup (str "resolved") = some resolved ∧
      (r.texts resolved owner).lookup (str "uid") = some (digits r.uid) ∧
      (r.texts resolved owner).lookup (str "gid") = some (digits r.gid) ∧
      (r.texts resolved owner).lookup (str "mode") = some (octalDigits r.permissions) ∧
      (r.texts resolved owner).lookup (str "owner") = some owner ∧
      (r.texts resolved owner).lookup (str "acl")
        = some (if r.hasAcl then str "1" else str "0") := by
  unfold InspectReport.texts
  rw [if_neg hfound]
  exact ⟨rfl, rfl, rfl, rfl, rfl, rfl⟩

/-- The facts of the texts. -/
theorem factsOf_texts (hfound : r.verdict ≠ .notFound) :
    factsOf r.verdict (r.texts resolved owner) = .ok
      { verdict := r.verdict
        resolved := some resolved
        uid := some r.uid
        gid := some r.gid
        mode := some r.permissions
        owner := some owner
        hasAcl := r.hasAcl
        access := r.access } := by
  -- The access is read back as it was, also where there is none.
  have haccess : accessField ((r.texts resolved owner).lookup (str "access")) = .ok r.access := by
    unfold InspectReport.texts
    rw [if_neg hfound]
    cases r.access with
    | none => rfl
    | some access =>
        change (accessOf access.word).map some = .ok (some access)
        rw [accessOf_word]
        rfl
  rcases lookup_texts resolved owner hfound with
    ⟨hresolved, huid, hgid, hmode, howner, hacl⟩
  -- Each field is read by the key it was written under.
  unfold factsOf
  rw [haccess, hresolved, huid, hgid, hmode, howner, hacl, Option.bind_some, Option.bind_some,
    Option.bind_some, pyInt_decimal, pyInt_decimal, pyInt_octal]
  refine Eq.trans ?_ (congrArg (fun hasAcl => Except.ok (InspectFacts.mk r.verdict (some resolved)
    (some r.uid) (some r.gid) (some r.permissions) (some owner) hasAcl r.access))
    (hasAcl_word r.hasAcl))
  rfl

/-- What a report with a text for its path and its owner's name is read as. -/
theorem parse_texts {payload : List UInt8} (hreply : pathReply r = some payload)
    (hfields : List.Forall₂ IsFieldOf r.fields (r.texts resolved owner))
    (hreadable : readFields [] ((splitlines (renderFields (r.texts resolved owner))).map lineText)
      = .ok (r.texts resolved owner)) :
    parsePathFacts payload =
      if r.verdict = .notFound then .ok nothingFound
      else factsOf r.verdict (r.texts resolved owner) := by
  have htext : decodeUtf8 payload = some (renderFields (r.texts resolved owner)) := by
    rw [pathReply_eq hreply]
    exact decodeUtf8_of_encode (encode_renderFields hfields)
  -- The verdict is the first field, and its word is read back.
  have hverdict : (r.texts resolved owner).lookup (str "verdict") = some r.verdict.word := by
    unfold InspectReport.texts
    split
    · rfl
    · rfl
  unfold parsePathFacts
  rw [htext]
  dsimp only
  rw [hreadable]
  change describe (((r.texts resolved owner).lookup (str "verdict")).bind verdictOf) _ = _
  rw [hverdict, Option.bind_some, verdictOf_word]
  rfl

/-- A path that is not there is told as that. -/
theorem parse_notFound {payload : List UInt8} (hreply : pathReply r = some payload)
    (hfound : r.verdict = .notFound) :
    ∃ facts, parsePathFacts payload = .ok facts ∧ r.Told facts := by
  have hfields : List.Forall₂ IsFieldOf r.fields (r.texts [] []) := by
    rw [InspectReport.fields, InspectReport.texts, if_pos hfound, if_pos hfound]
    exact List.Forall₂.cons ⟨rfl, encode_word _⟩ List.Forall₂.nil
  have hnil : NoLineEnd [] := fun c hc => absurd hc List.not_mem_nil
  rcases texts_readable (r := r) hnil hnil with ⟨hkeys, hknown, hvalues⟩
  rw [parse_texts hreply hfields (readFields_rendered hkeys hknown hvalues), if_pos hfound]
  exact ⟨nothingFound, rfl, by rw [InspectReport.Told, if_pos hfound]⟩

/-- A report whose path and owner's name are one line of text is told as it is. -/
theorem parse_told {payload : List UInt8} (hreply : pathReply r = some payload)
    (hresolved : DecodesToLine r.resolved.bytes) (howner : DecodesToLine r.owner.bytes) :
    ∃ facts, parsePathFacts payload = .ok facts ∧ r.Told facts := by
  by_cases hfound : r.verdict = .notFound
  · exact parse_notFound hreply hfound
  · rcases hresolved with ⟨resolved, hdecode, hline⟩
    rcases howner with ⟨owner, hownerDecode, hownerLine⟩
    have hpath := encode_of_decodeUtf8 hdecode
    have hname := encode_of_decodeUtf8 hownerDecode
    rcases texts_readable (r := r) hline hownerLine with ⟨hkeys, hknown, hvalues⟩
    rw [parse_texts hreply (fields_texts hpath hname) (readFields_rendered hkeys hknown hvalues),
      if_neg hfound]
    refine ⟨_, factsOf_texts hfound, ?_⟩
    rw [InspectReport.Told, if_neg hfound]
    exact ⟨rfl, ⟨resolved, rfl, fsEncode_of_encode hpath⟩, rfl, rfl, rfl,
      ⟨owner, rfl, fsEncode_of_encode hname⟩, rfl, rfl⟩

omit [Decimals] in
/-- A value that was read of a decoded text is one line, and has a UTF-8. -/
theorem value_decodes {text : Str} {fields : List (Str × Str)} {payload : List UInt8}
    (htext : decodeUtf8 payload = some text)
    (hread : readFields [] ((splitlines text).map lineText) = .ok fields) {key value : Str}
    (hvalue : fields.lookup key = some value) {bytes : List UInt8}
    (hbytes : fsEncode value = some bytes) : DecodesToLine bytes := by
  rcases List.lookup_eq_some_iff.mp hvalue with ⟨before, after, hfields, -⟩
  -- The value is the rest of one line of the reply.
  have hmem : (key, value) ∈ fields := by
    rw [hfields]
    exact List.mem_append_right _ List.mem_cons_self
  rcases (readFields_mem hread (key, value) hmem).resolve_left List.not_mem_nil with
    ⟨line, hline, hsuffix⟩
  rcases List.mem_map.mp hline with ⟨whole, hwhole, rfl⟩
  have hin : ∀ c ∈ value, c ∈ text := by
    intro c hc
    have hstart : lineText whole <+: whole := List.rdropWhile_prefix isLineBoundary whole
    have hinside : c ∈ (splitlines text).flatten :=
      List.mem_flatten.mpr ⟨whole, hwhole, hstart.subset (hsuffix.subset hc)⟩
    rw [show (splitlines text).flatten = text from lineEnds.flatten_cut text] at hinside
    exact hinside
  -- It came out of bytes, so no half of a pair is in it.
  have hplain : IsPlain value := fun c hc =>
    isPlain_of_encode (encode_of_decodeUtf8 htext) c (hin c hc)
  have hencode : encode value = some bytes := by
    rw [hplain.encode_eq]
    exact (fsEncode_of_encode hplain.encode_eq).symm.trans hbytes
  exact ⟨value, decodeUtf8_of_encode hencode, fun c hc =>
    lineText_oneLine hwhole c (hsuffix.subset hc)⟩

omit [Decimals] in
theorem required_bind {α β : Type} {o : Option α} {f : α → Except InspectError β} {b : β}
    (h : (required o >>= f) = .ok b) : ∃ a, o = some a ∧ f a = .ok b := by
  cases o with
  | none => exact nomatch h
  | some a => exact ⟨a, rfl, h⟩

/-- The path and the owner's name that are told were read. -/
theorem factsOf_read {verdict : PathVerdict} {fields : List (Str × Str)} {facts : InspectFacts}
    (h : factsOf verdict fields = .ok facts) :
    facts.resolved = fields.lookup (str "resolved") ∧
      facts.owner = fields.lookup (str "owner") := by
  rcases required_bind h with ⟨resolved, hresolved, h⟩
  rcases required_bind h with ⟨uid, -, h⟩
  rcases required_bind h with ⟨gid, -, h⟩
  rcases required_bind h with ⟨mode, -, h⟩
  rcases required_bind h with ⟨owner, howner, h⟩
  rcases required_bind h with ⟨acl, -, h⟩
  cases haccess : accessField (fields.lookup (str "access")) with
  | error e =>
      rw [haccess] at h
      exact nomatch h
  | ok access =>
      rw [haccess] at h
      rw [← Except.ok.inj h, hresolved, howner]
      exact ⟨rfl, rfl⟩

theorem describe_read {verdict : Option PathVerdict} {fields : List (Str × Str)}
    {facts : InspectFacts} (hfound : facts.verdict ≠ .notFound)
    (h : describe verdict fields = .ok facts) :
    facts.resolved = fields.lookup (str "resolved") ∧
      facts.owner = fields.lookup (str "owner") := by
  cases verdict with
  | none => exact nomatch h
  | some verdict =>
      unfold describe at h
      dsimp only at h
      by_cases hverdict : verdict = .notFound
      · rw [if_pos hverdict] at h
        rw [← Except.ok.inj h] at hfound
        exact absurd rfl hfound
      · rw [if_neg hverdict] at h
        exact factsOf_read h

/-- A report that is answered survives the trip exactly if the path is not
    there, or it and its owner's name are each one line of text to Python. -/
theorem report_survives_iff (r : InspectReport) (payload : List UInt8)
    (hreply : pathReply r = some payload) :
    (∃ facts, parsePathFacts payload = .ok facts ∧ r.Told facts) ↔
      r.verdict = .notFound ∨
        DecodesToLine r.resolved.bytes ∧ DecodesToLine r.owner.bytes := by
  constructor
  · -- What was told was read, and so the two paths were on their lines.
    rintro ⟨facts, hparse, htold⟩
    by_cases hfound : r.verdict = .notFound
    · exact Or.inl hfound
    · rw [InspectReport.Told, if_neg hfound] at htold
      rcases htold with ⟨hverdict, ⟨resolved, hresolved, hpath⟩, -, -, -, ⟨owner, howner, hname⟩, -⟩
      unfold parsePathFacts at hparse
      cases htext : decodeUtf8 payload with
      | none =>
          rw [htext] at hparse
          exact nomatch hparse
      | some text =>
          rw [htext] at hparse
          dsimp only at hparse
          cases hread : readFields [] ((splitlines text).map lineText) with
          | error e =>
              rw [hread] at hparse
              exact nomatch hparse
          | ok fields =>
              rw [hread] at hparse
              rcases describe_read (hverdict ▸ hfound) hparse with ⟨hsome, hother⟩
              exact Or.inr ⟨value_decodes htext hread (hsome ▸ hresolved) hpath,
                value_decodes htext hread (hother ▸ howner) hname⟩
  · rintro (hfound | ⟨hresolved, howner⟩)
    · exact parse_notFound hreply hfound
    · exact parse_told hreply hresolved howner

end Trip

/-! ### Two reports -/

section Reports

attribute [local instance] Decimals.ascii

set_option maxRecDepth 10000

/-- A string of C, of plain text. -/
def cString (s : String) (h : 0 ∉ utf8 (str s)) : CString :=
  { bytes := utf8 (str s), no_nul := h }

/-- A person's folder, and what an ACE says of somebody else. -/
def musicReport : InspectReport where
  verdict := .ok
  resolved := cString "/Users/ann/Música" (by decide)
  uid := 501
  gid := 20
  mode := 16877
  owner := cString "ann" (by decide)
  hasAcl := true
  access := some .deny

theorem report_survives_music :
    ∃ facts, parsePathFacts (musicReport.fields.flatMap fieldLine) = .ok facts ∧
      musicReport.Told facts := by
  have hline : ∀ s : String, encode (str s) = some (utf8 (str s)) →
      ((str s).all fun c => !isLineBoundary c) = true → DecodesToLine (utf8 (str s)) := by
    intro s hencode hall
    refine ⟨str s, decodeUtf8_of_encode hencode, fun c hc => ?_⟩
    simpa using List.all_eq_true.mp hall c hc
  refine (report_survives_iff musicReport _ (by decide +kernel)).mpr (Or.inr ⟨?_, ?_⟩)
  · exact hline "/Users/ann/Música" (by decide +kernel) (by decide +kernel)
  · exact hline "ann" (by decide +kernel) (by decide +kernel)

/-- A folder with a vertical tab in its name. Nobody was asked about. -/
def forgingReport : InspectReport :=
  { musicReport with
    resolved := cString "/Users/ann/x\x0baccess allow" (by decide)
    access := none }

/-- What is made of it. -/
def forgedFacts : InspectFacts where
  verdict := .ok
  resolved := some (str "/Users/ann/x")
  uid := some 501
  gid := some 20
  mode := some 493
  owner := some (str "ann")
  hasAcl := true
  access := some .allow

/-- The name says that an account may write, and the path is another. -/
theorem access_forged :
    pathReply forgingReport = some (forgingReport.fields.flatMap fieldLine) ∧
      parsePathFacts (forgingReport.fields.flatMap fieldLine) = .ok forgedFacts ∧
      ¬∃ facts, parsePathFacts (forgingReport.fields.flatMap fieldLine) = .ok facts ∧
        forgingReport.Told facts := by
  have hparse : parsePathFacts (forgingReport.fields.flatMap fieldLine) = .ok forgedFacts := by
    have htext : decodeUtf8 (forgingReport.fields.flatMap fieldLine)
        = some (renderFields (forgingReport.texts (str "/Users/ann/x\x0baccess allow")
          (str "ann"))) := decodeUtf8_of_encode (by decide +kernel)
    unfold parsePathFacts
    rw [htext]
    decide +kernel
  refine ⟨by decide +kernel, hparse, ?_⟩
  rintro ⟨facts, hfacts, htold⟩
  rw [hparse] at hfacts
  rw [← Except.ok.inj hfacts, InspectReport.Told, if_neg (by decide)] at htold
  have haccess : some AccessState.allow = none := htold.2.2.2.2.2.2.2
  exact absurd haccess (Option.some_ne_none _)

end Reports

end Smbpal
