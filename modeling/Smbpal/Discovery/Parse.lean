import Smbpal.Discovery.Browse
import Smbpal.Python.Files
import Smbpal.Python.Numbers

/-!
# Reading the Browser's Lines

`parse` in `discovery/browse.py` on what `avahi-browse -p` writes: a record a line, ten fields
with a `;` between two of them, and in a name the bytes that are no printable ASCII as `\ddd`, a
`;` and a `\` behind a backslash.

A line is read in two stages. `_split_escaped` cuts it into fields and leaves every escape in
them, and `_unescape` takes the escapes out of a field, byte by byte. What the writer makes of a
name is whole to the first stage (`Whole`): it goes by without a cut and without an escape left
open. To the second it is, a character at a time, the bytes of the character
(`unescapeBytes_written`).

A record's line ends at a line feed and nowhere else, but Python's lines end at nine more
characters, and the TXT field is written as it is. A record that has one of them is read short,
and it is the only kind that is.

## Main definitions

* `splitEscaped`, `unescapeName`, `parse`: The reader.
* `Written`: The ways a name may be written.
* `Resolved`, `WrittenText`: A record, and what is written of a list of them.
* `InOneLine`: No field a record shows as it is has an end of a line in it.

## Theorems

* `splitEscaped_line`: The fields of a line.
* `unescapeName_written`: A name is read back.
* `parseResolved_line`: So is a line.
* `parse_inOneLine`: Nothing that is read has an end of a line in it.
* `parse_written_iff`: Exactly the records of one line each are read back.
-/

namespace Smbpal

/-- Where the loop of `_split_escaped` is. -/
structure Splitting where
  fields : List Str
  current : Str
  escaped : Bool

/-- One character of the loop in `_split_escaped`. -/
def splitStep (limit : Nat) (s : Splitting) (char : PyChar) : Splitting :=
  if s.escaped then
    { s with current := s.current ++ [chr '\\', char], escaped := false }
  else if char = chr '\\' then
    { s with escaped := true }
  else if char = chr ';' ∧ s.fields.length < limit - 1 then
    { s with fields := s.fields ++ [s.current], current := [] }
  else
    { s with current := s.current ++ [char] }

/-- What is left in `current` behind the loop. -/
def Splitting.last (s : Splitting) : Str :=
  if s.escaped then s.current ++ [chr '\\'] else s.current

/-- `_split_escaped`. -/
def splitEscaped (line : Str) (limit : Nat) : List Str :=
  let s := line.foldl (splitStep limit) ⟨[], [], false⟩
  s.fields ++ [s.last]

section Parse

variable [Decimals]

/-- `\d`. -/
def matchesDigit (c : PyChar) : Bool :=
  if ord c < 128 then isDigit c else (decimal c).isSome

/-- What the group of `_ESCAPE` matches behind a backslash; at the end of a string there is no
    match. -/
def escapeBody : Str → Option Str
  | a :: b :: c :: _ =>
      if matchesDigit a && matchesDigit b && matchesDigit c then some [a, b, c] else some [a]
  | a :: _ => some [a]
  | [] => none

omit [Decimals] in
/-- `int` of plain digits. -/
def digitsValue (part : Str) : Nat :=
  part.foldl (fun n c => 10 * n + (ord c - 48)) 0

omit [Decimals] in
/-- The bytes an escape stands for; none is a `UnicodeEncodeError`. -/
def bodyBytes (part : Str) : Option (List UInt8) :=
  if part.all isDigit ∧ part.length = 3 ∧ digitsValue part < 256 then
    some [UInt8.ofNat (digitsValue part)]
  else
    encode part

/-- The bytes `_unescape` puts in its buffer, some characters into an escape that is done. -/
def unescapeBytes : Nat → Str → Option (List UInt8)
  | _, [] => some []
  | skip + 1, _ :: s => unescapeBytes skip s
  | 0, c :: s =>
      if c = chr '\\' then
        match escapeBody s with
        | some body => do
            let bytes ← bodyBytes body
            let more ← unescapeBytes body.length s
            some (bytes ++ more)
        | none => encode [c]
      else do
        let bytes ← encode [c]
        let more ← unescapeBytes 0 s
        some (bytes ++ more)

/-- `_unescape`. -/
def unescapeName (value : Str) : Option Str :=
  (unescapeBytes 0 value).map decodeReplace

/-- One line of `parse`: the service of the line, or none at all. -/
def parseResolved (line : Str) : Option (List Service) :=
  -- Only lines that begin with `=` are resolved records.
  if !startsWith line "=" then
    some []
  else
    match splitEscaped line 10 with
    | _ :: interface :: protocol :: name :: type :: domain :: hostname :: address :: port :: more =>
        match pyInt 10 port with
        | none => some []
        | some number => do
            let plainName ← unescapeName name
            let plainHostname ← unescapeName hostname
            some [{
              interface := interface
              protocol := protocol
              name := plainName
              type := type
              domain := domain
              hostname := plainHostname
              address := address
              port := number
              txt := more.head?.getD [] }]
    | _ => some []

/-- The loop of `parse`. -/
def parseServices : List Str → Option (List Service)
  | [] => some []
  | line :: lines => do
      let services ← parseResolved line
      let more ← parseServices lines
      some (services ++ more)

/-- `parse`. -/
def parse (text : Str) : Option (List Service) :=
  parseServices ((splitlines text).map lineText)

end Parse

section Writer

/-- Printable ASCII. -/
def IsPrintable (c : Char) : Prop :=
  0x20 ≤ c.toNat ∧ c.toNat ≤ 0x7E

instance (c : Char) : Decidable (IsPrintable c) :=
  inferInstanceAs (Decidable (_ ∧ _))

/-- Printable, and neither a letter nor a digit. -/
def IsPunctuation (c : Char) : Prop :=
  IsPrintable c ∧ c.isAlphanum = false

instance (c : Char) : Decidable (IsPunctuation c) :=
  inferInstanceAs (Decidable (_ ∧ _))

/-- A byte in three decimal digits. -/
def threeDigits (b : UInt8) : Str :=
  [b.toNat / 100, b.toNat / 10 % 10, b.toNat % 10].map fun d => .scalar (Nat.digitChar d)

/-- A byte as an escape. -/
def escapedByte (b : UInt8) : Str :=
  chr '\\' :: threeDigits b

/-- The ways a character of a name may be written. What is not printable ASCII has one only. -/
inductive WrittenChar : Char → Str → Prop
  | raw {c : Char} (hprint : IsPrintable c) (hsemicolon : c ≠ ';') (hbackslash : c ≠ '\\') :
      WrittenChar c [.scalar c]
  | quoted {c : Char} (hpunct : IsPunctuation c) : WrittenChar c [chr '\\', .scalar c]
  | bytes (c : Char) : WrittenChar c ((String.utf8EncodeChar c).flatMap escapedByte)

/-- The ways a name may be written. -/
inductive Written : List Char → Str → Prop
  | nil : Written [] []
  | cons {c : Char} {cs : List Char} {w v : Str} (hchar : WrittenChar c w) (hrest : Written cs v) :
      Written (c :: cs) (w ++ v)

/-- A field that is written as it is, with another behind it. A backslash is left to the names,
    where it begins an escape. -/
def IsField (field : Str) : Prop :=
  chr ';' ∉ field ∧ chr '\\' ∉ field ∧ chr '\n' ∉ field

instance (field : Str) : Decidable (IsField field) :=
  inferInstanceAs (Decidable (_ ∧ _))

/-- A resolved record. -/
structure Resolved where
  interface : Str
  protocol : Str
  name : List Char
  type : Str
  domain : Str
  hostname : List Char
  address : Str
  port : Nat
  txt : Str
  interface_field : IsField interface
  protocol_field : IsField protocol
  type_field : IsField type
  domain_field : IsField domain
  address_field : IsField address
  port_lt : port < 65536
  txt_line : chr '\n' ∉ txt

/-- The record as the reader should have it. -/
def Resolved.service (r : Resolved) : Service where
  interface := r.interface
  protocol := r.protocol
  name := r.name.map .scalar
  type := r.type
  domain := r.domain
  hostname := r.hostname.map .scalar
  address := r.address
  port := r.port
  txt := r.txt

/-- The line of a record, its two names written in one of their ways. -/
def Resolved.line (r : Resolved) (name hostname : Str) : Str :=
  join (str ";") [str "=", r.interface, r.protocol, name, r.type, r.domain, hostname, r.address,
    digits r.port, r.txt]

/-- What is written of some records: a line for each. -/
inductive WrittenText : List Resolved → Str → Prop
  | nil : WrittenText [] []
  | cons {r : Resolved} {rs : List Resolved} {name hostname text : Str}
      (hname : Written r.name name) (hhostname : Written r.hostname hostname)
      (hrest : WrittenText rs text) :
      WrittenText (r :: rs) (r.line name hostname ++ str "\n" ++ text)

/-- No field that is shown as it is has an end of a line in it. -/
def InOneLine (service : Service) : Prop :=
  ∀ field ∈ [service.interface, service.protocol, service.type, service.domain, service.address,
    service.txt], ∀ c ∈ field, isLineBoundary c = false

instance (service : Service) : Decidable (InOneLine service) :=
  inferInstanceAs (Decidable (∀ _ ∈ _, _))

end Writer

section Split

variable {limit : Nat}

/-- A text that goes by the first stage without a cut, and leaves no escape open. -/
def Whole (w : Str) : Prop :=
  ∀ limit fields current,
    w.foldl (splitStep limit) ⟨fields, current, false⟩ = ⟨fields, current ++ w, false⟩

theorem whole_nil : Whole [] := by
  intro limit fields current
  rw [List.foldl_nil, List.append_nil]

theorem Whole.append {w v : Str} (hw : Whole w) (hv : Whole v) : Whole (w ++ v) := by
  intro limit fields current
  rw [List.foldl_append, hw, hv, List.append_assoc]

theorem whole_singleton {c : PyChar} (hbackslash : c ≠ chr '\\') (hsemicolon : c ≠ chr ';') :
    Whole [c] := by
  intro limit fields current
  rw [List.foldl_cons, List.foldl_nil, splitStep, if_neg Bool.false_ne_true, if_neg hbackslash,
    if_neg fun h => hsemicolon h.1]

/-- Behind a backslash any character goes by. -/
theorem whole_escape (c : PyChar) : Whole [chr '\\', c] := by
  intro limit fields current
  have hopen : splitStep limit ⟨fields, current, false⟩ (chr '\\') = ⟨fields, current, true⟩ := by
    rw [splitStep, if_neg Bool.false_ne_true, if_pos rfl]
  rw [List.foldl_cons, hopen, List.foldl_cons, List.foldl_nil, splitStep, if_pos rfl]

theorem whole_of_forall {w : Str} (h : ∀ c ∈ w, c ≠ chr '\\' ∧ c ≠ chr ';') : Whole w := by
  induction w with
  | nil => exact whole_nil
  | cons c w ih =>
      rw [List.forall_mem_cons] at h
      exact (whole_singleton h.1.1 h.1.2).append (ih h.2)

theorem whole_flatMap {α : Type} {f : α → Str} (xs : List α) (h : ∀ x ∈ xs, Whole (f x)) :
    Whole (xs.flatMap f) := by
  induction xs with
  | nil => exact whole_nil
  | cons x xs ih =>
      rw [List.forall_mem_cons] at h
      rw [List.flatMap_cons]
      exact h.1.append (ih h.2)

theorem whole_field {field : Str} (h : IsField field) : Whole field :=
  whole_of_forall fun _ hc => ⟨fun heq => h.2.1 (heq ▸ hc), fun heq => h.1 (heq ▸ hc)⟩

theorem isDigit_digitChar {d : Nat} (hd : d < 10) :
    isDigit (.scalar (Nat.digitChar d)) = true := by
  have hvalue := Nat.toNat_digitChar_of_lt_ten hd
  change (decide (48 ≤ (Nat.digitChar d).toNat) && decide ((Nat.digitChar d).toNat ≤ 57)) = true
  rw [hvalue, Bool.and_eq_true, decide_eq_true_eq, decide_eq_true_eq]
  omega

theorem not_special_of_isDigit {c : PyChar} (h : isDigit c = true) :
    c ≠ chr '\\' ∧ c ≠ chr ';' := by
  constructor
  · rintro rfl
    exact absurd h (by decide)
  · rintro rfl
    exact absurd h (by decide)

theorem isDigit_of_mem_threeDigits {b : UInt8} {c : PyChar} (h : c ∈ threeDigits b) :
    isDigit c = true := by
  have hb : b.toNat < 256 := b.toNat_lt
  rcases List.mem_map.mp h with ⟨d, hd, rfl⟩
  refine isDigit_digitChar ?_
  simp only [List.mem_cons, List.not_mem_nil, or_false] at hd
  omega

theorem whole_escapedByte (b : UInt8) : Whole (escapedByte b) := by
  have hrest : Whole ((threeDigits b).drop 1) := whole_of_forall fun c hc =>
    not_special_of_isDigit (isDigit_of_mem_threeDigits (List.mem_of_mem_drop hc))
  exact (whole_escape _).append hrest

/-- A character of a name goes by the first stage, however it is written. -/
theorem WrittenChar.whole {c : Char} {w : Str} (h : WrittenChar c w) : Whole w := by
  cases h with
  | raw hprint hsemicolon hbackslash =>
      exact whole_singleton (fun heq => hbackslash (PyChar.scalar.inj heq))
        fun heq => hsemicolon (PyChar.scalar.inj heq)
  | quoted hpunct => exact whole_escape _
  | bytes => exact whole_flatMap _ fun b _ => whole_escapedByte b

theorem Written.whole {cs : List Char} {w : Str} (h : Written cs w) : Whole w := by
  induction h with
  | nil => exact whole_nil
  | cons hchar hrest ih => exact hchar.whole.append ih

/-- The fields in front of the last are cut off, as long as there may be more. -/
theorem foldl_fields {ws : List Str} (h : ∀ w ∈ ws, Whole w) (limit : Nat) (fields : List Str)
    (hroom : fields.length + ws.length ≤ limit - 1) (rest : Str) :
    (ws.flatMap (· ++ str ";") ++ rest).foldl (splitStep limit) ⟨fields, [], false⟩ =
      rest.foldl (splitStep limit) ⟨fields ++ ws, [], false⟩ := by
  induction ws generalizing fields with
  | nil => rw [List.flatMap_nil, List.nil_append, List.append_nil]
  | cons w ws ih =>
      rw [List.forall_mem_cons] at h
      rw [List.length_cons] at hroom
      have hcut : splitStep limit ⟨fields, w, false⟩ (chr ';') = ⟨fields ++ [w], [], false⟩ := by
        rw [splitStep, if_neg Bool.false_ne_true, if_neg (by decide : chr ';' ≠ chr '\\'),
          if_pos ⟨rfl, by change fields.length < limit - 1; omega⟩]
      rw [List.flatMap_cons, List.append_assoc, List.append_assoc, List.foldl_append, h.1,
        List.nil_append, List.foldl_append]
      change (ws.flatMap (· ++ str ";") ++ rest).foldl (splitStep limit)
        (splitStep limit ⟨fields, w, false⟩ (chr ';')) = _
      rw [hcut, ih h.2 _ (by rw [List.length_append, List.length_singleton]; omega),
        List.append_assoc, List.singleton_append]

/-- In the last field nothing is cut and no escape is lost. -/
theorem foldl_last {fields : List Str} (hfull : limit - 1 ≤ fields.length) (txt current : Str)
    (escaped : Bool) :
    (txt.foldl (splitStep limit) ⟨fields, current, escaped⟩).fields = fields ∧
      (txt.foldl (splitStep limit) ⟨fields, current, escaped⟩).last =
        (Splitting.mk fields current escaped).last ++ txt := by
  induction txt generalizing current escaped with
  | nil => exact ⟨rfl, (List.append_nil _).symm⟩
  | cons c txt ih =>
      rw [List.foldl_cons]
      -- An escape holds for the next character, and is kept with it.
      cases escaped with
      | true =>
          rw [splitStep, if_pos rfl]
          refine ⟨(ih _ _).1, (ih _ _).2.trans ?_⟩
          change current ++ [chr '\\', c] ++ txt = current ++ [chr '\\'] ++ c :: txt
          rw [List.append_assoc, List.append_assoc]
          rfl
      | false =>
          rw [splitStep, if_neg Bool.false_ne_true]
          by_cases hc : c = chr '\\'
          · rw [if_pos hc]
            refine ⟨(ih _ _).1, (ih _ _).2.trans ?_⟩
            change current ++ [chr '\\'] ++ txt = current ++ c :: txt
            rw [hc, List.append_assoc, List.singleton_append]
          · -- The fields are full, so a separator is a character like any other.
            rw [if_neg hc, if_neg fun h => absurd h.2 (Nat.not_lt.mpr hfull)]
            refine ⟨(ih _ _).1, (ih _ _).2.trans ?_⟩
            change current ++ [c] ++ txt = current ++ c :: txt
            rw [List.append_assoc, List.singleton_append]

/-- The fields of a line, the last of them whatever is left of it. -/
theorem splitEscaped_fields {ws : List Str} (h : ∀ w ∈ ws, Whole w) (txt : Str) :
    splitEscaped (ws.flatMap (· ++ str ";") ++ txt) (ws.length + 1) = ws ++ [txt] := by
  have hfull : ws.length + 1 - 1 ≤ ws.length := Nat.le_refl _
  have hlast := foldl_last hfull txt [] false
  unfold splitEscaped
  rw [foldl_fields h _ [] (by rw [List.length_nil]; omega), List.nil_append]
  dsimp only
  rw [hlast.1, hlast.2]
  rfl

end Split

section Unescape

variable [Decimals]

theorem matchesDigit_of_isDigit {c : PyChar} (h : isDigit c = true) : matchesDigit c = true := by
  have hascii : ord c < 128 := by
    cases c with
    | surrogate n => exact absurd h Bool.false_ne_true
    | scalar d =>
        change (decide (48 ≤ d.toNat) && decide (d.toNat ≤ 57)) = true at h
        rw [Bool.and_eq_true, decide_eq_true_eq, decide_eq_true_eq] at h
        exact Nat.lt_of_le_of_lt h.2 (by omega)
  rw [matchesDigit, if_pos hascii, h]

theorem not_matchesDigit_of_punctuation {c : Char} (h : IsPunctuation c) :
    matchesDigit (.scalar c) = false := by
  have hascii : ord (.scalar c) < 128 := Nat.lt_of_le_of_lt h.1.2 (by omega)
  have hdigit : c.isDigit = false := by
    have halnum := h.2
    rw [Char.isAlphanum, Bool.or_eq_false_iff] at halnum
    exact halnum.2
  rw [matchesDigit, if_pos hascii]
  exact hdigit

omit [Decimals] in
theorem encode_scalar (c : Char) : encode [.scalar c] = some (String.utf8EncodeChar c) := by
  rw [encode, scalars, scalars, Option.map_some, Option.map_some, List.flatMap_singleton]

theorem unescapeBytes_skip (read rest : Str) :
    unescapeBytes read.length (read ++ rest) = unescapeBytes 0 rest := by
  induction read with
  | nil => rfl
  | cons c read ih => exact ih

/-- An escape that is matched is done, and the rest comes after it. -/
theorem unescapeBytes_escape {body rest : Str} {bytes : List UInt8}
    (hbody : escapeBody (body ++ rest) = some body) (hbytes : bodyBytes body = some bytes) :
    unescapeBytes 0 (chr '\\' :: body ++ rest) = (unescapeBytes 0 rest).map (bytes ++ ·) := by
  rw [List.cons_append, unescapeBytes, if_pos rfl, hbody]
  dsimp only
  rw [hbytes, unescapeBytes_skip]
  cases unescapeBytes 0 rest with
  | none => rfl
  | some more => rfl

omit [Decimals] in
theorem digitsValue_threeDigits (b : UInt8) : digitsValue (threeDigits b) = b.toNat := by
  have hb : b.toNat < 256 := b.toNat_lt
  have hvalue : ∀ d, d < 10 → ord (.scalar (Nat.digitChar d)) - 48 = d := by
    intro d hd
    change (Nat.digitChar d).toNat - 48 = d
    rw [Nat.toNat_digitChar_of_lt_ten hd]
    omega
  unfold digitsValue threeDigits
  simp only [List.map_cons, List.map_nil, List.foldl_cons, List.foldl_nil]
  rw [hvalue _ (by omega), hvalue _ (by omega), hvalue _ (by omega)]
  omega

omit [Decimals] in
theorem bodyBytes_threeDigits (b : UInt8) : bodyBytes (threeDigits b) = some [b] := by
  have hdigits : (threeDigits b).all isDigit = true :=
    List.all_eq_true.mpr fun c hc => isDigit_of_mem_threeDigits hc
  rw [bodyBytes, if_pos ⟨hdigits, rfl, by rw [digitsValue_threeDigits]; exact b.toNat_lt⟩,
    digitsValue_threeDigits, UInt8.ofNat_toNat]

/-- A byte is read back from its escape, whatever follows. -/
theorem unescapeBytes_escapedByte (b : UInt8) (rest : Str) :
    unescapeBytes 0 (escapedByte b ++ rest) = (unescapeBytes 0 rest).map ([b] ++ ·) := by
  refine unescapeBytes_escape ?_ (bodyBytes_threeDigits b)
  have hdigit : ∀ c ∈ threeDigits b, matchesDigit c = true := fun c hc =>
    matchesDigit_of_isDigit (isDigit_of_mem_threeDigits hc)
  unfold threeDigits at hdigit ⊢
  simp only [List.map_cons, List.map_nil, List.forall_mem_cons] at hdigit ⊢
  change (if _ then _ else _) = _
  rw [hdigit.1, hdigit.2.1, hdigit.2.2.1]
  rfl

theorem unescapeBytes_escapedBytes (bytes : List UInt8) (rest : Str) :
    unescapeBytes 0 (bytes.flatMap escapedByte ++ rest) =
      (unescapeBytes 0 rest).map (bytes ++ ·) := by
  induction bytes with
  | nil =>
      rw [List.flatMap_nil, List.nil_append]
      exact Option.map_id'.symm
  | cons b bytes ih =>
      rw [List.flatMap_cons, List.append_assoc, unescapeBytes_escapedByte, ih, Option.map_map]
      rfl

/-- A character is read back as its bytes, however it is written and whatever follows. -/
theorem unescapeBytes_written {c : Char} {w : Str} (h : WrittenChar c w) (rest : Str) :
    unescapeBytes 0 (w ++ rest) =
      (unescapeBytes 0 rest).map (String.utf8EncodeChar c ++ ·) := by
  cases h with
  | raw hprint hsemicolon hbackslash =>
      have hplain : PyChar.scalar c ≠ chr '\\' := fun heq => hbackslash (PyChar.scalar.inj heq)
      rw [List.singleton_append, unescapeBytes, if_neg hplain, encode_scalar]
      cases unescapeBytes 0 rest with
      | none => rfl
      | some more => rfl
  | quoted hpunct =>
      have hnot := not_matchesDigit_of_punctuation hpunct
      have hbytes : bodyBytes [.scalar c] = some (String.utf8EncodeChar c) := by
        rw [bodyBytes, if_neg fun h => absurd h.2.1 (by simp), encode_scalar]
      -- Punctuation is no digit, so the group takes the one character.
      have hmatch : escapeBody ([.scalar c] ++ rest) = some [.scalar c] := by
        rcases rest with _ | ⟨a, _ | ⟨b, rest⟩⟩
        · rfl
        · rfl
        · change (if _ then _ else _) = _
          rw [hnot]
          rfl
      exact unescapeBytes_escape hmatch hbytes
  | bytes => exact unescapeBytes_escapedBytes _ rest

theorem unescapeBytes_name {cs : List Char} {w : Str} (h : Written cs w) :
    unescapeBytes 0 w = some (cs.flatMap String.utf8EncodeChar) := by
  induction h with
  | nil => rfl
  | cons hchar hrest ih =>
      rw [unescapeBytes_written hchar, ih, Option.map_some, List.flatMap_cons]

/-- A name is read back, however it is written. -/
theorem unescapeName_written {cs : List Char} {w : Str} (h : Written cs w) :
    unescapeName w = some (cs.map .scalar) := by
  have hencode : encode (cs.map .scalar) = some (cs.flatMap String.utf8EncodeChar) := by
    rw [encode, scalars_map, Option.map_some]
  rw [unescapeName, unescapeBytes_name h, Option.map_some, decodeReplace_of_encode hencode]

end Unescape

section Lines

theorem Resolved.line_eq (r : Resolved) (name hostname : Str) :
    r.line name hostname =
      [str "=", r.interface, r.protocol, name, r.type, r.domain, hostname, r.address,
        digits r.port].flatMap (· ++ str ";") ++ r.txt := by
  simp only [Resolved.line, join, List.flatMap_cons, List.flatMap_nil, List.append_assoc,
    List.nil_append]

theorem whole_digits (n : Nat) : Whole (digits n) :=
  whole_of_forall fun _ hc => not_special_of_isDigit (isDigit_of_mem_digits hc)

/-- The fields of a record's line. -/
theorem splitEscaped_line (r : Resolved) {name hostname : Str} (hname : Written r.name name)
    (hhostname : Written r.hostname hostname) :
    splitEscaped (r.line name hostname) 10 =
      [str "=", r.interface, r.protocol, name, r.type, r.domain, hostname, r.address,
        digits r.port, r.txt] := by
  have hequals : Whole (str "=") := whole_singleton (by decide) (by decide)
  have hwhole : ∀ w ∈ [str "=", r.interface, r.protocol, name, r.type, r.domain, hostname,
      r.address, digits r.port], Whole w := by
    simp only [List.forall_mem_cons]
    exact ⟨hequals, whole_field r.interface_field, whole_field r.protocol_field, hname.whole,
      whole_field r.type_field, whole_field r.domain_field, hhostname.whole,
      whole_field r.address_field, whole_digits r.port, fun _ h => absurd h List.not_mem_nil⟩
  rw [r.line_eq]
  exact splitEscaped_fields hwhole r.txt

theorem not_lineBoundary_of_printable {c : PyChar} (h : 0x20 ≤ ord c ∧ ord c ≤ 0x7E) :
    isLineBoundary c = false := by
  refine decide_eq_false ?_
  omega

theorem printable_of_isDigit {c : PyChar} (h : isDigit c = true) :
    0x20 ≤ ord c ∧ ord c ≤ 0x7E := by
  cases c with
  | surrogate n => exact absurd h Bool.false_ne_true
  | scalar d =>
      change (decide (48 ≤ d.toNat) && decide (d.toNat ≤ 57)) = true at h
      rw [Bool.and_eq_true, decide_eq_true_eq, decide_eq_true_eq] at h
      change 0x20 ≤ d.toNat ∧ d.toNat ≤ 0x7E
      omega

/-- What is written of a name is printable. -/
theorem WrittenChar.printable {c : Char} {w : Str} (h : WrittenChar c w) :
    ∀ d ∈ w, 0x20 ≤ ord d ∧ ord d ≤ 0x7E := by
  have hbackslash : 0x20 ≤ ord (chr '\\') ∧ ord (chr '\\') ≤ 0x7E := by decide
  intro d hd
  cases h with
  | raw hprint hsemicolon hplain =>
      rw [List.mem_singleton.mp hd]
      exact hprint
  | quoted hpunct =>
      simp only [List.mem_cons, List.not_mem_nil, or_false] at hd
      rcases hd with rfl | rfl
      · exact hbackslash
      · exact hpunct.1
  | bytes =>
      rcases List.mem_flatMap.mp hd with ⟨b, -, hb⟩
      rcases List.mem_cons.mp hb with rfl | hb
      · exact hbackslash
      · exact printable_of_isDigit (isDigit_of_mem_threeDigits hb)

theorem Written.printable {cs : List Char} {w : Str} (h : Written cs w) :
    ∀ d ∈ w, 0x20 ≤ ord d ∧ ord d ≤ 0x7E := by
  induction h with
  | nil => exact fun d hd => absurd hd List.not_mem_nil
  | cons hchar hrest ih =>
      exact List.forall_mem_append.mpr ⟨hchar.printable, ih⟩

/-- A record of one line is written on one. -/
theorem line_inOneLine (r : Resolved) (h : InOneLine r.service) {name hostname : Str}
    (hname : Written r.name name) (hhostname : Written r.hostname hostname) :
    ∀ c ∈ r.line name hostname, isLineBoundary c = false := by
  have hnames : ∀ {cs : List Char} {w : Str}, Written cs w → ∀ c ∈ w, isLineBoundary c = false :=
    fun hw c hc => not_lineBoundary_of_printable (hw.printable c hc)
  have hequals : ∀ c ∈ str "=", isLineBoundary c = false := by decide
  have hport : ∀ c ∈ digits r.port, isLineBoundary c = false := fun c hc =>
    not_lineBoundary_of_printable (printable_of_isDigit (isDigit_of_mem_digits hc))
  simp only [InOneLine, List.forall_mem_cons, Resolved.service] at h
  obtain ⟨hinterface, hprotocol, htype, hdomain, haddress, htxt, -⟩ := h
  -- The nine fields in front; the texts behind them keep to the line by assumption.
  have hfields : ∀ field ∈ [str "=", r.interface, r.protocol, name, r.type, r.domain, hostname,
      r.address, digits r.port], ∀ c ∈ field, isLineBoundary c = false := by
    intro field hfield
    simp only [List.mem_cons, List.not_mem_nil, or_false] at hfield
    rcases hfield with rfl | rfl | rfl | rfl | rfl | rfl | rfl | rfl | rfl
    · exact hequals
    · exact hinterface
    · exact hprotocol
    · exact hnames hname
    · exact htype
    · exact hdomain
    · exact hnames hhostname
    · exact haddress
    · exact hport
  rw [r.line_eq]
  intro c hc
  rcases List.mem_append.mp hc with hc | hc
  · rcases List.mem_flatMap.mp hc with ⟨field, hfield, hc⟩
    rcases List.mem_append.mp hc with hc | hc
    · exact hfields field hfield c hc
    · rw [List.mem_singleton.mp hc]
      decide
  · exact htxt c hc

variable [Decimals]

/-- A record's line is read as the record. -/
theorem parseResolved_line (r : Resolved) {name hostname : Str} (hname : Written r.name name)
    (hhostname : Written r.hostname hostname) :
    parseResolved (r.line name hostname) = some [r.service] := by
  have hstart : startsWith (r.line name hostname) "=" = true := rfl
  rw [parseResolved, hstart, Bool.not_true, if_neg Bool.false_ne_true,
    splitEscaped_line r hname hhostname]
  dsimp only
  rw [pyInt_decimal, unescapeName_written hname, unescapeName_written hhostname]
  rfl

/-- Records of one line each are read back. -/
theorem parse_of_inOneLine {records : List Resolved} {text : Str}
    (h : WrittenText records text) (hone : ∀ r ∈ records, InOneLine r.service) :
    parse text = some (records.map Resolved.service) := by
  induction h with
  | nil => rfl
  | @cons r rs name hostname text hname hhostname hrest ih =>
      rw [List.forall_mem_cons] at hone
      have hline := line_inOneLine r hone.1 hname hhostname
      have hends : ∀ c ∈ str "\n", isLineBoundary c = true := by decide
      have hmore : parseServices ((splitlines text).map lineText) =
          some (rs.map Resolved.service) := ih hone.2
      rw [parse, splitlines_line hline (Or.inl rfl), List.map_cons, lineText_append hline hends,
        parseServices, parseResolved_line r hname hhostname, hmore]
      rfl

omit [Decimals] in
/-- What holds of every character the loop of `_split_escaped` has taken. -/
def Splitting.Forall (P : PyChar → Prop) (s : Splitting) : Prop :=
  (∀ field ∈ s.fields, ∀ c ∈ field, P c) ∧ ∀ c ∈ s.current, P c

omit [Decimals] in
theorem Splitting.Forall.step {P : PyChar → Prop} {s : Splitting} (h : s.Forall P)
    (hbackslash : P (chr '\\')) (limit : Nat) {c : PyChar} (hc : P c) :
    (splitStep limit s c).Forall P := by
  unfold splitStep
  by_cases hescaped : s.escaped = true
  · rw [if_pos hescaped]
    refine ⟨h.1, List.forall_mem_append.mpr ⟨h.2, ?_⟩⟩
    exact List.forall_mem_cons.mpr ⟨hbackslash, List.forall_mem_singleton.mpr hc⟩
  · rw [if_neg hescaped]
    by_cases hopen : c = chr '\\'
    · rw [if_pos hopen]
      exact h
    · rw [if_neg hopen]
      by_cases hcut : c = chr ';' ∧ s.fields.length < limit - 1
      · rw [if_pos hcut]
        exact ⟨List.forall_mem_append.mpr ⟨h.1, List.forall_mem_singleton.mpr h.2⟩,
          fun _ hmem => absurd hmem List.not_mem_nil⟩
      · rw [if_neg hcut]
        exact ⟨h.1, List.forall_mem_append.mpr ⟨h.2, List.forall_mem_singleton.mpr hc⟩⟩

omit [Decimals] in
theorem Splitting.Forall.run {P : PyChar → Prop} {s : Splitting} (h : s.Forall P)
    (hbackslash : P (chr '\\')) (limit : Nat) {line : Str} (hline : ∀ c ∈ line, P c) :
    (line.foldl (splitStep limit) s).Forall P := by
  induction line generalizing s with
  | nil => exact h
  | cons c line ih =>
      rw [List.forall_mem_cons] at hline
      exact ih (h.step hbackslash limit hline.1) hline.2

omit [Decimals] in
/-- The first stage brings no character but the backslash it took. -/
theorem forall_splitEscaped {P : PyChar → Prop} {line : Str} (h : ∀ c ∈ line, P c)
    (hbackslash : P (chr '\\')) (limit : Nat) :
    ∀ field ∈ splitEscaped line limit, ∀ c ∈ field, P c := by
  have hstart : (Splitting.mk [] [] false).Forall P :=
    ⟨fun _ hmem => absurd hmem List.not_mem_nil, fun _ hmem => absurd hmem List.not_mem_nil⟩
  have hend := hstart.run hbackslash limit h
  refine List.forall_mem_append.mpr ⟨hend.1, List.forall_mem_singleton.mpr ?_⟩
  unfold Splitting.last
  split
  · exact List.forall_mem_append.mpr ⟨hend.2, List.forall_mem_singleton.mpr hbackslash⟩
  · exact hend.2

/-- What is read of a line without an end has no end in it. -/
theorem parseResolved_inOneLine {line : Str} (hline : ∀ c ∈ line, isLineBoundary c = false)
    {services : List Service} (h : parseResolved line = some services) :
    ∀ service ∈ services, InOneLine service := by
  -- The fields are cut out of the line, so they keep to it as well.
  have hfields := forall_splitEscaped hline (by decide : isLineBoundary (chr '\\') = false) 10
  have hnone : ∀ service ∈ ([] : List Service), InOneLine service :=
    fun _ hmem => absurd hmem List.not_mem_nil
  unfold parseResolved at h
  split at h
  · rw [← Option.some.inj h]
    exact hnone
  · split at h
    · rename_i first interface protocol name type domain hostname address port more hsplit
      rw [hsplit] at hfields
      simp only [List.forall_mem_cons] at hfields
      obtain ⟨-, hinterface, hprotocol, -, htype, hdomain, -, haddress, -, hmore⟩ := hfields
      split at h
      · rw [← Option.some.inj h]
        exact hnone
      · simp only [Option.bind_eq_bind, Option.bind_eq_some_iff, Option.some.injEq] at h
        rcases h with ⟨plainName, -, plainHostname, -, rfl⟩
        -- A line without texts counts as one with none.
        have htxt : ∀ c ∈ more.head?.getD [], isLineBoundary c = false := by
          cases more with
          | nil => exact fun c hc => absurd hc List.not_mem_nil
          | cons txt more => exact hmore txt List.mem_cons_self
        rw [List.forall_mem_singleton]
        simp only [InOneLine, List.forall_mem_cons]
        exact ⟨hinterface, hprotocol, htype, hdomain, haddress, htxt, fun field hfield =>
          absurd hfield List.not_mem_nil⟩
    · rw [← Option.some.inj h]
      exact hnone

theorem parseServices_inOneLine {lines : List Str}
    (hlines : ∀ line ∈ lines, ∀ c ∈ line, isLineBoundary c = false) {services : List Service}
    (h : parseServices lines = some services) : ∀ service ∈ services, InOneLine service := by
  induction lines generalizing services with
  | nil =>
      rw [← Option.some.inj h]
      exact fun _ hmem => absurd hmem List.not_mem_nil
  | cons line lines ih =>
      rw [List.forall_mem_cons] at hlines
      simp only [parseServices, Option.bind_eq_bind, Option.bind_eq_some_iff,
        Option.some.injEq] at h
      rcases h with ⟨found, hfound, more, hmore, rfl⟩
      exact List.forall_mem_append.mpr
        ⟨parseResolved_inOneLine hlines.1 hfound, ih hlines.2 hmore⟩

/-- Nothing that is read has an end of a line in it. -/
theorem parse_inOneLine {text : Str} {services : List Service} (h : parse text = some services) :
    ∀ service ∈ services, InOneLine service := by
  refine parseServices_inOneLine (fun line hline => ?_) h
  rcases List.mem_map.mp hline with ⟨whole, hwhole, rfl⟩
  exact lineText_oneLine hwhole

/-- **Exactly the records of one line each are read back.** Whatever the names are and however
    they are written, a list of records is read as it was, one after another, unless one has
    an end of a Python line in a field that is written as it is. -/
theorem parse_written_iff {records : List Resolved} {text : Str}
    (h : WrittenText records text) :
    parse text = some (records.map Resolved.service) ↔
      ∀ r ∈ records, InOneLine r.service := by
  constructor
  · intro hparse r hr
    exact parse_inOneLine hparse r.service (List.mem_map_of_mem hr)
  · exact parse_of_inOneLine h

end Lines

section Announced

attribute [local instance] Decimals.ascii

/-- A machine whose name has a `;` in it. -/
def weirdRecord (txt : Str) (h : chr '\n' ∉ txt) : Resolved where
  interface := str "wlan0"
  protocol := str "IPv4"
  name := [';', '’']
  type := str "_smb._tcp"
  domain := str "local"
  hostname := ['n']
  address := str "192.0.2.5"
  port := 445
  txt := txt
  interface_field := by decide
  protocol_field := by decide
  type_field := by decide
  domain_field := by decide
  address_field := by decide
  port_lt := by decide
  txt_line := h

/-- The line it has, with the end. -/
def weirdText (txt : Str) (h : chr '\n' ∉ txt) : Str :=
  (weirdRecord txt h).line (str "\\;\\226\\128\\153") (str "n") ++ str "\n" ++ []

theorem written_weirdText (txt : Str) (h : chr '\n' ∉ txt) :
    WrittenText [weirdRecord txt h] (weirdText txt h) := by
  have hname : Written [';', '’'] (str "\\;\\226\\128\\153") :=
    .cons (.quoted (by decide)) (.cons (.bytes '’') .nil)
  have hhostname : Written ['n'] (str "n") :=
    .cons (.raw (by decide) (by decide) (by decide)) .nil
  exact .cons hname hhostname .nil

/-- It is read back as it was announced. -/
theorem weird_record_read :
    parse (weirdText (str "v=1;x") (by decide)) =
      some [(weirdRecord (str "v=1;x") (by decide)).service] :=
  (parse_written_iff (written_weirdText (str "v=1;x") (by decide))).mpr (by decide)

/-- A vertical tab in the TXT field ends it, and what is behind it is lost. -/
theorem vertical_tab_cuts_txt :
    ¬∀ records text, WrittenText records text →
      parse text = some (records.map Resolved.service) := by
  intro h
  have hall := h _ _ (written_weirdText (str "a\x0bb") (by decide))
  have hread : parse (weirdText (str "a\x0bb") (by decide)) =
      some [{ (weirdRecord (str "a\x0bb") (by decide)).service with txt := str "a" }] := by
    decide +kernel
  rw [hread] at hall
  exact absurd hall (by decide)

end Announced

end Smbpal
