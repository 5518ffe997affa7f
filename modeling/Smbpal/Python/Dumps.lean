import Smbpal.Python.Json

/-!
# JSON Texts

`json.dumps(value, separators=(",", ":"))`, and `bytes.hex`.

Python writes every character that is not printable ASCII as an escape, a lone
surrogate among them, so what it writes always has a UTF-8, is one line, and is never
blank (`dumps_printable`, `dumps_object_head`). What a float looks like is a table of
Python's, and a parameter.

## Main definitions

* `FloatText`: `repr` of a float.
* `escapeChar`: What a character of a string is written as.
* `dumps`: The text of a value.
* `toHex`: `bytes.hex`.
* `utf8`: The UTF-8 of a text that has one.

## Theorems

* `dumps_printable`: A text is printable ASCII.
* `encode_of_ascii`: What an ASCII text is as bytes.
* `mem_of_mem_encode`, `ascii_of_encode`: An ASCII byte stands for an ASCII character only.
* `digits_injective`: Two numbers look different.
-/

namespace Smbpal

/-- A character from the space to the tilde. -/
def isPrintable (c : PyChar) : Bool :=
  decide (32 ≤ ord c ∧ ord c ≤ 126)

/-- `repr` of a float that is a number. -/
class FloatText where
  floatRepr : Rat → Str
  floatRepr_printable : ∀ q, (floatRepr q).all isPrintable = true

export FloatText (floatRepr floatRepr_printable)

/-- Characters a text may hold. -/
abbrev Printable (s : Str) : Prop :=
  s.all isPrintable = true

theorem printable_append {s t : Str} : Printable (s ++ t) ↔ Printable s ∧ Printable t := by
  rw [Printable, List.all_append, Bool.and_eq_true]

theorem printable_cons {c : PyChar} {s : Str} :
    Printable (c :: s) ↔ isPrintable c = true ∧ Printable s := by
  rw [Printable, List.all_cons, Bool.and_eq_true]

theorem printable_digits (n : Nat) : Printable (digits n) := by
  refine List.all_eq_true.mpr fun c hc => ?_
  have hdigit := isDigit_of_mem_digits hc
  cases c with
  | surrogate n => exact absurd hdigit Bool.false_ne_true
  | scalar d =>
      simp only [isDigit, Bool.and_eq_true, decide_eq_true_eq] at hdigit
      exact decide_eq_true (show 32 ≤ d.toNat ∧ d.toNat ≤ 126 by omega)

/-- A hexadecimal digit. -/
def lowerHexDigit (d : Nat) : PyChar :=
  if d < 10 then chr (Char.ofNat (48 + d)) else chr (Char.ofNat (87 + d))

theorem printable_lowerHexDigit {d : Nat} (h : d < 16) : isPrintable (lowerHexDigit d) = true := by
  have hall : ∀ d < 16, isPrintable (lowerHexDigit d) = true := by decide
  exact hall d h

/-- `\uXXXX`. -/
def unicodeEscape (n : Nat) : Str :=
  [chr '\\', chr 'u', lowerHexDigit (n / 4096 % 16), lowerHexDigit (n / 256 % 16),
  lowerHexDigit (n / 16 % 16),
    lowerHexDigit (n % 16)]

/-- What a character of a string is written as. -/
def escapeChar (c : PyChar) : Str :=
  let n := ord c
  if n = 34 ∨ n = 92 then [chr '\\', c]
  else if n = 8 then str "\\b"
  else if n = 9 then str "\\t"
  else if n = 10 then str "\\n"
  else if n = 12 then str "\\f"
  else if n = 13 then str "\\r"
  else if isPrintable c = true then [c]
  else if n < 65536 then unicodeEscape n
  else
    unicodeEscape (0xD800 + (n - 65536) / 1024 % 1024) ++
      unicodeEscape (0xDC00 + (n - 65536) % 1024)

/-- A string, in quotes. -/
def dumpsString (s : Str) : Str :=
  chr '"' :: s.flatMap escapeChar ++ [chr '"']

/-- A whole number. -/
def dumpsInt (n : Int) : Str :=
  if n < 0 then chr '-' :: digits n.natAbs else digits n.natAbs

theorem printable_unicodeEscape (n : Nat) : Printable (unicodeEscape n) := by
  have hdigit : ∀ d, isPrintable (lowerHexDigit (d % 16)) = true := fun d =>
    printable_lowerHexDigit (Nat.mod_lt d (by omega))
  unfold unicodeEscape
  simp only [printable_cons, hdigit, true_and]
  decide

theorem printable_ite {p : Prop} [Decidable p] {s t : Str} (hs : p → Printable s)
    (ht : ¬p → Printable t) : Printable (if p then s else t) := by
  by_cases hp : p
  · rw [if_pos hp]
    exact hs hp
  · rw [if_neg hp]
    exact ht hp

theorem printable_escapeChar (c : PyChar) : Printable (escapeChar c) := by
  refine printable_ite (fun hquote => ?_) fun _ => printable_ite (fun _ => by decide) fun _ =>
    printable_ite (fun _ => by decide) fun _ => printable_ite (fun _ => by decide) fun _ =>
    printable_ite (fun _ => by decide) fun _ => printable_ite (fun _ => by decide) fun _ =>
    printable_ite (fun hc => ?_) fun _ => printable_ite (fun _ => ?_) fun _ => ?_
  · have hc : isPrintable c = true := decide_eq_true (by omega)
    exact printable_cons.mpr ⟨by decide, printable_cons.mpr ⟨hc, rfl⟩⟩
  · exact printable_cons.mpr ⟨hc, rfl⟩
  · exact printable_unicodeEscape _
  · exact printable_append.mpr ⟨printable_unicodeEscape _, printable_unicodeEscape _⟩

theorem printable_dumpsString (s : Str) : Printable (dumpsString s) := by
  have hbody : Printable (s.flatMap escapeChar) := by
    refine List.all_eq_true.mpr fun c hc => ?_
    rcases List.mem_flatMap.mp hc with ⟨d, -, hd⟩
    exact List.all_eq_true.mp (printable_escapeChar d) c hd
  exact printable_append.mpr ⟨printable_cons.mpr ⟨by decide, hbody⟩, by decide⟩

theorem printable_dumpsInt (n : Int) : Printable (dumpsInt n) := by
  unfold dumpsInt
  by_cases hn : n < 0
  · rw [if_pos hn]
    exact printable_cons.mpr ⟨by decide, printable_digits _⟩
  · rw [if_neg hn]
    exact printable_digits _

section Dumps

variable [FloatText]

/-- A float, also one that is no number. -/
def dumpsFloat : PyFloat → Str
  | .finite q => floatRepr q
  | .infinity => str "Infinity"
  | .minusInfinity => str "-Infinity"
  | .nan => str "NaN"

mutual

/-- `json.dumps`. -/
def dumps : Json → Str
  | .null => str "null"
  | .bool true => str "true"
  | .bool false => str "false"
  | .int n => dumpsInt n
  | .float x => dumpsFloat x
  | .string s => dumpsString s
  | .array items => chr '[' :: dumpsItems items ++ [chr ']']
  | .object members => chr '{' :: dumpsMembers members ++ [chr '}']

/-- The items of an array. -/
def dumpsItems : List Json → Str
  | [] => []
  | [v] => dumps v
  | v :: w :: vs => dumps v ++ chr ',' :: dumpsItems (w :: vs)

/-- The members of an object. -/
def dumpsMembers : List (Str × Json) → Str
  | [] => []
  | [(k, v)] => dumpsString k ++ chr ':' :: dumps v
  | (k, v) :: m :: ms => dumpsString k ++ chr ':' :: dumps v ++ chr ',' :: dumpsMembers (m :: ms)

end

theorem printable_dumpsFloat (x : PyFloat) : Printable (dumpsFloat x) := by
  cases x with
  | finite q => exact floatRepr_printable q
  | infinity => exact show Printable (str "Infinity") by decide
  | minusInfinity => exact show Printable (str "-Infinity") by decide
  | nan => exact show Printable (str "NaN") by decide

mutual

/-- A text is printable ASCII. -/
theorem dumps_printable : (v : Json) → Printable (dumps v)
  | .null => by rw [dumps]; decide
  | .bool true => by rw [dumps]; decide
  | .bool false => by rw [dumps]; decide
  | .int n => by rw [dumps]; exact printable_dumpsInt n
  | .float x => by rw [dumps]; exact printable_dumpsFloat x
  | .string s => by rw [dumps]; exact printable_dumpsString s
  | .array items => by
      rw [dumps, printable_append, printable_cons]
      exact ⟨⟨by decide, dumpsItems_printable items⟩, by decide⟩
  | .object members => by
      rw [dumps, printable_append, printable_cons]
      exact ⟨⟨by decide, dumpsMembers_printable members⟩, by decide⟩

theorem dumpsItems_printable : (items : List Json) → Printable (dumpsItems items)
  | [] => by rw [dumpsItems]; rfl
  | [v] => by rw [dumpsItems]; exact dumps_printable v
  | v :: w :: vs => by
      rw [dumpsItems, printable_append, printable_cons]
      exact ⟨dumps_printable v, by decide, dumpsItems_printable (w :: vs)⟩

theorem dumpsMembers_printable : (members : List (Str × Json)) → Printable (dumpsMembers members)
  | [] => by rw [dumpsMembers]; rfl
  | [(k, v)] => by
      rw [dumpsMembers, printable_append, printable_cons]
      exact ⟨printable_dumpsString k, by decide, dumps_printable v⟩
  | (k, v) :: m :: ms => by
      rw [dumpsMembers, printable_append, printable_append, printable_cons, printable_cons]
      exact ⟨⟨printable_dumpsString k, by decide, dumps_printable v⟩, by decide,
        dumpsMembers_printable (m :: ms)⟩

end

/-- The text of an object starts with its brace. -/
theorem dumps_object_head (members : List (Str × Json)) :
    ∃ rest, dumps (.object members) = chr '{' :: rest :=
  ⟨dumpsMembers members ++ [chr '}'], by rw [dumps]; rfl⟩

end Dumps

/-- An ASCII character is one byte. -/
theorem utf8EncodeChar_of_ascii {c : Char} (h : c.toNat < 128) :
    String.utf8EncodeChar c = [UInt8.ofNat c.toNat] := by
  have hsmall : c.val.toNat ≤ 0x7f := Nat.le_of_lt_succ h
  rw [String.utf8EncodeChar, if_pos hsmall]
  rfl

/-- What an ASCII text is as bytes. -/
theorem encode_of_ascii {s : Str} (h : ∀ c ∈ s, ord c < 128) :
    encode s = some (s.map fun c => UInt8.ofNat (ord c)) := by
  have hall : ∃ cs, scalars s = some cs ∧
      cs.flatMap String.utf8EncodeChar = s.map fun c => UInt8.ofNat (ord c) := by
    induction s with
    | nil => exact ⟨[], rfl, rfl⟩
    | cons c s ih =>
        rw [List.forall_mem_cons] at h
        rcases ih h.2 with ⟨cs, hcs, hbytes⟩
        cases c with
        | surrogate n =>
            have hsmall : 0xD800 + n.val < 128 := h.1
            omega
        | scalar d =>
            refine ⟨d :: cs, by rw [scalars, hcs, Option.map_some], ?_⟩
            rw [List.flatMap_cons, hbytes, utf8EncodeChar_of_ascii h.1]
            rfl
  rcases hall with ⟨cs, hcs, hbytes⟩
  rw [encode, hcs, Option.map_some, hbytes]

/-- What two texts are as bytes. -/
theorem encode_append {s t : Str} {a b : List UInt8} (hs : encode s = some a)
    (ht : encode t = some b) : encode (s ++ t) = some (a ++ b) := by
  simp only [encode, Option.map_eq_some_iff] at hs ht ⊢
  rcases hs with ⟨cs, hcs, rfl⟩
  rcases ht with ⟨ds, hds, rfl⟩
  refine ⟨cs ++ ds, ?_, List.flatMap_append⟩
  rw [scalars_eq_some hcs, scalars_eq_some hds, ← List.map_append]
  induction cs ++ ds with
  | nil => rfl
  | cons c cs ih => rw [List.map_cons, scalars, ih, Option.map_some]

/-- The bytes of a character that is not ASCII are not either. -/
theorem utf8EncodeChar_high {c : Char} (h : 128 ≤ c.toNat) {b : UInt8}
    (hb : b ∈ String.utf8EncodeChar c) : 128 ≤ b.toNat := by
  have hbyte : ∀ n, 128 ≤ n % 256 → 128 ≤ (UInt8.ofNat n).toNat := fun _ hn => hn
  have hlarge : ¬c.val.toNat ≤ 0x7f := Nat.not_le_of_gt h
  rw [String.utf8EncodeChar, if_neg hlarge] at hb
  split at hb
  · simp only [List.mem_cons, List.not_mem_nil, or_false] at hb
    rcases hb with rfl | rfl <;> refine hbyte _ ?_ <;> omega
  · split at hb
    · simp only [List.mem_cons, List.not_mem_nil, or_false] at hb
      rcases hb with rfl | rfl | rfl <;> refine hbyte _ ?_ <;> omega
    · simp only [List.mem_cons, List.not_mem_nil, or_false] at hb
      rcases hb with rfl | rfl | rfl | rfl <;> refine hbyte _ ?_ <;> omega

/-- An ASCII byte is that of an ASCII character. -/
theorem mem_of_mem_encode {s : Str} {bytes : List UInt8} (h : encode s = some bytes) {b : UInt8}
    (hb : b ∈ bytes) (hlow : b.toNat < 128) : chr (Char.ofNat b.toNat) ∈ s := by
  simp only [encode, Option.map_eq_some_iff] at h
  rcases h with ⟨cs, hcs, rfl⟩
  rcases List.mem_flatMap.mp hb with ⟨c, hc, hbc⟩
  rw [scalars_eq_some hcs]
  by_cases hascii : c.toNat < 128
  · rw [utf8EncodeChar_of_ascii hascii, List.mem_singleton] at hbc
    have hsame : b.toNat = c.toNat := by
      rw [hbc]
      exact Nat.mod_eq_of_lt (by omega)
    rw [hsame, Char.ofNat_toNat]
    exact List.mem_map_of_mem hc
  · have hhigh := utf8EncodeChar_high (Nat.le_of_not_lt hascii) hbc
    omega

/-- An ASCII character has its byte. -/
theorem mem_encode_of_mem {s : Str} {bytes : List UInt8} (h : encode s = some bytes) {c : Char}
    (hc : chr c ∈ s) (hascii : c.toNat < 128) : UInt8.ofNat c.toNat ∈ bytes := by
  simp only [encode, Option.map_eq_some_iff] at h
  rcases h with ⟨cs, hcs, rfl⟩
  rw [scalars_eq_some hcs] at hc
  rcases List.mem_map.mp hc with ⟨d, hd, heq⟩
  obtain rfl := PyChar.scalar.inj heq
  refine List.mem_flatMap.mpr ⟨d, hd, ?_⟩
  rw [utf8EncodeChar_of_ascii hascii]
  exact List.mem_singleton_self _

/-- A text whose bytes are ASCII is ASCII. -/
theorem ascii_of_encode {s : Str} {bytes : List UInt8} (h : encode s = some bytes)
    (hlow : ∀ b ∈ bytes, b.toNat < 128) {c : PyChar} (hc : c ∈ s) : ord c < 128 := by
  simp only [encode, Option.map_eq_some_iff] at h
  rcases h with ⟨cs, hcs, rfl⟩
  rw [scalars_eq_some hcs] at hc
  rcases List.mem_map.mp hc with ⟨d, hd, rfl⟩
  refine Nat.lt_of_not_le fun hhigh => ?_
  rcases List.exists_mem_of_ne_nil _ (utf8EncodeChar_prefixCode.nonempty d) with ⟨b, hb⟩
  have hb128 := utf8EncodeChar_high hhigh hb
  have hblow := hlow b (List.mem_flatMap.mpr ⟨d, hd, hb⟩)
  omega

/-- Printable text is ASCII. -/
theorem Printable.ascii {s : Str} (h : Printable s) {c : PyChar} (hc : c ∈ s) : ord c < 128 := by
  have hrange : 32 ≤ ord c ∧ ord c ≤ 126 := of_decide_eq_true (List.all_eq_true.mp h c hc)
  omega

theorem isPlain_of_printable {s : Str} (h : Printable s) : IsPlain s :=
  isPlain_of_encode (encode_of_ascii fun _ hc => h.ascii hc)

/-- The UTF-8 of a text that has one. -/
def utf8 (s : Str) : List UInt8 :=
  (encode s).getD []

theorem IsPlain.encode_eq {s : Str} (h : IsPlain s) : encode s = some (utf8 s) := by
  rcases h.encodes with ⟨bytes, hbytes⟩
  rw [utf8, hbytes, Option.getD_some]

theorem utf8_append {s t : Str} (hs : IsPlain s) (ht : IsPlain t) :
    utf8 (s ++ t) = utf8 s ++ utf8 t :=
  Option.some.inj ((isPlain_append.mpr ⟨hs, ht⟩).encode_eq.symm.trans
    (encode_append hs.encode_eq ht.encode_eq))

theorem utf8_of_printable {s : Str} (h : Printable s) :
    utf8 s = s.map fun c => UInt8.ofNat (ord c) :=
  Option.some.inj ((isPlain_of_printable h).encode_eq.symm.trans
    (encode_of_ascii fun _ hc => h.ascii hc))

/-- Two numbers look different. -/
theorem digits_injective {m n : Nat} (h : digits m = digits n) : m = n := by
  have htext : Nat.toDigits 10 m = Nat.toDigits 10 n :=
    List.map_injective_iff.mpr (fun a b hab => PyChar.scalar.inj hab) h
  rw [← Nat.ofDigitChars_ten_toDigits (n := m), htext, Nat.ofDigitChars_ten_toDigits]

/-- `bytes.hex`. -/
def toHex (bytes : List UInt8) : Str :=
  bytes.flatMap fun b => [lowerHexDigit (b.toNat / 16), lowerHexDigit (b.toNat % 16)]

end Smbpal
