import Mathlib.Data.List.Chain
import Smbpal.Python.Dumps

/-!
# Reading JSON

`json.loads`, as CPython's scanner does it.

The scanner goes through a text once. A string is read up to its quote, and two escapes that
are the halves of a character are put together, so a string that holds the two halves side by
side is not read back as itself. A later member of an object takes the place of an earlier
one of the same key. Where the text is no JSON the scanner says what it expected, and where.
A text that is nested too deeply or has too long a number raises something else.

## Main definitions

* `ScanError`, `JsonFault`: What goes wrong, and where.
* `scanString`, `scanNumber`, `scanValue`: The scanner.
* `jsonScan`, `pyLoads`: `json.loads`.
* `Unpaired`: A string that holds no two halves side by side.

## Theorems

* `scanString_written`: A string is read back, whatever follows it.
* `scanNumber_int`, `scanNumber_float`: A number is, if what follows cannot belong to it.
-/

namespace Smbpal

/-- Digits, and a zero in front only when it is alone. -/
def IsWhole (whole : Str) : Prop :=
  ∃ d ds, whole = d :: ds ∧ whole.all isDigit = true ∧ (d = chr '0' → ds = [])

/-- A point and digits, or nothing. -/
def IsFraction (fraction : Str) : Prop :=
  fraction = [] ∨ ∃ d ds, fraction = chr '.' :: d :: ds ∧ (d :: ds).all isDigit = true

/-- An exponent, or nothing. -/
def IsExponent (exponent : Str) : Prop :=
  exponent = [] ∨ ∃ e s d ds, exponent = e :: (s ++ d :: ds) ∧ (e = chr 'e' ∨ e = chr 'E') ∧
    (s = [] ∨ s = [chr '-'] ∨ s = [chr '+']) ∧ (d :: ds).all isDigit = true

/-- A text JSON has for a number that is no whole one. -/
structure FloatShape (sign whole fraction exponent : Str) : Prop where
  signed : sign = [] ∨ sign = [chr '-']
  leads : IsWhole whole
  points : IsFraction fraction
  scales : IsExponent exponent
  notWhole : ¬(fraction = [] ∧ exponent = [])

/-- A float's text that `float` makes the float of. -/
def FloatBack (floatOf : Str → PyFloat) (q : Rat) (text : Str) : Prop :=
  ∃ sign whole fraction exponent, FloatShape sign whole fraction exponent ∧
    text = sign ++ (whole ++ (fraction ++ exponent)) ∧ floatOf text = .finite q

/-- What `float` makes of a text, and that it reads back the `repr` of what it makes. -/
class FloatRead extends FloatText where
  floatOf : Str → PyFloat
  floatBack : ∀ text q, floatOf text = .finite q → FloatBack floatOf q (floatRepr q)

export FloatRead (floatOf floatBack)

theorem printable_zero : Printable (str "0.0") := by
  decide

/-- Floats where there is none in the text. -/
@[reducible] def FloatRead.none : FloatRead where
  floatRepr := fun _ => str "0.0"
  floatRepr_printable := fun _ => printable_zero
  floatOf := fun _ => .nan
  floatBack := fun _ _ h => by cases h

section Reader

/-- Where the scanner stops: with a message, and what is left of the text; or by something
    else, which says nothing of the text. -/
inductive ScanError where
  | fault (message : String) (rest : Str)
  | other

/-- The code point of a number. -/
def pyChr (n : Nat) : PyChar :=
  if h : 0xD800 ≤ n ∧ n < 0xE000 then .surrogate ⟨n - 0xD800, by omega⟩ else .scalar (Char.ofNat n)

/-- `[ \t\n\r]`. -/
def isJsonBlank (c : PyChar) : Bool :=
  oneOf " \t\n\r" c

/-- Go over blanks. -/
def skipBlanks (text : Str) : Str :=
  text.dropWhile isJsonBlank

/-- The number four hexadecimal digits are, and what follows. -/
def hexFour : Str → Option (Nat × Str)
  | a :: b :: c :: d :: rest => do
      let a ← hexValue a
      let b ← hexValue b
      let c ← hexValue c
      let d ← hexValue d
      pure (((a * 16 + b) * 16 + c) * 16 + d, rest)
  | _ => none

/-- The first half of a character beyond the first 65536. -/
def isHighHalf (n : Nat) : Bool :=
  decide (0xD800 ≤ n ∧ n ≤ 0xDBFF)

/-- The second half. -/
def isLowHalf (n : Nat) : Bool :=
  decide (0xDC00 ≤ n ∧ n ≤ 0xDFFF)

/-- What becomes of a first half: if the second one is escaped behind it, they are one. -/
def scanLowHalf (high : Nat) (text : Str) : Except ScanError (PyChar × Str) :=
  match text with
  | b :: u :: rest =>
      if b = chr '\\' ∧ u = chr 'u' ∧ 5 ≤ rest.length then
        match hexFour rest with
        | none => .error (.fault "Invalid \\uXXXX escape" (u :: rest))
        | some (low, after) =>
            if isLowHalf low then
              .ok (pyChr (65536 + (high - 0xD800) * 1024 + (low - 0xDC00)), after)
            else .ok (pyChr high, text)
      else .ok (pyChr high, text)
  | _ => .ok (pyChr high, text)

/-- What follows `\u`; the text begins with the `u`. -/
def scanUnicode (text : Str) : Except ScanError (PyChar × Str) :=
  if (text.drop 1).length < 5 then .error (.fault "Invalid \\uXXXX escape" text)
  else
    match hexFour (text.drop 1) with
    | none => .error (.fault "Invalid \\uXXXX escape" text)
    | some (n, after) => if isHighHalf n then scanLowHalf n after else .ok (pyChr n, after)

/-- What a character stands for behind a backslash. -/
def unescaped (c : PyChar) : Option PyChar :=
  if c = chr '"' then some (chr '"')
  else if c = chr '\\' then some (chr '\\')
  else if c = chr '/' then some (chr '/')
  else if c = chr 'b' then some (chr '\x08')
  else if c = chr 'f' then some (chr '\x0c')
  else if c = chr 'n' then some (chr '\n')
  else if c = chr 'r' then some (chr '\r')
  else if c = chr 't' then some (chr '\t')
  else none

/-- What a backslash stands for, with what is behind it. -/
def scanEscape (begin rest : Str) : Except ScanError (PyChar × Str) :=
  match rest with
  | [] => .error (.fault "Unterminated string starting at" begin)
  | e :: after =>
      if e = chr 'u' then scanUnicode (e :: after)
      else
        match unescaped e with
        | none => .error (.fault "Invalid \\escape" (chr '\\' :: rest))
        | some d => .ok (d, after)

/-- One character of a string. -/
def scanChar (begin : Str) (c : PyChar) (rest : Str) : Except ScanError (PyChar × Str) :=
  if c = chr '\\' then scanEscape begin rest
  else if ord c ≤ 0x1f then .error (.fault "Invalid control character at" (c :: rest))
  else .ok (c, rest)

/-- `scanstring`, with so many turns; `begin` is the text from the opening quote on. -/
def scanString (begin : Str) : Nat → Str → Except ScanError (Str × Str)
  | 0, _ => .error .other
  | _ + 1, [] => .error (.fault "Unterminated string starting at" begin)
  | turns + 1, c :: rest =>
      if c = chr '"' then .ok ([], rest)
      else do
        let read ← scanChar begin c rest
        let r ← scanString begin turns read.2
        pure (read.1 :: r.1, r.2)

/-- The number decimal digits are. -/
def decimalOf (text : Str) : Nat :=
  text.foldl (fun n c => 10 * n + (ord c - 48)) 0

/-- `sys.get_int_max_str_digits()`. -/
def maxStrDigits : Nat := 4300

/-- A point and digits behind it, if there are any. -/
def scanFraction (text : Str) : Str × Str :=
  match text with
  | p :: d :: rest =>
      if p = chr '.' ∧ isDigit d = true then
        (p :: d :: rest.takeWhile isDigit, rest.dropWhile isDigit)
      else ([], text)
  | _ => ([], text)

/-- The sign of an exponent. -/
def scanSign (text : Str) : Str × Str :=
  match text with
  | c :: rest => if c = chr '-' ∨ c = chr '+' then ([c], rest) else ([], text)
  | [] => ([], [])

/-- An exponent, if there is one with a digit. -/
def scanExponent (text : Str) : Str × Str :=
  match text with
  | e :: rest =>
      if (e = chr 'e' ∨ e = chr 'E') ∧ (scanSign rest).2.takeWhile isDigit ≠ [] then
        (e :: (scanSign rest).1 ++ (scanSign rest).2.takeWhile isDigit,
          (scanSign rest).2.dropWhile isDigit)
      else ([], text)
  | [] => ([], [])

/-- The digits of a whole number: a zero stands alone. -/
def scanWhole (text : Str) : Option (Str × Str) :=
  match text with
  | c :: rest =>
      if c = chr '0' then some ([c], rest)
      else if isDigit c = true then some (c :: rest.takeWhile isDigit, rest.dropWhile isDigit)
      else none
  | [] => none

variable [FloatRead]

/-- A number behind its sign. -/
def scanUnsigned (text sign : Str) (body : Str) : Except ScanError (Json × Str) :=
  match scanWhole body with
  | none => .error (.fault "Expecting value" text)
  | some (whole, after) =>
      let fraction := scanFraction after
      let exponent := scanExponent fraction.2
      if fraction.1 = [] ∧ exponent.1 = [] then
        if maxStrDigits < whole.length then .error .other
        else
          .ok (.int (if sign = [] then decimalOf whole else -(decimalOf whole : Int)), exponent.2)
      else .ok (.float (floatOf (sign ++ (whole ++ (fraction.1 ++ exponent.1)))), exponent.2)

/-- `_match_number`. -/
def scanNumber (text : Str) : Except ScanError (Json × Str) :=
  match text with
  | c :: rest => if c = chr '-' then scanUnsigned text [c] rest else scanUnsigned text [] text
  | [] => scanUnsigned text [] text

/-- A value that is a word. -/
def scanWord (text : Str) : Option (Json × Str) :=
  if startsWith text "null" then some (.null, text.drop 4)
  else if startsWith text "true" then some (.bool true, text.drop 4)
  else if startsWith text "false" then some (.bool false, text.drop 5)
  else if startsWith text "NaN" then some (.float .nan, text.drop 3)
  else if startsWith text "Infinity" then some (.float .infinity, text.drop 8)
  else if startsWith text "-Infinity" then some (.float .minusInfinity, text.drop 9)
  else none

/-- `members[key] = value`. -/
def setMember (members : List (Str × Json)) (key : Str) (value : Json) : List (Str × Json) :=
  if key ∈ members.map Prod.fst then
    members.map fun m => if m.1 = key then (key, value) else m
  else members ++ [(key, value)]

mutual

/-- `scan_once`: so many levels are left, and so many turns. -/
def scanValue : Nat → Nat → Str → Except ScanError (Json × Str)
  | _, 0, _ => .error .other
  -- The text is at its end.
  | _, _ + 1, [] => .error (.fault "Expecting value" [])
  | levels, turns + 1, c :: rest =>
      if c = chr '"' then do
        let r ← scanString (c :: rest) (rest.length + 1) rest
        pure (.string r.1, r.2)
      -- Each level of nesting uses up one.
      else if c = chr '[' then
        if levels = 0 then .error .other
        else if (skipBlanks rest).head? = some (chr ']') then
          .ok (.array [], (skipBlanks rest).tail)
        else scanItems (levels - 1) turns (skipBlanks rest) []
      else if c = chr '\x7b' then
        if levels = 0 then .error .other
        else if (skipBlanks rest).head? = some (chr '\x7d') then
          .ok (.object [], (skipBlanks rest).tail)
        else scanMembers (levels - 1) turns (skipBlanks rest) []
      else
        match scanWord (c :: rest) with
        | some r => .ok r
        | none => scanNumber (c :: rest)

/-- The rest of an array, when some items are read. -/
def scanItems : Nat → Nat → Str → List Json → Except ScanError (Json × Str)
  | _, 0, _, _ => .error .other
  | levels, turns + 1, text, done => do
      let r ← scanValue levels turns text
      match skipBlanks r.2 with
      | c :: after =>
          if c = chr ']' then .ok (.array (done ++ [r.1]), after)
          else if c = chr ',' then scanItems levels turns (skipBlanks after) (done ++ [r.1])
          else .error (.fault "Expecting ',' delimiter" (c :: after))
      | [] => .error (.fault "Expecting ',' delimiter" [])

/-- The rest of an object, when some members are read. -/
def scanMembers : Nat → Nat → Str → List (Str × Json) → Except ScanError (Json × Str)
  | _, 0, _, _ => .error .other
  | _, _ + 1, [], _ =>
      .error (.fault "Expecting property name enclosed in double quotes" [])
  | levels, turns + 1, q :: rest, done =>
      -- A key that comes again takes the later value, in its first place.
      if q = chr '"' then do
        let key ← scanString (q :: rest) (rest.length + 1) rest
        match skipBlanks key.2 with
        | c :: after =>
            if c = chr ':' then do
              let r ← scanValue levels turns (skipBlanks after)
              match skipBlanks r.2 with
              | e :: after =>
                  if e = chr '\x7d' then .ok (.object (setMember done key.1 r.1), after)
                  else if e = chr ',' then
                    scanMembers levels turns (skipBlanks after) (setMember done key.1 r.1)
                  else .error (.fault "Expecting ',' delimiter" (e :: after))
              | [] => .error (.fault "Expecting ',' delimiter" [])
            else .error (.fault "Expecting ':' delimiter" (c :: after))
        | [] => .error (.fault "Expecting ':' delimiter" [])
      else .error (.fault "Expecting property name enclosed in double quotes" (q :: rest))

end

/-- `json.loads`, of a text that may be nested so deeply. -/
def jsonScan (levels : Nat) (text : Str) : Except ScanError Json :=
  if text.head? = some (.scalar '\ufeff') then
    .error (.fault "Unexpected UTF-8 BOM (decode using utf-8-sig)" text)
  else do
    let r ← scanValue levels (text.length + 1) (skipBlanks text)
    if skipBlanks r.2 = [] then pure r.1 else .error (.fault "Extra data" (skipBlanks r.2))

/-- `JSONDecodeError`. -/
structure JsonFault where
  msg : Str
  lineno : Nat
  colno : Nat
  pos : Nat

/-- The error for a place in a text. -/
def jsonFault (text : Str) (message : String) (rest : Str) : JsonFault :=
  let before := text.take (text.length - rest.length)
  { msg := str message
    lineno := before.count (chr '\n') + 1
    colno := (before.reverse.takeWhile fun c => c != chr '\n').length + 1
    pos := before.length }

/-- `str(exc)`. -/
def JsonFault.text (e : JsonFault) : Str :=
  e.msg ++ str ": line " ++ digits e.lineno ++ str " column " ++ digits e.colno ++ str " (char " ++
    digits e.pos ++ str ")"

/-- `json.loads`, with the error as it prints. -/
def pyLoads (levels : Nat) (text : Str) : Except JsonError Json :=
  match jsonScan levels text with
  | .ok v => .ok v
  | .error (.fault message rest) => .error (.decode (jsonFault text message rest).text)
  | .error .other => .error .other

end Reader

section Strings

/-- No first half of a character has the second one behind it. -/
def Unpaired (s : Str) : Prop :=
  s.IsChain fun c d => ¬(isHighHalf (ord c) = true ∧ isLowHalf (ord d) = true)

theorem pyChr_ord (c : PyChar) : pyChr (ord c) = c := by
  cases c with
  | scalar d =>
      have hvalid : d.toNat < 0xD800 ∨ 0xDFFF < d.toNat ∧ d.toNat < 0x110000 := d.valid
      have hnot : ¬(0xD800 ≤ d.toNat ∧ d.toNat < 0xE000) := by omega
      change pyChr d.toNat = _
      rw [pyChr, dif_neg hnot, Char.ofNat_toNat]
  | surrogate n =>
      have hin : 0xD800 ≤ 0xD800 + n.val ∧ 0xD800 + n.val < 0xE000 := by omega
      change pyChr (0xD800 + n.val) = _
      rw [pyChr, dif_pos hin]
      exact congrArg PyChar.surrogate (Fin.ext (Nat.add_sub_cancel_left ..))

/-- A character that this number is the code point of. -/
theorem eq_chr_of_ord {c : PyChar} {d : Char} (h : ord c = d.toNat) : c = chr d :=
  ord_injective h

theorem ord_lt (c : PyChar) : ord c < 0x110000 := by
  cases c with
  | scalar d =>
      have hvalid : d.toNat < 0xD800 ∨ 0xDFFF < d.toNat ∧ d.toNat < 0x110000 := d.valid
      exact show d.toNat < 0x110000 by omega
  | surrogate n => exact show 0xD800 + n.val < 0x110000 by omega

theorem hexValue_lowerHexDigit {d : Nat} (h : d < 16) : hexValue (lowerHexDigit d) = some d := by
  have hall : ∀ d < 16, hexValue (lowerHexDigit d) = some d := by decide
  exact hall d h

/-- The four digits of an escape. -/
def fourDigits (n : Nat) : Str :=
  [lowerHexDigit (n / 4096 % 16), lowerHexDigit (n / 256 % 16), lowerHexDigit (n / 16 % 16),
    lowerHexDigit (n % 16)]

theorem hexFour_fourDigits {n : Nat} (h : n < 65536) (rest : Str) :
    hexFour (fourDigits n ++ rest) = some (n, rest) := by
  have hdigit : ∀ d, hexValue (lowerHexDigit (d % 16)) = some (d % 16) := fun d =>
    hexValue_lowerHexDigit (Nat.mod_lt d (by omega))
  have hn : ((n / 4096 % 16 * 16 + n / 256 % 16) * 16 + n / 16 % 16) * 16 + n % 16 = n := by
    omega
  change (do
    let a ← hexValue (lowerHexDigit (n / 4096 % 16))
    let b ← hexValue (lowerHexDigit (n / 256 % 16))
    let c ← hexValue (lowerHexDigit (n / 16 % 16))
    let d ← hexValue (lowerHexDigit (n % 16))
    pure (((a * 16 + b) * 16 + c) * 16 + d, rest)) = _
  rw [hdigit, hdigit, hdigit, hdigit]
  exact congrArg (fun m => some (m, rest)) hn

/-- An escape that ends the text is not read: something has to follow it. -/
theorem scanUnicode_escape {n : Nat} (h : n < 65536) {rest : Str} (hrest : rest ≠ []) :
    scanUnicode (chr 'u' :: fourDigits n ++ rest) =
      if isHighHalf n = true then scanLowHalf n rest else .ok (pyChr n, rest) := by
  have hlength : ¬(fourDigits n ++ rest).length < 5 := by
    have hpos := List.length_pos_of_ne_nil hrest
    rw [List.length_append]
    exact Nat.not_lt.mpr (Nat.add_le_add_left hpos 4)
  unfold scanUnicode
  rw [List.cons_append, List.drop_succ_cons, List.drop_zero, if_neg hlength,
    hexFour_fourDigits h]

/-- What a character of a string may be written as. -/
inductive Escaped (c : PyChar) : Str → Prop where
  | short {e : PyChar} (he : unescaped e = some c) (hu : e ≠ chr 'u') : Escaped c [chr '\\', e]
  | plain (hquote : c ≠ chr '"') (hbackslash : c ≠ chr '\\') (hcontrol : 0x1f < ord c) :
      Escaped c [c]
  | unit (h : ord c < 65536) : Escaped c (unicodeEscape (ord c))
  | pair (h : 65536 ≤ ord c) : Escaped c
      (unicodeEscape (0xD800 + (ord c - 65536) / 1024 % 1024) ++
        unicodeEscape (0xDC00 + (ord c - 65536) % 1024))

theorem Escaped.ne_nil {c : PyChar} {t : Str} (h : Escaped c t) : t ≠ [] := by
  cases h <;> exact List.cons_ne_nil _ _

theorem escaped_escapeChar (c : PyChar) : Escaped c (escapeChar c) := by
  unfold escapeChar
  dsimp only
  -- The branches of the writer, each with the form the reader knows it by.
  by_cases hself : ord c = 34 ∨ ord c = 92
  · rw [if_pos hself]
    rcases hself with h | h
    · obtain rfl := eq_chr_of_ord (d := '"') h
      exact .short (by decide) (by decide)
    · obtain rfl := eq_chr_of_ord (d := '\\') h
      exact .short (by decide) (by decide)
  rw [if_neg hself]
  by_cases hb : ord c = 8
  · rw [if_pos hb]
    obtain rfl := eq_chr_of_ord (d := '\x08') hb
    exact .short (e := chr 'b') (by decide) (by decide)
  rw [if_neg hb]
  by_cases ht : ord c = 9
  · rw [if_pos ht]
    obtain rfl := eq_chr_of_ord (d := '\t') ht
    exact .short (e := chr 't') (by decide) (by decide)
  rw [if_neg ht]
  by_cases hn : ord c = 10
  · rw [if_pos hn]
    obtain rfl := eq_chr_of_ord (d := '\n') hn
    exact .short (e := chr 'n') (by decide) (by decide)
  rw [if_neg hn]
  by_cases hf : ord c = 12
  · rw [if_pos hf]
    obtain rfl := eq_chr_of_ord (d := '\x0c') hf
    exact .short (e := chr 'f') (by decide) (by decide)
  rw [if_neg hf]
  by_cases hr : ord c = 13
  · rw [if_pos hr]
    obtain rfl := eq_chr_of_ord (d := '\r') hr
    exact .short (e := chr 'r') (by decide) (by decide)
  rw [if_neg hr]
  by_cases hprintable : isPrintable c = true
  · rw [if_pos hprintable]
    have hrange : 32 ≤ ord c ∧ ord c ≤ 126 := of_decide_eq_true hprintable
    refine .plain (fun h => hself (Or.inl ?_)) (fun h => hself (Or.inr ?_)) (by omega)
    · rw [h]
      rfl
    · rw [h]
      rfl
  rw [if_neg hprintable]
  -- What is left is written by its number, in one unit or in two.
  by_cases hsmall : ord c < 65536
  · rw [if_pos hsmall]
    exact .unit hsmall
  · rw [if_neg hsmall]
    exact .pair (by omega)

theorem unicodeEscape_eq (n : Nat) :
    unicodeEscape n = chr '\\' :: chr 'u' :: fourDigits n :=
  rfl

/-- What follows a first half and is no escaped second half is left alone. -/
theorem scanLowHalf_other {high : Nat} {text : Str}
    (h : ∀ low after, text = unicodeEscape low ++ after → low < 65536 → isLowHalf low = false)
    (hshape : ∀ rest, text = chr '\\' :: chr 'u' :: rest →
      ∃ low after, low < 65536 ∧ rest = fourDigits low ++ after) :
    scanLowHalf high text = .ok (pyChr high, text) := by
  unfold scanLowHalf
  split
  · rename_i b u rest
    split
    · rename_i hescape
      rcases hescape with ⟨rfl, rfl, -⟩
      rcases hshape rest rfl with ⟨low, after, hlow, rfl⟩
      have hnot : ¬isLowHalf low = true := ne_true_of_eq_false (h low after rfl hlow)
      rw [hexFour_fourDigits hlow]
      dsimp only
      rw [if_neg hnot]
    · rfl
  · rfl

theorem fourDigits_injective {m n : Nat} (hm : m < 65536) (hn : n < 65536) {s t : Str}
    (h : fourDigits m ++ s = fourDigits n ++ t) : m = n := by
  have hread := hexFour_fourDigits hm s
  rw [h, hexFour_fourDigits hn, Option.some.injEq, Prod.mk.injEq] at hread
  exact hread.1.symm

/-- In front of a character that is no second half. -/
theorem scanLowHalf_escaped {high : Nat} {d : PyChar} {t : Str} (hd : Escaped d t)
    (hlow : isLowHalf (ord d) = false) (rest : Str) :
    scanLowHalf high (t ++ rest) = .ok (pyChr high, t ++ rest) := by
  -- A unit behind it that is no low half is left to be read by itself.
  have hunit : ∀ n after, n < 65536 → isLowHalf n = false →
      scanLowHalf high (unicodeEscape n ++ after) = .ok (pyChr high, unicodeEscape n ++ after) := by
    intro n after hn hlow
    refine scanLowHalf_other (fun low after' heq hsmall => ?_) fun rest heq => ?_
    · rw [unicodeEscape_eq, unicodeEscape_eq, List.cons_append, List.cons_append, List.cons_append,
        List.cons_append, List.cons.injEq, List.cons.injEq] at heq
      rw [← fourDigits_injective hn hsmall heq.2.2]
      exact hlow
    · rw [unicodeEscape_eq, List.cons_append, List.cons_append, List.cons.injEq,
        List.cons.injEq] at heq
      exact ⟨n, after, hn, heq.2.2.symm⟩
  -- What follows is no low half, in whichever form it is written.
  cases hd with
  | short he hu =>
      refine scanLowHalf_other (fun low after heq _ => ?_) fun rest' heq => ?_
      · exact absurd (List.cons.inj (List.cons.inj heq).2).1 hu
      · exact absurd (List.cons.inj (List.cons.inj heq).2).1 hu
  | plain hquote hbackslash hcontrol =>
      refine scanLowHalf_other (fun low after heq _ => ?_) fun rest' heq => ?_
      · exact absurd (List.cons.inj heq).1 hbackslash
      · exact absurd (List.cons.inj heq).1 hbackslash
  | unit h => exact hunit (ord d) rest h hlow
  | pair h =>
      rw [List.append_assoc]
      refine hunit _ _ (by omega) (decide_eq_false ?_)
      omega

/-- The end of the string is no second half. -/
theorem scanLowHalf_quote (high : Nat) (rest : Str) :
    scanLowHalf high (chr '"' :: rest) = .ok (pyChr high, chr '"' :: rest) := by
  refine scanLowHalf_other (fun low after heq _ => ?_) fun rest' heq => ?_
  · exact absurd (List.cons.inj heq).1 (by decide)
  · exact absurd (List.cons.inj heq).1 (by decide)

/-- The two halves of a character are put together. -/
theorem scanLowHalf_pair {c : PyChar} (h : 65536 ≤ ord c) {rest : Str} (hrest : rest ≠ []) :
    scanLowHalf (0xD800 + (ord c - 65536) / 1024 % 1024)
      (unicodeEscape (0xDC00 + (ord c - 65536) % 1024) ++ rest) = .ok (c, rest) := by
  have hlt := ord_lt c
  have hlength : 5 ≤ (fourDigits (0xDC00 + (ord c - 65536) % 1024) ++ rest).length := by
    have hpos := List.length_pos_of_ne_nil hrest
    rw [List.length_append]
    exact Nat.add_le_add_left hpos 4
  have hlow : isLowHalf (0xDC00 + (ord c - 65536) % 1024) = true := by
    refine decide_eq_true ⟨by omega, by omega⟩
  have hwhole : 65536 + (0xD800 + (ord c - 65536) / 1024 % 1024 - 0xD800) * 1024 +
      (0xDC00 + (ord c - 65536) % 1024 - 0xDC00) = ord c := by
    omega
  rw [unicodeEscape_eq, List.cons_append, List.cons_append]
  unfold scanLowHalf
  dsimp only
  rw [if_pos ⟨rfl, rfl, hlength⟩, hexFour_fourDigits (by omega)]
  dsimp only
  rw [if_pos hlow, hwhole, pyChr_ord]

/-- A character is read back, if what follows a first half is no second one. -/
theorem scanChar_escaped {c : PyChar} {t : Str} (hc : Escaped c t) {rest : Str}
    (hrest : rest ≠ [])
    (hnext : isHighHalf (ord c) = true → scanLowHalf (ord c) rest = .ok (pyChr (ord c), rest))
    (begin : Str) :
    ∃ d after, t ++ rest = d :: after ∧ d ≠ chr '"' ∧ scanChar begin d after = .ok (c, rest) := by
  -- A form by number is read where its unit is.
  have hunicode : ∀ n after, scanUnicode (chr 'u' :: fourDigits n ++ after) = .ok (c, rest) →
      ∃ d after', unicodeEscape n ++ after = d :: after' ∧ d ≠ chr '"' ∧
        scanChar begin d after' = .ok (c, rest) := by
    intro n after hread
    refine ⟨chr '\\', chr 'u' :: fourDigits n ++ after, rfl, by decide, ?_⟩
    rw [scanChar, if_pos rfl, List.cons_append, scanEscape, if_pos rfl]
    exact hread
  cases hc with
  | @short e he hu =>
      refine ⟨chr '\\', e :: rest, rfl, by decide, ?_⟩
      rw [scanChar, if_pos rfl, scanEscape, if_neg hu, he]
  | plain hquote hbackslash hcontrol =>
      refine ⟨c, rest, rfl, hquote, ?_⟩
      rw [scanChar, if_neg hbackslash, if_neg (by omega)]
  | unit h =>
      refine hunicode _ _ ?_
      rw [scanUnicode_escape h hrest]
      by_cases hhigh : isHighHalf (ord c) = true
      · rw [if_pos hhigh, hnext hhigh, pyChr_ord]
      · rw [if_neg hhigh, pyChr_ord]
  | pair h =>
      -- The first unit of a pair is a high half, and the second is read with it.
      have hlt := ord_lt c
      have hfirst : 0xD800 + (ord c - 65536) / 1024 % 1024 < 65536 := by omega
      have hhigh : isHighHalf (0xD800 + (ord c - 65536) / 1024 % 1024) = true :=
        decide_eq_true ⟨by omega, by omega⟩
      rw [List.append_assoc]
      refine hunicode _ _ ?_
      rw [scanUnicode_escape hfirst (by simp [unicodeEscape]), if_pos hhigh,
        scanLowHalf_pair h hrest]

/-- A string is read back, whatever follows its quote. -/
theorem scanString_written {s : Str} (h : Unpaired s) (begin rest : Str) {turns : Nat}
    (hturns : s.length < turns) :
    scanString begin turns (s.flatMap escapeChar ++ chr '"' :: rest) = .ok (s, rest) := by
  induction s generalizing turns with
  | nil =>
      cases turns with
      | zero => exact absurd hturns (Nat.not_lt_zero _)
      | succ turns => rfl
  | cons c s ih =>
      cases turns with
      | zero => exact absurd hturns (Nat.not_lt_zero _)
      | succ turns =>
          -- What follows a first half is the quote, or a character that is no second half.
          have hnext : isHighHalf (ord c) = true →
              scanLowHalf (ord c) (s.flatMap escapeChar ++ chr '"' :: rest) =
                .ok (pyChr (ord c), s.flatMap escapeChar ++ chr '"' :: rest) := by
            intro hhigh
            cases s with
            | nil => exact scanLowHalf_quote _ _
            | cons d s =>
                rw [List.flatMap_cons, List.append_assoc]
                refine scanLowHalf_escaped (escaped_escapeChar d) ?_ _
                have hnot := (List.isChain_cons_cons.mp h).1
                exact eq_false_of_ne_true fun hlow => hnot ⟨hhigh, hlow⟩
          rcases scanChar_escaped (escaped_escapeChar c) (by simp) hnext begin with
            ⟨d, after, htext, hquote, hread⟩
          rw [List.flatMap_cons, List.append_assoc, htext, scanString, if_neg hquote, hread]
          change (do
            let r ← scanString begin turns (s.flatMap escapeChar ++ chr '"' :: rest)
            pure (c :: r.1, r.2)) = _
          rw [ih h.tail (Nat.lt_of_succ_lt_succ hturns)]
          rfl

end Strings

section Numbers

/-- What may follow a number: nothing that could belong to it. -/
def EndsNumber (rest : Str) : Prop :=
  ∀ c ∈ rest.head?, isDigit c = false ∧ c ≠ chr '.' ∧ c ≠ chr 'e' ∧ c ≠ chr 'E'

/-- Nor a digit. -/
def EndsDigits (rest : Str) : Prop :=
  ∀ c ∈ rest.head?, isDigit c = false

theorem takeWhile_digits {ds rest : Str} (h : ds.all isDigit = true) (hrest : EndsDigits rest) :
    (ds ++ rest).takeWhile isDigit = ds ∧ (ds ++ rest).dropWhile isDigit = rest := by
  have hall := List.all_eq_true.mp h
  have hstop : rest.takeWhile isDigit = [] ∧ rest.dropWhile isDigit = rest := by
    cases rest with
    | nil => exact ⟨rfl, rfl⟩
    | cons c rest =>
        have hc : ¬isDigit c = true := ne_true_of_eq_false (hrest c rfl)
        exact ⟨List.takeWhile_cons_of_neg hc, List.dropWhile_cons_of_neg hc⟩
  rw [List.takeWhile_append_of_pos hall, List.dropWhile_append_of_pos hall, hstop.1, hstop.2,
    List.append_nil]
  exact ⟨rfl, rfl⟩

theorem scanWhole_read {whole rest : Str} (h : IsWhole whole) (hrest : EndsDigits rest) :
    scanWhole (whole ++ rest) = some (whole, rest) := by
  rcases h with ⟨d, ds, rfl, hdigits, hzero⟩
  rw [List.all_cons, Bool.and_eq_true] at hdigits
  rw [List.cons_append, scanWhole]
  by_cases hd : d = chr '0'
  · rw [if_pos hd, hzero hd, List.nil_append]
  · rw [if_neg hd, if_pos hdigits.1, (takeWhile_digits hdigits.2 hrest).1,
      (takeWhile_digits hdigits.2 hrest).2]

theorem scanFraction_read {fraction rest : Str} (h : IsFraction fraction)
    (hdigits : EndsDigits rest) (hpoint : ∀ c ∈ rest.head?, c ≠ chr '.') :
    scanFraction (fraction ++ rest) = (fraction, rest) := by
  rcases h with rfl | ⟨d, ds, rfl, hds⟩
  · rw [List.nil_append]
    unfold scanFraction
    split
    · rename_i p d rest
      have hnot : ¬(p = chr '.' ∧ isDigit d = true) := fun h => hpoint p rfl h.1
      rw [if_neg hnot]
    · rfl
  · rw [List.all_cons, Bool.and_eq_true] at hds
    rw [List.cons_append, List.cons_append, scanFraction, if_pos ⟨rfl, hds.1⟩,
      (takeWhile_digits hds.2 hdigits).1, (takeWhile_digits hds.2 hdigits).2]

theorem scanSign_read {s : Str} {d : PyChar} (hs : s = [] ∨ s = [chr '-'] ∨ s = [chr '+'])
    (hd : isDigit d = true) (rest : Str) :
    scanSign (s ++ d :: rest) = (s, d :: rest) := by
  rcases hs with rfl | rfl | rfl
  · have hnot : ¬(d = chr '-' ∨ d = chr '+') := by
      rintro (rfl | rfl) <;> exact absurd hd (by decide)
    rw [List.nil_append, scanSign, if_neg hnot]
  · rfl
  · rfl

theorem scanExponent_read {exponent rest : Str} (h : IsExponent exponent)
    (hrest : EndsNumber rest) : scanExponent (exponent ++ rest) = (exponent, rest) := by
  rcases h with rfl | ⟨e, s, d, ds, rfl, he, hs, hds⟩
  · rw [List.nil_append]
    cases rest with
    | nil => rfl
    | cons c rest =>
        -- Behind a number there is no exponent.
        have hnot : ¬((c = chr 'e' ∨ c = chr 'E') ∧
            (scanSign rest).2.takeWhile isDigit ≠ []) := by
          rintro ⟨hc | hc, -⟩
          · exact (hrest c rfl).2.2.1 hc
          · exact (hrest c rfl).2.2.2 hc
        rw [scanExponent, if_neg hnot]
  · have hends : EndsDigits rest := fun c hc => (hrest c hc).1
    have hd : isDigit d = true := by
      rw [List.all_cons, Bool.and_eq_true] at hds
      exact hds.1
    have hsign := scanSign_read hs hd (ds ++ rest)
    rw [List.cons_append, scanExponent, List.append_assoc, List.cons_append, hsign]
    dsimp only
    rw [← List.cons_append, (takeWhile_digits hds hends).1, (takeWhile_digits hds hends).2,
      if_pos ⟨he, List.cons_ne_nil _ _⟩, List.cons_append]

theorem decimalOf_digits (n : Nat) : decimalOf (digits n) = n := by
  have hfold := Nat.ofDigitChars_ten_toDigits (n := n)
  rw [Nat.ofDigitChars_eq_foldl] at hfold
  rw [decimalOf, digits, List.foldl_map]
  exact hfold

/-- Only zero begins with one. -/
theorem toDigits_zero_head {n : Nat} {ds : List Char} (h : Nat.toDigits 10 n = '0' :: ds) :
    n = 0 := by
  induction n using Nat.strong_induction_on generalizing ds with
  | _ n ih =>
      rw [Nat.toDigits_eq_if (by decide)] at h
      by_cases hn : n < 10
      · rw [if_pos hn, List.cons.injEq] at h
        have hvalue := Nat.toNat_digitChar_sub_48_of_lt_ten hn
        rw [h.1] at hvalue
        exact hvalue.symm
      · rw [if_neg hn] at h
        cases htens : Nat.toDigits 10 (n / 10) with
        | nil => exact absurd htens Nat.toDigits_ne_nil
        | cons c cs =>
            rw [htens, List.cons_append, List.cons.injEq] at h
            have hzero := ih (n / 10) (by omega) (h.1 ▸ htens)
            omega

theorem isWhole_digits (n : Nat) : IsWhole (digits n) := by
  have hdigits : (digits n).all isDigit = true :=
    List.all_eq_true.mpr fun _ hc => isDigit_of_mem_digits hc
  cases htext : Nat.toDigits 10 n with
  | nil => exact absurd htext Nat.toDigits_ne_nil
  | cons c cs =>
      refine ⟨.scalar c, cs.map .scalar, by rw [digits, htext, List.map_cons], hdigits, ?_⟩
      intro hc
      rw [PyChar.scalar.inj hc] at htext
      rw [toDigits_zero_head htext, Nat.toDigits_zero, List.cons.injEq] at htext
      rw [← htext.2, List.map_nil]

section Read

variable [FloatRead]

/-- A number is read as far as it goes. -/
theorem scanUnsigned_read {whole fraction exponent rest : Str} (hwhole : IsWhole whole)
    (hfraction : IsFraction fraction) (hexponent : IsExponent exponent)
    (hrest : EndsNumber rest) (text sign : Str) :
    scanUnsigned text sign (whole ++ (fraction ++ (exponent ++ rest))) =
      if fraction = [] ∧ exponent = [] then
        if maxStrDigits < whole.length then .error .other
        else .ok (.int (if sign = [] then decimalOf whole else -(decimalOf whole : Int)), rest)
      else .ok (.float (floatOf (sign ++ (whole ++ (fraction ++ exponent)))), rest) := by
  have hends : ∀ c ∈ rest.head?, isDigit c = false ∧ c ≠ chr '.' := fun c hc =>
    ⟨(hrest c hc).1, (hrest c hc).2.1⟩
  -- Where there is no exponent, what ends the number is what follows.
  have htail : ∀ c ∈ (exponent ++ rest).head?, isDigit c = false ∧ c ≠ chr '.' := by
    rcases hexponent with rfl | ⟨e, s, d, ds, rfl, he, -, -⟩
    · exact hends
    · intro c hc
      obtain rfl : e = c := Option.some.inj hc
      rcases he with rfl | rfl <;> exact ⟨by decide, by decide⟩
  -- The whole part ends at a point, an exponent, or the end of the number.
  have hdigits : EndsDigits (fraction ++ (exponent ++ rest)) := by
    rcases hfraction with rfl | ⟨d, ds, rfl, -⟩
    · exact fun c hc => (htail c hc).1
    · intro c hc
      obtain rfl : chr '.' = c := Option.some.inj hc
      rfl
  rw [scanUnsigned, scanWhole_read hwhole hdigits]
  dsimp only
  rw [scanFraction_read hfraction (fun c hc => (htail c hc).1) fun c hc => (htail c hc).2]
  dsimp only
  rw [scanExponent_read hexponent hrest]

/-- A sign in front of a number is taken for one. -/
theorem scanNumber_read {sign whole fraction exponent rest : Str}
    (hsign : sign = [] ∨ sign = [chr '-']) (hwhole : IsWhole whole)
    (hfraction : IsFraction fraction) (hexponent : IsExponent exponent)
    (hrest : EndsNumber rest) :
    scanNumber (sign ++ (whole ++ (fraction ++ (exponent ++ rest)))) =
      if fraction = [] ∧ exponent = [] then
        if maxStrDigits < whole.length then .error .other
        else .ok (.int (if sign = [] then decimalOf whole else -(decimalOf whole : Int)), rest)
      else .ok (.float (floatOf (sign ++ (whole ++ (fraction ++ exponent)))), rest) := by
  rcases hsign with rfl | rfl
  · -- Without a sign the first digit decides where the reading begins.
    have hread := scanUnsigned_read hwhole hfraction hexponent hrest
      (whole ++ (fraction ++ (exponent ++ rest))) []
    rcases hwhole with ⟨d, ds, rfl, hdigits, -⟩
    have hd : d ≠ chr '-' := by
      rintro rfl
      rw [List.all_cons] at hdigits
      exact absurd hdigits (by simp [isDigit, chr])
    rw [List.nil_append, List.cons_append, scanNumber, if_neg hd]
    exact hread
  · rw [List.cons_append, List.nil_append, scanNumber, if_pos rfl]
    exact scanUnsigned_read hwhole hfraction hexponent hrest _ _

/-- A whole number is read back, when it is not too long. -/
theorem scanNumber_int {n : Int} (hlength : (digits n.natAbs).length ≤ maxStrDigits)
    {rest : Str} (hrest : EndsNumber rest) :
    scanNumber (dumpsInt n ++ rest) = .ok (.int n, rest) := by
  -- The digits are read back, with a sign or without.
  have hread : ∀ sign, sign = [] ∨ sign = [chr '-'] →
      scanNumber (sign ++ (digits n.natAbs ++ rest)) =
        .ok (.int (if sign = [] then (n.natAbs : Int) else -(n.natAbs : Int)), rest) := by
    intro sign hsign
    have h := scanNumber_read hsign (isWhole_digits n.natAbs) (Or.inl rfl) (Or.inl rfl) hrest
    rw [if_pos ⟨rfl, rfl⟩, if_neg (Nat.not_lt.mpr hlength), decimalOf_digits] at h
    exact h
  unfold dumpsInt
  by_cases hn : n < 0
  · have hvalue : -(n.natAbs : Int) = n := by omega
    have h := hread [chr '-'] (Or.inr rfl)
    rw [if_neg (List.cons_ne_nil _ _), hvalue] at h
    rw [if_pos hn]
    exact h
  · have hvalue : (n.natAbs : Int) = n := by omega
    have h := hread [] (Or.inl rfl)
    rw [if_pos rfl, hvalue] at h
    rw [if_neg hn]
    exact h

/-- A float that `float` makes of its `repr` is read back. -/
theorem scanNumber_float {q : Rat} (h : FloatBack floatOf q (floatRepr q)) {rest : Str}
    (hrest : EndsNumber rest) :
    scanNumber (floatRepr q ++ rest) = .ok (.float (.finite q), rest) := by
  rcases h with ⟨sign, whole, fraction, exponent, hshape, htext, hvalue⟩
  have hread := scanNumber_read hshape.signed hshape.leads hshape.points hshape.scales hrest
  rw [if_neg hshape.notWhole, ← htext, hvalue] at hread
  rw [← hread, htext, List.append_assoc, List.append_assoc, List.append_assoc]

end Read

end Numbers

end Smbpal
