import Smbpal.Python.Text
import Smbpal.Lib.Lines

/-!
# Python Text Files

Reading and writing a whole file as text: `Path.read_text(encoding="utf-8")`, a
handle opened with mode `"w"` on Linux, and `str.splitlines(keepends=True)`.

The two directions are not inverse. Reading turns every `\r\n` and every lone
`\r` into `\n`, and writing on Linux leaves `\n` alone, so a file comes back from
a read and a write exactly when it has no carriage return.

## Main definitions

* `decodeUtf8`: `bytes.decode("utf-8")`.
* `decodeReplace`: The same, with `errors="replace"`.
* `universalNewlines`: What reading in text mode does to line ends.
* `readText`, `writeText`: The two directions.
* `splitlines`: The lines, each with its end.

## Theorems

* `encode_of_decodeUtf8`, `decodeUtf8_of_encode`: Decoding is the inverse of
  encoding.
* `decodeReplace_of_encode`: In UTF-8 there is nothing to replace.
* `universalNewlines_eq_self_iff`: Exactly the texts without a carriage return are
  read as they are.
* `readText_writeText`: Such a text is read back.
* `splitlines_line`: A line with its end is cut off as it is.
* `lineText_oneLine`: A line of a text has its end at its end only.
-/

namespace Smbpal

/-- `.decode("utf-8")`. -/
def decodeUtf8 (bytes : List UInt8) : Option Str :=
  (String.fromUTF8? ⟨bytes.toArray⟩).map fun s => str s

/-- Whether a character can go on so, behind a first byte that asks for three or four. -/
def isSecondByte (first second : UInt8) : Bool :=
  if first = 0xE0 then decide (0xA0 ≤ second ∧ second ≤ 0xBF)
  else if first = 0xED then decide (0x80 ≤ second ∧ second ≤ 0x9F)
  else if first = 0xF0 then decide (0x90 ≤ second ∧ second ≤ 0xBF)
  else if first = 0xF4 then decide (0x80 ≤ second ∧ second ≤ 0x8F)
  else decide (0xE1 ≤ first ∧ first ≤ 0xF3 ∧ 0x80 ≤ second ∧ second ≤ 0xBF)

/-- How many bytes one U+FFFD stands for, where no character starts: as many as could have
    started one. -/
def brokenLength : List UInt8 → Nat
  | [] => 0
  | [_] => 1
  | first :: second :: rest =>
      if isSecondByte first second then
        if first < 0xF0 then 2
        else
          match rest with
          | [] => 2
          | third :: _ => if 0x80 ≤ third ∧ third ≤ 0xBF then 3 else 2
      else 1

/-- `.decode("utf-8", errors="replace")`, some bytes into a character that is read. -/
def decodeReplaceFrom : Nat → List UInt8 → Str
  | _, [] => []
  | skip + 1, _ :: bytes => decodeReplaceFrom skip bytes
  | 0, byte :: bytes =>
      match (byte :: bytes).toByteArray.utf8DecodeChar? 0 with
      | some c => .scalar c :: decodeReplaceFrom (c.utf8Size - 1) bytes
      | none =>
          .scalar (Char.ofNat 0xFFFD) ::
            decodeReplaceFrom (brokenLength (byte :: bytes) - 1) bytes

/-- `.decode("utf-8", errors="replace")`. -/
def decodeReplace (bytes : List UInt8) : Str :=
  decodeReplaceFrom 0 bytes

/-- Reading in text mode: `\r\n` and a lone `\r` become `\n`. -/
def universalNewlines : Str → Str
  | [] => []
  | c :: s =>
      if c = chr '\r' then
        if s.head? = some (chr '\n') then universalNewlines s else chr '\n' :: universalNewlines s
      else
        c :: universalNewlines s

/-- `Path.read_text(encoding="utf-8")`; `none` is a `UnicodeDecodeError`. -/
def readText (bytes : List UInt8) : Option Str :=
  (decodeUtf8 bytes).map universalNewlines

/-- What a handle opened with `"w"` and UTF-8 leaves in the file. On Linux `\n`
    is written as it is; `none` is a `UnicodeEncodeError`. -/
def writeText (text : Str) : Option (List UInt8) :=
  encode text

/-- The line boundaries of `str.splitlines`. -/
def isLineBoundary (c : PyChar) : Bool :=
  let n := ord c
  decide (10 ≤ n ∧ n ≤ 13 ∨ 28 ≤ n ∧ n ≤ 30 ∨ n = 0x85 ∨ n = 0x2028 ∨ n = 0x2029)

/-- What ends a line of a Python string. -/
def lineEnds : Lib.Ends PyChar where
  cr := chr '\r'
  lf := chr '\n'
  isEnd := isLineBoundary
  lf_isEnd := by decide
  cr_ne_lf := by decide

/-- `text.splitlines(keepends=True)`. -/
def splitlines (text : Str) : List Str :=
  lineEnds.cut text

/-- A line without its end. -/
def lineText (line : Str) : Str :=
  line.rdropWhile isLineBoundary

/-- `line.rstrip("\r\n")`. -/
def rstripNewlines (line : Str) : Str :=
  line.rdropWhile fun c => decide (c = chr '\r') || decide (c = chr '\n')

theorem scalars_map (cs : List Char) : scalars (cs.map .scalar) = some cs := by
  induction cs with
  | nil => rfl
  | cons c cs ih => rw [List.map_cons, scalars, ih, Option.map_some]

theorem encode_str (s : String) :
    encode (str s) = some (s.toList.flatMap String.utf8EncodeChar) := by
  unfold encode str
  rw [scalars_map, Option.map_some]

/-- A decoded text encodes to the bytes it came from. -/
theorem encode_of_decodeUtf8 {bytes : List UInt8} {text : Str} (h : decodeUtf8 bytes = some text) :
    encode text = some bytes := by
  simp only [decodeUtf8, String.fromUTF8?, Option.map_eq_some_iff] at h
  rcases h with ⟨s, hs, rfl⟩
  split at hs
  · rename_i hvalid
    rw [Option.some.injEq] at hs
    have hbytes : s.toByteArray = ⟨bytes.toArray⟩ := by
      rw [← hs]
      rfl
    have hdata := String.utf8Encode_toList (b := s)
    rw [hbytes, List.utf8Encode] at hdata
    rw [encode_str, Option.some.injEq]
    have := congrArg (fun b => b.data.toList) hdata
    simpa using this
  · exact nomatch hs

/-- An encoded text decodes to itself. -/
theorem decodeUtf8_of_encode {bytes : List UInt8} {text : Str} (h : encode text = some bytes) :
    decodeUtf8 bytes = some text := by
  simp only [encode, Option.map_eq_some_iff] at h
  rcases h with ⟨cs, hcs, rfl⟩
  have hbytes : (⟨(cs.flatMap String.utf8EncodeChar).toArray⟩ : ByteArray) =
      (String.ofList cs).toByteArray := by
    rw [String.toByteArray_ofList, List.utf8Encode]
    apply ByteArray.ext
    simp
  have hvalid : (String.ofList cs).toByteArray.IsValidUTF8 := (String.ofList cs).isValidUTF8
  rw [decodeUtf8, hbytes, String.fromUTF8?, dif_pos hvalid, Option.map_some, scalars_eq_some hcs]
  change some ((String.ofList cs).toList.map PyChar.scalar) = _
  rw [String.toList_ofList]

theorem decodeReplaceFrom_skip (read rest : List UInt8) :
    decodeReplaceFrom read.length (read ++ rest) = decodeReplaceFrom 0 rest := by
  induction read with
  | nil => rfl
  | cons byte read ih => exact ih

/-- A character is read off its bytes. -/
theorem decodeReplaceFrom_char (c : Char) (rest : List UInt8) :
    decodeReplaceFrom 0 (String.utf8EncodeChar c ++ rest) =
      .scalar c :: decodeReplaceFrom 0 rest := by
  have hdecode := ByteArray.utf8DecodeChar?_utf8EncodeChar_append (b := rest.toByteArray) (c := c)
  rw [← List.toByteArray_append] at hdecode
  have hlength := String.length_utf8EncodeChar c
  cases hbytes : String.utf8EncodeChar c with
  | nil => exact absurd hbytes (utf8EncodeChar_prefixCode.nonempty c)
  | cons byte read =>
      rw [hbytes, List.length_cons] at hlength
      rw [hbytes, List.cons_append] at hdecode
      rw [List.cons_append, decodeReplaceFrom, hdecode]
      change PyChar.scalar c :: decodeReplaceFrom (c.utf8Size - 1) (read ++ rest) = _
      rw [← hlength, Nat.add_sub_cancel, decodeReplaceFrom_skip]

/-- In UTF-8 there is nothing to replace. -/
theorem decodeReplace_of_encode {text : Str} {bytes : List UInt8} (h : encode text = some bytes) :
    decodeReplace bytes = text := by
  simp only [encode, Option.map_eq_some_iff] at h
  rcases h with ⟨cs, hcs, rfl⟩
  rw [scalars_eq_some hcs]
  clear hcs
  induction cs with
  | nil => rfl
  | cons c cs ih =>
      rw [List.flatMap_cons, List.map_cons, decodeReplace, decodeReplaceFrom_char]
      exact congrArg (_ :: ·) ih

/-- No carriage return is left. -/
theorem cr_not_mem_universalNewlines (text : Str) : chr '\r' ∉ universalNewlines text := by
  have hlf : chr '\r' ≠ chr '\n' := by decide
  induction text with
  | nil => exact List.not_mem_nil
  | cons c s ih =>
      unfold universalNewlines
      by_cases hc : c = chr '\r'
      · rw [if_pos hc]
        by_cases hs : s.head? = some (chr '\n')
        · rw [if_pos hs]
          exact ih
        · rw [if_neg hs, List.mem_cons, not_or]
          exact ⟨hlf, ih⟩
      · rw [if_neg hc, List.mem_cons, not_or]
        exact ⟨fun h => hc h.symm, ih⟩

/-- Reading in text mode adds nothing but line feeds. -/
theorem mem_universalNewlines {text : Str} {c : PyChar} (h : c ∈ universalNewlines text) :
    c ∈ text ∨ c = chr '\n' := by
  induction text with
  | nil => exact Or.inl h
  | cons d s ih =>
      unfold universalNewlines at h
      by_cases hd : d = chr '\r'
      · rw [if_pos hd] at h
        by_cases hs : s.head? = some (chr '\n')
        · rw [if_pos hs] at h
          exact (ih h).imp_left (List.mem_cons_of_mem d)
        · rw [if_neg hs] at h
          rcases List.mem_cons.mp h with rfl | h
          · exact Or.inr rfl
          · exact (ih h).imp_left (List.mem_cons_of_mem d)
      · rw [if_neg hd] at h
        rcases List.mem_cons.mp h with rfl | h
        · exact Or.inl List.mem_cons_self
        · exact (ih h).imp_left (List.mem_cons_of_mem d)

/-- Exactly the texts without a carriage return are read as they are. -/
theorem universalNewlines_eq_self_iff (text : Str) :
    universalNewlines text = text ↔ chr '\r' ∉ text := by
  constructor
  · intro h
    rw [← h]
    exact cr_not_mem_universalNewlines text
  · intro h
    induction text with
    | nil => rfl
    | cons c s ih =>
        rw [List.mem_cons, not_or] at h
        rw [universalNewlines, if_neg fun hc => h.1 hc.symm, ih h.2]

/-- A text without a carriage return is read back as it was written. -/
theorem readText_writeText {text : Str} {bytes : List UInt8} (h : writeText text = some bytes)
    (hcr : chr '\r' ∉ text) : readText bytes = some text := by
  rw [readText, decodeUtf8_of_encode h, Option.map_some,
    (universalNewlines_eq_self_iff text).mpr hcr]

/-- A line of text with one of the two endings is cut off as it is. -/
theorem splitlines_line {body ending : Str} (hbody : ∀ c ∈ body, isLineBoundary c = false)
    (hending : ending = str "\n" ∨ ending = str "\r\n") (u : Str) :
    splitlines (body ++ ending ++ u) = (body ++ ending) :: splitlines u := by
  have hlf : splitlines (str "\n" ++ u) = str "\n" :: splitlines u := by
    change lineEnds.cut (lineEnds.lf :: u) = _
    rw [Lib.Ends.cut, if_pos (lineEnds.closes_lf u)]
    rfl
  have hcut : splitlines (ending ++ u) = ending :: splitlines u := by
    rcases hending with rfl | rfl
    · exact hlf
    · change lineEnds.cut (lineEnds.cr :: (str "\n" ++ u)) = _
      rw [Lib.Ends.cut, if_neg (by
        rw [show str "\n" ++ u = lineEnds.lf :: u from rfl, lineEnds.closes_cr_lf]
        exact Bool.false_ne_true)]
      change Lib.Ends.extend lineEnds.cr (splitlines (str "\n" ++ u)) = _
      rw [hlf]
      rfl
  rw [List.append_assoc]
  exact lineEnds.cut_body hbody hcut

theorem lineText_append {body ending : Str} (hbody : ∀ c ∈ body, isLineBoundary c = false)
    (hending : ∀ c ∈ ending, isLineBoundary c = true) : lineText (body ++ ending) = body := by
  induction ending using List.reverseRecOn with
  | nil =>
      rw [List.append_nil]
      refine List.rdropWhile_eq_self_iff.mpr fun hne hlast => ?_
      exact Bool.false_ne_true ((hbody _ (List.getLast_mem hne)).symm.trans hlast)
  | append_singleton ending c ih =>
      rw [← List.append_assoc, lineText, List.rdropWhile_concat_pos _ _ _ (hending c (by simp))]
      exact ih fun d hd => hending d (List.mem_append_left _ hd)

/-- A line of a text has its end at its end only. -/
theorem lineText_oneLine {text line : Str} (h : line ∈ splitlines text) :
    ∀ c ∈ lineText line, isLineBoundary c = false := by
  rcases lineEnds.cut_line_parts (lineEnds.cut_of_mem_cut h) with ⟨body, ending, rfl, hbody, hend⟩
  rw [lineText_append hbody hend]
  exact hbody

end Smbpal
