import Smbpal.Ipc.Frames
import Smbpal.Python.Dumps

/-!
# The Frame of the Privileged Helper

`Helper._frame` in `system/helper.py`, which writes a request, and `read_frame` and
`parse_frame` in `helper/smbpal-helper.c`, which read it.

A request is lines until `END`. Nothing in a line can end it, since the client refuses
line feeds, so `END` stands at the end of the frame and nowhere else, and the reader,
which looks for it after every `read`, finds it with the last byte and not before. What
it accepts is then what was written, whatever the chunks.

The client turns the frame into UTF-8 last. A string with a lone surrogate has none, and
what is raised then is not the client's own error (`surrogate_raises`).

## Main definitions

* `helperFrame`: `_frame`.
* `readFrame`: `read_frame`.
* `parseFrame`: `parse_frame`.
* `acceptFrame`: The two, as `serve_one` uses them.
* `IsRequest`: What the helper accepts, in the client's terms.
* `FrameMeansTheSame`: The client raises its error, or the helper reads what it wrote.

## Theorems

* `parseLines_frame`: What a frame is parsed to.
* `readFrame_whole`: A frame is read whole, whatever the chunks.
* `acceptFrame_sound`: What is accepted is all of the frame.
* `frame_means_the_same_iff`: When the frame means the same on both sides.
-/

namespace Smbpal

open Lib

section Client

/-- What `_frame` raises: its own error, or Python's. -/
inductive HelperFrameError where
  | helper (message detail : Str)
  | unicodeEncode

/-- `"\n" in arg or "\r" in arg`. -/
def hasLineEnd (arg : Str) : Bool :=
  decide (chr '\n' ∈ arg) || decide (chr '\r' ∈ arg)

/-- The line of an authorisation. -/
def authLines : Option (List UInt8) → List Str
  | none => []
  | some form => [str "AUTH " ++ toHex form]

/-- The lines of a frame. -/
def helperLines (verb : Str) (auth : Option (List UInt8)) (args : List Str) : List Str :=
  (str "VERB " ++ verb) :: (authLines auth ++ (args.map (str "ARG " ++ ·) ++ [str "END"]))

/-- `Helper._frame`. -/
def helperFrame (verb : Str) (auth : Option (List UInt8)) (args : List Str) :
    Except HelperFrameError (List UInt8) :=
  if (verb :: args).any hasLineEnd then
    .error (.helper (verb ++ str " was given an argument containing a newline")
      (str "it would end the line and be read as a truncated frame"))
  else
    match encode (join (str "\n") (helperLines verb auth args) ++ str "\n") with
    | none => .error .unicodeEncode
    | some bytes => .ok bytes

end Client

section Helper

/-- `REQUEST_MAX`. -/
def requestMax : Nat := 1024

/-- `ARGS_MAX`. -/
def argsMax : Nat := 4

/-- `REQUEST_ARG_MAX`. -/
def requestArgMax : Nat := 256

/-- `sizeof req->verb`. -/
def verbMax : Nat := 64

/-- The bytes of a string literal. -/
def cBytes (s : String) : List UInt8 :=
  s.toList.map fun c => UInt8.ofNat c.toNat

/-- `struct request`. -/
structure HelperRequest where
  verb : List UInt8
  auth : Option (List UInt8)
  args : List (List UInt8)
  deriving DecidableEq

/-- `memset(req, 0, sizeof *req)`. -/
def HelperRequest.empty : HelperRequest where
  verb := []
  auth := none
  args := []

/-- `unhex_digit`. -/
def unhexDigit (c : UInt8) : Option Nat :=
  let n := c.toNat
  if 48 ≤ n ∧ n ≤ 57 then some (n - 48)
  else if 97 ≤ n ∧ n ≤ 102 then some (n - 97 + 10)
  else if 65 ≤ n ∧ n ≤ 70 then some (n - 65 + 10)
  else none

/-- The loop of `unhex`. -/
def unhexPairs : List UInt8 → Option (List UInt8)
  | [] => some []
  | [_] => none
  | c :: d :: text => do
      let hi ← unhexDigit c
      let lo ← unhexDigit d
      let out ← unhexPairs text
      pure (UInt8.ofNat (hi <<< 4 ||| lo) :: out)

/-- `unhex`. -/
def unhex (text : List UInt8) (len : Nat) : Option (List UInt8) :=
  if text.length ≠ len * 2 then none else unhexPairs text

/-- `copy_token`. -/
def copyToken (cap : Nat) (src : List UInt8) : Option (List UInt8) :=
  if src.length = 0 ∨ cap ≤ src.length then none
  else if src.head? = some 45 then none
  else if src.any (fun b => decide (b.toNat < 0x20) || decide (0x7e < b.toNat)) then none
  else some src

/-- What one `read` returns while the peer sends. -/
structure Part where
  bytes : List UInt8
  some_byte : bytes ≠ []

/-- How the reading ends: the peer has closed, or `read` fails. -/
inductive PartsEnd where
  | closed
  | failed
  deriving DecidableEq

/-- The bytes that arrive. -/
def arrived (parts : List Part) : List UInt8 :=
  parts.flatMap Part.bytes

/-- `strstr(buf, "\nEND\n") != NULL || strncmp(buf, "END\n", 4) == 0`. -/
def hasEnd (buf : List UInt8) : Bool :=
  decide (cBytes "\nEND\n" <:+: buf) || decide (buf.take 4 = cBytes "END\n")

/-- `read_frame`, when `got` is in the buffer. A `read` takes no more than there is room
    for; what is left of the part then makes no difference, since the next round finds the
    buffer full. -/
def readFrame (cap : Nat) (got : List UInt8) : List Part → PartsEnd → Option (List UInt8)
  | [], .closed => if cap ≤ got.length then none else some got
  | [], .failed => none
  | part :: parts, ending =>
      if cap ≤ got.length then none
      else
        let buf := got ++ part.bytes.take (cap - got.length)
        if 0 ∈ buf then none
        else if hasEnd buf then some buf
        else readFrame cap buf parts ending

/-- A line of a request, other than `END`. -/
def parseLine (req : HelperRequest) (line : List UInt8) : Option HelperRequest :=
  if line.take 5 = cBytes "VERB " then
    if req.verb ≠ [] then none
    else (copyToken verbMax (line.drop 5)).map fun verb => { req with verb := verb }
  else if line.take 5 = cBytes "AUTH " then
    if req.auth.isSome then none
    else (unhex (line.drop 5) authFormBytes).map fun form => { req with auth := some form }
  else if line.take 4 = cBytes "ARG " then
    if argsMax ≤ req.args.length then none
    else (copyToken requestArgMax (line.drop 4)).map fun arg =>
      { req with args := req.args ++ [arg] }
  else none

/-- The loop of `parse_frame` over the lines that have a terminator. One that has none is
    refused where the loop comes to it, as the end of the buffer is. -/
def parseLines (req : HelperRequest) : List (List UInt8) → Option HelperRequest
  | [] => none
  | line :: lines =>
      if line = cBytes "END" then if req.verb = [] then none else some req
      else (parseLine req line).bind fun req => parseLines req lines

/-- `parse_frame`, on a buffer without a NUL. -/
def parseFrame (buf : List UInt8) : Option HelperRequest :=
  parseLines .empty (framed lineFeed buf).1

/-- What `serve_one` has after the two. -/
def acceptFrame (parts : List Part) (ending : PartsEnd) : Option HelperRequest :=
  (readFrame requestMax [] parts ending).bind fun buf =>
    if buf.length = 0 then none else parseFrame buf

end Helper

section Meaning

/-- 1 to `cap - 1` characters of printable ASCII, the first of which is no hyphen. -/
def IsToken (cap : Nat) (s : Str) : Prop :=
  (1 ≤ s.length ∧ s.length ≤ cap - 1) ∧ Printable s ∧ s.head? ≠ some (chr '-')

/-- A request within the limits. -/
structure IsRequest (verb : Str) (auth : Option (List UInt8)) (args : List Str) : Prop where
  isVerb : IsToken verbMax verb
  areArgs : ∀ arg ∈ args, IsToken requestArgMax arg
  few : args.length ≤ argsMax
  isForm : ∀ form, auth = some form → form.length = authFormBytes

/-- A parsed request has exactly this verb, authorisation and argument list. -/
def Carries (req : HelperRequest) (verb : Str) (auth : Option (List UInt8)) (args : List Str) :
    Prop :=
  encode verb = some req.verb ∧ req.auth = auth ∧ args.map encode = req.args.map some

/-- The client raises its error, or it writes a frame that the helper accepts, whatever the
    chunks, if and only if the request is within the limits; and what the helper accepts
    is this request, of which all has arrived. -/
def FrameMeansTheSame (verb : Str) (auth : Option (List UInt8)) (args : List Str) : Prop :=
  match helperFrame verb auth args with
  | .error (.helper _ _) => True
  | .error .unicodeEncode => False
  | .ok bytes =>
      ∀ parts ending, arrived parts <+: bytes →
        (arrived parts = bytes → ((acceptFrame parts ending).isSome = true ↔
          IsRequest verb auth args ∧ bytes.length ≤ requestMax)) ∧
        ∀ req, acceptFrame parts ending = some req →
          arrived parts = bytes ∧ Carries req verb auth args

end Meaning

section Utf8

theorem printable_toHex (form : List UInt8) : Printable (toHex form) := by
  refine List.all_eq_true.mpr fun c hc => ?_
  rcases List.mem_flatMap.mp hc with ⟨b, -, hcb⟩
  have hb := b.toNat_lt
  simp only [List.mem_cons, List.not_mem_nil, or_false] at hcb
  rcases hcb with rfl | rfl
  · exact printable_lowerHexDigit (by omega)
  · exact printable_lowerHexDigit (by omega)

/-- The lines of a text, each ended, in UTF-8. -/
theorem utf8_lines {lines : List Str} (h : ∀ line ∈ lines, IsPlain line) :
    encode (lines.flatMap (· ++ str "\n")) = some (unframed lineFeed (lines.map utf8)) := by
  induction lines with
  | nil => rfl
  | cons line lines ih =>
      rw [List.forall_mem_cons] at h
      have hfeed : encode (str "\n") = some [lineFeed] := by decide
      have hline := encode_append (encode_append h.1.encode_eq hfeed) (ih h.2)
      rw [List.flatMap_cons, hline, List.map_cons, unframed, unframed, List.flatMap_cons]

/-- The lines of a text that ends with one. -/
theorem join_lines (lines : List Str) (hne : lines ≠ []) (sep : Str) :
    join sep lines ++ sep = lines.flatMap (· ++ sep) := by
  induction lines with
  | nil => exact absurd rfl hne
  | cons line lines ih =>
      cases lines with
      | nil => rw [join, List.flatMap_cons, List.flatMap_nil, List.append_nil]
      | cons next lines =>
          have hnext : join sep (line :: next :: lines) =
              line ++ sep ++ join sep (next :: lines) := rfl
          rw [hnext, List.append_assoc, ih (List.cons_ne_nil next lines),
            @List.flatMap_cons _ _ line (next :: lines)]

end Utf8

section Tokens

/-- What `copy_token` takes. -/
theorem copyToken_eq_some_iff {cap : Nat} {src dst : List UInt8} :
    copyToken cap src = some dst ↔
      dst = src ∧ (1 ≤ src.length ∧ src.length < cap) ∧ src.head? ≠ some 45 ∧
        ∀ b ∈ src, 32 ≤ b.toNat ∧ b.toNat ≤ 126 := by
  -- The test of the source is for a byte out of the range.
  have hany : src.any (fun b => decide (b.toNat < 0x20) || decide (0x7e < b.toNat)) = true ↔
      ¬∀ b ∈ src, 32 ≤ b.toNat ∧ b.toNat ≤ 126 := by
    simp only [List.any_eq_true, Bool.or_eq_true, decide_eq_true_eq, not_forall]
    constructor
    · rintro ⟨b, hb, hout⟩
      exact ⟨b, hb, by omega⟩
    · rintro ⟨b, hb, hout⟩
      exact ⟨b, hb, by omega⟩
  unfold copyToken
  -- The tests in their order: the length, the dash, the bytes.
  by_cases hlen : src.length = 0 ∨ cap ≤ src.length
  · rw [if_pos hlen]
    exact ⟨(fun h => nomatch h), fun h => absurd h.2.1 (by omega)⟩
  rw [if_neg hlen]
  by_cases hhead : src.head? = some 45
  · rw [if_pos hhead]
    exact ⟨(fun h => nomatch h), fun h => absurd hhead h.2.2.1⟩
  rw [if_neg hhead]
  by_cases hout : ∀ b ∈ src, 32 ≤ b.toNat ∧ b.toNat ≤ 126
  · rw [if_neg (fun h => hany.mp h hout), Option.some.injEq]
    exact ⟨fun h => ⟨h.symm, by omega, hhead, hout⟩, fun h => h.1.symm⟩
  · rw [if_pos (hany.mpr hout)]
    exact ⟨(fun h => nomatch h), fun h => absurd h.2.2.2 hout⟩

/-- The bytes of a text are those of a token if and only if the text is one. -/
theorem copyToken_utf8 {cap : Nat} {s : Str} (h : IsPlain s) {dst : List UInt8} :
    copyToken cap (utf8 s) = some dst ↔ dst = utf8 s ∧ IsToken cap s := by
  rw [copyToken_eq_some_iff]
  refine and_congr_right fun _ => ?_
  -- A character is printable just where its byte is, for no longer form is.
  have hprintable : Printable s ↔ ∀ b ∈ utf8 s, 32 ≤ b.toNat ∧ b.toNat ≤ 126 := by
    constructor
    · intro hs b hb
      rw [utf8_of_printable hs] at hb
      rcases List.mem_map.mp hb with ⟨c, hc, rfl⟩
      have hrange : 32 ≤ ord c ∧ ord c ≤ 126 := of_decide_eq_true (List.all_eq_true.mp hs c hc)
      have hvalue : (UInt8.ofNat (ord c)).toNat = ord c := Nat.mod_eq_of_lt (by omega)
      rw [hvalue]
      exact hrange
    · intro hbytes
      -- Every byte is below the longer forms, so each is a character of its own.
      have hascii : ∀ c ∈ s, ord c < 128 := fun c hc =>
        ascii_of_encode h.encode_eq (fun b hb => Nat.lt_of_le_of_lt (hbytes b hb).2 (by decide)) hc
      have hmap : utf8 s = s.map fun c => UInt8.ofNat (ord c) :=
        Option.some.inj (h.encode_eq.symm.trans (encode_of_ascii hascii))
      refine List.all_eq_true.mpr fun c hc => decide_eq_true ?_
      have hc128 := hascii c hc
      have hvalue : (UInt8.ofNat (ord c)).toNat = ord c := Nat.mod_eq_of_lt (by omega)
      have hrange := hbytes (UInt8.ofNat (ord c)) (hmap ▸ List.mem_map_of_mem hc)
      rw [hvalue] at hrange
      exact hrange
  constructor
  · rintro ⟨hlen, hhead, hbytes⟩
    have hs := hprintable.mpr hbytes
    rw [utf8_of_printable hs] at hlen hhead
    rw [List.length_map] at hlen
    refine ⟨by omega, hs, fun hdash => hhead ?_⟩
    rw [List.head?_map, hdash]
    rfl
  · rintro ⟨hlen, hs, hhead⟩
    refine ⟨?_, ?_, hprintable.mp hs⟩
    · rw [utf8_of_printable hs, List.length_map]
      omega
    · rw [utf8_of_printable hs, List.head?_map]
      cases s with
      | nil => exact fun heq => nomatch heq
      | cons c s =>
          intro hdash
          have hrange : 32 ≤ ord c ∧ ord c ≤ 126 :=
            of_decide_eq_true (List.all_eq_true.mp hs c List.mem_cons_self)
          have hvalue : (UInt8.ofNat (ord c)).toNat = 45 :=
            congrArg UInt8.toNat (Option.some.inj hdash)
          -- A first byte that is the dash's is a dash.
          have hord : ord c = 45 := (Nat.mod_eq_of_lt (by omega : ord c < 256)).symm.trans hvalue
          rcases isPlain_of_printable hs c List.mem_cons_self with ⟨d, rfl⟩
          have hd : d = '-' := Char.ext (UInt32.toNat_inj.mp hord)
          exact hhead (by rw [hd]; rfl)

/-- `unhex` reads `bytes.hex` of as many bytes as it wants, and nothing else of that kind. -/
theorem unhex_toHex {form out : List UInt8} {len : Nat} :
    unhex ((toHex form).map fun c => UInt8.ofNat (ord c)) len = some out ↔
      out = form ∧ form.length = len := by
  -- Each digit reads back as what it was written for.
  have hdigit : ∀ d < 16, unhexDigit (UInt8.ofNat (ord (lowerHexDigit d))) = some d := by decide
  have hlength : ((toHex form).map fun c => UInt8.ofNat (ord c)).length = form.length * 2 := by
    rw [List.length_map]
    induction form with
    | nil => rfl
    | cons b form ih =>
        rw [toHex, List.flatMap_cons, List.length_append, ← toHex, ih, List.length_cons]
        exact (Nat.succ_mul form.length 2).symm ▸ Nat.add_comm 2 _
  -- Two digits at a time give the byte.
  have hpairs : unhexPairs ((toHex form).map fun c => UInt8.ofNat (ord c)) = some form := by
    clear hlength
    induction form with
    | nil => rfl
    | cons b form ih =>
        have hb := b.toNat_lt
        have hvalue : UInt8.ofNat ((b.toNat / 16) <<< 4 ||| b.toNat % 16) = b := by
          rw [← Nat.shiftLeft_add_eq_or_of_lt (Nat.mod_lt b.toNat (by decide)),
            Nat.shiftLeft_eq, Nat.div_add_mod', UInt8.ofNat_toNat]
        rw [toHex] at ih
        rw [toHex, List.flatMap_cons, List.map_append, List.map_cons, List.map_cons, List.map_nil,
          List.cons_append, List.cons_append, List.nil_append, unhexPairs,
          hdigit _ (by omega), hdigit _ (by omega), ih]
        exact congrArg (fun b => some (b :: form)) hvalue
  unfold unhex
  rw [hlength, hpairs]
  by_cases hlen : form.length = len
  · rw [if_neg (by omega), Option.some.injEq]
    exact ⟨fun h => ⟨h.symm, hlen⟩, fun h => h.1.symm⟩
  · rw [if_pos (by omega)]
    exact ⟨(fun h => nomatch h), fun h => absurd h.2 hlen⟩

end Tokens

section Parsing

variable {req r : HelperRequest}

theorem parseLines_cons {line : List UInt8} (h : line ≠ cBytes "END") (lines : List (List UInt8)) :
    parseLines req (line :: lines) = (parseLine req line).bind fun req => parseLines req lines :=
  if_neg h

theorem parseLines_end (h : req.verb ≠ []) (lines : List (List UInt8)) :
    parseLines req (cBytes "END" :: lines) = some req := by
  rw [parseLines, if_pos rfl, if_neg h]

/-- Lines without `END` are refused. -/
theorem parseLines_of_not_mem {lines : List (List UInt8)} (h : cBytes "END" ∉ lines) :
    parseLines req lines = none := by
  induction lines generalizing req with
  | nil => rfl
  | cons line lines ih =>
      rw [List.mem_cons, not_or] at h
      rw [parseLines_cons (Ne.symm h.1)]
      cases parseLine req line with
      | none => rfl
      | some req => exact ih h.2

theorem parseLine_verb (src : List UInt8) :
    parseLine req (cBytes "VERB " ++ src) =
      if req.verb ≠ [] then none
      else (copyToken verbMax src).map fun verb => { req with verb := verb } :=
  if_pos rfl

theorem parseLine_auth (src : List UInt8) :
    parseLine req (cBytes "AUTH " ++ src) =
      if req.auth.isSome then none
      else (unhex src authFormBytes).map fun form => { req with auth := some form } := by
  have hverb : (cBytes "AUTH " ++ src).take 5 ≠ cBytes "VERB " := fun h =>
    absurd (List.cons.inj h).1 (by decide)
  rw [parseLine, if_neg hverb]
  exact if_pos rfl

theorem parseLine_arg (src : List UInt8) :
    parseLine req (cBytes "ARG " ++ src) =
      if argsMax ≤ req.args.length then none
      else (copyToken requestArgMax src).map fun arg =>
        { req with args := req.args ++ [arg] } := by
  have hverb : (cBytes "ARG " ++ src).take 5 ≠ cBytes "VERB " := fun h =>
    absurd (List.cons.inj h).1 (by decide)
  have hauth : (cBytes "ARG " ++ src).take 5 ≠ cBytes "AUTH " := fun h =>
    absurd (List.cons.inj (List.cons.inj h).2).1 (by decide)
  rw [parseLine, if_neg hverb, if_neg hauth]
  exact if_pos rfl

/-- What the lines of some arguments are parsed to. -/
theorem parseLines_args {args : List Str} (hplain : ∀ arg ∈ args, IsPlain arg)
    (hverb : req.verb ≠ []) (hroom : req.args.length ≤ argsMax) :
    parseLines req (args.map (fun arg => cBytes "ARG " ++ utf8 arg) ++ [cBytes "END"]) = some r ↔
      (∀ arg ∈ args, IsToken requestArgMax arg) ∧ req.args.length + args.length ≤ argsMax ∧
        r = { req with args := req.args ++ args.map utf8 } := by
  induction args generalizing req with
  | nil =>
      rw [List.map_nil, List.nil_append, parseLines_end hverb, Option.some.injEq, List.map_nil,
        List.append_nil]
      exact ⟨fun h => ⟨fun _ harg => absurd harg List.not_mem_nil, hroom, h.symm⟩,
        fun h => h.2.2.symm⟩
  | cons arg args ih =>
      rw [List.forall_mem_cons] at hplain
      -- An argument's line is not the last one.
      have hline : cBytes "ARG " ++ utf8 arg ≠ cBytes "END" := fun h =>
        absurd (List.cons.inj h).1 (by decide)
      rw [List.map_cons, List.cons_append, parseLines_cons hline, parseLine_arg,
        List.forall_mem_cons, List.length_cons]
      -- There is no room for another.
      by_cases hfull : argsMax ≤ req.args.length
      · rw [if_pos hfull, Option.bind_none]
        exact ⟨(fun h => nomatch h), fun h => absurd h.2.1 (by omega)⟩
      rw [if_neg hfull, Option.bind_map, Option.bind_eq_some_iff]
      have hnext : ({ req with args := req.args ++ [utf8 arg] } : HelperRequest).args.length =
          req.args.length + 1 := List.length_append
      have hrest := @ih { req with args := req.args ++ [utf8 arg] } hplain.2 hverb
        (by rw [hnext]; omega)
      rw [hnext] at hrest
      constructor
      · rintro ⟨dst, hcopy, hparse⟩
        rcases (copyToken_utf8 hplain.1).mp hcopy with ⟨rfl, harg⟩
        rcases hrest.mp hparse with ⟨hargs, hfew, rfl⟩
        refine ⟨⟨harg, hargs⟩, by omega, ?_⟩
        rw [List.append_assoc, List.singleton_append, List.map_cons]
      · rintro ⟨⟨harg, hargs⟩, hfew, rfl⟩
        refine ⟨utf8 arg, (copyToken_utf8 hplain.1).mpr ⟨rfl, harg⟩,
          hrest.mpr ⟨hargs, by omega, ?_⟩⟩
        rw [List.append_assoc, List.singleton_append, List.map_cons]

/-- What the line of an authorisation is parsed to. -/
theorem parseLines_auth (hauth : req.auth = none) (auth : Option (List UInt8))
    (lines : List (List UInt8)) :
    parseLines req ((authLines auth).map utf8 ++ lines) = some r ↔
      (∀ form, auth = some form → form.length = authFormBytes) ∧
        parseLines { req with auth := auth } lines = some r := by
  cases auth with
  | none =>
      have hsame : ({ req with auth := none } : HelperRequest) = req := by rw [← hauth]
      rw [hsame]
      exact ⟨fun h => ⟨(fun _ heq => nomatch heq), h⟩, fun h => h.2⟩
  | some form =>
      -- The form's line is no end of the frame, and its digits are read back.
      have hkey : utf8 (str "AUTH ") = cBytes "AUTH " := by decide
      have hhex := printable_toHex form
      have hline : cBytes "AUTH " ++ utf8 (toHex form) ≠ cBytes "END" := fun h =>
        absurd (List.cons.inj h).1 (by decide)
      rw [authLines, List.map_singleton, List.singleton_append,
        utf8_append (isPlain_str _) (isPlain_of_printable hhex), hkey, parseLines_cons hline,
        parseLine_auth, hauth, if_neg (fun h => nomatch h), Option.bind_map,
        Option.bind_eq_some_iff, utf8_of_printable hhex]
      constructor
      · rintro ⟨out, hunhex, hparse⟩
        rcases unhex_toHex.mp hunhex with ⟨rfl, hlen⟩
        exact ⟨fun other heq => Option.some.inj heq ▸ hlen, hparse⟩
      · rintro ⟨hlen, hparse⟩
        exact ⟨form, unhex_toHex.mpr ⟨rfl, hlen form rfl⟩, hparse⟩

variable {verb : Str} {auth : Option (List UInt8)} {args : List Str}

theorem token_ne_nil {cap : Nat} (h : IsToken cap verb) (hplain : IsPlain verb) :
    utf8 verb ≠ [] := by
  have hcopy := (copyToken_utf8 hplain).mpr ⟨rfl, h⟩
  have hlen := (copyToken_eq_some_iff.mp hcopy).2.1.1
  exact List.ne_nil_of_length_pos hlen

/-- What a frame is parsed to. -/
theorem parseLines_frame (hplain : ∀ s ∈ verb :: args, IsPlain s) :
    parseLines .empty ((helperLines verb auth args).map utf8) = some r ↔
      IsRequest verb auth args ∧
        r = { verb := utf8 verb, auth := auth, args := args.map utf8 } := by
  -- The lines in the order they are written: the verb, the form, the arguments.
  rw [List.forall_mem_cons] at hplain
  have hkey : utf8 (str "VERB ") = cBytes "VERB " := by decide
  have hargKey : utf8 (str "ARG ") = cBytes "ARG " := by decide
  have hendKey : utf8 (str "END") = cBytes "END" := by decide
  have hargs : (args.map (str "ARG " ++ ·)).map utf8 =
      args.map fun arg => cBytes "ARG " ++ utf8 arg := by
    rw [List.map_map]
    refine List.map_congr_left fun arg harg => ?_
    rw [Function.comp_apply, utf8_append (isPlain_str _) (hplain.2 arg harg), hargKey]
  have hline : cBytes "VERB " ++ utf8 verb ≠ cBytes "END" := fun h =>
    absurd (List.cons.inj h).1 (by decide)
  rw [helperLines, List.map_cons, List.map_append, List.map_append, hargs, List.map_singleton,
    hendKey, utf8_append (isPlain_str _) hplain.1, hkey, parseLines_cons hline, parseLine_verb,
    if_neg (fun h => h rfl), Option.bind_map, Option.bind_eq_some_iff]
  -- What one line leaves is what the next is read into.
  constructor
  · rintro ⟨dst, hcopy, hparse⟩
    rcases (copyToken_utf8 hplain.1).mp hcopy with ⟨rfl, hverb⟩
    rcases (parseLines_auth rfl auth _).mp hparse with ⟨hauth, hparse⟩
    rcases (parseLines_args hplain.2 (token_ne_nil hverb hplain.1) (Nat.zero_le _)).mp hparse with
      ⟨hall, hfew, rfl⟩
    exact ⟨⟨hverb, hall, Nat.zero_add args.length ▸ hfew, hauth⟩, rfl⟩
  · rintro ⟨hrequest, rfl⟩
    refine ⟨utf8 verb, (copyToken_utf8 hplain.1).mpr ⟨rfl, hrequest.isVerb⟩,
      (parseLines_auth rfl auth _).mpr ⟨hrequest.isForm, ?_⟩⟩
    refine (parseLines_args hplain.2 (token_ne_nil hrequest.isVerb hplain.1)
      (Nat.zero_le _)).mpr ⟨hrequest.areArgs, ?_, rfl⟩
    exact (Nat.zero_add args.length).symm ▸ hrequest.few

end Parsing

section Reading

theorem hasEnd_iff {buf : List UInt8} :
    hasEnd buf = true ↔ cBytes "END" ∈ (framed lineFeed buf).1 := by
  have hfeed : lineFeed ∉ cBytes "END" := by decide
  rw [mem_framed_iff hfeed, hasEnd, Bool.or_eq_true, decide_eq_true_eq, decide_eq_true_eq,
    List.prefix_iff_eq_take]
  exact or_congr Iff.rfl eq_comm

/-- What is read is a beginning of what arrives, without a NUL and within the bound. -/
theorem readFrame_sound {cap : Nat} {got buf : List UInt8} {parts : List Part} {ending : PartsEnd}
    (hgot : 0 ∉ got) (h : readFrame cap got parts ending = some buf) :
    buf <+: got ++ arrived parts ∧ 0 ∉ buf ∧ buf.length ≤ cap := by
  induction parts generalizing got with
  | nil =>
      cases ending with
      | failed => exact nomatch h
      | closed =>
          rw [readFrame] at h
          by_cases hfull : cap ≤ got.length
          · rw [if_pos hfull] at h
            exact nomatch h
          · rw [if_neg hfull, Option.some.injEq] at h
            subst h
            exact ⟨List.prefix_append _ _, hgot, by omega⟩
  | cons part parts ih =>
      rw [readFrame] at h
      by_cases hfull : cap ≤ got.length
      · rw [if_pos hfull] at h
        exact nomatch h
      rw [if_neg hfull] at h
      dsimp only at h
      by_cases hnul : 0 ∈ got ++ part.bytes.take (cap - got.length)
      · rw [if_pos hnul] at h
        exact nomatch h
      rw [if_neg hnul] at h
      have hlen : (got ++ part.bytes.take (cap - got.length)).length ≤ cap := by
        rw [List.length_append, List.length_take]
        omega
      have htake : got ++ part.bytes.take (cap - got.length) <+:
          got ++ arrived (part :: parts) := by
        rw [arrived, List.flatMap_cons, List.prefix_append_right_inj]
        exact (List.take_prefix _ _).trans (List.prefix_append _ _)
      by_cases hend : hasEnd (got ++ part.bytes.take (cap - got.length)) = true
      · rw [if_pos hend, Option.some.injEq] at h
        subst h
        exact ⟨htake, hnul, hlen⟩
      · rw [if_neg hend] at h
        rcases ih hnul h with ⟨hpre, hrest⟩
        refine ⟨?_, hrest⟩
        -- a part that did not fit leaves no room for another
        by_cases hfits : part.bytes.length ≤ cap - got.length
        · rw [List.take_of_length_le hfits, List.append_assoc] at hpre
          exact hpre
        · cases parts with
          | nil =>
              rw [arrived, List.flatMap_nil, List.append_nil] at hpre
              exact hpre.trans htake
          | cons next parts =>
              have hnow : cap ≤ (got ++ part.bytes.take (cap - got.length)).length := by
                rw [List.length_append, List.length_take]
                omega
              rw [readFrame, if_pos hnow] at h
              exact nomatch h

/-- A frame within the bound is read whole, whatever the chunks, if it has a NUL nowhere
    and `END` at its end only. -/
theorem readFrame_whole {cap : Nat} {got frame : List UInt8} {parts : List Part}
    {ending : PartsEnd} (hnul : 0 ∉ frame) (hcap : frame.length ≤ cap)
    (hlast : ∀ p, p <+: frame → (hasEnd p = true ↔ p = frame))
    (hparts : got ++ arrived parts = frame) (hgot : got ≠ frame) :
    readFrame cap got parts ending = some frame := by
  induction parts generalizing got with
  | nil =>
      rw [arrived, List.flatMap_nil, List.append_nil] at hparts
      exact absurd hparts hgot
  | cons part parts ih =>
      rw [arrived, List.flatMap_cons, ← List.append_assoc] at hparts
      have hlen := congrArg List.length hparts
      rw [List.length_append, List.length_append] at hlen
      have hsome := List.length_pos_of_ne_nil part.some_byte
      -- There is room for the part, as the whole frame fits.
      have hroom : ¬cap ≤ got.length := by omega
      have hfits : part.bytes.length ≤ cap - got.length := by omega
      have hpre : got ++ part.bytes <+: frame := ⟨_, hparts⟩
      rw [readFrame, if_neg hroom]
      dsimp only
      rw [List.take_of_length_le hfits, if_neg fun h => hnul (hpre.subset h)]
      by_cases hwhole : got ++ part.bytes = frame
      · rw [if_pos ((hlast _ hpre).mpr hwhole), hwhole]
      · rw [if_neg fun h => hwhole ((hlast _ hpre).mp h)]
        exact ih hparts hwhole

end Reading

section BothSides

variable {verb : Str} {auth : Option (List UInt8)} {args : List Str}

/-- What stands in a line is printable, or from the verb or an argument. -/
theorem mem_helperLines {line : Str} {c : PyChar} (hline : line ∈ helperLines verb auth args)
    (hc : c ∈ line) : isPrintable c = true ∨ ∃ s ∈ verb :: args, c ∈ s := by
  have hkey : ∀ key : Str, Printable key → ∀ s : Str, c ∈ key ++ s →
      isPrintable c = true ∨ c ∈ s := fun key hkey s hmem =>
    (List.mem_append.mp hmem).imp_left (List.all_eq_true.mp hkey c)
  rw [helperLines, List.mem_cons, List.mem_append, List.mem_append] at hline
  -- A line is its key and its value, and the keys are printable.
  rcases hline with rfl | hauth | hargs | hend
  · refine (hkey _ (by decide) verb hc).imp_right fun hmem => ⟨verb, List.mem_cons_self, hmem⟩
  · cases auth with
    | none => exact absurd hauth List.not_mem_nil
    | some form =>
        rw [authLines, List.mem_singleton] at hauth
        subst hauth
        rcases hkey _ (by decide) _ hc with hprintable | hmem
        · exact Or.inl hprintable
        · exact Or.inl (List.all_eq_true.mp (printable_toHex form) c hmem)
  · rcases List.mem_map.mp hargs with ⟨arg, harg, rfl⟩
    exact (hkey _ (by decide) arg hc).imp_right fun hmem =>
      ⟨arg, List.mem_cons_of_mem _ harg, hmem⟩
  · rw [List.mem_singleton] at hend
    subst hend
    have hprintable : Printable (str "END") := by decide
    exact Or.inl (List.all_eq_true.mp hprintable c hc)

theorem isPlain_helperLines (hplain : ∀ s ∈ verb :: args, IsPlain s) :
    ∀ line ∈ helperLines verb auth args, IsPlain line := by
  intro line hline c hc
  rcases mem_helperLines hline hc with hprintable | ⟨s, hs, hmem⟩
  · have hone : Printable [c] := printable_cons.mpr ⟨hprintable, rfl⟩
    exact isPlain_of_printable hone c List.mem_cons_self
  · exact hplain s hs c hmem

/-- A control character of the frame is from the verb or an argument. -/
theorem control_of_mem_lines (hplain : ∀ s ∈ verb :: args, IsPlain s) {b : UInt8}
    (hb : b.toNat < 32) {line : List UInt8}
    (hline : line ∈ (helperLines verb auth args).map utf8) (hmem : b ∈ line) :
    ∃ s ∈ verb :: args, chr (Char.ofNat b.toNat) ∈ s := by
  rcases List.mem_map.mp hline with ⟨text, htext, rfl⟩
  have hchar := mem_of_mem_encode (isPlain_helperLines hplain text htext).encode_eq hmem (by omega)
  refine (mem_helperLines htext hchar).resolve_left fun hprintable => ?_
  have hcontrol : ∀ n < 32, isPrintable (chr (Char.ofNat n)) = false := by decide
  rw [hcontrol b.toNat hb] at hprintable
  exact nomatch hprintable

/-- The client's error. -/
theorem helperFrame_lineEnd (h : (verb :: args).any hasLineEnd = true) :
    ∃ message detail, helperFrame verb auth args = .error (.helper message detail) :=
  ⟨_, _, if_pos h⟩

/-- The frame that is written. -/
theorem helperFrame_plain (hclean : ¬(verb :: args).any hasLineEnd = true)
    (hplain : ∀ s ∈ verb :: args, IsPlain s) :
    helperFrame verb auth args =
      .ok (unframed lineFeed ((helperLines verb auth args).map utf8)) := by
  rw [helperFrame, if_neg hclean, join_lines (helperLines verb auth args) (List.cons_ne_nil _ _),
    utf8_lines (isPlain_helperLines hplain)]

/-- Without a UTF-8 of a string there is none of the frame. -/
theorem helperFrame_surrogate (hclean : ¬(verb :: args).any hasLineEnd = true)
    (hplain : ¬∀ s ∈ verb :: args, IsPlain s) :
    helperFrame verb auth args = .error .unicodeEncode := by
  rw [helperFrame, if_neg hclean, join_lines (helperLines verb auth args) (List.cons_ne_nil _ _)]
  cases hencode : encode ((helperLines verb auth args).flatMap (· ++ str "\n")) with
  | none => rfl
  | some bytes =>
      refine absurd (fun s hs c hc => ?_) hplain
      have hline : ∃ line ∈ helperLines verb auth args, c ∈ line := by
        rcases List.mem_cons.mp hs with rfl | harg
        · exact ⟨_, List.mem_cons_self, List.mem_append_right _ hc⟩
        · refine ⟨str "ARG " ++ s, List.mem_cons_of_mem _ (List.mem_append_right _
            (List.mem_append_left _ (List.mem_map_of_mem harg))), List.mem_append_right _ hc⟩
      rcases hline with ⟨line, hline, hmem⟩
      exact isPlain_of_encode hencode c
        (List.mem_flatMap.mpr ⟨line, hline, List.mem_append_left _ hmem⟩)

/-- The lines are found in the frame. -/
theorem framed_helperLines (hclean : ¬(verb :: args).any hasLineEnd = true)
    (hplain : ∀ s ∈ verb :: args, IsPlain s) :
    framed lineFeed (unframed lineFeed ((helperLines verb auth args).map utf8)) =
      ((helperLines verb auth args).map utf8, []) := by
  have hfeed : ∀ line ∈ (helperLines verb auth args).map utf8, lineFeed ∉ line := by
    intro line hline hmem
    rcases control_of_mem_lines hplain (by decide) hline hmem with ⟨s, hs, hchar⟩
    refine hclean (List.any_eq_true.mpr ⟨s, hs, ?_⟩)
    exact (Bool.or_eq_true _ _).mpr (Or.inl (decide_eq_true hchar))
  have hcut := framed_unframed hfeed []
  rw [List.append_nil] at hcut
  rw [hcut, framed, List.append_nil]

/-- `END` is the last of the lines, and no other is. -/
theorem helperLines_end (hplain : ∀ s ∈ verb :: args, IsPlain s) :
    ∃ pieces, (helperLines verb auth args).map utf8 = pieces ++ [cBytes "END"] ∧
      cBytes "END" ∉ pieces := by
  have hkey : ∀ key : String, ∀ s : Str, IsPlain s →
      utf8 (str key ++ s) = utf8 (str key) ++ utf8 s := fun key s hs =>
    utf8_append (isPlain_str key) hs
  rw [List.forall_mem_cons] at hplain
  refine ⟨((str "VERB " ++ verb) :: (authLines auth ++ args.map (str "ARG " ++ ·))).map utf8,
    ?_, ?_⟩
  · have hend : [cBytes "END"] = [str "END"].map utf8 := by decide
    rw [hend, ← List.map_append, helperLines, List.cons_append, List.append_assoc]
  · rw [List.map_cons, List.mem_cons, List.map_append, List.mem_append]
    -- Every line before the last begins with a letter other than that of the end.
    rintro (heq | hauth | hargs)
    · rw [hkey _ _ hplain.1] at heq
      exact absurd (List.cons.inj heq).1 (by decide)
    · cases auth with
      | none => exact absurd hauth List.not_mem_nil
      | some form =>
          rw [authLines, List.map_singleton, List.mem_singleton,
            hkey _ _ (isPlain_of_printable (printable_toHex form))] at hauth
          exact absurd (List.cons.inj hauth).1 (by decide)
    · rw [List.map_map] at hargs
      rcases List.mem_map.mp hargs with ⟨arg, harg, heq⟩
      rw [Function.comp_apply, hkey _ _ (hplain.2 arg harg)] at heq
      exact absurd (List.cons.inj heq).1 (by decide)

variable {frame : List UInt8} {parts : List Part} {ending : PartsEnd}

/-- A beginning of the frame has `END` if it is all of it. -/
theorem hasEnd_frame_iff (hclean : ¬(verb :: args).any hasLineEnd = true)
    (hplain : ∀ s ∈ verb :: args, IsPlain s)
    (hframe : frame = unframed lineFeed ((helperLines verb auth args).map utf8)) {p : List UInt8}
    (hp : p <+: frame) : hasEnd p = true ↔ p = frame := by
  have hcut := @framed_helperLines verb auth args hclean hplain
  rcases @helperLines_end verb auth args hplain with ⟨pieces, hpieces, hnot⟩
  rw [← hframe, hpieces] at hcut
  rw [hasEnd_iff]
  constructor
  · exact eq_of_prefix_of_mem_framed hcut hnot hp
  · rintro rfl
    rw [hcut]
    exact List.mem_append_right _ List.mem_cons_self

/-- What is accepted is all of the frame, within the bound. -/
theorem acceptFrame_sound (hclean : ¬(verb :: args).any hasLineEnd = true)
    (hplain : ∀ s ∈ verb :: args, IsPlain s)
    (hframe : frame = unframed lineFeed ((helperLines verb auth args).map utf8))
    (hparts : arrived parts <+: frame) {req : HelperRequest}
    (h : acceptFrame parts ending = some req) :
    arrived parts = frame ∧ frame.length ≤ requestMax ∧ IsRequest verb auth args ∧
      req = { verb := utf8 verb, auth := auth, args := args.map utf8 } := by
  rcases Option.bind_eq_some_iff.mp h with ⟨buf, hread, hparse⟩
  by_cases hempty : buf.length = 0
  · rw [if_pos hempty] at hparse
    exact nomatch hparse
  rw [if_neg hempty, parseFrame] at hparse
  rcases readFrame_sound List.not_mem_nil hread with ⟨hpre, -, hlen⟩
  rw [List.nil_append] at hpre
  have hbuf : buf <+: frame := hpre.trans hparts
  -- what was read is parsed to the end, so it is the frame
  have hwhole : buf = frame := by
    refine (hasEnd_frame_iff hclean hplain hframe hbuf).mp (hasEnd_iff.mpr ?_)
    refine Classical.not_not.mp fun hnot => ?_
    rw [parseLines_of_not_mem hnot] at hparse
    exact nomatch hparse
  subst hwhole
  rw [hframe, framed_helperLines hclean hplain] at hparse
  rcases (parseLines_frame hplain).mp hparse with ⟨hrequest, hreq⟩
  exact ⟨(hparts.eq_of_length_le hpre.length_le), hlen, hrequest, hreq⟩

/-- A request within the limits is accepted. -/
theorem acceptFrame_complete (hclean : ¬(verb :: args).any hasLineEnd = true)
    (hplain : ∀ s ∈ verb :: args, IsPlain s)
    (hframe : frame = unframed lineFeed ((helperLines verb auth args).map utf8))
    (hparts : arrived parts = frame) (hrequest : IsRequest verb auth args)
    (hlen : frame.length ≤ requestMax) :
    acceptFrame parts ending =
      some { verb := utf8 verb, auth := auth, args := args.map utf8 } := by
  -- Whatever is accepted is printable, so the frame has no zero in it.
  have hnul : 0 ∉ frame := by
    intro hmem
    rw [hframe] at hmem
    rcases List.mem_flatMap.mp hmem with ⟨line, hline, hmem⟩
    have hmem := (List.mem_append.mp hmem).resolve_right (by decide)
    rcases control_of_mem_lines hplain (by decide) hline hmem with ⟨s, hs, hchar⟩
    have hprintable : Printable s := by
      rcases List.mem_cons.mp hs with rfl | harg
      · exact hrequest.isVerb.2.1
      · exact (hrequest.areArgs s harg).2.1
    exact absurd (List.all_eq_true.mp hprintable _ hchar) (by decide)
  have hne : frame ≠ [] := by
    rw [hframe, helperLines, List.map_cons, unframed, List.flatMap_cons]
    exact List.append_ne_nil_of_left_ne_nil (List.append_ne_nil_of_right_ne_nil _
      (List.cons_ne_nil _ _)) _
  -- The end comes only with the last part, so all of it is read.
  have hread : readFrame requestMax [] parts ending = some frame :=
    readFrame_whole hnul hlen (fun p hp => hasEnd_frame_iff hclean hplain hframe hp) hparts hne.symm
  rw [acceptFrame, hread, Option.bind_some, if_neg fun h => hne (List.eq_nil_of_length_eq_zero h),
    parseFrame, hframe, framed_helperLines hclean hplain]
  exact (parseLines_frame hplain).mpr ⟨hrequest, rfl⟩

theorem carries_utf8 (hplain : ∀ s ∈ verb :: args, IsPlain s) :
    Carries { verb := utf8 verb, auth := auth, args := args.map utf8 } verb auth args := by
  rw [List.forall_mem_cons] at hplain
  refine ⟨hplain.1.encode_eq, rfl, ?_⟩
  rw [List.map_map]
  exact List.map_congr_left fun arg harg => (hplain.2 arg harg).encode_eq

/-- The frame means the same on both sides if a string holds a line feed or a carriage
    return, which the client refuses, or none holds a lone surrogate. -/
theorem frame_means_the_same_iff (verb : Str) (auth : Option (List UInt8)) (args : List Str) :
    FrameMeansTheSame verb auth args ↔
      (∃ s ∈ verb :: args, hasLineEnd s = true) ∨ ∀ s ∈ verb :: args, IsPlain s := by
  rw [← List.any_eq_true, FrameMeansTheSame]
  by_cases hclean : (verb :: args).any hasLineEnd = true
  · rcases @helperFrame_lineEnd verb auth args hclean with ⟨message, detail, herror⟩
    rw [herror]
    exact ⟨fun _ => Or.inl hclean, fun _ => trivial⟩
  -- Without a surrogate the frame has bytes, and these are read back.
  by_cases hplain : ∀ s ∈ verb :: args, IsPlain s
  · rw [helperFrame_plain hclean hplain]
    refine ⟨fun _ => Or.inr hplain, fun _ parts ending hparts => ⟨fun hall => ?_, ?_⟩⟩
    · constructor
      · intro hsome
        rcases Option.isSome_iff_exists.mp hsome with ⟨req, hreq⟩
        rcases acceptFrame_sound hclean hplain rfl hparts hreq with ⟨-, hlen, hrequest, -⟩
        exact ⟨hrequest, hlen⟩
      · rintro ⟨hrequest, hlen⟩
        rw [acceptFrame_complete hclean hplain rfl hall hrequest hlen, Option.isSome_some]
    · intro req hreq
      rcases acceptFrame_sound hclean hplain rfl hparts hreq with ⟨hall, -, -, rfl⟩
      exact ⟨hall, carries_utf8 hplain⟩
  · rw [helperFrame_surrogate hclean hplain]
    exact ⟨False.elim, fun h => h.elim hclean hplain⟩

/-- A path with a lone surrogate, which a request can name, raises an error that is not
    the client's own. -/
theorem surrogate_raises :
    helperFrame (str "path.inspect") none [str "/srv/" ++ [.surrogate 0]] = .error .unicodeEncode ∧
      ¬FrameMeansTheSame (str "path.inspect") none [str "/srv/" ++ [.surrogate 0]] := by
  have herror : helperFrame (str "path.inspect") none [str "/srv/" ++ [.surrogate 0]] =
      .error .unicodeEncode := by
    refine helperFrame_surrogate (by decide) fun hplain => ?_
    rcases hplain (str "/srv/" ++ [.surrogate 0]) (List.mem_cons_of_mem _ List.mem_cons_self)
      (.surrogate 0) (List.mem_append_right _ List.mem_cons_self) with ⟨d, hd⟩
    exact nomatch hd
  refine ⟨herror, ?_⟩
  rw [FrameMeansTheSame, herror]
  exact id

end BothSides

end Smbpal
