import Smbpal.Ipc.Frames
import Smbpal.Python.Dumps

/-!
# The Client

`ipc/client.py`'s `Client._call_once` and what it reads replies with, and the
messages `ipc/protocol.py` encodes for it.

A call sends one line and reads messages until one that is no event carries the id it
sent. What it is given in the meantime is skipped, so a reply without that id leaves it
waiting. The limit on the buffer is checked when no line has ended in it, which is why,
unlike the daemon's reader, it stops for no line within the limit (`readMessage_line`).

## Main definitions

* `callFrame`: The request of a call.
* `Sent`: What the daemon sends.
* `takeLine`, `readMessage`: `_read_message`.
* `unwrap`: `_unwrap`.
* `awaitReply`: The loop of `_call_once`.

## Theorems

* `encode_message`: What a message is as bytes.
* `readMessage_line`: A line within the limit is read, however it arrives.
* `readMessage_singles`, `readMessage_long`: What is read byte by byte.
-/

namespace Smbpal

open Lib

section Messages

/-- `code` of a class of errors. -/
def ErrorCode.text : ErrorCode → Str
  | .internal => str "internal"
  | .badRequest => str "bad_request"
  | .unsupportedVersion => str "unsupported_version"
  | .unknownMethod => str "unknown_method"
  | .notSupported => str "not_supported"
  | .invalidParams => str "invalid_params"
  | .configInvalid => str "config_invalid"
  | ErrorCode.configIO => str "config_io"
  | .notPermitted => str "not_permitted"
  | .needsAuthorisation _ => str "needs_authorisation"
  | .notFound => str "not_found"
  | .alreadyExists => str "already_exists"
  | .credentials => str "credentials"
  | .credential => str "credential"
  | .mountFailed => str "mount_failed"
  | .systemd => str "systemd"
  | .applyFailed => str "apply_failed"
  | .smbConf => str "smb_conf"
  | .generationRefused => str "generation_refused"
  | .agent => str "agent_unreachable"

/-- The right an error names. -/
def ErrorCode.right : ErrorCode → Option Str
  | .needsAuthorisation right => some right
  | _ => none

/-- `SmbpalError.to_wire`. -/
def SmbpalError.toWire (e : SmbpalError) : List (Str × Json) :=
  [(str "code", .string e.code.text), (str "message", .string e.message)] ++
    (match e.detail with
      | some detail => [(str "detail", .string detail)]
      | none => []) ++
    (match e.code.right with
      | some right => [(str "right", .string right)]
      | none => [])

/-- A message the daemon sends: `encode_event`, `encode_success` and `encode_failure`. -/
inductive Sent where
  | event (name : Str) (data : Json)
  | success (id : Str) (result : Json)
  | failure (id : Option Str) (error : SmbpalError)

/-- Its members. -/
def Sent.message : Sent → List (Str × Json)
  | .event name data =>
      [(str "v", .int protocolVersion), (str "event", .string name), (str "data", data)]
  | .success id result =>
      [(str "v", .int protocolVersion), (str "id", .string id), (str "ok", .bool true),
        (str "result", result)]
  | .failure id error =>
      [(str "v", .int protocolVersion), (str "id", id.elim .null .string), (str "ok", .bool false),
        (str "error", .object error.toWire)]

/-- The request of a call: the version the client speaks, its counter, what it asks for. -/
def callFrame (v : Int) (counter : Nat) (method : Str) (params : Option (List (Str × Json)))
    (auth : Option (List UInt8)) : List (Str × Json) :=
  [(str "v", .int v), (str "id", .string (digits counter)), (str "method", .string method),
    (str "params", .object (params.getD []))] ++
    (match auth with
      | some form => [(str "auth", .string (toHex form))]
      | none => [])

variable [FloatText]

/-- A message with its newline, as bytes. -/
def encodeMessage (message : List (Str × Json)) : Option (List UInt8) :=
  encode (dumps (.object message) ++ str "\n")

/-- The line of a message. -/
def lineOf (message : List (Str × Json)) : List UInt8 :=
  (dumps (.object message)).map fun c => UInt8.ofNat (ord c)

/-- What a message is as bytes: its line, and the end of it. -/
theorem encode_message (message : List (Str × Json)) :
    encodeMessage message = some (lineOf message ++ [lineFeed]) := by
  have hascii : ∀ c ∈ dumps (.object message) ++ str "\n", ord c < 128 := by
    intro c hc
    rcases List.mem_append.mp hc with htext | hend
    · exact (dumps_printable (.object message)).ascii htext
    · rw [List.mem_singleton.mp hend]
      decide
  rw [encodeMessage, encode_of_ascii hascii, List.map_append]
  rfl

/-- A message is one line. -/
theorem lineFeed_not_mem_lineOf (message : List (Str × Json)) : lineFeed ∉ lineOf message := by
  intro hmem
  rcases List.mem_map.mp hmem with ⟨c, hc, heq⟩
  have hprintable := List.all_eq_true.mp (dumps_printable (.object message)) c hc
  have hrange : 32 ≤ ord c ∧ ord c ≤ 126 := of_decide_eq_true hprintable
  have hbyte := congrArg UInt8.toNat heq
  rw [UInt8.toNat_ofNat', Nat.mod_eq_of_lt (by omega)] at hbyte
  have hten : ord c = 10 := hbyte
  omega

/-- It is not blank. -/
theorem isBlankLine_lineOf (message : List (Str × Json)) :
    isBlankLine (lineOf message) = false := by
  rcases dumps_object_head message with ⟨rest, hrest⟩
  rw [isBlankLine, lineOf, hrest, List.map_cons, List.all_cons]
  rfl

end Messages

section Reading

variable [JsonText]

/-- What ended the stream for the client. -/
inductive StreamEnd where
  | timeout
  | closed

/-- An error the daemon reported, as the client raises it: `cls` is the code of its class. -/
structure ReportedError where
  cls : Str
  code : Json
  message : Json
  detail : Json
  right : Option Str

/-- How a call ends. -/
inductive Answer where
  | returned (result : Json)
  | raised (error : ReportedError)
  /-- `BadRequest`: the daemon sent an unframed reply past the size limit. -/
  | unframed
  /-- `DaemonUnreachable`: no reply from the daemon, or it closed the connection. -/
  | unreachable (cause : StreamEnd)
  /-- Any other exception. -/
  | exception

/-- `if value`. -/
def Json.truthy : Json → Bool
  | .null => false
  | .bool b => b
  | .int n => decide (n ≠ 0)
  | .float (.finite q) => decide (q ≠ 0)
  | .float _ => true
  | .string s => !s.isEmpty
  | .array items => !items.isEmpty
  | .object members => !members.isEmpty

/-- Whether a value is a string, and which. -/
def Json.isString (s : Str) : Json → Bool
  | .string t => decide (t = s)
  | _ => false

/-- `"event" in message`, none when that is a `TypeError`. -/
def eventIn : Json → Option Bool
  | .object members => some (getMember members "event").isSome
  | .array items => some (items.any (Json.isString (str "event")))
  | .string s => some (contains (str "event") s)
  | _ => none

/-- `str(value)`. -/
def strOf : Json → Str
  | .string s => s
  | v => reprJson v

/-- The codes of `_ERROR_CLASSES`. -/
def errorClasses : List Str :=
  [str "bad_request", str "config_invalid", str "config_io", str "invalid_params",
    str "needs_authorisation", str "not_permitted", str "not_supported", str "unknown_method",
    str "unsupported_version"]

/-- The class a code stands for, none when it cannot be looked up. -/
def classOf : Json → Option Str
  | .string code => some (if code ∈ errorClasses then code else str "internal")
  | .array _ => none
  | .object _ => none
  | _ => some (str "internal")

/-- What is raised for an `error`. -/
def raiseError (error : List (Str × Json)) : Answer :=
  let code := (getMember error "code").getD (.string (str "internal"))
  let text := (getMember error "message").getD (.string (str "the daemon reported an error"))
  match classOf code with
  | none => .exception
  | some cls =>
      .raised
        { cls := cls
          code := code
          message := text
          detail := (getMember error "detail").getD .null
          right :=
            if cls = str "needs_authorisation" then
              some (strOf ((getMember error "right").getD (.string [])))
            else none }

/-- `_unwrap`. -/
def unwrap (message : List (Str × Json)) : Answer :=
  if ((getMember message "ok").getD .null).truthy then
    .returned ((getMember message "result").getD .null)
  else
    let error := (getMember message "error").getD .null
    match if error.truthy then error else .object [] with
    | .object error => raiseError error
    | _ => .exception

/-- The first line in a buffer that is not blank, and what is left in it. -/
def takeLine (buffer : List UInt8) : Option (List UInt8) × List UInt8 :=
  let cut := framed lineFeed buffer
  match cut.1.dropWhile isBlankLine with
  | [] => (none, cut.2)
  | line :: lines => (some line, unframed lineFeed lines ++ cut.2)

/-- `json.loads(line.decode("utf-8"))`. -/
def loadLine (line : List UInt8) : Option Json :=
  match decodeUtf8 line with
  | none => none
  | some text =>
      match loads text with
      | .ok message => some message
      | .error _ => none

/-- `_read_message`: a message, or how the call ends without one. -/
def readMessage (stop : StreamEnd) (buffer : List UInt8) (chunks : List Chunk) :
    Except Answer (Json × List UInt8 × List Chunk) :=
  match takeLine buffer with
  | (some line, rest) =>
      match loadLine line with
      | some message => .ok (message, rest, chunks)
      | none => .error .exception
  | (none, rest) =>
      if maxFrameBytes < rest.length then .error .unframed
      else
        match chunks with
        | [] => .error (.unreachable stop)
        | chunk :: chunks => readMessage stop (rest ++ chunk.bytes) chunks

/-- What is left of the stream. -/
abbrev remaining (buffer : List UInt8) (chunks : List Chunk) : List UInt8 :=
  buffer ++ received chunks

omit [JsonText] in
/-- A line that is taken is not in the buffer any more. -/
theorem takeLine_length {buffer line rest : List UInt8} (h : takeLine buffer = (some line, rest)) :
    rest.length < buffer.length := by
  unfold takeLine at h
  dsimp only at h
  cases hlines : (framed lineFeed buffer).1.dropWhile isBlankLine with
  | nil =>
      rw [hlines] at h
      exact absurd (Prod.mk.inj h).1.symm (Option.some_ne_none line)
  | cons first lines =>
      rw [hlines] at h
      have hbuffer := congrArg List.length (unframed_framed lineFeed buffer)
      have hrest := congrArg List.length (Prod.mk.inj h).2
      rw [← List.takeWhile_append_dropWhile (p := isBlankLine) (l := (framed lineFeed buffer).1),
        hlines] at hbuffer
      simp only [unframed, List.flatMap_append, List.flatMap_cons, List.length_append,
        List.length_singleton] at hbuffer hrest
      omega

omit [JsonText] in
theorem takeLine_none {buffer rest : List UInt8} (h : takeLine buffer = (none, rest)) :
    rest.length ≤ buffer.length := by
  unfold takeLine at h
  dsimp only at h
  cases hlines : (framed lineFeed buffer).1.dropWhile isBlankLine with
  | nil =>
      rw [hlines] at h
      exact (Prod.mk.inj h).2 ▸ length_framed_le lineFeed buffer
  | cons first lines =>
      rw [hlines] at h
      exact absurd (Prod.mk.inj h).1 (Option.some_ne_none first)

/-- A line has ended in the buffer. -/
theorem readMessage_some {stop : StreamEnd} {buffer line rest : List UInt8}
    (h : takeLine buffer = (some line, rest)) (chunks : List Chunk) :
    readMessage stop buffer chunks =
      match loadLine line with
      | some message => .ok (message, rest, chunks)
      | none => .error .exception := by
  rw [readMessage.eq_def, h]

/-- None has, and there is room for more. -/
theorem readMessage_none {stop : StreamEnd} {buffer rest : List UInt8}
    (h : takeLine buffer = (none, rest)) (hroom : rest.length ≤ maxFrameBytes)
    (chunks : List Chunk) :
    readMessage stop buffer chunks =
      match chunks with
      | [] => .error (.unreachable stop)
      | chunk :: chunks => readMessage stop (rest ++ chunk.bytes) chunks := by
  rw [readMessage.eq_def, h]
  exact if_neg (Nat.not_lt.mpr hroom)

/-- None has, and the limit is passed. -/
theorem readMessage_full {stop : StreamEnd} {buffer rest : List UInt8}
    (h : takeLine buffer = (none, rest)) (hover : maxFrameBytes < rest.length)
    (chunks : List Chunk) : readMessage stop buffer chunks = .error .unframed := by
  rw [readMessage.eq_def, h]
  exact if_pos hover

/-- A message that is in the buffer takes some of it. -/
theorem readMessage_taken {stop : StreamEnd} {buffer buffer' line rest : List UInt8}
    {chunks chunks' : List Chunk} {message : Json} (hline : takeLine buffer = (some line, rest))
    (h : readMessage stop buffer chunks = .ok (message, buffer', chunks')) :
    buffer'.length < buffer.length ∧ chunks' = chunks := by
  rw [readMessage_some hline] at h
  cases hload : loadLine line with
  | none =>
      rw [hload] at h
      cases h
  | some loaded =>
      rw [hload] at h
      cases h
      exact ⟨takeLine_length hline, rfl⟩

/-- A message takes some of the stream. -/
theorem readMessage_length {stop : StreamEnd} {buffer buffer' : List UInt8}
    {chunks chunks' : List Chunk} {message : Json}
    (h : readMessage stop buffer chunks = .ok (message, buffer', chunks')) :
    (remaining buffer' chunks').length < (remaining buffer chunks).length := by
  induction chunks generalizing buffer with
  | nil =>
      rcases hline : takeLine buffer with ⟨line | line, rest⟩
      · -- No line is whole yet, and nothing more comes.
        by_cases hroom : rest.length ≤ maxFrameBytes
        · rw [readMessage_none hline hroom] at h
          cases h
        · rw [readMessage_full hline (Nat.lt_of_not_le hroom)] at h
          cases h
      · -- The line taken is gone from what is left.
        rcases readMessage_taken hline h with ⟨hlen, rfl⟩
        simp only [remaining, List.length_append]
        omega
  | cons chunk chunks ih =>
      rcases hline : takeLine buffer with ⟨line | line, rest⟩
      · by_cases hroom : rest.length ≤ maxFrameBytes
        · rw [readMessage_none hline hroom] at h
          have hrest := takeLine_none hline
          have hnext := ih h
          -- What is blank is dropped, which only makes it shorter.
          simp only [remaining, List.length_append, received, List.flatMap_cons] at hnext ⊢
          omega
        · rw [readMessage_full hline (Nat.lt_of_not_le hroom)] at h
          cases h
      · rcases readMessage_taken hline h with ⟨hlen, rfl⟩
        simp only [remaining, List.length_append]
        omega

/-- What a message means for a call: its answer, or nothing. -/
def answerIn (id : Str) (message : Json) : Option Answer :=
  match eventIn message with
  | none => some .exception
  | some true => none
  | some false =>
      match message with
      | .object members =>
          if ((getMember members "id").getD .null).isString id then some (unwrap members) else none
      | _ => some .exception

/-- The loop of `_call_once`, once the request is sent. -/
def awaitReply (stop : StreamEnd) (id : Str) (buffer : List UInt8) (chunks : List Chunk) : Answer :=
  match _h : readMessage stop buffer chunks with
  | .error answer => answer
  | .ok (message, buffer', chunks') =>
      match answerIn id message with
      | some answer => answer
      | none => awaitReply stop id buffer' chunks'
termination_by (remaining buffer chunks).length
decreasing_by exact readMessage_length _h

omit [JsonText] in
theorem takeLine_of_open {buffer : List UInt8} (h : lineFeed ∉ buffer) :
    takeLine buffer = (none, buffer) := by
  rw [takeLine, framed_of_not_mem h]
  rfl

omit [JsonText] in
theorem takeLine_of_line {line : List UInt8} (hline : lineFeed ∉ line)
    (hvisible : isBlankLine line = false) (rest : List UInt8) :
    takeLine (line ++ lineFeed :: rest) = (some line, rest) := by
  have hnot : ¬isBlankLine line = true := Bool.not_eq_true _ ▸ hvisible
  rw [takeLine, framed_piece hline]
  dsimp only
  rw [List.dropWhile_cons_of_neg hnot]
  dsimp only
  rw [unframed_framed]

omit [JsonText] in
/-- The first line of a stream is in the buffer, or the buffer is the start of it. -/
theorem line_in_buffer {line rest buffer : List UInt8} {chunks : List Chunk}
    (h : remaining buffer chunks = line ++ lineFeed :: rest) :
    (∃ tail, buffer = line ++ lineFeed :: tail ∧ remaining tail chunks = rest) ∨
      ∃ tail, line = buffer ++ tail ∧ received chunks = tail ++ lineFeed :: rest := by
  rcases List.append_eq_append_iff.mp h with hopen | ⟨tail, hbuffer, htail⟩
  · exact Or.inr hopen
  · cases tail with
    | nil => exact Or.inr ⟨[], by rw [hbuffer, List.append_nil, List.append_nil], htail.symm⟩
    | cons b tail =>
        rcases List.cons.inj htail with ⟨rfl, hrest⟩
        exact Or.inl ⟨tail, hbuffer, hrest.symm⟩

/-- A line within the limit is read, however it arrives. -/
theorem readMessage_line {line : List UInt8} {message : Json} (hline : lineFeed ∉ line)
    (hvisible : isBlankLine line = false) (hwithin : line.length ≤ maxFrameBytes)
    (hload : loadLine line = some message) {rest buffer : List UInt8} {chunks : List Chunk}
    (hstream : remaining buffer chunks = line ++ lineFeed :: rest) (stop : StreamEnd) :
    ∃ buffer' chunks', readMessage stop buffer chunks = .ok (message, buffer', chunks') ∧
      remaining buffer' chunks' = rest := by
  induction chunks generalizing buffer with
  | nil =>
      rcases line_in_buffer hstream with ⟨tail, rfl, hrest⟩ | ⟨tail, -, hnone⟩
      · refine ⟨tail, [], ?_, hrest⟩
        rw [readMessage_some (takeLine_of_line hline hvisible tail), hload]
      · exact absurd (List.append_eq_nil_iff.mp hnone.symm).2 (List.cons_ne_nil _ _)
  | cons chunk chunks ih =>
      rcases line_in_buffer hstream with ⟨tail, rfl, hrest⟩ | ⟨tail, rfl, -⟩
      · refine ⟨tail, chunk :: chunks, ?_, hrest⟩
        rw [readMessage_some (takeLine_of_line hline hvisible tail), hload]
      · -- the line has not ended, so the buffer is within the limit and more is received
        have hopen : lineFeed ∉ buffer := fun hmem => hline (List.mem_append_left tail hmem)
        rw [List.length_append] at hwithin
        rw [readMessage_none (takeLine_of_open hopen) (by omega)]
        refine ih ?_
        rw [← hstream, remaining, remaining, received, received, List.flatMap_cons,
          List.append_assoc]

section Singles

/-- A stream that arrives byte by byte. -/
def singles (s : List UInt8) : List Chunk :=
  s.map fun b =>
    { bytes := [b]
      some_byte := List.cons_ne_nil b []
      short := show 1 ≤ readChunk by decide }

omit [JsonText] in
theorem received_singles (s : List UInt8) : received (singles s) = s := by
  induction s with
  | nil => rfl
  | cons b s ih => exact congrArg (b :: ·) ih

/-- A line within the limit, byte by byte. -/
theorem readMessage_singles {buffer line : List UInt8} {message : Json}
    (hline : lineFeed ∉ buffer ++ line) (hvisible : isBlankLine (buffer ++ line) = false)
    (hwithin : (buffer ++ line).length ≤ maxFrameBytes)
    (hload : loadLine (buffer ++ line) = some message) (rest : List UInt8) (stop : StreamEnd) :
    readMessage stop buffer (singles (line ++ lineFeed :: rest)) =
      .ok (message, [], singles rest) := by
  have hopen : lineFeed ∉ buffer := fun hmem => hline (List.mem_append_left line hmem)
  have hroom : buffer.length ≤ maxFrameBytes := by
    rw [List.length_append] at hwithin
    omega
  induction line generalizing buffer with
  | nil =>
      -- The line feed is the next byte, and the line is whole.
      rw [List.append_nil] at hline hvisible hload
      rw [readMessage_none (takeLine_of_open hopen) hroom]
      exact (readMessage_some (takeLine_of_line hline hvisible []) _).trans (by rw [hload]; rfl)
  | cons b line ih =>
      have hsplit : buffer ++ b :: line = (buffer ++ [b]) ++ line := by
        rw [List.append_assoc, List.singleton_append]
      rw [hsplit] at hline hvisible hwithin hload
      -- One byte more, and still no more than a frame holds.
      have hnext : (buffer ++ [b]).length ≤ maxFrameBytes := by
        rw [List.length_append] at hwithin
        omega
      rw [readMessage_none (takeLine_of_open hopen) hroom]
      exact ih hline hvisible hwithin hload (fun hmem => hline (List.mem_append_left line hmem))
        hnext

/-- A line past the limit, byte by byte. -/
theorem readMessage_long {buffer line : List UInt8} (hline : lineFeed ∉ buffer ++ line)
    (hlong : maxFrameBytes < (buffer ++ line).length) (rest : List UInt8) (stop : StreamEnd) :
    readMessage stop buffer (singles (line ++ rest)) = .error .unframed := by
  have hopen : lineFeed ∉ buffer := fun hmem => hline (List.mem_append_left line hmem)
  induction line generalizing buffer with
  | nil =>
      rw [List.append_nil] at hlong
      exact readMessage_full (takeLine_of_open hopen) hlong _
  | cons b line ih =>
      have hsplit : buffer ++ b :: line = (buffer ++ [b]) ++ line := by
        rw [List.append_assoc, List.singleton_append]
      rw [hsplit] at hline hlong
      by_cases hroom : buffer.length ≤ maxFrameBytes
      · rw [readMessage_none (takeLine_of_open hopen) hroom]
        exact ih hline hlong fun hmem => hline (List.mem_append_left line hmem)
      · exact readMessage_full (takeLine_of_open hopen) (Nat.lt_of_not_le hroom) _

/-- The end of the stream, with nothing in the buffer. -/
theorem readMessage_end (stop : StreamEnd) :
    readMessage stop [] [] = .error (.unreachable stop) :=
  readMessage_none (takeLine_of_open List.not_mem_nil) (Nat.zero_le _) []

end Singles

section Awaiting

variable {stop : StreamEnd} {id : Str}

theorem awaitReply_error {buffer : List UInt8} {chunks : List Chunk} {answer : Answer}
    (h : readMessage stop buffer chunks = .error answer) :
    awaitReply stop id buffer chunks = answer := by
  rw [awaitReply]
  split
  · rename_i other hread
    rw [h] at hread
    exact (Except.error.inj hread).symm
  · rename_i hread
    rw [h] at hread
    cases hread

theorem awaitReply_ok {buffer buffer' : List UInt8} {chunks chunks' : List Chunk} {message : Json}
    (h : readMessage stop buffer chunks = .ok (message, buffer', chunks')) :
    awaitReply stop id buffer chunks =
      match answerIn id message with
      | some answer => answer
      | none => awaitReply stop id buffer' chunks' := by
  rw [awaitReply]
  split
  · rename_i hread
    rw [h] at hread
    cases hread
  · rename_i hread
    rw [h] at hread
    cases hread
    rfl

/-- A message is read back as it was written, when Python reads its own text back. -/
theorem loadLine_lineOf [FloatText] {message : List (Str × Json)}
    (h : loads (dumps (.object message)) = .ok (.object message)) :
    loadLine (lineOf message) = some (.object message) := by
  have hencode := encode_of_ascii fun c hc => (dumps_printable (.object message)).ascii hc
  rw [loadLine, lineOf, decodeUtf8_of_encode hencode]
  dsimp only
  rw [h]

end Awaiting

end Reading

end Smbpal
