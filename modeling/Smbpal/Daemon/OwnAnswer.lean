import Smbpal.Daemon.Dispatch
import Smbpal.Ipc.Client

/-!
# A Call and its Own Answer

What `Client._call_once` makes of the frame `Dispatcher.handle` returned for its request.

The daemon answers a request it cannot parse without an id, because it has none, and
the client skips an answer without its id. The two versions of the protocol being
different, and a method without a name, are refused in `parse_request`, so these are
the refusals a caller never hears of: it waits until its timeout instead
(`nameless_call_times_out`). Every other answer carries the id.

## Main definitions

* `Call`: What a client asks for, with the version it speaks and its counter.
* `ReadsBack`: Python reads a text of its own back.
* `Reply.sent`: The frame of a reply.
* `Sent.Earlier`: Events, and replies to earlier requests.
* `Reply.answer`: What the caller should get.
* `AnswersOwn`: However the messages arrive, the call ends with its answer.

## Theorems

* `parseRequest_call`, `parseRequest_refused`: What the daemon reads a call as.
* `awaitReply_skips`: Messages that answer nothing are skipped, however they arrive.
* `reply_id`: The reply carries the id of a request that was parsed, and no other.
* `call_own_answer`: When a call ends with its own answer.
* `nameless_call_times_out`: A method without a name.
-/

namespace Smbpal

open Lib Program

section Hex

theorem lowerHexDigit_facts {d : Nat} (h : d < 16) :
    isAsciiSpace (lowerHexDigit d) = false ∧ hexValue (lowerHexDigit d) = some d := by
  have hall : ∀ d < 16,
      isAsciiSpace (lowerHexDigit d) = false ∧ hexValue (lowerHexDigit d) = some d := by decide
  exact hall d h

/-- The hexadecimal of some bytes is read back. -/
theorem fromHex_toHex (bytes : List UInt8) : fromHex (toHex bytes) = some bytes := by
  induction bytes with
  | nil => rfl
  | cons b bytes ih =>
      have hbyte := b.toNat_lt
      rcases lowerHexDigit_facts (d := b.toNat / 16) (by omega) with ⟨hspace, hhigh⟩
      have hlow := (lowerHexDigit_facts (Nat.mod_lt b.toNat (by omega : 16 > 0))).2
      have hvalue : UInt8.ofNat (b.toNat / 16 * 16 + b.toNat % 16) = b := by
        rw [Nat.div_add_mod', UInt8.ofNat_toNat]
      rw [toHex] at ih
      rw [toHex, List.flatMap_cons, List.cons_append, List.cons_append, List.nil_append, fromHex,
        hspace, hhigh, hlow, ih]
      exact congrArg (fun b => some (b :: bytes)) hvalue

end Hex

/-- The bytes of an authorisation, of which there are always as many. -/
structure AuthForm where
  bytes : List UInt8
  length_eq : bytes.length = authFormBytes

/-- A call of a client: the version it speaks, its counter, and what it is called with. -/
structure Call where
  version : Int
  counter : Nat
  method : Str
  params : Option (List (Str × Json))
  auth : Option AuthForm

/-- The frame it sends. -/
def Call.frame (c : Call) : List (Str × Json) :=
  callFrame c.version c.counter c.method c.params (c.auth.map (·.bytes))

/-- What it asks for. -/
def Call.request (c : Call) : WireRequest where
  id := digits c.counter
  method := c.method
  params := c.params.getD []
  auth := c.auth.map (·.bytes)

/-- Python reads the text it wrote of a message back. -/
abbrev ReadsBack [JsonText] [FloatText] (message : List (Str × Json)) : Prop :=
  loads (dumps (.object message)) = .ok (.object message)

section Parsing

theorem authMember_frame (c : Call) : authMember c.frame = .ok (c.auth.map (·.bytes)) := by
  cases hauth : c.auth with
  | none =>
      have hmember : getMember c.frame "auth" = none := by
        rw [Call.frame, hauth]
        rfl
      rw [authMember, hmember]
      rfl
  | some form =>
      have hmember : getMember c.frame "auth" = some (.string (toHex form.bytes)) := by
        rw [Call.frame, hauth]
        rfl
      rw [authMember, hmember]
      dsimp only
      rw [fromHex_toHex]
      exact if_pos form.length_eq

theorem paramsMember_frame (c : Call) : paramsMember c.frame = .ok (c.params.getD []) := by
  have hmember : getMember c.frame "params" = some (.object (c.params.getD [])) := rfl
  rw [paramsMember, hmember]

theorem idMember_frame (c : Call) : requireMember c.frame "id" = .ok (digits c.counter) := by
  have hmember : getMember c.frame "id" = some (.string (digits c.counter)) := rfl
  rw [requireMember, hmember]
  exact if_neg (digits_ne_nil c.counter)

variable [JsonText] [FloatText] {c : Call}

omit [JsonText] in
theorem decodeLine_frame (hfits : (lineOf c.frame).length ≤ maxFrameBytes) :
    decodeLine (lineOf c.frame) = .ok (dumps (.object c.frame)) := by
  have hencode := encode_of_ascii fun x hx => (dumps_printable (.object c.frame)).ascii hx
  rw [decodeLine, if_neg (Nat.not_lt.mpr hfits), lineOf, decodeUtf8_of_encode hencode]

theorem loadObject_frame (hloads : ReadsBack c.frame) :
    loadObject (dumps (.object c.frame)) = .ok c.frame := by
  rw [loadObject, hloads]

omit [FloatText] in
theorem checkProtocol_frame (hversion : c.version = protocolVersion) :
    checkProtocol c.frame = .ok () := by
  have hmember : getMember c.frame "v" = some (.int c.version) := rfl
  rw [checkProtocol, hmember]
  exact if_pos (decide_eq_true hversion)

omit [FloatText] in
theorem checkProtocol_other (hversion : c.version ≠ protocolVersion) :
    ∃ e, checkProtocol c.frame = .error (.smbpal e) := by
  have hmember : getMember c.frame "v" = some (.int c.version) := rfl
  have hnot : ¬Json.equalsInt protocolVersion (.int c.version) = true := fun h =>
    hversion (of_decide_eq_true h)
  rw [checkProtocol, hmember]
  exact ⟨_, if_neg hnot⟩

/-- The daemon reads a call as what it asks for. -/
theorem parseRequest_call (hloads : ReadsBack c.frame)
    (hfits : (lineOf c.frame).length ≤ maxFrameBytes) (hversion : c.version = protocolVersion)
    (hmethod : c.method ≠ []) : parseRequest (lineOf c.frame) = .ok c.request := by
  have hmember : requireMember c.frame "method" = .ok c.method := by
    have hmember : getMember c.frame "method" = some (.string c.method) := rfl
    rw [requireMember, hmember]
    exact if_neg hmethod
  simp only [parseRequest, decodeLine_frame hfits, loadObject_frame hloads,
    checkProtocol_frame hversion, idMember_frame, hmember, paramsMember_frame, authMember_frame,
    bind, Except.bind]
  rfl

/-- It refuses one of another version, and one without a method. -/
theorem parseRequest_refused (hloads : ReadsBack c.frame)
    (hfits : (lineOf c.frame).length ≤ maxFrameBytes)
    (h : ¬(c.version = protocolVersion ∧ c.method ≠ [])) :
    ∃ e, parseRequest (lineOf c.frame) = .error (.smbpal e) := by
  by_cases hversion : c.version = protocolVersion
  · have hnone : c.method = [] := Classical.not_not.mp fun hmethod => h ⟨hversion, hmethod⟩
    have hmember : ∃ e, requireMember c.frame "method" = .error (.smbpal e) := by
      have hmember : getMember c.frame "method" = some (.string c.method) := rfl
      rw [requireMember, hmember]
      exact ⟨_, if_pos hnone⟩
    rcases hmember with ⟨e, he⟩
    refine ⟨e, ?_⟩
    simp only [parseRequest, decodeLine_frame hfits, loadObject_frame hloads,
      checkProtocol_frame hversion, idMember_frame, he, bind, Except.bind]
  · rcases checkProtocol_other hversion with ⟨e, he⟩
    refine ⟨e, ?_⟩
    simp only [parseRequest, decodeLine_frame hfits, loadObject_frame hloads, he, bind, Except.bind]

end Parsing

section Replies

/-- The frame of a reply; what a success carries is the handler's. -/
def Reply.sent (result : Json) : Reply → Sent
  | .success id => .success id result
  | .failure id error => .failure id error

/-- The id a reply carries. -/
def Reply.id : Reply → Option Str
  | .success id => some id
  | .failure id _ => id

/-- An error as the client raises it. -/
def SmbpalError.reported (e : SmbpalError) : ReportedError where
  cls := if e.code.text ∈ errorClasses then e.code.text else str "internal"
  code := .string e.code.text
  message := .string e.message
  detail := e.detail.elim .null .string
  right := e.code.right

/-- What the caller should get. -/
def Reply.answer (result : Json) : Reply → Answer
  | .success _ => .returned result
  | .failure _ error => .raised error.reported

/-- A message that is not the reply to a call: an event, or a reply to an earlier request. -/
def Sent.Earlier (counter : Nat) : Sent → Prop
  | .event _ _ => True
  | .success id _ => ∃ k < counter, id = digits k
  | .failure id _ => id = none ∨ ∃ k < counter, id = some (digits k)

variable [JsonText]

theorem raiseError_toWire (e : SmbpalError) : raiseError e.toWire = .raised e.reported := by
  rcases e with ⟨code, message, detail⟩
  cases detail with
  | none => cases code <;> rfl
  | some detail => cases code <;> rfl

/-- The reply to a call is its answer. -/
theorem answerIn_own {id : Str} {reply : Reply} (h : reply.id = some id) (result : Json) :
    answerIn id (.object (reply.sent result).message) = some (reply.answer result) := by
  cases reply with
  | success replied =>
      cases h
      have hid : Json.isString id (.string id) = true := decide_eq_true rfl
      exact if_pos hid
  | failure replied error =>
      cases h
      have hid : Json.isString id (.string id) = true := decide_eq_true rfl
      refine (if_pos hid).trans (congrArg some ?_)
      exact raiseError_toWire error

/-- A reply with another id is none. -/
theorem answerIn_reply {id : Str} (reply : Reply) (h : reply.id ≠ some id) (result : Json) :
    answerIn id (.object (reply.sent result).message) = none := by
  cases reply with
  | success replied =>
      have hid : ¬Json.isString id (.string replied) = true := fun heq =>
        h (congrArg some (of_decide_eq_true heq))
      exact if_neg hid
  | failure replied error =>
      cases replied with
      | none => rfl
      | some replied =>
          have hid : ¬Json.isString id (.string replied) = true := fun heq =>
            h (congrArg some (of_decide_eq_true heq))
          exact if_neg hid

/-- An earlier message is none either. -/
theorem answerIn_earlier {counter : Nat} {m : Sent} (h : m.Earlier counter) :
    answerIn (digits counter) (.object m.message) = none := by
  have hother : ∀ k < counter, digits k ≠ digits counter := fun k hk heq =>
    Nat.ne_of_lt hk (digits_injective heq)
  cases m with
  | event name data => rfl
  | success id result =>
      rcases h with ⟨k, hk, rfl⟩
      exact answerIn_reply (.success _) (fun heq => hother k hk (Option.some.inj heq)) result
  | failure id error =>
      refine answerIn_reply (.failure id error) ?_ .null
      rcases h with rfl | ⟨k, hk, rfl⟩
      · exact fun heq => Option.some_ne_none _ heq.symm
      · exact fun heq => hother k hk (Option.some.inj heq)

variable [FloatText]

/-- The line of a message. -/
def Sent.line (m : Sent) : List UInt8 :=
  lineOf m.message

/-- The lines of some messages, as they are sent. -/
def sentBytes (messages : List Sent) : List UInt8 :=
  unframed lineFeed (messages.map Sent.line)

omit [JsonText] in
theorem sentBytes_cons (m : Sent) (messages : List Sent) (rest : List UInt8) :
    sentBytes (m :: messages) ++ rest = m.line ++ lineFeed :: (sentBytes messages ++ rest) := by
  rw [sentBytes, unframed, List.map_cons, List.flatMap_cons, List.append_assoc, List.append_assoc]
  rfl

omit [JsonText] in
theorem sentBytes_append (before after : List Sent) :
    sentBytes (before ++ after) = sentBytes before ++ sentBytes after := by
  rw [sentBytes, unframed, List.map_append, List.flatMap_append]
  rfl

/-- A message of the daemon that a client can read. -/
structure Readable (m : Sent) : Prop where
  readsBack : ReadsBack m.message
  within : m.line.length ≤ maxFrameBytes

variable {stop : StreamEnd} {id : Str}

/-- Messages that answer nothing are skipped, however they arrive. -/
theorem awaitReply_skips {messages : List Sent} (hreadable : ∀ m ∈ messages, Readable m)
    (hnone : ∀ m ∈ messages, answerIn id (.object m.message) = none) {rest buffer : List UInt8}
    {chunks : List Chunk} (hstream : remaining buffer chunks = sentBytes messages ++ rest) :
    ∃ buffer' chunks', awaitReply stop id buffer chunks = awaitReply stop id buffer' chunks' ∧
      remaining buffer' chunks' = rest := by
  induction messages generalizing buffer chunks with
  | nil => exact ⟨buffer, chunks, rfl, hstream⟩
  | cons m messages ih =>
      rw [List.forall_mem_cons] at hreadable hnone
      rw [sentBytes_cons] at hstream
      rcases readMessage_line (lineFeed_not_mem_lineOf m.message) (isBlankLine_lineOf m.message)
        hreadable.1.within (loadLine_lineOf hreadable.1.readsBack) hstream stop with
        ⟨buffer', chunks', hread, hrest⟩
      rcases ih hreadable.2 hnone.2 hrest with ⟨buffer'', chunks'', hawait, hlast⟩
      refine ⟨buffer'', chunks'', ?_, hlast⟩
      rw [awaitReply_ok hread, hnone.1]
      exact hawait

/-- The same byte by byte. -/
theorem awaitReply_skips_singles {messages : List Sent} (hreadable : ∀ m ∈ messages, Readable m)
    (hnone : ∀ m ∈ messages, answerIn id (.object m.message) = none) (stop : StreamEnd)
    (rest : List UInt8) :
    awaitReply stop id [] (singles (sentBytes messages ++ rest)) =
      awaitReply stop id [] (singles rest) := by
  induction messages with
  | nil => rfl
  | cons m messages ih =>
      rw [List.forall_mem_cons] at hreadable hnone
      have hread : readMessage stop []
        (singles (m.line ++ lineFeed :: (sentBytes messages ++ rest))) =
          .ok (.object m.message, [], singles (sentBytes messages ++ rest)) :=
        readMessage_singles (lineFeed_not_mem_lineOf m.message) (isBlankLine_lineOf m.message)
          hreadable.1.within (loadLine_lineOf hreadable.1.readsBack) _ stop
      rw [sentBytes_cons, awaitReply_ok hread, hnone.1]
      exact ih hreadable.2 hnone.2

/-- A message that is too long, byte by byte. -/
theorem awaitReply_long {m : Sent} (hlong : maxFrameBytes < m.line.length) (rest : List UInt8) :
    awaitReply stop id [] (singles (m.line ++ rest)) = .unframed :=
  awaitReply_error (readMessage_long (lineFeed_not_mem_lineOf m.message) hlong rest stop)

end Replies

section Calls

/-- However the messages before it arrive, and it, and whatever comes after it, a call
    ends with its answer. What is in the buffer is left of an earlier chunk. -/
def AnswersOwn [JsonText] [FloatText] (counter : Nat) (before : List Sent) (own : Sent)
    (answer : Answer) : Prop :=
  ∀ stop buffer chunks rest, remaining buffer chunks = sentBytes (before ++ [own]) ++ rest →
    awaitReply stop (digits counter) buffer chunks = answer

variable {σ : Type} {M : Machine handleSig σ} {s s' : σ}

/-- What was raised is answered under the id it is answered with. -/
theorem answerFailure_id {id : Option Str} {e : Exc} {reply : Reply}
    (hexec : Exec M (answerFailure id e) s (.ok reply) s') : reply.id = id := by
  cases e with
  | smbpal e =>
      cases hexec
      rfl
  | os detail =>
      cases hexec
      rfl
  | exception =>
      cases hexec
      rfl
  | interrupt => cases hexec

/-- The reply to a request that was parsed carries its id, and no other reply has one. -/
theorem reply_id [Unicode] [JsonText] {d : FullDispatcher} {peer : Peer} {line : List UInt8}
    {reply : Reply}
    (hexec : Exec M (handle d peer line) s (.ok reply) s') :
    reply.id = match parseRequest line with
      | .ok request => some request.id
      | .error _ => none := by
  unfold handle at hexec
  cases hparse : parseRequest line with
  | error e =>
      rw [hparse] at hexec
      exact answerFailure_id hexec
  | ok request =>
      rw [hparse] at hexec
      rcases exec_tryCatch_iff.mp hexec with ⟨a, hserve, hreply⟩ | ⟨e, s₁, -, hfailure⟩
      · rcases exec_bind_iff.mp hserve with ⟨-, s₁, -, hpure⟩ | ⟨e, -, herror⟩
        · cases hpure
          cases hreply
          rfl
        · cases herror
      · exact answerFailure_id hfailure

variable [JsonText] [FloatText] {c : Call} {before : List Sent} {reply : Reply} {result : Json}

/-- All is well: the call ends with its answer. -/
theorem answersOwn_of_id (hid : reply.id = some (digits c.counter))
    (hbefore : ∀ m ∈ before, Readable m) (hearlier : ∀ m ∈ before, m.Earlier c.counter)
    (hown : Readable (reply.sent result)) :
    AnswersOwn c.counter before (reply.sent result) (reply.answer result) := by
  intro stop buffer chunks rest hstream
  rw [sentBytes_append, List.append_assoc, sentBytes_cons] at hstream
  rcases awaitReply_skips hbefore (fun m hm => answerIn_earlier (hearlier m hm)) hstream with
    ⟨buffer', chunks', hawait, hrest⟩
  rcases readMessage_line (lineFeed_not_mem_lineOf _) (isBlankLine_lineOf _) hown.within
    (loadLine_lineOf hown.readsBack) hrest stop with ⟨buffer'', chunks'', hread, -⟩
  rw [hawait, awaitReply_ok hread, answerIn_own hid]

/-- A message is too long, and arrives byte by byte: the call stops there. -/
theorem awaitReply_unframed {id : Str} {messages : List Sent} {long : Sent}
    (hreadable : ∀ m ∈ messages, Readable m)
    (hnone : ∀ m ∈ messages, answerIn id (.object m.message) = none)
    (hlong : maxFrameBytes < long.line.length) (after : List Sent) (stop : StreamEnd) :
    awaitReply stop id [] (singles (sentBytes (messages ++ long :: after))) = .unframed := by
  have hstream : sentBytes (messages ++ long :: after) =
      sentBytes messages ++ (long.line ++ lineFeed :: sentBytes after) := by
    have hlong := sentBytes_cons long after []
    rw [List.append_nil, List.append_nil] at hlong
    rw [sentBytes_append, hlong]
  rw [hstream, awaitReply_skips_singles hreadable hnone]
  exact awaitReply_long hlong _

/-- The reply carries no id: the call waits until it gives up. -/
theorem awaitReply_unreachable {id : Str} {messages : List Sent}
    (hreadable : ∀ m ∈ messages, Readable m)
    (hnone : ∀ m ∈ messages, answerIn id (.object m.message) = none) (stop : StreamEnd) :
    awaitReply stop id [] (singles (sentBytes messages)) = .unreachable stop := by
  have hskip := awaitReply_skips_singles hreadable hnone stop []
  rw [List.append_nil] at hskip
  rw [hskip]
  exact awaitReply_error (readMessage_end stop)

/-- A call that always ends with its answer is given no message that is too long. -/
theorem within_of_answersOwn (hbefore : ∀ m ∈ before, ReadsBack m.message)
    (hearlier : ∀ m ∈ before, m.Earlier c.counter)
    (h : AnswersOwn c.counter before (reply.sent result) (reply.answer result)) :
    ∀ m ∈ before ++ [reply.sent result], m.line.length ≤ maxFrameBytes := by
  have hall : (∀ m ∈ before ++ [reply.sent result], m.line.length ≤ maxFrameBytes) ∨ _ :=
    all_or_first _
  rcases hall with hall | ⟨messages, long, after, hsplit, hshort, hlong⟩
  · exact hall
  · -- what comes before the first that is too long are earlier messages
    have hmem : ∀ m ∈ messages, m ∈ before := by
      rcases List.eq_nil_or_concat after with rfl | ⟨after, last, rfl⟩
      · exact (List.append_inj' hsplit rfl).1 ▸ fun m hm => hm
      · rw [List.concat_eq_append, ← List.cons_append, ← List.append_assoc] at hsplit
        rw [(List.append_inj' hsplit rfl).1]
        exact fun m hm => List.mem_append_left _ hm
    have hstop := awaitReply_unframed (fun m hm => ⟨hbefore m (hmem m hm), hshort m hm⟩)
      (fun m hm => answerIn_earlier (hearlier m (hmem m hm))) (Nat.lt_of_not_le hlong) after
      .timeout
    have hanswer := h .timeout [] (singles (sentBytes (before ++ [reply.sent result]))) []
      (by rw [remaining, received_singles, List.nil_append, List.append_nil])
    rw [hsplit, hstop] at hanswer
    cases reply with
    | success id => cases hanswer
    | failure id error => cases hanswer

/-- A call ends with its own answer, however the messages of the daemon arrive, just when
    the client speaks the daemon's version and names a method, and neither the answer nor
    a message before it is too long for one line. -/
theorem call_own_answer [Unicode] {d : FullDispatcher} {peer : Peer} (hloads : ReadsBack c.frame)
    (hfits : (lineOf c.frame).length ≤ maxFrameBytes)
    (hexec : Exec M (handle d peer (lineOf c.frame)) s (.ok reply) s')
    (hmessages : ∀ m ∈ before ++ [reply.sent result], ReadsBack m.message)
    (hearlier : ∀ m ∈ before, m.Earlier c.counter) :
    AnswersOwn c.counter before (reply.sent result) (reply.answer result) ↔
      (c.version = protocolVersion ∧ c.method ≠ []) ∧
        ∀ m ∈ before ++ [reply.sent result], m.line.length ≤ maxFrameBytes := by
  have hbefore : ∀ m ∈ before, ReadsBack m.message := fun m hm =>
    hmessages m (List.mem_append_left _ hm)
  have hlast : reply.sent result ∈ before ++ [reply.sent result] :=
    List.mem_append_right _ List.mem_cons_self
  constructor
  · intro h
    have hwithin := within_of_answersOwn hbefore hearlier h
    refine ⟨Classical.not_not.mp fun hbad => ?_, hwithin⟩
    -- a refused request is answered without an id, so the call never ends
    rcases parseRequest_refused hloads hfits hbad with ⟨e, he⟩
    have hid : reply.id = none := by
      have hparsed := reply_id hexec
      rw [he] at hparsed
      exact hparsed
    have hnone : ∀ m ∈ before ++ [reply.sent result],
        answerIn (digits c.counter) (.object m.message) = none := by
      intro m hm
      rcases List.mem_append.mp hm with hm | hm
      · exact answerIn_earlier (hearlier m hm)
      · rw [List.mem_singleton.mp hm]
        exact answerIn_reply reply (hid ▸ fun heq => Option.some_ne_none _ heq.symm) result
    have hstop := awaitReply_unreachable (fun m hm => ⟨hmessages m hm, hwithin m hm⟩) hnone .timeout
    have hanswer := h .timeout [] (singles (sentBytes (before ++ [reply.sent result]))) []
      (by rw [remaining, received_singles, List.nil_append, List.append_nil])
    rw [hstop] at hanswer
    cases reply with
    | success id => cases hanswer
    | failure id error => cases hanswer
  · rintro ⟨⟨hversion, hmethod⟩, hwithin⟩
    have hid := reply_id hexec
    rw [parseRequest_call hloads hfits hversion hmethod] at hid
    exact answersOwn_of_id hid
      (fun m hm => ⟨hbefore m hm, hwithin m (List.mem_append_left _ hm)⟩) hearlier
      ⟨hmessages _ hlast, hwithin _ hlast⟩

end Calls

section Nameless

attribute [local instance] Unicode.ascii

/-- Python on texts without floats. -/
@[reducible] def FloatText.zero : FloatText where
  floatRepr := fun _ => str "0.0"
  floatRepr_printable := fun _ => by decide

attribute [local instance] FloatText.zero

/-- A daemon on Linux. -/
def smbDaemon : FullDispatcher :=
  { applier := some false
    mounter := true
    agents := false
    monitor := true
    style := linuxStyle
    policy := .polkit
    serving := true
    unsupported := []
    unsupportedDetail := []
    linked := false
    signInPerShare := false
    grantsAccess := false }

/-- A user of it. -/
def caller : Peer :=
  { uid := 1000, gid := 1000, pid := some 4242 }

/-- The third call of a client, of some method. -/
def thirdCall (method : Str) : Call :=
  { version := 1
    counter := 3
    method := method
    params := none
    auth := none }

/-- The reply to a method there is none of. -/
def unknownReply : Reply :=
  .failure (some (str "3"))
    { code := .unknownMethod
      message := str "no such method: nope"
      detail := none }

/-- The reply to a call without a method. -/
def namelessReply : Reply :=
  .failure none
    { code := .badRequest
      message := str "request needs a non-empty string 'method'"
      detail := none }

/-- What is pushed in between. -/
def pushed : Sent :=
  .event (str "state.changed") (.object [(str "state", .string (str "idle"))])

/-- A reader of these messages. -/
@[reducible] def messageReader : JsonText where
  loads := fun text =>
    if text = dumps (.object (thirdCall (str "nope")).frame) then
      .ok (.object (thirdCall (str "nope")).frame)
    else if text = dumps (.object (thirdCall []).frame) then .ok (.object (thirdCall []).frame)
    else if text = dumps (.object (unknownReply.sent .null).message) then
      .ok (.object (unknownReply.sent .null).message)
    else if text = dumps (.object (namelessReply.sent .null).message) then
      .ok (.object (namelessReply.sent .null).message)
    else if text = dumps (.object pushed.message) then .ok (.object pushed.message)
    else .error .other
  reprJson := fun _ => []
  reprLevels := 0

attribute [local instance] messageReader

theorem readsBack_nope : ReadsBack (thirdCall (str "nope")).frame :=
  if_pos rfl

set_option maxRecDepth 4000 in
theorem readsBack_nameless : ReadsBack (thirdCall []).frame :=
  (if_neg (by decide)).trans (if_pos rfl)

set_option maxRecDepth 4000 in
theorem readsBack_unknownReply : ReadsBack (unknownReply.sent .null).message :=
  (if_neg (by decide)).trans ((if_neg (by decide)).trans (if_pos rfl))

set_option maxRecDepth 4000 in
theorem readsBack_namelessReply : ReadsBack (namelessReply.sent .null).message :=
  (if_neg (by decide)).trans ((if_neg (by decide)).trans ((if_neg (by decide)).trans (if_pos rfl)))

set_option maxRecDepth 4000 in
theorem readsBack_pushed : ReadsBack pushed.message :=
  (if_neg (by decide)).trans ((if_neg (by decide)).trans ((if_neg (by decide)).trans
    ((if_neg (by decide)).trans (if_pos rfl))))

/-- A machine that may answer anything. -/
abbrev anyMachine : Machine handleSig Unit :=
  fun _ _ _ _ => True

set_option maxRecDepth 4000 in
theorem handle_nope :
    Exec anyMachine (handle smbDaemon caller (lineOf (thirdCall (str "nope")).frame)) ()
      (.ok unknownReply) () := by
  rw [handle, parseRequest_call readsBack_nope (by decide) rfl (by decide)]
  exact Exec.ret unknownReply ()

set_option maxRecDepth 4000 in
/-- A call of a method there is none of ends with that answer, past what is pushed. -/
theorem call_own_answer_nope :
    AnswersOwn 3 [pushed] (unknownReply.sent .null) (unknownReply.answer .null) := by
  have hmessages : ∀ m ∈ [pushed] ++ [unknownReply.sent .null], ReadsBack m.message :=
    List.forall_mem_cons.mpr
      ⟨readsBack_pushed, List.forall_mem_singleton.mpr readsBack_unknownReply⟩
  have hearlier : ∀ m ∈ [pushed], m.Earlier (thirdCall (str "nope")).counter :=
    List.forall_mem_singleton.mpr trivial
  refine (call_own_answer readsBack_nope (by decide) handle_nope hmessages hearlier).mpr
    ⟨⟨rfl, by decide⟩, ?_⟩
  exact List.forall_mem_cons.mpr ⟨by decide, List.forall_mem_singleton.mpr (by decide)⟩

set_option maxRecDepth 4000 in
theorem handle_nameless :
    Exec anyMachine (handle smbDaemon caller (lineOf (thirdCall []).frame)) ()
      (.ok namelessReply) () := by
  have hdecode := decodeLine_frame (show (lineOf (thirdCall []).frame).length ≤ _ by decide)
  have hversion : checkProtocol (thirdCall []).frame = .ok () := checkProtocol_frame rfl
  have hparse : parseRequest (lineOf (thirdCall []).frame) =
      .error (.of .badRequest (str "request needs a non-empty string 'method'")) := by
    simp only [parseRequest, hdecode, loadObject_frame readsBack_nameless, hversion,
      idMember_frame, bind, Except.bind]
    rfl
  rw [handle, hparse]
  exact Exec.ret namelessReply ()

set_option maxRecDepth 4000 in
/-- The reply to a call without a method is skipped, and the call waits for another. -/
theorem nameless_call_times_out :
    Exec anyMachine (handle smbDaemon caller (lineOf (thirdCall []).frame)) ()
        (.ok namelessReply) () ∧
      (lineOf (thirdCall []).frame).length ≤ maxFrameBytes ∧
      remaining [] (singles (sentBytes [namelessReply.sent .null])) =
        sentBytes ([] ++ [namelessReply.sent .null]) ++ [] ∧
      awaitReply .timeout (digits 3) [] (singles (sentBytes [namelessReply.sent .null])) =
        .unreachable .timeout ∧
      ¬AnswersOwn 3 [] (namelessReply.sent .null) (namelessReply.answer .null) := by
  have hstream : remaining [] (singles (sentBytes [namelessReply.sent .null])) =
      sentBytes ([] ++ [namelessReply.sent .null]) ++ [] := by
    rw [remaining, received_singles, List.nil_append, List.append_nil, List.nil_append]
  have hskipped : ∀ m ∈ [namelessReply.sent .null],
      answerIn (digits 3) (.object m.message) = none :=
    List.forall_mem_singleton.mpr
      (answerIn_reply namelessReply (fun heq => Option.some_ne_none _ heq.symm) .null)
  have hreadable : ∀ m ∈ [namelessReply.sent .null], Readable m :=
    List.forall_mem_singleton.mpr ⟨readsBack_namelessReply, by decide⟩
  have hwaits := awaitReply_unreachable hreadable hskipped .timeout
  refine ⟨handle_nameless, by decide, hstream, hwaits, fun h => ?_⟩
  have hanswer := h .timeout [] _ [] hstream
  rw [hwaits] at hanswer
  cases hanswer

end Nameless

end Smbpal
