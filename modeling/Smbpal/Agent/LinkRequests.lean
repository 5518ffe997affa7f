import Smbpal.Agent.Links
import Smbpal.Lib.Run
import Smbpal.Ipc.Client

/-!
# Requests on the Agents' Links

Runs of `AgentLinks`: any number of connections and of requests in flight, and any order
of the steps they take. A step is what one of the methods does under the lock, or what
it does on its own between two of those.

A request is sent down the connection that is registered for its uid, and waits. It ends
because a reply was accepted for it, because `drop` set it free, or because its time is
up; which message it finds is decided when it looks, and nothing keeps a second reply
from being written over the first. A reply is accepted for the request whose `rid` it
carries, and only from the connection that was sent the request.

What isolates the users is that both parties of a request are decided by dictionaries
whose keys say whose they are: the uid in the one (`OwnUid`), and in the other the `rid`,
which no two requests share.

## Main definitions

* `AgentCall`, `AgentReply`, `AgentDrop`: A call of `request`, of `reply` and of `drop`.
* `LinkWorld`: The links, and the calls of their methods so far.
* `LinkStep`: What a step may do.
* `Isolated`: What a user can rely on.

## Theorems

* `LinkStep.inv`: A step keeps the invariant.
* `links_isolated`: Every run is isolated.
-/

namespace Smbpal

open Lib

/-- What a request ends with. -/
inductive CallEnd where
  /-- Its time was up: `AgentUnreachable`. -/
  | expired
  /-- It woke and found no message: `AgentUnreachable`. -/
  | disconnected
  /-- It returns, or raises, what the reply of this number says. -/
  | answered (reply : Nat)
  deriving DecidableEq

/-- How far a call of `request` has come. -/
inductive CallPhase where
  | sending
  | waiting
  | woken
  | late
  | reading
  | ended (result : CallEnd)
  deriving DecidableEq

/-- A call of `request`, with its `_Pending`; the message is the number of a reply. -/
structure AgentCall (κ : Type) where
  uid : Nat
  method : Str
  params : List (Str × Json)
  rid : Str
  connection : κ
  done : Bool
  message : Option Nat
  phase : CallPhase

/-- How far a call of `reply` has come. -/
inductive ReplyPhase where
  | found
  | written
  | finished
  deriving DecidableEq

/-- A call of `reply` that found its request. -/
structure AgentReply (κ : Type) where
  connection : κ
  params : List (Str × Json)
  target : Nat
  phase : ReplyPhase

/-- A call of `drop`: the requests it has still to wake, and all that were in flight on
    the connection when it took the lock. -/
structure AgentDrop (κ : Type) where
  connection : κ
  waiting : List Nat
  caught : List Nat

/-- A request that was sent. -/
structure SentRequest (κ : Type) where
  uid : Nat
  connection : κ
  rid : Str

/-- The links, and the calls of their methods so far. -/
structure LinkWorld (κ : Type) where
  links : Links κ
  calls : List (AgentCall κ)
  replies : List (AgentReply κ)
  drops : List (AgentDrop κ)
  sent : List (SentRequest κ)

/-- The daemon starts. -/
def LinkWorld.init {κ : Type} : LinkWorld κ where
  links := Links.init
  calls := []
  replies := []
  drops := []
  sent := []

/-- `params.get("rid")`, when it is a string. -/
def ridOf (params : List (Str × Json)) : Option Str :=
  match getMember params "rid" with
  | some (.string rid) => some rid
  | _ => none

/-- A request that was just made. -/
def AgentCall.made {κ : Type} (uid : Nat) (method : Str) (params : List (Str × Json)) (rid : Str)
    (c : κ) : AgentCall κ where
  uid := uid
  method := method
  params := params
  rid := rid
  connection := c
  done := false
  message := none
  phase := .sending

/-- A request that has not woken, and whose time is not up. -/
def AgentCall.inFlight {κ : Type} (call : AgentCall κ) : Bool :=
  decide (call.phase = .sending) || decide (call.phase = .waiting)

/-- A request that is still in the dictionary. -/
def AgentCall.isOpen {κ : Type} (call : AgentCall κ) : Bool :=
  call.inFlight || decide (call.phase = .woken) || decide (call.phase = .late)

/-- What happens. A request, a reply or a drop is named by its number. -/
inductive LinkEvent (κ : Type) where
  | register (c : κ)
  | request (uid : Nat) (method : Str) (params : List (Str × Json))
  | send (call : Nat)
  | wake (call : Nat)
  | expire (call : Nat)
  | close (call : Nat)
  | read (call : Nat)
  | reply (c : κ) (params : List (Str × Json))
  | write (reply : Nat)
  | signal (reply : Nat)
  | drop (c : κ)
  | free (drop : Nat)

namespace LinkWorld

variable {κ : Type} [DecidableEq κ]

omit [DecidableEq κ] in
/-- Change a request. -/
def onCall (w : LinkWorld κ) (number : Nat) (f : AgentCall κ → AgentCall κ) : LinkWorld κ :=
  { w with calls := w.calls.modify number f }

/-- Whether a request was sent down a connection, or is to be. -/
def isOn (w : LinkWorld κ) (c : κ) (number : Nat) : Bool :=
  match w.calls[number]? with
  | none => false
  | some call => decide (call.connection = c)

/-- `[p for p in self._pending.values() if p.connection is connection]`. -/
def waitingOn (w : LinkWorld κ) (c : κ) : List Nat :=
  w.links.pending.valuesWhere (w.isOn c)

/-- The requests in flight on a connection. -/
def inFlightOn (w : LinkWorld κ) (c : κ) : List Nat :=
  (List.range w.calls.length).filter fun number =>
    match w.calls[number]? with
    | none => false
    | some call => call.inFlight && decide (call.connection = c)

/-- The pending request a reply finds: by its `rid`, and sent down its connection. -/
def findRequest (w : LinkWorld κ) (c : κ) (params : List (Str × Json)) : Option Nat := do
  let rid ← ridOf params
  let number ← w.links.pending.lookup rid
  if w.isOn c number then some number else none

end LinkWorld

/-- What a request makes of its message. -/
def agentAnswer [JsonText] (params : List (Str × Json)) : Answer :=
  if ((getMember params "ok").getD .null).truthy then
    .returned ((getMember params "result").getD .null)
  else
    let error := (getMember params "error").getD .null
    unwrap [(str "ok", .bool false),
      (str "error", if error.truthy then error else .object [])]

/-- What a request returned or raised because of a reply. -/
def LinkWorld.answer [JsonText] {κ : Type} (w : LinkWorld κ) (call : AgentCall κ) : Option Answer :=
  match call.phase with
  | .ended (.answered number) => (w.replies[number]?).map fun reply => agentAnswer reply.params
  | _ => none

open LinkWorld

/-- What a step may do. -/
inductive LinkStep {κ : Type} [DecidableEq κ] [AgentConnection κ] :
    LinkWorld κ → LinkEvent κ → LinkWorld κ → Prop where
  | register (w : LinkWorld κ) (c : κ) :
      LinkStep w (.register c) { w with links := w.links.register c }
  /-- No agent of that user is connected, and the request raises. -/
  | refused (w : LinkWorld κ) {uid : Nat} (method : Str) (params : List (Str × Json))
      (h : w.links.openRequest uid w.calls.length = none) :
      LinkStep w (.request uid method params) w
  | request (w : LinkWorld κ) {uid : Nat} (method : Str) (params : List (Str × Json)) {c : κ}
      {rid : Str} {links : Links κ}
      (h : w.links.openRequest uid w.calls.length = some (c, rid, links)) :
      LinkStep w (.request uid method params)
        { w with
          links := links
          calls := w.calls ++ [.made uid method params rid c] }
  | send (w : LinkWorld κ) {number : Nat} {call : AgentCall κ} (h : w.calls[number]? = some call)
      (hphase : call.phase = .sending) :
      LinkStep w (.send number)
        { w.onCall number (fun call => { call with phase := .waiting }) with
          sent := w.sent ++
            [{ uid := call.uid
               connection := call.connection
               rid := call.rid }] }
  | wake (w : LinkWorld κ) {number : Nat} {call : AgentCall κ} (h : w.calls[number]? = some call)
      (hphase : call.phase = .waiting) (hdone : call.done = true) :
      LinkStep w (.wake number) (w.onCall number fun call => { call with phase := .woken })
  | expire (w : LinkWorld κ) {number : Nat} {call : AgentCall κ}
      (h : w.calls[number]? = some call) (hphase : call.phase = .waiting) :
      LinkStep w (.expire number) (w.onCall number fun call => { call with phase := .late })
  | closeWoken (w : LinkWorld κ) {number : Nat} {call : AgentCall κ}
      (h : w.calls[number]? = some call) (hphase : call.phase = .woken) :
      LinkStep w (.close number)
        { w.onCall number (fun call => { call with phase := .reading }) with
          links := w.links.closeRequest call.rid }
  | closeLate (w : LinkWorld κ) {number : Nat} {call : AgentCall κ}
      (h : w.calls[number]? = some call) (hphase : call.phase = .late) :
      LinkStep w (.close number)
        { w.onCall number (fun call => { call with phase := .ended .expired }) with
          links := w.links.closeRequest call.rid }
  | read (w : LinkWorld κ) {number : Nat} {call : AgentCall κ} (h : w.calls[number]? = some call)
      (hphase : call.phase = .reading) :
      LinkStep w (.read number)
        (w.onCall number fun call =>
          { call with
            phase := .ended (match call.message with
              | none => .disconnected
              | some reply => .answered reply) })
  /-- No request with that id is waiting on the connection, and the reply is refused. -/
  | unclaimed (w : LinkWorld κ) {c : κ} {params : List (Str × Json)}
      (h : w.findRequest c params = none) : LinkStep w (.reply c params) w
  | reply (w : LinkWorld κ) {c : κ} {params : List (Str × Json)} {number : Nat}
      (h : w.findRequest c params = some number) :
      LinkStep w (.reply c params)
        { w with
          replies := w.replies ++
            [{ connection := c
               params := params
               target := number
               phase := .found }] }
  | write (w : LinkWorld κ) {number : Nat} {reply : AgentReply κ}
      (h : w.replies[number]? = some reply) (hphase : reply.phase = .found) :
      LinkStep w (.write number)
        { w.onCall reply.target (fun call => { call with message := some number }) with
          replies := w.replies.modify number fun reply => { reply with phase := .written } }
  | signal (w : LinkWorld κ) {number : Nat} {reply : AgentReply κ}
      (h : w.replies[number]? = some reply) (hphase : reply.phase = .written) :
      LinkStep w (.signal number)
        { w.onCall reply.target (fun call => { call with done := true }) with
          replies := w.replies.modify number fun reply => { reply with phase := .finished } }
  | drop (w : LinkWorld κ) (c : κ) :
      LinkStep w (.drop c)
        { w with
          links := (w.links.drop c).2
          drops := w.drops ++
            [{ connection := c
               waiting := w.waitingOn c
               caught := w.inFlightOn c }] }
  | free (w : LinkWorld κ) {number : Nat} {drop : AgentDrop κ} {next : Nat} {rest : List Nat}
      (h : w.drops[number]? = some drop) (hwaiting : drop.waiting = next :: rest) :
      LinkStep w (.free number)
        { w.onCall next (fun call => { call with done := true }) with
          drops := w.drops.modify number fun drop => { drop with waiting := rest } }

/-- What a user can rely on. -/
structure Isolated {κ : Type} [AgentConnection κ] [JsonText] (w : LinkWorld κ) : Prop where
  /-- A request is sent to the agent of the user it is for. -/
  sent : ∀ s ∈ w.sent, peerUid s.connection = s.uid
  /-- What it returns or raises is what a reply says that carried its `rid` and came over
      the same connection. -/
  answered : ∀ (number : Nat) (call : AgentCall κ) (answer : Answer),
    w.calls[number]? = some call → w.answer call = some answer →
      ∃ reply ∈ w.replies, reply.connection = call.connection ∧
        peerUid reply.connection = call.uid ∧ ridOf reply.params = some call.rid ∧
          answer = agentAnswer reply.params
  /-- No two requests are answered by one reply. -/
  once : ∀ (m n : Nat) (a b : AgentCall κ) (reply : Nat), w.calls[m]? = some a →
    w.calls[n]? = some b → a.phase = .ended (.answered reply) →
      b.phase = .ended (.answered reply) → m = n
  /-- A request that was in flight on a connection when it was dropped has been woken, or
      is still to be by that drop. -/
  woken : ∀ drop ∈ w.drops, ∀ number ∈ drop.caught, ∃ call, w.calls[number]? = some call ∧
    call.connection = drop.connection ∧ (call.done = true ∨ number ∈ drop.waiting)

section Invariant

variable {κ : Type} [AgentConnection κ]

/-- What holds between any two steps. -/
structure LinkInv (w : LinkWorld κ) : Prop where
  own : w.links.OwnUid
  rid : ∀ (n : Nat) (call : AgentCall κ), w.calls[n]? = some call →
    ∃ k < w.links.counter, call.rid = digits k
  distinct : ∀ (m n : Nat) (a b : AgentCall κ), w.calls[m]? = some a → w.calls[n]? = some b →
    a.rid = b.rid → m = n
  addressed : ∀ (n : Nat) (call : AgentCall κ), w.calls[n]? = some call →
    peerUid call.connection = call.uid
  sent : ∀ s ∈ w.sent, peerUid s.connection = s.uid
  pending : ∀ rid n, w.links.pending.lookup rid = some n →
    ∃ call, w.calls[n]? = some call ∧ call.rid = rid
  waiting : ∀ (n : Nat) (call : AgentCall κ), w.calls[n]? = some call → call.isOpen = true →
    w.links.pending.lookup call.rid = some n
  target : ∀ (k : Nat) (reply : AgentReply κ), w.replies[k]? = some reply →
    ∃ call, w.calls[reply.target]? = some call ∧ call.connection = reply.connection ∧
      ridOf reply.params = some call.rid
  message : ∀ (n : Nat) (call : AgentCall κ) (k : Nat), w.calls[n]? = some call →
    call.message = some k → ∃ reply, w.replies[k]? = some reply ∧ reply.target = n
  ended : ∀ (n : Nat) (call : AgentCall κ) (k : Nat), w.calls[n]? = some call →
    call.phase = .ended (.answered k) → ∃ reply, w.replies[k]? = some reply ∧ reply.target = n
  caught : ∀ (d : Nat) (drop : AgentDrop κ), w.drops[d]? = some drop → ∀ n ∈ drop.caught,
    ∃ call, w.calls[n]? = some call ∧ call.connection = drop.connection ∧
      (call.done = true ∨ n ∈ drop.waiting)

theorem linkInv_init : LinkInv (LinkWorld.init : LinkWorld κ) where
  own := Links.ownUid_init
  rid := fun _ _ h => nomatch h
  distinct := fun _ _ _ _ h => nomatch h
  addressed := fun _ _ h => nomatch h
  sent := fun _ h => nomatch h
  pending := fun _ _ h => nomatch h
  waiting := fun _ _ h => nomatch h
  target := fun _ _ h => nomatch h
  message := fun _ _ _ h => nomatch h
  ended := fun _ _ _ h => nomatch h
  caught := fun _ _ h => nomatch h

/-- A request after a change that keeps whose it is. -/
structure Keeps (before after : AgentCall κ) : Prop where
  uid : after.uid = before.uid
  rid : after.rid = before.rid
  connection : after.connection = before.connection
  opens : after.isOpen = true → before.isOpen = true
  done : before.done = true → after.done = true

omit [AgentConnection κ] in
theorem Keeps.refl (call : AgentCall κ) : Keeps call call :=
  ⟨rfl, rfl, rfl, id, id⟩

variable {w : LinkWorld κ}

omit [AgentConnection κ] in
/-- Whose a request is does not change with the change of one. -/
theorem keeps_onCall {m n : Nat} {f : AgentCall κ → AgentCall κ} {changed : AgentCall κ}
    (hchanged : w.calls[m]? = some changed) (hf : Keeps changed (f changed)) {before : AgentCall κ}
    (hbefore : w.calls[n]? = some before) : Keeps before (if m = n then f before else before) := by
  by_cases hmn : m = n
  · subst hmn
    cases hchanged.symm.trans hbefore
    rw [if_pos rfl]
    exact hf
  · rw [if_neg hmn]
    exact Keeps.refl before

/-- A change of one request keeps the invariant, if what it makes the request's message
    is a reply to it. -/
theorem LinkInv.onCall (h : LinkInv w) {m : Nat} {f : AgentCall κ → AgentCall κ}
    {changed : AgentCall κ} (hchanged : w.calls[m]? = some changed) (hf : Keeps changed (f changed))
    (hmessage : ∀ k, (f changed).message = some k →
      ∃ reply, w.replies[k]? = some reply ∧ reply.target = m)
    (hended : ∀ k, (f changed).phase = .ended (.answered k) →
      ∃ reply, w.replies[k]? = some reply ∧ reply.target = m) : LinkInv (w.onCall m f) := by
  -- The calls are the ones there were, each kept up to its phase and message.
  have hsame : ∀ {n : Nat} {call : AgentCall κ}, (w.onCall m f).calls[n]? = some call →
      ∃ before, w.calls[n]? = some before ∧ Keeps before call := by
    intro n call hcall
    rcases of_modify hcall with ⟨before, hbefore, rfl⟩
    exact ⟨before, hbefore, keeps_onCall hchanged hf hbefore⟩
  have hstill : ∀ {n : Nat} {call : AgentCall κ}, w.calls[n]? = some call →
      ∃ after, (w.onCall m f).calls[n]? = some after ∧ Keeps call after := fun hcall =>
    ⟨_, modify_of f hcall, keeps_onCall hchanged hf hcall⟩
  constructor
  case own => exact h.own
  case sent => exact h.sent
  case rid =>
    intro n call hcall
    rcases hsame hcall with ⟨before, hbefore, hkeeps⟩
    exact hkeeps.rid ▸ h.rid n before hbefore
  case distinct =>
    intro k n a b ha hb hab
    rcases hsame ha with ⟨a', ha', hka⟩
    rcases hsame hb with ⟨b', hb', hkb⟩
    exact h.distinct k n a' b' ha' hb' (hka.rid.symm.trans (hab.trans hkb.rid))
  case addressed =>
    intro n call hcall
    rcases hsame hcall with ⟨before, hbefore, hkeeps⟩
    rw [hkeeps.uid, hkeeps.connection]
    exact h.addressed n before hbefore
  case pending =>
    intro rid n hlookup
    rcases h.pending rid n hlookup with ⟨call, hcall, hrid⟩
    rcases hstill hcall with ⟨after, hafter, hkeeps⟩
    exact ⟨after, hafter, hkeeps.rid.trans hrid⟩
  case waiting =>
    intro n call hcall hopen
    rcases hsame hcall with ⟨before, hbefore, hkeeps⟩
    rw [hkeeps.rid]
    exact h.waiting n before hbefore (hkeeps.opens hopen)
  case target =>
    intro k reply hreply
    rcases h.target k reply hreply with ⟨call, hcall, hconnection, hrid⟩
    rcases hstill hcall with ⟨after, hafter, hkeeps⟩
    exact ⟨after, hafter, hkeeps.connection.trans hconnection, hkeeps.rid.symm ▸ hrid⟩
  case message =>
    intro n call k hcall hk
    rcases of_modify hcall with ⟨before, hbefore, rfl⟩
    -- The message is the changed call's, or of another call and as before.
    by_cases hmn : m = n
    · subst hmn
      cases hchanged.symm.trans hbefore
      rw [if_pos rfl] at hk
      exact hmessage k hk
    · rw [if_neg hmn] at hk
      exact h.message n before k hbefore hk
  case ended =>
    intro n call k hcall hk
    rcases of_modify hcall with ⟨before, hbefore, rfl⟩
    by_cases hmn : m = n
    · subst hmn
      cases hchanged.symm.trans hbefore
      rw [if_pos rfl] at hk
      exact hended k hk
    · rw [if_neg hmn] at hk
      exact h.ended n before k hbefore hk
  case caught =>
    intro d drop hdrop n hn
    rcases h.caught d drop hdrop n hn with ⟨call, hcall, hconnection, hdone⟩
    rcases hstill hcall with ⟨after, hafter, hkeeps⟩
    exact ⟨after, hafter, hkeeps.connection.trans hconnection, hdone.imp_left hkeeps.done⟩

/-- A request goes on to a phase that is not its end. -/
theorem LinkInv.advance (h : LinkInv w) {m : Nat} {call : AgentCall κ}
    (hcall : w.calls[m]? = some call) {phase : CallPhase}
    (hopen : ({ call with phase := phase } : AgentCall κ).isOpen = true → call.isOpen = true)
    (hended : ∀ k, phase = .ended (.answered k) → call.message = some k) :
    LinkInv (w.onCall m fun call => { call with phase := phase }) :=
  h.onCall hcall ⟨rfl, rfl, rfl, hopen, id⟩ (fun k hk => h.message m call k hcall hk)
    fun k hk => h.message m call k hcall (hended k hk)

omit [AgentConnection κ] in
/-- A reply after a change of another's phase, or its own. -/
theorem of_modify_phase {k n : Nat} {phase : ReplyPhase} {replies : List (AgentReply κ)}
    {reply : AgentReply κ}
    (h : (replies.modify k fun reply => { reply with phase := phase })[n]? = some reply) :
    ∃ before, replies[n]? = some before ∧ reply.connection = before.connection ∧
      reply.params = before.params ∧ reply.target = before.target := by
  rcases of_modify h with ⟨before, hbefore, rfl⟩
  refine ⟨before, hbefore, ?_⟩
  by_cases hkn : k = n
  · rw [if_pos hkn]
    exact ⟨rfl, rfl, rfl⟩
  · rw [if_neg hkn]
    exact ⟨rfl, rfl, rfl⟩

omit [AgentConnection κ] in
/-- A reply is still there after a change of another's phase, or its own. -/
theorem modify_phase_of {k n : Nat} (phase : ReplyPhase) {replies : List (AgentReply κ)}
    {reply : AgentReply κ} (h : replies[n]? = some reply) :
    ∃ after, (replies.modify k fun reply => { reply with phase := phase })[n]? = some after ∧
      after.target = reply.target := by
  refine ⟨_, modify_of _ h, ?_⟩
  by_cases hkn : k = n
  · rw [if_pos hkn]
  · rw [if_neg hkn]

/-- How far a reply has come does not matter. -/
theorem LinkInv.replyPhase (h : LinkInv w) (k : Nat) (phase : ReplyPhase) :
    LinkInv { w with replies := w.replies.modify k fun reply => { reply with phase := phase } } :=
  { h with
    target := fun n reply hreply => by
      rcases of_modify_phase hreply with ⟨before, hbefore, hconnection, hparams, htarget⟩
      rw [hconnection, hparams, htarget]
      exact h.target n before hbefore
    message := fun n call k hcall hk => by
      rcases h.message n call k hcall hk with ⟨reply, hreply, htarget⟩
      rcases modify_phase_of phase hreply with ⟨after, hafter, hsame⟩
      exact ⟨after, hafter, hsame.trans htarget⟩
    ended := fun n call k hcall hk => by
      rcases h.ended n call k hcall hk with ⟨reply, hreply, htarget⟩
      rcases modify_phase_of phase hreply with ⟨after, hafter, hsame⟩
      exact ⟨after, hafter, hsame.trans htarget⟩ }

/-- A request that is open no longer leaves the dictionary. -/
theorem LinkInv.close (h : LinkInv w) {m : Nat} {call : AgentCall κ}
    (hcall : w.calls[m]? = some call) (hclosed : call.isOpen = false) :
    LinkInv { w with links := w.links.closeRequest call.rid } :=
  { h with
    pending := fun rid n hlookup => by
      by_cases hrid : rid = call.rid
      · rw [hrid, Links.closeRequest, AList.lookup_erase] at hlookup
        exact nomatch hlookup
      · rw [Links.closeRequest, AList.lookup_erase_ne hrid] at hlookup
        exact h.pending rid n hlookup
    waiting := fun n other hother hopen => by
      have hrid : other.rid ≠ call.rid := fun heq => by
        have hnm := h.distinct n m other call hother hcall heq
        subst hnm
        cases hother.symm.trans hcall
        rw [hclosed] at hopen
        exact nomatch hopen
      rw [Links.closeRequest, AList.lookup_erase_ne hrid]
      exact h.waiting n other hother hopen }

theorem LinkInv.register (h : LinkInv w) (c : κ) :
    LinkInv { w with links := w.links.register c } :=
  { h with own := h.own.register c }

/-- A request that was made is found under its `rid`, which no other has. -/
theorem LinkInv.request (h : LinkInv w) {uid : Nat} (method : Str) (params : List (Str × Json))
    {c : κ} {rid : Str} {links : Links κ}
    (hopen : w.links.openRequest uid w.calls.length = some (c, rid, links)) :
    LinkInv { w with
      links := links
      calls := w.calls ++ [.made uid method params rid c] } := by
  rw [Links.openRequest] at hopen
  cases hregistered : w.links.byUid.lookup uid with
  | none =>
      rw [hregistered] at hopen
      exact nomatch hopen
  | some registered =>
      rw [hregistered] at hopen
      cases hopen
      -- the counter has not been used yet
      have hfresh : ∀ (n : Nat) (call : AgentCall κ), w.calls[n]? = some call →
          call.rid ≠ digits w.links.counter := fun n call hcall heq => by
        rcases h.rid n call hcall with ⟨k, hk, hrid⟩
        exact Nat.ne_of_lt hk (digits_injective (hrid.symm.trans heq))
      have hlast : (w.calls ++
        [.made uid method params (digits w.links.counter) c])[w.calls.length]? =
          some (.made uid method params (digits w.links.counter) c) := List.getElem?_concat_length
      constructor
      case own => exact h.own
      case sent => exact h.sent
      case rid =>
        intro n call hcall
        rcases of_push hcall with hcall | ⟨-, rfl⟩
        · rcases h.rid n call hcall with ⟨k, hk, hrid⟩
          exact ⟨k, Nat.lt_succ_of_lt hk, hrid⟩
        · exact ⟨w.links.counter, Nat.lt_succ_self _, rfl⟩
      case distinct =>
        intro m n a b ha hb hab
        rcases of_push ha with ha | ⟨hm, rfl⟩
        · rcases of_push hb with hb | ⟨-, rfl⟩
          · exact h.distinct m n a b ha hb hab
          · exact absurd hab (hfresh m a ha)
        · rcases of_push hb with hb | ⟨hn, -⟩
          · exact absurd hab.symm (hfresh n b hb)
          · exact hm.trans hn.symm
      case addressed =>
        intro n call hcall
        rcases of_push hcall with hcall | ⟨-, rfl⟩
        · exact h.addressed n call hcall
        · exact h.own uid c hregistered
      case pending =>
        intro other n hlookup
        by_cases hrid : other = digits w.links.counter
        · rw [hrid, AList.lookup_insert] at hlookup
          cases hlookup
          exact ⟨_, hlast, hrid.symm⟩
        · rw [AList.lookup_insert_ne hrid] at hlookup
          rcases h.pending other n hlookup with ⟨call, hcall, hother⟩
          exact ⟨call, push_of _ hcall, hother⟩
      case waiting =>
        intro n call hcall hopen
        rcases of_push hcall with hcall | ⟨rfl, rfl⟩
        · rw [AList.lookup_insert_ne (hfresh n call hcall)]
          exact h.waiting n call hcall hopen
        · exact AList.lookup_insert _
      case target =>
        intro k reply hreply
        rcases h.target k reply hreply with ⟨call, hcall, hsame⟩
        exact ⟨call, push_of _ hcall, hsame⟩
      case message =>
        intro n call k hcall hk
        rcases of_push hcall with hcall | ⟨-, rfl⟩
        · exact h.message n call k hcall hk
        · exact nomatch hk
      case ended =>
        intro n call k hcall hk
        rcases of_push hcall with hcall | ⟨-, rfl⟩
        · exact h.ended n call k hcall hk
        · exact nomatch hk
      case caught =>
        intro d drop hdrop n hn
        rcases h.caught d drop hdrop n hn with ⟨call, hcall, hsame⟩
        exact ⟨call, push_of _ hcall, hsame⟩

theorem LinkInv.send (h : LinkInv w) {n : Nat} {call : AgentCall κ}
    (hcall : w.calls[n]? = some call) :
    LinkInv { w with
      sent := w.sent ++
        [{ uid := call.uid
           connection := call.connection
           rid := call.rid }] } :=
  { h with
    sent := fun s hs => by
      rcases List.mem_append.mp hs with hs | hs
      · exact h.sent s hs
      · rw [List.mem_singleton.mp hs]
        exact h.addressed n call hcall }

variable [DecidableEq κ]

omit [AgentConnection κ] in
theorem isOn_iff {c : κ} {n : Nat} :
    w.isOn c n = true ↔ ∃ call, w.calls[n]? = some call ∧ call.connection = c := by
  unfold LinkWorld.isOn
  cases w.calls[n]? with
  | none => exact iff_of_false Bool.false_ne_true fun ⟨_, h, _⟩ => nomatch h
  | some call =>
      simp only [Option.some.injEq, exists_eq_left']
      exact decide_eq_true_iff

/-- A reply that found its request carries the `rid` of it. -/
theorem LinkInv.reply (h : LinkInv w) {c : κ} {params : List (Str × Json)} {number : Nat}
    (hfound : w.findRequest c params = some number) :
    LinkInv { w with
      replies := w.replies ++
        [{ connection := c
           params := params
           target := number
           phase := .found }] } := by
  -- The reply was found by its id, among the calls on the same connection.
  have htarget : ∃ call, w.calls[number]? = some call ∧ call.connection = c ∧
      ridOf params = some call.rid := by
    simp only [LinkWorld.findRequest, Option.bind_eq_bind, Option.bind_eq_some_iff] at hfound
    rcases hfound with ⟨rid, hrid, n, hlookup, hon⟩
    by_cases hison : w.isOn c n = true
    · rw [if_pos hison] at hon
      cases hon
      rcases isOn_iff.mp hison with ⟨call, hcall, hconnection⟩
      rcases h.pending rid number hlookup with ⟨other, hother, hsame⟩
      cases hcall.symm.trans hother
      exact ⟨call, hcall, hconnection, by rw [hsame, hrid]⟩
    · rw [if_neg hison] at hon
      exact nomatch hon
  exact
    { h with
      target := fun k reply hreply => by
        rcases of_push hreply with hreply | ⟨-, rfl⟩
        · exact h.target k reply hreply
        · exact htarget
      message := fun n call k hcall hk => by
        rcases h.message n call k hcall hk with ⟨reply, hreply, hsame⟩
        exact ⟨reply, push_of _ hreply, hsame⟩
      ended := fun n call k hcall hk => by
        rcases h.ended n call k hcall hk with ⟨reply, hreply, hsame⟩
        exact ⟨reply, push_of _ hreply, hsame⟩ }

/-- `drop` finds every request that is in flight on the connection. -/
theorem LinkInv.drop (h : LinkInv w) (c : κ) :
    LinkInv { w with
      links := (w.links.drop c).2
      drops := w.drops ++
        [{ connection := c
           waiting := w.waitingOn c
           caught := w.inFlightOn c }] } := by
  -- Whoever is caught by the drop waits, or has been told.
  have hcaught : ∀ n ∈ w.inFlightOn c, ∃ call, w.calls[n]? = some call ∧ call.connection = c ∧
      (call.done = true ∨ n ∈ w.waitingOn c) := by
    intro n hn
    have hflight := (List.mem_filter.mp hn).2
    cases hcall : w.calls[n]? with
    | none =>
        rw [hcall] at hflight
        exact nomatch hflight
    | some call =>
        rw [hcall] at hflight
        rcases Bool.and_eq_true_iff.mp hflight with ⟨hin, hconnection⟩
        have hconnection := of_decide_eq_true hconnection
        have hopen : call.isOpen = true := by
          rw [AgentCall.isOpen, hin, Bool.true_or, Bool.true_or]
        exact ⟨call, rfl, hconnection, Or.inr (Dict.mem_valuesWhere.mpr
          ⟨⟨call.rid, h.waiting n call hcall hopen⟩, isOn_iff.mpr ⟨call, hcall, hconnection⟩⟩)⟩
  exact
    { h with
      own := h.own.drop c
      caught := fun d drop hdrop => by
        rcases of_push hdrop with hdrop | ⟨-, rfl⟩
        · exact h.caught d drop hdrop
        · exact hcaught }

omit [DecidableEq κ] in
/-- The drop goes on to the next request, which was woken. -/
theorem LinkInv.freed (h : LinkInv w) {number next : Nat} {rest : List Nat} {drop : AgentDrop κ}
    (hdrop : w.drops[number]? = some drop) (hwaiting : drop.waiting = next :: rest)
    (hdone : ∀ call, w.calls[next]? = some call → call.done = true) :
    LinkInv { w with drops := w.drops.modify number fun drop => { drop with waiting := rest } } :=
  { h with
    caught := fun d after hafter n hn => by
      rcases of_modify hafter with ⟨before, hbefore, rfl⟩
      by_cases hnd : number = d
      · subst hnd
        cases hdrop.symm.trans hbefore
        rw [if_pos rfl] at hn ⊢
        rcases h.caught number drop hdrop n hn with ⟨call, hcall, hconnection, hend⟩
        refine ⟨call, hcall, hconnection, ?_⟩
        rw [hwaiting, List.mem_cons] at hend
        rcases hend with hend | rfl | hend
        · exact Or.inl hend
        · exact Or.inl (hdone call hcall)
        · exact Or.inr hend
      · rw [if_neg hnd] at hn ⊢
        exact h.caught d before hbefore n hn }

omit [AgentConnection κ] [DecidableEq κ] in
theorem isOpen_of_phase {call : AgentCall κ}
    (h : call.phase = .sending ∨ call.phase = .waiting ∨ call.phase = .woken ∨ call.phase = .late) :
    call.isOpen = true := by
  unfold AgentCall.isOpen AgentCall.inFlight
  rcases h with h | h | h | h <;> rw [h] <;> rfl

omit [DecidableEq κ] in
/-- A change of the parts of a request that `reply` and `drop` write. -/
theorem LinkInv.signal (h : LinkInv w) {n : Nat} {call : AgentCall κ}
    (hcall : w.calls[n]? = some call) :
    LinkInv (w.onCall n fun call => { call with done := true }) :=
  h.onCall hcall ⟨rfl, rfl, rfl, id, fun _ => rfl⟩ (fun k hk => h.message n call k hcall hk)
    fun k hk => h.ended n call k hcall hk

/-- A step keeps the invariant. -/
theorem LinkStep.inv {w' : LinkWorld κ} {e : LinkEvent κ} (h : LinkInv w)
    (hstep : LinkStep w e w') :
    LinkInv w' := by
  cases hstep with
  -- The registration and the requests that never get a call change nothing else.
  | register c => exact h.register c
  | refused method params hrefused => exact h
  | request method params hopen => exact h.request method params hopen
  | @send n call hcall hphase =>
      have hsent : LinkInv (w.onCall n fun call => { call with phase := .waiting }) :=
        h.advance hcall (fun _ => isOpen_of_phase (Or.inl hphase)) fun k hk => nomatch hk
      have hcall' : (w.onCall n fun call => { call with phase := .waiting }).calls[n]? =
          some { call with phase := .waiting } := (modify_of _ hcall).trans (by rw [if_pos rfl])
      have hlast := hsent.send hcall'
      exact hlast
  | wake hcall hphase hdone =>
      exact h.advance hcall (fun _ => isOpen_of_phase (Or.inr (Or.inl hphase)))
        fun k hk => nomatch hk
  | expire hcall hphase =>
      exact h.advance hcall (fun _ => isOpen_of_phase (Or.inr (Or.inl hphase)))
        fun k hk => nomatch hk
  | @closeWoken n call hcall hphase =>
      have hread : LinkInv (w.onCall n fun call => { call with phase := .reading }) :=
        h.advance hcall (fun hopen => nomatch hopen) fun k hk => nomatch hk
      have hcall' : (w.onCall n fun call => { call with phase := .reading }).calls[n]? =
          some { call with phase := .reading } := (modify_of _ hcall).trans (by rw [if_pos rfl])
      have hclosed := hread.close hcall' rfl
      exact hclosed
  | @closeLate n call hcall hphase =>
      have hread : LinkInv (w.onCall n fun call => { call with phase := .ended .expired }) :=
        h.advance hcall (fun hopen => nomatch hopen) fun k hk => nomatch hk
      have hcall' : (w.onCall n fun call => { call with phase := .ended .expired }).calls[n]? =
          some { call with phase := .ended .expired } :=
            (modify_of _ hcall).trans (by rw [if_pos rfl])
      have hclosed := hread.close hcall' rfl
      exact hclosed
  | @read n call hcall hphase =>
      refine h.onCall hcall ⟨rfl, rfl, rfl, (fun hopen => nomatch hopen), id⟩
        (fun k hk => h.message n call k hcall hk) fun k hk => ?_
      -- What is read is the message there is.
      cases hmessage : call.message with
      | none =>
          rw [hmessage] at hk
          cases hk
      | some k =>
          rw [hmessage] at hk
          cases hk
          exact h.message n call k hcall hmessage
  | unclaimed hnone => exact h
  | reply hfound => exact h.reply hfound
  | @write number reply hreply hphase =>
      -- A reply is written into the call it was found for.
      rcases h.target number reply hreply with ⟨call, hcall, -⟩
      have hwritten : LinkInv (w.onCall reply.target fun call =>
          { call with message := some number }) :=
        h.onCall hcall ⟨rfl, rfl, rfl, id, id⟩
          (fun k hk => by
            cases hk
            exact ⟨reply, hreply, rfl⟩)
          fun k hk => h.ended reply.target call k hcall hk
      exact hwritten.replyPhase number .written
  | @signal number reply hreply hphase =>
      rcases h.target number reply hreply with ⟨call, hcall, -⟩
      exact (h.signal hcall).replyPhase number .finished
  | drop c => exact h.drop c
  | @free number drop next rest hdrop hwaiting =>
      -- The call that is freed is one there is.
      cases hcall : w.calls[next]? with
      | none =>
          have hsame : w.onCall next (fun call => { call with done := true }) = w := by
            rw [LinkWorld.onCall, List.modify_eq_self (List.getElem?_eq_none_iff.mp hcall)]
          rw [hsame]
          exact h.freed hdrop hwaiting fun call hnext => nomatch hcall.symm.trans hnext
      | some call =>
          refine (h.signal hcall).freed hdrop hwaiting fun after hafter => ?_
          rcases of_modify hafter with ⟨before, -, rfl⟩
          rw [if_pos rfl]

end Invariant

section Runs

variable {κ : Type} [AgentConnection κ] [DecidableEq κ]

/-- The worlds a run reaches, whatever the order of the steps. -/
def Reached (w : LinkWorld κ) : Prop :=
  GuardedRun LinkStep (fun _ _ => True) LinkWorld.init w

theorem Reached.inv {w : LinkWorld κ} (h : Reached w) : LinkInv w :=
  GuardedRun.invariant LinkInv linkInv_init (fun _ _ _ hinv _ hstep => hstep.inv hinv) h

/-- A request reaches only the agent of the user it is for, and only that agent answers
    it; no reply answers two; and a request whose connection is dropped is woken then. -/
theorem links_isolated [JsonText] {w : LinkWorld κ} (h : Reached w) : Isolated w where
  sent := h.inv.sent
  answered := by
    intro number call answer hcall hanswer
    unfold LinkWorld.answer at hanswer
    split at hanswer
    · rename_i k hphase
      rcases h.inv.ended number call k hcall hphase with ⟨reply, hreply, htarget⟩
      rcases h.inv.target k reply hreply with ⟨other, hother, hconnection, hrid⟩
      -- The reply names the call by its number, so the call it ends is this one.
      rw [htarget, hcall, Option.some.injEq] at hother
      subst hother
      rw [hreply, Option.map_some, Option.some.injEq] at hanswer
      exact ⟨reply, List.mem_of_getElem? hreply, hconnection.symm,
        hconnection ▸ h.inv.addressed number call hcall, hrid, hanswer.symm⟩
    · exact nomatch hanswer
  once := by
    intro m n a b k ha hb hak hbk
    rcases h.inv.ended m a k ha hak with ⟨reply, hreply, rfl⟩
    rcases h.inv.ended n b k hb hbk with ⟨other, hother, rfl⟩
    cases hreply.symm.trans hother
    rfl
  woken := by
    intro drop hdrop number hnumber
    rcases List.getElem?_of_mem hdrop with ⟨d, hd⟩
    exact h.inv.caught d drop hd number hnumber

end Runs

section Mount

attribute [local instance] JsonText.none

/-- Two connections of one user. -/
@[reducible] def oneUser : AgentConnection Bool where
  peerUid := fun _ => 501

attribute [local instance] oneUser

/-- The agent's answer to its first request. -/
def mounted : List (Str × Json) :=
  [(str "rid", .string (str "1")), (str "ok", .bool true)]

set_option maxRecDepth 2000 in
/-- A request that was answered although another connection had replaced the agent's. -/
theorem links_isolated_mount :
    ∃ w : LinkWorld Bool, (w.calls.map AgentCall.phase = [.ended (.answered 0)] ∧
      w.links.byUid.lookup 501 = some true) ∧ Isolated w := by
  have hrun : Reached _ :=
    GuardedRun.start
    |>.next _ trivial (.register _ false)
    |>.next (.request 501 (str "mount") []) trivial (.request _ (str "mount") [] rfl)
    |>.next _ trivial (.register _ true)
    |>.next (.send 0) trivial (.send _ rfl rfl)
    |>.next (.reply false mounted) trivial
      (.reply _ (show LinkWorld.findRequest _ false mounted = some 0 from rfl))
    |>.next (.write 0) trivial (.write _ rfl rfl)
    |>.next (.signal 0) trivial (.signal _ rfl rfl)
    |>.next (.wake 0) trivial (.wake _ rfl rfl rfl)
    |>.next (.close 0) trivial (.closeWoken _ rfl rfl)
    |>.next (.read 0) trivial (.read _ rfl rfl)
  exact ⟨_, ⟨rfl, rfl⟩, links_isolated hrun⟩

end Mount

end Smbpal
