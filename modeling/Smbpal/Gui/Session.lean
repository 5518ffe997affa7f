import Mathlib.Data.List.Count
import Mathlib.Data.List.Nodup
import Smbpal.Lib.Run

/-!
# The Window's Requests

`gui/session.py` with `Client.call` of `ipc/client.py`: the worker thread that
makes the window's requests one after another on a command socket it keeps, and
the daemon that executes them.

A request may come to be sent more than once in two places. `Client.call` sends
it again when it was refused, and `Session._call` sends it again on a new socket
when the one it held fails. A refused request was not executed. A socket that
fails says nothing: the daemon may not have had the request, or still have it to
read, or be at it, or have executed it, and the exception is the same.

What the daemon does and when, what arrives and when, and when a socket fails is
left open, so the states that are reached are those of every order. A request
that the daemon has read goes on when its socket is closed, by either side.

## Main definitions

* `GuiSession`: The worker, what is on its sockets, and what was executed.
* `SessionStep`: What may happen.
* `AtMostOnce`: No request is executed twice, or sent again once it was.
* `RetryIsFirst`: Where a socket fails and the request is sent again, the daemon
  neither executed it, nor is at it, nor has it still to read.

## Theorems

* `sound_step`: What a step keeps.
* `executes_pending`: The daemon comes to what is on a socket.
* `retries_late`: A retry that is not the first may be one too many.
* `session_at_most_once`: When a request is executed at most once.
-/

namespace Smbpal

open Lib

/-- One attempt of `Session._call`. -/
structure JobCall where
  job : Nat
  /-- The second attempt. -/
  again : Bool
  /-- Its socket was there before the job. -/
  reusing : Bool
  /-- The second chance of `Client.call`, after a refusal. -/
  second : Bool
  deriving DecidableEq

/-- How far the worker thread has come. -/
inductive WorkerPoint where
  | idle
  /-- About to connect, for an attempt. -/
  | connecting (job : Nat) (again : Bool)
  /-- About to send the request. -/
  | sending (call : JobCall)
  /-- The request is sent, and its reply is not there. -/
  | waiting (call : JobCall) (id : Nat)
  /-- The request was refused, and may be repeated. -/
  | refused (call : JobCall)
  deriving DecidableEq

/-- A request on a socket that the daemon has not read. Whose it is, it does not say. -/
structure WindowRequest where
  wire : Nat
  id : Nat
  job : Nat
  deriving DecidableEq

/-- A reply on a socket that the worker has not read. -/
structure WindowReply where
  wire : Nat
  id : Nat
  refused : Bool
  deriving DecidableEq

/-- A request that the daemon has read and not answered. -/
structure Handling where
  request : WindowRequest
  /-- Whether it was refused, once it is executed or refused. -/
  refused : Option Bool
  deriving DecidableEq

/-- The worker, what is on its sockets, and what was executed. -/
structure GuiSession where
  /-- The jobs taken so far. -/
  jobs : Nat
  /-- The sockets connected so far. -/
  wires : Nat
  /-- `_counter` of the command client. -/
  counter : Nat
  /-- `_command`. -/
  command : Option Nat
  point : WorkerPoint
  requests : List WindowRequest
  handled : List Handling
  replies : List WindowReply
  /-- The sockets the daemon has closed. -/
  closed : List Nat
  /-- The jobs whose requests were executed with an effect. -/
  executed : List Nat
  deriving DecidableEq

namespace GuiSession

/-- A window that was just opened. -/
def start : GuiSession where
  jobs := 0
  wires := 0
  counter := 0
  command := none
  point := .idle
  requests := []
  handled := []
  replies := []
  closed := []
  executed := []

/-- The head of `_run` and `_call`: the next job, on the socket that is held. -/
def pick (s : GuiSession) : GuiSession :=
  { s with
    jobs := s.jobs + 1
    point :=
      match s.command with
      | some _ => .sending ⟨s.jobs, false, true, false⟩
      | none => .connecting s.jobs false }

/-- `_command_client`, where there is no client. -/
def connect (s : GuiSession) (job : Nat) (again : Bool) : GuiSession :=
  { s with
    wires := s.wires + 1
    counter := 0
    command := some s.wires
    point := .sending ⟨job, again, false, false⟩ }

/-- The `except` of `_call`: the socket is dropped, and the request is made again where it was an
    old one. -/
def fail (s : GuiSession) (job : Nat) (again reusing : Bool) : GuiSession :=
  { s with
    command := none
    point := if reusing && !again then .connecting job true else .idle }

/-- `_call_once`, up to its loop. -/
def send (s : GuiSession) (wire : Nat) (call : JobCall) : GuiSession :=
  { s with
    counter := s.counter + 1
    requests := s.requests ++ [⟨wire, s.counter + 1, call.job⟩]
    point := .waiting call (s.counter + 1) }

/-- The loop of `_call_once` has its reply. -/
def answered (s : GuiSession) (call : JobCall) (refused : Bool) : GuiSession :=
  { s with point := if refused && !call.second then .refused call else .idle }

/-- The daemon has read a request. -/
def receive (s : GuiSession) (request : WindowRequest) (rest : List WindowRequest) : GuiSession :=
  { s with
    requests := rest
    handled := s.handled ++ [⟨request, none⟩] }

/-- It has executed one, with an effect or without, or refused it. -/
def execute (s : GuiSession) (request : WindowRequest) (before after : List Handling)
    (effect refused : Bool) : GuiSession :=
  { s with
    handled := before ++ ⟨request, some refused⟩ :: after
    executed := if effect then request.job :: s.executed else s.executed }

/-- It answers one, unless the socket is closed. -/
def answer (s : GuiSession) (request : WindowRequest) (rest : List Handling) (refused : Bool) :
    GuiSession :=
  { s with
    handled := rest
    replies :=
      if request.wire ∈ s.closed then s.replies
      else s.replies ++ [⟨request.wire, request.id, refused⟩] }

/-- The daemon has closed a socket, and what it had not read is gone. What it is at goes on. -/
def close (s : GuiSession) (wire : Nat) : GuiSession :=
  { s with
    closed := wire :: s.closed
    requests := s.requests.filter fun request => decide (request.wire ≠ wire) }

end GuiSession

/-- What happens. -/
inductive SessionEvent where
  | picks
  | connects
  | connectFails
  | sends
  | sendFails
  | receives
  | executes (effect refused : Bool)
  | answers
  | closes (wire : Nat)
  | reads
  | readFails
  | repeats
  | givesUp
  deriving DecidableEq

/-- What a step may do. A socket may fail at any time. -/
inductive SessionStep (s : GuiSession) : SessionEvent → GuiSession → Prop where
  | picks (h : s.point = .idle) : SessionStep s .picks s.pick
  | connects {job : Nat} {again : Bool} (h : s.point = .connecting job again) :
      SessionStep s .connects (s.connect job again)
  | connectFails {job : Nat} {again : Bool} (h : s.point = .connecting job again) :
      SessionStep s .connectFails (s.fail job again false)
  | sends {wire : Nat} {call : JobCall} (h : s.point = .sending call)
      (hcommand : s.command = some wire) (hopen : wire ∉ s.closed) :
      SessionStep s .sends (s.send wire call)
  | sendFails {call : JobCall} (h : s.point = .sending call) :
      SessionStep s .sendFails (s.fail call.job call.again call.reusing)
  -- The daemon reads what is on one socket in order, each when the one before is answered.
  | receives {before after : List WindowRequest} {request : WindowRequest}
      (h : s.requests = before ++ request :: after)
      (hfirst : ∀ r ∈ before, r.wire ≠ request.wire)
      (hidle : ∀ x ∈ s.handled, x.request.wire ≠ request.wire) :
      SessionStep s .receives (s.receive request (before ++ after))
  -- What is refused has no effect.
  | executes {before after : List Handling} {request : WindowRequest} {effect refused : Bool}
      (h : s.handled = before ++ ⟨request, none⟩ :: after)
      (hrefused : refused = true → effect = false) :
      SessionStep s (.executes effect refused) (s.execute request before after effect refused)
  | answers {before after : List Handling} {request : WindowRequest} {refused : Bool}
      (h : s.handled = before ++ ⟨request, some refused⟩ :: after) :
      SessionStep s .answers (s.answer request (before ++ after) refused)
  | closes (wire : Nat) : SessionStep s (.closes wire) (s.close wire)
  | skips {wire id : Nat} {call : JobCall} {before after : List WindowReply} {reply : WindowReply}
      (h : s.point = .waiting call id) (hcommand : s.command = some wire)
      (hreplies : s.replies = before ++ reply :: after) (hwire : reply.wire = wire)
      (hfirst : ∀ r ∈ before, r.wire ≠ wire) (hother : reply.id ≠ id) :
      SessionStep s .reads { s with replies := before ++ after }
  | reads {wire id : Nat} {call : JobCall} {before after : List WindowReply} {reply : WindowReply}
      (h : s.point = .waiting call id) (hcommand : s.command = some wire)
      (hreplies : s.replies = before ++ reply :: after) (hwire : reply.wire = wire)
      (hfirst : ∀ r ∈ before, r.wire ≠ wire) (hown : reply.id = id) :
      SessionStep s .reads
        (GuiSession.answered { s with replies := before ++ after } call reply.refused)
  | readFails {call : JobCall} {id : Nat} (h : s.point = .waiting call id) :
      SessionStep s .readFails (s.fail call.job call.again call.reusing)
  | repeats {call : JobCall} (h : s.point = .refused call) :
      SessionStep s .repeats { s with point := .sending { call with second := true } }
  | givesUp {call : JobCall} (h : s.point = .refused call) :
      SessionStep s .givesUp { s with point := .idle }

/-- No request is executed twice, and none is about to be sent that was executed. -/
structure AtMostOnce (s : GuiSession) : Prop where
  executed : s.executed.Nodup
  sending : ∀ call, s.point = .sending call → call.job ∉ s.executed

/-- Where a held socket fails and the request is made again, the daemon has not executed the
    request, is not at it, and has it not to read any more. -/
def RetryIsFirst (s : GuiSession) (e : SessionEvent) : Prop :=
  e = .readFails → ∀ call id, s.point = .waiting call id → call.reusing = true →
    call.again = false → call.job ∉ s.executed ∧ (∀ r ∈ s.requests, r.job ≠ call.job) ∧
      ∀ x ∈ s.handled, x.refused = none → x.request.job ≠ call.job

section Counts

variable {s s' : GuiSession} {e : SessionEvent}

/-- Whether the daemon is at the request of a job. -/
def Handling.underway (job : Nat) (x : Handling) : Bool :=
  decide (x.request.job = job) && x.refused.isNone

/-- How often a job's request is to be read, or is being executed, or was. -/
def GuiSession.load (s : GuiSession) (job : Nat) : Nat :=
  s.executed.count job + s.requests.countP (fun request => decide (request.job = job)) +
    s.handled.countP (Handling.underway job)

theorem load_eq_zero_iff {job : Nat} : s.load job = 0 ↔
    job ∉ s.executed ∧ (∀ r ∈ s.requests, r.job ≠ job) ∧
      ∀ x ∈ s.handled, x.refused = none → x.request.job ≠ job := by
  have hat : ∀ x : Handling, ¬x.underway job = true ↔ (x.refused = none → x.request.job ≠ job) := by
    intro x
    unfold Handling.underway
    rw [Bool.and_eq_true, decide_eq_true_eq, Option.isNone_iff_eq_none, not_and']
  unfold GuiSession.load
  rw [Nat.add_eq_zero_iff, Nat.add_eq_zero_iff, List.count_eq_zero, List.countP_eq_zero,
    List.countP_eq_zero, and_assoc]
  simp only [decide_eq_true_eq, hat, ne_eq]

/-- Reading a request leaves it as one. -/
theorem load_receive {before after : List WindowRequest} {request : WindowRequest}
    (h : s.requests = before ++ request :: after) (job : Nat) :
    (s.receive request (before ++ after)).load job = s.load job := by
  have hat : Handling.underway job ⟨request, none⟩ = decide (request.job = job) := Bool.and_true _
  unfold GuiSession.load GuiSession.receive
  dsimp only
  rw [h, List.countP_append, List.countP_append, List.countP_append, List.countP_singleton,
    List.countP_cons, hat]
  omega

/-- What the daemon is at is executed once, or not at all. -/
theorem load_execute {before after : List Handling} {request : WindowRequest}
    {effect refused : Bool} (h : s.handled = before ++ ⟨request, none⟩ :: after) (job : Nat) :
    (s.execute request before after effect refused).load job +
        (if request.job = job ∧ effect = false then 1 else 0) = s.load job := by
  have hat : Handling.underway job ⟨request, none⟩ = decide (request.job = job) := Bool.and_true _
  have hdone : Handling.underway job ⟨request, some refused⟩ = false := Bool.and_false _
  unfold GuiSession.load GuiSession.execute
  dsimp only
  rw [h, List.countP_append, List.countP_append, List.countP_cons, List.countP_cons, hat, hdone]
  cases effect with
  -- Refused: the request is no longer under way.
  | false =>
      by_cases hjob : request.job = job
      · simp only [hjob, and_self, if_true, decide_true, Bool.false_eq_true, if_false]
        omega
      · simp only [hjob, false_and, if_false, decide_false, Bool.false_eq_true]
        omega
  -- Executed: it is counted where it was, so the load stays.
  | true =>
      rw [if_pos rfl, List.count_cons]
      by_cases hjob : request.job = job
      · simp only [hjob, beq_self_eq_true, if_true, decide_true, and_false, Bool.true_eq_false,
          if_false, Bool.false_eq_true]
        omega
      · have hbeq : (request.job == job) = false := beq_eq_false_iff_ne.mpr hjob
        simp only [hjob, hbeq, false_and, if_false, decide_false, Bool.false_eq_true]
        omega

/-- What is answered was settled before. -/
theorem load_answer {before after : List Handling} {request : WindowRequest} {refused : Bool}
    (h : s.handled = before ++ ⟨request, some refused⟩ :: after) (job : Nat) :
    (s.answer request (before ++ after) refused).load job = s.load job := by
  have hdone : Handling.underway job ⟨request, some refused⟩ = false := Bool.and_false _
  unfold GuiSession.load GuiSession.answer
  dsimp only
  rw [h, List.countP_append, List.countP_append, List.countP_cons, hdone]
  rfl

theorem load_close (s : GuiSession) (wire job : Nat) : (s.close wire).load job ≤ s.load job := by
  unfold GuiSession.load GuiSession.close
  dsimp only
  have hfilter := List.Sublist.countP_le (p := fun r : WindowRequest => decide (r.job = job))
    (List.filter_sublist (l := s.requests) (p := fun r => decide (r.wire ≠ wire)))
  omega

theorem load_send (s : GuiSession) (wire : Nat) (call : JobCall) (job : Nat) :
    (s.send wire call).load job = s.load job + if call.job = job then 1 else 0 := by
  unfold GuiSession.load GuiSession.send
  dsimp only
  rw [List.countP_append, List.countP_singleton]
  simp only [decide_eq_true_eq]
  omega

/-- The job the worker is at. -/
def WorkerPoint.job : WorkerPoint → Option Nat
  | .idle => none
  | .connecting job _ => some job
  | .sending call => some call.job
  | .waiting call _ => some call.job
  | .refused call => some call.job

/-- The job whose request is still to be sent. -/
def WorkerPoint.unsent : WorkerPoint → Option Nat
  | .waiting _ _ => none
  | point => point.job

/-- The requests on a socket, and those the daemon has read and not answered. -/
def GuiSession.unanswered (s : GuiSession) : List WindowRequest :=
  s.requests ++ s.handled.map Handling.request

/-- What holds of a window in which a retry is always the first that the daemon has of a
    request. -/
structure GuiSession.Sound (s : GuiSession) : Prop where
  fresh : ∀ job, s.jobs ≤ job → s.load job = 0
  once : ∀ job, s.load job ≤ 1
  current : ∀ job, s.point.job = some job → job < s.jobs
  unsent : ∀ job, s.point.unsent = some job → s.load job = 0
  /-- A request that was refused was not executed, whether the refusal is sent or not. -/
  refusals : ∀ call id wire, s.point = .waiting call id → s.command = some wire →
    (∀ p ∈ s.replies, p.wire = wire → p.id = id → p.refused = true → s.load call.job = 0) ∧
      ∀ x ∈ s.handled, x.request.wire = wire → x.request.id = id → x.refused = some true →
        s.load call.job = 0
  /-- What has the number of the request is the request. -/
  own : ∀ call id wire, s.point = .waiting call id → s.command = some wire →
    ∀ r ∈ s.unanswered, r.wire = wire → r.id = id → r.job = call.job
  counted : ∀ wire, s.command = some wire →
    (∀ r ∈ s.unanswered, r.wire = wire → r.id ≤ s.counter) ∧
      ∀ p ∈ s.replies, p.wire = wire → p.id ≤ s.counter
  wired : (∀ r ∈ s.unanswered, r.wire < s.wires) ∧ (∀ p ∈ s.replies, p.wire < s.wires) ∧
    ∀ wire, s.command = some wire → wire < s.wires

/-- The worker comes to a point at which nothing is sent. -/
theorem GuiSession.Sound.move (hs : s.Sound) {point : WorkerPoint}
    (hsent : point.unsent = point.job)
    (hjob : ∀ job, point.job = some job → job < s.jobs ∧ s.load job = 0) :
    GuiSession.Sound { s with point := point } where
  fresh := hs.fresh
  once := hs.once
  current := fun job h => (hjob job h).1
  unsent := fun job h => (hjob job (hsent ▸ h)).2
  refusals := by
    rintro call id wire rfl
    cases hsent
  own := by
    rintro call id wire rfl
    cases hsent
  counted := hs.counted
  wired := hs.wired

/-- The socket is dropped. -/
theorem GuiSession.Sound.drop (hs : s.Sound) : GuiSession.Sound { s with command := none } where
  fresh := hs.fresh
  once := hs.once
  current := hs.current
  unsent := hs.unsent
  refusals := fun _ _ _ _ h => nomatch h
  own := fun _ _ _ _ h => nomatch h
  counted := fun _ h => nomatch h
  wired := ⟨hs.wired.1, hs.wired.2.1, fun _ h => nomatch h⟩

/-- A socket fails, and the request is not on its way. -/
theorem GuiSession.Sound.fail (hs : s.Sound) {job : Nat} {again reusing : Bool}
    (hjob : job < s.jobs)
    (hfirst : reusing = true → again = false → s.load job = 0) :
    (s.fail job again reusing).Sound := by
  refine hs.drop.move ?_ fun other h => ?_
  · split
    · rfl
    · rfl
  · split at h
    · rename_i hretry
      rw [Bool.and_eq_true, Bool.not_eq_true'] at hretry
      cases h
      exact ⟨hjob, hfirst hretry.1 hretry.2⟩
    · cases h

theorem GuiSession.Sound.pick (hs : s.Sound) : s.pick.Sound := by
  have hcounted : GuiSession.Sound { s with jobs := s.jobs + 1 } :=
    { hs with
      fresh := fun job h => hs.fresh job (Nat.le_of_succ_le h)
      current := fun job h => Nat.lt_succ_of_lt (hs.current job h) }
  refine hcounted.move ?_ fun job h => ?_
  · cases s.command with
    | none => rfl
    | some wire => rfl
  · have hjob : job = s.jobs := by
      cases hcommand : s.command with
      | none =>
          rw [hcommand] at h
          exact (Option.some.inj h).symm
      | some wire =>
          rw [hcommand] at h
          exact (Option.some.inj h).symm
    rw [hjob]
    exact ⟨Nat.lt_succ_self _, hs.fresh _ (Nat.le_refl _)⟩

theorem GuiSession.Sound.connect (hs : s.Sound) {job : Nat} {again : Bool}
    (hpoint : s.point = .connecting job again) : (s.connect job again).Sound := by
  have hjob := hs.current job (by rw [hpoint]; rfl)
  have hload := hs.unsent job (by rw [hpoint]; rfl)
  refine ⟨hs.fresh, hs.once, ?_, ?_, ?_, ?_, ?_, ?_⟩
  · rintro other h
    cases h
    exact hjob
  · rintro other h
    cases h
    exact hload
  · rintro call id wire h
    cases h
  · rintro call id wire h
    cases h
  · -- Nothing is on a new socket.
    rintro wire h
    cases h
    exact ⟨fun r hr heq => absurd (hs.wired.1 r hr) (by omega),
      fun p hp heq => absurd (hs.wired.2.1 p hp) (by omega)⟩
  · refine ⟨fun r hr => Nat.lt_succ_of_lt (hs.wired.1 r hr),
      fun p hp => Nat.lt_succ_of_lt (hs.wired.2.1 p hp), ?_⟩
    rintro wire h
    cases h
    exact Nat.lt_succ_self _

theorem GuiSession.Sound.send (hs : s.Sound) {wire : Nat} {call : JobCall}
    (hpoint : s.point = .sending call) (hcommand : s.command = some wire) :
    (s.send wire call).Sound := by
  have hjob := hs.current call.job (by rw [hpoint]; rfl)
  have hload := hs.unsent call.job (by rw [hpoint]; rfl)
  have hmem : ∀ {r}, r ∈ (s.send wire call).unanswered →
      r ∈ s.unanswered ∨ r = ⟨wire, s.counter + 1, call.job⟩ := by
    intro r hr
    unfold GuiSession.unanswered GuiSession.send at hr
    dsimp only at hr
    rw [List.append_assoc, List.mem_append, List.mem_append, List.mem_singleton] at hr
    rcases hr with hr | hr | hr
    · exact Or.inl (List.mem_append_left _ hr)
    · exact Or.inr hr
    · exact Or.inl (List.mem_append_right _ hr)
  refine ⟨?_, ?_, ?_, ?_, ?_, ?_, ?_, ?_⟩
  · intro job h
    have hne : call.job ≠ job := by
      change s.jobs ≤ job at h
      omega
    rw [load_send, if_neg hne, hs.fresh job h]
  · intro job
    rw [load_send]
    by_cases hne : call.job = job
    · have hone : s.load job + 1 = 1 := by rw [← hne, hload]
      rw [if_pos hne]
      exact Nat.le_of_eq hone
    · rw [if_neg hne]
      exact hs.once job
  · rintro job h
    cases h
    exact hjob
  · rintro job h
    cases h
  · -- Nothing has the new number.
    intro other id wire' h hcommand'
    cases h
    refine ⟨fun p hp hwire hid => ?_, fun x hx hwire hid => ?_⟩
    · have hle := (hs.counted wire' hcommand').2 p hp hwire
      omega
    · have hle := (hs.counted wire' hcommand').1 x.request
        (List.mem_append_right _ (List.mem_map_of_mem hx)) hwire
      omega
  · intro other id wire' h hcommand' r hr hwire hid
    cases h
    rcases hmem hr with hr | rfl
    · have hle := (hs.counted wire' hcommand').1 r hr hwire
      omega
    · rfl
  · intro wire' hcommand'
    refine ⟨fun r hr hwire => ?_, fun p hp hwire => ?_⟩
    · rcases hmem hr with hr | rfl
      · exact Nat.le_succ_of_le ((hs.counted wire' hcommand').1 r hr hwire)
      · exact Nat.le_refl _
    · exact Nat.le_succ_of_le ((hs.counted wire' hcommand').2 p hp hwire)
  · refine ⟨fun r hr => ?_, hs.wired.2⟩
    rcases hmem hr with hr | rfl
    · exact hs.wired.1 r hr
    · exact hs.wired.2.2 wire hcommand

/-- What the daemon does to the requests: it takes up no new one, and adds to no load. -/
theorem GuiSession.Sound.handle (hs : s.Sound) (hpoint : s'.point = s.point)
    (hcommand : s'.command = s.command) (hcounter : s'.counter = s.counter)
    (hsame : s'.jobs = s.jobs ∧ s'.wires = s.wires)
    (hload : ∀ job, s'.load job ≤ s.load job)
    (hunanswered : ∀ r ∈ s'.unanswered, r ∈ s.unanswered)
    (hreplies : ∀ p ∈ s'.replies, p ∈ s.replies ∨
      ∃ r ∈ s.unanswered, r.wire = p.wire ∧ r.id = p.id)
    (hrefusals : ∀ call id wire, s.point = .waiting call id → s.command = some wire →
      (∀ p ∈ s'.replies, p.wire = wire → p.id = id → p.refused = true → s'.load call.job = 0) ∧
        ∀ x ∈ s'.handled, x.request.wire = wire → x.request.id = id → x.refused = some true →
          s'.load call.job = 0) :
    s'.Sound where
  fresh := fun job hjob => by
    have := hload job
    have := hs.fresh job (hsame.1 ▸ hjob)
    omega
  once := fun job => Nat.le_trans (hload job) (hs.once job)
  current := by
    rw [hpoint, hsame.1]
    exact hs.current
  unsent := fun job hjob => by
    have := hload job
    have := hs.unsent job (hpoint ▸ hjob)
    omega
  refusals := by
    rw [hpoint, hcommand]
    exact hrefusals
  own := by
    rw [hpoint, hcommand]
    exact fun call id wire hwaits hwire r hr =>
      hs.own call id wire hwaits hwire r (hunanswered r hr)
  counted := by
    rw [hcommand, hcounter]
    refine fun wire hwire => ⟨fun r hr => (hs.counted wire hwire).1 r (hunanswered r hr), ?_⟩
    -- The reply is an old one, or to a request that was waiting for it.
    intro p hp hon
    rcases hreplies p hp with hp | ⟨r, hr, hsocket, hid⟩
    · exact (hs.counted wire hwire).2 p hp hon
    · rw [← hid]
      exact (hs.counted wire hwire).1 r hr (hsocket.trans hon)
  wired := by
    rw [hcommand, hsame.2]
    refine ⟨fun r hr => hs.wired.1 r (hunanswered r hr), fun p hp => ?_, hs.wired.2.2⟩
    rcases hreplies p hp with hp | ⟨r, hr, hsocket, -⟩
    · exact hs.wired.2.1 p hp
    · rw [← hsocket]
      exact hs.wired.1 r hr

/-- Where the load only goes down, what was refused stays without an effect. -/
theorem GuiSession.Sound.refusals_le (hs : s.Sound) (hload : ∀ job, s'.load job ≤ s.load job)
    (hreplies : ∀ p ∈ s'.replies, p ∈ s.replies)
    (hhandled : ∀ x ∈ s'.handled, x ∈ s.handled ∨ x.refused = none) (call : JobCall)
    (id wire : Nat) (hpoint : s.point = .waiting call id) (hcommand : s.command = some wire) :
    (∀ p ∈ s'.replies, p.wire = wire → p.id = id → p.refused = true → s'.load call.job = 0) ∧
      ∀ x ∈ s'.handled, x.request.wire = wire → x.request.id = id → x.refused = some true →
        s'.load call.job = 0 := by
  have hle := hload call.job
  rcases hs.refusals call id wire hpoint hcommand with ⟨hsent, hsettled⟩
  refine ⟨fun p hp hwire hid hrefused => ?_, fun x hx hwire hid hrefused => ?_⟩
  · have := hsent p (hreplies p hp) hwire hid hrefused
    omega
  · rcases hhandled x hx with hx | hnone
    · have := hsettled x hx hwire hid hrefused
      omega
    · rw [hnone] at hrefused
      cases hrefused

theorem GuiSession.Sound.receive (hs : s.Sound) {before after : List WindowRequest}
    {request : WindowRequest} (h : s.requests = before ++ request :: after) :
    (s.receive request (before ++ after)).Sound := by
  have hload := fun job => Nat.le_of_eq (@load_receive s before after request h job)
  refine hs.handle rfl rfl rfl ⟨rfl, rfl⟩ hload (fun r hr => ?_) (fun p hp => Or.inl hp)
    (hs.refusals_le hload (fun p hp => hp) fun x hx => ?_)
  · unfold GuiSession.unanswered GuiSession.receive at hr
    unfold GuiSession.unanswered
    dsimp only at hr
    rw [List.map_append, List.map_singleton] at hr
    rw [h]
    simp only [List.mem_append, List.mem_cons, List.not_mem_nil, or_false] at hr ⊢
    rcases hr with (hr | hr) | hr | hr
    · exact Or.inl (Or.inl hr)
    · exact Or.inl (Or.inr (Or.inr hr))
    · exact Or.inr hr
    · exact Or.inl (Or.inr (Or.inl hr))
  · refine (List.mem_append.mp hx).imp_right fun hx => ?_
    rw [List.mem_singleton.mp hx]

theorem GuiSession.Sound.execute (hs : s.Sound) {before after : List Handling}
    {request : WindowRequest} {effect refused : Bool}
    (h : s.handled = before ++ ⟨request, none⟩ :: after)
    (hrefused : refused = true → effect = false) :
    (s.execute request before after effect refused).Sound := by
  have hexact := @load_execute s before after request effect refused h
  have hload : ∀ job, (s.execute request before after effect refused).load job ≤ s.load job := by
    intro job
    have := hexact job
    omega
  have hrequest : request ∈ s.unanswered := by
    refine List.mem_append_right _ (List.mem_map.mpr ⟨⟨request, none⟩, ?_, rfl⟩)
    rw [h]
    exact List.mem_append_right _ List.mem_cons_self
  have hmem : ∀ x ∈ (s.execute request before after effect refused).handled,
      x ∈ s.handled ∨ x = ⟨request, some refused⟩ := by
    intro x hx
    rw [h]
    rcases List.mem_append.mp hx with hx | hx
    · exact Or.inl (List.mem_append_left _ hx)
    · rcases List.mem_cons.mp hx with hx | hx
      · exact Or.inr hx
      · exact Or.inl (List.mem_append_right _ (List.mem_cons_of_mem _ hx))
  refine hs.handle rfl rfl rfl ⟨rfl, rfl⟩ hload (fun r hr => ?_) (fun p hp => Or.inl hp)
    fun call id wire hpoint hcommand => ?_
  · rcases List.mem_append.mp hr with hr | hr
    · exact List.mem_append_left _ hr
    · rcases List.mem_map.mp hr with ⟨x, hx, rfl⟩
      rcases hmem x hx with hx | rfl
      · exact List.mem_append_right _ (List.mem_map_of_mem hx)
      · exact hrequest
  · rcases hs.refusals call id wire hpoint hcommand with ⟨hsent, hsettled⟩
    have hle := hload call.job
    refine ⟨fun p hp hwire hid hrefuses => ?_, fun x hx hwire hid hrefuses => ?_⟩
    · have := hsent p hp hwire hid hrefuses
      omega
    · rcases hmem x hx with hx | rfl
      · have := hsettled x hx hwire hid hrefuses
        omega
      · -- The request that was refused was the only one.
        have hone := hexact call.job
        have hown := hs.own call id wire hpoint hcommand request hrequest hwire hid
        rw [if_pos ⟨hown, hrefused (Option.some.inj hrefuses)⟩] at hone
        have := hs.once call.job
        omega

theorem GuiSession.Sound.answer (hs : s.Sound) {before after : List Handling}
    {request : WindowRequest} {refused : Bool}
    (h : s.handled = before ++ ⟨request, some refused⟩ :: after) :
    (s.answer request (before ++ after) refused).Sound := by
  have hsame := @load_answer s before after request refused h
  have hself : (⟨request, some refused⟩ : Handling) ∈ s.handled := by
    rw [h]
    exact List.mem_append_right _ List.mem_cons_self
  have hmem : ∀ {x}, x ∈ before ++ after → x ∈ s.handled := by
    intro x hx
    rw [h]
    exact List.mem_append.mpr ((List.mem_append.mp hx).imp_right (List.mem_cons_of_mem _))
  -- Where the socket is closed there is nobody to reply to.
  have hreply : ∀ {p}, p ∈ (s.answer request (before ++ after) refused).replies →
      p ∈ s.replies ∨ p = ⟨request.wire, request.id, refused⟩ := by
    intro p hp
    unfold GuiSession.answer at hp
    dsimp only at hp
    split at hp
    · exact Or.inl hp
    · exact (List.mem_append.mp hp).imp_right List.mem_singleton.mp
  refine hs.handle rfl rfl rfl ⟨rfl, rfl⟩ (fun job => Nat.le_of_eq (hsame job)) (fun r hr => ?_)
    (fun p hp => ?_) fun call id wire hpoint hcommand => ?_
  · rcases List.mem_append.mp hr with hr | hr
    · exact List.mem_append_left _ hr
    · rcases List.mem_map.mp hr with ⟨x, hx, rfl⟩
      exact List.mem_append_right _ (List.mem_map_of_mem (hmem hx))
  · rcases hreply hp with hp | rfl
    · exact Or.inl hp
    · exact Or.inr ⟨request, List.mem_append_right _ (List.mem_map.mpr ⟨_, hself, rfl⟩), rfl, rfl⟩
  · rw [hsame]
    rcases hs.refusals call id wire hpoint hcommand with ⟨hsent, hsettled⟩
    refine ⟨fun p hp hwire hid hrefuses => ?_, fun x hx => hsettled x (hmem hx)⟩
    -- What is replied is what the handler came to.
    rcases hreply hp with hp | rfl
    · exact hsent p hp hwire hid hrefuses
    · exact hsettled _ hself hwire hid (congrArg some hrefuses)

theorem GuiSession.Sound.close (hs : s.Sound) (wire : Nat) : (s.close wire).Sound := by
  have hload := fun job => load_close s wire job
  refine hs.handle rfl rfl rfl ⟨rfl, rfl⟩ hload (fun r hr => ?_) (fun p hp => Or.inl hp)
    (hs.refusals_le hload (fun p hp => hp) fun x hx => Or.inl hx)
  rcases List.mem_append.mp hr with hr | hr
  · exact List.mem_append_left _ (List.mem_filter.mp hr).1
  · exact List.mem_append_right _ hr

/-- A reply is read off its socket. -/
theorem GuiSession.Sound.read (hs : s.Sound) {before after : List WindowReply} {reply : WindowReply}
    (h : s.replies = before ++ reply :: after) :
    GuiSession.Sound { s with replies := before ++ after } := by
  have hmem : ∀ p ∈ before ++ after, p ∈ s.replies := by
    intro p hp
    rw [h]
    exact List.mem_append.mpr ((List.mem_append.mp hp).imp_right (List.mem_cons_of_mem _))
  exact hs.handle rfl rfl rfl ⟨rfl, rfl⟩ (fun _ => Nat.le_refl _) (fun _ hr => hr)
    (fun p hp => Or.inl (hmem p hp))
    (hs.refusals_le (fun _ => Nat.le_refl _) hmem fun x hx => Or.inl hx)

theorem sound_start : GuiSession.start.Sound where
  fresh := fun _ _ => rfl
  once := fun _ => Nat.zero_le _
  current := fun _ h => nomatch h
  unsent := fun _ h => nomatch h
  refusals := fun _ _ _ h => nomatch h
  own := fun _ _ _ h => nomatch h
  counted := fun _ h => nomatch h
  wired := ⟨fun _ h => absurd h List.not_mem_nil, fun _ h => absurd h List.not_mem_nil,
    fun _ h => nomatch h⟩

/-- What a step keeps, where a retry is the first that the daemon has of the request. -/
theorem sound_step (hs : s.Sound) (hfirst : RetryIsFirst s e) (h : SessionStep s e s') :
    s'.Sound := by
  cases h with
  | picks h => exact hs.pick
  | connects h => exact hs.connect h
  -- No call is under way while connecting, so the retry is of nothing sent.
  | @connectFails job again h =>
      exact hs.fail (hs.current job (by rw [h]; rfl)) fun hreusing => nomatch hreusing
  | sends h hcommand hopen => exact hs.send h hcommand
  | @sendFails call h =>
      exact hs.fail (hs.current call.job (by rw [h]; rfl)) fun _ _ =>
        hs.unsent call.job (by rw [h]; rfl)
  | receives h hfirst hidle => exact hs.receive h
  | executes h hrefused => exact hs.execute h hrefused
  | answers h => exact hs.answer h
  | closes wire => exact hs.close wire
  | skips h hcommand hreplies hwire hfirst hother => exact hs.read hreplies
  | @reads wire id call before after reply h hcommand hreplies hwire hfirst hown =>
      have hread := hs.read hreplies
      -- The reply read is the one to the call's own request.
      have hreply : reply ∈ s.replies := by
        rw [hreplies]
        exact List.mem_append_right _ List.mem_cons_self
      refine hread.move ?_ fun job hjob => ?_
      · split
        · rfl
        · rfl
      · split at hjob
        · rename_i hrefused
          rw [Bool.and_eq_true] at hrefused
          cases hjob
          exact ⟨hs.current call.job (by rw [h]; rfl),
            (hs.refusals call id wire h hcommand).1 reply hreply hwire hown hrefused.1⟩
        · cases hjob
  | @readFails call id h =>
      -- The call may go out again, and the condition is that nothing came of it so far.
      exact hs.fail (hs.current call.job (by rw [h]; rfl)) fun hreusing hagain =>
        load_eq_zero_iff.mpr (hfirst rfl call id h hreusing hagain)
  | @repeats call h =>
      refine hs.move rfl fun job hjob => ?_
      cases hjob
      exact ⟨hs.current call.job (by rw [h]; rfl), hs.unsent call.job (by rw [h]; rfl)⟩
  | givesUp h => exact hs.move rfl fun _ hjob => nomatch hjob

theorem GuiSession.Sound.atMostOnce (hs : s.Sound) : AtMostOnce s where
  executed := List.nodup_iff_count_le_one.mpr fun job =>
    Nat.le_trans (Nat.le_trans (Nat.le_add_right _ _) (Nat.le_add_right _ _)) (hs.once job)
  sending := fun call h => (load_eq_zero_iff.mp (hs.unsent call.job (by rw [h]; rfl))).1

/-- What the daemon is at, it may execute, while the worker does nothing. -/
theorem executes_handled {r : WindowRequest} (hr : (⟨r, none⟩ : Handling) ∈ s.handled) :
    ∃ s', GuardedRun SessionStep (fun _ _ => True) s s' ∧ r.job ∈ s'.executed ∧
      s'.point = s.point := by
  rcases List.append_of_mem hr with ⟨before, after, hhandled⟩
  have hstep : SessionStep s (.executes true false) (s.execute r before after true false) :=
    .executes hhandled fun h => nomatch h
  exact ⟨_, .next _ .start trivial hstep, List.mem_cons_self, rfl⟩

/-- How many steps the daemon is away from having nothing to do. -/
def GuiSession.work (s : GuiSession) : Nat :=
  3 * s.requests.length + 2 * s.handled.length - s.handled.countP fun x => x.refused.isSome

/-- The daemon may come to everything that is on a socket, and execute it, while the worker does
    nothing. -/
theorem executes_pending {r : WindowRequest} (hr : r ∈ s.requests) :
    ∃ s', GuardedRun SessionStep (fun _ _ => True) s s' ∧ r.job ∈ s'.executed ∧
      s'.point = s.point := by
  induction hwork : s.work using Nat.strongRecOn generalizing s with
  | ind n ih =>
      have hgoes : ∀ {e s'}, SessionStep s e s' → r ∈ s'.requests → s'.work < n →
          s'.point = s.point → ∃ later, GuardedRun SessionStep (fun _ _ => True) s later ∧
            r.job ∈ later.executed ∧ later.point = s.point := by
        intro e s' hstep hrest hless hpoint
        rcases ih s'.work hless hrest rfl with ⟨later, hrun, hexecuted, hsame⟩
        exact ⟨later, (GuardedRun.next _ .start trivial hstep).trans hrun, hexecuted,
          hsame.trans hpoint⟩
      have hdone : s.handled.countP (fun x => x.refused.isSome) ≤ s.handled.length :=
        List.countP_le_length
      by_cases hbusy : ∃ x ∈ s.handled, x.request.wire = r.wire
      · -- What the daemon is at on the socket is executed and answered first.
        rcases hbusy with ⟨⟨request, settled⟩, hx, -⟩
        rcases List.append_of_mem hx with ⟨before, after, hhandled⟩
        unfold GuiSession.work at hwork
        rw [hhandled, List.countP_append, List.countP_cons] at hdone hwork
        rw [List.length_append, List.length_cons] at hdone hwork
        cases settled with
        | none =>
            refine hgoes (@SessionStep.executes s before after request true false hhandled
              fun h => nomatch h) hr ?_ rfl
            unfold GuiSession.work GuiSession.execute
            dsimp only
            rw [List.countP_append, List.countP_cons, List.length_append, List.length_cons]
            simp only [Option.isSome_none, Option.isSome_some, if_true, Bool.false_eq_true,
              if_false] at hwork hdone ⊢
            omega
        | some refused =>
            refine hgoes (.answers hhandled) hr ?_ rfl
            unfold GuiSession.work GuiSession.answer
            dsimp only
            rw [List.countP_append, List.length_append]
            simp only [Option.isSome_some, if_true] at hwork hdone ⊢
            omega
      · -- What the socket has before it is read first.
        have hsome : (s.requests.find? fun q => decide (q.wire = r.wire)).isSome = true :=
          List.find?_isSome.mpr ⟨r, hr, decide_eq_true rfl⟩
        rcases Option.isSome_iff_exists.mp hsome with ⟨q, hq⟩
        rcases List.find?_eq_some_iff_append.mp hq with ⟨hwire, before, after, hrequests, hbefore⟩
        have hsocket : q.wire = r.wire := of_decide_eq_true hwire
        have hfirst : ∀ p ∈ before, p.wire ≠ q.wire := by
          intro p hp heq
          have hnot := hbefore p hp
          rw [heq, hwire] at hnot
          cases hnot
        have hidle : ∀ x ∈ s.handled, x.request.wire ≠ q.wire :=
          fun x hx heq => hbusy ⟨x, hx, heq.trans hsocket⟩
        have hstep : SessionStep s .receives (s.receive q (before ++ after)) :=
          .receives hrequests hfirst hidle
        by_cases hself : r = q
        · have hread : (⟨r, none⟩ : Handling) ∈ (s.receive q (before ++ after)).handled := by
            rw [hself]
            exact List.mem_append_right _ (List.mem_singleton.mpr rfl)
          rcases executes_handled hread with ⟨later, hrun, hexecuted, hpoint⟩
          exact ⟨later, (GuardedRun.next _ .start trivial hstep).trans hrun, hexecuted, hpoint⟩
        · refine hgoes hstep ?_ ?_ rfl
          · rw [hrequests, List.mem_append, List.mem_cons] at hr
            change r ∈ before ++ after
            rw [List.mem_append]
            rcases hr with hr | heq | hr
            · exact Or.inl hr
            · exact absurd heq hself
            · exact Or.inr hr
          · unfold GuiSession.work at hwork
            unfold GuiSession.work GuiSession.receive
            dsimp only
            rw [hrequests, List.length_append, List.length_cons] at hwork
            rw [List.countP_append, List.countP_singleton, List.length_append, List.length_append,
              List.length_singleton]
            simp only [Option.isSome_none, Bool.false_eq_true, if_false]
            omega

/-- Where a held socket fails and the daemon had the request, in an order of what follows an
    executed request is sent again. -/
theorem retries_late {call : JobCall} {id : Nat} (hpoint : s.point = .waiting call id)
    (hstep : SessionStep s .readFails s') (hreusing : call.reusing = true)
    (hagain : call.again = false) (hhad : s.load call.job ≠ 0) :
    ∃ later, GuardedRun SessionStep (fun _ _ => True) s' later ∧ ¬AtMostOnce later := by
  have hs' : s' = s.fail call.job call.again call.reusing := by
    cases hstep with
    | @readFails call' id' h =>
        rw [hpoint] at h
        cases h
        rfl
  -- The session sends the same job a second time.
  have hretry : s'.point = .connecting call.job true := by
    rw [hs']
    exact if_pos (by rw [hreusing, hagain]; rfl)
  have hconnect : SessionStep s' .connects (s'.connect call.job true) := .connects hretry
  -- The daemon gets to the first one, wherever it has got with it.
  have hlater : ∃ later, GuardedRun SessionStep (fun _ _ => True) (s'.connect call.job true)
      later ∧ call.job ∈ later.executed ∧ later.point = (s'.connect call.job true).point := by
    have hload : (s'.connect call.job true).load call.job ≠ 0 := by
      rw [hs']
      exact hhad
    rw [Ne, load_eq_zero_iff] at hload
    by_cases hexecuted : call.job ∈ (s'.connect call.job true).executed
    · exact ⟨_, .start, hexecuted, rfl⟩
    · by_cases hread : ∃ r ∈ (s'.connect call.job true).requests, r.job = call.job
      · rcases hread with ⟨r, hr, hjob⟩
        rw [← hjob]
        exact executes_pending hr
      · have hat : ∃ x ∈ (s'.connect call.job true).handled,
            x.refused = none ∧ x.request.job = call.job := by
          by_contra hnone
          exact hload ⟨hexecuted, fun r hr hjob => hread ⟨r, hr, hjob⟩,
            fun x hx hrefused hjob => hnone ⟨x, hx, hrefused, hjob⟩⟩
        rcases hat with ⟨⟨request, settled⟩, hx, rfl, hjob⟩
        rw [← hjob]
        exact executes_handled hx
  -- So it was executed, and is about to be sent.
  rcases hlater with ⟨later, hrun, hexecuted, hsending⟩
  refine ⟨later, (GuardedRun.next _ .start trivial hconnect).trans hrun, fun hsafe => ?_⟩
  exact hsafe.sending _ hsending hexecuted

/-- In every order of what happens, a request is executed at most once and never sent again once it
    was, as long as a held socket fails only before the daemon has the request. Where it fails
    later, there is an order in which an executed request is sent again. -/
theorem session_at_most_once (s : GuiSession) :
    (GuardedRun SessionStep RetryIsFirst .start s → AtMostOnce s) ∧
      ∀ e s', SessionStep s e s' → ¬RetryIsFirst s e →
        ∃ later, GuardedRun SessionStep (fun _ _ => True) s' later ∧ ¬AtMostOnce later := by
  constructor
  · intro h
    exact (h.invariant GuiSession.Sound sound_start fun _ _ _ hs hfirst hstep =>
      sound_step hs hfirst hstep).atMostOnce
  · intro e s' hstep hlate
    unfold RetryIsFirst at hlate
    simp only [Classical.not_imp, not_forall] at hlate
    rcases hlate with ⟨rfl, call, id, hpoint, hreusing, hagain, hhad⟩
    exact retries_late hpoint hstep hreusing hagain fun hzero => hhad (load_eq_zero_iff.mp hzero)

end Counts

section Presses

/-- A button was pressed, and its request is executed and answered. -/
def onePressed : GuiSession :=
  { GuiSession.start with
    jobs := 1
    wires := 1
    counter := 1
    command := some 0
    executed := [0] }

/-- It was pressed again: the daemon has read the request, and is at it. -/
def pressedAgain : GuiSession :=
  { onePressed with
    jobs := 2
    counter := 2
    point := .waiting ⟨1, false, true, false⟩ 2
    handled := [⟨⟨0, 2, 1⟩, none⟩] }

theorem guard_of_ne {s : GuiSession} {e : SessionEvent} (h : e ≠ .readFails) : RetryIsFirst s e :=
  fun heq => absurd heq h

theorem onePressed_run : GuardedRun SessionStep RetryIsFirst .start onePressed := by
  let sent := (GuiSession.start.pick.connect 0 false).send 0 ⟨0, false, false, false⟩
  have hconnects : SessionStep GuiSession.start.pick .connects _ := .connects rfl
  have hsends : SessionStep (GuiSession.start.pick.connect 0 false) .sends sent :=
    .sends rfl rfl List.not_mem_nil
  have hreceives : SessionStep sent .receives (sent.receive ⟨0, 1, 0⟩ []) :=
    @SessionStep.receives _ [] [] ⟨0, 1, 0⟩ rfl (fun _ h => absurd h List.not_mem_nil)
      fun _ h => absurd h List.not_mem_nil
  have hexecutes : SessionStep (sent.receive ⟨0, 1, 0⟩ []) (.executes true false) _ :=
    @SessionStep.executes _ [] [] ⟨0, 1, 0⟩ true false rfl fun h => nomatch h
  have hanswers : SessionStep _ .answers _ :=
    @SessionStep.answers ((sent.receive ⟨0, 1, 0⟩ []).execute ⟨0, 1, 0⟩ [] [] true false) [] []
      ⟨0, 1, 0⟩ false rfl
  have hreads : SessionStep _ .reads onePressed :=
    @SessionStep.reads
      (((sent.receive ⟨0, 1, 0⟩ []).execute ⟨0, 1, 0⟩ [] [] true false).answer ⟨0, 1, 0⟩ [] false)
      0 1 ⟨0, false, false, false⟩ [] [] ⟨0, 1, false⟩ rfl rfl rfl rfl
      (fun _ h => absurd h List.not_mem_nil) rfl
  -- Nothing here is read back after a failure, so the condition holds throughout.
  have hpicked : GuardedRun SessionStep RetryIsFirst .start GuiSession.start.pick :=
    .next _ .start (guard_of_ne (by decide)) (.picks rfl)
  have hsent : GuardedRun SessionStep RetryIsFirst .start sent :=
    .next _ (.next _ hpicked (guard_of_ne (by decide)) hconnects) (guard_of_ne (by decide)) hsends
  exact .next _ (.next _ (.next _ (.next _ hsent (guard_of_ne (by decide)) hreceives)
    (guard_of_ne (by decide)) hexecutes) (guard_of_ne (by decide)) hanswers)
    (guard_of_ne (by decide)) hreads

theorem pressedAgain_run : GuardedRun SessionStep RetryIsFirst .start pressedAgain := by
  have hsends : SessionStep onePressed.pick .sends _ := .sends rfl rfl List.not_mem_nil
  have hreceives : SessionStep (onePressed.pick.send 0 ⟨1, false, true, false⟩) .receives
      pressedAgain :=
    @SessionStep.receives _ [] [] ⟨0, 2, 1⟩ rfl (fun _ h => absurd h List.not_mem_nil)
      fun _ h => absurd h List.not_mem_nil
  exact .next _ (.next _ (.next _ onePressed_run (guard_of_ne (by decide)) (.picks rfl))
    (guard_of_ne (by decide)) hsends) (guard_of_ne (by decide)) hreceives

/-- The socket fails while the daemon is at the request, which it executes nevertheless, and again
    on a new one. -/
theorem executed_twice : ∃ s, GuardedRun SessionStep (fun _ _ => True) .start s ∧
    s.executed = [1, 1, 0] ∧ ¬AtMostOnce s := by
  -- The held socket fails while the daemon is at the request.
  let failed := pressedAgain.fail 1 false true
  let once := failed.execute ⟨0, 2, 1⟩ [] [] true false
  let sent := (once.connect 1 true).send 1 ⟨1, true, false, false⟩
  have hfails : SessionStep pressedAgain .readFails failed :=
    @SessionStep.readFails _ ⟨1, false, true, false⟩ 2 rfl
  have hexecutes : SessionStep failed (.executes true false) once :=
    @SessionStep.executes _ [] [] ⟨0, 2, 1⟩ true false rfl fun h => nomatch h
  have hconnects : SessionStep once .connects (once.connect 1 true) := .connects rfl
  have hsends : SessionStep (once.connect 1 true) .sends sent := .sends rfl rfl List.not_mem_nil
  have hreceives : SessionStep sent .receives (sent.receive ⟨1, 1, 1⟩ []) :=
    @SessionStep.receives _ [] [] ⟨1, 1, 1⟩ rfl (fun _ h => absurd h List.not_mem_nil) (by decide)
  have htwice : SessionStep (sent.receive ⟨1, 1, 1⟩ []) (.executes true false) _ :=
    @SessionStep.executes _ [⟨⟨0, 2, 1⟩, some false⟩] [] ⟨1, 1, 1⟩ true false rfl
      fun h => nomatch h
  have hrun := pressedAgain_run.mono fun _ _ _ => trivial
  refine ⟨_, .next _ (.next _ (.next _ (.next _ (.next _ (.next _ hrun trivial hfails) trivial
    hexecutes) trivial hconnects) trivial hsends) trivial hreceives) trivial htwice, rfl,
    fun h => ?_⟩
  exact absurd h.executed (by decide)

/-- Until then nothing went wrong; from then on it may. -/
theorem pressed_again_safe : AtMostOnce pressedAgain ∧
    ∃ later, GuardedRun SessionStep (fun _ _ => True) (pressedAgain.fail 1 false true) later ∧
      ¬AtMostOnce later :=
  ⟨(session_at_most_once pressedAgain).1 pressedAgain_run,
    (session_at_most_once pressedAgain).2 .readFails (pressedAgain.fail 1 false true)
      (@SessionStep.readFails _ ⟨1, false, true, false⟩ 2 rfl) fun h =>
        (h rfl ⟨1, false, true, false⟩ 2 rfl rfl rfl).2.2 _ List.mem_cons_self rfl rfl⟩

end Presses

end Smbpal
