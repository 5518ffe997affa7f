import Smbpal.Ipc.Client
import Smbpal.Lib.Run
import Smbpal.Lib.Wire
import Smbpal.Python.Loads
import Mathlib.Logic.Function.Basic

/-!
# The Socket Transport

`UnixSocketTransport` and `UnixSocketConnection` in `ipc/server.py`: the thread that accepts,
a thread for every client, and any number of threads that push events or shut the transport
down, each taking its steps whenever it likes.

A thread is in some phase of the code it runs and has tasks to do before it goes on: a
payload to send, a connection to close, a socket to shut down. A task takes a connection's
write lock, and sending takes as many steps as the kernel takes pieces. Everything else is
done under `_connections_lock` or `_shutdown_lock`, neither of which is held across a call
that waits, so that each such part is one step.

The dispatcher and the monitor are code that may send and broadcast whatever it likes:
`Phase.handler`, `Phase.hook` and `Phase.outside`. What they can send is what `_encode`
makes, one line with its end.

## Main definitions

* `Payload`: A line and its end.
* `Runner`, `Phase`, `Task`: The threads, how far each has come, and what it does next.
* `Desk`: The connections, and how far stopping has come.
* `Desk.Turn`: A thread goes on to its next phase.
* `Transport.Moves`: A step of a thread.

## Theorems

* `Transport.Moves.inv`: A step keeps the locks, the wires and the accounts.
* `lines_on_wire`: Along any run each client is sent whole lines, in order.
* `client_served`: A run in which a client is served, told something and leaves.
-/

namespace Smbpal

open Lib

/-- A line and its end, which is what `_encode` makes of a message. -/
structure Payload where
  line : List UInt8
  one_line : lineFeed ∉ line

/-- `payload: bytes`. -/
def Payload.bytes (m : Payload) : List UInt8 :=
  m.line ++ [lineFeed]

/-- What a message is sent as. -/
def Payload.ofMessage [FloatText] (message : List (Str × Json)) : Payload where
  line := lineOf message
  one_line := lineFeed_not_mem_lineOf message

theorem encodeMessage_payload [FloatText] (message : List (Str × Json)) :
    encodeMessage message = some (Payload.ofMessage message).bytes :=
  encode_message message

/-- The threads: the one that is in `serve_forever`, one for each client accepted, and
    those that broadcast or shut the transport down. A signal handler is no thread of its own:
    it runs on the main thread, which takes no step until it is done. So its steps are those of
    one that shuts the transport down while `main` stands still, and where it waits for a lock
    the main thread has, that run goes no further. -/
inductive Runner where
  | main
  | client (c : Nat)
  | other (n : Nat)
  deriving DecidableEq

/-- How far a thread has come. -/
inductive Phase where
  /-- Before the listener is in the selector. -/
  | register
  /-- `while not self._stopping.is_set()`. -/
  | test
  /-- `selector.select()`. -/
  | select
  /-- `listener.accept()`. -/
  | accept
  /-- A client's thread that is not started. -/
  | unborn
  /-- `peer_credentials(sock)`. -/
  | identify
  /-- Before `self._connections.add(connection)`. -/
  | enlist
  /-- In `read_frames`, with the lines of the buffer that are still to be yielded. -/
  | frames (lines : List (List UInt8))
  /-- In `handler(connection, frame)`, with the lines that come after. -/
  | handler (frame : List UInt8) (lines : List (List UInt8))
  /-- Before `self._connections.discard(connection)`. -/
  | leaving
  /-- Before the disconnect hook. -/
  | left
  /-- In the disconnect hook. -/
  | hook
  /-- In code outside the transport. -/
  | outside
  /-- `shutdown`, before `self._shutdown_done` is looked at. -/
  | shutdown
  /-- `self._stopping.set()`. -/
  | setStopping
  /-- `self._wake_w.send`. -/
  | wake
  /-- `self._listener.close()`. -/
  | closeListener
  /-- `targets = list(self._connections)`. -/
  | sweep
  /-- Before `self.path.unlink(missing_ok=True)`. -/
  | unlink
  | ended
  deriving DecidableEq

/-- What a thread does on a connection. -/
inductive Task where
  /-- `connection.send(payload)`. -/
  | send (c : Nat) (m : Payload)
  /-- `connection.close()`. -/
  | close (c : Nat)
  /-- The second half of it: `shutdown` and `close` of the socket. -/
  | cut (c : Nat)

/-- How far a thread has come, and what it has to do before it goes on. -/
structure Doing where
  phase : Phase
  tasks : List Task

/-- What a transport knows of its connections and of being stopped. -/
structure Desk where
  /-- `_stopping`. -/
  stopping : Bool
  /-- `_shutdown_done`. -/
  shutdownDone : Bool
  /-- The byte in the socket pair. -/
  woken : Bool
  /-- `_listener is not None`. -/
  listening : Bool
  /-- The socket file is there. -/
  socketFile : Bool
  /-- How many clients were accepted. -/
  accepted : Nat
  /-- The clients a `UnixSocketConnection` was made for. -/
  known : List Nat
  /-- `_connections`. -/
  connections : List Nat
  /-- The clients that were ever in it. -/
  joined : List Nat
  /-- The clients the disconnect hook was called for. -/
  told : List Nat
  /-- What `recv` has returned on each connection. -/
  chunks : Nat → List Chunk
  /-- The `buffer` of each connection's `read_frames`. -/
  buffer : Nat → List UInt8
  /-- The frames each connection's handler was called for. -/
  handled : Nat → List (List UInt8)

/-- A transport after `bind`. -/
def Desk.bound : Desk where
  stopping := false
  shutdownDone := false
  woken := false
  listening := true
  socketFile := true
  accepted := 0
  known := []
  connections := []
  joined := []
  told := []
  chunks := fun _ => []
  buffer := fun _ => []
  handled := fun _ => []

/-- A phase whose code may send and broadcast. -/
def Phase.callsBack : Phase → Bool
  | .handler _ _ | .hook | .outside => true
  | _ => false

/-- What comes after `shutdown`: the daemon ends with it. -/
def Runner.afterShutdown : Runner → Phase
  | .main => .ended
  | _ => .outside

/-- `connection.send(payload)` for each of `targets`. -/
def sendAll (targets : List Nat) (m : Payload) : List Task :=
  targets.map fun c => .send c m

/-- A thread without tasks goes on: its phase, what it has to do after it, and what becomes
    of the desk. -/
inductive Desk.Turn (d : Desk) : Runner → Phase → Phase → List Task → Desk → Prop where
  -- the thread in `serve_forever`
  | registered : Turn d .main .register .test [] d
  | registerFails : Turn d .main .register .shutdown [] d
  | testStopping (h : d.stopping = true) : Turn d .main .test .shutdown [] d
  | testGoOn (h : d.stopping = false) : Turn d .main .test .select [] d
  | selectWoken (h : d.woken = true) : Turn d .main .select .shutdown [] d
  | selectFails : Turn d .main .select .shutdown [] d
  | selectReady (h : d.woken = false) : Turn d .main .select .accept [] d
  | acceptNone (h : d.listening = false) : Turn d .main .accept .shutdown [] d
  | acceptFails : Turn d .main .accept .shutdown [] d
  /-- Also where the listener is closed meanwhile: the call may be under way. -/
  | acceptClient : Turn d .main .accept .test [] { d with accepted := d.accepted + 1 }
  -- a client's thread, in `_serve_client`
  | start (c : Nat) (h : c < d.accepted) : Turn d (.client c) .unborn .identify [] d
  | unidentified (c : Nat) : Turn d (.client c) .identify .ended [] d
  | identified (c : Nat) :
      Turn d (.client c) .identify .enlist [] { d with known := c :: d.known }
  | refused (c : Nat) (h : d.stopping = true) :
      Turn d (.client c) .enlist .ended [.close c] d
  | enlisted (c : Nat) (h : d.stopping = false) :
      Turn d (.client c) .enlist (.frames []) []
        { d with connections := c :: d.connections, joined := c :: d.joined }
  | received (c : Nat) (chunk : Chunk)
      (h : (d.buffer c ++ chunk.bytes).length ≤ maxFrameBytes) :
      Turn d (.client c) (.frames [])
        (.frames (visibleLines (framed lineFeed (d.buffer c ++ chunk.bytes)).1)) []
        { d with
          chunks := Function.update d.chunks c (d.chunks c ++ [chunk])
          buffer := Function.update d.buffer c (framed lineFeed (d.buffer c ++ chunk.bytes)).2 }
  | overflowed (c : Nat) (chunk : Chunk)
      (h : maxFrameBytes < (d.buffer c ++ chunk.bytes).length) :
      Turn d (.client c) (.frames []) .leaving []
        { d with chunks := Function.update d.chunks c (d.chunks c ++ [chunk]) }
  /-- The end of the stream, or an error. -/
  | hungUp (c : Nat) : Turn d (.client c) (.frames []) .leaving [] d
  | yielded (c : Nat) (line : List UInt8) (lines : List (List UInt8)) :
      Turn d (.client c) (.frames (line :: lines)) (.handler line lines) []
        { d with handled := Function.update d.handled c (d.handled c ++ [line]) }
  | silent (c : Nat) (line : List UInt8) (lines : List (List UInt8)) :
      Turn d (.client c) (.handler line lines) (.frames lines) [] d
  | replied (c : Nat) (line : List UInt8) (lines : List (List UInt8)) (reply : Payload) :
      Turn d (.client c) (.handler line lines) (.frames lines) [.send c reply] d
  | raised (c : Nat) (line : List UInt8) (lines : List (List UInt8)) :
      Turn d (.client c) (.handler line lines) .leaving [] d
  | discarded (c : Nat) :
      Turn d (.client c) .leaving .left [.close c]
        { d with connections := d.connections.erase c }
  | disconnected (c : Nat) :
      Turn d (.client c) .left .hook [] { d with told := c :: d.told }
  | hookEnds (c : Nat) : Turn d (.client c) .hook .ended [] d
  -- code that has a connection, or the transport
  | sends {t : Runner} {p : Phase} (c : Nat) (m : Payload) (hp : p.callsBack = true)
      (h : c ∈ d.joined) : Turn d t p p [.send c m] d
  | broadcasts {t : Runner} {p : Phase} (m : Payload) (hp : p.callsBack = true) :
      Turn d t p p (sendAll d.connections m) d
  -- `shutdown`
  | shutsDown (n : Nat) : Turn d (.other n) .outside .shutdown [] d
  | shutdownAgain {t : Runner} (h : d.shutdownDone = true) :
      Turn d t .shutdown t.afterShutdown [] d
  | shutdownFirst {t : Runner} (h : d.shutdownDone = false) :
      Turn d t .shutdown .setStopping [] { d with shutdownDone := true }
  | setStopping {t : Runner} : Turn d t .setStopping .wake [] { d with stopping := true }
  | wake {t : Runner} : Turn d t .wake .closeListener [] { d with woken := true }
  | closeListener {t : Runner} :
      Turn d t .closeListener .sweep [] { d with listening := false }
  | sweep {t : Runner} :
      Turn d t .sweep .unlink (d.connections.map Task.close) d
  /-- The threads were waited for, two seconds each at most. -/
  | unlink {t : Runner} :
      Turn d t .unlink t.afterShutdown [] { d with socketFile := false }

/-- A transport, its threads, and what is on the wires. -/
structure Transport where
  desk : Desk
  wires : Nat → Wire Runner Payload.bytes
  /-- The connections whose socket was shut down and closed. -/
  cut : Nat → Bool
  doing : Runner → Doing
  /-- What each thread was given to send on each connection. -/
  given : Runner → Nat → List Payload

/-- What a thread starts with. -/
def Runner.start : Runner → Phase
  | .main => .register
  | .client _ => .unborn
  | .other _ => .outside

/-- `serve_forever` begins. -/
def Transport.bound : Transport where
  desk := Desk.bound
  wires := fun _ => Wire.fresh Payload.bytes
  cut := fun _ => false
  doing := fun t => { phase := t.start, tasks := [] }
  given := fun _ _ => []

/-- What a task sends on a connection. -/
def Task.payloadFor (c : Nat) : Task → Option Payload
  | .send c' m => if c' = c then some m else none
  | _ => none

/-- The payloads that some tasks send on a connection. -/
def toSend (c : Nat) (tasks : List Task) : List Payload :=
  tasks.filterMap (Task.payloadFor c)

namespace Transport

/-- A thread's phase and tasks are set. -/
def set (s : Transport) (t : Runner) (phase : Phase) (tasks : List Task) : Runner → Doing :=
  Function.update s.doing t { phase := phase, tasks := tasks }

/-- A step of a thread. -/
inductive Moves (s : Transport) (t : Runner) : Transport → Prop where
  | sends {p : Phase} {c : Nat} {m : Payload} {tasks : List Task} {last : Bool}
      {wire : Wire Runner Payload.bytes} (h : s.doing t = ⟨p, .send c m :: tasks⟩)
      (hstep : (s.wires c).Send t m last wire) :
      Moves s t { s with
        wires := Function.update s.wires c wire
        doing := s.set t p (if last = true then tasks else .send c m :: tasks) }
  | closes {p : Phase} {c : Nat} {tasks : List Task} (h : s.doing t = ⟨p, .close c :: tasks⟩)
      (free : (s.wires c).holder = none) (hopen : (s.wires c).closed = false) :
      Moves s t { s with
        wires := Function.update s.wires c { s.wires c with closed := true }
        doing := s.set t p (.cut c :: tasks) }
  | closesAgain {p : Phase} {c : Nat} {tasks : List Task}
      (h : s.doing t = ⟨p, .close c :: tasks⟩) (free : (s.wires c).holder = none)
      (hclosed : (s.wires c).closed = true) : Moves s t { s with doing := s.set t p tasks }
  | cuts {p : Phase} {c : Nat} {tasks : List Task} (h : s.doing t = ⟨p, .cut c :: tasks⟩) :
      Moves s t { s with
        cut := Function.update s.cut c true
        doing := s.set t p tasks }
  | turn {p p' : Phase} {tasks : List Task} {desk : Desk} (h : s.doing t = ⟨p, []⟩)
      (hturn : s.desk.Turn t p p' tasks desk) :
      Moves s t { s with
        desk := desk
        doing := s.set t p' tasks
        given := Function.update s.given t fun c => s.given t c ++ toSend c tasks }

/-- A run of the transport. -/
def Reaches (s s' : Transport) : Prop :=
  GuardedRun Moves (fun _ _ => True) s s'

end Transport

section Tasks

theorem toSend_send (c : Nat) (m : Payload) (tasks : List Task) :
    toSend c (.send c m :: tasks) = m :: toSend c tasks :=
  List.filterMap_cons_some (if_pos rfl)

theorem toSend_other {c c' : Nat} (h : c' ≠ c) (m : Payload) (tasks : List Task) :
    toSend c (.send c' m :: tasks) = toSend c tasks :=
  List.filterMap_cons_none (if_neg h)

end Tasks

namespace Transport

variable {s s' : Transport} {t : Runner}

theorem set_self (s : Transport) (t : Runner) (phase : Phase) (tasks : List Task) :
    s.set t phase tasks t = ⟨phase, tasks⟩ :=
  Function.update_self t _ s.doing

theorem set_of_ne {u : Runner} (h : u ≠ t) (s : Transport) (phase : Phase) (tasks : List Task) :
    s.set t phase tasks u = s.doing u :=
  Function.update_of_ne h _ s.doing

/-- The locks, the wires and the accounts: who holds a connection's lock is sending on it,
    whole messages have gone out and at most a part of one more, and what a thread was
    given to send it has sent or has still to send, unless the connection is closed. -/
structure Inv (s : Transport) : Prop where
  held : ∀ c w, (s.wires c).holder = some w →
    ∃ tasks, (s.doing w.writer).tasks = .send c w.message :: tasks
  whole : ∀ c, (s.wires c).Whole
  accounted : ∀ c,
    (s.wires c).Accounted (fun u => s.given u c) fun u => toSend c (s.doing u).tasks

theorem inv_bound : bound.Inv where
  held := fun _ w h => absurd h (Option.some_ne_none w).symm
  whole := fun _ => Wire.whole_fresh
  accounted := fun _ => Wire.accounted_fresh

/-- A task on one connection is no task of sending on another. -/
theorem held_elsewhere (h : s.Inv) {p : Phase} {c c' : Nat} {m : Payload} {tasks : List Task}
    (hdoing : s.doing t = ⟨p, .send c m :: tasks⟩) (hc : c' ≠ c)
    {w : Writing Runner Payload.bytes} (hw : (s.wires c').holder = some w) : w.writer ≠ t := by
  intro hwriter
  rcases h.held c' w hw with ⟨tasks', htasks⟩
  rw [hwriter, hdoing] at htasks
  exact hc (Task.send.inj (List.cons.inj htasks).1).1.symm

/-- A thread whose next task is not to send holds no lock. -/
theorem not_held (h : s.Inv) {p : Phase} {tasks : List Task} (hdoing : s.doing t = ⟨p, tasks⟩)
    (hno : ∀ c m rest, tasks ≠ .send c m :: rest) {c : Nat}
    {w : Writing Runner Payload.bytes} (hw : (s.wires c).holder = some w) : w.writer ≠ t := by
  intro hwriter
  rcases h.held c w hw with ⟨tasks', htasks⟩
  rw [hwriter, hdoing] at htasks
  exact hno c w.message tasks' htasks

/-- A step that leaves the wires alone, and what the thread has to send, keeps the
    invariant. -/
theorem inv_of_tasks (h : s.Inv) {p : Phase} {tasks tasks' : List Task}
    (hdoing : s.doing t = ⟨p, tasks⟩) (hno : ∀ c m rest, tasks ≠ .send c m :: rest)
    (hwires : ∀ c, (s'.wires c).Whole ∧ (∀ w, (s'.wires c).holder = some w →
      (s.wires c).holder = some w) ∧ ∀ given pending,
        (s.wires c).Accounted given pending → (s'.wires c).Accounted given pending)
    (hset : s'.doing = s.set t p tasks')
    (hsame : ∀ c, toSend c tasks' = toSend c tasks) (hgiven : s'.given = s.given) : s'.Inv := by
  refine ⟨fun c w hw => ?_, fun c => (hwires c).1, fun c => ?_⟩
  · -- Whoever holds a lock has something to send, so it is another thread.
    have hold := (hwires c).2.1 w hw
    rw [hset, set_of_ne (not_held h hdoing hno hold)]
    exact h.held c w hold
  · rw [hgiven]
    refine (hwires c).2.2 _ _ ?_
    have hpending : (fun u => toSend c (s'.doing u).tasks) =
        fun u => toSend c (s.doing u).tasks := by
      funext u
      rw [hset]
      by_cases hu : u = t
      · rw [hu, set_self, hdoing]
        exact hsame c
      · rw [set_of_ne hu]
    rw [hpending]
    exact h.accounted c

/-- A step keeps the locks, the wires and the accounts. -/
theorem Moves.inv (hstep : Moves s t s') (h : s.Inv) : s'.Inv := by
  cases hstep with
  | @sends p c m tasks last wire hdoing hsend =>
      refine ⟨fun c' w hw => ?_, fun c' => ?_, fun c' => ?_⟩
      · change (Function.update s.wires c wire c').holder = some w at hw
        by_cases hc : c' = c
        · rw [hc, Function.update_self] at hw
          rcases hsend.holder hw with ⟨rfl, rfl, rfl⟩
          refine ⟨tasks, ?_⟩
          change (s.set w.writer p _ w.writer).tasks = _
          rw [set_self, hc]
          rfl
        · rw [Function.update_of_ne hc] at hw
          change ∃ rest, (s.set t p _ w.writer).tasks = _
          rw [set_of_ne (held_elsewhere h hdoing hc hw)]
          exact h.held c' w hw
      · change (Function.update s.wires c wire c').Whole
        by_cases hc : c' = c
        · rw [hc, Function.update_self]
          exact hsend.whole (h.whole c)
        · rw [Function.update_of_ne hc]
          exact h.whole c'
      · change (Function.update s.wires c wire c').Accounted (fun u => s.given u c')
          fun u => toSend c' (s.set t p _ u).tasks
        by_cases hc : c' = c
        · rw [hc, Function.update_self]
          refine hsend.accounted (h.whole c) (h.accounted c)
            (show _ = m :: toSend c tasks from ?_) ?_ ?_
          · rw [hdoing, toSend_send]
          · rw [set_self]
            cases last with
            | true => rfl
            | false => exact toSend_send c m tasks
          · intro u hu
            rw [set_of_ne hu]
        · rw [Function.update_of_ne hc]
          -- what the thread has to send on another connection is what it was
          have hpending : (fun u => toSend c' (s.set t p
              (if last = true then tasks else .send c m :: tasks) u).tasks) =
              fun u => toSend c' (s.doing u).tasks := by
            funext u
            by_cases hu : u = t
            · rw [hu, set_self, hdoing, toSend_other (Ne.symm hc)]
              cases last with
              | true => rfl
              | false => exact toSend_other (Ne.symm hc) m tasks
            · rw [set_of_ne hu]
          rw [hpending]
          exact h.accounted c'
  | @closes p c tasks hdoing free hopen =>
      have hclose : (s.wires c).Close { s.wires c with closed := true } := .mark free hopen
      refine inv_of_tasks h hdoing (fun _ _ _ heq => ?_) (fun c' => ?_) rfl (fun _ => rfl) rfl
      · exact Task.noConfusion (List.cons.inj heq).1
      · change (Function.update s.wires c _ c').Whole ∧ (∀ w,
          (Function.update s.wires c _ c').holder = some w → _) ∧ ∀ given pending, _ →
            (Function.update s.wires c _ c').Accounted given pending
        by_cases hc : c' = c
        · rw [hc, Function.update_self]
          exact ⟨hclose.whole (h.whole c), fun _ hw => hw, fun _ _ ha => hclose.accounted ha⟩
        · rw [Function.update_of_ne hc]
          exact ⟨h.whole c', fun _ hw => hw, fun _ _ ha => ha⟩
  | @closesAgain p c tasks hdoing _ _ =>
      exact inv_of_tasks h hdoing (fun _ _ _ heq => Task.noConfusion (List.cons.inj heq).1)
        (fun c' => ⟨h.whole c', fun _ hw => hw, fun _ _ ha => ha⟩) rfl (fun _ => rfl) rfl
  | @cuts p c tasks hdoing =>
      exact inv_of_tasks h hdoing (fun _ _ _ heq => Task.noConfusion (List.cons.inj heq).1)
        (fun c' => ⟨h.whole c', fun _ hw => hw, fun _ _ ha => ha⟩) rfl (fun _ => rfl) rfl
  | @turn p p' tasks desk hdoing _ =>
      have hno : ∀ c m rest, ([] : List Task) ≠ .send c m :: rest := fun c m rest heq =>
        List.cons_ne_nil _ _ heq.symm
      refine ⟨fun c w hw => ?_, h.whole, fun c => ?_⟩
      · change ∃ rest, (s.set t p' tasks w.writer).tasks = _
        rw [set_of_ne (not_held h hdoing hno hw)]
        exact h.held c w hw
      · refine (h.accounted c).give fun u => ?_
        change ∃ more, Function.update s.given t _ u c = _ ∧ toSend c (s.set t p' tasks u).tasks = _
        by_cases hu : u = t
        · rw [hu, Function.update_self, set_self, hdoing]
          exact ⟨toSend c tasks, rfl, rfl⟩
        · rw [Function.update_of_ne hu, set_of_ne hu]
          exact ⟨[], (List.append_nil _).symm, (List.append_nil _).symm⟩

theorem Reaches.inv (hrun : Reaches bound s) : s.Inv :=
  GuardedRun.invariant Inv inv_bound (fun _ _ _ h _ hstep => hstep.inv h) hrun

end Transport

/-- A part of a payload has no line feed, unless it is all of it. -/
theorem lineFeed_not_mem_written (w : Writing Runner Payload.bytes) : lineFeed ∉ w.written := by
  by_cases hnil : w.written = []
  · rw [hnil]
    exact List.not_mem_nil
  · -- the line feed is the last byte, and is among those that are left
    rcases List.eq_nil_or_concat w.rest with hrest | ⟨before, last, hrest⟩
    · exact absurd hrest (w.part hnil)
    · have hparts := w.parts
      rw [hrest, List.concat_eq_append, ← List.append_assoc, Payload.bytes] at hparts
      have hline := (List.append_inj' hparts rfl).1
      intro hmem
      exact w.message.one_line (hline ▸ List.mem_append_left before hmem)

/-- What is on a whole wire, cut into lines. -/
theorem framed_wire {wire : Wire Runner Payload.bytes} (h : wire.Whole) :
    framed lineFeed wire.bytes =
      (wire.sent.map (fun x => x.2.line), wire.unfinished) := by
  have hunframed : (wire.sent.flatMap fun x => x.2.bytes) =
      unframed lineFeed (wire.sent.map fun x => x.2.line) := by
    rw [unframed, List.flatMap_map]
    rfl
  have hlines : ∀ line ∈ wire.sent.map (fun x => x.2.line), lineFeed ∉ line := by
    intro line hmem
    rcases List.mem_map.mp hmem with ⟨x, -, rfl⟩
    exact x.2.one_line
  have hrest : lineFeed ∉ wire.unfinished := by
    unfold Wire.unfinished
    cases wire.holder with
    | some w => exact lineFeed_not_mem_written w
    | none =>
        cases wire.torn with
        | some w => exact lineFeed_not_mem_written w
        | none => exact List.not_mem_nil
  rw [h.bytes, hunframed, framed_unframed hlines, framed_of_not_mem hrest, List.append_nil]

/-- Whatever order the threads take their steps in, and however the kernel takes what they
    send, what a client has been sent is whole lines, those of the messages that were
    finished, in the order their senders had the lock. A part of one more follows only while
    its sender has the lock, or if sending it failed. And what a thread was given to send to
    a client it has sent, in that order, or still has to, as long as the connection is not
    closed. -/
theorem lines_on_wire {s : Transport} (hrun : Transport.bound.Reaches s) (c : Nat) :
    framed lineFeed (s.wires c).bytes =
      ((s.wires c).sent.map (fun x => x.2.line), (s.wires c).unfinished) ∧
    ((s.wires c).unfinished ≠ [] →
      (s.wires c).holder.isSome = true ∨
        (s.wires c).torn.isSome = true ∧ (s.wires c).closed = true) ∧
    ∀ t, ∃ lost,
      s.given t c = (s.wires c).sentBy t ++ lost ++ toSend c (s.doing t).tasks ∧
      ((s.wires c).closed = false → lost = []) := by
  have hinv := Transport.Reaches.inv hrun
  refine ⟨framed_wire (hinv.whole c), fun hsome => ?_, fun t => hinv.accounted c t⟩
  cases hholder : (s.wires c).holder with
  | some w => exact Or.inl rfl
  | none =>
      cases htorn : (s.wires c).torn with
      | some w => exact Or.inr ⟨rfl, (hinv.whole c).closed (by rw [htorn]; rfl)⟩
      | none => exact absurd (Wire.unfinished_none hholder htorn) hsome

section Told

attribute [local instance] FloatRead.none

/-- `{}`, as an answer. -/
def emptyPayload : Payload :=
  Payload.ofMessage []

/-- The first byte of `[]`. -/
def firstChunk : Chunk where
  bytes := [91]
  some_byte := List.cons_ne_nil _ _
  short := by decide

/-- The rest of its line, and another line. -/
def secondChunk : Chunk where
  bytes := [93, 10, 48, 10]
  some_byte := List.cons_ne_nil _ _
  short := by decide

/-- A client sends two lines in two chunks. The first is answered in two pieces, and an event
    waits for the lock meanwhile; the second is not answered. Then the client hangs up. -/
theorem client_served : ∃ held waiting gone : Transport,
    (Transport.bound.Reaches held ∧ (held.wires 0).holder.isSome = true ∧
      (held.wires 0).sent = [] ∧ (held.wires 0).unfinished = [123] ∧
      (held.doing (.other 0)).tasks = [.send 0 emptyPayload]) ∧
    (Transport.bound.Reaches waiting ∧ (waiting.doing (.client 0)).phase = .frames [] ∧
      waiting.desk.chunks 0 = [firstChunk, secondChunk] ∧
      (waiting.wires 0).sent = [(.client 0, emptyPayload), (.other 0, emptyPayload)]) ∧
    Transport.bound.Reaches gone ∧ (gone.doing (.client 0)).phase = .ended ∧
      gone.desk.told = [0] := by
  have hstart : GuardedRun Transport.Moves (fun _ _ => True) Transport.bound Transport.bound :=
    GuardedRun.start
  have haccepted := ((hstart.next .main trivial (.turn rfl .registered)).next .main trivial
    (.turn rfl (.testGoOn rfl))).next .main trivial (.turn rfl (.selectReady rfl))
  have henlisted := ((((haccepted.next .main trivial (.turn rfl .acceptClient)).next
    (.client 0) trivial (.turn rfl (.start 0 Nat.one_pos))).next (.client 0) trivial
    (.turn rfl (.identified 0))).next (.client 0) trivial (.turn rfl (.enlisted 0 rfl)))
  have hreceived := (henlisted.next (.client 0) trivial
    (.turn rfl (.received 0 firstChunk (by decide)))).next (.client 0) trivial
    (.turn rfl (.received 0 secondChunk (by decide)))
  -- the first line is answered, and an event comes in between
  have hanswering := (((hreceived.next (.client 0) trivial
    (.turn rfl (.yielded 0 [91, 93] [[48]]))).next (.client 0) trivial
    (.turn rfl (.replied 0 [91, 93] [[48]] emptyPayload))).next (.client 0) trivial
    (.sends rfl (.acquire rfl rfl))).next (.other 0) trivial
    (.turn rfl (.broadcasts emptyPayload rfl))
  have hpart : 1 < emptyPayload.bytes.length := by decide
  have hheld := hanswering.next (.client 0) trivial
    (.sends rfl (.write (Writing.begun Payload.bytes (Runner.client 0) emptyPayload) rfl rfl rfl
      1 Nat.one_pos hpart))
  have hreplied := hheld.next (.client 0) trivial
    (.sends (c := 0) (m := emptyPayload) rfl (.finish _ rfl rfl rfl))
  have hanswered := (hreplied.next (.other 0) trivial
    (.sends (c := 0) (m := emptyPayload) rfl (.acquire rfl rfl))).next (.other 0) trivial
    (.sends (c := 0) (m := emptyPayload) rfl
      (.finish (Writing.begun Payload.bytes (Runner.other 0) emptyPayload) rfl rfl rfl))
  have hwaiting := (hanswered.next (.client 0) trivial
    (.turn rfl (.yielded 0 [48] []))).next (.client 0) trivial (.turn rfl (.silent 0 [48] []))
  have hleft := (((hwaiting.next (.client 0) trivial (.turn rfl (.hungUp 0))).next (.client 0)
    trivial (.turn rfl (.discarded 0))).next (.client 0) trivial
    (.closes rfl rfl rfl)).next (.client 0) trivial (.cuts rfl)
  have hgone := (hleft.next (.client 0) trivial (.turn rfl (.disconnected 0))).next (.client 0)
    trivial (.turn rfl (.hookEnds 0))
  exact ⟨_, _, _, ⟨hheld, rfl, rfl, rfl, rfl⟩, ⟨hwaiting, rfl, rfl, rfl⟩, hgone, rfl, rfl⟩

/-- What is sent is a message, a part of it while its sender has the lock and all of it in
    the end. -/
theorem lines_on_wire_told : encodeMessage [] = some emptyPayload.bytes ∧
    ∃ held waiting : Transport,
      ((held.wires 0).holder.isSome = true ∧ framed lineFeed (held.wires 0).bytes = ([], [123])) ∧
      (waiting.wires 0).sent = [(.client 0, emptyPayload), (.other 0, emptyPayload)] ∧
      (framed lineFeed (waiting.wires 0).bytes).1 = [emptyPayload.line, emptyPayload.line] := by
  refine ⟨encodeMessage_payload [], ?_⟩
  rcases client_served with
    ⟨held, waiting, -, ⟨hheld, hholder, hnone, hpart, -⟩, ⟨hwaiting, -, -, hsent⟩, -⟩
  refine ⟨held, waiting, ⟨hholder, ?_⟩, hsent, ?_⟩
  · rw [(lines_on_wire hheld 0).1, hnone, hpart]
    rfl
  · rw [(lines_on_wire hwaiting 0).1, hsent]
    rfl

end Told

end Smbpal
