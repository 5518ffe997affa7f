import Mathlib.Algebra.Order.Field.Rat
import Mathlib.Tactic.Linarith
import Mathlib.Tactic.NormNum
import Smbpal.Ipc.Client

/-!
# Redialling the Daemon

`agent/link.py`'s `DaemonLink._loop` and `_session`: the agent dials the daemon,
registers, and answers what it is asked until the session ends; then it waits,
and dials again.

The wait is to grow while no session registers, and to be short again after one
that did: a daemon that is restarted is back within a second. The loop sets the
wait back when `_session` returns. But `_session` returns in one case alone, when
the agent is told to stop: it ends with the client's events, and those do not
end, they raise (`session_raises`). So the wait only ever grows, and the agent
whose daemon was restarted a few times in months waits a minute
(`waits_follow_iff`).

What a session meets is given: how the dialling, the registering and the answers
turn out, what the daemon sends, and what ends the stream. The waits are exact.

## Main definitions

* `Meeting`: What a session meets.
* `Meeting.session`: `_session`, and whether it has registered.
* `linkWaits`: The waits of `_loop`.
* `dueWaits`: The waits that follow the last session.

## Theorems

* `session_raises`: A session of an agent that is not told to stop raises.
* `linkWaits_caught`: The waits double, whatever the sessions come to.
* `waits_follow_iff`: When the waits follow the last session.
* `second_restart_waits`: Two restarts, and a wait of a second.
-/

namespace Smbpal

open Lib

/-- `FIRST_RETRY`, in seconds. -/
def firstRetry : Rat := 1 / 2

/-- `LONGEST_RETRY`. -/
def longestRetry : Rat := 60

/-- What a session raises: what the loop catches, and what it does not. -/
inductive LinkError where
  | smbpal
  | os
  | other
  deriving DecidableEq

/-- What a session meets. -/
structure Meeting where
  /-- Making a client, and connecting it. -/
  connect : Except LinkError Unit
  /-- The uid of the listener. -/
  peer : Except LinkError Nat
  trusted : List Nat
  /-- `agent.register`: the events that came before the reply, and what had been
      read after it. -/
  register : Except LinkError (List Json × List UInt8)
  /-- What comes of an answer, by how many there have been before it. -/
  answer : Nat → Json → Except LinkError Unit
  chunks : List Chunk
  /-- What ends the stream; none is an `OSError`. -/
  ended : Option StreamEnd
  /-- The agent is told to stop during the session: when this many events have
      been answered, or later. -/
  stopping : Option Nat
  /-- It is told to stop while it waits. -/
  stopsWaiting : Bool

namespace Meeting

/-- `_stop.is_set()`, after some answers. -/
def isStopped (m : Meeting) (answered : Nat) : Bool :=
  m.stopping.any fun limit => decide (limit ≤ answered)

/-- What `_read_message` raises. -/
def readError (m : Meeting) : Answer → LinkError
  | .unreachable _ => if m.ended = none then .os else .smbpal
  | .unframed => .smbpal
  | _ => .other

/-- Answer the events that came early. -/
def answerEarly (m : Meeting) : Nat → List Json → Except LinkError Nat
  | answered, [] => .ok answered
  | answered, event :: events =>
      match m.answer answered event with
      | .error e => .error e
      | .ok () => answerEarly m (answered + 1) events

section Sessions

variable [JsonText]

/-- `for event in client.events()`, from what is left of the stream. -/
def listen (m : Meeting) (answered : Nat) (buffer : List UInt8) (chunks : List Chunk) :
    Except LinkError Unit :=
  match _h : readMessage (m.ended.getD .closed) buffer chunks with
  | .error answer => .error (m.readError answer)
  | .ok (message, buffer', chunks') =>
      match eventIn message with
      | none => .error .other
      | some false => listen m answered buffer' chunks'
      | some true =>
          if m.isStopped answered then .ok ()
          else
            match m.answer answered message with
            | .error e => .error e
            | .ok () => listen m (answered + 1) buffer' chunks'
termination_by (remaining buffer chunks).length
decreasing_by
  · exact readMessage_length _h
  · exact readMessage_length _h

/-- What is left to do once the daemon has registered the agent. -/
def serve (m : Meeting) (early : List Json) (buffer : List UInt8) : Except LinkError Unit :=
  match m.answerEarly 0 early with
  | .error e => .error e
  | .ok answered => m.listen answered buffer m.chunks

/-- `_session`: whether it registered, and what came of it. -/
def session (m : Meeting) : Bool × Except LinkError Unit :=
  match m.connect with
  | .error e => (false, .error e)
  | .ok () =>
      match m.peer with
      | .error e => (false, .error e)
      | .ok uid =>
          if uid ∉ m.trusted then (false, .error .smbpal)
          else
            match m.register with
            | .error e => (false, .error e)
            | .ok (early, buffer) => (true, m.serve early buffer)

/-- The session registered. -/
def Registers (m : Meeting) : Prop :=
  m.session.1 = true

instance (m : Meeting) : Decidable m.Registers :=
  inferInstanceAs (Decidable (m.session.1 = true))

/-- The loop catches what the session raises. -/
def Caught (m : Meeting) : Prop :=
  m.session.2 ≠ .error .other

/-- The agent is not told to stop. -/
def GoesOn (m : Meeting) : Prop :=
  m.stopping = none ∧ m.stopsWaiting = false

end Sessions

end Meeting

section Waits

variable [JsonText]

/-- The wait that is due after a session, before it is doubled. -/
def waitAfter (delay : Rat) : Except LinkError Unit → Rat
  | .ok () => firstRetry
  | .error _ => delay

/-- `_loop`: the waits between the sessions. -/
def linkWaits (delay : Rat) : List Meeting → List Rat
  | [] => []
  | m :: ms =>
      if m.session.2 = .error .other then []
      else if m.stopping.isSome then []
      else
        let wait := waitAfter delay m.session.2
        wait :: if m.stopsWaiting then [] else linkWaits (min (wait * 2) longestRetry) ms

end Waits

/-- The wait that is due after so many sessions in a row that did not register. -/
def dueWait (failed : Nat) : Rat :=
  min (firstRetry * 2 ^ (failed - 1)) longestRetry

/-- The waits that follow the last session, by which sessions registered. -/
def dueWaits (failed : Nat) : List Bool → List Rat
  | [] => []
  | true :: rest => firstRetry :: dueWaits 0 rest
  | false :: rest => dueWait (failed + 1) :: dueWaits (failed + 1) rest

/-! ### How a session ends -/

section Ends

variable [JsonText] {m : Meeting}

omit [JsonText] in
theorem isStopped_of_goesOn (h : m.GoesOn) (answered : Nat) : m.isStopped answered = false := by
  unfold Meeting.isStopped
  rw [h.1]
  rfl

/-- The client's events do not end: they raise. -/
theorem listen_raises (h : m.GoesOn) (answered : Nat) (buffer : List UInt8)
    (chunks : List Chunk) : ∃ e, m.listen answered buffer chunks = .error e := by
  induction answered, buffer, chunks using Meeting.listen.induct m with
  -- The cases are the ways a turn of the loop ends or goes round.
  | case1 answered buffer chunks answer hread =>
      exact ⟨m.readError answer, by rw [Meeting.listen, hread]⟩
  | case2 answered buffer chunks message buffer' chunks' hread hevent =>
      exact ⟨.other, by rw [Meeting.listen, hread]; dsimp only; rw [hevent]⟩
  | case3 answered buffer chunks message buffer' chunks' hread hevent ih =>
      rcases ih with ⟨e, he⟩
      exact ⟨e, by rw [Meeting.listen, hread]; dsimp only; rw [hevent]; exact he⟩
  | case4 answered buffer chunks message buffer' chunks' hread hevent hstopped =>
      -- Nothing stops an agent that goes on.
      rw [isStopped_of_goesOn h] at hstopped
      exact absurd hstopped Bool.false_ne_true
  | case5 answered buffer chunks message buffer' chunks' hread hevent hnot e hanswer =>
      refine ⟨e, ?_⟩
      rw [Meeting.listen, hread]
      dsimp only
      rw [hevent]
      dsimp only
      rw [if_neg hnot, hanswer]
  | case6 answered buffer chunks message buffer' chunks' hread hevent hnot hanswer ih =>
      rcases ih with ⟨e, he⟩
      refine ⟨e, ?_⟩
      rw [Meeting.listen, hread]
      dsimp only
      rw [hevent]
      dsimp only
      rw [if_neg hnot, hanswer]
      exact he

/-- A session of an agent that is not told to stop raises. -/
theorem session_raises (h : m.GoesOn) : ∃ e, m.session.2 = .error e := by
  unfold Meeting.session
  -- Every way out of a session is an exception, which ends it.
  cases m.connect with
  | error e => exact ⟨e, rfl⟩
  | ok _ =>
      cases m.peer with
      | error e => exact ⟨e, rfl⟩
      | ok uid =>
          dsimp only
          by_cases huid : uid ∉ m.trusted
          · rw [if_pos huid]
            exact ⟨.smbpal, rfl⟩
          · rw [if_neg huid]
            cases m.register with
            | error e => exact ⟨e, rfl⟩
            | ok given =>
                unfold Meeting.serve
                dsimp only
                cases m.answerEarly 0 given.1 with
                | error e => exact ⟨e, rfl⟩
                | ok answered => exact listen_raises h answered given.2 m.chunks

end Ends

/-! ### The waits -/

/-- Waits that double, up to the longest. -/
def doublingWaits (delay : Rat) : Nat → List Rat
  | 0 => []
  | n + 1 => delay :: doublingWaits (min (delay * 2) longestRetry) n

theorem length_dueWaits (failed : Nat) (sessions : List Bool) :
    (dueWaits failed sessions).length = sessions.length := by
  induction sessions generalizing failed with
  | nil => rfl
  | cons registered rest ih =>
      cases registered with
      | true => exact congrArg Nat.succ (ih 0)
      | false => exact congrArg Nat.succ (ih (failed + 1))

theorem dueWait_one : dueWait 1 = firstRetry := by
  unfold dueWait firstRetry longestRetry
  norm_num

/-- One more session that does not register doubles what is due. -/
theorem dueWait_succ (failed : Nat) :
    dueWait (failed + 2) = min (dueWait (failed + 1) * 2) longestRetry := by
  have hpower : firstRetry * 2 ^ (failed + 2 - 1) = firstRetry * 2 ^ (failed + 1 - 1) * 2 := by
    rw [show failed + 2 - 1 = failed + 1 - 1 + 1 by omega, pow_succ, mul_assoc]
  unfold dueWait
  rw [hpower]
  rcases le_total (firstRetry * 2 ^ (failed + 1 - 1)) longestRetry with hle | hge
  · rw [min_eq_left hle]
  · -- both are the longest
    have hpos : (0 : Rat) ≤ longestRetry := by unfold longestRetry; norm_num
    rw [min_eq_right hge, min_eq_right (by linarith), min_eq_right (by linarith)]

/-- After a session that did not register, and another, the wait is longer than
    the first. -/
theorem firstRetry_lt_dueWait (failed : Nat) : firstRetry < dueWait (failed + 2) := by
  have hpower : (1 : Rat) ≤ 2 ^ failed := one_le_pow₀ (by norm_num)
  unfold dueWait
  refine lt_min ?_ ?_
  · rw [show failed + 2 - 1 = failed + 1 by omega, pow_succ]
    unfold firstRetry
    linarith
  · unfold firstRetry longestRetry
    norm_num

/-- If none registers, the waits that double are those that are due. -/
theorem doublingWaits_of_none {sessions : List Bool} (h : ∀ b ∈ sessions, b = false)
    (failed : Nat) :
    doublingWaits (dueWait (failed + 1)) sessions.length = dueWaits failed sessions := by
  induction sessions generalizing failed with
  | nil => rfl
  | cons registered rest ih =>
      have hfirst : registered = false := h registered List.mem_cons_self
      rw [hfirst, List.length_cons]
      change _ :: doublingWaits (min (dueWait (failed + 1) * 2) longestRetry) rest.length = _
      rw [← dueWait_succ, ih fun b hb => h b (List.mem_cons_of_mem _ hb)]
      rfl

/-- If one registers after another that did not, they are not. -/
theorem doublingWaits_ne {sessions : List Bool} (h : true ∈ sessions) (failed : Nat) :
    doublingWaits (dueWait (failed + 2)) sessions.length ≠ dueWaits (failed + 1) sessions := by
  induction sessions generalizing failed with
  | nil => exact absurd h List.not_mem_nil
  | cons registered rest ih =>
      intro heq
      cases registered with
      | true => exact (firstRetry_lt_dueWait failed).ne' (List.cons.inj heq).1
      | false =>
          have hrest : true ∈ rest := (List.mem_cons.mp h).resolve_left Bool.true_eq_false_eq_False
          have htail := (List.cons.inj heq).2
          rw [← dueWait_succ] at htail
          exact ih hrest (failed + 1) htail

/-- The waits that double are those that are due if no session registers, or
    there is only one. -/
theorem doublingWaits_eq_iff (sessions : List Bool) :
    doublingWaits firstRetry sessions.length = dueWaits 0 sessions ↔
      true ∉ sessions ∨ sessions.length ≤ 1 := by
  constructor
  · intro heq
    by_contra hnot
    rw [not_or, not_not] at hnot
    rcases hnot with ⟨hmem, hlong⟩
    cases sessions with
    | nil => exact absurd hmem List.not_mem_nil
    | cons first rest =>
        have hdouble : min (firstRetry * 2) longestRetry = dueWait 2 := by
          rw [dueWait_succ 0, dueWait_one]
        cases first with
        | false =>
            have hrest : true ∈ rest :=
              (List.mem_cons.mp hmem).resolve_left Bool.true_eq_false_eq_False
            have htail := (List.cons.inj heq).2
            rw [hdouble] at htail
            exact doublingWaits_ne hrest 0 htail
        | true =>
            -- the second wait is a second, and is to be the first
            cases rest with
            | nil => exact hlong (le_refl 1)
            | cons second rest =>
                have htail := (List.cons.inj heq).2
                rw [hdouble] at htail
                cases second with
                | true => exact (firstRetry_lt_dueWait 0).ne' (List.cons.inj htail).1
                | false =>
                    have hone := (List.cons.inj htail).1
                    rw [dueWait_one] at hone
                    exact (firstRetry_lt_dueWait 0).ne' hone
  · rintro (hnone | hshort)
    · rw [← doublingWaits_of_none (fun b hb => ?_) 0, dueWait_one]
      cases b with
      | true => exact absurd hb hnone
      | false => rfl
    · cases sessions with
      | nil => rfl
      | cons first rest =>
          have hrest : rest = [] := List.length_eq_zero_iff.mp (by simpa using hshort)
          rw [hrest]
          cases first with
          | true => rfl
          | false => exact congrArg (fun wait => [wait]) dueWait_one.symm

section Follow

variable [JsonText]

/-- The waits double, whatever the sessions come to, as long as the loop catches
    it. -/
theorem linkWaits_caught {ms : List Meeting} (hgo : ∀ m ∈ ms, m.GoesOn)
    (hcaught : ∀ m ∈ ms, m.Caught) (delay : Rat) :
    linkWaits delay ms = doublingWaits delay ms.length := by
  induction ms generalizing delay with
  | nil => rfl
  | cons m ms ih =>
      have hm : m.GoesOn := hgo m List.mem_cons_self
      have hrest := ih (fun d hd => hgo d (List.mem_cons_of_mem m hd))
        fun d hd => hcaught d (List.mem_cons_of_mem m hd)
      rcases session_raises hm with ⟨e, he⟩
      have hwait : waitAfter delay m.session.2 = delay := by rw [he]; rfl
      have hstopping : ¬m.stopping.isSome = true := by rw [hm.1]; exact Bool.false_ne_true
      have hwaiting : ¬m.stopsWaiting = true := by rw [hm.2]; exact Bool.false_ne_true
      rw [linkWaits, if_neg (hcaught m List.mem_cons_self), if_neg hstopping]
      dsimp only
      rw [if_neg hwaiting, hwait, hrest]
      rfl

/-- What the loop does not catch ends it, and there are no more waits. -/
theorem length_linkWaits {ms : List Meeting} {delay : Rat}
    (h : (linkWaits delay ms).length = ms.length) : ∀ m ∈ ms, m.Caught := by
  induction ms generalizing delay with
  | nil => exact fun m hm => absurd hm List.not_mem_nil
  | cons m ms ih =>
      rw [linkWaits] at h
      -- A session that is not caught has no wait, nor has any behind it.
      by_cases hcaught : m.session.2 = .error .other
      · rw [if_pos hcaught] at h
        exact absurd h (Nat.succ_ne_zero _).symm
      · rw [if_neg hcaught] at h
        by_cases hstopping : m.stopping.isSome = true
        · rw [if_pos hstopping] at h
          exact absurd h (Nat.succ_ne_zero _).symm
        · rw [if_neg hstopping] at h
          dsimp only at h
          by_cases hwaiting : m.stopsWaiting = true
          · rw [if_pos hwaiting] at h
            -- Stopped while waiting, it dials no more: this was the last session.
            have hnil : ms = [] := List.length_eq_zero_iff.mp (Nat.succ.inj h).symm
            rw [hnil]
            intro d hd
            rw [List.mem_singleton.mp hd]
            exact hcaught
          · rw [if_neg hwaiting] at h
            intro d hd
            rcases List.mem_cons.mp hd with rfl | hd
            · exact hcaught
            · exact ih (Nat.succ.inj h) d hd

/-- As long as the agent is not told to stop, its waits follow the last session
    exactly if every session ends with an error the loop catches, and none
    registers, or there is only one. -/
theorem waits_follow_iff (ms : List Meeting) (hgo : ∀ m ∈ ms, m.GoesOn) :
    linkWaits firstRetry ms = dueWaits 0 (ms.map fun m => decide m.Registers) ↔
      (∀ m ∈ ms, m.Caught) ∧ ((∀ m ∈ ms, ¬m.Registers) ∨ ms.length ≤ 1) := by
  have hnone : true ∉ ms.map (fun m => decide m.Registers) ↔ ∀ m ∈ ms, ¬m.Registers := by
    rw [List.mem_map, not_exists]
    exact forall_congr' fun m =>
      ⟨fun h hm hregisters => h ⟨hm, decide_eq_true hregisters⟩,
        fun h heq => h heq.1 (of_decide_eq_true heq.2)⟩
  have hiff := doublingWaits_eq_iff (ms.map fun m => decide m.Registers)
  rw [List.length_map, hnone] at hiff
  constructor
  · intro heq
    have hlength := congrArg List.length heq
    rw [length_dueWaits, List.length_map] at hlength
    have hcaught := length_linkWaits hlength
    rw [linkWaits_caught hgo hcaught] at heq
    exact ⟨hcaught, hiff.mp heq⟩
  · rintro ⟨hcaught, hregisters⟩
    rw [linkWaits_caught hgo hcaught]
    exact hiff.mpr hregisters

end Follow

/-! ### Restarts -/

section Restarts

attribute [local instance] JsonText.none

/-- A session with the daemon, which then closes it. -/
def restarted : Meeting where
  connect := .ok ()
  peer := .ok 0
  trusted := [0, 501]
  register := .ok ([], [])
  answer := fun _ _ => .ok ()
  chunks := []
  ended := some .closed
  stopping := none
  stopsWaiting := false

/-- No daemon to dial. -/
def notThere : Meeting :=
  { restarted with connect := .error .smbpal }

theorem restarted_session : restarted.session = (true, .error .smbpal) := by
  have hread : readMessage (restarted.ended.getD .closed) [] [] = .error (.unreachable .closed) :=
    readMessage_none (show takeLine [] = (none, []) from rfl) (Nat.zero_le _) []
  have hlisten : restarted.listen 0 [] [] = .error .smbpal := by
    rw [Meeting.listen, hread]
    rfl
  exact congrArg (Prod.mk true) hlisten

theorem restarted_goesOn : restarted.GoesOn :=
  ⟨rfl, rfl⟩

theorem restarted_registers : restarted.Registers :=
  congrArg Prod.fst restarted_session

theorem restarted_caught : restarted.Caught := by
  unfold Meeting.Caught
  rw [restarted_session]
  decide

/-- The daemon is away for three dials, and the waits double. -/
theorem waits_follow_away :
    linkWaits firstRetry [notThere, notThere, notThere]
      = dueWaits 0 ([notThere, notThere, notThere].map fun m => decide m.Registers) := by
  refine (waits_follow_iff [notThere, notThere, notThere] ?_).mpr ⟨?_, Or.inl ?_⟩
  · exact List.forall_mem_cons.mpr ⟨⟨rfl, rfl⟩, List.forall_mem_cons.mpr ⟨⟨rfl, rfl⟩,
      List.forall_mem_singleton.mpr ⟨rfl, rfl⟩⟩⟩
  · have hcaught : notThere.Caught := by
      unfold Meeting.Caught
      decide
    exact List.forall_mem_cons.mpr ⟨hcaught, List.forall_mem_cons.mpr ⟨hcaught,
      List.forall_mem_singleton.mpr hcaught⟩⟩
  · have hnot : ¬notThere.Registers := Bool.false_ne_true
    exact List.forall_mem_cons.mpr ⟨hnot, List.forall_mem_cons.mpr ⟨hnot,
      List.forall_mem_singleton.mpr hnot⟩⟩

/-- The daemon is restarted twice. The agent waits a second the second time, and
    is to wait half a second. -/
theorem second_restart_waits :
    (∀ m ∈ [restarted, restarted], m.GoesOn ∧ m.Caught ∧ m.Registers) ∧
      linkWaits firstRetry [restarted, restarted] = [1 / 2, 1] ∧
      dueWaits 0 ([restarted, restarted].map fun m => decide m.Registers) = [1 / 2, 1 / 2] := by
  have hall : ∀ m ∈ [restarted, restarted], m = restarted :=
    List.forall_mem_cons.mpr ⟨rfl, List.forall_mem_singleton.mpr rfl⟩
  refine ⟨fun m hm => ?_, ?_, ?_⟩
  · rw [hall m hm]
    exact ⟨restarted_goesOn, restarted_caught, restarted_registers⟩
  · rw [linkWaits_caught (fun m hm => (hall m hm) ▸ restarted_goesOn)
      fun m hm => (hall m hm) ▸ restarted_caught]
    change [firstRetry, min (firstRetry * 2) longestRetry] = [1 / 2, 1]
    unfold firstRetry longestRetry
    norm_num
  · change dueWaits 0 [decide restarted.Registers, decide restarted.Registers] = _
    rw [decide_eq_true restarted_registers]
    rfl

end Restarts

end Smbpal
