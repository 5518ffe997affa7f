import Smbpal.Lib.Mirror
import Smbpal.State.Eject
import Smbpal.State.Words

/-!
# A Listener's Picture

A client takes `connection.watch` once and then listens: `state.changed` has a connection's row,
and `connection.removed` says that one is gone. It is to have, after each poll, the rows
`connection.watch` would return then.

The events are sent for states whose words are not as before, and the rows have more than the
words say (`words_tell_iff`). So the picture stays right as long as no poll reads one of the two
things the words do not tell. The rest is about connections without an id, which the schema lets
be: two of them have one row, which is the last one's, while the events are for each; and when
one is gone together with another connection, the ids that are gone have no order, and none of
them is told (`Orderly`).

The client may take its picture at any moment, also between two steps of a poll, and so may a
connection be forgotten. What is sent reaches the client in order.

## Main definitions

* `WireRow`, `rowsOf`: `to_wire`, and the rows of `connection.watch`.
* `Listening`, `ListenStep`: The monitor and a client, and what happens to them.
* `MayRead`: What a turn may read, from the worlds there are.
* `Orderly`: A poll after which the picture is right if it was so before.

## Theorems

* `yields_stateOf`: A turn derives a state from something it may have read.
* `poll_sound`: A poll keeps the picture right.
* `picture_kept`: So does a run.
* `flip_untold`: A poll that finds the mount read-only, and tells nobody.
-/

namespace Smbpal

open Lib Program

/-- The state is one of `PROBLEM_STATES`. -/
def StateWord.isProblem : StateWord → Bool
  | .unreachable | .unresolved | .authFailed | .failed => true
  | _ => false

/-- What a client is told about a connection. -/
structure WireRow where
  id : Option Str
  state : StateWord
  message : Str
  errno : Option Nat
  retryable : Bool
  readOnly : Bool
  isProblem : Bool
  deriving DecidableEq

/-- `to_wire`. -/
def ConnectionState.toWire (state : ConnectionState) : WireRow where
  id := state.id
  state := state.state
  message := state.message
  errno := state.errno
  retryable := state.retryable
  readOnly := state.readOnly
  isProblem := state.state.isProblem

/-- A row for each id, or none. -/
abbrev Picture := Option Str → Option WireRow

/-- `connection.watch`, by id. -/
def rowsOf (states : List ConnectionState) : Picture := fun id =>
  (states.find? fun state => decide (state.id = id)).map ConnectionState.toWire

/-- `fallback_hint`. -/
def fallbackHint (c : Connection) (state : ConnectionState) : Option Str :=
  match truthy c.fallbackHost with
  | none => none
  | some fallback =>
      if state.state ≠ .unresolved then none
      else some (fallback ++ str " was recorded as a fallback when this connection was added. " ++
        str ("It may since have been reassigned to another machine, so SMBPal will not switch " ++
          "on its own — run `smbpal connection use-fallback ") ++ pyStr c.id ++
        str "` if you are sure it is still the right host.")

/-- What `state.changed` carries. -/
structure StatePayload where
  row : WireRow
  previous : Option StateWord
  mountpoint : Option Str
  hint : Option Str

/-- The payload `_emit` makes. -/
def statePayload (previous : Option ConnectionState) (state : ConnectionState)
    (connection : Option Connection) : StatePayload where
  row := state.toWire
  previous := previous.map ConnectionState.state
  mountpoint := connection.bind Connection.mountpoint
  hint := connection.bind fun c => fallbackHint c state

/-- What a step sends, as the client takes it: a row in place of another, or no row. -/
def MonitorOp.sends : MonitorOp → List (RowChange (Option Str) WireRow)
  | .emit previous state connection =>
      let payload := statePayload previous state connection
      [(payload.row.id, some payload.row)]
  | .pushRemoved id => [(id, none)]
  | _ => []

/-- The monitor, and the picture of a client that has taken one. -/
structure Listening where
  watched : Watched
  picture : Option Picture

/-- What happens between two steps. -/
inductive BetweenSteps where
  | forget (id : Option Str)
  /-- The client takes `connection.watch`, if it has not. -/
  | watch

/-- What it does. -/
def Listening.act (s : Listening) : BetweenSteps → Listening
  | .forget id => { s with watched := { s.watched with memory := s.watched.memory.forget id } }
  | .watch => { s with picture := s.picture.or (some (rowsOf s.watched.memory.states)) }

/-- A step of a poll, answered by one of these worlds, after whatever happened before it. -/
def listeningMachine (W : World → Prop) : Machine monitorSig Listening :=
  fun op s ans s' => ∃ w acts, W w ∧
    w.serve op (List.foldl Listening.act s acts).watched = (ans, s'.watched) ∧
    s'.picture = (List.foldl Listening.act s acts).picture.map (hear op.sends)

section Conditions

variable [Unicode] [Decimals]

/-- A world as the code finds it: a broadcast raises nothing, systemd shows an exit status as a
    number, and the store has no other configs than valid ones. -/
structure World.Documented (w : World) : Prop where
  push : w.push = .ok ()
  status : ∀ unit shown, w.unitShow unit = .ok shown →
    shown.execMainStatus.all isDigit = true
  config : ∀ config, w.config = .ok config → config.Valid

/-- What a turn may read of a connection, from these worlds. -/
structure MayRead (W : World → Prop) (c : Connection) (r : Reading) : Prop where
  occupiedBy : ∃ w mountpoint, W w ∧ c.mountpoint = some mountpoint ∧
    r.occupiedBy = (intruderIn w.table c mountpoint).map describeIntruder
  mounted : ∃ w mountpoint, W w ∧ c.mountpoint = some mountpoint ∧
    r.mounted = isMountedIn w.table mountpoint
  armed : ∃ w mountpoint, W w ∧ c.mountpoint = some mountpoint ∧
    r.armed = isArmedIn w.table mountpoint
  unit : ∀ unit, r.unit = some unit → ∃ w names, W w ∧ namesOf c = .ok names ∧
    w.unitShow names.1 = .ok unit
  cause : ∀ cause, r.cause = some cause → ∃ w names text, W w ∧ namesOf c = .ok names ∧
    w.journal names.1 = .ok text ∧ translateJournal text = some cause
  readOnly : ∀ readOnly, r.readOnly = some readOnly → ∃ w mountpoint, W w ∧
    c.mountpoint = some mountpoint ∧ isReadOnlyIn w.table mountpoint = some readOnly
  answering : ∃ w, W w ∧
    mountedAnswering c.host w.servers (r.mounted.getD false) = .ok r.serverAnswering

/-- The last of a config's connections without an id. -/
def lastNameless (config : Config) : Option Connection :=
  (config.connections.filter fun c => decide (c.id = none)).getLast?

/-- No connection's mount becomes read-only, or writable, while its server does not answer, and
    no number stands in for the other that says that there is no such share. Of several
    connections without an id, the last reads otherwise than before if one does. And where the
    connection without an id is gone, no other is. -/
structure Orderly (s : Listening) (W : World → Prop) : Prop where
  told : ∀ w config c before r, W w → w.config = .ok config → c ∈ config.connections →
    s.watched.memory.stateFor c.id = some before → MayRead W c r →
    ¬FlipsReadOnly before c r ∧ ¬OtherErrno before c r
  nameless : ∀ w config c last before r r', W w → w.config = .ok config →
    c ∈ config.connections → c.id = none → lastNameless config = some last →
    s.watched.memory.stateFor none = some before → MayRead W c r → MayRead W last r' →
    differs before (r.state c) = true → differs before (r'.state last) = true
  gone : ∀ w config, W w → w.config = .ok config →
    none ∈ s.watched.memory.states.map ConnectionState.id →
    none ∉ config.connections.map Connection.id →
    ∀ id ∈ s.watched.memory.states.map ConnectionState.id,
      id = none ∨ id ∈ config.connections.map Connection.id

end Conditions

/-! ### The states a poll collects -/

section Dict

variable {states current : List ConnectionState} {state : ConnectionState} {id : Option Str}

theorem setById_id (state other : ConnectionState) :
    (if other.id = state.id then state else other).id = other.id := by
  by_cases hother : other.id = state.id
  · rw [if_pos hother, hother]
  · rw [if_neg hother]

/-- What is found under an id once one more is set. -/
theorem find_setById (current : List ConnectionState) (state : ConnectionState)
    (id : Option Str) :
    (setById current state).find? (fun s => decide (s.id = id)) =
      if state.id = id then some state else current.find? fun s => decide (s.id = id) := by
  unfold setById
  -- The row is replaced where it stands, else it is put last.
  by_cases hany : (current.any fun other => decide (other.id = state.id)) = true
  · rw [if_pos hany, List.find?_map]
    have hids : (fun s : ConnectionState => decide (s.id = id)) ∘
        (fun other => if other.id = state.id then state else other) =
          fun s => decide (s.id = id) := by
      funext other
      exact congrArg (fun other : Option Str => decide (other = id)) (setById_id state other)
    rw [hids]
    by_cases hid : state.id = id
    · rw [if_pos hid]
      have hfound : (current.find? fun s => decide (s.id = id)).isSome = true := by
        rw [List.find?_isSome]
        rcases List.any_eq_true.mp hany with ⟨other, hother, heq⟩
        exact ⟨other, hother, decide_eq_true ((of_decide_eq_true heq).trans hid)⟩
      rcases Option.isSome_iff_exists.mp hfound with ⟨other, hother⟩
      have heq : other.id = id := of_decide_eq_true
        (List.find?_some (p := fun s : ConnectionState => decide (s.id = id)) hother)
      rw [hother, Option.map_some, if_pos (heq.trans hid.symm)]
    · rw [if_neg hid]
      cases hother : current.find? fun s => decide (s.id = id) with
      | none => rfl
      | some other =>
          have heq : other.id = id := of_decide_eq_true
            (List.find?_some (p := fun s : ConnectionState => decide (s.id = id)) hother)
          rw [Option.map_some, if_neg fun h => hid (h.symm.trans heq)]
  · rw [if_neg hany, List.find?_append]
    by_cases hid : state.id = id
    · have hnone : (current.find? fun s => decide (s.id = id)) = none := by
        rw [List.find?_eq_none]
        intro other hother heq
        refine hany (List.any_eq_true.mpr ⟨other, hother, ?_⟩)
        exact decide_eq_true ((of_decide_eq_true heq).trans hid.symm)
      rw [if_pos hid, hnone, Option.none_or, List.find?_singleton, if_pos (decide_eq_true hid)]
    · rw [if_neg hid, List.find?_singleton,
        if_neg fun h => hid (of_decide_eq_true h), Option.or_none]

/-- Under each id a dict has the last state that was set. -/
theorem find_dict (seen current : List ConnectionState) (id : Option Str) :
    (seen.foldl setById current).find? (fun s => decide (s.id = id)) =
      (seen.filter fun s => decide (s.id = id)).getLast?.or
        (current.find? fun s => decide (s.id = id)) := by
  induction seen generalizing current with
  | nil => rfl
  | cons state seen ih =>
      rw [List.foldl_cons, ih, find_setById, List.filter_cons]
      by_cases hid : state.id = id
      · rw [if_pos hid, if_pos (decide_eq_true hid), List.getLast?_cons]
        cases (seen.filter fun s => decide (s.id = id)).getLast? with
        | none => rfl
        | some last => rfl
      · rw [if_neg hid, if_neg fun h => hid (of_decide_eq_true h)]

theorem mem_of_mem_setById {other : ConnectionState} (h : other ∈ setById current state) :
    other = state ∨ other ∈ current := by
  unfold setById at h
  split at h
  · rcases List.mem_map.mp h with ⟨found, hfound, rfl⟩
    by_cases hid : found.id = state.id
    · rw [if_pos hid]
      exact Or.inl rfl
    · rw [if_neg hid]
      exact Or.inr hfound
  · rcases List.mem_append.mp h with h | h
    · exact Or.inr h
    · exact Or.inl (List.mem_singleton.mp h)

/-- A dict has no other states than those that were set. -/
theorem mem_of_mem_dict {seen : List ConnectionState}
    (h : state ∈ seen.foldl setById current) : state ∈ seen ∨ state ∈ current := by
  induction seen generalizing current with
  | nil => exact Or.inr h
  | cons first seen ih =>
      rcases ih h with hseen | hset
      · exact Or.inl (List.mem_cons_of_mem first hseen)
      · rcases mem_of_mem_setById hset with rfl | hcurrent
        · exact Or.inl List.mem_cons_self
        · exact Or.inr hcurrent

theorem nodup_setById (h : (current.map ConnectionState.id).Nodup) (state : ConnectionState) :
    ((setById current state).map ConnectionState.id).Nodup := by
  unfold setById
  by_cases hany : (current.any fun other => decide (other.id = state.id)) = true
  · rw [if_pos hany, List.map_map]
    have hids : ConnectionState.id ∘ (fun other : ConnectionState =>
        if other.id = state.id then state else other) = ConnectionState.id := by
      exact funext fun other => setById_id state other
    rw [hids]
    exact h
  · rw [if_neg hany, List.map_append, List.map_singleton, List.nodup_append]
    refine ⟨h, List.nodup_singleton _, ?_⟩
    intro id hid other hother heq
    rcases List.mem_map.mp hid with ⟨found, hfound, rfl⟩
    rw [List.mem_singleton] at hother
    exact hany (List.any_eq_true.mpr ⟨found, hfound, decide_eq_true (heq.trans hother)⟩)

theorem nodup_dict (seen : List ConnectionState) (h : (current.map ConnectionState.id).Nodup) :
    ((seen.foldl setById current).map ConnectionState.id).Nodup := by
  induction seen generalizing current with
  | nil => exact h
  | cons state seen ih => exact ih (nodup_setById h state)

end Dict

/-! ### What a turn reads -/

section Turns

variable {W : World → Prop} {S : List ConnectionState} {s s' : Listening}

/-- Until a poll replaces the states, they are these, and a client's picture is of them. -/
structure Listening.Shows (S : List ConnectionState) (s : Listening) : Prop where
  states : s.watched.memory.states = S
  picture : ∀ p, s.picture = some p → p = rowsOf S

theorem Listening.Shows.act (h : s.Shows S) (e : BetweenSteps) : (s.act e).Shows S := by
  cases e with
  | forget id => exact ⟨h.states, h.picture⟩
  | watch =>
      refine ⟨h.states, fun p hp => ?_⟩
      change s.picture.or (some (rowsOf s.watched.memory.states)) = some p at hp
      cases hpicture : s.picture with
      | some taken =>
          rw [hpicture, Option.some_or] at hp
          exact h.picture p (hpicture.trans hp)
      | none =>
          rw [hpicture, Option.none_or, h.states] at hp
          exact (Option.some.inj hp).symm

theorem Listening.Shows.acts (h : s.Shows S) (acts : List BetweenSteps) :
    (List.foldl Listening.act s acts).Shows S := by
  induction acts generalizing s with
  | nil => exact h
  | cons e acts ih => exact ih (h.act e)

/-- A step that neither replaces the states nor sends anything. -/
def MonitorOp.IsQuiet : MonitorOp → Prop
  | .replaceStates _ | .emit _ _ _ | .pushRemoved _ => False
  | _ => True

theorem MonitorOp.Primes.isQuiet {id : Option Str} {op : MonitorOp} (h : op.Primes id) :
    op.IsQuiet := by
  cases op with
  | replaceStates => exact h.elim
  | emit => exact h.elim
  | pushRemoved => exact h.elim
  | _ => trivial

/-- Such a step keeps the states and the picture, and is answered by one of the worlds. -/
theorem quiet_step {op : MonitorOp} {ans : Except Exc op.Value} (hop : op.IsQuiet)
    (h : s.Shows S) (hstep : listeningMachine W op s ans s') :
    s'.Shows S ∧ ∃ w t, W w ∧ t.memory.states = S ∧ (w.serve op t).1 = ans := by
  rcases hstep with ⟨w, acts, hw, hserve, hpicture⟩
  have hafter := h.acts acts
  refine ⟨⟨?_, fun p hp => ?_⟩, w, _, hw, hafter.states, congrArg Prod.fst hserve⟩
  · -- Only replacing the states changes them.
    have hwatched : s'.watched = (w.serve op (List.foldl Listening.act s acts).watched).2 :=
      (congrArg Prod.snd hserve).symm
    rw [hwatched, ← hafter.states]
    cases op with
    | replaceStates => exact hop.elim
    | _ => rfl
  · -- Only the two pushes send something.
    have hsends : op.sends = [] := by
      cases op with
      | emit => exact hop.elim
      | pushRemoved => exact hop.elim
      | _ => rfl
    rw [hsends] at hpicture
    rw [hpicture] at hp
    rcases Option.map_eq_some_iff.mp hp with ⟨taken, htaken, rfl⟩
    exact hafter.picture taken htaken

/-- A quiet step returns what one of the worlds says. -/
theorem yields_quiet (op : MonitorOp) (hop : op.IsQuiet) :
    Yields (listeningMachine W) (Listening.Shows S)
      (fun v => ∃ w t, W w ∧ t.memory.states = S ∧ (w.serve op t).1 = .ok v) (take op) := by
  refine yields_ask fun s ans s' hs hstep => ?_
  rcases quiet_step hop hs hstep with ⟨hs', w, t, hw, ht, hans⟩
  exact ⟨hs', fun v hv => ⟨w, t, hw, ht, hans.trans hv⟩⟩

theorem ok_of_mapError {α : Type} {r : Except SmbpalError α} {a : α}
    (h : r.mapError Exc.smbpal = .ok a) : r = .ok a := by
  cases r with
  | ok b => exact congrArg Except.ok (Except.ok.inj h)
  | error e => cases h

/-- Quiet steps keep the states and the picture. -/
theorem yields_performs {α : Type} {p : MonitorM α}
    (hp : Performs (S := monitorSig) MonitorOp.IsQuiet p) :
    Yields (listeningMachine W) (Listening.Shows S) (fun _ => True) p :=
  yields_of_footprint hp fun _ _ _ _ hop hs hstep => (quiet_step hop hs hstep).1

theorem yields_takeOr {α : Type} {R : α → Prop} {p otherwise : MonitorM α}
    (hp : Yields (listeningMachine W) (Listening.Shows S) R p)
    (ho : Yields (listeningMachine W) (Listening.Shows S) R otherwise) :
    Yields (listeningMachine W) (Listening.Shows S) R (takeOr p otherwise) := by
  refine yields_tryCatch hp fun e => ?_
  by_cases he : e.isSmbpal = true
  · rw [if_pos he]
    exact ho
  · rw [if_neg he]
    exact yields_throw e

variable [Unicode] [Decimals]

/-- A turn derives a state from something it may have read. -/
theorem yields_stateOf (c : Connection) {servers : List (Str × Bool)}
    (hservers : ∃ w, W w ∧ w.servers = servers) :
    Yields (listeningMachine W) (Listening.Shows S)
      (fun state => ∃ r, MayRead W c r ∧ state = r.state c) (stateOf c servers) := by
  -- The mount table is read three times, and each time may be another table.
  have htable : Yields (listeningMachine W) (Listening.Shows S)
      (fun table => ∃ w, W w ∧ w.table = table) (take .mountTable) := by
    refine yields_mono (yields_quiet .mountTable trivial) ?_
    rintro table ⟨w, t, hw, -, hanswer⟩
    exact ⟨w, hw, Except.ok.inj hanswer⟩
  unfold stateOf
  refine yields_bind (yields_fromExcept fun names hnames => hnames) fun names hnames => ?_
  refine yields_bind (yields_fromExcept fun point hpoint => hpoint) fun mountpoint hpoint => ?_
  have hmountpoint : c.mountpoint = some mountpoint := by
    unfold mountpointOf at hpoint
    cases hsome : c.mountpoint with
    | none =>
        rw [hsome] at hpoint
        cases hpoint
    | some other =>
        rw [hsome] at hpoint
        exact congrArg some (Except.ok.inj hpoint)
  refine yields_bind htable fun occupied hoccupied => ?_
  refine yields_bind htable fun mounts hmounts => ?_
  refine yields_bind htable fun triggers htriggers => ?_
  refine yields_bind (R := fun unit => ∀ shown, unit = some shown →
      ∃ w, W w ∧ w.unitShow names.1 = .ok shown) ?_ fun unit hunit => ?_
  · refine yields_takeOr (yields_bind (yields_quiet (.unitShow names.1) trivial) ?_)
      (yields_pure fun shown h => by cases h)
    rintro shown ⟨w, t, hw, -, hanswer⟩
    refine yields_pure fun other hother => ⟨w, hw, ?_⟩
    rw [← Option.some.inj hother]
    exact ok_of_mapError hanswer
  refine yields_bind (R := fun cause => ∀ known, cause = some known →
      ∃ w text, W w ∧ w.journal names.1 = .ok text ∧ translateJournal text = some known) ?_
      fun cause hcause => ?_
  · unfold failureCause
    split
    · refine yields_takeOr (yields_bind (yields_quiet (.journal names.1) trivial) ?_)
        (yields_pure fun known h => by cases h)
      rintro text ⟨w, t, hw, -, hanswer⟩
      exact yields_pure fun known hknown => ⟨w, text, hw, ok_of_mapError hanswer, hknown⟩
    · exact yields_pure fun known h => by cases h
  refine yields_bind (R := fun readOnly => ∀ flag, readOnly = some flag →
      ∃ w, W w ∧ isReadOnlyIn w.table mountpoint = some flag) ?_ fun readOnly hreadOnly => ?_
  · unfold mountedReadOnly
    split
    · refine yields_bind htable fun table htable' => yields_pure fun flag hflag => ?_
      rcases htable' with ⟨w, hw, rfl⟩
      exact ⟨w, hw, hflag⟩
    · exact yields_pure fun flag h => by cases h
  refine yields_bind (yields_fromExcept fun answering hanswering => hanswering)
    fun answering hanswering => ?_
  -- The readings are put together, each with the world it was read in.
  rcases hoccupied with ⟨w₁, hw₁, rfl⟩
  rcases hmounts with ⟨w₂, hw₂, rfl⟩
  rcases htriggers with ⟨w₃, hw₃, rfl⟩
  rcases hservers with ⟨w₄, hw₄, rfl⟩
  refine yields_pure ⟨⟨isMountedIn w₂.table mountpoint, unit, cause,
    isArmedIn w₃.table mountpoint, readOnly,
    (intruderIn w₁.table c mountpoint).map describeIntruder, answering⟩, ?_, rfl⟩
  refine ⟨⟨w₁, mountpoint, hw₁, hmountpoint, rfl⟩, ⟨w₂, mountpoint, hw₂, hmountpoint, rfl⟩,
    ⟨w₃, mountpoint, hw₃, hmountpoint, rfl⟩, fun shown hshown => ?_, fun known hknown => ?_,
    fun flag hflag => ?_, ⟨w₄, hw₄, hanswering⟩⟩
  · rcases hunit shown hshown with ⟨w, hw, hanswer⟩
    exact ⟨w, names, hw, hnames, hanswer⟩
  · rcases hcause known hknown with ⟨w, text, hw, hanswer, htranslate⟩
    exact ⟨w, names, text, hw, hnames, hanswer, htranslate⟩
  · rcases hreadOnly flag hflag with ⟨w, hw, hanswer⟩
    exact ⟨w, mountpoint, hw, hmountpoint, hanswer⟩

/-- What a turn returns: a state it derived from something it may have read, and that it is to
    be told of, unless its words are as before. -/
structure Turned (W : World → Prop) (S : List ConnectionState) (c : Connection)
    (seen : ConnectionState × List Change) : Prop where
  read : ∃ r, MayRead W c r ∧ seen.1 = r.state c
  told : seen.2 = changesOf seen.1 (S.find? fun s => decide (s.id = seen.1.id))

theorem yields_visit (prime : Bool) (c : Connection) {servers : List (Str × Bool)}
    (hservers : ∃ w, W w ∧ w.servers = servers) :
    Yields (listeningMachine W) (Listening.Shows S) (Turned W S c) (visit prime servers c) := by
  unfold visit
  refine yields_bind (yields_stateOf c hservers) fun state hstate => ?_
  have hprime : Yields (listeningMachine W) (Listening.Shows S) (fun _ => True)
      (primeIf prime c state) := by
    cases prime with
    | false => exact yields_pure trivial
    | true =>
        exact yields_performs (footprint_mono (performs_priming c state)
          (fun _ hop => hop.isQuiet) fun _ _ => trivial)
  refine yields_bind hprime fun _ _ => ?_
  refine yields_bind (yields_quiet (.previousState state.id) trivial) ?_
  rintro previous ⟨w, t, hw, ht, hanswer⟩
  refine yields_pure ⟨hstate, ?_⟩
  have hprevious : t.memory.stateFor state.id = previous := Except.ok.inj hanswer
  rw [← hprevious, ← ht]
  rfl

/-- The turns of all of them. -/
theorem yields_visitAll (prime : Bool) (cs : List Connection) {servers : List (Str × Bool)}
    (hservers : ∃ w, W w ∧ w.servers = servers) :
    Yields (listeningMachine W) (Listening.Shows S)
      (fun seen => List.Forall₂ (fun c state => ∃ r, MayRead W c r ∧ state = r.state c) cs seen.1 ∧
        seen.2 = seen.1.flatMap fun state =>
          changesOf state (S.find? fun s => decide (s.id = state.id)))
      (visitAll prime servers cs) := by
  induction cs with
  | nil => exact yields_pure ⟨List.Forall₂.nil, rfl⟩
  | cons c cs ih =>
      unfold visitAll
      refine yields_bind (yields_visit prime c hservers) fun first hfirst => ?_
      refine yields_bind ih ?_
      rintro rest ⟨hread, htold⟩
      refine yields_pure ⟨List.Forall₂.cons hfirst.read hread, ?_⟩
      change first.2 ++ rest.2 = _
      rw [hfirst.told, htold, List.flatMap_cons]

end Turns

/-! ### What is told, and what there is -/

section Told

variable {S seen : List ConnectionState} {ids : List (Option Str)}

/-- The state is to be told, to one who has these. -/
def toldOver (S : List ConnectionState) (state : ConnectionState) : Bool :=
  match S.find? fun s => decide (s.id = state.id) with
  | none => true
  | some before => differs before state

theorem toldOver_of_some {state before : ConnectionState}
    (h : (S.find? fun s => decide (s.id = state.id)) = some before) :
    toldOver S state = differs before state := by
  unfold toldOver
  rw [h]

/-- A change a poll tells of, as the client takes it. -/
def Change.row (change : Change) : RowChange (Option Str) WireRow :=
  (change.2.id, some change.2.toWire)

/-- What a poll sends, for the states it has seen and the ids that are gone. -/
def sentBy (S seen : List ConnectionState) (ids : List (Option Str)) :
    List (RowChange (Option Str) WireRow) :=
  (seen.flatMap fun state =>
    changesOf state (S.find? fun s => decide (s.id = state.id))).map Change.row ++
      ids.map fun id => (id, none)

/-- Of one state a change is told if it is to be told, under its id. -/
theorem lastOf_changesOf (S : List ConnectionState) (state : ConnectionState) (key : Option Str) :
    lastOf key ((changesOf state (S.find? fun s => decide (s.id = state.id))).map Change.row) =
      if state.id = key ∧ toldOver S state = true then some (some state.toWire) else none := by
  unfold changesOf toldOver
  cases S.find? fun s => decide (s.id = state.id) with
  | none =>
      by_cases hid : state.id = key
      · simp [lastOf, Change.row, hid]
      · simp [lastOf, Change.row, hid]
  | some before =>
      by_cases hid : state.id = key
      · by_cases hdiffers : differs before state = true
        · simp [lastOf, Change.row, hid, hdiffers]
        · simp [lastOf, hdiffers]
      · by_cases hdiffers : differs before state = true
        · simp [lastOf, Change.row, hid, hdiffers]
        · simp [lastOf, hid, hdiffers]

/-- The last change told under an id is the last state's that is to be told. -/
theorem lastOf_changes (S seen : List ConnectionState) (key : Option Str) :
    lastOf key ((seen.flatMap fun state =>
      changesOf state (S.find? fun s => decide (s.id = state.id))).map Change.row) =
      ((seen.filter fun s => decide (s.id = key)).filter (toldOver S)).getLast?.map
        fun state => some state.toWire := by
  induction seen with
  | nil => rfl
  | cons state seen ih =>
      rw [List.flatMap_cons, List.map_append, lastOf_append, ih, lastOf_changesOf,
        List.filter_cons]
      by_cases hid : state.id = key
      · rw [if_pos (decide_eq_true hid), List.filter_cons]
        by_cases htold : toldOver S state = true
        · rw [if_pos ⟨hid, htold⟩, if_pos htold, List.getLast?_cons]
          cases ((seen.filter fun s => decide (s.id = key)).filter (toldOver S)).getLast? with
          | none => rfl
          | some last => rfl
        · rw [if_neg fun h => htold h.2, if_neg htold, Option.or_none]
      · rw [if_neg fun h => hid h.1, Option.or_none, if_neg fun h => hid (of_decide_eq_true h)]

theorem lastOf_removed (ids : List (Option Str)) (key : Option Str) :
    lastOf key (ids.map fun id => ((id, none) : RowChange (Option Str) WireRow)) =
      if key ∈ ids then some none else none := by
  induction ids with
  | nil => rfl
  | cons id ids ih =>
      rw [List.map_cons, lastOf_cons, ih]
      by_cases hmem : key ∈ ids
      · rw [if_pos hmem, if_pos (List.mem_cons_of_mem id hmem)]
        rfl
      · rw [if_neg hmem, Option.none_or]
        by_cases hid : id = key
        · rw [if_pos hid, if_pos (hid ▸ List.mem_cons_self)]
        · rw [if_neg hid, if_neg fun h => (List.mem_cons.mp h).elim (fun heq => hid heq.symm) hmem]

/-- The last of some members is the last of those with a property, if it has it. -/
theorem getLast?_filter {α : Type} {xs : List α} {p : α → Bool} {last : α}
    (h : xs.getLast? = some last) (hp : p last = true) : (xs.filter p).getLast? = some last := by
  rcases List.getLast?_eq_some_iff.mp h with ⟨front, rfl⟩
  rw [List.filter_append, List.filter_cons, if_pos hp]
  exact List.getLast?_concat

/-- The rows of a dict are the last states'. -/
theorem rowsOf_dict (seen : List ConnectionState) (key : Option Str) :
    rowsOf (seen.foldl setById []) key =
      (seen.filter fun s => decide (s.id = key)).getLast?.map ConnectionState.toWire := by
  unfold rowsOf
  rw [find_dict, List.find?_nil, Option.or_none]

theorem toldOver_of_none {state : ConnectionState}
    (h : (S.find? fun s => decide (s.id = state.id)) = none) : toldOver S state = true := by
  unfold toldOver
  rw [h]

/-- No state is seen under an id that none of those seen has. -/
theorem filter_id_eq_nil_iff {key : Option Str} :
    (seen.filter fun s => decide (s.id = key)) = [] ↔ key ∉ seen.map ConnectionState.id := by
  rw [List.filter_eq_nil_iff, List.mem_map]
  push Not
  exact forall₂_congr fun state _ => not_congr decide_eq_true_iff

/-- Under a key a poll says last that it is gone, or the last state that is to be told. -/
theorem lastOf_sentBy (S seen : List ConnectionState) (ids : List (Option Str))
    (key : Option Str) :
    lastOf key (sentBy S seen ids) =
      if key ∈ ids then some none
      else ((seen.filter fun s => decide (s.id = key)).filter (toldOver S)).getLast?.map
        fun state => some state.toWire := by
  unfold sentBy
  rw [lastOf_append, lastOf_removed, lastOf_changes]
  by_cases hgone : key ∈ ids
  · rw [if_pos hgone, if_pos hgone, Option.some_or]
  · rw [if_neg hgone, if_neg hgone, Option.none_or]

/-- If a state of an id is told, then so is the last of them. -/
theorem toldOver_last {state last : ConnectionState} {key : Option Str}
    (hlast : ∀ state ∈ seen, ∀ last before,
      (seen.filter fun s => decide (s.id = state.id)).getLast? = some last →
      (S.find? fun s => decide (s.id = state.id)) = some before →
      differs before state = true → differs before last = true)
    (hstate : state ∈ seen) (hid : state.id = key) (htold : toldOver S state = true)
    (hend : (seen.filter fun s => decide (s.id = key)).getLast? = some last) :
    toldOver S last = true := by
  subst hid
  have hlastid : last.id = state.id :=
    of_decide_eq_true (List.mem_filter.mp (List.mem_of_getLast? hend)).2
  cases hbefore : S.find? fun s => decide (s.id = state.id) with
  | none => exact toldOver_of_none (hlastid.symm ▸ hbefore)
  | some before =>
      rw [toldOver_of_some hbefore] at htold
      rw [toldOver_of_some (hlastid.symm ▸ hbefore)]
      exact hlast state hstate last before hend hbefore htold

/-- What is said last under a key is its row afterwards. -/
theorem row_of_sent {key : Option Str} {row : Option WireRow}
    (hlast : ∀ state ∈ seen, ∀ last before,
      (seen.filter fun s => decide (s.id = state.id)).getLast? = some last →
      (S.find? fun s => decide (s.id = state.id)) = some before →
      differs before state = true → differs before last = true)
    (hids : ∀ id ∈ ids, id ∉ seen.map ConnectionState.id)
    (hrow : lastOf key (sentBy S seen ids) = some row) :
    row = rowsOf (seen.foldl setById []) key := by
  rw [rowsOf_dict]
  rw [lastOf_sentBy] at hrow
  by_cases hgone : key ∈ ids
  · rw [if_pos hgone] at hrow
    rw [filter_id_eq_nil_iff.mpr (hids key hgone), ← Option.some.inj hrow]
    rfl
  · rw [if_neg hgone] at hrow
    rcases Option.map_eq_some_iff.mp hrow with ⟨state, hstate, rfl⟩
    have htold := List.mem_filter.mp (List.mem_of_getLast? hstate)
    have hseen := List.mem_filter.mp htold.1
    -- the last state under the key is told too, so it is this one
    cases hend : (seen.filter fun s => decide (s.id = key)).getLast? with
    | none =>
        rw [List.getLast?_eq_none_iff.mp hend] at htold
        exact absurd htold.1 List.not_mem_nil
    | some last =>
        have hlasttold := toldOver_last hlast hseen.1 (of_decide_eq_true hseen.2) htold.2 hend
        rw [getLast?_filter hend hlasttold] at hstate
        rw [Option.some.inj hstate]
        rfl

/-- A key of which nothing is said keeps its row: it is among the ids of neither, or its last
    state's words are as before and so the state is the one there was. -/
theorem row_of_unsent {key : Option Str}
    (htold : ∀ state ∈ seen, ∀ before, (S.find? fun s => decide (s.id = state.id)) = some before →
      differs before state = false → before = state)
    (hids : ∀ id, id ∈ S.map ConnectionState.id → id ∉ seen.map ConnectionState.id → id ∈ ids)
    (hkey : lastOf key (sentBy S seen ids) = none) :
    rowsOf S key = rowsOf (seen.foldl setById []) key := by
  rw [lastOf_sentBy] at hkey
  by_cases hgone : key ∈ ids
  · rw [if_pos hgone] at hkey
    exact absurd hkey (Option.some_ne_none _)
  rw [if_neg hgone, Option.map_eq_none_iff, List.getLast?_eq_none_iff,
    List.filter_eq_nil_iff] at hkey
  rw [rowsOf_dict]
  unfold rowsOf
  cases hend : (seen.filter fun s => decide (s.id = key)).getLast? with
  | none =>
      -- not seen, and it would be among the ids that are gone if there had been one before
      have hnot := filter_id_eq_nil_iff.mp (List.getLast?_eq_none_iff.mp hend)
      have hold : (S.find? fun s => decide (s.id = key)) = none := by
        rw [List.find?_eq_none]
        intro before hbefore hid
        exact hgone (hids key (List.mem_map.mpr ⟨before, hbefore, of_decide_eq_true hid⟩) hnot)
      rw [hold]
  | some last =>
      have hlast := List.mem_of_getLast? hend
      have hin := List.mem_filter.mp hlast
      have hid : last.id = key := of_decide_eq_true hin.2
      have huntold := hkey last hlast
      cases hbefore : S.find? fun s => decide (s.id = key) with
      | none => exact absurd (toldOver_of_none (hid.symm ▸ hbefore)) huntold
      | some before =>
          rw [toldOver_of_some (hid.symm ▸ hbefore), Bool.not_eq_true] at huntold
          rw [htold last hin.1 before (hid.symm ▸ hbefore) huntold]

/-- What a poll sends makes the rows before into those after, where words that are as before
    tell all of a state, and the last state of an id is told if one is. -/
theorem hear_sent
    (htold : ∀ state ∈ seen, ∀ before, (S.find? fun s => decide (s.id = state.id)) = some before →
      differs before state = false → before = state)
    (hlast : ∀ state ∈ seen, ∀ last before,
      (seen.filter fun s => decide (s.id = state.id)).getLast? = some last →
      (S.find? fun s => decide (s.id = state.id)) = some before →
      differs before state = true → differs before last = true)
    (hids : ∀ id, id ∈ ids ↔
      id ∈ S.map ConnectionState.id ∧ id ∉ seen.map ConnectionState.id) :
    hear (sentBy S seen ids) (rowsOf S) = rowsOf (seen.foldl setById []) :=
  hear_eq_iff.mpr
    ⟨fun _ _ hrow => row_of_sent hlast (fun id hid => ((hids id).mp hid).2) hrow,
      fun _ hkey => row_of_unsent htold (fun id hold hnew => (hids id).mpr ⟨hold, hnew⟩)
        (lastOf_eq_none_iff.mpr hkey)⟩

end Told

/-! ### What is sent -/

section Sending

variable {W : World → Prop} {S target : List ConnectionState} {s s' : Listening}
  {pending : List (RowChange (Option Str) WireRow)}

/-- The states are these, and what is still to be sent makes a client's picture theirs. -/
structure Listening.Owes (target : List ConnectionState)
    (pending : List (RowChange (Option Str) WireRow)) (s : Listening) : Prop where
  states : s.watched.memory.states = target
  leads : Leads (rowsOf target) pending
  picture : ∀ p, s.picture = some p → hear pending p = rowsOf target

theorem Listening.Owes.acts (h : s.Owes target pending) (acts : List BetweenSteps) :
    (List.foldl Listening.act s acts).Owes target pending := by
  induction acts generalizing s with
  | nil => exact h
  | cons e acts ih =>
      refine ih ?_
      cases e with
      | forget id => exact ⟨h.states, h.leads, h.picture⟩
      | watch =>
          refine ⟨h.states, h.leads, fun p hp => ?_⟩
          change s.picture.or (some (rowsOf s.watched.memory.states)) = some p at hp
          cases hpicture : s.picture with
          | some taken =>
              rw [hpicture, Option.some_or] at hp
              exact h.picture p (hpicture.trans hp)
          | none =>
              rw [hpicture, Option.none_or, h.states] at hp
              rw [← Option.some.inj hp]
              exact h.leads.hear_self

theorem leads_append {sent : List (RowChange (Option Str) WireRow)} {rows : Picture}
    (h : Leads rows (sent ++ pending)) : Leads rows pending := by
  induction sent with
  | nil => exact h
  | cons c sent ih => exact ih h.tail

/-- A step that sends what is due, and nothing else. -/
theorem sending_step (op : MonitorOp) (pending : List (RowChange (Option Str) WireRow))
    {ans : Except Exc op.Value} (hkeeps : ∀ w t, W w →
    (w.serve op t).2.memory.states = t.memory.states)
    (h : s.Owes target (op.sends ++ pending)) (hstep : listeningMachine W op s ans s') :
    s'.Owes target pending ∧ ∃ w t, W w ∧ (w.serve op t).1 = ans := by
  rcases hstep with ⟨w, acts, hw, hserve, hpicture⟩
  have hafter := h.acts acts
  refine ⟨⟨?_, leads_append hafter.leads, fun p hp => ?_⟩, w, _, hw, congrArg Prod.fst hserve⟩
  · have hwatched : s'.watched = (w.serve op (List.foldl Listening.act s acts).watched).2 :=
      (congrArg Prod.snd hserve).symm
    rw [hwatched, hkeeps w _ hw]
    exact hafter.states
  · rw [hpicture] at hp
    rcases Option.map_eq_some_iff.mp hp with ⟨taken, htaken, rfl⟩
    rw [← hafter.picture taken htaken]
    exact List.foldl_append.symm

/-- Telling of the changes sends them, and raises nothing. -/
theorem always_emitAll (hpush : ∀ w, W w → w.push = .ok ()) (config : Config)
    (changes : List Change) (h : s.Owes target (changes.map Change.row ++ pending)) :
    Always (listeningMachine W) (emitAll config changes)
      (fun r s' => r = .ok () ∧ s'.Owes target pending) s := by
  induction changes generalizing s with
  | nil => exact ⟨rfl, h⟩
  | cons change changes ih =>
      unfold emitAll
      rw [always_bind, always_take]
      intro ans s' hstep
      rcases sending_step _ (changes.map Change.row ++ pending) (fun w t _ => rfl) h hstep
        with ⟨hs', w, t, hw, hanswer⟩
      have hok : ans = .ok () := hanswer.symm.trans (hpush w hw)
      rw [hok]
      exact ih hs'

/-- Forgetting those that are gone tells of each of them. -/
theorem always_forgetGone (hpush : ∀ w, W w → w.push = .ok ()) (ids : List (Option Str))
    (h : s.Owes target (ids.map (fun id => (id, none)) ++ pending)) :
    Always (listeningMachine W) (forgetGone ids)
      (fun _ s' => s'.Owes target pending) s := by
  induction ids generalizing s with
  | nil => exact h
  | cons id ids ih =>
      unfold forgetGone
      rw [always_bind, always_take]
      intro ans s' hstep
      rcases sending_step (.forget id) _ (fun w t _ => rfl) h hstep
        with ⟨hs', w, t, hw, hanswer⟩
      rw [← hanswer]
      change Always _ _ _ s'
      rw [always_bind, always_take]
      intro ans' s'' hstep'
      rcases sending_step (.pushRemoved id) (ids.map (fun id => (id, none)) ++ pending)
        (fun w t _ => rfl) hs' hstep' with ⟨hs'', w', t', hw', hanswer'⟩
      -- Pushing never raises, so the next id has its turn.
      have hok : ans' = .ok () := hanswer'.symm.trans (hpush w' hw')
      rw [hok]
      exact ih hs''

end Sending

/-! ### A poll, and a run -/

/-- The monitor's states were derived, one for an id, and a client's picture is of them. -/
structure Listening.Sound (s : Listening) : Prop where
  derived : ∀ state ∈ s.watched.memory.states, Derived state.id state
  nodup : (s.watched.memory.states.map ConnectionState.id).Nodup
  picture : ∀ p, s.picture = some p → p = rowsOf s.watched.memory.states

/-- What happens to a monitor and its client: a poll, and what happens between two. -/
inductive ListenEvent where
  | poll (W : World → Prop)
  | between (e : BetweenSteps)

/-- A monitor that has just been started, and a client that has no picture. -/
def Listening.fresh : Listening :=
  { watched := Watched.fresh
    picture := none }

section Polls

variable {W : World → Prop} {S : List ConnectionState} {s s' : Listening}

theorem Listening.Sound.of_shows (h : s.Sound) (hs' : s'.Shows s.watched.memory.states) :
    s'.Sound := by
  refine ⟨?_, ?_, fun p hp => ?_⟩
  · rw [hs'.states]
    exact h.derived
  · rw [hs'.states]
    exact h.nodup
  · rw [hs'.states]
    exact hs'.picture p hp

/-- Of two lists, of which each member reads like the other's, so does the last. -/
theorem forall₂_getLast? {α β : Type} {R : α → β → Prop} {xs : List α} {ys : List β}
    (h : List.Forall₂ R xs ys) {y : β} (hy : ys.getLast? = some y) :
    ∃ x, xs.getLast? = some x ∧ R x y := by
  induction h with
  | nil => cases hy
  | @cons a b xs ys hab _ ih =>
      rw [List.getLast?_cons] at hy ⊢
      cases hlast : ys.getLast? with
      | some last =>
          rw [hlast] at hy
          rcases ih (hlast.trans (congrArg some (Option.some.inj hy))) with ⟨x, hx, hxy⟩
          rw [hx]
          exact ⟨x, rfl, hxy⟩
      | none =>
          rw [hlast] at hy
          rename_i hrest
          rw [List.getLast?_eq_none_iff.mp hlast] at hrest
          cases hrest
          exact ⟨a, rfl, Option.some.inj hy ▸ hab⟩

/-- Ids in order, where one without an order is alone. -/
theorem mem_of_sortedIds {ids : List (Option Str)}
    (hnull : none ∈ ids → ∀ id ∈ ids, id = none) (hnodup : ids.Nodup) :
    ∃ sorted, sortedIds ids = .ok sorted ∧ ∀ id, id ∈ sorted ↔ id ∈ ids := by
  unfold sortedIds
  split
  · exact ⟨_, rfl, fun id => Iff.rfl⟩
  · exact ⟨_, rfl, fun id => Iff.rfl⟩
  · rename_i hnil hone
    have hall : ids.all Option.isSome = true := by
      rw [List.all_eq_true]
      intro id hid
      cases id with
      | some v => rfl
      | none =>
          -- then all of them are, and there is no more than one
          have hreplicate := List.eq_replicate_of_mem (hnull hid)
          have hlength : ids.length ≤ 1 := by
            rw [hreplicate] at hnodup
            exact List.nodup_replicate.mp hnodup
          cases ids with
          | nil => exact absurd rfl hnil
          | cons first rest =>
              cases rest with
              | nil => exact absurd rfl (hone first)
              | cons second rest =>
                  rw [List.length_cons, List.length_cons] at hlength
                  omega
    rw [if_pos hall]
    refine ⟨_, rfl, fun id => ?_⟩
    rw [List.mem_map]
    constructor
    · rintro ⟨v, hv, rfl⟩
      rcases List.mem_filterMap.mp ((List.mem_insertionSort _).mp hv) with ⟨a, ha, hav⟩
      rwa [show a = some v from hav] at ha
    · intro hid
      rcases Option.isSome_iff_exists.mp (List.all_eq_true.mp hall id hid) with ⟨v, rfl⟩
      exact ⟨v, (List.mem_insertionSort _).mpr (List.mem_filterMap.mpr ⟨_, hid, rfl⟩), rfl⟩

variable [Unicode] [Decimals]

theorem MayRead.fitting {c : Connection} {r : Reading} (h : MayRead W c r)
    (hW : ∀ w, W w → w.Documented) : r.Plausible where
  status := by
    intro unit hunit
    rcases h.unit unit hunit with ⟨w, names, hw, -, hshown⟩
    exact (hW w hw).status names.1 unit hshown
  cause := by
    intro cause hcause
    rcases h.cause cause hcause with ⟨w, names, text, -, -, -, htranslate⟩
    exact translateJournal_found htranslate

omit [Unicode] [Decimals] in
theorem Reading.state_id (r : Reading) (c : Connection) : (r.state c).id = c.id :=
  derive_id ..

/-- What the turns of a poll return: for each connection a state from something it may have
    read. -/
abbrev ReadAll (W : World → Prop) (cs : List Connection) (seen : List ConnectionState) : Prop :=
  List.Forall₂ (fun c state => ∃ r, MayRead W c r ∧ state = r.state c) cs seen

theorem ReadAll.exists {cs : List Connection} {seen : List ConnectionState}
    (h : ReadAll W cs seen) {state : ConnectionState} (hstate : state ∈ seen) :
    ∃ c ∈ cs, ∃ r, MayRead W c r ∧ state = r.state c := by
  rcases List.mem_iff_get.mp hstate with ⟨i, rfl⟩
  have hlength := h.length_eq
  exact ⟨cs.get ⟨i, by omega⟩, List.get_mem _ _, h.get (by omega) i.2⟩

theorem ReadAll.ids {cs : List Connection} {seen : List ConnectionState}
    (h : ReadAll W cs seen) : seen.map ConnectionState.id = cs.map Connection.id := by
  induction h with
  | nil => rfl
  | cons hread _ ih =>
      rcases hread with ⟨r, -, rfl⟩
      rw [List.map_cons, List.map_cons, ih, r.state_id]

/-- What the turns of a poll read makes the picture right, where the poll is orderly. -/
theorem hear_of_read {config : Config} {w : World} {seen : List ConnectionState}
    {ids : List (Option Str)} (hs : s.Sound) (horder : Orderly s W)
    (hW : ∀ w, W w → w.Documented) (hw : W w) (hconfig : w.config = .ok config)
    (hread : ReadAll W config.connections seen)
    (hids : ∀ id, id ∈ ids ↔ id ∈ s.watched.memory.states.map ConnectionState.id ∧
      id ∉ seen.map ConnectionState.id) :
    hear (sentBy s.watched.memory.states seen ids) (rowsOf s.watched.memory.states) =
      rowsOf (seen.foldl setById []) := by
  refine hear_sent (fun state hstate before hbefore hsame => ?_)
    (fun state hstate last before hlast hbefore hdiffers => ?_) hids
  · rcases hread.exists hstate with ⟨c, hc, r, hr, rfl⟩
    rw [r.state_id] at hbefore
    have hid : before.id = c.id := of_decide_eq_true
      (List.find?_some (p := fun s : ConnectionState => decide (s.id = c.id)) hbefore)
    have hderived : Derived c.id before :=
      hid ▸ hs.derived before (List.mem_of_find?_eq_some hbefore)
    exact (words_tell_iff hderived (hr.fitting hW) hsame).mpr
      (horder.told w config c before r hw hconfig hc hbefore hr)
  · have hlastmem := List.mem_filter.mp (List.mem_of_getLast? hlast)
    have hlastid : last.id = state.id := of_decide_eq_true hlastmem.2
    cases hid : state.id with
    | some v =>
        -- a config has an id once, so the two are one
        have hnodup : (seen.filterMap ConnectionState.id).Nodup := by
          have hmaps : seen.filterMap ConnectionState.id =
              config.connections.filterMap Connection.id := by
            have hnested := congrArg (List.filterMap id) hread.ids
            rwa [List.filterMap_map, List.filterMap_map] at hnested
          rw [hmaps]
          exact (List.nodup_append.mp ((hW w hw).config config hconfig).sound.ids).2.1
        have hsame := eq_of_nodup_filterMap hnodup hstate hlastmem.1 hid (hlastid.trans hid)
        rw [← hsame]
        exact hdiffers
    | none =>
        have hfiltered : ReadAll W
            (config.connections.filter fun c => decide (c.id = none))
            (seen.filter fun state => decide (state.id = none)) := by
          refine List.rel_filter ?_ hread
          rintro c state ⟨r, -, rfl⟩
          dsimp only
          rw [r.state_id]
        rw [hid] at hlast hbefore
        rcases forall₂_getLast? hfiltered hlast with ⟨d, hd, r', hr', rfl⟩
        rcases hread.exists hstate with ⟨c, hc, r, hr, rfl⟩
        rw [r.state_id] at hid
        exact horder.nameless w config c d before r r' hw hconfig hc hid hd hbefore hr hr' hdiffers

omit [Unicode] [Decimals] in
/-- The ids in a dict are those of the states put in. -/
theorem mem_ids_dict (seen : List ConnectionState) (id : Option Str) :
    id ∈ (seen.foldl setById []).map ConnectionState.id ↔ id ∈ seen.map ConnectionState.id := by
  have hfind : ((seen.foldl setById []).find? fun s => decide (s.id = id)) =
      (seen.filter fun s => decide (s.id = id)).getLast? := by
    rw [find_dict, List.find?_nil, Option.or_none]
  rw [← not_iff_not, ← filter_id_eq_nil_iff, ← filter_id_eq_nil_iff,
    ← List.head?_eq_none_iff, List.head?_filter, hfind, List.getLast?_eq_none_iff]

omit [Unicode] [Decimals] in
/-- Where nothing is left to be sent, the picture is right. -/
theorem Listening.Owes.sound {seen : List ConnectionState}
    (h : s.Owes (seen.foldl setById []) [])
    (hderived : ∀ state ∈ seen, Derived state.id state) : s.Sound where
  derived := by
    intro state hstate
    rw [h.states] at hstate
    rcases mem_of_mem_dict hstate with hseen | hnil
    · exact hderived state hseen
    · exact absurd hnil List.not_mem_nil
  nodup := by
    rw [h.states]
    exact nodup_dict seen List.nodup_nil
  picture := by
    intro p hp
    rw [h.states]
    exact h.picture p hp

omit [Unicode] [Decimals] in
/-- The states are put in place of those before, whose ids that are gone are the answer; the
    picture is of those before. -/
theorem replaced_states {current : List ConnectionState} {ans : Except Exc (List (Option Str))}
    (hs : s.Shows S) (hstep : listeningMachine W (.replaceStates current) s ans s') :
    ans = .ok ((S.map ConnectionState.id).filter fun id =>
      decide (id ∉ current.map ConnectionState.id)) ∧
    s'.watched.memory.states = current ∧ ∀ p, s'.picture = some p → p = rowsOf S := by
  rcases hstep with ⟨w, acts, hw, hserve, hpicture⟩
  have hafter := hs.acts acts
  refine ⟨?_, ?_, fun p hp => ?_⟩
  · refine (congrArg Prod.fst hserve).symm.trans ?_
    change Except.ok ((List.foldl Listening.act s acts).watched.memory.goneFrom current) = _
    unfold Memory.goneFrom
    rw [hafter.states]
  · exact congrArg (fun t : Watched => t.memory.states) (congrArg Prod.snd hserve).symm
  · rw [hpicture] at hp
    rcases Option.map_eq_some_iff.mp hp with ⟨taken, htaken, rfl⟩
    rw [hafter.picture taken htaken]
    rfl

omit [Unicode] [Decimals] in
/-- The ids that are gone can be sorted, where none of them is null or all are. -/
theorem sorted_gone {seen : List ConnectionState} (hnodup : (S.map ConnectionState.id).Nodup)
    (hgone : none ∈ S.map ConnectionState.id → none ∉ seen.map ConnectionState.id →
      ∀ id ∈ S.map ConnectionState.id, id = none ∨ id ∈ seen.map ConnectionState.id) :
    ∃ sorted, sortedIds ((S.map ConnectionState.id).filter fun id =>
        decide (id ∉ (seen.foldl setById []).map ConnectionState.id)) = .ok sorted ∧
      ∀ id, id ∈ sorted ↔ id ∈ S.map ConnectionState.id ∧ id ∉ seen.map ConnectionState.id := by
  have hmem : ∀ id, id ∈ ((S.map ConnectionState.id).filter fun id =>
      decide (id ∉ (seen.foldl setById []).map ConnectionState.id)) ↔
      id ∈ S.map ConnectionState.id ∧ id ∉ seen.map ConnectionState.id := by
    intro id
    rw [List.mem_filter, decide_eq_true_iff, mem_ids_dict]
  -- With a null id gone no other may be, so the sorting has nothing to compare.
  have hnull : none ∈ ((S.map ConnectionState.id).filter fun id =>
      decide (id ∉ (seen.foldl setById []).map ConnectionState.id)) →
      ∀ id ∈ ((S.map ConnectionState.id).filter fun id =>
        decide (id ∉ (seen.foldl setById []).map ConnectionState.id)), id = none := by
    intro hnone id hid
    rcases (hmem none).mp hnone with ⟨hold, hnew⟩
    rcases (hmem id).mp hid with ⟨hidold, hidnew⟩
    exact (hgone hold hnew id hidold).resolve_right hidnew
  rcases mem_of_sortedIds hnull (hnodup.filter _) with ⟨sorted, hsorted, hsame⟩
  exact ⟨sorted, hsorted, fun id => (hsame id).trans (hmem id)⟩

omit [Unicode] [Decimals] in
/-- The rest of a poll, once the turns are over: the states are put in place of those before,
    and what is another is told. -/
theorem pollEnd_sound {config : Config} {seen : List ConnectionState × List Change}
    (hpush : ∀ w, W w → w.push = .ok ()) (hnodup : (S.map ConnectionState.id).Nodup)
    (hderived : ∀ state ∈ seen.1, Derived state.id state)
    (htold : seen.2 = seen.1.flatMap fun state =>
      changesOf state (S.find? fun s => decide (s.id = state.id)))
    (hgone : none ∈ S.map ConnectionState.id → none ∉ seen.1.map ConnectionState.id →
      ∀ id ∈ S.map ConnectionState.id, id = none ∨ id ∈ seen.1.map ConnectionState.id)
    (hhear : ∀ ids, (∀ id, id ∈ ids ↔ id ∈ S.map ConnectionState.id ∧
      id ∉ seen.1.map ConnectionState.id) →
      hear (sentBy S seen.1 ids) (rowsOf S) = rowsOf (seen.1.foldl setById []))
    (hs : s.Shows S) :
    Always (listeningMachine W) (do
      let gone : List (Option Str) ← take (.replaceStates (seen.1.foldl setById []))
      emitAll config seen.2
      let ids ← fromExcept (sortedIds gone)
      forgetGone ids
      pure (seen.1.foldl setById [])) (fun _ s' => s'.Sound) s := by
  rw [always_bind, always_take]
  intro ans s₁ hstep
  rcases replaced_states hs hstep with ⟨rfl, hstates, hpicture⟩
  rcases sorted_gone hnodup hgone with ⟨sorted, hsorted, hmem⟩
  have hheard := hhear sorted hmem
  have hsent : sentBy S seen.1 sorted =
      seen.2.map Change.row ++ (sorted.map (fun id => (id, none)) ++ []) := by
    unfold sentBy
    rw [htold, List.append_nil]
  rw [hsent] at hheard
  -- the states are the new ones from here on, and the picture is behind by what is not yet sent
  have howes : s₁.Owes (seen.1.foldl setById [])
      (seen.2.map Change.row ++ (sorted.map (fun id => (id, none)) ++ [])) := by
    refine ⟨hstates, (hear_eq_iff.mp hheard).1, fun p hp => ?_⟩
    rw [hpicture p hp]
    exact hheard
  change Always _ _ _ s₁
  rw [always_bind]
  refine always_mono (always_emitAll hpush config seen.2 howes) ?_
  rintro r s₂ ⟨rfl, hs₂⟩
  change Always _ _ _ s₂
  rw [hsorted, always_bind, always_fromExcept, andThen_ok, always_bind]
  refine always_mono (always_forgetGone hpush sorted hs₂) fun r s₃ hs₃ => ?_
  cases r with
  | error e => exact hs₃.sound hderived
  | ok u => exact hs₃.sound hderived

/-- An orderly poll keeps the picture right, also one that raises. -/
theorem poll_sound {prime : Bool} (hs : s.Sound) (horder : Orderly s W)
    (hW : ∀ w, W w → w.Documented) :
    Always (listeningMachine W) (poll prime) (fun _ s' => s'.Sound) s := by
  have hshows : s.Shows s.watched.memory.states := ⟨rfl, hs.picture⟩
  unfold poll
  rw [always_bind]
  refine always_mono (yields_quiet .load trivial s hshows) ?_
  rintro r s₁ ⟨hs₁, hload⟩
  -- Whatever ends the poll early has told nothing and changed no state.
  cases r with
  | error e => exact hs.of_shows hs₁
  | ok config =>
      rcases hload config rfl with ⟨w, t, hw, -, hconfig⟩
      rw [andThen_ok, always_bind]
      refine always_mono (yields_quiet .serverStates trivial s₁ hs₁) ?_
      rintro r s₂ ⟨hs₂, hservers⟩
      cases r with
      | error e => exact hs.of_shows hs₂
      | ok servers =>
          rcases hservers servers rfl with ⟨w', t', hw', -, hanswer⟩
          rw [andThen_ok, always_bind]
          refine always_mono (yields_visitAll prime config.connections
            ⟨w', hw', Except.ok.inj hanswer⟩ s₂ hs₂) ?_
          rintro r s₃ ⟨hs₃, hseen⟩
          cases r with
          | error e => exact hs.of_shows hs₃
          | ok seen =>
              rcases hseen seen rfl with ⟨hread, htold⟩
              rw [andThen_ok]
              refine pollEnd_sound (fun w hw => (hW w hw).push) hs.nodup
                (fun state hstate => ?_) htold ?_
                (fun ids hmem => hear_of_read hs horder hW hw hconfig hread hmem) hs₃
              · rcases ReadAll.exists hread hstate with ⟨c, hc, r, hr, rfl⟩
                rw [r.state_id]
                exact (hr.fitting hW).derived c
              · rw [ReadAll.ids hread]
                exact fun hold hnew => horder.gone w config hw hconfig hold hnew

/-- What an event does. The worlds of a poll are as they are documented to be. -/
def ListenStep (prime : Bool) (s : Listening) : ListenEvent → Listening → Prop
  | .poll W, s' => (∀ w, W w → w.Documented) ∧
      ∃ r, Exec (listeningMachine W) (poll prime) s r s'
  | .between e, s' => s' = s.act e

/-- In every run whose polls are orderly, a client that has taken `connection.watch` has the rows
    it would return. -/
theorem picture_kept (prime : Bool) (s : Listening)
    (hrun : GuardedRun (ListenStep prime)
      (fun s e => ∀ W, e = .poll W → Orderly s W) Listening.fresh s) :
    ∀ p, s.picture = some p → p = rowsOf s.watched.memory.states := by
  have hfresh : Listening.fresh.Sound :=
    ⟨fun state h => absurd h List.not_mem_nil, List.nodup_nil, fun p h => by cases h⟩
  refine (hrun.invariant Listening.Sound hfresh fun s e s' hs hguard hstep => ?_).picture
  cases e with
  | poll W =>
      rcases hstep with ⟨hW, r, hx⟩
      exact always_exec (poll_sound hs (hguard W rfl) hW) hx
  | between e =>
      rw [show s' = _ from hstep]
      exact hs.of_shows (Listening.Shows.act ⟨rfl, hs.picture⟩ e)

end Polls

/-! ### Two runs -/

section Runs

attribute [local instance] Unicode.ascii Decimals.ascii

set_option maxRecDepth 10000

/-- A step of a poll in a world that stands still. -/
def World.tell (w : World) (op : MonitorOp) (s : Listening) : Except Exc op.Value × Listening :=
  ((w.serve op s.watched).1,
    { watched := (w.serve op s.watched).2
      picture := s.picture.map (hear op.sends) })

/-- What a poll of such a world leaves. -/
def Listening.polled (s : Listening) (w : World) : Listening :=
  ((poll true).run w.tell s).2

theorem listen_poll (s : Listening) {w : World} (hw : w.Documented) :
    ListenStep true s (.poll fun w' => w' = w) (s.polled w) :=
  ⟨fun _ h => h ▸ hw, _, exec_run (fun _ _ => ⟨w, [], rfl, rfl, rfl⟩) _ s⟩

theorem nasWorld_documented (rows : List MountRow) (servers : List (Str × Bool)) :
    (nasWorld rows servers).Documented where
  push := rfl
  status := by
    intro unit shown h
    rw [← Except.ok.inj h]
    decide
  config := by
    intro config h
    rw [← Except.ok.inj h]
    decide +kernel

/-- The first poll of a monitor is orderly. -/
theorem orderly_fresh (W : World → Prop) : Orderly Listening.fresh W where
  told := fun _ _ _ _ _ _ _ _ h _ => by cases h
  nameless := fun _ _ _ _ _ _ _ _ _ _ _ _ h _ _ => by cases h
  gone := fun _ _ _ _ h _ => absurd h List.not_mem_nil

/-- A client that takes its picture while the share is mounted has the rows there are after the
    share was ejected. -/
theorem picture_kept_ejected :
    let s := ((Listening.fresh.polled (nasMounted true)).act .watch).polled nasEjected
    ∃ p, s.picture = some p ∧ p = rowsOf s.watched.memory.states := by
  intro s
  let mounted := (Listening.fresh.polled (nasMounted true)).act .watch
  -- The first poll finds the share mounted, and the client then takes its picture.
  have hstate : (mounted.watched.memory.stateFor nasMusic.id).map
      (fun before => (before.state, before.errno)) = some (.connected, none) := by
    decide +kernel
  have hids : mounted.watched.memory.states.map ConnectionState.id = [nasMusic.id] := by
    decide +kernel
  have hnone : mounted.watched.memory.stateFor none = none := by
    decide +kernel
  have horder : Orderly mounted (fun w => w = nasEjected) := by
    refine ⟨?_, ?_, ?_⟩
    · rintro w config c before r rfl hconfig hc hbefore -
      rw [← Except.ok.inj hconfig] at hc
      rw [List.mem_singleton.mp hc] at hbefore ⊢
      rw [hbefore] at hstate
      have hwords := Prod.mk.inj (Option.some.inj hstate)
      constructor
      · rintro ⟨-, rfl⟩
        have hword : StateWord.unreachable = .connected := hwords.1
        cases hword
      · rintro ⟨unit, m, n, -, -, -, rfl⟩
        exact absurd hwords.2 (Option.some_ne_none m)
    · rintro w config c last before r r' rfl hconfig hc hid hlast hbefore
      rw [hnone] at hbefore
      cases hbefore
    · intro w config hw hconfig hold
      rw [hids] at hold
      exact absurd hold (by decide)
  have hfirst : GuardedRun (ListenStep true) (fun s e => ∀ W, e = .poll W → Orderly s W)
      Listening.fresh mounted :=
    GuardedRun.next (.between .watch)
      (GuardedRun.next _ GuardedRun.start (fun W _ => orderly_fresh W)
        (listen_poll _ (nasWorld_documented _ _))) (fun W h => by cases h) rfl
  have hrun := GuardedRun.next (.poll fun w => w = nasEjected) hfirst
    (fun W h => by cases h; exact horder) (listen_poll mounted (nasWorld_documented _ _))
  exact ⟨_, rfl, picture_kept true s hrun _ rfl⟩

/-- The share is still mounted, and its server has gone. Then the mount is made read-only: the
    poll finds that, and the client is not told. -/
theorem flip_untold : ∃ s, GuardedRun (ListenStep true) (fun _ _ => True) Listening.fresh s ∧
    ∃ p, s.picture = some p ∧ p ≠ rowsOf s.watched.memory.states := by
  let readOnlyMount : MountRow := { nasMount with options := str "ro" }
  let before := (Listening.fresh.polled (nasMounted false)).act .watch
  refine ⟨before.polled (nasWorld [nasTrigger, readOnlyMount] [(str "nas", false)]), ?_, _, rfl, ?_⟩
  · refine GuardedRun.next _ (GuardedRun.next (.between .watch) (GuardedRun.next _
      GuardedRun.start trivial (listen_poll _ (nasWorld_documented _ _))) trivial rfl) trivial
      (listen_poll _ (nasWorld_documented _ _))
  · intro h
    exact absurd (congrFun h nasMusic.id) (by decide +kernel)

end Runs

end Smbpal
