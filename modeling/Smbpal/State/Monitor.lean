import Mathlib.Data.List.Sort
import Smbpal.Mounts.Apply
import Smbpal.State.Machine

/-!
# The State Monitor

`state/monitor.py`: watching connections on Linux, and mounting each of them
once so that the file manager shows it.

A poll goes over the config's connections. It works out the state of each from
the mount table, systemd and the journal, and may queue a start for one that is
armed and idle. What it remembers of a connection is under a lock that is taken
for one reading or one writing at a time, so a `forget` from a request handler
may come between any two of a poll's steps.

A poll is a `MonitorM`: a program over what it asks the world and what it does
with its memory. What it only logs is left out.

## Main definitions

* `MountRow`, `occupantIn`, `isMountedIn`: The mount table and its readers.
* `Memory`: What the monitor remembers.
* `MonitorOp`, `MonitorM`: The steps of a poll.
* `stateOf`, `maybePrime`, `poll`: `_state_of`, `_maybe_prime`, `poll`.

## Theorems

* `footprint_stateOf`: Deriving a state only looks.
* `performs_maybePrime`: Priming is about the connection whose turn it is.
-/

namespace Smbpal

open Lib Program

/-- One mount of the kernel's table. -/
structure MountRow where
  mountpoint : Str
  fstype : Str
  source : Str
  options : Str
  deriving DecidableEq

/-- The table, or that there is none to read. -/
abbrev MountTable := Option (List MountRow)

/-- The mount is at this path, and is an automount's trigger or is not. -/
def MountRow.isAt (row : MountRow) (mountpoint : Str) (trigger : Bool) : Bool :=
  decide (normpath row.mountpoint = normpath mountpoint) &&
    (decide (row.fstype = str "autofs") == trigger)

/-- `MountProbe.occupant`. -/
def occupantIn (table : MountTable) (mountpoint : Str) : Option MountRow :=
  table.bind fun rows => rows.find? fun row => row.isAt mountpoint false

/-- `MountProbe.is_mounted`. -/
def isMountedIn (table : MountTable) (mountpoint : Str) : Option Bool :=
  table.map fun rows => rows.any fun row => row.isAt mountpoint false

/-- `MountProbe.is_armed`. -/
def isArmedIn (table : MountTable) (mountpoint : Str) : Option Bool :=
  table.map fun rows => rows.any fun row => row.isAt mountpoint true

/-- `MountEntry.read_only`. -/
def MountRow.readOnly (row : MountRow) : Bool :=
  decide (str "ro" ∈ splitChar ',' row.options)

/-- `MountProbe.is_read_only`. -/
def isReadOnlyIn (table : MountTable) (mountpoint : Str) : Option Bool :=
  (occupantIn table mountpoint).map MountRow.readOnly

/-- What `foreign_mount` looks at of a mount. -/
def MountRow.entry (row : MountRow) : MountEntry :=
  { source := row.source, fstype := row.fstype }

/-- What a connection points at, as priming remembers it. -/
structure Target where
  host : Option Str
  share : Option Str
  mountpoint : Option Str
  deriving DecidableEq

/-- What a connection points at. -/
def Connection.target (c : Connection) : Target :=
  { host := c.host, share := c.share, mountpoint := c.mountpoint }

/-- A connection of this id in the config points at the target. -/
def Config.PointsAt (config : Config) (id : Option Str) (target : Target) : Prop :=
  ∃ c ∈ config.connections, c.id = id ∧ c.target = target

instance (config : Config) (id : Option Str) (target : Target) :
    Decidable (config.PointsAt id target) :=
  inferInstanceAs (Decidable (∃ c ∈ config.connections, c.id = id ∧ c.target = target))

/-- All connections of this id in the config point at the same thing. -/
def Config.OneTarget (config : Config) (id : Option Str) : Prop :=
  ∀ c ∈ config.connections, ∀ d ∈ config.connections, c.id = id → d.id = id →
    c.target = d.target

theorem Config.OneTarget.unique {config : Config} {id : Option Str} {target target' : Target}
    (h : config.OneTarget id) (htarget : config.PointsAt id target)
    (htarget' : config.PointsAt id target') : target = target' := by
  rcases htarget with ⟨c, hc, hid, rfl⟩
  rcases htarget' with ⟨d, hd, hid', rfl⟩
  exact h c hc d hd hid hid'

/-- What the monitor remembers, by connection id. -/
structure Memory where
  /-- The state of each connection of the last poll. -/
  states : List ConnectionState
  /-- What the connection pointed at when priming it was over. -/
  primed : Option Str → Option Target
  /-- What starts were queued for, and how many. -/
  attempted : Option Str → Option (Target × Nat)
  /-- Why priming it was over. -/
  because : Option Str → Option Str

/-- A monitor that has not polled. -/
def Memory.empty : Memory :=
  { states := []
    primed := fun _ => none
    attempted := fun _ => none
    because := fun _ => none }

/-- `forget`. -/
def Memory.forget (m : Memory) (id : Option Str) : Memory :=
  { m with
    primed := Function.update m.primed id none
    attempted := Function.update m.attempted id none
    because := Function.update m.because id none }

/-- `_latch`. -/
def Memory.latch (m : Memory) (id : Option Str) (target : Target) (because : Str) : Memory :=
  { m with
    primed := Function.update m.primed id (some target)
    attempted := Function.update m.attempted id none
    because := Function.update m.because id (some because) }

/-- A start was accepted: remember it. -/
def Memory.record (m : Memory) (id : Option Str) (target : Target) (count : Nat) : Memory :=
  { m with attempted := Function.update m.attempted id (some (target, count)) }

/-- The state the last poll had of a connection. -/
def Memory.stateFor (m : Memory) (id : Option Str) : Option ConnectionState :=
  m.states.find? fun state => decide (state.id = id)

/-- The ids of the last poll that are not among the states of this one. -/
def Memory.goneFrom (m : Memory) (current : List ConnectionState) : List (Option Str) :=
  (m.states.map ConnectionState.id).filter fun id =>
    decide (id ∉ current.map ConnectionState.id)

/-- A dict's values after one more is set under its id. -/
def setById (current : List ConnectionState) (state : ConnectionState) : List ConnectionState :=
  if current.any fun other => decide (other.id = state.id) then
    current.map fun other => if other.id = state.id then state else other
  else current ++ [state]

/-- `sorted` on the ids that are gone: a null has no order among strings. -/
def sortedIds (ids : List (Option Str)) : Except Exc (List (Option Str)) :=
  match ids with
  | [] => .ok []
  | [id] => .ok [id]
  | ids =>
      if ids.all Option.isSome then
        .ok ((ids.filterMap id).insertionSort (fun a b => strLe a b = true) |>.map some)
      else .error .exception

/-- One step of a poll. -/
inductive MonitorOp where
  | load
  /-- `MountProbe.server_states`; nothing is the empty dict. -/
  | serverStates
  /-- The mount table, which each question about it reads again. -/
  | mountTable
  /-- `systemd.show`. -/
  | unitShow (unit : Str)
  /-- The last lines of a unit's journal. -/
  | journal (unit : Str)
  /-- `probe.server_reachable`: a port that answers. -/
  | reachable (host : Option Str)
  /-- `systemd.start` of a connection's unit, without waiting. -/
  | start (id : Option Str) (target : Target) (unit : Str)
  | primedTarget (id : Option Str)
  | attemptFor (id : Option Str)
  | latch (id : Option Str) (target : Target) (because : Str)
  | recordAttempt (id : Option Str) (target : Target) (count : Nat)
  | previousState (id : Option Str)
  /-- The new states in place of those before, and the ids that are gone. -/
  | replaceStates (current : List ConnectionState)
  | forget (id : Option Str)
  /-- `_emit`. -/
  | emit (previous : Option ConnectionState) (state : ConnectionState)
      (connection : Option Connection)
  /-- `connection.removed`. -/
  | pushRemoved (id : Option Str)

/-- What a step answers when it does not raise. -/
@[reducible] def MonitorOp.Value : MonitorOp → Type
  | .load => Config
  | .serverStates => List (Str × Bool)
  | .mountTable => MountTable
  | .unitShow _ => UnitShow
  | .journal _ => Str
  | .reachable _ => Bool
  | .primedTarget _ => Option Target
  | .attemptFor _ => Option (Target × Nat)
  | .previousState _ => Option ConnectionState
  | .replaceStates _ => List (Option Str)
  | _ => Unit

/-- The steps, each answered by a value or an exception. -/
def monitorSig : Signature :=
  { Op := MonitorOp, Answer := fun op => Except Exc op.Value }

/-- A program of the monitor. -/
abbrev MonitorM (α : Type) :=
  Program monitorSig Exc α

/-- Take a step, raising what it raises. -/
def take (op : MonitorOp) : MonitorM op.Value :=
  Program.ask (S := monitorSig) op fun ans => ans

/-- `except SmbpalError`, around one step. -/
def takeOr {α : Type} (p : MonitorM α) (otherwise : MonitorM α) : MonitorM α :=
  tryCatch p fun e => if e.isSmbpal then otherwise else throw e

section Monitor

variable [Unicode] [Decimals]

/-- `probe.server_is_answering`: none when that cannot be told. -/
def serverIsAnswering (host : Option Str) (states : List (Str × Bool)) :
    Except Exc (Option Bool) :=
  if states = [] then .ok none
  else
    match host with
    | some host => .ok (states.lookup (lower host))
    | none => .error .exception

/-- `_journal_cause`. -/
def journalCause (unit : Str) : MonitorM (Option Cause) :=
  takeOr
    (do
      let text ← take (.journal unit)
      pure (translateJournal text))
    (pure none)

/-- `Mounter.foreign_occupant`, on the table as it is read. -/
def intruderIn (table : MountTable) (c : Connection) (mountpoint : Str) : Option MountEntry :=
  foreignMount ((occupantIn table mountpoint).map MountRow.entry) c

/-- How a mount that is not the connection's is called. -/
def describeIntruder (intruder : MountEntry) : Str :=
  intruder.source ++ str " (" ++ intruder.fstype ++ str ")"

/-- `systemd.show`, or that it cannot be told. -/
def showUnit (unit : Str) : MonitorM (Option UnitShow) :=
  takeOr
    (do
      let shown ← take (.unitShow unit)
      pure (some shown))
    (pure none)

/-- The cause of a failure; the journal is read for nothing else. -/
def failureCause (unit : Str) (failed : Bool) : MonitorM (Option Cause) :=
  if failed then journalCause unit else pure none

/-- Whether a share that is mounted is read-only. -/
def mountedReadOnly (mountpoint : Str) (mounted : Bool) : MonitorM (Option Bool) :=
  if mounted then do
    let table : MountTable ← take .mountTable
    pure (isReadOnlyIn table mountpoint)
  else pure none

/-- Whether the server of a share that is mounted answers. -/
def mountedAnswering (host : Option Str) (servers : List (Str × Bool)) (mounted : Bool) :
    Except Exc (Option Bool) :=
  if mounted then serverIsAnswering host servers else .ok none

/-- The unit failed, and nothing is mounted in spite of that. -/
def failsToMount (unit : Option UnitShow) (mounted : Option Bool) : Bool :=
  (unit.map UnitShow.hasFailed).getD false && !mounted.getD false

/-- `_state_of`. -/
def stateOf (c : Connection) (servers : List (Str × Bool)) : MonitorM ConnectionState := do
  let names ← fromExcept (namesOf c)
  let mountpoint ← fromExcept (mountpointOf c)
  let occupied : MountTable ← take .mountTable
  let mounts : MountTable ← take .mountTable
  let mounted := isMountedIn mounts mountpoint
  let triggers : MountTable ← take .mountTable
  let unit ← showUnit names.1
  let cause ← failureCause names.1 (failsToMount unit mounted)
  let readOnly ← mountedReadOnly mountpoint (mounted.getD false)
  let answering ← fromExcept (mountedAnswering c.host servers (mounted.getD false))
  pure (derive c mounted unit cause (isArmedIn triggers mountpoint) readOnly
    ((intruderIn occupied c mountpoint).map describeIntruder) answering)

/-- `_WAS_MOUNTED`. -/
def wasMounted : Str :=
  str "it was mounted, so an idle connection now is one somebody disconnected"

/-- Why a connection whose mount was refused is latched. -/
def refusedBecause (cause : Cause) : Str :=
  str "the mount was refused: " ++ cause.message

/-- Why a connection that never mounted is latched. -/
def neverMounted (queued : Nat) (unit : Str) : Str :=
  digits queued ++ str " starts were queued for " ++ unit ++
    str " and it never mounted, and the journal does not say why"

/-- `_PRIME_ATTEMPTS`. -/
def primeAttempts : Nat := 3

/-- Queue a start, and remember it once it is accepted. -/
def queueStart (c : Connection) (unit : Str) (queued : Nat) : MonitorM Unit :=
  takeOr
    (do
      take (.start c.id c.target unit)
      pure true)
    (pure false) >>= fun accepted =>
  if accepted then take (.recordAttempt c.id c.target (queued + 1)) else pure ()

/-- The starts queued for what the connection points at now. -/
def queuedFor (c : Connection) (attempt : Option (Target × Nat)) : Nat :=
  match attempt with
  | some (target, count) => if target = c.target then count else 0
  | none => 0

/-- Prime a connection that is armed, idle and where it should be. -/
def primeIdle (c : Connection) (unit : Str) : MonitorM Unit := do
  let attempt : Option (Target × Nat) ← take (.attemptFor c.id)
  let queued := queuedFor c attempt
  if queued = 0 then queueStart c unit queued
  else do
    let cause ← journalCause unit
    match cause.filter fun cause => !cause.retryable with
    | some cause => take (.latch c.id c.target (refusedBecause cause))
    | none =>
        if primeAttempts ≤ queued then take (.latch c.id c.target (neverMounted queued unit))
        else queueStart c unit queued

/-- Whether a connection is to be mounted from here and now. -/
def mayPrime (c : Connection) : MonitorM Bool :=
  let auto := (truthy c.autoConnect).getD (str "on_this_network")
  if auto = str "never" then pure false
  else if auto = str "on_this_network" then take (.reachable c.host)
  else pure true

/-- `_maybe_prime`. -/
def maybePrime (c : Connection) (state : ConnectionState) : MonitorM Unit := do
  let names ← fromExcept (namesOf c)
  if state.state = .connected then do
    let _ ← take (.attemptFor c.id)
    take (.latch c.id c.target wasMounted)
  else do
    let primed : Option Target ← take (.primedTarget c.id)
    if primed = some c.target ∨ state.state ≠ .idle then pure ()
    else do
      let may ← mayPrime c
      if may then primeIdle c names.1 else pure ()

/-- `_differs`. -/
def differs (previous current : ConnectionState) : Bool :=
  decide ((previous.state, previous.message) ≠ (current.state, current.message))

/-- A change a poll tells of. -/
abbrev Change := Option ConnectionState × ConnectionState

/-- What to tell of a connection, from its state now and the one before. -/
def changesOf (state : ConnectionState) : Option ConnectionState → List Change
  | none => [(none, state)]
  | some before => if differs before state then [(some before, state)] else []

/-- Prime, when the daemon has turned that on. -/
def primeIf (prime : Bool) (c : Connection) (state : ConnectionState) : MonitorM Unit :=
  if prime then maybePrime c state else pure ()

/-- One connection's turn in a poll: its state, and whether to tell of it. -/
def visit (prime : Bool) (servers : List (Str × Bool)) (c : Connection) :
    MonitorM (ConnectionState × List Change) := do
  let state ← stateOf c servers
  primeIf prime c state
  let previous : Option ConnectionState ← take (.previousState state.id)
  pure (state, changesOf state previous)

/-- The turns of some connections. -/
def visitAll (prime : Bool) (servers : List (Str × Bool)) :
    List Connection → MonitorM (List ConnectionState × List Change)
  | [] => pure ([], [])
  | c :: cs => do
      let seen ← visit prime servers c
      let rest ← visitAll prime servers cs
      pure (seen.1 :: rest.1, seen.2 ++ rest.2)

/-- `connection_lookup`. -/
def connectionLookup (config : Config) (id : Option Str) : Option Connection :=
  config.connections.find? fun c => decide (c.id = id)

/-- Tell of each change. -/
def emitAll (config : Config) : List Change → MonitorM Unit
  | [] => pure ()
  | change :: changes => do
      take (.emit change.1 change.2 (connectionLookup config change.2.id))
      emitAll config changes

/-- Forget each connection that is gone. -/
def forgetGone : List (Option Str) → MonitorM Unit
  | [] => pure ()
  | id :: ids => do
      take (.forget id)
      take (.pushRemoved id)
      forgetGone ids

/-- `poll`. -/
def poll (prime : Bool) : MonitorM (List ConnectionState) := do
  let config : Config ← take .load
  let servers : List (Str × Bool) ← take .serverStates
  let seen ← visitAll prime servers config.connections
  let current := seen.1.foldl setById []
  let gone : List (Option Str) ← take (.replaceStates current)
  emitAll config seen.2
  let ids ← fromExcept (sortedIds gone)
  forgetGone ids
  pure current

end Monitor

/-! ### Rules for the steps -/

section Steps

variable {σ α : Type} {M : Machine monitorSig σ} {s : σ} {P : MonitorOp → Prop}

@[simp] theorem always_take (op : MonitorOp) (Q : Except Exc op.Value → σ → Prop) :
    Always M (take op) Q s ↔ ∀ ans s', M op s ans s' → Q ans s' :=
  always_ask (S := monitorSig) op fun ans => ans

/-- A step of which some `SmbpalError` is caught. -/
theorem always_takeOr {p otherwise : MonitorM α} {Q : Except Exc α → σ → Prop}
    (h : Always M p (fun r s' => match r with
      | .ok a => Q (.ok a) s'
      | .error e => if e.isSmbpal then Always M otherwise Q s' else Q (.error e) s') s) :
    Always M (takeOr p otherwise) Q s := by
  unfold takeOr
  rw [always_tryCatch]
  refine always_mono h fun r s' hr => ?_
  cases r with
  | ok a => exact hr
  | error e =>
      rw [orElse_error]
      dsimp only at hr
      by_cases he : e.isSmbpal = true
      · rw [if_pos he] at hr ⊢
        exact hr
      · rw [if_neg he] at hr ⊢
        exact hr

theorem footprint_take {op : MonitorOp} {R : op.Value → Prop} (hop : P op) (hR : ∀ v, R v) :
    Footprint (S := monitorSig) (ε := Exc) P R (take op) :=
  footprint_ask hop fun _ v _ => hR v

theorem performs_take {op : MonitorOp} (hop : P op) :
    Performs (S := monitorSig) (ε := Exc) P (take op) :=
  footprint_take hop fun _ => trivial

theorem performs_takeOr {p otherwise : MonitorM α} (hp : Performs (S := monitorSig) P p)
    (ho : Performs (S := monitorSig) P otherwise) :
    Performs (S := monitorSig) P (takeOr p otherwise) := by
  refine footprint_tryCatch hp fun e => ?_
  by_cases he : e.isSmbpal = true
  · rw [if_pos he]
    exact ho
  · rw [if_neg he]
    exact footprint_throw e

end Steps

section Footprints

variable [Unicode] [Decimals] {P : MonitorOp → Prop}

omit [Unicode] in
theorem performs_journalCause (unit : Str) (h : P (.journal unit)) :
    Performs (S := monitorSig) P (journalCause unit) :=
  performs_takeOr (performs_bind (performs_take h) fun _ => trivial) trivial

omit [Unicode] [Decimals] in
theorem performs_showUnit (unit : Str) (h : P (.unitShow unit)) :
    Performs (S := monitorSig) P (showUnit unit) :=
  performs_takeOr (performs_bind (performs_take h) fun _ => trivial) trivial

omit [Unicode] in
theorem performs_failureCause (unit : Str) (failed : Bool) (h : P (.journal unit)) :
    Performs (S := monitorSig) P (failureCause unit failed) := by
  cases failed with
  | true => exact performs_journalCause unit h
  | false => trivial

omit [Unicode] [Decimals] in
theorem performs_mountedReadOnly (mountpoint : Str) (mounted : Bool) (h : P .mountTable) :
    Performs (S := monitorSig) P (mountedReadOnly mountpoint mounted) := by
  cases mounted with
  | true => exact performs_bind (performs_take h) fun _ => trivial
  | false => trivial

/-- What is only looked at. -/
def MonitorOp.IsReading : MonitorOp → Prop
  | .load | .serverStates | .mountTable | .unitShow _ | .journal _ | .reachable _ => True
  | .primedTarget _ | .attemptFor _ | .previousState _ => True
  | _ => False

/-- Deriving a state reads the mount table, a unit and its journal, and derives
    it for the connection. -/
theorem footprint_deriving (c : Connection) (servers : List (Str × Bool)) (htable : P .mountTable)
    (hshow : ∀ unit, P (.unitShow unit)) (hjournal : ∀ unit, P (.journal unit)) :
    Footprint (S := monitorSig) P (fun state => state.id = c.id) (stateOf c servers) := by
  refine performs_bind ((footprint_fromExcept _).mpr fun _ _ => trivial) fun names => ?_
  refine performs_bind ((footprint_fromExcept _).mpr fun _ _ => trivial) fun mountpoint => ?_
  refine performs_bind (performs_take htable) fun occupied => ?_
  refine performs_bind (performs_take htable) fun mounts => ?_
  refine performs_bind (performs_take htable) fun triggers => ?_
  refine performs_bind (performs_showUnit _ (hshow _)) fun unit => ?_
  refine performs_bind (performs_failureCause _ _ (hjournal _)) fun cause => ?_
  refine performs_bind (performs_mountedReadOnly _ _ htable) fun readOnly => ?_
  refine performs_bind ((footprint_fromExcept _).mpr fun _ _ => trivial) fun answering => ?_
  exact derive_id ..

/-- Deriving a state looks, and derives it for the connection. -/
theorem footprint_stateOf (c : Connection) (servers : List (Str × Bool)) :
    Footprint (S := monitorSig) MonitorOp.IsReading (fun state => state.id = c.id)
      (stateOf c servers) :=
  footprint_deriving c servers trivial (fun _ => trivial) fun _ => trivial

/-- A step of a turn that is about this connection, or about none. -/
def MonitorOp.IsAbout (id : Option Str) : MonitorOp → Prop
  | .start about _ _ => about = id
  | .latch about _ _ => about = id
  | .recordAttempt about _ _ => about = id
  | .replaceStates _ => False
  | .forget _ => False
  | _ => True

/-- A step of priming a connection. -/
def MonitorOp.Primes (id : Option Str) : MonitorOp → Prop
  | .journal _ | .reachable _ | .primedTarget _ | .attemptFor _ => True
  | .start about _ _ => about = id
  | .latch about _ _ => about = id
  | .recordAttempt about _ _ => about = id
  | _ => False

omit [Unicode] [Decimals] in
theorem MonitorOp.Primes.isAbout {id : Option Str} {op : MonitorOp} (h : op.Primes id) :
    op.IsAbout id := by
  cases op with
  | start => exact h
  | latch => exact h
  | recordAttempt => exact h
  | replaceStates => exact h.elim
  | forget => exact h.elim
  | _ => trivial

omit [Unicode] [Decimals] in
theorem performs_queueStart (c : Connection) (unit : Str) (queued : Nat) :
    Performs (S := monitorSig) (MonitorOp.Primes c.id) (queueStart c unit queued) := by
  refine performs_bind (performs_takeOr (performs_bind (performs_take rfl) fun _ => trivial)
    trivial) fun accepted => ?_
  cases accepted with
  | true => exact performs_take rfl
  | false => trivial

omit [Unicode] in
theorem performs_primeIdle (c : Connection) (unit : Str) :
    Performs (S := monitorSig) (MonitorOp.Primes c.id) (primeIdle c unit) := by
  refine performs_bind (performs_take trivial) fun attempt => ?_
  dsimp only
  split
  · exact performs_queueStart c unit _
  · refine performs_bind (performs_journalCause _ trivial) fun cause => ?_
    split
    · exact performs_take rfl
    · split
      · exact performs_take rfl
      · exact performs_queueStart c unit _

omit [Unicode] [Decimals] in
theorem performs_mayPrime (c : Connection) (h : P (.reachable c.host)) :
    Performs (S := monitorSig) P (mayPrime c) := by
  unfold mayPrime
  dsimp only
  split
  · trivial
  · split
    · exact performs_take h
    · trivial

omit [Unicode] in
/-- What a turn does after it has derived a state. -/
theorem performs_priming (c : Connection) (state : ConnectionState) :
    Performs (S := monitorSig) (MonitorOp.Primes c.id) (maybePrime c state) := by
  refine performs_bind ((footprint_fromExcept _).mpr fun _ _ => trivial) fun names => ?_
  split
  · exact performs_bind (performs_take trivial) fun _ => performs_take rfl
  · refine performs_bind (performs_take trivial) fun primed => ?_
    split
    · trivial
    · refine performs_bind (performs_mayPrime c trivial) fun may => ?_
      cases may with
      | false => trivial
      | true => exact performs_primeIdle c names.1

omit [Unicode] in
/-- A turn is about its own connection. -/
theorem performs_maybePrime (c : Connection) (state : ConnectionState) :
    Performs (S := monitorSig) (MonitorOp.IsAbout c.id) (maybePrime c state) :=
  footprint_mono (performs_priming c state) (fun _ h => h.isAbout) fun _ _ => trivial

end Footprints

section Polls

variable [Unicode] [Decimals] {σ : Type} {M : Machine monitorSig σ}

/-- A step of a poll after the config was read that is not one of priming. -/
def MonitorOp.IsTelling : MonitorOp → Prop
  | .serverStates | .mountTable | .unitShow _ | .journal _ | .previousState _ => True
  | .replaceStates _ | .forget _ | .emit _ _ _ | .pushRemoved _ => True
  | _ => False

/-- What reading a config establishes, and its turns and the other steps keep, a
    poll of any config keeps. -/
theorem preserves_poll (prime : Bool) {I₀ : σ → Prop} {I : Config → σ → Prop}
    (hload : ∀ s ans s', I₀ s → M .load s ans s' →
      (∀ config, ans = .ok config → I config s') ∧ (∀ e, ans = .error e → I₀ s'))
    (hstep : ∀ config op s ans s', op.IsTelling → I config s → M op s ans s' → I config s')
    (hprime : ∀ config, ∀ c ∈ config.connections, ∀ state,
      Preserves M (I config) (maybePrime c state))
    (hend : ∀ config s, I config s → I₀ s) : Preserves M I₀ (poll prime) := by
  -- A telling operation keeps what the poll's config asks of the state.
  have htelling : ∀ {α : Type} (config : Config) {p : MonitorM α},
      Performs (S := monitorSig) MonitorOp.IsTelling p → Preserves M (I config) p :=
    fun config p hp => preserves_of_performs hp (hstep config)
  have hvisit : ∀ config, ∀ c ∈ config.connections, ∀ servers,
      Preserves M (I config) (visit prime servers c) := by
    intro config c hc servers
    refine preserves_bind (htelling config (footprint_mono (footprint_deriving c servers trivial
      (fun _ => trivial) fun _ => trivial) (fun _ hop => hop) fun _ _ => trivial)) fun state => ?_
    refine preserves_bind (?_ : Preserves M (I config) (primeIf prime c state)) fun _ =>
      htelling config (performs_bind (performs_take trivial) fun _ => trivial)
    cases prime with
    | true => exact hprime config c hc state
    | false => exact preserves_pure ()
  -- The turns, the events and the forgetting are each an induction on their list.
  have hturns : ∀ config servers cs, (∀ c ∈ cs, c ∈ config.connections) →
      Preserves M (I config) (visitAll prime servers cs) := by
    intro config servers cs hcs
    induction cs with
    | nil => exact preserves_pure ([], [])
    | cons c cs ih =>
        have hrest := ih fun d hd => hcs d (List.mem_cons_of_mem c hd)
        exact preserves_bind (hvisit config c (hcs c List.mem_cons_self) servers) fun seen =>
          preserves_bind hrest fun rest => preserves_pure _
  have hemit : ∀ config changes, Performs (S := monitorSig) MonitorOp.IsTelling
      (emitAll config changes) := by
    intro config changes
    induction changes with
    | nil => trivial
    | cons change changes ih => exact performs_bind (performs_take trivial) fun _ => ih
  have hforget : ∀ ids, Performs (S := monitorSig) MonitorOp.IsTelling (forgetGone ids) := by
    intro ids
    induction ids with
    | nil => trivial
    | cons id ids ih =>
        exact performs_bind (performs_take trivial) fun _ =>
          performs_bind (performs_take trivial) fun _ => ih
  have hrest : ∀ config : Config, Preserves M (I config) (do
      let servers : List (Str × Bool) ← take .serverStates
      let seen ← visitAll prime servers config.connections
      let current := seen.1.foldl setById []
      let gone : List (Option Str) ← take (.replaceStates current)
      emitAll config seen.2
      let ids ← fromExcept (sortedIds gone)
      forgetGone ids
      pure current) := by
    intro config
    refine preserves_bind (htelling config (performs_take trivial)) fun servers => ?_
    refine preserves_bind (hturns config servers _ fun c hc => hc) fun seen => htelling config ?_
    refine performs_bind (performs_take trivial) fun gone => performs_bind (hemit _ _) fun _ => ?_
    refine performs_bind ((footprint_fromExcept _).mpr fun _ _ => trivial) fun ids => ?_
    exact performs_bind (hforget ids) fun _ => trivial
  intro s hs
  unfold poll
  rw [always_bind, always_take]
  intro ans s' hread
  -- A config that cannot be read ends the poll before any turn.
  cases ans with
  | error e => exact (hload s _ s' hs hread).2 e rfl
  | ok config =>
      refine always_mono (hrest config s' ((hload s _ s' hs hread).1 config rfl)) ?_
      exact fun r s'' hs'' => hend config s'' hs''

end Polls

end Smbpal
