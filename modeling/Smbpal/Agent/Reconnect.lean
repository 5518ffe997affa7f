import Mathlib.Data.Rat.Defs
import Mathlib.Algebra.Order.Ring.Unbundled.Rat
import Mathlib.Logic.Function.Basic
import Smbpal.Lib.Floats
import Smbpal.Lib.Run
import Smbpal.Mounts.Volumes
import Smbpal.State.Machine

/-!
# The Reconnect Loop

`agent/reconnect.py`: what the agent of one user does on every pass to have
that user's connections mounted.

A pass reads the daemon's list and the mount table, and considers each of the
user's connections under a lock: it notes what is mounted, takes a mount that
went away for an eject unless something explains it, and decides whether to try
to mount. The mount itself is made outside the lock, and its outcome is
recorded under it again. Between passes the agent's own methods tell the loop
what a person asked for.

What the world does in a pass is its `PassInput`: the clocks, what the kernel
reported, what the daemon and the mount table answered, and how each mount that
was tried came out. Times are rational numbers, and what is computed with them is
rounded as `float` rounds it; `none` is Python's minus infinity.

## Main definitions

* `Track`, `Loop`: What the loop remembers.
* `considered`, `recorded`: The two locked parts of `_consider`.
* `Reconnector.tick`: One pass.
* `Loop.released`, `Loop.connected`: What the agent's methods tell the loop.
* `Reconnector.step`: A pass, or one of them.

## Theorems

* `considerAll_withList`: A pass over the same rows, whatever list is kept.
* `tick_alike`: A pass sees only the records of its own user.
-/

namespace Smbpal

open Lib

/-- What a person is shown of a connection: `status` in the words of
    `state/machine.py`. -/
structure Status where
  state : StateWord
  message : Str
  retryable : Bool
  deriving DecidableEq

/-- `_Track`. -/
structure Track where
  key : MountKey
  mountedAt : Option Str
  lastAt : Option Str
  held : Option Str
  failures : Nat
  nextTry : Rat
  status : Status
  heldStatus : Option Status
  deriving DecidableEq

/-- What the loop remembers from one pass to the next. -/
structure Loop where
  tracks : Str → Option Track
  lastList : List Connection
  troubleUntil : Option Rat
  retryNowUntil : Option Rat
  lastClocks : Option (Rat × Rat)

/-- A loop that has made no pass. -/
def Loop.start : Loop :=
  { tracks := fun _ => none
    lastList := []
    troubleUntil := none
    retryNowUntil := none
    lastClocks := none }

/-- What the loop was made with. -/
structure Reconnector where
  uid : Nat
  username : Str
  interval : Rat

/-- How a mount that was tried came out. -/
inductive MountOutcome where
  | mounted (mountpoint : Str)
  /-- A `NetFSError`. -/
  | netfs (message : Str) (retryable : Bool) (state : StateWord)
  /-- Any other `SmbpalError`. -/
  | smbpal (message : Str)
  /-- Anything else: nothing in the pass catches it. -/
  | raised

/-- A mount that was tried, and how long it took. -/
structure Attempt where
  outcome : MountOutcome
  took : Rat

/-- What the world does in one pass. -/
structure PassInput where
  /-- `VQ_TROUBLE` is among the flags. -/
  volumeTrouble : Bool
  /-- `NETWORK_CHANGED` is among the flags. -/
  networkChanged : Bool
  wall : Rat
  now : Rat
  listed : Except Exc (List Connection)
  mounts : Except Exc (List SmbMount)
  /-- The outcome of the mount tried for the row at a place of the list. -/
  attempts : Nat → Attempt

/-- `FAST_BACKOFF`. -/
def fastBackoff : Rat := 30

/-- `MAX_BACKOFF`. -/
def maxBackoff : Rat := 300

/-- `SLOW_ATTEMPT`. -/
def slowAttempt : Rat := 5

/-- `TROUBLE_WINDOW`. -/
def troubleWindow : Rat := 600

/-- `SLEEP_GAP`. -/
def sleepGap : Rat := 30

/-- `RETRY_AFTER_WAKE`. -/
def retryAfterWake : Rat := 30

/-- `_DISCONNECTED`. -/
def disconnectedStatus : Status :=
  { state := .idle
    message := str "disconnected; it stays disconnected until you connect it"
    retryable := false }

/-- `_EJECTED`. -/
def ejectedStatus : Status :=
  { state := .idle
    message := str "ejected; it stays disconnected until you connect it"
    retryable := false }

/-- Why a connection somebody disconnected is held. -/
def disconnectedReason : Str :=
  str "it was disconnected through SMBPal; " ++ str "`smbpal connection connect` brings it back"

/-- Why a connection whose mount went away is held. -/
def ejectedReason (goneFrom : Str) : Str :=
  str "it was unmounted from " ++ goneFrom ++ str " while nothing said its " ++
    str "server had gone, which is how an eject looks; " ++
    str "`smbpal connection connect` brings it back"

/-- A track that was just made. -/
def Track.new (key : MountKey) : Track :=
  { key := key
    mountedAt := none
    lastAt := none
    held := none
    failures := 0
    nextTry := 0
    status := { state := .unknown, message := str "not checked yet", retryable := false }
    heldStatus := none }

/-- The status of a connection that is mounted. -/
def mountedStatus (mountpoint : Str) : Status :=
  { state := .connected, message := str "mounted at " ++ mountpoint, retryable := false }

section Reconnect

variable [Unicode]

/-- The id of a row, as the loop keys its tracks. -/
def rowId (c : Connection) : Str :=
  pyStr c.id

/-- The share of a row. -/
def rowKey (c : Connection) : MountKey :=
  mountKey (pyStr c.host) (pyStr c.share)

/-- Whether this time is before that one, which may be minus infinity. -/
def before (now : Rat) : Option Rat → Bool
  | none => false
  | some t => decide (now < t)

/-- The later of a time that may be minus infinity and another. -/
def latest : Option Rat → Rat → Option Rat
  | none, t => some t
  | some u, t => some (max u t)

/-- Whether the wall clock ran further than the monotonic one since the last
    pass. -/
def Loop.slept (s : Loop) (wall now : Rat) : Bool :=
  match s.lastClocks with
  | none => false
  | some last => decide (sleepGap < fl (fl (wall - last.1) - fl (now - last.2)))

/-- Clear the backoff of a connection that is waiting to retry. -/
def Track.retryNow (t : Track) : Track :=
  if t.held = none ∧ t.mountedAt = none then { t with nextTry := 0 } else t

/-- `_retry_waiting`. -/
def Loop.retryWaiting (s : Loop) : Loop :=
  { s with tracks := fun id => (s.tracks id).map Track.retryNow }

/-- The windows a wake or the kernel's report opens, and the clocks. -/
def Loop.openWindows (s : Loop) (i : PassInput) : Loop :=
  let asleep := s.slept i.wall i.now
  { s with
    lastClocks := some (i.wall, i.now)
    troubleUntil :=
      if asleep || i.volumeTrouble then latest s.troubleUntil (fl (i.now + troubleWindow))
      else s.troubleUntil
    retryNowUntil := if asleep then some (fl (i.now + retryAfterWake)) else s.retryNowUntil }

/-- The head of `tick`, before anything is read. -/
def Loop.wake (s : Loop) (i : PassInput) : Loop :=
  let opened := s.openWindows i
  if i.networkChanged || before i.now opened.retryNowUntil then opened.retryWaiting else opened

/-- `_read_connections`: the daemon's list, or the last one it gave. -/
def Loop.readConnections (s : Loop) : Except Exc (List Connection) →
    Except Exc (List Connection) × Loop
  | .ok listed => (.ok listed, { s with lastList := listed })
  | .error (.smbpal _) => (.ok s.lastList, s)
  | .error e => (.error e, s)

/-- The rows of the list that are this user's. -/
def Reconnector.mine (r : Reconnector) (listed : List Connection) : List Connection :=
  listed.filter fun c => decide (c.owner = some r.username)

/-- The mount of a share in this user's table, which keeps the last of several. -/
def Reconnector.mountOf (r : Reconnector) (mounts : List SmbMount) (key : MountKey) :
    Option SmbMount :=
  (mounts.filter fun m => decide (m.ownerUid = r.uid) && decide (m.key = key)).getLast?

/-- A track whose share is in the mount table. -/
def Track.noteMounted (t : Track) (mountpoint : Str) : Track :=
  { t with
    mountedAt := some mountpoint
    lastAt := some mountpoint
    held := none
    heldStatus := none
    failures := 0
    nextTry := 0
    status := mountedStatus mountpoint }

/-- A track whose share is not in the mount table: a mount that went away was
    ejected unless the pass is inside the trouble window. -/
def Track.noteGone (t : Track) (trouble : Bool) : Track :=
  match t.mountedAt with
  | none => t
  | some goneFrom =>
      if trouble then
        { t with
          mountedAt := none
          status :=
            { state := .reconnecting
              message := str "the connection was lost; SMBPal is reconnecting"
              retryable := true } }
      else
        { t with
          mountedAt := none
          held := some (ejectedReason goneFrom)
          heldStatus := some ejectedStatus }

/-- A track held because its record is marked disconnected. -/
def Track.noteDisconnected (t : Track) (c : Connection) : Track :=
  if c.disconnected = some true then
    { t with held := some disconnectedReason, heldStatus := some disconnectedStatus }
  else t

/-- Whether to try to mount now, and the track with what is shown if not. -/
def Track.decide (t : Track) (c : Connection) (now : Rat) : Track × Bool :=
  if t.held ≠ none then ({ t with status := t.heldStatus.getD disconnectedStatus }, false)
  else if c.autoConnect = some (str "never") then
    ({ t with
        status :=
          { state := .disabled
            message := str "not connected automatically"
            retryable := false } }, false)
  else (t, Decidable.decide (t.nextTry ≤ now))

/-- The locked part of `_consider`, on the track of a row: the track after it,
    and whether a mount is tried. -/
def considered (t : Track) (c : Connection) (mounted : Option SmbMount) (now : Rat)
    (trouble : Bool) : Track × Bool :=
  match mounted with
  | some m => (t.noteMounted m.mountpoint, false)
  | none => ((t.noteGone trouble).noteDisconnected c).decide c now

/-- The track of a row: the one there is, unless the row is new or points
    somewhere else now. -/
def Loop.trackFor (s : Loop) (c : Connection) : Track :=
  match s.tracks (rowId c) with
  | none => .new (rowKey c)
  | some t => if t.key = rowKey c then t else .new (rowKey c)

/-- Put a track in its place. -/
def Loop.put (s : Loop) (id : Str) (t : Track) : Loop :=
  { s with tracks := Function.update s.tracks id (some t) }

/-- The locked part of `_consider`. -/
def Loop.consider (s : Loop) (c : Connection) (mounted : Option SmbMount) (now : Rat)
    (trouble : Bool) : Loop × Bool :=
  let after := considered (s.trackFor c) c mounted now trouble
  (s.put (rowId c) after.1, after.2)

/-- A track whose mount was refused for good. -/
def Track.refused (t : Track) (message : Str) (kind : StateWord) : Track :=
  let status : Status :=
    { state := if kind = .authFailed then .authFailed else .failed
      message := message ++ str "; SMBPal will not retry it until you connect it"
      retryable := false }
  { t with
    held := some (str "the mount was refused: " ++ message)
    heldStatus := some status
    status := status }

/-- The backoff after so many failures. -/
def backoff (interval : Rat) (failures : Nat) (took : Rat) : Rat :=
  min (fl (interval * 2 ^ failures)) (if slowAttempt ≤ took then maxBackoff else fastBackoff)

/-- From so many failures on, the power of two is no float. -/
def floatLimit : Nat := 1024

/-- A track whose mount failed for a reason that may pass. Counting comes
    before the arithmetic, which overflows. -/
def Track.retryLater (t : Track) (interval now : Rat) (message : Str) (kind : StateWord)
    (took : Rat) : Track × Bool :=
  let counted := { t with failures := t.failures + 1 }
  if floatLimit ≤ counted.failures then (counted, true)
  else
    ({ counted with
        nextTry := fl (now + backoff interval counted.failures took)
        status :=
          { state := if kind = .unreachable then .unreachable else .reconnecting
            message := message ++ str "; SMBPal is trying again"
            retryable := true } }, false)

/-- What is recorded of a mount that was tried, and whether the pass ends
    there with an exception. -/
def recorded (interval now : Rat) (t : Track) (attempt : Attempt) : Track × Bool :=
  match attempt.outcome with
  | .mounted mountpoint =>
      ({ t with
          mountedAt := some mountpoint
          lastAt := some mountpoint
          failures := 0
          nextTry := 0
          status := mountedStatus mountpoint }, false)
  | .netfs message retryable state =>
      if retryable then t.retryLater interval now message state attempt.took
      else (t.refused message state, false)
  | .smbpal message => t.retryLater interval now message .failed attempt.took
  | .raised => (t, true)

/-- Record the outcome of a mount, when there is still a track for it. -/
def Loop.record (s : Loop) (interval now : Rat) (id : Str) (attempt : Attempt) : Loop × Bool :=
  match s.tracks id with
  | none =>
      match attempt.outcome with
      | .raised => (s, true)
      | _ => (s, false)
  | some t =>
      let after := recorded interval now t attempt
      (s.put id after.1, after.2)

/-- What comes of a pass: the loop after it, the rows `_mount` was called for,
    and whether the pass got to its report. -/
structure Passed where
  loop : Loop
  mounted : List Connection
  finished : Bool

/-- Consider each row, the first of them at this place of the list. -/
def Reconnector.considerAll (r : Reconnector) (now : Rat) (attempts : Nat → Attempt)
    (mounts : List SmbMount) (trouble : Bool) : Nat → List Connection → Loop → Passed
  | _, [], s => { loop := s, mounted := [], finished := true }
  | place, c :: rows, s =>
      let after := s.consider c (r.mountOf mounts (rowKey c)) now trouble
      if after.2 then
        let recorded := after.1.record r.interval now (rowId c) (attempts place)
        if recorded.2 then { loop := recorded.1, mounted := [c], finished := false }
        else
          let rest := r.considerAll now attempts mounts trouble (place + 1) rows recorded.1
          { rest with mounted := c :: rest.mounted }
      else r.considerAll now attempts mounts trouble (place + 1) rows after.1

/-- Forget the tracks of connections that are not in the list any more. -/
def Loop.keepSeen (s : Loop) (rows : List Connection) : Loop :=
  { s with tracks := fun id => if id ∈ rows.map rowId then s.tracks id else none }

/-- The end of `tick`, on the rows and the table that were read. -/
def Reconnector.pass (r : Reconnector) (i : PassInput) (rows : List Connection)
    (mounts : List SmbMount) (s : Loop) : Passed :=
  let passed := r.considerAll i.now i.attempts mounts (before i.now s.troubleUntil) 0 rows s
  if passed.finished then { passed with loop := passed.loop.keepSeen rows } else passed

/-- A pass that an exception ended before it considered anything. -/
def Passed.abandoned (s : Loop) : Passed :=
  { loop := s, mounted := [], finished := false }

/-- The rest of `tick`, once the list is read. -/
def Reconnector.passOver (r : Reconnector) (i : PassInput) (listed : List Connection) (s : Loop) :
    Passed :=
  match i.mounts with
  | .error _ => .abandoned s
  | .ok mounts => r.pass i (r.mine listed) mounts s

/-- `tick`. -/
def Reconnector.tick (r : Reconnector) (i : PassInput) (s : Loop) : Passed :=
  match (s.wake i).readConnections i.listed with
  | (.error _, s) => .abandoned s
  | (.ok listed, s) => r.passOver i listed s

/-- `states`, one row: the status and the mountpoint reported for an id. -/
def Loop.states (s : Loop) (id : Str) : Option (Status × Option Str) :=
  (s.tracks id).map fun t => (t.status, t.mountedAt)

omit [Unicode] in
/-- `released`, on one track. -/
def Track.release (t : Track) (mountpoint : Str) : Track :=
  if t.mountedAt = some mountpoint ∨ t.lastAt = some mountpoint then
    { t with
      mountedAt := none
      held := some disconnectedReason
      heldStatus := some disconnectedStatus }
  else t

/-- `released`: a disconnect asked for through SMBPal. -/
def Loop.released (s : Loop) (mountpoint : Str) : Loop :=
  { s with tracks := fun id => (s.tracks id).map (·.release mountpoint) }

/-- `connected`, on one track. -/
def Track.connect (t : Track) (key : MountKey) (mountpoint : Str) : Track :=
  if t.key = key then
    { t with
      mountedAt := some mountpoint
      lastAt := some mountpoint
      held := none
      heldStatus := none
      failures := 0
      nextTry := 0 }
  else t

/-- `connected`, for the share `key_for_url` reads in the URL: a connect asked
    for through SMBPal. -/
def Loop.connected (s : Loop) (key : MountKey) (mountpoint : Str) : Loop :=
  { s with tracks := fun id => (s.tracks id).map (·.connect key mountpoint) }

/-- What happens to a loop. -/
inductive LoopEvent where
  | pass (i : PassInput)
  | released (mountpoint : Str)
  | connected (key : MountKey) (mountpoint : Str)

/-- The loop after an event. -/
def Reconnector.step (r : Reconnector) (s : Loop) : LoopEvent → Loop
  | .pass i => (r.tick i s).loop
  | .released mountpoint => s.released mountpoint
  | .connected key mountpoint => s.connected key mountpoint

/-- The rows `_mount` is called for in an event. -/
def Reconnector.mountsIn (r : Reconnector) (s : Loop) : LoopEvent → List Connection
  | .pass i => (r.tick i s).mounted
  | _ => []

/-- What a pass shows: the rows a mount was tried for, what is reported of each
    id, and whether the pass got that far. -/
structure Decisions where
  mounted : List Connection
  states : Str → Option (Status × Option Str)
  finished : Bool

/-- What an event shows. -/
def Reconnector.decisions (r : Reconnector) (s : Loop) (e : LoopEvent) : Decisions :=
  { mounted := r.mountsIn s e
    states := (r.step s e).states
    finished :=
      match e with
      | .pass i => (r.tick i s).finished
      | _ => true }

/-- A pass whose daemon has these connections stored, when it answers. -/
def PassInput.reading (stored : List Connection) (i : PassInput) : PassInput :=
  match i.listed with
  | .ok _ => { i with listed := .ok stored }
  | .error _ => i

/-- An event of a loop whose daemon has these connections stored. -/
def LoopEvent.reading (stored : List Connection) : LoopEvent → LoopEvent
  | .pass i => .pass (i.reading stored)
  | e => e

/-- What each of some events shows, while the stored connections stay the
    same. -/
def Reconnector.decisionsOver (r : Reconnector) (stored : List Connection) :
    Loop → List LoopEvent → List Decisions
  | _, [] => []
  | s, e :: es =>
      let e := e.reading stored
      r.decisions s e :: r.decisionsOver stored (r.step s e) es

/-- The same loop, remembering another list. -/
def Loop.withList (s : Loop) (l : List Connection) : Loop :=
  { s with lastList := l }

/-- The same outcome, of a loop that remembers another list. -/
def Passed.withList (p : Passed) (l : List Connection) : Passed :=
  { p with loop := p.loop.withList l }

omit [Unicode] in
theorem wake_withList (s : Loop) (i : PassInput) (l : List Connection) :
    (s.withList l).wake i = (s.wake i).withList l := by
  unfold Loop.wake
  have hopen : (s.withList l).openWindows i = (s.openWindows i).withList l := rfl
  rw [hopen]
  change (if i.networkChanged || before i.now (s.openWindows i).retryNowUntil then _ else _) = _
  by_cases h : (i.networkChanged || before i.now (s.openWindows i).retryNowUntil) = true
  · rw [if_pos h, if_pos h]
    rfl
  · rw [if_neg h, if_neg h]

omit [Unicode] in
theorem record_withList (s : Loop) (interval now : Rat) (id : Str) (attempt : Attempt)
    (l : List Connection) : (s.withList l).record interval now id attempt =
      ((s.record interval now id attempt).1.withList l,
        (s.record interval now id attempt).2) := by
  unfold Loop.record
  change (match s.tracks id with | none => _ | some t => _) = _
  cases s.tracks id with
  | none => cases attempt.outcome <;> rfl
  | some t => rfl

/-- Considering rows does not look at the list that is remembered. -/
theorem considerAll_withList (r : Reconnector) (now : Rat) (attempts : Nat → Attempt)
    (mounts : List SmbMount) (trouble : Bool) (place : Nat) (rows : List Connection) (s : Loop)
    (l : List Connection) :
    r.considerAll now attempts mounts trouble place rows (s.withList l) =
      (r.considerAll now attempts mounts trouble place rows s).withList l := by
  induction rows generalizing place s with
  | nil => rfl
  | cons c rows ih =>
      let after := s.consider c (r.mountOf mounts (rowKey c)) now trouble
      have hafter : (s.withList l).consider c (r.mountOf mounts (rowKey c)) now trouble =
          (after.1.withList l, after.2) := rfl
      simp only [Reconnector.considerAll, hafter, record_withList, ih]
      by_cases hmount : after.2 = true
      · rw [if_pos hmount, if_pos hmount]
        split
        · rfl
        · rfl
      · rw [if_neg hmount, if_neg hmount]

theorem pass_withList (r : Reconnector) (i : PassInput) (rows : List Connection)
    (mounts : List SmbMount) (s : Loop) (l : List Connection) :
    r.pass i rows mounts (s.withList l) = (r.pass i rows mounts s).withList l := by
  have hall := considerAll_withList r i.now i.attempts mounts (before i.now s.troubleUntil) 0 rows
    s l
  unfold Reconnector.pass
  have htrouble : (s.withList l).troubleUntil = s.troubleUntil := rfl
  rw [htrouble, hall]
  generalize r.considerAll i.now i.attempts mounts (before i.now s.troubleUntil) 0 rows s = passed
  by_cases hfinished : passed.finished = true
  · simp only [Passed.withList, hfinished, if_true]
    rfl
  · simp only [Passed.withList, hfinished, Bool.false_eq_true, if_false]

theorem passOver_withList (r : Reconnector) (i : PassInput) (listed : List Connection) (s : Loop)
    (l : List Connection) :
    r.passOver i listed (s.withList l) = (r.passOver i listed s).withList l := by
  unfold Reconnector.passOver
  cases i.mounts with
  | error e => rfl
  | ok mounts => exact pass_withList r i (r.mine listed) mounts s l

/-- A pass sees the rows of its own user alone. -/
theorem passOver_mine (r : Reconnector) (i : PassInput) {listed listed' : List Connection}
    (h : r.mine listed' = r.mine listed) (s : Loop) :
    r.passOver i listed' s = r.passOver i listed s := by
  unfold Reconnector.passOver
  rw [h]

theorem passOver_lastList (r : Reconnector) (i : PassInput) (listed : List Connection) (s : Loop) :
    (r.passOver i listed s).loop.lastList = s.lastList := by
  have hself : s = s.withList s.lastList := rfl
  rw [hself, passOver_withList]
  rfl

/-- Two loops that differ in what they remember of other users' records. -/
def Reconnector.Alike (r : Reconnector) (s s' : Loop) : Prop :=
  ∃ l, s' = s.withList l ∧ r.mine l = r.mine s.lastList

/-- What a pass shows does not depend on what is stored for other users, in
    the list it reads or in the one it remembers. -/
theorem tick_alike {r : Reconnector} {s s' : Loop} {stored stored' : List Connection}
    (hstored : r.mine stored' = r.mine stored) (hs : r.Alike s s') (i : PassInput) :
    ∃ l, r.tick (i.reading stored') s' = (r.tick (i.reading stored) s).withList l ∧
      r.mine l = r.mine (r.tick (i.reading stored) s).loop.lastList := by
  rcases hs with ⟨l, rfl, hl⟩
  -- Waking does not touch the list read last.
  have hlast : (s.wake i).lastList = s.lastList := by
    unfold Loop.wake
    dsimp only
    split
    · rfl
    · rfl
  cases hlisted : i.listed with
  | ok listed =>
      -- A list that was read takes the place of the one kept.
      have hreads : ∀ stored s, r.tick (i.reading stored) s =
          r.passOver i stored ((s.wake i).withList stored) := by
        intro stored s
        unfold PassInput.reading Reconnector.tick
        rw [hlisted]
        rfl
      refine ⟨stored', ?_, ?_⟩
      · rw [hreads, hreads, passOver_mine r i hstored, wake_withList]
        exact passOver_withList r i stored ((s.wake i).withList stored) stored'
      · rw [hreads, passOver_lastList]
        exact hstored
  | error e =>
      -- Where nothing was read, what is stored makes no difference to the pass.
      have hreading : ∀ stored, i.reading stored = i := by
        intro stored
        unfold PassInput.reading
        rw [hlisted]
      rw [hreading, hreading]
      unfold Reconnector.tick
      rw [wake_withList, hlisted]
      cases e with
      | smbpal e =>
          refine ⟨l, ?_, ?_⟩
          · -- The pass is over the lists read last, and the rows of both are the same.
            change r.passOver i l ((s.wake i).withList l) =
              (r.passOver i (s.wake i).lastList (s.wake i)).withList l
            rw [passOver_withList, passOver_mine r i (hl.trans (congrArg r.mine hlast.symm))]
          · change _ = r.mine (r.passOver i (s.wake i).lastList (s.wake i)).loop.lastList
            rw [passOver_lastList, hl, hlast]
      | os detail => exact ⟨l, rfl, hl.trans (congrArg r.mine hlast.symm)⟩
      | exception => exact ⟨l, rfl, hl.trans (congrArg r.mine hlast.symm)⟩
      | interrupt => exact ⟨l, rfl, hl.trans (congrArg r.mine hlast.symm)⟩

/-- So what a loop shows over any events does not depend on what is stored for
    other users. -/
theorem decisionsOver_alike {r : Reconnector} {stored stored' : List Connection}
    (hstored : r.mine stored' = r.mine stored) (events : List LoopEvent) {s s' : Loop}
    (hs : r.Alike s s') : r.decisionsOver stored' s' events = r.decisionsOver stored s events := by
  induction events generalizing s s' with
  | nil => rfl
  | cons e events ih =>
      have hstep : r.decisions s' (e.reading stored') = r.decisions s (e.reading stored) ∧
          r.Alike (r.step s (e.reading stored)) (r.step s' (e.reading stored')) := by
        -- Only a pass reads the list, and it reads the user's part of it alone.
        cases e with
        | pass i =>
            rcases tick_alike hstored hs i with ⟨l, htick, hl⟩
            refine ⟨?_, l, congrArg Passed.loop htick, hl⟩
            unfold Reconnector.decisions Reconnector.mountsIn Reconnector.step
            simp only [LoopEvent.reading, htick]
            rfl
        | released mountpoint =>
            rcases hs with ⟨l, rfl, hl⟩
            exact ⟨rfl, l, rfl, hl⟩
        | connected key mountpoint =>
            rcases hs with ⟨l, rfl, hl⟩
            exact ⟨rfl, l, rfl, hl⟩
      unfold Reconnector.decisionsOver
      dsimp only
      rw [hstep.1, ih hstep.2]

end Reconnect

end Smbpal
