import Smbpal.Agent.Backoff
import Smbpal.Daemon.Handlers

/-!
# A Disconnect That Sticks

One agent with its reconnect loop, while connections are disconnected, removed,
connected and added.

A pass reads the daemon's list, then the mount table, and goes over the rows
with what it read. The decision to mount is made under the loop's lock, the
mount outside it. A disconnect takes the mounts of the share away, has the loop
hold it, and has the daemon mark its record, in three steps; a removal deletes
the record and then takes away the mounts that SMBPal made. Any of these steps
may come between any steps of a pass.

So a mount that the loop began before the mounts were taken away is made after
the disconnect was answered (`mounted_after_disconnect`), and a pass whose list
is from before may begin one. Where no mount of the share is under way when its
mounts are taken away, none is begun from an older list afterwards, and the
record that is marked or deleted was the only one of the share that the loop
would mount, the disconnect sticks: `disconnect_sticks`.

A mount under way for a share whose mounts have been taken away is all it takes
(`in_flight_breaks`): the rest of the request and of the mount may follow.

Who made a mount, and which requests have been answered, is kept here; the
program does not have it. A mount that a removal leaves is named in its answer,
and is not counted as the loop's from then on.

## Main definitions

* `LoopSystem`: The loop, its pass, the daemon's records, the mounts and the
  requests.
* `LoopSystem.Step`: What happens.
* `LoopSystem.Sticks`: No share that is to stay away is mounted by the loop.
* `LoopSystem.Careful`: What a step must meet.

## Theorems

* `lets_iff`: When the loop begins a mount.
* `sound_step`: The invariant, over one step.
* `disconnect_sticks`: A disconnect sticks along such runs.
* `in_flight_breaks`, `careless_considers_breaks`, `careless_unmounts_breaks`,
  `careless_releases_breaks`: Otherwise it may not.
* `mounted_after_disconnect`: A run in which it does not.
-/

namespace Smbpal

open Lib

/-- What a pass has read, and goes over its rows with. -/
structure PassSight where
  now : Rat
  trouble : Bool
  rows : List Connection
  table : List SmbMount

/-- How far a pass is. -/
inductive PassPoint where
  | between
  | woken (now : Rat) (trouble : Bool)
  | listed (now : Rat) (trouble : Bool) (rows : List Connection)
  /-- These rows are left. -/
  | going (p : PassSight) (left : List Connection)
  /-- A mount is to be tried for the row. -/
  | trying (p : PassSight) (c : Connection) (left : List Connection)
  /-- The share was found not to be mounted, and is being mounted. -/
  | mounting (p : PassSight) (c : Connection) (left : List Connection)
  | tried (p : PassSight) (c : Connection) (left : List Connection) (attempt : Attempt)

/-- How far a disconnect is. -/
inductive DisconnectPoint where
  | asked
  | unmounted (targets : List Str)
  | told

/-- How far a connect is. -/
inductive ConnectPoint where
  | asked
  | mounted (mountpoint : Str)
  | told (mountpoint : Str)
  | unmarked (mountpoint : Str)

/-- A request under way, with the record it found. -/
inductive ConnectionRequest where
  | disconnect (c : Connection) (point : DisconnectPoint)
  /-- The record is deleted. -/
  | remove (c : Connection)
  | connect (c : Connection) (point : ConnectPoint)

/-- A mount, and whether the loop made it. -/
structure LoopMount where
  mount : SmbMount
  byLoop : Bool
  deriving DecidableEq

/-- The loop and how far its pass is, the records the daemon has stored, the
    mounts, the requests under way by their number, and the shares that are to
    stay away: the last request about them that was answered is a disconnect
    or a removal. -/
structure LoopSystem where
  loop : Loop
  point : PassPoint
  records : List Connection
  table : List LoopMount
  requests : Nat → Option ConnectionRequest
  quiet : List MountKey

/-- The outcome of a mount that failed. -/
def MountOutcome.failed : MountOutcome → Bool
  | .mounted _ => false
  | _ => true

/-- What happens: a step of the pass, of a request, or of something else. -/
inductive SystemEvent where
  /-- What the pass reads comes later. -/
  | wakes (i : PassInput)
  | lists (failure : Option Exc)
  | looks (failure : Option Exc)
  | considers
  | finds (took : Rat)
  | checks
  | lands (m : SmbMount) (took : Rat)
  | fails (attempt : Attempt)
  | records
  | ends
  | asksDisconnect (n : Nat) (c : Connection)
  | unmounts (n : Nat)
  | tells (n : Nat)
  | marks (n : Nat)
  | removes (n : Nat) (c : Connection)
  | releases (n : Nat) (kept : SmbMount → Bool)
  | asksConnect (n : Nat) (c : Connection)
  | connects (n : Nat) (m : SmbMount)
  | tellsConnected (n : Nat)
  | unmarks (n : Nat)
  | recordsWhere (n : Nat)
  | givesUp (n : Nat)
  | adds (c : Connection)
  /-- Mounts are made and lost otherwise. -/
  | others (table : List LoopMount)

section Sticking

variable [Unicode]

/-- The mount is this user's, and of this share. -/
def Reconnector.owns (r : Reconnector) (key : MountKey) (v : LoopMount) : Bool :=
  decide (v.mount.ownerUid = r.uid ∧ v.mount.key = key)

/-- The record has the loop mount nothing: it is marked disconnected, or is never connected
    automatically. -/
def Connection.Mute (c : Connection) : Prop :=
  c.disconnected = some true ∨ c.autoConnect = some (str "never")

/-- No record of the share that is this user's has the loop mount it. -/
def Reconnector.Muted (r : Reconnector) (records : List Connection) (key : MountKey) : Prop :=
  ∀ c ∈ r.mine records, rowKey c = key → c.Mute

/-- The loop may begin a mount for the row. -/
def Loop.Lets (s : Loop) (c : Connection) (mounted : Option SmbMount) (now : Rat)
    (trouble : Bool) : Prop :=
  mounted = none ∧ (s.trackFor c).held = none ∧
    ((s.trackFor c).mountedAt = none ∨ trouble = true) ∧ c.disconnected ≠ some true ∧
      c.autoConnect ≠ some (str "never") ∧ (s.trackFor c).nextTry ≤ now

/-- The share a mount is under way for. -/
def PassPoint.inFlight : PassPoint → Option MountKey
  | .trying _ c _ => some (rowKey c)
  | .mounting _ c _ => some (rowKey c)
  | _ => none

/-- The share whose mounts a disconnect under way has taken away. -/
def ConnectionRequest.stops : ConnectionRequest → Option MountKey
  | .disconnect c (.unmounted _) => some (rowKey c)
  | .disconnect c .told => some (rowKey c)
  | _ => none

namespace LoopSystem

/-- Nothing has happened. -/
def start (records : List Connection) (table : List LoopMount) : LoopSystem :=
  { loop := .start
    point := .between
    records := records
    table := table
    requests := fun _ => none
    quiet := [] }

/-- What the daemon answers to a list. -/
def answer (s : LoopSystem) : Option Exc → Except Exc (List Connection)
  | none => .ok s.records
  | some e => .error e

/-- The decision of `_consider`. -/
def decision (r : Reconnector) (s : LoopSystem) (p : PassSight) (c : Connection) : Loop × Bool :=
  s.loop.consider c (r.mountOf p.table (rowKey c)) p.now p.trouble

/-- What `_unmount` unmounts. -/
def targets (r : Reconnector) (s : LoopSystem) (key : MountKey) (mountpoint : Str) : List Str :=
  match (s.table.filter (r.owns key)).map fun v => v.mount.mountpoint with
  | [] => [mountpoint]
  | found => found

/-- A request as it is now. -/
def put (s : LoopSystem) (n : Nat) (q : Option ConnectionRequest) : LoopSystem :=
  { s with requests := Function.update s.requests n q }

/-- The share may be connected again. -/
def wanted (s : LoopSystem) (key : MountKey) : LoopSystem :=
  { s with quiet := s.quiet.filter fun k => decide (k ≠ key) }

/-- What a release makes of a mount. -/
def released (r : Reconnector) (key : MountKey) (kept : SmbMount → Bool) (v : LoopMount) :
    Option LoopMount :=
  if r.owns key v = true then
    if kept v.mount = true then some { v with byLoop := false } else none
  else some v

/-- The steps. -/
inductive Step (r : Reconnector) : LoopSystem → SystemEvent → LoopSystem → Prop where
  | wakes {s : LoopSystem} (i : PassInput) (h : s.point = .between) :
      Step r s (.wakes i)
        { s with
          loop := s.loop.wake i
          point := .woken i.now (before i.now (s.loop.wake i).troubleUntil) }
  | lists {s : LoopSystem} {now : Rat} {trouble : Bool} {listed : List Connection} {loop : Loop}
      (failure : Option Exc) (h : s.point = .woken now trouble)
      (hread : s.loop.readConnections (s.answer failure) = (.ok listed, loop)) :
      Step r s (.lists failure)
        { s with loop := loop, point := .listed now trouble (r.mine listed) }
  | listFails {s : LoopSystem} {now : Rat} {trouble : Bool} {e : Exc} {loop : Loop}
      (failure : Option Exc) (h : s.point = .woken now trouble)
      (hread : s.loop.readConnections (s.answer failure) = (.error e, loop)) :
      Step r s (.lists failure) { s with loop := loop, point := .between }
  | looks {s : LoopSystem} {now : Rat} {trouble : Bool} {rows : List Connection}
      (h : s.point = .listed now trouble rows) :
      Step r s (.looks none)
        { s with
          point := .going
            { now := now
              trouble := trouble
              rows := rows
              table := s.table.map LoopMount.mount } rows }
  | lookFails {s : LoopSystem} {now : Rat} {trouble : Bool} {rows : List Connection} (e : Exc)
      (h : s.point = .listed now trouble rows) :
      Step r s (.looks (some e)) { s with point := .between }
  | passesOver {s : LoopSystem} {p : PassSight} {c : Connection} {left : List Connection}
      (h : s.point = .going p (c :: left)) (hno : (s.decision r p c).2 = false) :
      Step r s .considers { s with loop := (s.decision r p c).1, point := .going p left }
  | tries {s : LoopSystem} {p : PassSight} {c : Connection} {left : List Connection}
      (h : s.point = .going p (c :: left)) (hyes : (s.decision r p c).2 = true) :
      Step r s .considers { s with loop := (s.decision r p c).1, point := .trying p c left }
  | finds {s : LoopSystem} {p : PassSight} {c : Connection} {left : List Connection}
      {v : LoopMount} (took : Rat) (h : s.point = .trying p c left)
      (hfound : s.table.find? (r.owns (rowKey c)) = some v) :
      Step r s (.finds took)
        { s with
          point := .tried p c left { outcome := .mounted v.mount.mountpoint, took := took } }
  | checks {s : LoopSystem} {p : PassSight} {c : Connection} {left : List Connection}
      (h : s.point = .trying p c left) (hnone : s.table.find? (r.owns (rowKey c)) = none) :
      Step r s .checks { s with point := .mounting p c left }
  | lands {s : LoopSystem} {p : PassSight} {c : Connection} {left : List Connection}
      (m : SmbMount) (took : Rat) (h : s.point = .mounting p c left) (howner : m.ownerUid = r.uid)
      (hkey : m.key = rowKey c) :
      Step r s (.lands m took)
        { s with
          table := s.table ++ [{ mount := m, byLoop := true }]
          point := .tried p c left { outcome := .mounted m.mountpoint, took := took } }
  | fails {s : LoopSystem} {p : PassSight} {c : Connection} {left : List Connection}
      (attempt : Attempt) (h : s.point = .trying p c left ∨ s.point = .mounting p c left)
      (hfailed : attempt.outcome.failed = true) :
      Step r s (.fails attempt) { s with point := .tried p c left attempt }
  | records {s : LoopSystem} {p : PassSight} {c : Connection} {left : List Connection}
      {attempt : Attempt} (h : s.point = .tried p c left attempt) :
      Step r s .records
        { s with
          loop := (s.loop.record r.interval p.now (rowId c) attempt).1
          point :=
            if (s.loop.record r.interval p.now (rowId c) attempt).2 then .between
            else .going p left }
  | ends {s : LoopSystem} {p : PassSight} (h : s.point = .going p []) :
      Step r s .ends { s with loop := s.loop.keepSeen p.rows, point := .between }
  | asksDisconnect {s : LoopSystem} (n : Nat) (c : Connection) (hfree : s.requests n = none)
      (hc : c ∈ s.records) :
      Step r s (.asksDisconnect n c) (s.put n (some (.disconnect c .asked)))
  | unmounts {s : LoopSystem} {c : Connection} {mountpoint : Str} (n : Nat)
      (h : s.requests n = some (.disconnect c .asked)) (hat : c.mountpoint = some mountpoint) :
      Step r s (.unmounts n)
        { s.put n (some (.disconnect c (.unmounted
            (mountpoint :: s.targets r (rowKey c) mountpoint)))) with
          table := s.table.filter fun v =>
            decide (v.mount.mountpoint ∉ s.targets r (rowKey c) mountpoint) }
  | tells {s : LoopSystem} {c : Connection} {targets : List Str} (n : Nat)
      (h : s.requests n = some (.disconnect c (.unmounted targets))) :
      Step r s (.tells n)
        { s.put n (some (.disconnect c .told)) with
          loop := targets.foldl Loop.released s.loop }
  | marks {s : LoopSystem} {c : Connection} (n : Nat)
      (h : s.requests n = some (.disconnect c .told)) :
      Step r s (.marks n)
        { s.put n none with
          records := s.records.map (markDisconnected c.id true)
          quiet := rowKey c :: s.quiet }
  | removes {s : LoopSystem} {before after : List Connection} (n : Nat) (c : Connection)
      (hfree : s.requests n = none) (hc : s.records = before ++ c :: after) :
      Step r s (.removes n c) { s.put n (some (.remove c)) with records := before ++ after }
  | releases {s : LoopSystem} {c : Connection} (n : Nat) (kept : SmbMount → Bool)
      (h : s.requests n = some (.remove c)) :
      Step r s (.releases n kept)
        { s.put n none with
          table := s.table.filterMap (released r (rowKey c) kept)
          quiet := rowKey c :: s.quiet }
  | asksConnect {s : LoopSystem} (n : Nat) (c : Connection) (hfree : s.requests n = none)
      (hc : c ∈ s.records) :
      Step r s (.asksConnect n c) ((s.put n (some (.connect c .asked))).wanted (rowKey c))
  | connectFinds {s : LoopSystem} {c : Connection} {v : LoopMount} (n : Nat) (m : SmbMount)
      (h : s.requests n = some (.connect c .asked))
      (hlock : ∀ p d left, s.point ≠ .mounting p d left)
      (hfound : s.table.find? (r.owns (rowKey c)) = some v) :
      Step r s (.connects n m)
        ((s.put n (some (.connect c (.mounted v.mount.mountpoint)))).wanted (rowKey c))
  | connectLands {s : LoopSystem} {c : Connection} (n : Nat) (m : SmbMount)
      (h : s.requests n = some (.connect c .asked))
      (hlock : ∀ p d left, s.point ≠ .mounting p d left)
      (hnone : s.table.find? (r.owns (rowKey c)) = none) (howner : m.ownerUid = r.uid)
      (hkey : m.key = rowKey c) :
      Step r s (.connects n m)
        { (s.put n (some (.connect c (.mounted m.mountpoint)))).wanted (rowKey c) with
          table := s.table ++ [{ mount := m, byLoop := false }] }
  | tellsConnected {s : LoopSystem} {c : Connection} {mountpoint : Str} (n : Nat)
      (h : s.requests n = some (.connect c (.mounted mountpoint))) :
      Step r s (.tellsConnected n)
        { (s.put n (some (.connect c (.told mountpoint)))).wanted (rowKey c) with
          loop := s.loop.connected (rowKey c) mountpoint }
  | unmarks {s : LoopSystem} {c : Connection} {mountpoint : Str} (n : Nat)
      (h : s.requests n = some (.connect c (.told mountpoint))) :
      Step r s (.unmarks n)
        { (s.put n (some (.connect c (.unmarked mountpoint)))).wanted (rowKey c) with
          records := s.records.map (markDisconnected c.id false) }
  | recordsWhere {s : LoopSystem} {c : Connection} {mountpoint : Str} (n : Nat)
      (h : s.requests n = some (.connect c (.unmarked mountpoint))) :
      Step r s (.recordsWhere n)
        { (s.put n none).wanted (rowKey c) with
          records := s.records.map fun d =>
            if d.id = c.id then { d with mountpoint := some mountpoint } else d }
  | givesUp {s : LoopSystem} (n : Nat) : Step r s (.givesUp n) (s.put n none)
  | adds {s : LoopSystem} (c : Connection) (hmark : c.disconnected = none)
      (hnew : ∀ d ∈ s.records, sameShare (pyStr c.host) (pyStr c.share) d = false) :
      Step r s (.adds c) { s.wanted (rowKey c) with records := s.records ++ [c] }
  | others {s : LoopSystem} (table : List LoopMount)
      (h : ∀ v ∈ table, v.byLoop = true → v ∈ s.table) :
      Step r s (.others table) { s with table := table }

/-- No share that is to stay away is mounted by the loop. -/
def Sticks (r : Reconnector) (s : LoopSystem) : Prop :=
  ∀ key ∈ s.quiet, ∀ v ∈ s.table, r.owns key v = true → v.byLoop = false

/-- The share is to stay away, or will be when a disconnect under way is
    answered. -/
def Stopped (s : LoopSystem) (key : MountKey) : Prop :=
  key ∈ s.quiet ∨ ∃ n q, s.requests n = some q ∧ q.stops = some key

/-- The loop has begun a mount of the share and is not done with it. -/
def InFlight (s : LoopSystem) (key : MountKey) : Prop :=
  s.point.inFlight = some key

/-- What a step must meet. Mounts are taken away where none is under way; for a
    share that is stopped, the loop begins no mount from a list older than the
    answer; and what is marked, deleted or unmarked is the share's one record. -/
def Careful (r : Reconnector) (s : LoopSystem) : SystemEvent → Prop
  | .considers => ∀ p c left, s.point = .going p (c :: left) → s.Stopped (rowKey c) →
      s.loop.Lets c (r.mountOf p.table (rowKey c)) p.now p.trouble →
        rowKey c ∈ s.quiet ∧ c ∈ r.mine s.records
  | .unmounts n => ∀ c, s.requests n = some (.disconnect c .asked) → ¬s.InFlight (rowKey c)
  | .marks n => ∀ c, s.requests n = some (.disconnect c .told) → ∀ d ∈ r.mine s.records,
      rowKey d = rowKey c → d.id ≠ c.id → d.Mute
  | .releases n _ => ∀ c, s.requests n = some (.remove c) →
      ¬s.InFlight (rowKey c) ∧ r.Muted s.records (rowKey c)
  | .unmarks n => ∀ c mountpoint, s.requests n = some (.connect c (.told mountpoint)) →
      ∀ d ∈ r.mine s.records, d.id = c.id → rowKey d = rowKey c
  | _ => True

end LoopSystem

section Decisions

omit [Unicode] in
theorem noteGone_free_iff {t : Track} {trouble : Bool} :
    (t.noteGone trouble).held = none ↔ t.held = none ∧ (t.mountedAt = none ∨ trouble = true) := by
  unfold Track.noteGone
  cases hat : t.mountedAt with
  | none => exact ⟨fun h => ⟨h, Or.inl rfl⟩, fun h => h.1⟩
  | some goneFrom =>
      cases trouble with
      | true => exact ⟨fun h => ⟨h, Or.inr rfl⟩, fun h => h.1⟩
      | false =>
          refine ⟨fun h => absurd h (Option.some_ne_none _), ?_⟩
          rintro ⟨-, hgone | htrouble⟩
          · exact absurd hgone (Option.some_ne_none _)
          · exact absurd htrouble Bool.false_ne_true

omit [Unicode] in
theorem noteDisconnected_free_iff {t : Track} {c : Connection} :
    (t.noteDisconnected c).held = none ↔ t.held = none ∧ c.disconnected ≠ some true := by
  unfold Track.noteDisconnected
  by_cases hmark : c.disconnected = some true
  · rw [if_pos hmark]
    exact ⟨fun h => absurd h (Option.some_ne_none _), fun h => absurd hmark h.2⟩
  · rw [if_neg hmark]
    exact ⟨fun h => ⟨h, hmark⟩, fun h => h.1⟩

omit [Unicode] in
theorem decide_tries_iff {t : Track} {c : Connection} {now : Rat} :
    (t.decide c now).2 = true ↔
      t.held = none ∧ c.autoConnect ≠ some (str "never") ∧ t.nextTry ≤ now := by
  unfold Track.decide
  by_cases hheld : t.held ≠ none
  · rw [if_pos hheld]
    exact ⟨fun h => absurd h Bool.false_ne_true, fun h => absurd h.1 hheld⟩
  · rw [if_neg hheld]
    by_cases hnever : c.autoConnect = some (str "never")
    · rw [if_pos hnever]
      exact ⟨fun h => absurd h Bool.false_ne_true, fun h => absurd hnever h.2.1⟩
    · rw [if_neg hnever]
      exact ⟨fun h => ⟨not_not.mp hheld, hnever, of_decide_eq_true h⟩,
        fun h => decide_eq_true h.2.2⟩

/-- When the loop begins a mount. -/
theorem lets_iff {s : Loop} {c : Connection} {mounted : Option SmbMount} {now : Rat}
    {trouble : Bool} :
    (s.consider c mounted now trouble).2 = true ↔ s.Lets c mounted now trouble := by
  have hnext : (((s.trackFor c).noteGone trouble).noteDisconnected c).nextTry =
      (s.trackFor c).nextTry :=
    (noteDisconnected_counts _ c).2.trans (noteGone_counts _ trouble).2
  unfold Loop.consider considered Loop.Lets
  cases mounted with
  | some m =>
      exact ⟨fun h => absurd h Bool.false_ne_true, fun h => absurd h.1 (Option.some_ne_none m)⟩
  | none =>
      change (Track.decide _ c now).2 = true ↔ _
      rw [decide_tries_iff, noteDisconnected_free_iff, noteGone_free_iff, hnext]
      constructor
      · rintro ⟨⟨⟨hheld, hgone⟩, hmark⟩, hnever, hdue⟩
        exact ⟨rfl, hheld, hgone, hmark, hnever, hdue⟩
      · rintro ⟨-, hheld, hgone, hmark, hnever, hdue⟩
        exact ⟨⟨⟨hheld, hgone⟩, hmark⟩, hnever, hdue⟩

end Decisions

namespace LoopSystem

/-- A share that is stopped is muted once it is to stay away, and no mount of it
    is under way or there by the loop. -/
structure Sound (r : Reconnector) (s : LoopSystem) : Prop where
  muted : ∀ key ∈ s.quiet, r.Muted s.records key
  still : ∀ key, s.Stopped key → ¬s.InFlight key
  apart : ∀ key, s.Stopped key → ∀ v ∈ s.table, r.owns key v = true → v.byLoop = false

section Invariant

variable {r : Reconnector} {s s' : LoopSystem} {n : Nat}

theorem Sound.sticks (hs : s.Sound r) : s.Sticks r :=
  fun key hkey => hs.apart key (Or.inl hkey)

theorem start_sound (r : Reconnector) (records : List Connection) (table : List LoopMount) :
    (start records table).Sound r := by
  have hfree : ∀ key, ¬(start records table).Stopped key := by
    rintro key (hquiet | ⟨n, q, hq, -⟩)
    · exact absurd hquiet List.not_mem_nil
    · cases hq
  exact ⟨fun key hkey => absurd hkey List.not_mem_nil, fun key hkey => absurd hkey (hfree key),
    fun key hkey => absurd hkey (hfree key)⟩

/-- A step that stops no share, begins no mount, has the loop make none and
    leaves the records of those that are to stay away muted. -/
theorem Sound.of_less (hs : s.Sound r)
    (hmuted : ∀ key ∈ s'.quiet, r.Muted s.records key → r.Muted s'.records key)
    (hquiet : ∀ key ∈ s'.quiet, key ∈ s.quiet)
    (hrequests : ∀ m q, s'.requests m = some q → q.stops ≠ none → s.requests m = some q)
    (hflight : ∀ key, s'.InFlight key → s.InFlight key)
    (htable : ∀ v ∈ s'.table, v.byLoop = true → v ∈ s.table) : s'.Sound r := by
  have hstopped : ∀ key, s'.Stopped key → s.Stopped key := by
    rintro key (hkey | ⟨m, q, hq, hstops⟩)
    · exact Or.inl (hquiet key hkey)
    · refine Or.inr ⟨m, q, hrequests m q hq ?_, hstops⟩
      rw [hstops]
      exact Option.some_ne_none key
  refine ⟨fun key hkey => hmuted key hkey (hs.muted key (hquiet key hkey)),
    fun key hkey hfly => hs.still key (hstopped key hkey) (hflight key hfly),
    fun key hkey v hv howns => ?_⟩
  by_contra hloop
  rw [Bool.not_eq_false] at hloop
  have hfalse := hs.apart key (hstopped key hkey) v (htable v hv hloop) howns
  rw [hfalse] at hloop
  exact Bool.false_ne_true hloop

/-- A request that is put in its place and takes no mounts away. -/
theorem put_requests {q : Option ConnectionRequest} (hq : ∀ q', q = some q' → q'.stops = none)
    {m : Nat} {q' : ConnectionRequest} (h : (s.put n q).requests m = some q')
    (hstops : q'.stops ≠ none) : s.requests m = some q' := by
  change Function.update s.requests n q m = some q' at h
  by_cases hm : m = n
  · rw [hm, Function.update_self] at h
    exact absurd (hq q' h) hstops
  · rwa [Function.update_of_ne hm] at h

omit [Unicode] in
theorem mem_wanted {key other : MountKey} :
    other ∈ (s.wanted key).quiet ↔ other ∈ s.quiet ∧ other ≠ key := by
  change other ∈ s.quiet.filter _ ↔ _
  rw [List.mem_filter, decide_eq_true_eq]

omit [Unicode] in
theorem mem_mine {records : List Connection} {d : Connection} :
    d ∈ r.mine records ↔ d ∈ records ∧ d.owner = some r.username := by
  unfold Reconnector.mine
  rw [List.mem_filter, decide_eq_true_eq]

/-- Records that change without their owner or share stay muted if they stay marked. -/
theorem muted_map {records : List Connection} {key : MountKey} {f : Connection → Connection}
    (howner : ∀ d, (f d).owner = d.owner) (hkey : ∀ d, rowKey (f d) = rowKey d)
    (hmute : ∀ d ∈ r.mine records, rowKey d = key → (f d).Mute) :
    r.Muted (records.map f) key := by
  intro d hd hdkey
  rcases mem_mine.mp hd with ⟨hmem, hmine⟩
  rcases List.mem_map.mp hmem with ⟨d₀, hd₀, rfl⟩
  exact hmute d₀ (mem_mine.mpr ⟨hd₀, (howner d₀).symm.trans hmine⟩) ((hkey d₀).symm.trans hdkey)

omit [Unicode] in
theorem markDisconnected_same (id : Option Str) (value : Bool) (d : Connection) :
    (markDisconnected id value d).owner = d.owner ∧ (markDisconnected id value d).host = d.host ∧
      (markDisconnected id value d).share = d.share := by
  unfold markDisconnected
  split
  · exact ⟨rfl, rfl, rfl⟩
  · exact ⟨rfl, rfl, rfl⟩

theorem markDisconnected_rowKey (id : Option Str) (value : Bool) (d : Connection) :
    rowKey (markDisconnected id value d) = rowKey d := by
  unfold rowKey
  rw [(markDisconnected_same id value d).2.1, (markDisconnected_same id value d).2.2]

omit [Unicode] in
/-- A record is mute when its id is named, and stays so otherwise. -/
theorem markDisconnected_mute {id : Option Str} {d : Connection} (h : d.id = id ∨ d.Mute) :
    (markDisconnected id true d).Mute := by
  unfold markDisconnected
  by_cases hboth : d.id = id ∧ d.disconnected.getD false ≠ true
  · rw [if_pos hboth]
    exact Or.inl rfl
  · rw [if_neg hboth]
    rcases h with hid | hmute
    · have hmark : d.disconnected.getD false = true := by
        by_contra hunmarked
        exact hboth ⟨hid, hunmarked⟩
      cases hvalue : d.disconnected with
      | none =>
          rw [hvalue] at hmark
          exact absurd hmark Bool.false_ne_true
      | some value =>
          rw [hvalue] at hmark
          exact Or.inl (hvalue.trans (congrArg some hmark))
    · exact hmute

omit [Unicode] in
/-- Another record is left as it is. -/
theorem markDisconnected_other {id : Option Str} {value : Bool} {d : Connection} (h : d.id ≠ id) :
    markDisconnected id value d = d :=
  if_neg fun hboth => h hboth.1

/-- What an unmount leaves of the share. -/
theorem unmounted_none {key : MountKey} {mountpoint : Str} {v : LoopMount}
    (hv : v ∈ s.table.filter fun v =>
      decide (v.mount.mountpoint ∉ s.targets r key mountpoint)) :
    v ∈ s.table ∧ r.owns key v = false := by
  rcases List.mem_filter.mp hv with ⟨hmem, hleft⟩
  refine ⟨hmem, ?_⟩
  by_contra howns
  rw [Bool.not_eq_false] at howns
  -- Its path is one of the targets, whichever they are.
  have hpath : v.mount.mountpoint ∈
      (s.table.filter (r.owns key)).map fun v => v.mount.mountpoint :=
    List.mem_map.mpr ⟨v, List.mem_filter.mpr ⟨hmem, howns⟩, rfl⟩
  refine of_decide_eq_true hleft ?_
  unfold targets
  cases hfound : (s.table.filter (r.owns key)).map fun v => v.mount.mountpoint with
  | nil =>
      rw [hfound] at hpath
      exact absurd hpath List.not_mem_nil
  | cons path paths =>
      rw [hfound] at hpath
      exact hpath

/-- What a release leaves of a table. -/
theorem mem_released {key : MountKey} {kept : SmbMount → Bool} {v : LoopMount}
    (hv : v ∈ s.table.filterMap (released r key kept)) (hloop : v.byLoop = true) :
    v ∈ s.table ∧ r.owns key v = false := by
  rcases List.mem_filterMap.mp hv with ⟨u, hu, heq⟩
  unfold released at heq
  by_cases howns : r.owns key u = true
  · rw [if_pos howns] at heq
    split at heq
    · rw [← Option.some.inj heq] at hloop
      exact absurd hloop Bool.false_ne_true
    · cases heq
  · rw [if_neg howns] at heq
    cases heq
    exact ⟨hu, Bool.eq_false_iff.mpr howns⟩

/-- A step of the pass that begins no mount and makes none. -/
theorem Sound.of_pass (hs : s.Sound r) (hrecords : s'.records = s.records)
    (hquiet : s'.quiet = s.quiet) (hrequests : s'.requests = s.requests)
    (hflight : ∀ key, s'.InFlight key → s.InFlight key) (htable : s'.table = s.table) :
    s'.Sound r := by
  refine hs.of_less (fun key _ hmuted => ?_) (fun key hkey => ?_) (fun m q hq _ => ?_) hflight
    fun v hv _ => ?_
  · rwa [hrecords]
  · rwa [← hquiet]
  · rwa [← hrequests]
  · rwa [← htable]

/-- A step of a request that takes no mounts away, marks nothing and is not its answer. -/
theorem Sound.of_request (hs : s.Sound r) {q : Option ConnectionRequest}
    (hq : ∀ q', q = some q' → q'.stops = none) (hrequests : s'.requests = (s.put n q).requests)
    (hmuted : ∀ key ∈ s'.quiet, r.Muted s.records key → r.Muted s'.records key)
    (hquiet : ∀ key ∈ s'.quiet, key ∈ s.quiet) (hpoint : s'.point = s.point)
    (htable : ∀ v ∈ s'.table, v.byLoop = true → v ∈ s.table) : s'.Sound r := by
  refine hs.of_less hmuted hquiet (fun m q' hq' hstops => ?_) (fun key hkey => ?_) htable
  · rw [hrequests] at hq'
    exact put_requests hq hq' hstops
  · change s'.point.inFlight = some key at hkey
    rwa [hpoint] at hkey

/-- Beginning a mount of a share that is not stopped. -/
theorem sound_tries (hs : s.Sound r) {p : PassSight} {c : Connection} {left : List Connection}
    (hfree : ¬s.Stopped (rowKey c)) (loop : Loop) :
    ({ s with loop := loop, point := .trying p c left } : LoopSystem).Sound r := by
  refine ⟨hs.muted, fun key hstopped hflight => ?_, hs.apart⟩
  rw [← Option.some.inj hflight] at hstopped
  exact hfree hstopped

/-- A mount the loop makes is of a share that is not stopped. -/
theorem sound_lands (hs : s.Sound r) {p : PassSight} {c : Connection} {left : List Connection}
    {m : SmbMount} {attempt : Attempt} (h : s.point = .mounting p c left)
    (hkey : m.key = rowKey c) :
    ({ s with
        table := s.table ++ [{ mount := m, byLoop := true }]
        point := .tried p c left attempt } : LoopSystem).Sound r := by
  have hflight : s.InFlight (rowKey c) := congrArg PassPoint.inFlight h
  refine ⟨hs.muted, fun key _ hfly => ?_, fun key hstopped v hv howns => ?_⟩
  · cases hfly
  · rcases List.mem_append.mp hv with hold | hnew
    · exact hs.apart key hstopped v hold howns
    · rw [List.mem_singleton.mp hnew] at howns
      have hthis : m.key = key := (of_decide_eq_true howns).2
      rw [← hthis, hkey] at hstopped
      exact absurd hflight (hs.still _ hstopped)

/-- A request about a share comes further, so that the share is stopped: none of its mounts is
    under way, and none is left that the loop made. -/
theorem Sound.of_stopped (hs : s.Sound r) (key₀ : MountKey) (n : Nat)
    (q : Option ConnectionRequest) (hrequests : s'.requests = (s.put n q).requests)
    (hq : ∀ q' key, q = some q' → q'.stops = some key → key = key₀)
    (hquiet : ∀ key ∈ s'.quiet, key ∈ s.quiet ∨ key = key₀)
    (hmuted : ∀ key ∈ s'.quiet, r.Muted s'.records key)
    (hpoint : s'.point = s.point) (hstill : ¬s.InFlight key₀)
    (htable : ∀ v ∈ s'.table, v.byLoop = true → v ∈ s.table ∧ r.owns key₀ v = false) :
    s'.Sound r := by
  -- No key is stopped but the new one, by the changed request or the quiet ones.
  have hstopped : ∀ key, s'.Stopped key → s.Stopped key ∨ key = key₀ := by
    rintro key (hkey | ⟨m, q', hq', hstops⟩)
    · rcases hquiet key hkey with hkey | hkey
      · exact Or.inl (Or.inl hkey)
      · exact Or.inr hkey
    · rw [hrequests] at hq'
      change Function.update s.requests n q m = some q' at hq'
      by_cases hm : m = n
      · rw [hm, Function.update_self] at hq'
        exact Or.inr (hq q' key hq' hstops)
      · rw [Function.update_of_ne hm] at hq'
        exact Or.inl (Or.inr ⟨m, q', hq', hstops⟩)
  refine ⟨hmuted, fun key hkey hfly => ?_, fun key hkey v hv howns => ?_⟩
  · change s'.point.inFlight = some key at hfly
    rw [hpoint] at hfly
    rcases hstopped key hkey with hold | rfl
    · exact hs.still key hold hfly
    · exact hstill hfly
  · -- A volume of the loop's was there before, and is none of the new key's.
    by_contra hloop
    rw [Bool.not_eq_false] at hloop
    rcases htable v hv hloop with ⟨hmem, hother⟩
    rcases hstopped key hkey with hold | rfl
    · exact Bool.false_ne_true ((hs.apart key hold v hmem howns).symm.trans hloop)
    · exact Bool.false_ne_true (hother.symm.trans howns)

/-- A mount the loop made is of no share that is stopped. -/
theorem Sound.not_owns (hs : s.Sound r) {key : MountKey} (hstopped : s.Stopped key)
    {v : LoopMount} (hv : v ∈ s.table) (hloop : v.byLoop = true) : r.owns key v = false := by
  rw [Bool.eq_false_iff]
  intro howns
  exact Bool.false_ne_true ((hs.apart key hstopped v hv howns).symm.trans hloop)

/-- A disconnect takes the mounts of its share away. -/
theorem sound_unmounts (hs : s.Sound r) {c : Connection} {mountpoint : Str} {paths : List Str}
    (hstill : ¬s.InFlight (rowKey c)) :
    ({ s.put n (some (.disconnect c (.unmounted paths))) with
        table := s.table.filter fun v =>
          decide (v.mount.mountpoint ∉ s.targets r (rowKey c) mountpoint) } :
      LoopSystem).Sound r := by
  refine hs.of_stopped (rowKey c) n (some (.disconnect c (.unmounted paths))) rfl
    (fun q' key hq' hstops => ?_) (fun key hkey => Or.inl hkey) hs.muted rfl hstill
    fun v hv _ => unmounted_none hv
  cases hq'
  exact (Option.some.inj hstops).symm

/-- The loop is told of a disconnect. -/
theorem sound_tells (hs : s.Sound r) {c : Connection} {paths : List Str} (loop : Loop)
    (h : s.requests n = some (.disconnect c (.unmounted paths))) :
    ({ s.put n (some (.disconnect c .told)) with loop := loop } : LoopSystem).Sound r := by
  have hstopped : s.Stopped (rowKey c) := Or.inr ⟨n, _, h, rfl⟩
  refine hs.of_stopped (rowKey c) n (some (.disconnect c .told)) rfl
    (fun q' key hq' hstops => ?_) (fun key hkey => Or.inl hkey) hs.muted rfl
    (hs.still _ hstopped) fun v hv hloop => ⟨hv, hs.not_owns hstopped hv hloop⟩
  cases hq'
  exact (Option.some.inj hstops).symm

omit [Unicode] in
/-- A share that was to stay away, or is the one of this answer. -/
theorem quiet_cons {key key₀ : MountKey} (h : key ∈ key₀ :: s.quiet) :
    key ∈ s.quiet ∨ key = key₀ :=
  (List.mem_cons.mp h).symm

/-- A disconnect is answered: its record is marked, and was the only one that was not mute. -/
theorem sound_marks (hs : s.Sound r) {c : Connection}
    (h : s.requests n = some (.disconnect c .told))
    (hothers : ∀ d ∈ r.mine s.records, rowKey d = rowKey c → d.id ≠ c.id → d.Mute) :
    ({ s.put n none with
        records := s.records.map (markDisconnected c.id true)
        quiet := rowKey c :: s.quiet } : LoopSystem).Sound r := by
  have hstopped : s.Stopped (rowKey c) := Or.inr ⟨n, _, h, rfl⟩
  refine hs.of_stopped (rowKey c) n none rfl (fun q' key hq' _ => ?_)
    (fun key hkey => quiet_cons hkey) (fun key hkey => ?_) rfl (hs.still _ hstopped)
    fun v hv hloop => ⟨hv, hs.not_owns hstopped hv hloop⟩
  · cases hq'
  · refine muted_map (fun d => (markDisconnected_same c.id true d).1)
      (markDisconnected_rowKey c.id true) fun d hd hdkey => markDisconnected_mute ?_
    rcases List.mem_cons.mp hkey with rfl | hkey
    · by_cases hid : d.id = c.id
      · exact Or.inl hid
      · exact Or.inr (hothers d hd hdkey hid)
    · exact Or.inr (hs.muted key hkey d hd hdkey)

/-- A removal is answered: the share's records that are left are mute. -/
theorem sound_releases (hs : s.Sound r) {c : Connection} {kept : SmbMount → Bool}
    (hstill : ¬s.InFlight (rowKey c)) (hmuted : r.Muted s.records (rowKey c)) :
    ({ s.put n none with
        table := s.table.filterMap (released r (rowKey c) kept)
        quiet := rowKey c :: s.quiet } : LoopSystem).Sound r := by
  refine hs.of_stopped (rowKey c) n none rfl (fun q' key hq' _ => ?_)
    (fun key hkey => quiet_cons hkey) (fun key hkey => ?_) rfl hstill
    fun v hv hloop => mem_released hv hloop
  · cases hq'
  · rcases List.mem_cons.mp hkey with rfl | hkey
    · exact hmuted
    · exact hs.muted key hkey

/-- A connect clears the mark of its own share only. -/
theorem unmarked_muted {c : Connection} {key : MountKey} (hkey : key ≠ rowKey c)
    (hsame : ∀ d ∈ r.mine s.records, d.id = c.id → rowKey d = rowKey c)
    (hmuted : r.Muted s.records key) :
    r.Muted (s.records.map (markDisconnected c.id false)) key := by
  refine muted_map (fun d => (markDisconnected_same c.id false d).1)
    (markDisconnected_rowKey c.id false) fun d hd hdkey => ?_
  have hid : d.id ≠ c.id := fun hid => hkey (hdkey.symm.trans (hsame d hd hid))
  rw [markDisconnected_other hid]
  exact hmuted d hd hdkey

/-- The loop begins no mount of a share that is stopped. -/
theorem careful_tries (hs : s.Sound r) {p : PassSight} {c : Connection} {left : List Connection}
    (h : s.point = .going p (c :: left)) (hyes : (s.decision r p c).2 = true)
    (hcareful : s.Careful r .considers) : ¬s.Stopped (rowKey c) := by
  intro hstopped
  have hlets := lets_iff.mp hyes
  rcases hcareful p c left h hstopped hlets with ⟨hquiet, hmine⟩
  rcases hs.muted _ hquiet c hmine rfl with hmark | hnever
  · exact hlets.2.2.2.1 hmark
  · exact hlets.2.2.2.2.1 hnever

/-- Where the pass is not at a mount, none is under way. -/
theorem not_inFlight {key : MountKey} (h : s.point.inFlight = none) : ¬s.InFlight key := by
  intro hfly
  rw [InFlight, h] at hfly
  cases hfly

/-- A careful step keeps the invariant. -/
theorem sound_step {e : SystemEvent} (hs : s.Sound r) (hcareful : s.Careful r e)
    (h : Step r s e s') : s'.Sound r := by
  cases h with
  -- The loop: each point of a pass, where only a mount touches the table.
  | wakes i h => exact hs.of_pass rfl rfl rfl (fun key hfly => by cases hfly) rfl
  | lists failure h hread => exact hs.of_pass rfl rfl rfl (fun key hfly => by cases hfly) rfl
  | listFails failure h hread => exact hs.of_pass rfl rfl rfl (fun key hfly => by cases hfly) rfl
  | looks h => exact hs.of_pass rfl rfl rfl (fun key hfly => by cases hfly) rfl
  | lookFails e h => exact hs.of_pass rfl rfl rfl (fun key hfly => by cases hfly) rfl
  | passesOver h hno => exact hs.of_pass rfl rfl rfl (fun key hfly => by cases hfly) rfl
  | tries h hyes => exact sound_tries hs (careful_tries hs h hyes hcareful) _
  | finds took h hfound => exact hs.of_pass rfl rfl rfl (fun key hfly => by cases hfly) rfl
  | checks h hnone =>
      refine hs.of_pass rfl rfl rfl (fun key hfly => ?_) rfl
      rw [InFlight, h]
      exact hfly
  | lands m took h howner hkey => exact sound_lands hs h hkey
  | fails attempt h hfailed => exact hs.of_pass rfl rfl rfl (fun key hfly => by cases hfly) rfl
  | records h =>
      refine hs.of_pass rfl rfl rfl (fun key hfly => absurd hfly (not_inFlight ?_)) rfl
      dsimp only
      split
      · rfl
      · rfl
  | ends h => exact hs.of_pass rfl rfl rfl (fun key hfly => by cases hfly) rfl
  -- The threads of the requests, which stop a key or let it go.
  | asksDisconnect n c hfree hc =>
      exact hs.of_request (q := some (.disconnect c .asked)) (fun q' hq' => by cases hq'; rfl) rfl
        (fun _ _ h => h) (fun _ h => h) rfl fun _ hv _ => hv
  | unmounts n h hat => exact sound_unmounts hs (hcareful _ h)
  | tells n h => exact sound_tells hs _ h
  | marks n h => exact sound_marks hs h (hcareful _ h)
  | removes n c hfree hc =>
      refine hs.of_request (q := some (.remove c)) (fun q' hq' => by cases hq'; rfl) rfl
        (fun key _ hmuted d hd => hmuted d ?_) (fun _ h => h) rfl fun _ hv _ => hv
      -- The rows that are left were there before.
      rcases mem_mine.mp hd with ⟨hmem, hmine⟩
      refine mem_mine.mpr ⟨?_, hmine⟩
      rw [hc]
      rcases List.mem_append.mp hmem with hbefore | hafter
      · exact List.mem_append_left _ hbefore
      · exact List.mem_append_right _ (List.mem_cons_of_mem c hafter)
  | releases n kept h => exact sound_releases hs (hcareful _ h).1 (hcareful _ h).2
  | asksConnect n c hfree hc =>
      exact hs.of_request (q := some (.connect c .asked)) (fun q' hq' => by cases hq'; rfl) rfl
        (fun _ _ h => h) (fun _ h => (mem_wanted.mp h).1) rfl fun _ hv _ => hv
  | connectFinds n m h hlock hfound =>
      exact hs.of_request (q := some (.connect _ (.mounted _))) (fun q' hq' => by cases hq'; rfl)
        rfl (fun _ _ h => h) (fun _ h => (mem_wanted.mp h).1) rfl fun _ hv _ => hv
  | connectLands n m h hlock hnone howner hkey =>
      refine hs.of_request (q := some (.connect _ (.mounted _))) (fun q' hq' => by cases hq'; rfl)
        rfl (fun _ _ h => h) (fun _ h => (mem_wanted.mp h).1) rfl fun v hv hloop => ?_
      -- What a request mounts is not the loop's.
      rcases List.mem_append.mp hv with hold | hnew
      · exact hold
      · rw [List.mem_singleton.mp hnew] at hloop
        exact absurd hloop Bool.false_ne_true
  | tellsConnected n h =>
      exact hs.of_request (q := some (.connect _ (.told _))) (fun q' hq' => by cases hq'; rfl) rfl
        (fun _ _ h => h) (fun _ h => (mem_wanted.mp h).1) rfl fun _ hv _ => hv
  | unmarks n h =>
      exact hs.of_request (q := some (.connect _ (.unmarked _))) (fun q' hq' => by cases hq'; rfl)
        rfl (fun key hkey hmuted => unmarked_muted (mem_wanted.mp hkey).2 (hcareful _ _ h) hmuted)
        (fun _ h => (mem_wanted.mp h).1) rfl fun _ hv _ => hv
  | recordsWhere n h =>
      refine hs.of_request (q := none) (fun q' hq' => by cases hq') rfl
        (fun key _ hmuted => muted_map (fun d => ?_) (fun d => ?_) fun d hd hkey => ?_)
        (fun _ h => (mem_wanted.mp h).1) rfl fun _ hv _ => hv
      · split
        · rfl
        · rfl
      · split
        · rfl
        · rfl
      · split
        · exact hmuted d hd hkey
        · exact hmuted d hd hkey
  | givesUp n =>
      exact hs.of_request (q := none) (fun q' hq' => by cases hq') rfl
        (fun _ _ h => h) (fun _ h => h) rfl fun _ hv _ => hv
  | adds c hmark hnew =>
      refine hs.of_less (fun key hkey hmuted d hd hdkey => ?_) (fun _ h => (mem_wanted.mp h).1)
        (fun _ _ h _ => h) (fun _ h => h) fun _ hv _ => hv
      -- A key that is stopped is not that of the connection added.
      rcases mem_mine.mp hd with ⟨hmem, hmine⟩
      rcases List.mem_append.mp hmem with hold | hadded
      · exact hmuted d (mem_mine.mpr ⟨hold, hmine⟩) hdkey
      · rw [List.mem_singleton.mp hadded] at hdkey
        exact absurd hdkey.symm (mem_wanted.mp hkey).2
  | others table h =>
      exact hs.of_less (fun _ _ h => h) (fun _ h => h) (fun _ _ h _ => h) (fun _ h => h) h

end Invariant

section Windows

variable {r : Reconnector} {s : LoopSystem} {key : MountKey}

/-- Whatever happens. -/
def anyhow (_ : LoopSystem) (_ : SystemEvent) : Prop :=
  True

/-- A mount of a share that is to stay away, as it comes to be made. -/
theorem mounting_breaks {p : PassSight} {c : Connection} {left : List Connection}
    (hquiet : rowKey c ∈ s.quiet) (h : s.point = .mounting p c left) :
    ∃ s', GuardedRun (Step r) anyhow s s' ∧ ¬s'.Sticks r := by
  let m : SmbMount :=
    { host := pyStr c.host
      share := pyStr c.share
      mountpoint := []
      ownerUid := r.uid
      fsid := (0, 0) }
  refine ⟨_, .next (.lands m 0) .start trivial (.lands m 0 h rfl rfl), fun hsticks => ?_⟩
  have hnot := hsticks (rowKey c) hquiet { mount := m, byLoop := true }
    (List.mem_append_right _ List.mem_cons_self) (decide_eq_true ⟨rfl, rfl⟩)
  exact Bool.false_ne_true hnot.symm

/-- A mount that is under way for a share that is to stay away. -/
theorem quiet_breaks (hquiet : key ∈ s.quiet) (hflight : s.InFlight key) :
    ∃ s', GuardedRun (Step r) anyhow s s' ∧ ¬s'.Sticks r := by
  rw [InFlight] at hflight
  cases h : s.point with
  | trying p c left =>
      rw [h] at hflight
      rw [← Option.some.inj hflight] at hquiet
      -- Whatever is mounted goes, so that the check finds nothing.
      let s₁ : LoopSystem := { s with table := [] }
      let s₂ : LoopSystem := { s₁ with point := .mounting p c left }
      have hgone : GuardedRun (Step r) anyhow s s₁ :=
        .next (.others []) .start trivial (.others [] fun v hv => absurd hv List.not_mem_nil)
      have hchecked : GuardedRun (Step r) anyhow s₁ s₂ :=
        .next .checks .start trivial (.checks h rfl)
      rcases @mounting_breaks _ r s₂ p c left hquiet rfl with ⟨s', hrun, hbroken⟩
      exact ⟨s', (hgone.trans hchecked).trans hrun, hbroken⟩
  | mounting p c left =>
      rw [h] at hflight
      rw [← Option.some.inj hflight] at hquiet
      exact mounting_breaks hquiet h
  | between =>
      rw [h] at hflight
      cases hflight
  | woken now trouble =>
      rw [h] at hflight
      cases hflight
  | listed now trouble rows =>
      rw [h] at hflight
      cases hflight
  | going p left =>
      rw [h] at hflight
      cases hflight
  | tried p c left attempt =>
      rw [h] at hflight
      cases hflight

/-- Where a mount is under way for a share that is stopped, the disconnect may not stick. -/
theorem in_flight_breaks (hstopped : s.Stopped key) (hflight : s.InFlight key) :
    ∃ s', GuardedRun (Step r) anyhow s s' ∧ ¬s'.Sticks r := by
  -- From the point where the loop was told, the mark alone is missing.
  have htold : ∀ (s : LoopSystem) n c, s.InFlight (rowKey c) →
      s.requests n = some (.disconnect c .told) →
        ∃ s', GuardedRun (Step r) anyhow s s' ∧ ¬s'.Sticks r := by
    intro s n c hflight hq
    let s₁ : LoopSystem :=
      { s.put n none with
        records := s.records.map (markDisconnected c.id true)
        quiet := rowKey c :: s.quiet }
    have hmarked : GuardedRun (Step r) anyhow s s₁ :=
      .next (.marks n) .start trivial (.marks n hq)
    rcases @quiet_breaks _ r s₁ (rowKey c) List.mem_cons_self hflight with ⟨s', hrun, hbroken⟩
    exact ⟨s', hmarked.trans hrun, hbroken⟩
  rcases hstopped with hquiet | ⟨n, q, hq, hstops⟩
  · exact quiet_breaks hquiet hflight
  · cases q with
    | remove c => cases hstops
    | connect c point => cases hstops
    | disconnect c point =>
        cases point with
        | asked => cases hstops
        | told =>
            rw [← Option.some.inj hstops] at hflight
            exact htold s n c hflight hq
        | unmounted paths =>
            -- The loop is told first.
            rw [← Option.some.inj hstops] at hflight
            let s₁ : LoopSystem :=
              { s.put n (some (.disconnect c .told)) with
                loop := paths.foldl Loop.released s.loop }
            have hsaid : GuardedRun (Step r) anyhow s s₁ :=
              .next (.tells n) .start trivial (.tells n hq)
            rcases htold s₁ n c hflight (Function.update_self _ _ _) with ⟨s', hrun, hbroken⟩
            exact ⟨s', hsaid.trans hrun, hbroken⟩

/-- The loop begins a mount it should not: it may come to be made. -/
theorem careless_considers_breaks {s' : LoopSystem} (h : Step r s .considers s')
    (hcareless : ¬s.Careful r .considers) :
    ∃ s'', GuardedRun (Step r) anyhow s' s'' ∧ ¬s''.Sticks r := by
  have hlet : ∃ p c left, s.point = .going p (c :: left) ∧ s.Stopped (rowKey c) ∧
      s.loop.Lets c (r.mountOf p.table (rowKey c)) p.now p.trouble := by
    by_contra hnone
    exact hcareless fun p c left hpoint hstopped hlets =>
      absurd ⟨p, c, left, hpoint, hstopped, hlets⟩ hnone
  rcases hlet with ⟨p, c, left, hpoint, hstopped, hlets⟩
  cases h with
  | passesOver h hno =>
      cases hpoint.symm.trans h
      rw [decision, lets_iff.mpr hlets] at hno
      exact Bool.noConfusion hno
  | tries h hyes =>
      cases hpoint.symm.trans h
      exact @in_flight_breaks _ _ _ (rowKey c) hstopped rfl

/-- A disconnect takes mounts away while one is under way: it may come to be made. -/
theorem careless_unmounts_breaks {s' : LoopSystem} {n : Nat} (h : Step r s (.unmounts n) s')
    (hcareless : ¬s.Careful r (.unmounts n)) :
    ∃ s'', GuardedRun (Step r) anyhow s' s'' ∧ ¬s''.Sticks r := by
  have hfly : ∃ c, s.requests n = some (.disconnect c .asked) ∧ s.InFlight (rowKey c) := by
    by_contra hnone
    exact hcareless fun c hq hflight => hnone ⟨c, hq, hflight⟩
  rcases hfly with ⟨c, hq, hflight⟩
  cases h with
  | unmounts n h hat =>
      cases hq.symm.trans h
      exact @in_flight_breaks _ _ _ (rowKey c)
        (Or.inr ⟨n, _, Function.update_self _ _ _, rfl⟩) hflight

/-- So does a removal. -/
theorem careless_releases_breaks {s' : LoopSystem} {n : Nat} {kept : SmbMount → Bool}
    {c : Connection} (h : Step r s (.releases n kept) s')
    (hq : s.requests n = some (.remove c)) (hflight : s.InFlight (rowKey c)) :
    ∃ s'', GuardedRun (Step r) anyhow s' s'' ∧ ¬s''.Sticks r := by
  cases h with
  | releases n kept h =>
      cases hq.symm.trans h
      exact @quiet_breaks _ _ _ (rowKey c) List.mem_cons_self hflight

end Windows

/-- Along every run in which each step is careful, no share is mounted by the loop once it is to
    stay away. -/
theorem disconnect_sticks (r : Reconnector) (records : List Connection) (table : List LoopMount)
    (s : LoopSystem) (h : GuardedRun (Step r) (Careful r) (start records table) s) :
    s.Sticks r :=
  (GuardedRun.invariant (Sound r) (start_sound r records table)
    (fun _ _ _ hs hcareful hstep => sound_step hs hcareful hstep) h).sticks

end LoopSystem

end Sticking

section Annas

attribute [local instance] Unicode.ascii

open LoopSystem

/-- A pass of Ann's loop begins. -/
def annsWake (now : Rat) : PassInput :=
  { volumeTrouble := false
    networkChanged := false
    wall := now
    now := now
    listed := .ok []
    mounts := .ok []
    attempts := fun _ => { outcome := .raised, took := 0 } }

/-- Her share is mounted. -/
def musicMount : SmbMount :=
  { host := str "nas"
    share := str "Music"
    mountpoint := str "/Volumes/Music"
    ownerUid := 501
    fsid := (1, 1) }

/-- What her first pass sees. -/
def firstSight : PassSight :=
  { now := 0
    trouble := false
    rows := [annsMusic]
    table := [] }

/-- The loop, once the pass has read the list. -/
def listedLoop : Loop :=
  { Loop.start.wake (annsWake 0) with lastList := [annsMusic] }

/-- The loop has decided to mount her share, and found it not to be mounted. -/
def mountingMusic : LoopSystem :=
  { start [annsMusic] [] with
    loop := (listedLoop.consider annsMusic none 0 false).1
    point := .mounting firstSight annsMusic [] }

theorem annsMusic_mine : annsLoop.mine [annsMusic] = [annsMusic] := by
  decide +kernel

/-- Her loop comes to mount her share, with nobody having asked for anything. -/
theorem mountingMusic_run :
    GuardedRun (Step annsLoop) (Careful annsLoop) (start [annsMusic] []) mountingMusic := by
  let woken : LoopSystem :=
    { start [annsMusic] [] with
      loop := Loop.start.wake (annsWake 0)
      point := .woken 0 false }
  let listed : LoopSystem :=
    { start [annsMusic] [] with
      loop := listedLoop
      point := .listed 0 false [annsMusic] }
  let going : LoopSystem := { listed with point := .going firstSight [annsMusic] }
  let trying : LoopSystem := { mountingMusic with point := .trying firstSight annsMusic [] }
  have hwakes : Step annsLoop (start [annsMusic] []) (.wakes (annsWake 0)) woken :=
    .wakes (annsWake 0) rfl
  have hlists : Step annsLoop woken (.lists none) listed := by
    have h : Step annsLoop woken (.lists none) _ := .lists none rfl rfl
    have hmine : annsLoop.mine woken.records = [annsMusic] := annsMusic_mine
    rw [hmine] at h
    exact h
  have hlooks : Step annsLoop listed (.looks none) going := .looks rfl
  have hconsiders : Step annsLoop going .considers trying := by
    have hnone : annsLoop.mountOf firstSight.table (rowKey annsMusic) = none := rfl
    have hdecision : going.decision annsLoop firstSight annsMusic =
        listedLoop.consider annsMusic none 0 false := rfl
    have h : Step annsLoop going .considers _ := .tries rfl (by decide +kernel)
    rw [hdecision] at h
    exact h
  have hchecks : Step annsLoop trying .checks mountingMusic := .checks rfl rfl
  -- Nobody has asked for anything, so no key is stopped.
  have hfree : ¬listed.Stopped (rowKey annsMusic) := by
    rintro (hquiet | ⟨n, q, hq, -⟩)
    · exact absurd hquiet List.not_mem_nil
    · cases hq
  have hcareful : going.Careful annsLoop .considers := by
    intro p c left h hstopped
    cases h
    exact absurd hstopped hfree
  exact .next .checks (.next .considers (.next (.looks none) (.next (.lists none)
    (.next (.wakes (annsWake 0)) .start trivial hwakes) trivial hlists) trivial hlooks)
    hcareful hconsiders) trivial hchecks

/-- Ann disconnects her share while her loop is mounting it: the mount is made once she has been
    answered, and the share stays mounted. -/
theorem mounted_after_disconnect :
    ({ emptyConfig with connections := [annsMusic] } : Config).Valid ∧
      ∃ s, GuardedRun (Step annsLoop) anyhow (start [annsMusic] []) s ∧
        s.quiet = [rowKey annsMusic] ∧ s.table = [{ mount := musicMount, byLoop := true }] ∧
          ¬s.Sticks annsLoop := by
  have hmounting : GuardedRun (Step annsLoop) anyhow (start [annsMusic] []) mountingMusic :=
    mountingMusic_run.mono fun _ _ _ => trivial
  have hasked := hmounting.next (.asksDisconnect 0 annsMusic) trivial
    (.asksDisconnect 0 annsMusic rfl List.mem_cons_self)
  have hunmounted := hasked.next (.unmounts 0) trivial (.unmounts 0 rfl rfl)
  have htold := hunmounted.next (.tells 0) trivial (.tells 0 rfl)
  have hmarked := htold.next (.marks 0) trivial (.marks 0 rfl)
  have hlanded := hmarked.next (.lands musicMount 1) trivial
    (.lands musicMount 1 rfl rfl (by decide +kernel))
  refine ⟨by decide +kernel, _, hlanded, rfl, rfl, fun hsticks => ?_⟩
  have hnot := hsticks (rowKey annsMusic) List.mem_cons_self
    { mount := musicMount, byLoop := true } List.mem_cons_self (by decide +kernel)
  exact Bool.false_ne_true hnot.symm

/-- The loop after the pass that mounted her share. -/
def mountedLoop : Loop :=
  (mountingMusic.loop.record annsLoop.interval 0 (rowId annsMusic)
    { outcome := .mounted (str "/Volumes/Music"), took := 1 }).1.keepSeen [annsMusic]

/-- The next pass has read the list. -/
def listedAgain : LoopSystem :=
  { start [annsMusic] [{ mount := musicMount, byLoop := true }] with
    loop := { mountedLoop.wake (annsWake 5) with lastList := [annsMusic] }
    point :=
      .listed 5 (before 5 (mountedLoop.wake (annsWake 5)).troubleUntil) [annsMusic] }

theorem listedAgain_run :
    GuardedRun (Step annsLoop) (Careful annsLoop) (start [annsMusic] []) listedAgain := by
  have hlanded := mountingMusic_run.next (SystemEvent.lands musicMount 1) trivial
    (.lands musicMount 1 rfl rfl (by decide +kernel))
  have hrecorded := hlanded.next SystemEvent.records trivial (.records rfl)
  have hended := hrecorded.next SystemEvent.ends trivial (.ends rfl)
  let woken : LoopSystem :=
    { listedAgain with
      loop := mountedLoop.wake (annsWake 5)
      point := .woken 5 (before 5 (mountedLoop.wake (annsWake 5)).troubleUntil) }
  have hwoken : GuardedRun (Step annsLoop) (Careful annsLoop) (start [annsMusic] []) woken :=
    hended.next (SystemEvent.wakes (annsWake 5)) trivial (.wakes (annsWake 5) rfl)
  have hlists : Step annsLoop woken (.lists none) listedAgain := by
    have h : Step annsLoop woken (.lists none) _ := .lists none rfl rfl
    have hmine : annsLoop.mine woken.records = [annsMusic] := annsMusic_mine
    rw [hmine] at h
    exact h
  exact hwoken.next (SystemEvent.lists none) trivial hlists

/-- She disconnects it after a pass has read the list. -/
theorem disconnect_sticks_mounted :
    ∃ s : LoopSystem, rowKey annsMusic ∈ s.quiet ∧ s.Sticks annsLoop := by
  have hasked := listedAgain_run.next (SystemEvent.asksDisconnect 0 annsMusic) trivial
    (.asksDisconnect 0 annsMusic rfl List.mem_cons_self)
  have hunmounted := hasked.next (SystemEvent.unmounts 0) (fun c _ hfly => by cases hfly)
    (.unmounts 0 rfl rfl)
  have htold := hunmounted.next (SystemEvent.tells 0) trivial (.tells 0 rfl)
  have hmarked := htold.next (SystemEvent.marks 0) (by
    intro c h d hd _ hid
    cases h
    rw [List.mem_singleton.mp (mem_mine.mp hd).1] at hid
    exact absurd rfl hid) (.marks 0 rfl)
  have hlooked := hmarked.next (SystemEvent.looks none) trivial (.looks rfl)
  -- The list it goes over is from before the mark, and the loop holds the share.
  have hconsidered := hlooked.next SystemEvent.considers (by
    intro p c left h _ hlets
    cases h
    exact absurd hlets.2.1 (by decide +kernel)) (.passesOver rfl (by decide +kernel))
  exact ⟨_, List.mem_cons_self,
    disconnect_sticks annsLoop [annsMusic] [] _ hconsidered⟩

end Annas

end Smbpal
