import Smbpal.Lib.Dict
import Smbpal.Python.Text

/-!
# The Agents that Dialled in

`agent/client.py`'s `AgentLinks`: one connection for each user's agent, the requests
that wait on them, and the states the agents reported.

Every method takes the lock at least once, and what it does under the lock is one step
here. `request`, `reply`, `drop` and a report do more outside it, in steps of their own,
which the modules about runs have: the requests in `Agent.LinkRequests`, the reports in
`Agent.LinkStates`.

A connection is any type with the uid the kernel reports for it. It is compared as
Python's `is` compares, so two connections of one user are different.

## Main definitions

* `AgentConnection`: A connection's peer.
* `ReportedRow`: A reported state, cleaned.
* `Links`: `AgentLinks`.
* `Links.register`, `Links.drop`, `Links.setStates` and their like: What is done under
  the lock.

## Theorems

* `Links.OwnUid.register`, `Links.OwnUid.drop`: Whoever is registered has the uid it is
  registered under.
* `Links.lookup_drop`: What a closed connection leaves.
* `Links.statesOf_setStates`, `Links.of_mem_setStates`: What a report stores, and what of
  it is new.
* `Links.Keyed.setStates`, `Links.Keyed.drop`: What is stored has the id it is found by.
-/

namespace Smbpal

open Lib

/-- Connections, each with the uid the kernel reports for its peer. -/
class AgentConnection (κ : Type) where
  peerUid : κ → Nat

export AgentConnection (peerUid)

/-- A reported state, as `_clean_state` leaves it. -/
structure ReportedRow where
  id : Str
  state : Str
  message : Str
  retryable : Bool
  mountpoint : Option Str
  deriving DecidableEq

/-- `AgentLinks`. What waits is found by its `rid`; its number is how many requests were
    made before it. -/
structure Links (κ : Type) where
  byUid : Dict Nat κ
  pending : Dict Str Nat
  counter : Nat
  states : Dict Nat (Dict Str ReportedRow)

/-- `AgentLinks()`. -/
def Links.init {κ : Type} : Links κ where
  byUid := ∅
  pending := ∅
  counter := 1
  states := ∅

/-- `{row["id"]: row for row in rows}`. -/
def rowsById (rows : List ReportedRow) : Dict Str ReportedRow :=
  rows.foldl (fun d row => d.insert row.id row) ∅

namespace Links

section Operations

variable {κ : Type} [DecidableEq κ] [AgentConnection κ]

/-- `register`. -/
def register (l : Links κ) (c : κ) : Links κ :=
  { l with byUid := l.byUid.insert (peerUid c) c }

omit [AgentConnection κ] in
/-- The uids whose agent a connection is. -/
def uidsOf (l : Links κ) (c : κ) : List Nat :=
  l.byUid.keysWhere fun registered => decide (registered = c)

omit [AgentConnection κ] in
/-- The first part of `drop`. It returns the uids whose agent this was. -/
def drop (l : Links κ) (c : κ) : List Nat × Links κ :=
  let gone := l.uidsOf c
  (gone, { l with
    byUid := l.byUid.eraseAll gone
    states := l.states.eraseAll gone })

/-- `is_registered`. -/
def isRegistered (l : Links κ) (c : κ) : Bool :=
  decide (l.byUid.lookup (peerUid c) = some c)

omit [DecidableEq κ] [AgentConnection κ]

/-- `connected`. -/
def connected (l : Links κ) (uid : Nat) : Bool :=
  (l.byUid.lookup uid).isSome

/-- What an agent reported last; nothing is like no rows. -/
def statesOf (l : Links κ) (uid : Nat) : Dict Str ReportedRow :=
  (l.states.lookup uid).getD ∅

/-- `set_states`. It returns what changed: the row before, and the row. -/
def setStates (l : Links κ) (uid : Nat) (rows : List ReportedRow) :
    List (Option ReportedRow × ReportedRow) × Links κ :=
  let previous := l.statesOf uid
  let current := rowsById rows
  let changes := ((rows.map ReportedRow.id).eraseDups.filterMap current.lookup).filter fun row =>
    decide (previous.lookup row.id ≠ some row)
  (changes.map fun row => (previous.lookup row.id, row),
    { l with states := l.states.insert uid current })

/-- `state_for`. -/
def stateFor (l : Links κ) (uid : Nat) (id : Str) : Option ReportedRow :=
  (l.statesOf uid).lookup id

/-- The first part of `request`: the connection it goes to, and its `rid`. -/
def openRequest (l : Links κ) (uid number : Nat) : Option (κ × Str × Links κ) :=
  match l.byUid.lookup uid with
  | none => none
  | some c =>
      let rid := digits l.counter
      some (c, rid, { l with
        pending := l.pending.insert rid number
        counter := l.counter + 1 })

/-- The last part of `request`. -/
def closeRequest (l : Links κ) (rid : Str) : Links κ :=
  { l with pending := l.pending.erase rid }

end Operations

section Registered

variable {κ : Type} [DecidableEq κ] [AgentConnection κ] {l : Links κ}

/-- Whoever is registered has the uid it is registered under. -/
def OwnUid (l : Links κ) : Prop :=
  ∀ uid c, l.byUid.lookup uid = some c → peerUid c = uid

omit [DecidableEq κ] in
theorem ownUid_init : (Links.init : Links κ).OwnUid := by
  intro uid c h
  exact nomatch h

omit [AgentConnection κ] in
theorem mem_uidsOf {uid : Nat} {c : κ} : uid ∈ l.uidsOf c ↔ l.byUid.lookup uid = some c := by
  rw [uidsOf, Dict.mem_keysWhere]
  constructor
  · rintro ⟨registered, hlookup, hsame⟩
    rw [hlookup, of_decide_eq_true hsame]
  · exact fun hlookup => ⟨c, hlookup, decide_eq_true rfl⟩

omit [AgentConnection κ] in
/-- What a closed connection leaves: every other registration. -/
theorem lookup_drop (c : κ) (uid : Nat) :
    (l.drop c).2.byUid.lookup uid =
      if l.byUid.lookup uid = some c then none else l.byUid.lookup uid := by
  rw [drop, Dict.lookup_eraseAll]
  exact if_congr mem_uidsOf rfl rfl

omit [AgentConnection κ] in
/-- It takes the states with it. -/
theorem lookup_drop_states (c : κ) (uid : Nat) :
    (l.drop c).2.states.lookup uid =
      if l.byUid.lookup uid = some c then none else l.states.lookup uid := by
  rw [drop, Dict.lookup_eraseAll]
  exact if_congr mem_uidsOf rfl rfl

omit [DecidableEq κ] in
theorem lookup_register (c : κ) (uid : Nat) :
    (l.register c).byUid.lookup uid = if uid = peerUid c then some c else l.byUid.lookup uid := by
  by_cases huid : uid = peerUid c
  · rw [if_pos huid, huid, register, AList.lookup_insert]
  · rw [if_neg huid, register, AList.lookup_insert_ne huid]

omit [DecidableEq κ] in
theorem OwnUid.register (h : l.OwnUid) (c : κ) : (l.register c).OwnUid := by
  intro uid registered hlookup
  rw [lookup_register] at hlookup
  by_cases huid : uid = peerUid c
  · rw [if_pos huid, Option.some.injEq] at hlookup
    rw [← hlookup, huid]
  · rw [if_neg huid] at hlookup
    exact h uid registered hlookup

theorem OwnUid.drop (h : l.OwnUid) (c : κ) : (l.drop c).2.OwnUid := by
  intro uid registered hlookup
  rw [lookup_drop] at hlookup
  by_cases hgone : l.byUid.lookup uid = some c
  · rw [if_pos hgone] at hlookup
    exact nomatch hlookup
  · rw [if_neg hgone] at hlookup
    exact h uid registered hlookup

theorem isRegistered_iff {c : κ} : l.isRegistered c = true ↔ l.byUid.lookup (peerUid c) = some c :=
  decide_eq_true_iff

end Registered

section States

variable {κ : Type} {l : Links κ}

/-- What is stored is keyed by its id. -/
theorem of_lookup_rowsById {rows : List ReportedRow} {id : Str} {row : ReportedRow}
    (h : (rowsById rows).lookup id = some row) : row ∈ rows ∧ row.id = id := by
  induction rows using List.reverseRecOn with
  | nil => exact nomatch h
  | append_singleton rows last ih =>
      rw [rowsById, List.foldl_append, List.foldl_cons, List.foldl_nil] at h
      by_cases hid : id = last.id
      · rw [hid, AList.lookup_insert, Option.some.injEq] at h
        rw [← h, hid]
        exact ⟨List.mem_append_right _ List.mem_cons_self, rfl⟩
      · rw [AList.lookup_insert_ne hid] at h
        rcases ih h with ⟨hmem, hrow⟩
        exact ⟨List.mem_append_left _ hmem, hrow⟩

/-- What changed is among what was reported. -/
theorem of_mem_setStates {uid : Nat} {rows : List ReportedRow}
    {change : Option ReportedRow × ReportedRow} (h : change ∈ (l.setStates uid rows).1) :
    change.2 ∈ rows := by
  rcases List.mem_map.mp h with ⟨row, hrow, rfl⟩
  rcases List.mem_filterMap.mp (List.mem_filter.mp hrow).1 with ⟨id, -, hlookup⟩
  exact (of_lookup_rowsById hlookup).1

theorem statesOf_setStates (uid user : Nat) (rows : List ReportedRow) :
    (l.setStates uid rows).2.statesOf user =
      if user = uid then rowsById rows else l.statesOf user := by
  unfold statesOf setStates
  by_cases huser : user = uid
  · rw [if_pos huser, huser, AList.lookup_insert, Option.getD_some]
  · rw [if_neg huser, AList.lookup_insert_ne huser]

theorem statesOf_drop [DecidableEq κ] (c : κ) (user : Nat) :
    (l.drop c).2.statesOf user =
      if l.byUid.lookup user = some c then ∅ else l.statesOf user := by
  unfold statesOf
  rw [lookup_drop_states]
  by_cases hgone : l.byUid.lookup user = some c
  · rw [if_pos hgone, if_pos hgone, Option.getD_none]
  · rw [if_neg hgone, if_neg hgone]

/-- What is stored about a connection has its id. -/
def Keyed (l : Links κ) : Prop :=
  ∀ user id row, l.stateFor user id = some row → row.id = id

theorem Keyed.setStates (h : l.Keyed) (uid : Nat) (rows : List ReportedRow) :
    (l.setStates uid rows).2.Keyed := by
  intro user id row hrow
  rw [stateFor, statesOf_setStates] at hrow
  by_cases huser : user = uid
  · rw [if_pos huser] at hrow
    exact (of_lookup_rowsById hrow).2
  · rw [if_neg huser] at hrow
    exact h user id row hrow

theorem Keyed.drop [DecidableEq κ] (h : l.Keyed) (c : κ) : (l.drop c).2.Keyed := by
  intro user id row hrow
  rw [stateFor, statesOf_drop] at hrow
  by_cases hgone : l.byUid.lookup user = some c
  · rw [if_pos hgone] at hrow
    exact nomatch hrow
  · rw [if_neg hgone] at hrow
    exact h user id row hrow

end States

end Links

end Smbpal
