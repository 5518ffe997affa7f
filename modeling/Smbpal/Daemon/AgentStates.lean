import Smbpal.Agent.Links
import Smbpal.Daemon.Dispatch
import Smbpal.Ipc.Client

/-!
# What an Agent Reports about its Connections

`daemon/handlers.py`'s `_agent_state`, `_agent_rows`, `_push_state` and `disconnected`:
what a report is kept as, what is shown of it, and what is pushed to the clients.

Nothing an agent sends is trusted. A row is cleaned, it is kept only when its id is that
of a connection the reporter's account owns, it is stored under the uid the kernel gave,
and it is looked up under the uid of the connection's owner. So what a user's agents
report is seen in that user's rows alone (`reports_confined`), and this holds whatever
else goes on: `Sees` relates two runs that differ in those reports, at every point.

## Main definitions

* `cleanReport`: `_clean_state`.
* `agentRowOf`, `agentRowsOf`: `_agent_rows`.
* `storeReport`: What `_agent_state` does with the rows of a report.
* `StatesWorld`, `StatesEvent`: The links, what was pushed, and what can happen.
* `concernsOther`: An id is that of a connection of somebody else's.
* `Sees`: Two worlds look the same to everybody else.

## Theorems

* `Sees.step`, `Sees.report`: Another's step keeps that, and so does a report.
* `reports_confined`: What a user's agents report is seen in that user's rows alone.
-/

namespace Smbpal

open Lib

section Rows

/-- `PROBLEM_STATES`. -/
def problemStates : List Str :=
  [str "unreachable", str "unresolved", str "auth_failed", str "failed"]

/-- `_MAX_STATE_MESSAGE`. -/
def maxStateMessage : Nat := 500

/-- A member that is a string, when it is there. -/
def stringMember (row : List (Str × Json)) (key : String) : Option Str :=
  match getMember row key with
  | some (.string s) => some s
  | _ => none

/-- `_clean_state`. -/
def cleanReport : Json → Option ReportedRow
  | .object row =>
      match stringMember row "id", stringMember row "state" with
      | some id, some state =>
          if state ∈ stateWords then
            some
              { id := id
                state := state
                message := ((stringMember row "message").getD []).take maxStateMessage
                retryable := ((getMember row "retryable").getD .null).truthy
                mountpoint := stringMember row "mountpoint" }
          else none
      | _, _ => none
  | _ => none

/-- The shape of `connection.watch`: `_wire_state`. -/
structure WireState where
  id : Option Str
  state : Str
  message : Str
  errno : Option Int
  retryable : Bool
  readOnly : Bool
  isProblem : Bool
  deriving DecidableEq

/-- `_wire_state`. -/
def wireState (id : Option Str) (state message : Str) (retryable : Bool) : WireState where
  id := id
  state := state
  message := message
  errno := none
  retryable := retryable
  readOnly := false
  isProblem := decide (state ∈ problemStates)

/-- A row of `_agent_rows`: the connection, with its state over it. -/
structure AgentRow where
  connection : Connection
  wire : WireState
  mountpoint : Option Str

/-- What a client is pushed: `_push_state`. -/
structure StateChanged where
  wire : WireState
  previous : Option Str
  mountpoint : Option Str

/-- `_owner_uid`, from the accounts there are. -/
def ownerUidOf (accounts : Str → Option Nat) (c : Connection) : Option Nat :=
  (truthy c.owner).bind accounts

variable {κ : Type}

/-- What the agent of an account last reported about a connection. -/
def reportedOf (l : Links κ) (uid : Nat) (c : Connection) : Option ReportedRow :=
  c.id.bind (l.stateFor uid)

/-- What is said of a connection nothing was reported about. -/
def notReported (l : Links κ) (uid : Option Nat) (c : Connection) : Str :=
  if uid.any l.connected then str "not checked yet; the agent reports within a few seconds"
  else
    (truthy c.owner).getD (str "its owner") ++
      str "'s SMBPal agent is not connected, so SMBPal cannot tell; it reports once " ++
      str "`smbpal-agent --install` has started it"

/-- The row of one connection. -/
def agentRowOf (accounts : Str → Option Nat) (l : Links κ) (c : Connection) : AgentRow :=
  let uid := ownerUidOf accounts c
  match uid.bind fun uid => reportedOf l uid c with
  | some row =>
      { connection := c
        wire := wireState (some row.id) row.state row.message row.retryable
        mountpoint := (truthy row.mountpoint).or c.mountpoint }
  | none =>
      { connection := c
        wire := wireState c.id (str "unknown") (notReported l uid c) false
        mountpoint := c.mountpoint }

/-- `_agent_rows`. -/
def agentRowsOf (accounts : Str → Option Nat) (l : Links κ) (config : Config) : List AgentRow :=
  config.connections.map (agentRowOf accounts l)

/-- `_agent_state`, once the connection was found to be registered and the rows are a list. -/
def storeReport (accounts : Str → Option Nat) (config : Config) (l : Links κ) (uid : Nat)
    (rows : List Json) : List StateChanged × Links κ :=
  let owned := config.connections.filter fun c => decide (ownerUidOf accounts c = some uid)
  let accepted := (rows.filterMap cleanReport).filter fun row =>
    owned.any fun c => decide (c.id = some row.id)
  let stored := l.setStates uid accepted
  (stored.1.map fun change =>
    { wire := wireState (some change.2.id) change.2.state change.2.message change.2.retryable
      previous := change.1.map ReportedRow.state
      mountpoint := change.2.mountpoint }, stored.2)

/-- What `disconnected` pushes for an account whose agent has gone. -/
def goneStates (accounts : Str → Option Nat) (config : Config) (l : Links κ) (uid : Nat) :
    List StateChanged :=
  ((agentRowsOf accounts l config).filter fun row =>
    decide (ownerUidOf accounts row.connection = some uid)).map fun row =>
      { wire := row.wire
        previous := none
        mountpoint := row.mountpoint }

end Rows

/-- The links, the reports that passed their check, the accounts whose agent a closed
    connection was and that were not announced yet, and what was pushed. -/
structure StatesWorld (κ : Type) where
  links : Links κ
  cleared : κ → Bool
  gone : κ → List Nat
  pushed : List StateChanged

/-- The daemon starts. -/
def StatesWorld.init {κ : Type} : StatesWorld κ where
  links := Links.init
  cleared := fun _ => false
  gone := fun _ => []
  pushed := []

/-- What can happen. A report is a check and what follows it, a disconnect a drop and
    what follows that; a row may be looked at between any two. -/
inductive StatesEvent (κ : Type) where
  | register (c : κ)
  | check (c : κ)
  | report (c : κ) (params : List (Str × Json))
  | drop (c : κ)
  | announce (c : κ)

section Runs

variable {κ : Type} [DecidableEq κ] [AgentConnection κ]

/-- One event. A report that is no list is refused, and so is one that was not cleared. -/
def StatesWorld.act (accounts : Str → Option Nat) (config : Config) (w : StatesWorld κ) :
    StatesEvent κ → StatesWorld κ
  | .register c => { w with links := w.links.register c }
  | .check c => { w with cleared := Function.update w.cleared c (w.links.isRegistered c) }
  | .report c params =>
      -- The connection's thread takes one message at a time, so what it checked is used up.
      let w' := { w with cleared := Function.update w.cleared c false }
      match getMember params "states" with
      | some (.array rows) =>
          -- Only a connection that was registered when it was checked.
          if w.cleared c then
            let stored := storeReport accounts config w.links (peerUid c) rows
            { w' with
              links := stored.2
              pushed := w.pushed ++ stored.1 }
          else w'
      | _ => w'
  | .drop c =>
      let dropped := w.links.drop c
      { w with
        links := dropped.2
        gone := Function.update w.gone c dropped.1 }
  -- The states are gone before anybody is told so.
  | .announce c =>
      { w with
        gone := Function.update w.gone c []
        pushed := w.pushed ++ (w.gone c).flatMap (goneStates accounts config w.links) }

/-- A run. -/
def StatesWorld.run (accounts : Str → Option Nat) (config : Config)
    (events : List (StatesEvent κ)) :
    StatesWorld κ :=
  events.foldl (StatesWorld.act accounts config) StatesWorld.init

/-- An event of a report of one of a user's connections. -/
def StatesEvent.isReportOf (uid : Nat) : StatesEvent κ → Bool
  | .check c => decide (peerUid c = uid)
  | .report c _ => decide (peerUid c = uid)
  | _ => false

end Runs

/-- An id is that of a connection whose owner is another account, or none. -/
def concernsOther (accounts : Str → Option Nat) (config : Config) (uid : Nat) (id : Option Str) :
    Bool :=
  config.connections.any fun c =>
    decide (c.id = id) && decide (ownerUidOf accounts c ≠ some uid)

section Confined

variable {κ : Type} {accounts : Str → Option Nat} {config : Config} {uid : Nat}

/-- No two connections share an id. -/
def UniqueConnections (config : Config) : Prop :=
  ∀ c ∈ config.connections, ∀ c' ∈ config.connections, ∀ id, c.id = some id → c'.id = some id →
    c = c'

/-- Two worlds look the same to everybody but one account: the agents are the same, and
    what theirs reported, and what was pushed about their connections. -/
structure Sees [AgentConnection κ] (accounts : Str → Option Nat) (config : Config) (uid : Nat)
    (w w' : StatesWorld κ) : Prop where
  byUid : w.links.byUid = w'.links.byUid
  states : ∀ user, user ≠ uid → w.links.statesOf user = w'.links.statesOf user
  keyed : w.links.Keyed
  keyed' : w'.links.Keyed
  cleared : ∀ c, peerUid c ≠ uid → w.cleared c = w'.cleared c
  gone : w.gone = w'.gone
  pushed : w.pushed.filter (fun change => concernsOther accounts config uid change.wire.id) =
    w'.pushed.filter fun change => concernsOther accounts config uid change.wire.id

/-- An id of the account's own connections concerns nobody else. -/
theorem concernsOther_own (hunique : UniqueConnections config) {c : Connection}
    (hc : c ∈ config.connections) (howner : ownerUidOf accounts c = some uid) {id : Str}
    (hid : c.id = some id) : concernsOther accounts config uid (some id) = false := by
  rw [concernsOther, List.any_eq_false]
  intro other hother
  rw [Bool.and_eq_true, decide_eq_true_eq, decide_eq_true_eq]
  rintro ⟨hsame, hnot⟩
  exact hnot (hunique other hother c hc id hsame hid ▸ howner)

/-- A row has the id of its connection. -/
theorem agentRowOf_id {l : Links κ} (h : l.Keyed) (c : Connection) :
    (agentRowOf accounts l c).wire.id = c.id := by
  unfold agentRowOf
  dsimp only
  cases hrow : (ownerUidOf accounts c).bind fun uid => reportedOf l uid c with
  | none => rfl
  | some row =>
      rcases Option.bind_eq_some_iff.mp hrow with ⟨user, -, hreported⟩
      rcases Option.bind_eq_some_iff.mp hreported with ⟨id, hid, hstate⟩
      exact (congrArg some (h user id row hstate)).trans hid.symm

variable [AgentConnection κ] {w w' : StatesWorld κ}

/-- The row of a connection looks the same, unless it is one of the account's own. -/
theorem Sees.row (h : Sees accounts config uid w w') {c : Connection}
    (hc : ownerUidOf accounts c ≠ some uid ∨ c.id = none) :
    agentRowOf accounts w.links c = agentRowOf accounts w'.links c := by
  -- Whether somebody reports is read off the registrations, which are the same.
  have hsaid : ∀ user, notReported w.links user c = notReported w'.links user c := by
    intro user
    have hconnected : w.links.connected = w'.links.connected := by
      funext user
      rw [Links.connected, Links.connected, h.byUid]
    rw [notReported, notReported, hconnected]
  -- What is reported of another user's rows is the same, and a row with no id has none.
  have hreported : ∀ user, ownerUidOf accounts c = some user →
      reportedOf w.links user c = reportedOf w'.links user c := by
    intro user huser
    rcases hc with hother | hnone
    · have hstates := h.states user fun heq => hother (heq ▸ huser)
      unfold reportedOf Links.stateFor
      rw [hstates]
    · rw [reportedOf, reportedOf, hnone, Option.bind_none, Option.bind_none]
  unfold agentRowOf
  dsimp only
  cases huser : ownerUidOf accounts c with
  | none =>
      rw [hsaid none]
      rfl
  | some user =>
      rw [Option.bind_some, Option.bind_some, hreported user huser, hsaid (some user)]

/-- Two lists of what is pushed look the same if each item does, or concerns nobody. -/
theorem filter_map_eq {α β : Type} {p : β → Bool} {f g : α → β} {items : List α}
    (h : ∀ a ∈ items, f a = g a ∨ (p (f a) = false ∧ p (g a) = false)) :
    (items.map f).filter p = (items.map g).filter p := by
  induction items with
  | nil => rfl
  | cons a items ih =>
      rw [List.forall_mem_cons] at h
      rw [List.map_cons, List.map_cons, List.filter_cons, List.filter_cons, ih h.2]
      rcases h.1 with heq | ⟨hf, hg⟩
      · rw [heq]
      · rw [hf, hg]
        rfl

omit [AgentConnection κ] in
theorem agentRowOf_connection (l : Links κ) (c : Connection) :
    (agentRowOf accounts l c).connection = c := by
  unfold agentRowOf
  dsimp only
  cases (ownerUidOf accounts c).bind fun uid => reportedOf l uid c with
  | none => rfl
  | some row => rfl

/-- What is pushed of a row when its agent has gone. -/
def goneState (row : AgentRow) : StateChanged where
  wire := row.wire
  previous := none
  mountpoint := row.mountpoint

omit [AgentConnection κ] in
theorem goneStates_eq (l : Links κ) (user : Nat) :
    goneStates accounts config l user =
      (config.connections.filter fun c => decide (ownerUidOf accounts c = some user)).map
        fun c => goneState (agentRowOf accounts l c) := by
  have howner : (fun row : AgentRow => decide (ownerUidOf accounts row.connection = some user)) ∘
      agentRowOf accounts l = fun c => decide (ownerUidOf accounts c = some user) := by
    funext c
    exact congrArg (fun c => decide (ownerUidOf accounts c = some user)) (agentRowOf_connection l c)
  rw [goneStates, agentRowsOf, List.filter_map, howner, List.map_map]
  rfl

/-- What is pushed when an agent has gone looks the same. -/
theorem Sees.goneStates (h : Sees accounts config uid w w') (hunique : UniqueConnections config)
    (user : Nat) :
    (goneStates accounts config w.links user).filter
        (fun change => concernsOther accounts config uid change.wire.id) =
      (goneStates accounts config w'.links user).filter
        fun change => concernsOther accounts config uid change.wire.id := by
  rw [goneStates_eq, goneStates_eq]
  refine filter_map_eq fun c hc => ?_
  have hmem := (List.mem_filter.mp hc).1
  by_cases hother : ownerUidOf accounts c ≠ some uid ∨ c.id = none
  · rw [h.row hother]
    exact Or.inl rfl
  · -- a connection of the account's own, which concerns nobody else
    rw [not_or, Classical.not_not] at hother
    rcases Option.ne_none_iff_exists'.mp hother.2 with ⟨id, hid⟩
    have hown := concernsOther_own hunique hmem hother.1 hid
    refine Or.inr ⟨?_, ?_⟩
    · rw [goneState, agentRowOf_id h.keyed, hid]
      exact hown
    · rw [goneState, agentRowOf_id h.keyed', hid]
      exact hown

omit [AgentConnection κ] in
/-- What a report of the account's own pushes concerns nobody else. -/
theorem storeReport_own (hunique : UniqueConnections config) (l : Links κ) (rows : List Json) :
    (storeReport accounts config l uid rows).1.filter
      (fun change => concernsOther accounts config uid change.wire.id) = [] := by
  rw [List.filter_eq_nil_iff]
  intro change hchange
  rcases List.mem_map.mp hchange with ⟨stored, hstored, rfl⟩
  have haccepted := (List.mem_filter.mp (Links.of_mem_setStates hstored)).2
  rcases List.any_eq_true.mp haccepted with ⟨c, hc, hid⟩
  rcases List.mem_filter.mp hc with ⟨hmem, howner⟩
  have hown := concernsOther_own hunique hmem (of_decide_eq_true howner) (of_decide_eq_true hid)
  exact fun htrue => Bool.false_ne_true (hown.symm.trans htrue)

omit [AgentConnection κ] in
/-- What a report pushes depends on what was reported under its uid before. -/
theorem storeReport_congr {l l' : Links κ} {user : Nat} (h : l.statesOf user = l'.statesOf user)
    (rows : List Json) :
    (storeReport accounts config l user rows).1 = (storeReport accounts config l' user rows).1 := by
  unfold storeReport Links.setStates
  rw [h]

variable [DecidableEq κ]

/-- What a report does: it is stored, or it only ends. -/
theorem act_report (accounts : Str → Option Nat) (config : Config) (w : StatesWorld κ) (c : κ)
    (params : List (Str × Json)) :
    (∃ rows, getMember params "states" = some (.array rows) ∧ w.cleared c = true ∧
      w.act accounts config (.report c params) =
        { w with
          links := (storeReport accounts config w.links (peerUid c) rows).2
          cleared := Function.update w.cleared c false
          pushed := w.pushed ++ (storeReport accounts config w.links (peerUid c) rows).1 }) ∨
      ((∀ rows, getMember params "states" = some (.array rows) → w.cleared c = false) ∧
        w.act accounts config (.report c params) =
          { w with cleared := Function.update w.cleared c false }) := by
  unfold StatesWorld.act
  dsimp only
  cases hrows : getMember params "states" with
  | none => exact Or.inr ⟨(fun rows h => nomatch h), rfl⟩
  | some value =>
      cases value with
      | array rows =>
          dsimp only
          -- A list, so it counts if the connection was cleared.
          by_cases hcleared : w.cleared c = true
          · rw [if_pos hcleared]
            exact Or.inl ⟨rows, rfl, hcleared, rfl⟩
          · rw [if_neg hcleared]
            exact Or.inr ⟨fun _ _ => Bool.not_eq_true _ |>.mp hcleared, rfl⟩
      | _ => exact Or.inr ⟨(fun rows h => nomatch h), rfl⟩

/-- A report of the account's own is not seen. -/
theorem Sees.report (h : Sees accounts config uid w w') (hunique : UniqueConnections config)
    {e : StatesEvent κ} (he : e.isReportOf uid = true) :
    Sees accounts config uid (w.act accounts config e) w' := by
  -- The thread is one of the user's, so for the others nothing is checked.
  have hcleared : ∀ (c : κ) (b : Bool), peerUid c = uid → ∀ other, peerUid other ≠ uid →
      Function.update w.cleared c b other = w'.cleared other := by
    intro c b hc other hother
    have hne : other ≠ c := fun heq => hother (by rw [heq, hc])
    rw [Function.update_of_ne hne]
    exact h.cleared other hother
  cases e with
  | register c => exact nomatch he
  | drop c => exact nomatch he
  | announce c => exact nomatch he
  | check c =>
      have huid : peerUid c = uid := of_decide_eq_true he
      exact { h with cleared := hcleared c _ huid }
  | report c params =>
      have huid : peerUid c = uid := of_decide_eq_true he
      rcases act_report accounts config w c params with ⟨rows, -, -, hact⟩ | ⟨-, hact⟩
      · rw [hact, huid]
        refine
          { byUid := h.byUid
            states := fun user huser => ?_
            keyed := h.keyed.setStates uid _
            keyed' := h.keyed'
            cleared := hcleared c _ huid
            gone := h.gone
            pushed := ?_ }
        · rw [storeReport, Links.statesOf_setStates, if_neg huser]
          exact h.states user huser
        · -- The states told are of the user's own rows.
          rw [List.filter_append, storeReport_own hunique, List.append_nil]
          exact h.pushed
      · rw [hact]
        exact { h with cleared := hcleared c _ huid }

/-- Everybody else's step looks the same. -/
theorem Sees.step (h : Sees accounts config uid w w') (hunique : UniqueConnections config)
    {e : StatesEvent κ} (he : e.isReportOf uid = false) :
    Sees accounts config uid (w.act accounts config e) (w'.act accounts config e) := by
  -- What is checked changes alike in both.
  have hcleared : ∀ (c : κ) (b : Bool), ∀ other, peerUid other ≠ uid →
      Function.update w.cleared c b other = Function.update w'.cleared c b other := by
    intro c b other hother
    by_cases hsame : other = c
    · rw [hsame, Function.update_self, Function.update_self]
    · rw [Function.update_of_ne hsame, Function.update_of_ne hsame]
      exact h.cleared other hother
  cases e with
  | register c =>
      have hbyUid : (w.links.register c).byUid = (w'.links.register c).byUid := by
        rw [Links.register, Links.register, h.byUid]
      exact { h with byUid := hbyUid }
  | drop c =>
      have hgone : w.links.uidsOf c = w'.links.uidsOf c := by
        rw [Links.uidsOf, Links.uidsOf, h.byUid]
      refine
        { byUid := ?_
          states := fun user huser => ?_
          keyed := h.keyed.drop c
          keyed' := h.keyed'.drop c
          cleared := h.cleared
          gone := ?_
          pushed := h.pushed }
      · change w.links.byUid.eraseAll (w.links.uidsOf c) =
          w'.links.byUid.eraseAll (w'.links.uidsOf c)
        rw [hgone, h.byUid]
      · change (w.links.drop c).2.statesOf user = (w'.links.drop c).2.statesOf user
        rw [Links.statesOf_drop, Links.statesOf_drop, h.byUid, h.states user huser]
      · change Function.update w.gone c (w.links.uidsOf c) = Function.update w'.gone c
          (w'.links.uidsOf c)
        rw [hgone, h.gone]
  | announce c =>
      refine
        { h with
          gone := ?_
          pushed := ?_ }
      · change Function.update w.gone c [] = Function.update w'.gone c []
        rw [h.gone]
      · change (w.pushed ++ _).filter _ = (w'.pushed ++ _).filter _
        rw [List.filter_append, List.filter_append, h.pushed, h.gone, List.filter_flatMap,
          List.filter_flatMap]
        -- The rows that are gone are the same ones, but for the user's.
        exact congrArg _ (List.flatMap_congr fun user _ => h.goneStates hunique user)
  | check c =>
      have hregistered : w.links.isRegistered c = w'.links.isRegistered c := by
        rw [Links.isRegistered, Links.isRegistered, h.byUid]
      refine { h with cleared := fun other hother => ?_ }
      change Function.update w.cleared c _ other = Function.update w'.cleared c _ other
      rw [hregistered]
      exact hcleared c _ other hother
  | report c params =>
      -- The report is another user's, who was cleared in both or in neither.
      have huid : peerUid c ≠ uid := of_decide_eq_false he
      have hsame := h.cleared c huid
      have hstates := h.states (peerUid c) huid
      rcases act_report accounts config w c params with ⟨rows, hrows, htrue, hact⟩ | ⟨hnone, hact⟩
      · rcases act_report accounts config w' c params with ⟨rows', hrows', -, hact'⟩ | ⟨hnone, -⟩
        · rw [hrows] at hrows'
          cases hrows'
          rw [hact, hact']
          refine
            { byUid := h.byUid
              states := fun user huser => ?_
              keyed := h.keyed.setStates _ _
              keyed' := h.keyed'.setStates _ _
              cleared := hcleared c false
              gone := h.gone
              pushed := ?_ }
          · rw [storeReport, storeReport, Links.statesOf_setStates, Links.statesOf_setStates,
              h.states user huser]
          · rw [List.filter_append, List.filter_append, h.pushed, storeReport_congr hstates]
        · exact absurd (hsame.symm.trans htrue) (by rw [hnone rows hrows]; exact Bool.false_ne_true)
      · rcases act_report accounts config w' c params with ⟨rows, hrows, htrue, -⟩ | ⟨-, hact'⟩
        · exact absurd (hsame.trans htrue) (by rw [hnone rows hrows]; exact Bool.false_ne_true)
        · rw [hact, hact']
          exact { h with cleared := hcleared c false }

/-- A run looks the same without the account's reports. -/
theorem run_sees (hunique : UniqueConnections config) (events : List (StatesEvent κ)) :
    Sees accounts config uid (StatesWorld.run accounts config events)
      (StatesWorld.run accounts config (events.filter fun e => !e.isReportOf uid)) := by
  induction events using List.reverseRecOn with
  | nil =>
      exact
        { byUid := rfl
          states := fun _ _ => rfl
          keyed := fun _ _ _ hrow => nomatch hrow
          keyed' := fun _ _ _ hrow => nomatch hrow
          cleared := fun _ _ => rfl
          gone := rfl
          pushed := rfl }
  | append_singleton events e ih =>
      rw [List.filter_append, StatesWorld.run, StatesWorld.run, List.foldl_append,
        List.foldl_append]
      -- A report of the user's is left out of the other run.
      cases he : e.isReportOf uid with
      | true =>
          rw [List.filter_cons_of_neg (by rw [he]; exact Bool.false_ne_true)]
          exact ih.report hunique he
      | false =>
          rw [List.filter_cons_of_pos (by rw [he]; rfl)]
          exact ih.step hunique he

/-- Two runs that differ in the reports of one account's agents alone: every row of a
    connection that is not the account's is the same, and so is what is pushed about one. -/
theorem reports_confined [Unicode] (accounts : Str → Option Nat) {config : Config}
    (hvalid : config.Valid) (uid : Nat) {events events' : List (StatesEvent κ)}
    (h : events.filter (fun e => !e.isReportOf uid) = events'.filter fun e => !e.isReportOf uid) :
    (agentRowsOf accounts (StatesWorld.run accounts config events).links config).filter
        (fun row => decide (ownerUidOf accounts row.connection ≠ some uid)) =
      (agentRowsOf accounts (StatesWorld.run accounts config events').links config).filter
        (fun row => decide (ownerUidOf accounts row.connection ≠ some uid)) ∧
    (StatesWorld.run accounts config events).pushed.filter
        (fun change => concernsOther accounts config uid change.wire.id) =
      (StatesWorld.run accounts config events').pushed.filter
        fun change => concernsOther accounts config uid change.wire.id := by
  have hunique : UniqueConnections config := fun c hc c' hc' id hid hid' =>
    hvalid.sound.connection_unique hc hc' hid hid'
  have hrun : Sees accounts config uid (StatesWorld.run accounts config events) _ :=
    run_sees hunique events
  have hrun' : Sees accounts config uid (StatesWorld.run accounts config events') _ :=
    run_sees hunique events'
  rw [← h] at hrun'
  refine ⟨?_, hrun.pushed.trans hrun'.pushed.symm⟩
  refine filter_map_eq fun c hc => ?_
  by_cases howner : ownerUidOf accounts c = some uid
  · -- one of the account's own
    refine Or.inr ⟨?_, ?_⟩ <;> rw [agentRowOf_connection, howner] <;>
      exact decide_eq_false fun hne => hne rfl
  · exact Or.inl ((hrun.row (Or.inl howner)).trans (hrun'.row (Or.inl howner)).symm)

end Confined

section Painted

attribute [local instance] Unicode.ascii

/-- Two agents, of two accounts. -/
@[reducible] def annAndBob : AgentConnection Bool where
  peerUid := fun c => if c then 501 else 502

attribute [local instance] annAndBob

/-- The accounts. -/
def annAndBobAccounts (name : Str) : Option Nat :=
  if name = str "ann" then some 501 else if name = str "bob" then some 502 else none

/-- A connection of an account. -/
def connectionOfOwner (id owner : String) : Connection where
  id := some (str id)
  host := some (str "nas")
  share := some (str id)
  mountpoint := some (str "/Volumes/" ++ str id)
  credentialRef := none
  autoConnect := none
  owner := some (str owner)
  fallbackHost := none
  credentialAccount := none
  keychainCredential := none
  disconnected := none

/-- A config with a connection of each. -/
def twoOwners : Config where
  version := 1
  shares := []
  connections := [connectionOfOwner "films" "ann", connectionOfOwner "music" "bob"]

/-- A report that a connection is up, and another. -/
def bothConnected : List (Str × Json) :=
  [(str "states", .array
    [.object [(str "id", .string (str "films")), (str "state", .string (str "connected"))],
      .object [(str "id", .string (str "music")), (str "state", .string (str "connected"))]])]

/-- The agents connect. -/
def bothRegister : List (StatesEvent Bool) :=
  [.register true, .register false]

/-- A report of both connections changes what is shown of the reporter's own. -/
theorem reports_confined_painted :
    ((agentRowsOf annAndBobAccounts (StatesWorld.run annAndBobAccounts twoOwners
        (bothRegister ++ [.check false, .report false bothConnected])).links twoOwners).map
          fun row => row.wire.state) = [str "unknown", str "connected"] ∧
      (agentRowsOf annAndBobAccounts (StatesWorld.run annAndBobAccounts twoOwners
          (bothRegister ++ [.check false, .report false bothConnected])).links twoOwners).filter
          (fun row => decide (ownerUidOf annAndBobAccounts row.connection ≠ some 502)) =
        (agentRowsOf annAndBobAccounts (StatesWorld.run annAndBobAccounts twoOwners
          bothRegister).links twoOwners).filter
          (fun row => decide (ownerUidOf annAndBobAccounts row.connection ≠ some 502)) := by
  refine ⟨by decide, ?_⟩
  exact (reports_confined annAndBobAccounts (show twoOwners.Valid by decide) 502 (by rfl)).1

end Painted

end Smbpal
