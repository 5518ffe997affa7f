import Mathlib.Logic.Function.Basic
import Smbpal.Lib.Run

/-!
# The Agent's Link to the Daemon

`agent/link.py`'s `DaemonLink`: the latest list of states, and the two threads that send
it. The reconnect thread stores a list and sends what is stored; the link thread sends
what is stored when a session has registered.

What is stored is read under one lock and sent under another. A list the link thread has
read can be older than the one the reconnect thread stores and sends before the link
thread comes to send its own, and then the daemon hears the older one last, until
something changes again (`old_list_received_last`). Nothing else can go wrong: as long as
the link thread sends no list that is older than one of the session's, what the daemon
has heard last is what was reported last.

A list carries the number of its report here, by which two lists are told apart; the
program has no such number.

## Main definitions

* `Report`: A list of states.
* `Sending`: How far a thread has come in `_send_states`.
* `LinkThread`: How far the link thread has come.
* `DaemonLink`: The link, its sessions and its two threads.
* `DaemonLinkStep`: What a step may do.
* `NoOlder`: The link thread sends no list that is older than one the daemon has.
* `Settled`: All sends have finished, and none has failed on the session.

## Theorems

* `DaemonLinkStep.inv`: Such a step keeps the invariant.
* `newest_list_received`: The daemon ends up with the newest list.
* `old_list_received_last`: A run in which it does not.
-/

namespace Smbpal

open Lib

/-- A list of states, with the number of its report. -/
structure Report (α : Type) where
  number : Nat
  states : α
  deriving DecidableEq

/-- What a thread does next in `_send_states`. -/
inductive Sending (α : Type) where
  | client
  | registered (session : Nat)
  | states (session : Nat)
  | send (session : Nat) (report : Report α)
  deriving DecidableEq

/-- How far the link thread has come in its loop. -/
inductive LinkThread (α : Type) where
  | down
  | connected (session : Nat)
  | sending (session : Nat) (next : Sending α)
  | listening (session : Nat)
  | clearing (session : Nat)
  | closing (session : Nat)

/-- A session: what the daemon received on it, whether its socket is open, and whether a
    send has failed on it. -/
structure LinkSession (α : Type) where
  received : List (Report α)
  isOpen : Bool
  failed : Bool

/-- `DaemonLink`, with its sessions and its two threads; a report that is not being sent
    is none. -/
structure DaemonLink (α : Type) where
  client : Option Nat
  registered : Bool
  latest : Option (Report α)
  reports : Nat
  sessions : Nat → LinkSession α
  dialled : Nat
  reporter : Option (Sending α)
  link : LinkThread α

/-- The agent starts. -/
def DaemonLink.init {α : Type} : DaemonLink α where
  client := none
  registered := false
  latest := none
  reports := 0
  sessions := fun _ => { received := [], isOpen := false, failed := false }
  dialled := 0
  reporter := none
  link := .down

/-- What happens. -/
inductive DaemonLinkEvent (α : Type) where
  | report (states : α)
  | reporterLooks
  | reporterSends
  | dial
  | register
  | linkLooks
  | linkSends
  | lost
  | unset
  | close

namespace DaemonLink

variable {α : Type}

/-- The next step of `_send_states`; it returns where there is none. -/
def look (w : DaemonLink α) : Sending α → Option (Sending α)
  | .client => w.client.map .registered
  | .registered session => if w.registered then some (.states session) else none
  | .states session => w.latest.map (.send session)
  | .send session report => some (.send session report)

/-- Change a session. -/
def onSession (w : DaemonLink α) (session : Nat) (f : LinkSession α → LinkSession α) :
    DaemonLink α :=
  { w with sessions := Function.update w.sessions session (f (w.sessions session)) }

/-- The daemon receives a list. -/
def deliver (w : DaemonLink α) (session : Nat) (report : Report α) : DaemonLink α :=
  w.onSession session fun s => { s with received := s.received ++ [report] }

/-- A send fails: the socket is closed, or the daemon is not there. -/
def fail (w : DaemonLink α) (session : Nat) : DaemonLink α :=
  w.onSession session fun s => { s with failed := true }

/-- Where the link thread is after a step of `_send_states`. -/
def linkAfter (session : Nat) : Option (Sending α) → LinkThread α
  | some next => .sending session next
  | none => .listening session

end DaemonLink

open DaemonLink

/-- What a step may do. -/
inductive DaemonLinkStep {α : Type} :
    DaemonLink α → DaemonLinkEvent α → DaemonLink α → Prop where
  | report {w : DaemonLink α} (states : α) (h : w.reporter = none) :
      DaemonLinkStep w (.report states)
        { w with
          latest := some { number := w.reports, states := states }
          reports := w.reports + 1
          reporter := some .client }
  | reporterLooks {w : DaemonLink α} {next : Sending α} (h : w.reporter = some next)
      (hnext : ∀ session report, next ≠ .send session report) :
      DaemonLinkStep w .reporterLooks { w with reporter := w.look next }
  | reporterSends {w : DaemonLink α} {session : Nat} {report : Report α}
      (h : w.reporter = some (.send session report))
      (hopen : (w.sessions session).isOpen = true) :
      DaemonLinkStep w .reporterSends { w.deliver session report with reporter := none }
  | reporterFails {w : DaemonLink α} {session : Nat} {report : Report α}
      (h : w.reporter = some (.send session report)) :
      DaemonLinkStep w .reporterSends { w.fail session with reporter := none }
  | dial {w : DaemonLink α} (h : w.link = .down) :
      DaemonLinkStep w .dial
        { w.onSession w.dialled (fun _ => { received := [], isOpen := true, failed := false }) with
          client := some w.dialled
          dialled := w.dialled + 1
          link := .connected w.dialled }
  | register {w : DaemonLink α} {session : Nat} (h : w.link = .connected session) :
      DaemonLinkStep w .register
        { w with
          registered := true
          link := .sending session .client }
  | linkLooks {w : DaemonLink α} {session : Nat} {next : Sending α}
      (h : w.link = .sending session next)
      (hnext : ∀ session report, next ≠ .send session report) :
      DaemonLinkStep w .linkLooks { w with link := linkAfter session (w.look next) }
  | linkSends {w : DaemonLink α} {session client : Nat} {report : Report α}
      (h : w.link = .sending session (.send client report))
      (hopen : (w.sessions client).isOpen = true) :
      DaemonLinkStep w .linkSends { w.deliver client report with link := .listening session }
  | linkFails {w : DaemonLink α} {session client : Nat} {report : Report α}
      (h : w.link = .sending session (.send client report)) :
      DaemonLinkStep w .linkSends { w.fail client with link := .listening session }
  /-- The daemon is not the one that is trusted, the registration fails, or the session ends. -/
  | lost {w : DaemonLink α} {session : Nat}
      (h : w.link = .connected session ∨ w.link = .listening session) :
      DaemonLinkStep w .lost
        { w with
          registered := false
          link := .clearing session }
  | unset {w : DaemonLink α} {session : Nat} (h : w.link = .clearing session) :
      DaemonLinkStep w .unset
        { w with
          client := none
          link := .closing session }
  | close {w : DaemonLink α} {session : Nat} (h : w.link = .closing session) :
      DaemonLinkStep w .close
        { w.onSession session (fun s => { s with isOpen := false }) with link := .down }

/-- When the link thread sends a list, the daemon has received no newer one on the session. -/
def NoOlder {α : Type} (w : DaemonLink α) : DaemonLinkEvent α → Prop
  | .linkSends => ∀ session client report, w.link = .sending session (.send client report) →
      ∀ m ∈ (w.sessions client).received, m.number ≤ report.number
  | _ => True

/-- All sends have finished, the last session is registered, and none has failed on it. -/
structure Settled {α : Type} (w : DaemonLink α) (session : Nat) : Prop where
  reporter : w.reporter = none
  listening : w.link = .listening session
  sent : (w.sessions session).failed = false

section Invariant

variable {α : Type}

/-- A thread that goes on in `_send_states` sends on a session, if it is still the one. -/
def Sending.Reaches (session : Nat) (next : Sending α) : Prop :=
  next = .client ∨ next = .registered session ∨ next = .states session ∨
    ∃ report, next = .send session report

/-- The reconnect thread is to send on a session. -/
def Pending (w : DaemonLink α) (session : Nat) : Prop :=
  ∃ next, w.reporter = some next ∧ next.Reaches session

/-- What the link thread has set, by how far it has come. -/
def LinkSet (w : DaemonLink α) : Prop :=
  match w.link with
  | .down => w.client = none ∧ w.registered = false
  | .connected session => w.client = some session ∧ w.registered = false
  | .sending session next =>
      w.client = some session ∧ w.registered = true ∧ next.Reaches session
  | .listening session => w.client = some session ∧ w.registered = true
  | .clearing session => w.client = some session ∧ w.registered = false
  | .closing _ => w.client = none ∧ w.registered = false

/-- What holds between any two steps. -/
structure DaemonLinkInv (w : DaemonLink α) : Prop where
  set : LinkSet w
  numbered : ∀ x, w.latest = some x → x.number < w.reports
  silent : w.latest = none → w.reporter = none ∧ ∀ session, (w.sessions session).received = []
  reads : ∀ session report, w.reporter = some (.send session report) → w.latest = some report
  older : ∀ session client report, w.link = .sending session (.send client report) →
    ∃ x, w.latest = some x ∧ (x = report ∨ report.number < x.number)
  sending : ∀ session client report, w.link = .sending session (.send client report) →
    (w.sessions session).failed = false → w.latest = some report ∨ Pending w session ∨
      ∃ m ∈ (w.sessions session).received, report.number < m.number
  listening : ∀ session, w.link = .listening session → (w.sessions session).failed = false →
    Pending w session ∨ (w.sessions session).received.getLast? = w.latest

theorem daemonLinkInv_init : DaemonLinkInv (DaemonLink.init : DaemonLink α) where
  set := ⟨rfl, rfl⟩
  numbered := fun _ h => nomatch h
  silent := fun _ => ⟨rfl, fun _ => rfl⟩
  reads := fun _ _ h => nomatch h
  older := fun _ _ _ h => nomatch h
  sending := fun _ _ _ h => nomatch h
  listening := fun _ h => nomatch h

variable {w : DaemonLink α}

/-- While a session is registered, who is to send on it goes on to. -/
theorem look_reaches {session : Nat} {next : Sending α} (hclient : w.client = some session)
    (hregistered : w.registered = true) (hreaches : next.Reaches session) :
    (∃ next', w.look next = some next' ∧ next'.Reaches session) ∨
      next = .states session ∧ w.latest = none := by
  rcases hreaches with rfl | rfl | rfl | ⟨report, rfl⟩
  · refine Or.inl ⟨.registered session, ?_, Or.inr (Or.inl rfl)⟩
    rw [look, hclient, Option.map_some]
  · refine Or.inl ⟨.states session, ?_, Or.inr (Or.inr (Or.inl rfl))⟩
    rw [look, if_pos hregistered]
  · cases hlatest : w.latest with
    | none => exact Or.inr ⟨rfl, rfl⟩
    | some x =>
        refine Or.inl ⟨.send session x, ?_, Or.inr (Or.inr (Or.inr ⟨x, rfl⟩))⟩
        rw [look, hlatest, Option.map_some]
  · exact Or.inl ⟨.send session report, rfl, Or.inr (Or.inr (Or.inr ⟨report, rfl⟩))⟩

/-- What is read is what is stored. -/
theorem look_send {next : Sending α} (hnext : ∀ session report, next ≠ .send session report)
    {session : Nat} {report : Report α} (h : w.look next = some (.send session report)) :
    w.latest = some report ∧ next = .states session := by
  cases next with
  | client =>
      rcases Option.map_eq_some_iff.mp h with ⟨c, -, hc⟩
      exact nomatch hc
  | registered c =>
      rw [look] at h
      by_cases hregistered : w.registered = true
      · rw [if_pos hregistered] at h
        exact nomatch h
      · rw [if_neg hregistered] at h
        exact nomatch h
  | states c =>
      rcases Option.map_eq_some_iff.mp h with ⟨x, hx, hc⟩
      cases hc
      exact ⟨hx, rfl⟩
  | send c x => exact absurd rfl (hnext c x)

/-- A new report is to be sent on every session that is registered. -/
theorem DaemonLinkInv.report (h : DaemonLinkInv w) (states : α) :
    DaemonLinkInv { w with
      latest := some { number := w.reports, states := states }
      reports := w.reports + 1
      reporter := some .client } where
  set := h.set
  numbered := fun x hx => by
    cases hx
    exact Nat.lt_succ_self _
  silent := fun hnone => nomatch hnone
  reads := fun session report hsend => nomatch hsend
  -- What a session still has to send is older than the new list.
  older := fun session client report hlink => by
    rcases h.older session client report hlink with ⟨x, hx, hnumber⟩
    have hless := h.numbered x hx
    refine ⟨_, rfl, Or.inr ?_⟩
    rcases hnumber with rfl | hnumber
    · exact hless
    · exact Nat.lt_trans hnumber hless
  sending := fun session client report hlink hsent =>
    Or.inr (Or.inl ⟨.client, rfl, Or.inl rfl⟩)
  listening := fun session hlink hsent => Or.inl ⟨.client, rfl, Or.inl rfl⟩

/-- The session of the link thread, once it is registered. -/
theorem LinkSet.listening {session : Nat} (h : LinkSet w) (hlink : w.link = .listening session) :
    w.client = some session ∧ w.registered = true := by
  rw [LinkSet, hlink] at h
  exact h

theorem LinkSet.sending {session : Nat} {next : Sending α} (h : LinkSet w)
    (hlink : w.link = .sending session next) :
    w.client = some session ∧ w.registered = true ∧ next.Reaches session := by
  rw [LinkSet, hlink] at h
  exact h

/-- The reconnect thread goes on, and to the session if that is registered. -/
theorem DaemonLinkInv.reporterLooks (h : DaemonLinkInv w) {next : Sending α}
    (hreporter : w.reporter = some next)
    (hnext : ∀ session report, next ≠ .send session report) :
    DaemonLinkInv { w with reporter := w.look next } := by
  -- The reporter is at work, so there is something to report.
  have hlatest : w.latest ≠ none := fun hnone => by
    rw [(h.silent hnone).1] at hreporter
    exact nomatch hreporter
  -- Its look goes on towards every session that was pending.
  have hpending : ∀ session, w.client = some session → w.registered = true →
      Pending w session → Pending { w with reporter := w.look next } session := by
    rintro session hclient hregistered ⟨other, hother, hreaches⟩
    rw [hreporter] at hother
    cases hother
    rcases look_reaches hclient hregistered hreaches with hgoes | ⟨-, hnone⟩
    · exact hgoes
    · exact absurd hnone hlatest
  exact
    { h with
      silent := fun hnone => absurd hnone hlatest
      reads := fun session report hsend => (look_send hnext hsend).1
      sending := fun session client report hlink hsent => by
        rcases h.set.sending hlink with ⟨hclient, hregistered, -⟩
        exact (h.sending session client report hlink hsent).imp_right
          (Or.imp_left (hpending session hclient hregistered))
      listening := fun session hlink hsent => by
        rcases h.set.listening hlink with ⟨hclient, hregistered⟩
        exact (h.listening session hlink hsent).imp_left (hpending session hclient hregistered) }

theorem onSession_self (session : Nat) (f : LinkSession α → LinkSession α) :
    (w.onSession session f).sessions session = f (w.sessions session) :=
  Function.update_self session _ _

theorem onSession_ne {session other : Nat} (hne : other ≠ session)
    (f : LinkSession α → LinkSession α) :
    (w.onSession session f).sessions other = w.sessions other :=
  Function.update_of_ne hne _ _

theorem deliver_received_self (session : Nat) (report : Report α) :
    ((w.deliver session report).sessions session).received =
      (w.sessions session).received ++ [report] := by
  rw [deliver, onSession_self]

theorem deliver_received_ne {session other : Nat} (hne : other ≠ session) (report : Report α) :
    (w.deliver session report).sessions other = w.sessions other := by
  rw [deliver, onSession_ne hne]

theorem deliver_failed (session other : Nat) (report : Report α) :
    ((w.deliver session report).sessions other).failed = (w.sessions other).failed := by
  by_cases hsame : other = session
  · rw [hsame, deliver, onSession_self]
  · rw [deliver_received_ne hsame]

theorem mem_deliver {session other : Nat} {report m : Report α}
    (h : m ∈ (w.sessions other).received) :
    m ∈ ((w.deliver session report).sessions other).received := by
  by_cases hsame : other = session
  · rw [hsame] at h ⊢
    rw [deliver_received_self]
    exact List.mem_append_left _ h
  · rw [deliver_received_ne hsame]
    exact h

theorem fail_failed_self (session : Nat) : ((w.fail session).sessions session).failed = true := by
  rw [fail, onSession_self]

theorem fail_sessions_ne {session other : Nat} (hne : other ≠ session) :
    (w.fail session).sessions other = w.sessions other := by
  rw [fail, onSession_ne hne]

/-- Who sends on another session is not to send on this one. -/
theorem not_pending {session other : Nat} {report : Report α}
    (h : w.reporter = some (.send session report)) (hne : other ≠ session) : ¬Pending w other := by
  rintro ⟨next, hnext, hreaches⟩
  rw [h] at hnext
  cases hnext
  rcases hreaches with heq | heq | heq | ⟨_, heq⟩ <;> cases heq
  exact hne rfl

/-- The daemon hears the newest list from the reconnect thread. -/
theorem DaemonLinkInv.reporterSends (h : DaemonLinkInv w) {session : Nat} {report : Report α}
    (hreporter : w.reporter = some (.send session report)) :
    DaemonLinkInv { w.deliver session report with reporter := none } := by
  have hlatest := h.reads session report hreporter
  exact
    { set := h.set
      numbered := h.numbered
      silent := fun hnone => nomatch hlatest.symm.trans hnone
      reads := fun _ _ hsend => nomatch hsend
      older := h.older
      sending := fun s client r hlink hsent => by
        rw [deliver_failed] at hsent
        rcases h.sending s client r hlink hsent with hstill | hpending | ⟨m, hm, hnewer⟩
        · exact Or.inl hstill
        · -- it was to send on this session, so what the link thread has is no newer
          have hsame : s = session := Classical.not_not.mp fun hne =>
            not_pending hreporter hne hpending
          rcases h.older s client r hlink with ⟨x, hx, hnumber⟩
          cases hlatest.symm.trans hx
          rcases hnumber with rfl | hnumber
          · exact Or.inl hlatest
          · refine Or.inr (Or.inr ⟨report, ?_, hnumber⟩)
            rw [hsame, deliver_received_self]
            exact List.mem_append_right _ List.mem_cons_self
        · exact Or.inr (Or.inr ⟨m, mem_deliver hm, hnewer⟩)
      listening := fun s hlink hsent => by
        rw [deliver_failed] at hsent
        refine Or.inr ?_
        by_cases hsame : s = session
        · rw [hsame, deliver_received_self, List.getLast?_concat]
          exact hlatest.symm
        · rw [deliver_received_ne hsame]
          exact (h.listening s hlink hsent).resolve_left (not_pending hreporter hsame) }

theorem DaemonLinkInv.reporterFails (h : DaemonLinkInv w) {session : Nat} {report : Report α}
    (hreporter : w.reporter = some (.send session report)) :
    DaemonLinkInv { w.fail session with reporter := none } := by
  have hlatest := h.reads session report hreporter
  exact
    { set := h.set
      numbered := h.numbered
      silent := fun hnone => nomatch hlatest.symm.trans hnone
      reads := fun _ _ hsend => nomatch hsend
      older := h.older
      -- A session other than the failed one has what it had.
      sending := fun s client r hlink hsent => by
        have hne : s ≠ session := fun heq => by
          rw [heq, fail_failed_self] at hsent
          exact nomatch hsent
        rw [fail_sessions_ne hne] at hsent ⊢
        rcases h.sending s client r hlink hsent with hstill | hpending | hnewer
        · exact Or.inl hstill
        · exact absurd hpending (not_pending hreporter hne)
        · exact Or.inr (Or.inr hnewer)
      listening := fun s hlink hsent => by
        have hne : s ≠ session := fun heq => by
          rw [heq, fail_failed_self] at hsent
          exact nomatch hsent
        rw [fail_sessions_ne hne] at hsent ⊢
        exact Or.inr ((h.listening s hlink hsent).resolve_left (not_pending hreporter hne)) }

/-- The link thread goes on: what it reads is the newest list there is. -/
theorem DaemonLinkInv.linkLooks (h : DaemonLinkInv w) {session : Nat} {next : Sending α}
    (hlink : w.link = .sending session next)
    (hnext : ∀ session report, next ≠ .send session report) :
    DaemonLinkInv { w with link := linkAfter session (w.look next) } := by
  rcases h.set.sending hlink with ⟨hclient, hregistered, hreaches⟩
  rcases look_reaches hclient hregistered hreaches with ⟨next', hgoes, hreaches'⟩ | ⟨rfl, hnone⟩
  · rw [hgoes]
    exact
      { h with
        set := ⟨hclient, hregistered, hreaches'⟩
        older := fun s client r hsend => by
          cases hsend
          exact ⟨r, (look_send hnext hgoes).1, Or.inl rfl⟩
        sending := fun s client r hsend _ => by
          cases hsend
          exact Or.inl (look_send hnext hgoes).1
        listening := fun s hsend => nomatch hsend }
  · -- There is nothing to send, and the link goes on to listen.
    have hdone : w.look (.states session) = none := by
      rw [look, hnone, Option.map_none]
    rw [hdone]
    exact
      { h with
        set := ⟨hclient, hregistered⟩
        older := fun _ _ _ hsend => nomatch hsend
        sending := fun _ _ _ hsend => nomatch hsend
        listening := fun s hsend _ => by
          refine Or.inr ?_
          rw [(h.silent hnone).2 s, hnone, List.getLast?_nil] }

/-- The link thread sends a list that is no older than what the daemon has. -/
theorem DaemonLinkInv.linkSends (h : DaemonLinkInv w) {session client : Nat} {report : Report α}
    (hlink : w.link = .sending session (.send client report))
    (hmet : ∀ m ∈ (w.sessions client).received, m.number ≤ report.number) :
    DaemonLinkInv { w.deliver client report with link := .listening session } := by
  rcases h.set.sending hlink with ⟨hclient, hregistered, hreaches⟩
  -- What a session's link sends goes to that session.
  have hsame : client = session := by
    rcases hreaches with heq | heq | heq | ⟨_, heq⟩ <;> cases heq
    rfl
  subst hsame
  exact
    { set := ⟨hclient, hregistered⟩
      numbered := h.numbered
      silent := fun hnone => by
        rcases h.older client client report hlink with ⟨x, hx, -⟩
        exact nomatch hx.symm.trans hnone
      reads := h.reads
      older := fun _ _ _ hsend => nomatch hsend
      sending := fun _ _ _ hsend => nomatch hsend
      listening := fun s hsend hsent => by
        cases hsend
        rw [deliver_failed] at hsent
        -- Either it is still the latest, or the reporter will send a newer one.
        rcases h.sending client client report hlink hsent with hstill | hpending | ⟨m, hm, hnewer⟩
        · refine Or.inr ?_
          rw [deliver_received_self, List.getLast?_concat]
          exact hstill.symm
        · exact Or.inl hpending
        · exact absurd (hmet m hm) (Nat.not_le.mpr hnewer) }

theorem DaemonLinkInv.linkFails (h : DaemonLinkInv w) {session client : Nat} {report : Report α}
    (hlink : w.link = .sending session (.send client report)) :
    DaemonLinkInv { w.fail client with link := .listening session } := by
  rcases h.set.sending hlink with ⟨hclient, hregistered, hreaches⟩
  have hsame : client = session := by
    rcases hreaches with heq | heq | heq | ⟨_, heq⟩ <;> cases heq
    rfl
  subst hsame
  exact
    { set := ⟨hclient, hregistered⟩
      numbered := h.numbered
      silent := fun hnone => by
        rcases h.older client client report hlink with ⟨x, hx, -⟩
        exact nomatch hx.symm.trans hnone
      reads := h.reads
      older := fun _ _ _ hsend => nomatch hsend
      sending := fun _ _ _ hsend => nomatch hsend
      -- The session the list failed on has failed, and owes nothing.
      listening := fun s hsend hsent => by
        cases hsend
        rw [fail_failed_self] at hsent
        exact nomatch hsent }

/-- A step of the link thread outside `_send_states`. -/
theorem DaemonLinkInv.between (h : DaemonLinkInv w) {w' : DaemonLink α} (hset : LinkSet w')
    (hlatest : w'.latest = w.latest) (hreports : w'.reports = w.reports)
    (hreporter : w'.reporter = w.reporter)
    (hreceived : ∀ session, (w'.sessions session).received = (w.sessions session).received ∨
      (w'.sessions session).received = [])
    (hlink : (∀ session next, w'.link = .sending session next → next = .client) ∧
      ∀ session, w'.link ≠ .listening session) : DaemonLinkInv w' where
  set := hset
  numbered := by
    rw [hlatest, hreports]
    exact h.numbered
  silent := fun hnone => by
    rw [hlatest] at hnone
    rcases h.silent hnone with ⟨hnoReporter, hnothing⟩
    rw [hreporter]
    exact ⟨hnoReporter, fun session =>
      (hreceived session).elim (fun heq => heq.trans (hnothing session)) id⟩
  reads := by
    rw [hlatest, hreporter]
    exact h.reads
  older := fun _ _ _ hsend => nomatch hlink.1 _ _ hsend
  sending := fun _ _ _ hsend => nomatch hlink.1 _ _ hsend
  listening := fun _ hlistening => absurd hlistening (hlink.2 _)

/-- A step in which the link thread sends no list that is older than one the daemon has
    keeps the invariant. -/
theorem DaemonLinkStep.inv {w' : DaemonLink α} {e : DaemonLinkEvent α} (h : DaemonLinkInv w)
    (hmet : NoOlder w e) (hstep : DaemonLinkStep w e w') : DaemonLinkInv w' := by
  cases hstep with
  | report states hidle => exact h.report states
  | reporterLooks hreporter hnext => exact h.reporterLooks hreporter hnext
  | reporterSends hreporter hopen => exact h.reporterSends hreporter
  | reporterFails hreporter => exact h.reporterFails hreporter
  | linkLooks hlink hnext => exact h.linkLooks hlink hnext
  | linkSends hlink hopen => exact h.linkSends hlink (hmet _ _ _ hlink)
  | linkFails hlink => exact h.linkFails hlink
  | dial hlink =>
      have hset := h.set
      rw [LinkSet, hlink] at hset
      refine h.between ⟨rfl, hset.2⟩ rfl rfl rfl (fun session => ?_)
        ⟨(fun _ _ heq => nomatch heq), fun _ heq => nomatch heq⟩
      -- The session dialled is the only one that changes, and it has received nothing.
      by_cases hsame : session = w.dialled
      · rw [hsame, onSession_self]
        exact Or.inr rfl
      · rw [onSession_ne hsame]
        exact Or.inl rfl
  | register hlink =>
      have hset := h.set
      rw [LinkSet, hlink] at hset
      refine h.between ⟨hset.1, rfl, Or.inl rfl⟩ rfl rfl rfl (fun _ => Or.inl rfl)
        ⟨(fun _ _ heq => ?_), fun _ heq => nomatch heq⟩
      cases heq
      rfl
  | @lost session hlink =>
      have hclient : w.client = some session := by
        have hset := h.set
        rcases hlink with hlink | hlink <;> rw [LinkSet, hlink] at hset <;> exact hset.1
      exact h.between ⟨hclient, rfl⟩ rfl rfl rfl (fun _ => Or.inl rfl)
        ⟨(fun _ _ heq => nomatch heq), fun _ heq => nomatch heq⟩
  | unset hlink =>
      have hset := h.set
      rw [LinkSet, hlink] at hset
      exact h.between ⟨rfl, hset.2⟩ rfl rfl rfl (fun _ => Or.inl rfl)
        ⟨(fun _ _ heq => nomatch heq), fun _ heq => nomatch heq⟩
  | @close closed hlink =>
      have hset := h.set
      rw [LinkSet, hlink] at hset
      refine h.between hset rfl rfl rfl (fun session => Or.inl ?_)
        ⟨(fun _ _ heq => nomatch heq), fun _ heq => nomatch heq⟩
      by_cases hsame : session = closed
      · rw [hsame, onSession_self]
      · rw [onSession_ne hsame]

/-- As long as the link thread sends no list that is older than one the daemon has, what
    the daemon has received last on the session is what was reported last. -/
theorem newest_list_received {session : Nat}
    (hrun : GuardedRun DaemonLinkStep NoOlder DaemonLink.init w) (hsettled : Settled w session) :
    (w.sessions session).received.getLast? = w.latest := by
  have hinv : DaemonLinkInv w :=
    GuardedRun.invariant DaemonLinkInv daemonLinkInv_init
      (fun _ _ _ h hmet hstep => hstep.inv h hmet) hrun
  rcases hinv.listening session hsettled.listening hsettled.sent with ⟨next, hnext, -⟩ | hlast
  · exact nomatch hsettled.reporter.symm.trans hnext
  · exact hlast

end Invariant

section Stale

/-- The daemon starts, and the agent registers and reports. -/
theorem newest_list_received_once :
    ∃ w : DaemonLink Bool, Settled w 0 ∧ w.latest = some { number := 0, states := true } ∧
      (w.sessions 0).received.getLast? = w.latest := by
  have hrun : GuardedRun DaemonLinkStep NoOlder DaemonLink.init _ :=
    GuardedRun.start
    |>.next .dial trivial (.dial rfl)
    |>.next .register trivial (.register rfl)
    |>.next .linkLooks trivial (.linkLooks rfl fun _ _ h => nomatch h)
    |>.next (.report true) trivial (.report true rfl)
    |>.next .reporterLooks trivial (.reporterLooks rfl fun _ _ h => nomatch h)
    |>.next .linkLooks trivial (.linkLooks rfl fun _ _ h => nomatch h)
    |>.next .linkLooks trivial (.linkLooks rfl fun _ _ h => nomatch h)
    |>.next .linkSends (fun _ _ _ hlink m hm => by cases hlink; exact nomatch hm)
      (.linkSends rfl rfl)
    |>.next .reporterLooks trivial (.reporterLooks rfl fun _ _ h => nomatch h)
    |>.next .reporterLooks trivial (.reporterLooks rfl fun _ _ h => nomatch h)
    |>.next .reporterSends trivial (.reporterSends rfl rfl)
  exact ⟨_, ⟨rfl, rfl, rfl⟩, rfl, newest_list_received hrun ⟨rfl, rfl, rfl⟩⟩

/-- The link thread has read a list, and comes to send it after a newer one was sent. -/
theorem old_list_received_last :
    ∃ w : DaemonLink Bool, GuardedRun DaemonLinkStep (fun _ _ => True) DaemonLink.init w ∧
      Settled w 0 ∧ w.latest = some { number := 1, states := true } ∧
        (w.sessions 0).received =
          [{ number := 1, states := true }, { number := 0, states := false }] := by
  -- The link takes the first list before the second is made, and sends it after.
  have hrun : GuardedRun DaemonLinkStep (fun _ _ => True) DaemonLink.init _ :=
    GuardedRun.start
    |>.next (.report false) trivial (.report false rfl)
    |>.next .reporterLooks trivial (.reporterLooks rfl fun _ _ h => nomatch h)
    |>.next .dial trivial (.dial rfl)
    |>.next .register trivial (.register rfl)
    |>.next .linkLooks trivial (.linkLooks rfl fun _ _ h => nomatch h)
    |>.next .linkLooks trivial (.linkLooks rfl fun _ _ h => nomatch h)
    |>.next .linkLooks trivial (.linkLooks rfl fun _ _ h => nomatch h)
    |>.next (.report true) trivial (.report true rfl)
    |>.next .reporterLooks trivial (.reporterLooks rfl fun _ _ h => nomatch h)
    |>.next .reporterLooks trivial (.reporterLooks rfl fun _ _ h => nomatch h)
    |>.next .reporterLooks trivial (.reporterLooks rfl fun _ _ h => nomatch h)
    |>.next .reporterSends trivial (.reporterSends rfl rfl)
    |>.next .linkSends trivial (.linkSends rfl rfl)
  exact ⟨_, hrun, ⟨rfl, rfl, rfl⟩, rfl, rfl⟩

end Stale

end Smbpal
