import Mathlib.Data.List.Count
import Smbpal.Lib.Run
import Smbpal.State.Monitor

/-!
# An Eject Is Respected

A connection that was mounted and is not any more was disconnected by somebody,
and the monitor does not mount it straight back. It knows by a latch, which is
set when a poll finds the connection connected and is kept until the connection
is forgotten, leaves the config or points somewhere else.

The latch is kept under the connection's id. Connections without an id are all
kept under the same one, so where two of them point at different things each
takes the other's latch away, and the first is started again after an eject.

Being mounted is not being connected. A share whose server has stopped
answering is unreachable while it is mounted, and one that is never mounted by
itself is disabled, and neither sets the latch. So a poll that finds the share
mounted latches it when the state it derives is connected (`ShowsConnected`),
and `starts_after_eject` is a start after one that does not.

The world goes on changing while a poll looks at it: each step of a poll is
answered by one of the worlds there were during it.

## Main definitions

* `World`: What there is to see at one moment.
* `Watched`: The monitor's memory, and the starts it asked for.
* `MonitorEvent`, `MonitorStep`: Polls, and connections forgotten between them.
* `Frees`: What ends a latch.
* `OneTarget`: No two connections of a config share an id, as those without one
  do, and point at different things.
* `FindsMounted`, `ShowsConnected`: A poll that sees the share mounted, and one
  that latches it for that.

## Theorems

* `poll_latched`: A poll that does not free a latch keeps it, and starts nothing.
* `poll_latches`: A poll that finds the share connected latches it.
* `eject_respected`: After such a poll, over any later events.
* `starts_after_eject`: After one that finds it mounted and not connected.
-/

namespace Smbpal

open Lib Program

/-- What there is to see at one moment, and what would come of a start. -/
structure World where
  config : Except Exc Config
  servers : List (Str × Bool)
  table : MountTable
  unitShow : Str → Except SmbpalError UnitShow
  journal : Str → Except SmbpalError Str
  reachable : Option Str → Bool
  start : Str → Except SmbpalError Unit
  /-- What the broadcast of an event does. -/
  push : Except Exc Unit

/-- The monitor's memory, and the starts it has asked for. -/
structure Watched where
  memory : Memory
  starts : List (Option Str × Target)

/-- What a world answers to a step, and what the step does. -/
def World.serve (w : World) : (op : MonitorOp) → Watched → Except Exc op.Value × Watched
  | .load, s => (w.config, s)
  | .serverStates, s => (.ok w.servers, s)
  | .mountTable, s => (.ok w.table, s)
  | .unitShow unit, s => ((w.unitShow unit).mapError .smbpal, s)
  | .journal unit, s => ((w.journal unit).mapError .smbpal, s)
  | .reachable host, s => (.ok (w.reachable host), s)
  -- A start is kept, whether systemd takes it or not.
  | .start id target unit, s =>
      ((w.start unit).mapError .smbpal, { s with starts := s.starts ++ [(id, target)] })
  | .primedTarget id, s => (.ok (s.memory.primed id), s)
  | .attemptFor id, s => (.ok (s.memory.attempted id), s)
  | .latch id target because, s =>
      (.ok (), { s with memory := s.memory.latch id target because })
  | .recordAttempt id target count, s =>
      (.ok (), { s with memory := s.memory.record id target count })
  | .previousState id, s => (.ok (s.memory.stateFor id), s)
  | .replaceStates current, s =>
      (.ok (s.memory.goneFrom current), { s with memory := { s.memory with states := current } })
  | .forget id, s => (.ok (), { s with memory := s.memory.forget id })
  | .emit _ _ _, s => (w.push, s)
  | .pushRemoved _, s => (w.push, s)

/-- The steps of a poll, each answered by one of these worlds. -/
def worldMachine (W : World → Prop) : Machine monitorSig Watched :=
  fun op s ans s' => ∃ w, W w ∧ w.serve op s = (ans, s')

/-- What happens to a monitor. -/
inductive MonitorEvent where
  /-- A poll, and the worlds there are during it. -/
  | poll (W : World → Prop)
  | forget (id : Option Str)

/-- The latch of a connection that points at this ends: it is forgotten, or no
    connection of its id in the config a poll reads points there, so that it has
    left the config or points somewhere else. -/
def Frees (id : Option Str) (target : Target) : MonitorEvent → Prop
  | .poll W => ∃ w config, W w ∧ w.config = .ok config ∧ ¬config.PointsAt id target
  | .forget about => about = id

/-- In each config that is read, all connections of this id point at the same
    thing. -/
def OneTarget (id : Option Str) : MonitorEvent → Prop
  | .poll W => ∀ w config, W w → w.config = .ok config → config.OneTarget id
  | .forget _ => True

/-- The connection is latched for a target, if the monitor primes at all, and so
    many starts were asked for it. -/
structure Latched (prime : Bool) (id : Option Str) (target : Target) (n : Nat) (s : Watched) :
    Prop where
  primed : prime = true → s.memory.primed id = some target
  starts : s.starts.count (id, target) = n

section Steps

variable {W : World → Prop} {s s' : Watched} {id : Option Str} {target : Target} {n : Nat}
  {prime : Bool}

theorem always_served (op : MonitorOp) (Q : Except Exc op.Value → Watched → Prop) :
    Always (worldMachine W) (take op) Q s ↔
      ∀ w, W w → Q (w.serve op s).1 (w.serve op s).2 := by
  rw [always_take]
  constructor
  · exact fun h w hw => h _ _ ⟨w, hw, rfl⟩
  · rintro h ans s' ⟨w, hw, hserve⟩
    have hQ := h w hw
    rw [hserve] at hQ
    exact hQ

/-- Looking changes nothing. -/
theorem reading_same {op : MonitorOp} {ans : Except Exc op.Value} (hop : op.IsReading)
    (h : worldMachine W op s ans s') : s' = s := by
  rcases h with ⟨w, -, hserve⟩
  have hs' : s' = (w.serve op s).2 := (congrArg Prod.snd hserve).symm
  rw [hs']
  cases op
  case start => exact hop.elim
  case latch => exact hop.elim
  case recordAttempt => exact hop.elim
  case replaceStates => exact hop.elim
  case forget => exact hop.elim
  all_goals rfl

theorem latch_latched (h : Latched prime id target n s) (because : Str) :
    Latched prime id target n { s with memory := s.memory.latch id target because } :=
  ⟨fun _ => Function.update_self _ _ _, h.starts⟩

/-- A step about another connection keeps a latch. -/
theorem about_latched {about : Option Str} (hne : id ≠ about) {op : MonitorOp}
    {ans : Except Exc op.Value} (hop : op.IsAbout about) (h : Latched prime id target n s)
    (hstep : worldMachine W op s ans s') : Latched prime id target n s' := by
  rcases hstep with ⟨w, -, hserve⟩
  have hs' : s' = (w.serve op s).2 := (congrArg Prod.snd hserve).symm
  rw [hs']
  -- Only what is about another id is done, so the latch and the starts stay.
  cases op
  case start other t unit =>
      refine ⟨h.primed, ?_⟩
      have hother : (other, t) ≠ (id, target) := by
        intro heq
        exact hne ((congrArg Prod.fst heq).symm.trans hop)
      change (s.starts ++ [(other, t)]).count (id, target) = n
      rw [List.count_append, List.count_singleton, h.starts]
      simp [hother]
  case latch other t because =>
      refine ⟨fun hprime => ?_, h.starts⟩
      have hother : id ≠ other := fun heq => hne (heq.trans hop)
      exact (Function.update_of_ne hother _ _).trans (h.primed hprime)
  case recordAttempt other t count => exact ⟨h.primed, h.starts⟩
  case replaceStates => exact hop.elim
  case forget => exact hop.elim
  all_goals exact h

end Steps

section Turns

variable [Unicode] [Decimals] {W : World → Prop} {s : Watched} {id : Option Str} {target : Target}
  {n : Nat} {prime : Bool}

omit [Unicode] in
/-- A turn of a connection that, if it has this id, points at the target keeps
    a latch and starts nothing for it. -/
theorem maybePrime_latched {c : Connection} (htarget : c.id = id → c.target = target)
    (state : ConnectionState) (h : Latched true id target n s) :
    Always (worldMachine W) (maybePrime c state) (fun _ s' => Latched true id target n s') s := by
  by_cases hid : c.id = id
  · unfold maybePrime
    refine (always_bind _ _ _).mpr ((always_fromExcept _).mpr ?_)
    cases namesOf c with
    | error e => exact h
    | ok names =>
        rw [andThen_ok, hid, htarget hid]
        split
        · rw [always_bind, always_served]
          intro w hw
          change Always _ _ _ s
          rw [always_served]
          exact fun w hw => latch_latched h wasMounted
        · rw [always_bind, always_served]
          intro w hw
          change Always _ _ _ s
          -- the latch answers, so nothing is started
          rw [h.primed rfl]
          dsimp only
          rw [if_pos (Or.inl rfl)]
          exact h
  · exact always_keeps (performs_maybePrime c state)
      (fun op s ans s' hop hs hstep => about_latched (fun heq => hid heq.symm) hop hs hstep) h

/-- Deriving a state changes nothing, and derives it for the connection. -/
theorem always_stateOf {c : Connection} {servers : List (Str × Bool)}
    {Q : Except Exc ConnectionState → Watched → Prop}
    (h : ∀ r, (∀ state, r = .ok state → state.id = c.id) → Q r s) :
    Always (worldMachine W) (stateOf c servers) Q s := by
  have hlooks := footprint_stateOf c servers
  have hsame : Always (worldMachine W) (stateOf c servers) (fun _ s' => s' = s) s :=
    always_frame (footprint_mono hlooks (fun _ hop => hop) fun _ _ => trivial)
      (fun op s ans s' hop hstep => reading_same hop hstep) fun _ => rfl
  refine always_mono (always_footprint hlooks hsame) ?_
  rintro r s' ⟨rfl, hr⟩
  exact h r hr

/-- A turn keeps what priming keeps. -/
theorem always_visit {c : Connection} {servers : List (Str × Bool)} {I : Watched → Prop}
    (h : I s) (hprime : ∀ state, prime = true →
      Always (worldMachine W) (maybePrime c state) (fun _ s' => I s') s) :
    Always (worldMachine W) (visit prime servers c)
      (fun r s' => I s' ∧ ∀ seen, r = .ok seen → seen.1.id = c.id) s := by
  unfold visit
  rw [always_bind]
  refine always_stateOf fun r hid => ?_
  cases r with
  | error e => exact ⟨h, fun seen hseen => nomatch hseen⟩
  -- After the priming only the previous state is asked for, which changes nothing.
  | ok state =>
      have hrest : ∀ s', I s' → Always (worldMachine W)
          (take (.previousState state.id) >>= fun previous =>
            (pure (state, changesOf state previous) : MonitorM (ConnectionState × List Change)))
          (fun r s' => I s' ∧ ∀ seen, r = .ok seen → seen.1.id = c.id) s' := by
        intro s' hs'
        rw [always_bind, always_served]
        refine fun w hw => ⟨hs', fun seen hseen => ?_⟩
        rw [← Except.ok.inj hseen]
        exact hid state rfl
      rw [andThen_ok, always_bind]
      cases prime with
      | false => exact hrest s h
      | true =>
          refine always_mono (hprime state rfl) fun r s' hs' => ?_
          cases r with
          | error e => exact ⟨hs', fun seen hseen => nomatch hseen⟩
          | ok u => exact hrest s' hs'

/-- What priming each of them keeps, the turns of all of them keep. -/
theorem always_visitAll {servers : List (Str × Bool)} {I : Watched → Prop}
    {cs : List Connection} (h : I s)
    (hprime : ∀ c ∈ cs, ∀ s, I s → ∀ state, prime = true →
      Always (worldMachine W) (maybePrime c state) (fun _ s' => I s') s) :
    Always (worldMachine W) (visitAll prime servers cs)
      (fun r s' => I s' ∧ ∀ seen, r = .ok seen →
        seen.1.map ConnectionState.id = cs.map Connection.id) s := by
  induction cs generalizing s with
  | nil =>
      refine ⟨h, fun seen hseen => ?_⟩
      rw [← Except.ok.inj hseen]
      rfl
  | cons c cs ih =>
      unfold visitAll
      rw [always_bind]
      refine always_mono (always_visit h (hprime c List.mem_cons_self s h)) ?_
      rintro r s' ⟨hs', hid⟩
      cases r with
      -- A turn that raises ends the round.
      | error e => exact ⟨hs', fun seen hseen => nomatch hseen⟩
      | ok first =>
          rw [andThen_ok, always_bind]
          refine always_mono (ih hs' fun d hd => hprime d (List.mem_cons_of_mem c hd)) ?_
          rintro r s'' ⟨hs'', hids⟩
          cases r with
          | error e => exact ⟨hs'', fun seen hseen => nomatch hseen⟩
          | ok rest =>
              refine ⟨hs'', fun seen hseen => ?_⟩
              rw [← Except.ok.inj hseen]
              exact congrArg₂ List.cons (hid first rfl) (hids rest rfl)

end Turns

section Ends

variable {W : World → Prop} {s : Watched} {id : Option Str} {target : Target} {n : Nat}
  {prime : Bool}


theorem mem_setById {current : List ConnectionState} {state : ConnectionState} {id : Option Str} :
    id ∈ (setById current state).map ConnectionState.id ↔
      id ∈ current.map ConnectionState.id ∨ id = state.id := by
  unfold setById
  -- A row that is there keeps its place, and a new one goes last.
  by_cases h : (current.any fun other => decide (other.id = state.id)) = true
  · rw [if_pos h, List.map_map]
    have hsame : current.map (ConnectionState.id ∘ fun other =>
        if other.id = state.id then state else other) = current.map ConnectionState.id := by
      refine List.map_congr_left fun other _ => ?_
      dsimp only [Function.comp]
      split
      · rename_i heq
        exact heq.symm
      · rfl
    rcases List.any_eq_true.mp h with ⟨other, hother, heq⟩
    rw [hsame]
    constructor
    · exact Or.inl
    · rintro (hmem | rfl)
      · exact hmem
      · exact List.mem_map.mpr ⟨other, hother, of_decide_eq_true heq⟩
  · rw [if_neg h, List.map_append, List.mem_append, List.map_singleton, List.mem_singleton]

/-- The ids of a dict are those that were set. -/
theorem mem_dictIds {states current : List ConnectionState} {id : Option Str}
    (h : id ∈ states.map ConnectionState.id ∨ id ∈ current.map ConnectionState.id) :
    id ∈ (states.foldl setById current).map ConnectionState.id := by
  induction states generalizing current with
  | nil => exact h.resolve_left List.not_mem_nil
  | cons state states ih =>
      refine ih ?_
      rw [mem_setById]
      rcases h with h | h
      · rcases List.mem_cons.mp h with rfl | h
        · exact Or.inr (Or.inr rfl)
        · exact Or.inl h
      · exact Or.inr (Or.inl h)

theorem mem_sortedIds {ids sorted : List (Option Str)} (h : sortedIds ids = .ok sorted)
    {id : Option Str} (hid : id ∈ sorted) : id ∈ ids := by
  unfold sortedIds at h
  split at h
  · exact Except.ok.inj h ▸ hid
  · exact Except.ok.inj h ▸ hid
  · split at h
    · rw [← Except.ok.inj h, List.mem_map] at hid
      rcases hid with ⟨v, hv, rfl⟩
      rcases List.mem_filterMap.mp ((List.mem_insertionSort _).mp hv) with ⟨a, ha, hav⟩
      rw [show a = some v from hav] at ha
      exact ha
    · exact nomatch h

/-- Telling of changes keeps a latch. -/
theorem emitAll_latched (config : Config) (changes : List Change)
    (h : Latched prime id target n s) :
    Always (worldMachine W) (emitAll config changes)
    (fun _ s' => Latched prime id target n s') s := by
  induction changes with
  | nil => exact h
  | cons change changes ih =>
      unfold emitAll
      rw [always_bind, always_served]
      intro w hw
      change andThen _ _ _ w.push s
      cases w.push with
      | error e => exact h
      | ok u => exact ih

/-- Forgetting other connections keeps a latch. -/
theorem forgetGone_latched {ids : List (Option Str)} (hnot : id ∉ ids)
    (h : Latched prime id target n s) :
    Always (worldMachine W) (forgetGone ids) (fun _ s' => Latched prime id target n s') s := by
  induction ids generalizing s with
  | nil => exact h
  | cons other ids ih =>
      have hother : id ≠ other := fun heq => hnot (heq ▸ List.mem_cons_self)
      have hrest : id ∉ ids := fun hmem => hnot (List.mem_cons_of_mem other hmem)
      have hs' : Latched prime id target n { s with memory := s.memory.forget other } :=
        ⟨fun hprime => (Function.update_of_ne hother _ _).trans (h.primed hprime), h.starts⟩
      unfold forgetGone
      rw [always_bind, always_served]
      intro w hw
      change Always _ _ _ _
      rw [always_bind, always_served]
      intro w' hw'
      change andThen _ _ _ w'.push _
      cases w'.push with
      | error e => exact hs'
      | ok u => exact ih hrest hs'

/-- What a poll ends with keeps a latch of a connection that is there. -/
theorem pollEnd_latched {config : Config} {current : List ConnectionState}
    {changes : List Change} (hid : id ∈ current.map ConnectionState.id)
    (h : Latched prime id target n s) :
    Always (worldMachine W)
      (take (.replaceStates current) >>= fun gone => emitAll config changes >>= fun _ =>
        fromExcept (sortedIds gone) >>= fun ids => forgetGone ids >>= fun _ =>
          (pure current : MonitorM (List ConnectionState)))
      (fun _ s' => Latched prime id target n s') s := by
  rw [always_bind, always_served]
  intro w hw
  change Always _ _ _ { s with memory := { s.memory with states := current } }
  rw [always_bind]
  have hs : Latched prime id target n { s with memory := { s.memory with states := current } } :=
    ⟨h.primed, h.starts⟩
  refine always_mono (emitAll_latched config changes hs) fun r s' hs' => ?_
  cases r with
  | error e => exact hs'
  | ok u =>
      rw [andThen_ok, always_bind, always_fromExcept]
      cases hsorted : sortedIds (s.memory.goneFrom current) with
      | error e => exact hs'
      | ok ids =>
          -- An id among the states just replaced is not one of the gone ones.
          have hnot : id ∉ ids := by
            intro hmem
            have hgone := mem_sortedIds hsorted hmem
            unfold Memory.goneFrom at hgone
            exact of_decide_eq_true (List.mem_filter.mp hgone).2 hid
          rw [andThen_ok, always_bind]
          refine always_mono (forgetGone_latched hnot hs') fun r s'' hs'' => ?_
          cases r with
          | error e => exact hs''
          | ok u => exact hs''

end Ends

section Polls

variable [Unicode] [Decimals] {W : World → Prop} {s : Watched} {id : Option Str} {target : Target}
  {n : Nat} {prime : Bool}

/-- A poll that does not free a latch keeps it, and starts nothing for it. -/
theorem poll_latched (hfree : ¬Frees id target (.poll W)) (hone : OneTarget id (.poll W))
    (h : Latched prime id target n s) :
    Always (worldMachine W) (poll prime) (fun _ s' => Latched prime id target n s') s := by
  unfold poll
  rw [always_bind, always_served]
  intro w hw
  change andThen _ _ _ w.config s
  cases hconfig : w.config with
  | error e => exact h
  | ok config =>
      -- A config that leaves the target out would free it.
      have hpoints : config.PointsAt id target := by
        by_contra hnone
        exact hfree ⟨w, config, hw, hconfig, hnone⟩
      have htarget : ∀ c ∈ config.connections, c.id = id → c.target = target :=
        fun c hc hid => (hone w config hw hconfig).unique ⟨c, hc, hid, rfl⟩ hpoints
      rcases hpoints with ⟨d, hd, rfl, -⟩
      rw [andThen_ok, always_bind, always_served]
      intro w' hw'
      change Always _ _ _ s
      rw [always_bind]
      refine always_mono (always_visitAll h fun c hc s hs state hprime => ?_) ?_
      · rw [hprime] at hs ⊢
        exact maybePrime_latched (htarget c hc) state hs
      · rintro r s' ⟨hs', hids⟩
        cases r with
        | error e => exact hs'
        | ok seen =>
            refine pollEnd_latched (mem_dictIds (Or.inl ?_)) hs'
            rw [hids seen rfl]
            exact List.mem_map_of_mem hd

/-! ### The poll that finds the share mounted -/

/-- All through the poll the connection is in the config, and its own share is
    mounted at its mountpoint. -/
def FindsMounted (W : World → Prop) (c : Connection) : Prop :=
  ∀ w, W w → ∃ config mountpoint row, w.config = .ok config ∧ c ∈ config.connections ∧
    c.mountpoint = some mountpoint ∧ occupantIn w.table mountpoint = some row ∧
    row.fstype = str "cifs" ∧ lower row.source = lower (mountSource c)

/-- A turn of the connection raises nothing: its units have names, and if it is
    mounted and there are servers to ask about, it has one. -/
structure Tellable (W : World → Prop) (c : Connection) : Prop where
  names : ∃ names, namesOf c = .ok names
  answering : ∀ w w', W w → W w' → ∀ mountpoint, c.mountpoint = some mountpoint →
    ∃ answering, mountedAnswering c.host w.servers ((isMountedIn w'.table mountpoint).getD false)
      = .ok answering

/-- A poll that finds the connection mounted comes to it, may connect it by
    itself, and is not told that its server does not answer. -/
structure ShowsConnected (W : World → Prop) (c : Connection) : Prop where
  reached : ∀ w config, W w → w.config = .ok config →
    ∃ before after, config.connections = before ++ c :: after ∧ ∀ d ∈ before, Tellable W d
  names : ∃ names, namesOf c = .ok names
  automatic : c.autoConnect ≠ some (str "never")
  answering : ∀ w, W w → ∃ answering, serverIsAnswering c.host w.servers = .ok answering ∧
    answering ≠ some false

/-- However its steps are answered, the program raises nothing. -/
def Returns {α : Type} (W : World → Prop) (p : MonitorM α) : Prop :=
  ∀ s, Always (worldMachine W) p (fun r _ => ∃ a, r = .ok a) s

section Returns

variable {α β : Type} {p otherwise : MonitorM α}

omit [Unicode] [Decimals] in
theorem returns_pure (a : α) : Returns W (pure a : MonitorM α) :=
  fun _ => ⟨a, rfl⟩

omit [Unicode] [Decimals] in
theorem returns_bind {f : α → MonitorM β} (hp : Returns W p) (hf : ∀ a, Returns W (f a)) :
    Returns W (p >>= f) := by
  intro s
  rw [always_bind]
  refine always_mono (hp s) ?_
  rintro r s' ⟨a, rfl⟩
  exact hf a s'

omit [Unicode] [Decimals] in
theorem returns_take {op : MonitorOp} (h : ∀ (w : World) s, ∃ v, (w.serve op s).1 = .ok v) :
    Returns W (take op) :=
  fun s => (always_served _ _).mpr fun w _ => h w s

omit [Unicode] [Decimals] in
/-- What only systemd and the journal can raise is caught. -/
theorem returns_takeOr {op : MonitorOp} {f : op.Value → MonitorM α}
    (hop : ∀ (w : World) s (e : Exc), (w.serve op s).1 = .error e → e.isSmbpal = true)
    (hf : ∀ v, Returns W (f v)) (ho : Returns W otherwise) :
    Returns W (takeOr (take op >>= f) otherwise) := by
  intro s
  refine always_takeOr ?_
  rw [always_bind, always_served]
  intro w hw
  cases hserve : (w.serve op s).1 with
  | error e =>
      change ite _ _ _
      rw [if_pos (hop w s e hserve)]
      exact ho _
  | ok v =>
      refine always_mono (hf v _) ?_
      rintro r s' ⟨a, rfl⟩
      exact ⟨a, rfl⟩

omit [Unicode] [Decimals] in
/-- A program that only looks and raises nothing ends where it began. -/
theorem always_looks {Q : Except Exc α → Watched → Prop}
    (hp : Performs (S := monitorSig) MonitorOp.IsReading p) (hr : Returns W p)
    (h : ∀ a, Q (.ok a) s) : Always (worldMachine W) p Q s := by
  rw [always_iff]
  intro r s' hx
  have hs : s' = s :=
    exec_frame id hp (fun op s ans s' hop hstep => reading_same hop hstep) hx
  rcases always_exec (hr s) hx with ⟨a, rfl⟩
  rw [hs]
  exact h a

end Returns

omit [Unicode] [Decimals] in
theorem isSmbpal_of_mapError {α : Type} {r : Except SmbpalError α} {e : Exc}
    (h : r.mapError Exc.smbpal = .error e) : e.isSmbpal = true := by
  cases r with
  | ok a => exact nomatch h
  | error f =>
      rw [← Except.error.inj h]
      rfl

omit [Unicode] in
theorem returns_journalCause (unit : Str) : Returns W (journalCause unit) :=
  returns_takeOr (fun _ _ _ h => isSmbpal_of_mapError h) (fun _ => returns_pure _) (returns_pure _)

omit [Unicode] [Decimals] in
theorem returns_showUnit (unit : Str) : Returns W (showUnit unit) :=
  returns_takeOr (fun _ _ _ h => isSmbpal_of_mapError h) (fun _ => returns_pure _) (returns_pure _)

omit [Unicode] in
theorem returns_failureCause (unit : Str) (failed : Bool) :
    Returns W (failureCause unit failed) := by
  cases failed with
  | true => exact returns_journalCause unit
  | false => exact returns_pure _

omit [Unicode] [Decimals] in
theorem returns_mountedReadOnly (mountpoint : Str) (mounted : Bool) :
    Returns W (mountedReadOnly mountpoint mounted) := by
  cases mounted with
  | true => exact returns_bind (returns_take fun _ _ => ⟨_, rfl⟩) fun _ => returns_pure _
  | false => exact returns_pure _

omit [Unicode] [Decimals] in
theorem returns_queueStart (c : Connection) (unit : Str) (queued : Nat) :
    Returns W (queueStart c unit queued) := by
  refine returns_bind (returns_takeOr (fun _ _ _ h => isSmbpal_of_mapError h)
    (fun _ => returns_pure _) (returns_pure _)) fun accepted => ?_
  cases accepted with
  | true => exact returns_take fun _ _ => ⟨_, rfl⟩
  | false => exact returns_pure _

omit [Unicode] in
theorem returns_primeIdle (c : Connection) (unit : Str) : Returns W (primeIdle c unit) := by
  refine returns_bind (returns_take fun _ _ => ⟨_, rfl⟩) fun attempt => ?_
  dsimp only
  split
  · exact returns_queueStart c unit _
  · refine returns_bind (returns_journalCause unit) fun cause => ?_
    split
    · exact returns_take fun _ _ => ⟨_, rfl⟩
    · split
      · exact returns_take fun _ _ => ⟨_, rfl⟩
      · exact returns_queueStart c unit _

omit [Unicode] [Decimals] in
theorem returns_mayPrime (c : Connection) : Returns W (mayPrime c) := by
  unfold mayPrime
  dsimp only
  split
  · exact returns_pure _
  · split
    · exact returns_take fun _ _ => ⟨_, rfl⟩
    · exact returns_pure _

omit [Unicode] in
/-- Priming a connection whose units have names raises nothing. -/
theorem returns_maybePrime {c : Connection} (hnames : ∃ names, namesOf c = .ok names)
    (state : ConnectionState) : Returns W (maybePrime c state) := by
  rcases hnames with ⟨names, hnames⟩
  unfold maybePrime
  rw [hnames]
  refine returns_bind (returns_pure names) fun names => ?_
  split
  · refine returns_bind (returns_take fun _ _ => ⟨_, rfl⟩) fun _ => ?_
    exact returns_take fun _ _ => ⟨_, rfl⟩
  · refine returns_bind (returns_take fun _ _ => ⟨_, rfl⟩) fun primed => ?_
    split
    · exact returns_pure _
    · refine returns_bind (returns_mayPrime c) fun may => ?_
      cases may with
      | true => exact returns_primeIdle c names.1
      | false => exact returns_pure _

/-- The state a turn derives, from what it was answered. -/
theorem stateOf_derives {c : Connection} {servers : List (Str × Bool)} {mountpoint : Str}
    (hnames : ∃ names, namesOf c = .ok names) (hmountpoint : c.mountpoint = some mountpoint)
    (hanswering : ∀ w, W w → ∃ answering, mountedAnswering c.host servers
      ((isMountedIn w.table mountpoint).getD false) = .ok answering) :
    Always (worldMachine W) (stateOf c servers)
      (fun r s' => s' = s ∧ ∃ w w', W w ∧ W w' ∧ ∃ unit cause armed readOnly answering,
        mountedAnswering c.host servers ((isMountedIn w'.table mountpoint).getD false)
          = .ok answering ∧
        r = .ok (derive c (isMountedIn w'.table mountpoint) unit cause armed readOnly
          ((intruderIn w.table c mountpoint).map describeIntruder) answering)) s := by
  rcases hnames with ⟨names, hnames⟩
  have hpoint : mountpointOf c = .ok mountpoint := by
    unfold mountpointOf
    rw [hmountpoint]
  unfold stateOf
  rw [hnames, hpoint, always_bind, always_fromExcept, andThen_ok, always_bind, always_fromExcept,
    andThen_ok, always_bind, always_served]
  -- What is read of the table is another's each time, so each is named.
  intro w hw
  change Always _ _ _ s
  rw [always_bind, always_served]
  intro w' hw'
  change Always _ _ _ s
  rw [always_bind, always_served]
  intro w'' hw''
  change Always _ _ _ s
  rw [always_bind]
  refine always_looks (performs_showUnit _ trivial) (returns_showUnit _) fun unit => ?_
  rw [andThen_ok, always_bind]
  refine always_looks (performs_failureCause _ _ trivial) (returns_failureCause _ _) fun cause => ?_
  rw [andThen_ok, always_bind]
  refine always_looks (performs_mountedReadOnly _ _ trivial) (returns_mountedReadOnly _ _)
    fun readOnly => ?_
  rcases hanswering w' hw' with ⟨answering, hanswering⟩
  rw [andThen_ok, always_bind, always_fromExcept]
  rw [hanswering]
  exact ⟨rfl, w, w', hw, hw', unit, cause, _, readOnly, answering, hanswering, rfl⟩

omit [Decimals] in
/-- What is mounted at the mountpoint is the connection's own. -/
theorem not_intruder {c : Connection} {table : MountTable} {mountpoint : Str} {row : MountRow}
    (hrow : occupantIn table mountpoint = some row) (hcifs : row.fstype = str "cifs")
    (hsource : lower row.source = lower (mountSource c)) :
    intruderIn table c mountpoint = none := by
  unfold intruderIn
  rw [hrow]
  change foreignMount (some row.entry) c = none
  unfold foreignMount
  dsimp only
  have hown : row.entry.fstype = str "cifs" := hcifs
  rw [if_neg (not_not.mpr hown)]
  exact if_pos hsource

omit [Unicode] [Decimals] in
theorem isMountedIn_of_occupantIn {table : MountTable} {mountpoint : Str} {row : MountRow}
    (h : occupantIn table mountpoint = some row) : isMountedIn table mountpoint = some true := by
  unfold occupantIn at h
  unfold isMountedIn
  cases table with
  | none => exact nomatch h
  | some rows =>
      have hfind : rows.find? (fun row => row.isAt mountpoint false) = some row := h
      have hat : row.isAt mountpoint false = true :=
        List.find?_some (p := fun row : MountRow => row.isAt mountpoint false) hfind
      exact congrArg some (List.any_eq_true.mpr ⟨row, List.mem_of_find?_eq_some hfind, hat⟩)

/-- A turn that finds the connection's share mounted derives that it is
    connected. -/
theorem stateOf_connected {w : World} {c : Connection} (hw : W w) (hfound : FindsMounted W c)
    (hshown : ShowsConnected W c) :
    Always (worldMachine W) (stateOf c w.servers)
      (fun r _ => ∃ state, r = .ok state ∧ state.state = .connected) s := by
  rcases hfound w hw with ⟨_, mountpoint, _, _, _, hmountpoint, _⟩
  -- Whichever world the table is read in, the share is there.
  have htable : ∀ w, W w → intruderIn w.table c mountpoint = none ∧
      isMountedIn w.table mountpoint = some true := by
    intro w hw
    rcases hfound w hw with ⟨_, mountpoint', row, _, _, hmountpoint', hrow, hcifs, hsource⟩
    obtain rfl : mountpoint' = mountpoint :=
      Option.some.inj (hmountpoint'.symm.trans hmountpoint)
    exact ⟨not_intruder hrow hcifs hsource, isMountedIn_of_occupantIn hrow⟩
  rcases hshown.answering w hw with ⟨answering, hanswering, hanswers⟩
  have hall : ∀ w', W w' → mountedAnswering c.host w.servers
      ((isMountedIn w'.table mountpoint).getD false) = .ok answering := by
    intro w' hw'
    rw [(htable w' hw').2]
    exact hanswering
  refine always_mono (stateOf_derives hshown.names hmountpoint fun w' hw' =>
    ⟨answering, hall w' hw'⟩) ?_
  rintro r s' ⟨rfl, w₁, w₂, hw₁, hw₂, unit, cause, armed, readOnly, answering', hanswering', rfl⟩
  refine ⟨_, rfl, ?_⟩
  rw [hall w₂ hw₂] at hanswering'
  rw [(htable w₁ hw₁).1, (htable w₂ hw₂).2, ← Except.ok.inj hanswering']
  exact derive_connected hshown.automatic hanswers _ _ _ _

omit [Unicode] in
/-- Priming latches what is connected. -/
theorem maybePrime_latches {c : Connection} (hnames : ∃ names, namesOf c = .ok names)
    {state : ConnectionState} (hstate : state.state = .connected) :
    Always (worldMachine W) (maybePrime c state)
      (fun r s' => r = .ok () ∧ s'.memory.primed c.id = some c.target) s := by
  rcases hnames with ⟨names, hnames⟩
  unfold maybePrime
  rw [hnames, always_bind, always_fromExcept, andThen_ok, if_pos hstate, always_bind,
    always_served]
  intro w hw
  change Always _ _ _ s
  rw [always_served]
  exact fun w hw => ⟨rfl, Function.update_self _ _ _⟩

/-- The turn of a connection that is found connected latches it. -/
theorem visit_latches {w : World} {c : Connection} (hw : W w) (hfound : FindsMounted W c)
    (hshown : ShowsConnected W c) :
    Always (worldMachine W) (visit true w.servers c)
      (fun _ s' => s'.memory.primed c.id = some c.target) s := by
  unfold visit
  rw [always_bind]
  refine always_mono (stateOf_connected hw hfound hshown) ?_
  rintro r s' ⟨state, rfl, hstate⟩
  rw [andThen_ok, always_bind]
  refine always_mono (maybePrime_latches hshown.names hstate) ?_
  rintro r s'' ⟨rfl, hprimed⟩
  rw [andThen_ok, always_bind, always_served]
  exact fun w' hw' => hprimed

/-- A connection that can be told about does not end the poll. -/
theorem returns_visit {w : World} {c : Connection} (hw : W w) (h : Tellable W c) (prime : Bool) :
    Returns W (visit prime w.servers c) := by
  have hmountpoint := h.names
  rcases hmountpoint with ⟨names, hnames⟩
  rcases mountpointOf_of_namesOf hnames with ⟨mountpoint, hmountpoint, -⟩
  refine returns_bind (fun s => ?_) fun state => returns_bind ?_ fun _ =>
    returns_bind (returns_take fun _ _ => ⟨_, rfl⟩) fun _ => returns_pure _
  · refine always_mono (stateOf_derives h.names hmountpoint fun w' hw' =>
      h.answering w w' hw hw' mountpoint hmountpoint) ?_
    rintro r s' ⟨-, w₁, w₂, -, -, unit, cause, armed, readOnly, answering, -, rfl⟩
    exact ⟨_, rfl⟩
  · cases prime with
    | true => exact returns_maybePrime h.names state
    | false => exact returns_pure _

/-- The turns up to a connection that is found connected latch it, and those
    after it keep the latch. -/
theorem visitAll_latches {w : World} {c : Connection} {before after : List Connection} (hw : W w)
    (hfound : FindsMounted W c) (hshown : ShowsConnected W c)
    (htellable : ∀ d ∈ before, Tellable W d)
    (hafter : ∀ d ∈ after, d.id = c.id → d.target = c.target) :
    Always (worldMachine W) (visitAll true w.servers (before ++ c :: after))
      (fun _ s' => s'.memory.primed c.id = some c.target) s := by
  induction before generalizing s with
  | nil =>
      -- The connection itself latches, and no later one of its id frees it.
      change Always _ (visitAll true w.servers (c :: after)) _ s
      unfold visitAll
      rw [always_bind]
      refine always_mono (visit_latches hw hfound hshown) fun r s' hs' => ?_
      cases r with
      | error e => exact hs'
      | ok first =>
          rw [andThen_ok, always_bind]
          refine always_mono (always_visitAll (I := fun s => s.memory.primed c.id = some c.target)
            hs' fun d hd s hs state _ => ?_) ?_
          · have hlatched : Latched true c.id c.target (s.starts.count (c.id, c.target)) s :=
              ⟨fun _ => hs, rfl⟩
            exact always_mono (maybePrime_latched (hafter d hd) state hlatched)
              fun r s' hs' => hs'.primed rfl
          · rintro r s'' ⟨hs'', -⟩
            cases r with
            | error e => exact hs''
            | ok rest => exact hs''
  -- Whatever comes before it can be told of, so the poll comes to it.
  | cons d before ih =>
      change Always _ (visitAll true w.servers (d :: (before ++ c :: after))) _ s
      unfold visitAll
      rw [always_bind]
      refine always_mono (returns_visit hw (htellable d List.mem_cons_self) true s) ?_
      rintro r s' ⟨first, rfl⟩
      rw [andThen_ok, always_bind]
      refine always_mono (ih fun d hd => htellable d (List.mem_cons_of_mem _ hd))
        fun r s'' hs'' => ?_
      cases r with
      | error e => exact hs''
      | ok rest => exact hs''

/-- A poll of a monitor that primes, which finds the connection connected,
    latches it. -/
theorem poll_latches {c : Connection} (hfound : FindsMounted W c) (hshown : ShowsConnected W c)
    (hone : OneTarget c.id (.poll W)) :
    Always (worldMachine W) (poll true) (fun _ s' => s'.memory.primed c.id = some c.target) s := by
  unfold poll
  rw [always_bind, always_served]
  intro w hw
  change andThen _ _ _ w.config s
  rcases hfound w hw with ⟨config, _, _, hconfig, hthere, -⟩
  rw [hconfig, andThen_ok, always_bind, always_served]
  intro w' hw'
  change Always _ _ _ s
  have htarget : ∀ d ∈ config.connections, d.id = c.id → d.target = c.target :=
    fun d hd hid => hone w config hw hconfig d hd c hthere hid rfl
  rcases hshown.reached w config hw hconfig with ⟨before, after, hsplit, htellable⟩
  have hafter : ∀ d ∈ after, d.id = c.id → d.target = c.target := by
    intro d hd
    refine htarget d ?_
    rw [hsplit]
    exact List.mem_append_right _ (List.mem_cons_of_mem c hd)
  rw [always_bind, hsplit]
  have hthere : c.id ∈ (before ++ c :: after).map Connection.id :=
    List.mem_map_of_mem (List.mem_append_right _ List.mem_cons_self)
  -- The poll has a state for the connection, which is therefore not a gone one.
  have hids : Always (worldMachine W) (visitAll true w'.servers (before ++ c :: after))
      (fun r s' => True ∧ ∀ seen, r = .ok seen →
        seen.1.map ConnectionState.id = (before ++ c :: after).map Connection.id) s :=
    always_visitAll (I := fun _ => True) trivial fun d _ s _ state _ =>
      (always_iff _).mpr fun _ _ _ => trivial
  refine always_mono (always_and (visitAll_latches hw' hfound hshown htellable hafter) hids) ?_
  rintro r s' ⟨hprimed, -, hids⟩
  cases r with
  | error e => exact hprimed
  | ok seen =>
      have hlatched : Latched true c.id c.target (s'.starts.count (c.id, c.target)) s' :=
        ⟨fun _ => hprimed, rfl⟩
      refine always_mono (pollEnd_latched (mem_dictIds (Or.inl ?_)) hlatched) fun r s'' hs'' =>
        hs''.primed rfl
      rw [hids seen rfl]
      exact hthere

/-- What an event does. A poll may end with an exception, and what it did until
    then is done. -/
def MonitorStep (prime : Bool) (s : Watched) : MonitorEvent → Watched → Prop
  | .poll W, s' => ∃ r, Exec (worldMachine W) (poll prime) s r s'
  | .forget id, s' => s' = { s with memory := s.memory.forget id }

/-- An event that does not free a latch keeps it, and starts nothing for it. -/
theorem step_latched {s' : Watched} {e : MonitorEvent} (hfree : ¬Frees id target e)
    (hone : OneTarget id e) (h : Latched prime id target n s) (hstep : MonitorStep prime s e s') :
    Latched prime id target n s' := by
  cases e with
  | poll W =>
      rcases hstep with ⟨r, hx⟩
      exact always_exec (poll_latched hfree hone h) hx
  | forget about =>
      have hother : id ≠ about := fun heq => hfree heq.symm
      rw [show s' = _ from hstep]
      exact ⟨fun hprime => (Function.update_of_ne hother _ _).trans (h.primed hprime), h.starts⟩

/-- After a poll that finds the connection's own share mounted and derives that
    it is connected, nothing is started for the connection over any events that
    do not free the latch, whatever the worlds of the polls among them, as long
    as no other connection of its id points at something else. -/
theorem eject_respected (prime : Bool) (c : Connection) (W : World → Prop) (s s₁ s₂ : Watched)
    (r : Except Exc (List ConnectionState)) (hpoll : Exec (worldMachine W) (poll prime) s r s₁)
    (hfound : FindsMounted W c) (hshown : ShowsConnected W c) (hone : OneTarget c.id (.poll W))
    (hrun : GuardedRun (MonitorStep prime)
      (fun _ e => ¬Frees c.id c.target e ∧ OneTarget c.id e) s₁ s₂) :
    s₂.starts.count (c.id, c.target) = s₁.starts.count (c.id, c.target) := by
  have hlatched : Latched prime c.id c.target (s₁.starts.count (c.id, c.target)) s₁ := by
    refine ⟨fun hprime => ?_, rfl⟩
    rw [hprime] at hpoll
    exact always_exec (poll_latches hfound hshown hone) hpoll
  have hend := hrun.invariant (Latched prime c.id c.target (s₁.starts.count (c.id, c.target)))
    hlatched fun s e s' hs he hstep => step_latched he.1 he.2 hs hstep
  exact hend.starts

end Polls

/-! ### A start after an eject -/

section Silent

attribute [local instance] Unicode.ascii Decimals.ascii

set_option maxRecDepth 10000

/-- A share on a server called nas. -/
def nasMusic : Connection :=
  { id := some (str "music")
    host := some (str "nas")
    share := some (str "Music")
    mountpoint := some (str "/mnt/music")
    credentialRef := none
    autoConnect := some (str "always")
    owner := none
    fallbackHost := none
    credentialAccount := none
    keychainCredential := none
    disconnected := none }

/-- A unit that has not been started. -/
def idleUnit : UnitShow :=
  { activeState := str "inactive"
    result := str "success"
    execMainStatus := str "0" }

/-- A machine that knows the share, with this mount table, and these servers
    that answer or do not. -/
def nasWorld (rows : List MountRow) (servers : List (Str × Bool)) : World :=
  { config := .ok { version := 1, shares := [], connections := [nasMusic] }
    servers := servers
    table := some rows
    unitShow := fun _ => .ok idleUnit
    journal := fun _ => .ok []
    reachable := fun _ => true
    start := fun _ => .ok ()
    push := .ok () }

/-- The automount, waiting for an access. -/
def nasTrigger : MountRow :=
  { mountpoint := str "/mnt/music", fstype := str "autofs", source := str "systemd-1"
    options := str "rw" }

/-- The share, mounted. -/
def nasMount : MountRow :=
  { mountpoint := str "/mnt/music", fstype := str "cifs", source := str "//nas/Music"
    options := str "rw" }

/-- The share is mounted, and its server answers or does not. -/
def nasMounted (answers : Bool) : World :=
  nasWorld [nasTrigger, nasMount] [(str "nas", answers)]

/-- The share was ejected, and can be mounted by an access. -/
def nasEjected : World :=
  nasWorld [nasTrigger] []

/-- A monitor that has just been started. -/
def Watched.fresh : Watched :=
  { memory := Memory.empty, starts := [] }

/-- What a poll of a world that stands still leaves. -/
def Watched.polled (s : Watched) (w : World) : Watched :=
  ((poll true).run w.serve s).2

theorem exec_polled (s : Watched) (w : World) :
    ∃ r, Exec (worldMachine (fun w' => w' = w)) (poll true) s r (s.polled w) :=
  ⟨_, exec_run (fun _ _ => ⟨w, rfl, rfl⟩) _ s⟩

theorem nasMounted_found (answers : Bool) :
    FindsMounted (fun w => w = nasMounted answers) nasMusic := by
  rintro w rfl
  refine ⟨_, str "/mnt/music", nasMount, rfl, List.mem_singleton_self _, rfl, ?_, rfl, ?_⟩
  · cases answers with
    | true => decide +kernel
    | false => decide +kernel
  · decide +kernel

theorem nasWorld_keeps (rows : List MountRow) (servers : List (Str × Bool)) :
    ¬Frees nasMusic.id nasMusic.target (.poll fun w => w = nasWorld rows servers) := by
  rintro ⟨w, config, rfl, hconfig, hgone⟩
  rw [← Except.ok.inj hconfig] at hgone
  exact hgone ⟨nasMusic, List.mem_singleton_self _, rfl, rfl⟩

theorem nasWorld_oneTarget (id : Option Str) (rows : List MountRow) (servers : List (Str × Bool)) :
    OneTarget id (.poll fun w => w = nasWorld rows servers) := by
  rintro w config rfl hconfig c hc d hd - -
  rw [← Except.ok.inj hconfig] at hc hd
  rw [List.mem_singleton.mp hc, List.mem_singleton.mp hd]

/-- The server answers while the share is mounted, and after an eject nothing is
    started. -/
theorem eject_respected_answering :
    ((Watched.fresh.polled (nasMounted true)).polled nasEjected).starts.count
        (nasMusic.id, nasMusic.target)
      = (Watched.fresh.polled (nasMounted true)).starts.count (nasMusic.id, nasMusic.target) := by
  rcases exec_polled Watched.fresh (nasMounted true) with ⟨r, hx⟩
  refine eject_respected true nasMusic _ _ _ _ r hx (nasMounted_found true) ?_
    (nasWorld_oneTarget _ _ _) ?_
  · refine ⟨?_, ⟨_, rfl⟩, by decide, ?_⟩
    · rintro w config rfl hconfig
      refine ⟨[], [], (congrArg Config.connections (Except.ok.inj hconfig)).symm, ?_⟩
      exact fun d hd => absurd hd List.not_mem_nil
    · rintro w rfl
      exact ⟨some true, by decide +kernel, by decide⟩
  · exact GuardedRun.next (.poll fun w => w = nasEjected) GuardedRun.start
      ⟨nasWorld_keeps _ _, nasWorld_oneTarget _ _ _⟩ (exec_polled _ nasEjected)

/-- The server does not answer while the share is mounted, and after an eject
    the share is mounted again. -/
theorem starts_after_eject :
    FindsMounted (fun w => w = nasMounted false) nasMusic ∧
      ¬Frees nasMusic.id nasMusic.target (.poll fun w => w = nasEjected) ∧
      (∃ r, Exec (worldMachine fun w => w = nasMounted false) (poll true) Watched.fresh r
        (Watched.fresh.polled (nasMounted false))) ∧
      MonitorStep true (Watched.fresh.polled (nasMounted false)) (.poll fun w => w = nasEjected)
        ((Watched.fresh.polled (nasMounted false)).polled nasEjected) ∧
      (Watched.fresh.polled (nasMounted false)).starts.count (nasMusic.id, nasMusic.target) = 0 ∧
      ((Watched.fresh.polled (nasMounted false)).polled nasEjected).starts.count
        (nasMusic.id, nasMusic.target) = 1 :=
  ⟨nasMounted_found false, nasWorld_keeps _ _, exec_polled _ _, exec_polled _ _,
    by decide +kernel, by decide +kernel⟩

/-- Two shares without an id. -/
def bareConfig : Config :=
  { version := 1
    shares := []
    connections := [{ nasMusic with id := none },
      { nasMusic with
        id := none
        share := some (str "Films")
        mountpoint := some (str "/mnt/films") }] }

/-- A machine that knows them, and their server answers. -/
def bareShares (rows : List MountRow) : World :=
  { nasWorld rows [(str "nas", true)] with config := .ok bareConfig }

/-- The second of them, mounted. -/
def filmsMount : MountRow :=
  { mountpoint := str "/mnt/films", fstype := str "cifs", source := str "//nas/Films"
    options := str "rw" }

-- Both are found connected, and the latch is that of the second: the first is
-- ejected, and started by the next poll.
example :
    let seen := Watched.fresh.polled (bareShares [nasTrigger, nasMount, filmsMount])
    let ejected := seen.polled (bareShares [nasTrigger, filmsMount])
    (seen.starts, ejected.starts) = ([], [(none, nasMusic.target)]) := by
  decide +kernel

end Silent

end Smbpal
