import Smbpal.State.Priming

/-!
# Priming Is Bounded

The starts of a connection for a target are counted between two events that end
the counting: the connection was forgotten, a config was read in which it points
somewhere else or is not there at all, or a poll found it connected. There are at
most `primeAttempts` of them, and none after the journal has said that the mount
is not to be tried again.

The memory counts anew at other events, when a connection of the id is started
or latched for another target. What a poll starts and latches is in the config
it has read (`poll_sourced`). So where the connections of an id all point at the
same thing (`Config.OneTarget`), the memory counts anew for another target only
after a config was read that ends the counting.

Connections without an id share one place in the memory. Where two of them point
at different things, each start of the one takes the count of the other away, and
both are started by every poll: `starts_without_end`.

## Main definitions

* `PrimingEvent.ends`: What ends a count.
* `lastRead`: The config that was read last.
* `Sourced`: What happened is about what the config read last points at.

## Theorems

* `poll_sourced`: A poll starts and latches what the config it has read points at.
* `priming_bounded`: Between two events that end a count there are at most
  `primeAttempts` starts, and none after the journal said not to try again.
* `starts_without_end`: More of them, of connections without an id.
-/

namespace Smbpal

open Lib Program

namespace PrimingEvent

/-- From here the starts of a connection for a target are counted anew: the
    connection is forgotten, it has left the config or points at something else
    there, or it is found connected. -/
def ends (id : Option Str) (target : Target) : PrimingEvent → Bool
  | .read config => !decide (config.PointsAt id target)
  | .queued _ _ => false
  | .refused _ _ => false
  | .latched other target' because =>
      decide (other = id ∧ target' = target ∧ because = wasMounted)
  | .forgotten other => decide (other = id)

/-- The config that is read. -/
def config? : PrimingEvent → Option Config
  | .read config => some config
  | _ => none

theorem eq_read_of_config? {e : PrimingEvent} {config : Config} (h : e.config? = some config) :
    e = .read config := by
  cases e with
  | read config' => exact congrArg PrimingEvent.read (Option.some.inj h)
  | _ => exact nomatch h

/-- The memory counts anew where the count ends, or for another target. -/
theorem other_of_resets {id : Option Str} {target : Target} {e : PrimingEvent}
    (hresets : e.resets id target = true) (hends : e.ends id target = false) :
    ∃ target', e.about = some (id, target') ∧ target' ≠ target := by
  cases e with
  | read config => exact nomatch hresets
  | queued other target' =>
      rcases of_decide_eq_true hresets with ⟨rfl, hne⟩
      exact ⟨target', rfl, hne⟩
  | refused other target' => exact nomatch hresets
  | latched other target' because =>
      rcases of_decide_eq_true hresets with ⟨rfl, hne | hmounted⟩
      · exact ⟨target', rfl, hne⟩
      · exact ⟨target', rfl, fun heq => of_decide_eq_false hends ⟨rfl, heq, hmounted⟩⟩
  | forgotten other => exact absurd hresets (Bool.eq_false_iff.mp hends)

end PrimingEvent

/-- The config that was read last. -/
def lastRead (happened : List PrimingEvent) : Option Config :=
  happened.findSome? PrimingEvent.config?

/-- The config that was read last has the connection, and it points there. -/
def PointedAt (happened : List PrimingEvent) (id : Option Str) (target : Target) : Prop :=
  ∃ config, lastRead happened = some config ∧ config.PointsAt id target

/-- Whatever happened to a connection for a target, it pointed there in the
    config that had been read last. -/
def Sourced (happened : List PrimingEvent) : Prop :=
  ∀ newer e older id target, happened = newer ++ e :: older → e.about = some (id, target) →
    PointedAt older id target

/-! ### What was read -/

section Events

variable {happened older : List PrimingEvent} {e : PrimingEvent} {id : Option Str}
  {target target' : Target} {config : Config}

theorem lastRead_cons (h : e.config? = none) : lastRead (e :: happened) = lastRead happened := by
  unfold lastRead
  rw [List.findSome?_cons, h]

/-- The config that was read last was read. -/
theorem read_mem (h : lastRead happened = some config) : .read config ∈ happened := by
  rcases List.exists_of_findSome?_eq_some h with ⟨e, he, hconfig⟩
  rw [← PrimingEvent.eq_read_of_config? hconfig]
  exact he

theorem sourced_nil : Sourced [] :=
  fun _ _ _ _ _ hsplit _ =>
    absurd hsplit.symm (List.append_ne_nil_of_right_ne_nil _ (List.cons_ne_nil _ _))

theorem sourced_cons (h : Sourced happened)
    (hnew : ∀ id target, e.about = some (id, target) → PointedAt happened id target) :
    Sourced (e :: happened) := by
  intro newer e' older id target hsplit habout
  cases newer with
  | nil =>
      injection hsplit with he hrest
      rw [← hrest]
      exact hnew id target (he ▸ habout)
  | cons x newer =>
      injection hsplit with _ hrest
      exact h newer e' older id target hrest habout

/-- Where nothing ends the count of a connection's starts for a target, and one
    for another target is among what happened, nothing before it is about the
    target: the config that had been read was the same, and pointed at the other. -/
theorem none_before {before : List PrimingEvent} (hsourced : Sourced (e :: (before ++ older)))
    (hone : ∀ config, .read config ∈ before ++ older → config.OneTarget id)
    (hgoing : ∀ e ∈ before, e.ends id target = false) (habout : e.about = some (id, target'))
    (hne : target' ≠ target) : ∀ e' ∈ e :: before, e'.about ≠ some (id, target) := by
  rcases hsourced [] e (before ++ older) id target' rfl habout with ⟨config, hlast, hpoints⟩
  have hnot : ¬config.PointsAt id target :=
    fun hthere => hne ((hone config (read_mem hlast)).unique hpoints hthere)
  have hsplit : lastRead (before ++ older) = (lastRead before).or (lastRead older) :=
    List.findSome?_append
  have hnone : lastRead before = none := by
    cases hbefore : lastRead before with
    | none => rfl
    | some config' =>
        -- the last config would have been read since the count began, and end it
        rw [hsplit, hbefore] at hlast
        have hread := read_mem hbefore
        rw [show config' = config from Option.some.inj hlast] at hread
        have hends : (!decide (config.PointsAt id target)) = false := hgoing _ hread
        rw [decide_eq_false hnot] at hends
        exact nomatch hends
  have hunread : ∀ x ∈ before, x.config? = none := List.findSome?_eq_none_iff.mp hnone
  rw [hsplit, hnone] at hlast
  have holder : lastRead older = some config := hlast
  intro e' he' habout'
  rcases List.mem_cons.mp he' with rfl | hmem
  · exact hne (congrArg Prod.snd (Option.some.inj (habout.symm.trans habout')))
  · rcases List.append_of_mem hmem with ⟨later, earlier, rfl⟩
    rcases hsourced (e :: later) e' (earlier ++ older) id target (by simp) habout'
      with ⟨config', hlast', hpoints'⟩
    have hearlier : lastRead earlier = none := List.findSome?_eq_none_iff.mpr fun x hx =>
      hunread x (List.mem_append_right _ (List.mem_cons_of_mem _ hx))
    have happend : lastRead (earlier ++ older) = (lastRead earlier).or (lastRead older) :=
      List.findSome?_append
    rw [happend, hearlier, holder] at hlast'
    rw [← show config = config' from Option.some.inj hlast'] at hpoints'
    exact hnot hpoints'

end Events

/-! ### What a poll starts -/

/-- A poll has read the config, and what happened was about what was read. -/
structure Priming.Reading (config : Config) (s : Priming) : Prop where
  last : lastRead s.happened = some config
  sourced : Sourced s.happened

/-- No attempts have been asked for. -/
structure Priming.Turning (config : Config) (s : Priming) : Prop extends s.Reading config where
  asked : s.asked = none

/-- Between two polls. -/
structure Priming.Resting (s : Priming) : Prop where
  sourced : Sourced s.happened
  asked : s.asked = none

section Turns

variable [Decimals] {s : Priming} {config : Config} {c : Connection}

omit [Decimals] in
theorem forgetting_resting : KeptForgetting Priming.Resting := by
  refine fun s other h => ⟨sourced_cons h.sourced fun id target habout => ?_, h.asked⟩
  exact absurd habout.symm (Option.some_ne_none _)

omit [Decimals] in
theorem forgetting_reading (config : Config) : KeptForgetting (Priming.Reading config) := by
  refine fun s other h => ⟨(lastRead_cons rfl).trans h.last, sourced_cons h.sourced ?_⟩
  exact fun id target habout => absurd habout.symm (Option.some_ne_none _)

omit [Decimals] in
theorem forgetting_turning (config : Config) : KeptForgetting (Priming.Turning config) :=
  fun s other h => ⟨forgetting_reading config s other h.toReading, h.asked⟩

omit [Decimals] in
theorem settle_turning (h : s.Reading config) : s.settle.Turning config :=
  ⟨⟨h.last, h.sourced⟩, rfl⟩

omit [Decimals] in
/-- What happens to a connection for what it points at in the config. -/
theorem happens_reading {e : PrimingEvent} {s' : Priming} {id : Option Str} {target : Target}
    (h : s.Reading config) (hpoints : config.PointsAt id target)
    (habout : e.about = some (id, target)) (hunread : e.config? = none)
    (hs' : s'.happened = e :: s.happened) : s'.Reading config := by
  refine ⟨?_, ?_⟩
  · rw [hs', lastRead_cons hunread]
    exact h.last
  · rw [hs']
    refine sourced_cons h.sourced fun id' target' habout' => ⟨config, h.last, ?_⟩
    rcases Prod.mk.inj (Option.some.inj (habout.symm.trans habout')) with ⟨rfl, rfl⟩
    exact hpoints

theorem telling_turning {op : MonitorOp} {ans : Except Exc op.Value} {s' : Priming}
    (hop : op.IsTelling) (h : s.Turning config) (hserves : s.serves op ans s') :
    s'.Turning config := by
  have hsettled : s.settle.Turning config := settle_turning h.toReading
  cases op
  case journal unit =>
      -- nothing was asked, so a refusal is about nothing
      have hrefuse : s.refuse = s.settle := by
        unfold Priming.refuse
        rw [h.asked]
      have hs' : s' = if saysRefused ans then s.refuse else s.settle := hserves
      rw [hrefuse, ite_self] at hs'
      rw [hs']
      exact hsettled
  case previousState id => exact hserves.2 ▸ hsettled
  case replaceStates current =>
      rw [hserves.2]
      exact ⟨⟨h.last, h.sourced⟩, rfl⟩
  case forget id =>
      rw [hserves.2]
      exact forgetting_turning config _ id hsettled
  case load => exact hop.elim
  case reachable => exact hop.elim
  case start => exact hop.elim
  case primedTarget => exact hop.elim
  case attemptFor => exact hop.elim
  case latch => exact hop.elim
  case recordAttempt => exact hop.elim
  all_goals exact (show s' = s.settle from hserves) ▸ hsettled

/-- Queueing a start of what the connection points at. -/
theorem queueStart_sourced (hs : s.Reading config) (hpoints : config.PointsAt c.id c.target)
    (unit : Str) (queued : Nat) :
    Always primingMachine (queueStart c unit queued) (fun _ s' => s'.Turning config) s := by
  unfold queueStart
  rw [always_bind]
  refine always_takeOr ?_
  rw [always_bind]
  refine always_primed (forgetting_reading config) hs fun s₁ hs₁ ans s' hserves => ?_
  rcases hserves with ⟨rfl, rfl⟩ | ⟨⟨e, rfl⟩, rfl⟩
  · have hstarted : (s₁.start c.id c.target).Reading config :=
      happens_reading hs₁ hpoints (e := .queued c.id c.target) rfl rfl rfl
    change Always primingMachine (take (.recordAttempt c.id c.target (queued + 1))) _ _
    refine always_primed (forgetting_reading config) hstarted fun s₂ hs₂ ans s' hserves => ?_
    rw [hserves.2]
    exact ⟨⟨hs₂.last, hs₂.sourced⟩, rfl⟩
  · change if e.isSmbpal = true then _ else _
    split
    · exact settle_turning hs₁
    · exact settle_turning hs₁

/-- Latching a connection for what it points at. -/
theorem latch_sourced {id : Option Str} {target : Target} (hs : s.Reading config)
    (hpoints : config.PointsAt id target) (because : Str) :
    Always primingMachine (take (.latch id target because)) (fun _ s' => s'.Turning config) s := by
  refine always_primed (forgetting_reading config) hs fun s₁ hs₁ ans s' hserves => ?_
  rw [hserves.2]
  exact ⟨happens_reading hs₁ hpoints (e := .latched id target because) rfl rfl rfl, rfl⟩

/-- Asking the journal about a start of what the connection points at. -/
theorem journalCause_sourced {id : Option Str} {target : Target} {count : Nat} {unit : Str}
    (hs : s.Reading config) (hpoints : config.PointsAt id target)
    (hasked : s.asked = some (id, some (target, count))) :
    Always primingMachine (journalCause unit) (fun _ s' => s'.Turning config) s := by
  refine always_takeOr ?_
  rw [always_bind]
  have hkept : KeptForgetting fun s : Priming => s.Reading config ∧
      s.asked = some (id, some (target, count)) :=
    fun s other h => ⟨forgetting_reading config s other h.1, h.2⟩
  refine always_primed hkept ⟨hs, hasked⟩ fun s₁ hs₁ ans s' hserves => ?_
  have hrefused : s₁.refuse.Turning config := by
    unfold Priming.refuse
    rw [hs₁.2]
    exact ⟨happens_reading hs₁.1 hpoints (e := .refused id target) rfl rfl rfl, rfl⟩
  -- A refusal is of the target that was asked for, which the config still has.
  have hs' : s'.Turning config := by
    rw [show s' = if saysRefused ans then s₁.refuse else s₁.settle from hserves]
    split
    · exact hrefused
    · exact settle_turning hs₁.1
  cases ans with
  | ok text => exact hs'
  | error e =>
      change if e.isSmbpal = true then _ else _
      split
      · exact hs'
      · exact hs'

/-- Priming an idle connection starts and latches what it points at. -/
theorem primeIdle_sourced (hs : s.Turning config) (hpoints : config.PointsAt c.id c.target)
    (unit : Str) :
    Always primingMachine (primeIdle c unit) (fun _ s' => s'.Turning config) s := by
  unfold primeIdle
  rw [always_bind]
  refine always_primed (forgetting_turning config) hs fun s₁ hs₁ ans s' hserves => ?_
  rcases hserves with ⟨rfl, rfl⟩
  have hasking : ({ s₁ with asked := some (c.id, s₁.memory.attempted c.id) } : Priming).Reading
      config := ⟨hs₁.last, hs₁.sourced⟩
  rw [andThen_ok]
  dsimp only
  by_cases hzero : queuedFor c (s₁.memory.attempted c.id) = 0
  · rw [if_pos hzero]
    exact queueStart_sourced hasking hpoints unit _
  · -- a refusal is about the starts that are remembered, and those are of the target
    rcases attempted_of_queuedFor hzero with ⟨count, hcount⟩
    rw [if_neg hzero, always_bind]
    refine always_mono (journalCause_sourced hasking hpoints
      (congrArg (fun a => some (c.id, a)) hcount)) fun r s₂ hs₂ => ?_
    cases r with
    | error e => exact hs₂
    | ok cause =>
        rw [andThen_ok]
        split
        · exact latch_sourced hs₂.toReading hpoints _
        · split
          · exact latch_sourced hs₂.toReading hpoints _
          · exact queueStart_sourced hs₂.toReading hpoints unit _

/-- So does a turn. -/
theorem maybePrime_sourced (hc : c ∈ config.connections) (state : ConnectionState) :
    Preserves primingMachine (Priming.Turning config) (maybePrime c state) := by
  have hpoints : config.PointsAt c.id c.target := ⟨c, hc, rfl, rfl⟩
  have hasks : ∀ {op : MonitorOp}, (∀ s ans s', Priming.Turning config s → s.serves op ans s' →
      s'.Turning config) → Preserves primingMachine (Priming.Turning config) (take op) :=
    fun hop s hs => always_primed (forgetting_turning config) hs fun s₁ hs₁ ans s' hserves =>
      hop s₁ ans s' hs₁ hserves
  unfold maybePrime
  refine preserves_bind (preserves_fromExcept _) fun names => ?_
  split
  · -- A mounted share latches: the attempt is asked for and the latch made of it.
    intro s hs
    rw [always_bind]
    refine always_primed (forgetting_turning config) hs fun s₁ hs₁ ans s' hserves => ?_
    rcases hserves with ⟨rfl, rfl⟩
    have hasking : ({ s₁ with asked := some (c.id, s₁.memory.attempted c.id) } : Priming).Reading
        config := ⟨hs₁.last, hs₁.sourced⟩
    exact latch_sourced hasking hpoints wasMounted
  · -- Any other is started if it may be, and neither question changes what was read.
    refine preserves_bind (hasks fun s ans s' hs hserves =>
      hserves.2 ▸ settle_turning hs.toReading) fun primed => ?_
    split
    · exact preserves_pure ()
    · refine preserves_bind ?_ fun may => ?_
      · unfold mayPrime
        dsimp only
        split
        · exact preserves_pure _
        · split
          · exact hasks fun s ans s' hs hserves =>
              (show s' = s.settle from hserves) ▸ settle_turning hs.toReading
          · exact preserves_pure _
      · cases may with
        | false => exact preserves_pure ()
        | true => exact fun s hs => primeIdle_sourced hs hpoints names.1

variable [Unicode]

/-- A poll starts and latches what the config it has read points at. -/
theorem poll_sourced (prime : Bool) :
    Preserves primingMachine Priming.Resting (poll prime) := by
  refine preserves_poll prime (I := Priming.Turning) (fun s ans s' hs hstep => ?_)
    (fun config op s ans s' hop hs hstep => ?_)
    (fun config c hc state => maybePrime_sourced hc state)
    fun config s hs => ⟨hs.sourced, hs.asked⟩
  · rcases hstep with ⟨ids, hserves⟩
    have hs₁ := forgetting_all forgetting_resting hs ids
    rw [show s' = (s.forgetAll ids).read ans from hserves]
    refine ⟨fun config hans => ?_, fun e hans => ?_⟩
    · rw [hans]
      refine ⟨⟨rfl, sourced_cons hs₁.sourced fun id target habout => ?_⟩, rfl⟩
      exact absurd habout.symm (Option.some_ne_none _)
    · rw [hans]
      exact ⟨hs₁.sourced, rfl⟩
  · rcases hstep with ⟨ids, hserves⟩
    exact telling_turning hop (forgetting_all (forgetting_turning config) hs ids) hserves

theorem run_sourced (hrun : GuardedRun Priming.Steps (fun _ _ => True) Priming.fresh s) :
    s.Resting := by
  refine hrun.invariant Priming.Resting ⟨sourced_nil, rfl⟩ fun s e s' hs _ hstep => ?_
  cases e with
  | poll prime =>
      rcases hstep with ⟨r, s₁, hx, rfl⟩
      exact ⟨(always_exec (poll_sourced prime s hs) hx).sourced, rfl⟩
  | forget id =>
      rw [show s' = _ from hstep]
      exact forgetting_resting s id hs

/-- In every run whose configs have one target for the id, among what happened
    one after another without an event that ends the count of a connection for a
    target, there are at most `primeAttempts` starts of it, and none after the
    journal said that its mount is not to be tried again. -/
theorem priming_bounded (s : Priming)
    (hrun : GuardedRun Priming.Steps (fun _ _ => True) Priming.fresh s) (id : Option Str)
    (target : Target) (hone : ∀ config, .read config ∈ s.happened → config.OneTarget id)
    (newer window older : List PrimingEvent) (hwindow : s.happened = newer ++ (window ++ older))
    (hgoing : ∀ e ∈ window, e.ends id target = false) :
    window.count (.queued id target) ≤ primeAttempts ∧
      ∀ later earlier, window = later ++ .refused id target :: earlier →
        .queued id target ∉ later := by
  cases hfind : window.find? fun e => e.resets id target with
  | none =>
      refine run_bounded hrun hwindow fun e he => ?_
      exact Bool.eq_false_iff.mpr (List.find?_eq_none.mp hfind e he)
  | some e =>
      -- the last event for another target: all that is about this one came after it
      rcases List.find?_eq_some_iff_append.mp hfind with ⟨hresets, after, before, rfl, hafter⟩
      rcases PrimingEvent.other_of_resets hresets
        (hgoing e (List.mem_append_right _ List.mem_cons_self)) with ⟨target', habout, hne⟩
      have hsuffix : e :: (before ++ older) <:+ s.happened := by
        refine ⟨newer ++ after, ?_⟩
        rw [hwindow]
        simp only [List.append_assoc, List.cons_append]
      have hsourced : Sourced (e :: (before ++ older)) := by
        intro newer' e' older' id' target'' hsplit
        rcases hsuffix with ⟨front, hfront⟩
        rw [hsplit, ← List.append_assoc] at hfront
        exact (run_sourced hrun).sourced _ e' older' id' target'' hfront.symm
      have hnone : ∀ e' ∈ e :: before, e'.about ≠ some (id, target) := by
        refine none_before hsourced (fun config hread => ?_) (fun e' he' => ?_) habout hne
        · exact hone config (hsuffix.subset (List.mem_cons_of_mem e hread))
        · exact hgoing e' (List.mem_append_right _ (List.mem_cons_of_mem e he'))
      have hqueued : .queued id target ∉ e :: before := fun hmem => hnone _ hmem rfl
      have hrefused : .refused id target ∉ e :: before := fun hmem => hnone _ hmem rfl
      have hwindow' : s.happened = newer ++ (after ++ (e :: (before ++ older))) := by
        rw [hwindow]
        simp only [List.append_assoc, List.cons_append]
      have hgoing' : ∀ e' ∈ after, e'.resets id target = false := fun e' he' => by
        simpa using hafter e' he'
      have hbounded := run_bounded hrun hwindow' hgoing'
      refine ⟨?_, fun later earlier hsplit => ?_⟩
      · rw [List.count_append, List.count_eq_zero.mpr hqueued]
        exact hbounded.1
      · rcases List.append_eq_append_iff.mp hsplit with ⟨mid, rfl, hmid⟩ | ⟨mid, rfl, hmid⟩
        · rw [hmid] at hrefused
          exact absurd (List.mem_append_right _ List.mem_cons_self) hrefused
        · cases mid with
          | nil =>
              rw [List.nil_append] at hmid
              rw [← hmid] at hrefused
              exact absurd List.mem_cons_self hrefused
          | cons x mid =>
              injection hmid with hx hrest
              exact hbounded.2 later mid (by rw [hx])

end Turns

/-! ### A run -/

section Unmounted

attribute [local instance] Unicode.ascii Decimals.ascii

set_option maxRecDepth 10000

/-- What comes of a start. -/
def World.startPriming (w : World) (s : Priming) (id : Option Str) (target : Target) (unit : Str) :
    Except Exc Unit × Priming :=
  match w.start unit with
  | .ok _ => (.ok (), s.start id target)
  | .error e => (.error (.smbpal e), s.settle)

/-- What a world that stands still answers, and what a step of the poll does. -/
def World.prime (w : World) : (op : MonitorOp) → Priming → Except Exc op.Value × Priming
  -- A journal with a refusal in it is written down as one.
  | .load, s => (w.config, s.read w.config)
  | .serverStates, s => (.ok w.servers, s.settle)
  | .mountTable, s => (.ok w.table, s.settle)
  | .unitShow unit, s => ((w.unitShow unit).mapError .smbpal, s.settle)
  | .journal unit, s =>
      let ans := (w.journal unit).mapError .smbpal
      (ans, if saysRefused ans then s.refuse else s.settle)
  | .reachable host, s => (.ok (w.reachable host), s.settle)
  | .start id target unit, s => w.startPriming s id target unit
  | .primedTarget id, s => (.ok (s.memory.primed id), s.settle)
  | .attemptFor id, s =>
      (.ok (s.memory.attempted id), { s with asked := some (id, s.memory.attempted id) })
  | .latch id target because, s => (.ok (), s.latch id target because)
  | .recordAttempt id target count, s => (.ok (), s.record id target count)
  | .previousState id, s => (.ok (s.memory.stateFor id), s.settle)
  | .replaceStates current, s =>
      (.ok (s.memory.goneFrom current),
        { s.settle with memory := { s.memory with states := current } })
  | .forget id, s => (.ok (), s.settle.forget id)
  | .emit _ _ _, s => (w.push, s.settle)
  | .pushRemoved _, s => (w.push, s.settle)

theorem serves_prime (w : World) (op : MonitorOp) (s : Priming) :
    s.serves op (w.prime op s).1 (w.prime op s).2 := by
  cases op
  case start id target unit =>
      change s.serves (.start id target unit) (w.startPriming s id target unit).1
        (w.startPriming s id target unit).2
      unfold World.startPriming
      cases w.start unit with
      | ok u => exact Or.inl ⟨rfl, rfl⟩
      | error e => exact Or.inr ⟨⟨_, rfl⟩, rfl⟩
  case load => exact rfl
  case serverStates => exact rfl
  case mountTable => exact rfl
  case unitShow => exact rfl
  case journal => exact rfl
  case reachable => exact rfl
  case emit => exact rfl
  case pushRemoved => exact rfl
  all_goals exact ⟨rfl, rfl⟩

/-- What a poll of a world that stands still leaves. -/
def Priming.polled (s : Priming) (w : World) : Priming :=
  ((poll true).run w.prime s).2.settle

theorem steps_polled (s : Priming) (w : World) : s.Steps (.poll true) (s.polled w) :=
  ⟨_, _, exec_run (fun op s => ⟨[], serves_prime w op s⟩) (poll true) s, rfl⟩

/-- The share is not mounted, and the server refused the password. -/
def nasRefusing : World :=
  { nasEjected with journal := fun _ => .ok permissionDenied }

/-- Nothing came of three starts. Then the share was forgotten and started once
    more, and the server refused the password. -/
def refusedInTheEnd : Priming :=
  let unmounted := (((Priming.fresh.polled nasEjected).polled nasEjected).polled nasEjected).polled
    nasEjected
  (((unmounted.forget nasMusic.id).polled nasEjected).polled nasRefusing).polled nasEjected

/-- The config that was read. -/
def nasConfig : Config :=
  { version := 1, shares := [], connections := [nasMusic] }

/-- Three starts, and a latch, the newest first. -/
def startedInVain : List PrimingEvent :=
  [.latched nasMusic.id nasMusic.target (neverMounted 3 musicUnit), .read nasConfig,
    .queued nasMusic.id nasMusic.target, .read nasConfig,
    .queued nasMusic.id nasMusic.target, .read nasConfig,
    .queued nasMusic.id nasMusic.target, .read nasConfig]

/-- A start, a refusal and a latch, and one more poll. -/
def startedAndRefused : List PrimingEvent :=
  [.read nasConfig,
    .latched nasMusic.id nasMusic.target
      (str "the mount was refused: the username or password was refused by the server"),
    .refused nasMusic.id nasMusic.target, .read nasConfig,
    .queued nasMusic.id nasMusic.target, .read nasConfig]

theorem nasConfig_oneTarget : nasConfig.OneTarget nasMusic.id := by
  intro c hc d hd _ _
  rw [List.mem_singleton.mp hc, List.mem_singleton.mp hd]

/-- Three starts before the share is forgotten, and one that is refused after. -/
theorem priming_bounded_refused :
    refusedInTheEnd.happened = startedAndRefused ++ .forgotten nasMusic.id :: startedInVain ∧
      startedInVain.count (.queued nasMusic.id nasMusic.target) = 3 ∧
      startedInVain.count (.queued nasMusic.id nasMusic.target) ≤ primeAttempts ∧
      ∀ later earlier,
        startedAndRefused = later ++ .refused nasMusic.id nasMusic.target :: earlier →
          .queued nasMusic.id nasMusic.target ∉ later := by
  -- Four polls of a share that is not mounted, a forgetting, then one more start and its refusal.
  have hrun : GuardedRun Priming.Steps (fun _ _ => True) Priming.fresh refusedInTheEnd :=
    (((((((GuardedRun.start.next (.poll true) trivial (steps_polled _ nasEjected)).next
      (.poll true) trivial (steps_polled _ nasEjected)).next
      (.poll true) trivial (steps_polled _ nasEjected)).next
      (.poll true) trivial (steps_polled _ nasEjected)).next
      (.forget nasMusic.id) trivial rfl).next
      (.poll true) trivial (steps_polled _ nasEjected)).next
      (.poll true) trivial (steps_polled _ nasRefusing)).next
      (.poll true) trivial (steps_polled _ nasEjected)
  have hhappened : refusedInTheEnd.happened
      = startedAndRefused ++ .forgotten nasMusic.id :: startedInVain := by decide +kernel
  have hvain : (startedInVain.all fun e => !e.ends nasMusic.id nasMusic.target) = true := by
    decide +kernel
  have hrefused : (startedAndRefused.all fun e => !e.ends nasMusic.id nasMusic.target) = true := by
    decide +kernel
  have hread : ((startedAndRefused ++ .forgotten nasMusic.id :: startedInVain).all fun e =>
      e.config?.all fun config => decide (config = nasConfig)) = true := by
    decide +kernel
  have hone : ∀ config, .read config ∈ refusedInTheEnd.happened →
      config.OneTarget nasMusic.id := by
    intro config hmem
    rw [hhappened] at hmem
    have hconfig : decide (config = nasConfig) = true := List.all_eq_true.mp hread _ hmem
    rw [of_decide_eq_true hconfig]
    exact nasConfig_oneTarget
  refine ⟨hhappened, by decide, ?_, ?_⟩
  · refine (priming_bounded refusedInTheEnd hrun nasMusic.id nasMusic.target hone
      (startedAndRefused ++ [.forgotten nasMusic.id]) startedInVain [] ?_ fun e he => ?_).1
    · rw [hhappened, List.append_nil, List.append_assoc, List.singleton_append]
    · simpa using List.all_eq_true.mp hvain e he
  · refine (priming_bounded refusedInTheEnd hrun nasMusic.id nasMusic.target hone []
      startedAndRefused (.forgotten nasMusic.id :: startedInVain) hhappened fun e he => ?_).2
    simpa using List.all_eq_true.mp hrefused e he

/-- Two shares without an id, neither of them mounted, and nothing in the journals. -/
def bareIdle : World :=
  bareShares [nasTrigger, { nasTrigger with mountpoint := str "/mnt/films" }]

/-- Four polls of them. -/
def startedAgain : Priming :=
  (((Priming.fresh.polled bareIdle).polled bareIdle).polled bareIdle).polled bareIdle

/-- Each poll starts both shares: the count of the one is taken away by the
    start of the other. -/
theorem starts_without_end :
    bareConfig.Valid ∧
      GuardedRun Priming.Steps (fun _ _ => True) Priming.fresh startedAgain ∧
      (∀ e ∈ startedAgain.happened, e.ends none nasMusic.target = false) ∧
      primeAttempts < startedAgain.happened.count (.queued none nasMusic.target) := by
  refine ⟨by decide +kernel, ?_, by decide +kernel, by decide +kernel⟩
  exact (((GuardedRun.start.next (.poll true) trivial (steps_polled _ bareIdle)).next
    (.poll true) trivial (steps_polled _ bareIdle)).next
    (.poll true) trivial (steps_polled _ bareIdle)).next
    (.poll true) trivial (steps_polled _ bareIdle)

end Unmounted

end Smbpal
