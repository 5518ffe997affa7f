import Smbpal.Mounts.Prescribed
import Smbpal.Daemon.Handlers

/-!
# Applying the Previous Config Again

The operations of an apply as the unit files see them, when a commit fails and
undoes itself.

Up to the second save, which is the undo's, any operation may raise anything,
before or after it has taken effect. From then on everything works: every
operation takes effect, what is stopped is unmounted, and nobody else holds the
mountpoints of the previous document. `always_reapply` is what the second apply
makes of whatever units the first one left.

## Main definitions

* `Disk`, `rollbackMachine`: The stored config and the unit files.

## Theorems

* `always_writeUnit` and its like: What an operation does, in either apply.
* `always_prepareAgain`, `always_sweepAgain`: The loops of the second apply.
* `always_reapply`: What the second apply makes of any units.
-/

namespace Smbpal

open Lib Program

/-- The stored config, the unit files by their name, and the saves so far. -/
structure Disk where
  config : Config
  units : Str → Option Str
  saves : Nat

/-- The same with one unit file replaced or removed. -/
def Disk.put (s : Disk) (name : Str) (file : Option Str) : Disk :=
  { s with units := Function.update s.units name file }

/-- The answer `v`, or while the first apply is going any exception. -/
def Answers {α : Type} (s : Disk) (P : α → Prop) (ans : Except Exc α) : Prop :=
  (∃ v, ans = .ok v ∧ P v) ∨ (s.saves < 2 ∧ ∃ e, ans = .error e)

section Reapply

variable [Unicode]

/-- The operations as the unit files see them. Up to the second save anything may
    raise, before or after it has taken effect; from then on everything works. -/
def rollbackMachine (env : Accounts) (previous : Config) : Machine daemonSig Disk
  | .load, s, ans, s' => storeLoad s.config ans ∧ s' = s
  | .save doc, s, ans, s' => storeSave doc s.config ans s'.config ∧ (doc.Valid → ans = .ok ()) ∧
      s'.units = s.units ∧ s'.saves = s.saves + 1
  -- From the second save on the system does what it is asked.
  | .writeUnit name text, s, ans, s' =>
      (encode text ≠ none ∧ s' = s.put name (some text) ∧ Answers s (fun _ => True) ans) ∨
        ((encode text = none ∨ s.saves < 2) ∧ (∃ e, ans = .error e) ∧ s' = s)
  | .unlinkUnit name, s, ans, s' =>
      (s' = s.put name none ∧ Answers s (fun _ => True) ans) ∨
        (s.saves < 2 ∧ (∃ e, ans = .error e) ∧ s' = s)
  | .iterUnits, s, ans, s' =>
      s' = s ∧ Answers s (fun names => ∀ name, s.units name ≠ none → name ∈ names) ans
  | .readUnit name, s, ans, s' =>
      s' = s ∧ ((∃ text, s.units name = some text ∧ Answers s (fun read => read = text) ans) ∨
        (s.units name = none ∧ ∃ e, ans = .error e ∧ (2 ≤ s.saves → e.isOS = true)))
  | .isMounted _, s, ans, s' =>
      s' = s ∧ Answers s (fun mounted => 2 ≤ s.saves → mounted ≠ some true) ans
  | .occupant mountpoint, s, ans, s' =>
      s' = s ∧ Answers s (fun entry => 2 ≤ s.saves → ∀ c ∈ previous.connections,
        c.mountpoint = some mountpoint → foreignMount entry c = none) ans
  | .credentialsExists ref, s, ans, s' => s' = s ∧ Answers s
    (fun there => there = env.present ref) ans
  | .getpwnam name, s, ans, s' => s' = s ∧ Answers s (fun ids => ids = env.passwd name) ans
  | _, s, ans, s' => s' = s ∧ Answers s (fun _ => True) ans

/-- The operations that touch neither the config nor the unit files. -/
def isStill : DaemonOp → Bool
  | .save _ => false
  | .writeUnit _ _ => false
  | .unlinkUnit _ => false
  | _ => true

/-- The operations that work without saying anything about the units. -/
def isPlain : DaemonOp → Bool
  | .applierApply _ => true
  | .ensureMountpoint _ => true
  | .rmdir _ => true
  | .systemctl _ => true
  | .probeState _ => true
  | _ => false

section Operations

variable {env : Accounts} {previous updated : Config} {s : Disk} {α β : Type}
  {Q : Except Exc α → Disk → Prop}

theorem rollbackMachine_still {op : DaemonOp} {s s' : Disk} {ans : Except Exc op.Value}
    (hop : isStill op = true) (h : rollbackMachine env previous op s ans s') : s' = s := by
  cases op
  case save => exact absurd hop Bool.false_ne_true
  case writeUnit => exact absurd hop Bool.false_ne_true
  case unlinkUnit => exact absurd hop Bool.false_ne_true
  case load => exact h.2
  all_goals exact h.1

/-- A program that touches no unit ends where it began. -/
theorem always_still {p : DaemonM α} (hp : Performs (S := daemonSig)
    (fun op => isStill op = true) p)
    (hQ : ∀ r, Q r s) : Always (rollbackMachine env previous) p Q s :=
  always_frame hp (fun _ _ _ _ => rollbackMachine_still) hQ

/-- A plain operation of the second apply works. -/
theorem always_plain {op : DaemonOp} {Q : Except Exc op.Value → Disk → Prop}
    (hop : isPlain op = true)
    (hs : 2 ≤ s.saves) (hQ : ∀ v, Q (.ok v) s) :
    Always (rollbackMachine env previous) (call op) Q s := by
  refine (always_call op Q).mpr fun ans s' hM => ?_
  have hanswers : s' = s ∧ Answers s (fun _ => True) ans := by
    cases op
    case applierApply => exact hM
    case ensureMountpoint => exact hM
    case rmdir => exact hM
    case systemctl => exact hM
    case probeState => exact hM
    all_goals exact absurd hop Bool.false_ne_true
  rcases hanswers with ⟨rfl, ⟨v, rfl, -⟩ | ⟨hfirst, -⟩⟩
  · exact hQ v
  · omega

/-- The credentials file of a reference that can be one is there or not. -/
theorem always_credentialsExist {ref : Str} {Q : Except Exc Bool → Disk → Prop}
    (href : isId ref = true) (hraise : s.saves < 2 → ∀ e, Q (.error e) s)
    (hok : Q (.ok (env.present ref)) s) :
    Always (rollbackMachine env previous) (credentialsExist ref) Q s := by
  unfold credentialsExist
  have hpath : pathFor ref = .ok (str "/etc/smbpal/credentials/" ++ ref) := if_pos href
  rw [hpath, always_bind, always_fromExcept, andThen_ok]
  refine (always_call (.credentialsExists ref) Q).mpr fun ans s' hM => ?_
  rcases hM with ⟨rfl, ⟨v, rfl, rfl⟩ | ⟨hfirst, e, rfl⟩⟩
  · exact hok
  · exact hraise hfirst e

theorem always_credentialsPath {c : Connection} {Q : Except Exc (Option Str) → Disk → Prop}
    (hc : c.WellFormed) (hraise : s.saves < 2 → ∀ e, Q (.error e) s)
    (hok : Q (.ok (credentialsPathIn env c)) s) :
    Always (rollbackMachine env previous) (credentialsPath c) Q s := by
  unfold credentialsPath
  unfold credentialsPathIn at hok
  cases href : truthy c.credentialRef with
  | none =>
      rw [href] at hok
      exact hok
  | some ref =>
      rw [href] at hok
      dsimp only at hok ⊢
      -- The config has the schema, so the reference is one a path can be made of.
      have hid := truthy_wellFormed hc href
      rw [always_bind]
      refine always_credentialsExist hid (fun hfirst e => hraise hfirst e) ?_
      rw [andThen_ok]
      cases hpresent : env.present ref with
      | false =>
          rw [hpresent] at hok
          exact hok
      | true =>
          rw [hpresent] at hok
          have hpath : pathFor ref = .ok (str "/etc/smbpal/credentials/" ++ ref) := if_pos hid
          rw [if_pos rfl, hpath]
          exact hok

theorem always_ownerIds {c : Connection} {Q : Except Exc (Option OwnerIds) → Disk → Prop}
    (hraise : s.saves < 2 → ∀ e, Q (.error e) s) (hok : Q (.ok (ownerIdsIn env c)) s) :
    Always (rollbackMachine env previous) (ownerIds c) Q s := by
  unfold ownerIds
  unfold ownerIdsIn at hok
  cases howner : truthy c.owner with
  | none =>
      rw [howner] at hok
      exact hok
  | some owner =>
      rw [howner] at hok
      refine (always_call (.getpwnam owner) Q).mpr fun ans s' hM => ?_
      rcases hM with ⟨rfl, ⟨v, rfl, rfl⟩ | ⟨hfirst, e, rfl⟩⟩
      · exact hok
      · exact hraise hfirst e

/-- Writing a unit: it is written, and raises only in the first apply; or its
    text cannot be, or it is not written, which is the first apply again. -/
theorem always_writeUnit {name text : Str} {Q : Except Exc Unit → Disk → Prop}
    (hbefore : encode text = none ∨ s.saves < 2 → ∀ e, Q (.error e) s)
    (hafter : encode text ≠ none → s.saves < 2 → ∀ e, Q (.error e) (s.put name (some text)))
    (hok : encode text ≠ none → Q (.ok ()) (s.put name (some text))) :
    Always (rollbackMachine env previous) (writeUnit name text) Q s := by
  unfold writeUnit
  rw [always_catching]
  refine (always_call (.writeUnit name text) _).mpr fun ans s' hM => ?_
  rcases hM with ⟨hencode, rfl, ⟨v, rfl, -⟩ | ⟨hfirst, e, rfl⟩⟩ | ⟨hwhy, ⟨e, rfl⟩, rfl⟩
  · exact hok hencode
  · rw [orCatch_error]
    split
    · exact hafter hencode hfirst _
    · exact hafter hencode hfirst e
  · rw [orCatch_error]
    split
    · exact hbefore hwhy _
    · exact hbefore hwhy e

/-- Nobody else holds a previous connection's mountpoint in the second apply. -/
theorem always_foreignOccupant {c : Connection} {names : Str × Str}
    {Q : Except Exc (Option MountEntry) → Disk → Prop} (hc : c ∈ previous.connections)
    (hnames : namesOf c = .ok names) (hs : 2 ≤ s.saves) (hok : Q (.ok none) s) :
    Always (rollbackMachine env previous) (foreignOccupant c) Q s := by
  rcases mountpointOf_of_namesOf hnames with ⟨mountpoint, hm, hmo⟩
  unfold foreignOccupant
  rw [hmo, always_bind, always_fromExcept, andThen_ok, always_bind]
  refine (always_call (.occupant mountpoint) _).mpr fun ans s' hM => ?_
  rcases hM with ⟨rfl, ⟨entry, rfl, hfree⟩ | ⟨hfirst, -⟩⟩
  · rw [andThen_ok, always_pure, hfree hs c hc hm]
    exact hok
  · omega

end Operations

section Again

variable {env : Accounts} {previous updated : Config} {s : Disk}

/-- The units of the previous document are written again, all of them. -/
theorem always_prepareAgain (hwf : ∀ c ∈ previous.connections, c.WellFormed)
    (hre : Reapplies env previous) {todo : List Connection} (hs : 2 ≤ s.saves)
    (hsub : ∀ c ∈ todo, c ∈ previous.connections)
    {Q : Except Exc (List Str × List (Option Str)) → Disk → Prop}
    (hok : ∀ wanted, (∀ name, name ∈ wanted ↔ ∃ c ∈ todo, UnitOf c name) →
      Q (.ok (wanted, [])) { s with units := writeAll env todo s.units }) :
    Always (rollbackMachine env previous) (prepareUnits todo) Q s := by
  induction todo generalizing s Q with
  | nil =>
      refine hok [] fun name => ?_
      constructor
      · exact fun h => absurd h List.not_mem_nil
      · exact fun ⟨c, hc, _⟩ => absurd hc List.not_mem_nil
  | cons c todo ih =>
      have hc := hsub c List.mem_cons_self
      rcases hre c hc with ⟨names, hnames, hmount, hauto⟩
      rcases mountpointOf_of_namesOf hnames with ⟨mountpoint, -, hmo⟩
      -- From the second save on nothing refuses any more.
      have hlate : ∀ {P : Prop}, s.saves < 2 → P := fun h => by omega
      unfold prepareUnits
      rw [hnames, always_bind, always_fromExcept, andThen_ok, always_bind]
      refine always_foreignOccupant hc hnames hs ?_
      rw [andThen_ok]
      dsimp only
      rw [always_bind]
      unfold writeUnits
      rw [hmo, always_bind, always_fromExcept, andThen_ok, always_bind]
      refine always_plain rfl hs fun v => ?_
      rw [andThen_ok, always_bind]
      refine always_credentialsPath (hwf c hc) hlate ?_
      rw [andThen_ok, always_bind]
      refine always_ownerIds hlate ?_
      rw [andThen_ok, always_bind]
      refine always_writeUnit (fun h => h.elim (fun h => absurd h hmount) hlate)
        (fun _ h => hlate h) fun _ => ?_
      rw [andThen_ok]
      refine always_writeUnit (fun h => h.elim (fun h => absurd h hauto) hlate)
        (fun _ h => hlate h) fun _ => ?_
      rw [andThen_ok, always_bind]
      -- Both units of the connection are written, and are what it asks for.
      have hwritten : (s.put names.1 (some (mountText env c))).put names.2
        (some (automountUnit c)) =
          { s with units := writeOne env c s.units } := by
        unfold writeOne
        rw [hnames]
        rfl
      change Always _ _ _ ((s.put names.1 (some (mountText env c))).put names.2 _)
      rw [hwritten]
      refine ih (s := { s with units := writeOne env c s.units }) hs
        (fun d hd => hsub d (List.mem_cons_of_mem _ hd)) fun wanted hwanted => ?_
      refine hok (names.1 :: names.2 :: wanted) fun name => ?_
      rw [List.mem_cons, List.mem_cons, hwanted]
      -- The names wanted are the units of this connection and of those behind it.
      constructor
      · rintro (rfl | rfl | ⟨d, hd, hunit⟩)
        · exact ⟨c, List.mem_cons_self, names, hnames, Or.inl rfl⟩
        · exact ⟨c, List.mem_cons_self, names, hnames, Or.inr rfl⟩
        · exact ⟨d, List.mem_cons_of_mem _ hd, hunit⟩
      · rintro ⟨d, hd, hunit⟩
        rcases List.mem_cons.mp hd with rfl | hd
        · rcases hunit with ⟨names', h, hname⟩
          rw [hnames, Except.ok.injEq] at h
          subst h
          exact hname.elim Or.inl fun h => Or.inr (Or.inl h)
        · exact Or.inr (Or.inr ⟨d, hd, hunit⟩)

theorem always_readAgain {name : Str} {Q : Except Exc (Option Str) → Disk → Prop} (hs : 2 ≤ s.saves)
    (hok : Q (.ok (s.units name)) s) : Always (rollbackMachine env previous)
    (readUnit name) Q s := by
  unfold readUnit
  rw [always_catching, always_bind]
  refine (always_call (.readUnit name) _).mpr fun ans s' hM => ?_
  rcases hM with ⟨rfl, ⟨text, htext, ⟨v, rfl, rfl⟩ | ⟨hfirst, -⟩⟩ | ⟨hnone, e, rfl, hos⟩⟩
  · rw [htext] at hok
    exact hok
  · omega
  · rw [andThen_error, orCatch_error, if_pos (hos hs)]
    rw [hnone] at hok
    exact hok

/-- What is stopped in the second apply is unmounted. -/
theorem always_standDownAgain {name : Str} {place : Option Str} {Q : Except Exc Bool → Disk → Prop}
    (hs : 2 ≤ s.saves) (hok : Q (.ok false) s) :
    Always (rollbackMachine env previous) (standDown name place) Q s := by
  unfold standDown
  split
  · rw [always_bind]
    exact always_plain rfl hs fun v => hok
  · rw [always_bind]
    refine always_plain rfl hs fun v => ?_
    rw [andThen_ok]
    split
    · exact hok
    · rename_i mountpoint hplace
      rw [always_bind]
      refine (always_call (.isMounted mountpoint) _).mpr fun ans s' hM => ?_
      rcases hM with ⟨rfl, ⟨mounted, rfl, hfree⟩ | ⟨hfirst, -⟩⟩
      · rw [andThen_ok, always_pure, decide_eq_false (hfree hs)]
        exact hok
      · omega

theorem always_unlinkAgain {name : Str} {place : Option Str} {Q : Except Exc Bool → Disk → Prop}
    (hs : 2 ≤ s.saves) (hok : Q (.ok true) (s.put name none)) :
    Always (rollbackMachine env previous) (unlinkUnit name place) Q s := by
  unfold unlinkUnit
  rw [always_bind, always_catching, always_bind]
  refine (always_call (.unlinkUnit name) _).mpr fun ans s' hM => ?_
  rcases hM with ⟨rfl, ⟨v, rfl, -⟩ | ⟨hfirst, -⟩⟩ | ⟨hfirst, -⟩
  · rw [andThen_ok, always_pure, orCatch_ok, andThen_ok, if_pos rfl]
    split
    · exact hok
    · split
      · rw [always_bind, always_catching]
        exact always_plain rfl hs fun v => hok
      · exact hok
  · omega
  · omega

/-- The second apply takes a stale file away, and leaves another. -/
theorem always_removeAgain {wanted : List Str} {keep : Option (List Str)} {name : Str}
    {Q : Except Exc Bool → Disk → Prop} (hs : 2 ≤ s.saves)
    (hname : isUnitFile name = true ∧ name ∉ wanted)
    (hok : ∀ gone, Q (.ok gone) { s with units := swept wanted keep [name] s.units }) :
    Always (rollbackMachine env previous) (removeIfStale keep name) Q s := by
  -- A file that is not stale is left, and the sweep leaves the same.
  have hleft : stale wanted keep name (s.units name) = false → ∀ gone, Q (.ok gone) s := by
    intro hstale gone
    have hsame : { s with units := swept wanted keep [name] s.units } = s := by
      have hunits : swept wanted keep [name] s.units = s.units := by
        funext other
        unfold swept
        refine if_neg fun h => ?_
        rw [List.mem_singleton.mp h.1, hstale] at h
        exact Bool.false_ne_true h.2
      rw [hunits]
    exact hsame ▸ hok gone
  unfold removeIfStale
  rw [always_bind]
  refine always_readAgain hs ?_
  rw [andThen_ok]
  cases hfile : s.units name with
  | none =>
      rw [hfile] at hleft
      exact hleft rfl false
  | some text =>
      rw [hfile] at hleft
      by_cases hmarker : contains marker text = true
      · -- It is read twice, once for the marker and once for where it mounts.
        rw [Option.getD_some, if_pos hmarker, always_bind]
        refine always_readAgain hs ?_
        rw [andThen_ok, hfile]
        dsimp only
        by_cases hremove : mayRemove keep (whereOf text) = true
        · rw [Option.bind_some, if_pos hremove, always_bind]
          refine always_standDownAgain hs ?_
          rw [andThen_ok, if_neg Bool.false_ne_true]
          refine always_unlinkAgain hs ?_
          have hstale : stale wanted keep name (some text) = true :=
            stale_some.mpr ⟨⟨hname.1, hmarker⟩, hname.2, hremove⟩
          -- Only this file goes.
          have hput : s.put name none = { s with units := swept wanted keep [name] s.units } := by
            have hunits : Function.update s.units name none = swept wanted keep [name] s.units := by
              funext other
              unfold swept
              by_cases hother : other = name
              · rw [hother, Function.update_self, hfile]
                exact (if_pos ⟨List.mem_singleton.mpr rfl, hstale⟩).symm
              · rw [Function.update_of_ne hother]
                exact (if_neg fun h => hother (List.mem_singleton.mp h.1)).symm
            unfold Disk.put
            rw [hunits]
          rw [hput]
          exact hok true
        · rw [Option.bind_some, if_neg hremove]
          exact hleft (Bool.eq_false_iff.mpr fun h => hremove (stale_some.mp h).2.2) false
      · rw [Option.getD_some, if_neg hmarker]
        exact hleft (Bool.eq_false_iff.mpr fun h => hmarker (stale_some.mp h).1.2) false

theorem always_sweepAgain {wanted : List Str} {keep : Option (List Str)} {names : List Str}
    {Q : Except Exc (List Str) → Disk → Prop} (hs : 2 ≤ s.saves)
    (hok : ∀ removed, Q (.ok removed) { s with units := swept wanted keep names s.units }) :
    Always (rollbackMachine env previous) (removeStaleFrom wanted keep names) Q s := by
  induction names generalizing s Q with
  | nil =>
      have hsame : { s with units := swept wanted keep [] s.units } = s := by
        have hunits : swept wanted keep [] s.units = s.units := by
          funext other
          exact if_neg fun h => List.not_mem_nil h.1
        rw [hunits]
      exact hsame ▸ hok []
  | cons name names ih =>
      unfold removeStaleFrom
      by_cases hname : isUnitFile name = true ∧ name ∉ wanted
      · rw [if_pos hname, always_bind]
        refine always_removeAgain hs hname fun gone => ?_
        rw [andThen_ok, always_bind]
        refine ih (s := { s with units := swept wanted keep [name] s.units }) hs fun removed => ?_
        rw [andThen_ok, always_pure]
        have hrest := hok (if gone then name :: removed else removed)
        rw [swept_cons] at hrest
        exact hrest
      · rw [if_neg hname]
        -- A wanted name, or one that is no unit's, is no stale one.
        have hskip : swept wanted keep (name :: names) s.units =
            swept wanted keep names s.units := by
          rw [swept_cons]
          congr 1
          funext other
          unfold swept
          refine if_neg fun h => ?_
          rcases h with ⟨hother, hstale⟩
          rw [List.mem_singleton.mp hother] at hstale
          cases hfile : s.units name with
          | none =>
              rw [hfile] at hstale
              exact Bool.false_ne_true hstale
          | some text =>
              rw [hfile] at hstale
              exact hname ⟨(stale_some.mp hstale).1.1, (stale_some.mp hstale).2.1⟩
        exact ih hs fun removed => hskip ▸ hok removed

theorem always_armAgain {todo : List Connection} {Q : Except Exc Unit → Disk → Prop}
    (hs : 2 ≤ s.saves) (hnames : ∀ c ∈ todo, ∃ names, namesOf c = .ok names) (hok : Q (.ok ()) s) :
    Always (rollbackMachine env previous) (armUnits [] todo) Q s := by
  induction todo with
  | nil => exact hok
  | cons c todo ih =>
      rcases hnames c List.mem_cons_self with ⟨names, hc⟩
      have ih := ih fun d hd => hnames d (List.mem_cons_of_mem _ hd)
      unfold armUnits
      rw [if_neg List.not_mem_nil, hc, always_bind, always_fromExcept, andThen_ok]
      split
      · rw [always_bind]
        exact always_plain rfl hs fun v => ih
      · rw [always_bind]
        refine always_plain rfl hs fun v => ?_
        rw [andThen_ok, always_bind]
        exact always_plain rfl hs fun v => ih

theorem always_planAgain (hwf : ∀ c ∈ previous.connections, c.WellFormed) {todo : List Connection}
    {Q : Except Exc (List PlannedConnection) → Disk → Prop} (hs : 2 ≤ s.saves)
    (hsub : ∀ c ∈ todo, c ∈ previous.connections)
    (hnames : ∀ c ∈ todo, ∃ names, namesOf c = .ok names) (hok : ∀ v, Q (.ok v) s) :
    Always (rollbackMachine env previous) (plan todo) Q s := by
  -- From the second save on nothing refuses any more.
  have hlate : ∀ {P : Prop}, s.saves < 2 → P := fun h => by omega
  induction todo generalizing Q with
  | nil => exact hok []
  | cons c todo ih =>
      have hc := hsub c List.mem_cons_self
      rcases hnames c List.mem_cons_self with ⟨names, hcn⟩
      rcases mountpointOf_of_namesOf hcn with ⟨mountpoint, -, hmo⟩
      unfold plan
      rw [always_bind]
      unfold planOne
      rw [hcn, always_bind, always_fromExcept, andThen_ok, always_bind]
      -- Whether there are credentials is read, and changes nothing of the plan.
      have hpresent : ∀ {Q : Except Exc Bool → Disk → Prop}, (∀ v, Q (.ok v) s) →
          Always (rollbackMachine env previous) (hasCredentials c) Q s := by
        intro Q hQ
        unfold hasCredentials
        cases href : truthy c.credentialRef with
        | none => exact hQ false
        | some ref =>
            exact always_credentialsExist (truthy_wellFormed (hwf c hc) href)
              (fun h => hlate h) (hQ _)
      refine hpresent fun there => ?_
      rw [andThen_ok, hmo, always_bind, always_fromExcept, andThen_ok, always_bind]
      refine always_plain rfl hs fun state => ?_
      rw [andThen_ok, always_bind]
      refine always_foreignOccupant hc hcn hs ?_
      rw [andThen_ok, always_pure, andThen_ok, always_bind]
      refine ih (fun d hd => hsub d (List.mem_cons_of_mem _ hd))
        (fun d hd => hnames d (List.mem_cons_of_mem _ hd)) fun rest => ?_
      exact hok _

/-- Whatever units there are, the second apply makes of them what
    `reapplied` says. -/
theorem always_reapply (hwf : ∀ c ∈ previous.connections, c.WellFormed)
    (hre : Reapplies env previous)
    {Q : Except Exc (List PlannedConnection) → Disk → Prop} (hs : 2 ≤ s.saves)
    (hok : ∀ v, Q (.ok v) { s with units := reapplied env previous updated s.units }) :
    Always (rollbackMachine env previous) (mounterApply previous (some updated)) Q s := by
  -- Every connection had names when it was applied before.
  have hnames : ∀ c ∈ previous.connections, ∃ names, namesOf c = .ok names := fun c hc => by
    rcases hre c hc with ⟨names, hn, -⟩
    exact ⟨names, hn⟩
  unfold mounterApply
  rw [always_bind]
  refine always_prepareAgain hwf hre hs (fun _ hc => hc) fun wanted hwanted => ?_
  rw [andThen_ok, always_bind]
  unfold removeStaleUnits
  rw [always_bind]
  refine (always_call .iterUnits _).mpr fun ans s' hM => ?_
  rcases hM with ⟨rfl, ⟨listed, rfl, hlisted⟩ | ⟨hfirst, -⟩⟩
  · rw [andThen_ok]
    refine always_sweepAgain hs fun removed => ?_
    -- What is left is what writing all and sweeping leaves.
    rw [swept_writeAll hwanted hlisted, andThen_ok, always_bind]
    have hreload : ∀ {condition : Bool} {Q : Except Exc Unit → Disk → Prop} {s : Disk},
        2 ≤ s.saves → Q (.ok ()) s → Always (rollbackMachine env previous)
          (onlyIf condition (call (.systemctl .daemonReload))) Q s := by
      intro condition Q s hs hQ
      cases condition with
      | true => exact always_plain rfl hs fun v => hQ
      | false => exact hQ
    refine hreload hs ?_
    rw [andThen_ok, always_bind]
    refine always_armAgain hs hnames ?_
    rw [andThen_ok]
    exact always_planAgain hwf hs (fun _ hc => hc) hnames hok
  · -- The units can be listed, once there have been two saves.
    exact absurd hfirst (Nat.not_lt.mpr hs)

end Again

end Reapply

end Smbpal
