import Smbpal.Daemon.Reapply
import Smbpal.Daemon.Edits

/-!
# Undoing a Failed Commit

On Linux a commit that fails while it applies goes back: it stores the previous
document and applies that. The second apply does not know how far the first one
got, so whatever the first one wrote and removed has to be within its reach.

It is within reach when the mountpoint a new unit is read back with is one of
the mountpoints the two documents speak of. A mountpoint that ends in a space is
not: it is read back without it, so the unit stays. And a unit file that was
there already under that name, SMBPal's own but of a mountpoint in neither
document, is overwritten and then removed. `Clean` says neither happens, and
`rollback_restores_iff` that it is exactly when a failed commit leaves the units
as they were.

## Main definitions

* `CommitRaising`: A commit whose first apply raises.

## Theorems

* `always_firstApply`: What the first apply leaves, however far it got.
* `commitRaising_leaves`: What a commit that raises leaves.
* `commitRaising_reaches`: It can raise after writing any unit in reach.
* `rollback_restores_iff`: A failed commit restores exactly when it is clean.
* `unit_left_behind`: A mountpoint that ends in a space.
-/

namespace Smbpal

open Lib Program

section Rollback

variable [Unicode]

/-- A commit saves, its first apply raises `e`, and what it does then ends with
    `r`. -/
def CommitRaising (M : Machine daemonSig Disk) (d : Dispatcher) (previous updated : Config)
    (s : Disk) (e : Exc) (r : Except Exc Unit) (s' : Disk) : Prop :=
  ∃ s₁ s₂, Exec M (save updated) s (.ok ()) s₁ ∧
    Exec M (applyAll d (d.applies previous updated) updated previous) s₁ (.error e) s₂ ∧
      Exec M (rollBack d (d.applies previous updated) previous updated e) s₂ r s'

section First

variable {env : Accounts} {previous updated : Config} {s s₀ : Disk} {α : Type}

omit [Unicode] in
theorem absolute_ne {path : Str} (h : startsWith path "/" = true) : path ≠ str "." := by
  rintro rfl
  exact absurd h (by decide)

omit [Unicode] in
/-- Normalising keeps an absolute path absolute. -/
theorem normpath_absolute {path : Str} (h : startsWith path "/" = true) :
    startsWith (normpath path) "/" = true := by
  have hslashes : ∀ slashes comps : Str, startsWith slashes "/" = true →
      startsWith (if slashes ++ comps = [] then str "." else slashes ++ comps) "/" = true := by
    intro slashes comps hs
    rcases List.isPrefixOf_iff_prefix.mp hs with ⟨rest, rfl⟩
    rw [if_neg fun hnil => absurd (List.append_eq_nil_iff.mp hnil).1
      fun hnil => absurd (List.append_eq_nil_iff.mp hnil).1 (by decide)]
    exact List.isPrefixOf_iff_prefix.mpr (List.append_assoc _ _ _ ▸ List.prefix_append _ _)
  unfold normpath
  refine hslashes _ _ ?_
  by_cases htwo : (startsWith path "//" && !startsWith path "///") = true
  · rw [if_pos htwo]
    decide
  · rw [if_neg htwo, if_pos h]
    decide

omit [Unicode] in
/-- The place of a unit that cannot be read is in no document. -/
theorem mayRemove_unread (hprev : ∀ c ∈ previous.connections, c.WellFormed)
    (hupd : ∀ c ∈ updated.connections, c.WellFormed) :
    mayRemove (untouched updated (some previous)) none = false := by
  refine decide_eq_false fun h => ?_
  rcases List.mem_map.mp h with ⟨m, hm, hplace⟩
  rcases List.mem_filterMap.mp hm with ⟨c, hc, htruthy⟩
  have hwf : c.WellFormed := (List.mem_append.mp hc).elim (hupd c) (hprev c)
  have hmount : c.mountpoint = some m := by
    unfold truthy at htruthy
    split at htruthy
    · rename_i v hv
      split at htruthy
      · exact nomatch htruthy
      · rw [hv]
        exact htruthy
    · exact nomatch htruthy
  -- A mountpoint is absolute, and so is what normalising makes of it.
  have hempty : normpath [] = str "." := by decide
  rw [Option.getD_none, hempty] at hplace
  exact absolute_ne (normpath_absolute (hwf.mountpoint m hmount).absolute) hplace

/-- The first apply, at some point: the config is stored, and the units are
    touched at most. -/
def Going (env : Accounts) (previous updated : Config) (s₀ s : Disk) : Prop :=
  s.config = s₀.config ∧ s.saves = s₀.saves ∧ Touched env previous updated s₀.units s.units

omit [Unicode] in
theorem going_write {c : Connection} {name text : Str} (h : Going env previous updated s₀ s)
    (hreach : Reaches env updated c name text) :
    Going env previous updated s₀ (s.put name (some text)) := by
  refine ⟨h.1, h.2.1, fun other => ?_⟩
  unfold Disk.put
  by_cases hother : other = name
  · rw [hother]
    exact Or.inr (Or.inl ⟨c, text, hreach, Function.update_self _ _ _⟩)
  · dsimp only
    rw [Function.update_of_ne hother]
    exact h.2.2 other

omit [Unicode] in
theorem going_unlink {name text : Str} (h : Going env previous updated s₀ s)
    (hnone : UnitOfNone updated.connections name) (hfile : s.units name = some text)
    (hours : IsOurs name text) (hbelongs : Belongs previous updated text) :
    Going env previous updated s₀ (s.put name none) := by
  refine ⟨h.1, h.2.1, fun other => ?_⟩
  unfold Disk.put
  by_cases hother : other = name
  · rw [hother]
    refine Or.inr (Or.inr ⟨Function.update_self _ _ _, hnone, text, ?_, hours, hbelongs⟩)
    -- It is nobody's unit, so it was not written, and it is still there.
    rcases h.2.2 name with hsame | ⟨c, written, hreach, -⟩ | ⟨hgone, -⟩
    · exact hsame.symm.trans hfile
    · exact absurd hreach.unitText.2.unitOf (hnone c hreach.unitText.1)
    · rw [hgone] at hfile
      exact nomatch hfile
  · dsimp only
    rw [Function.update_of_ne hother]
    exact h.2.2 other

/-- The end of a part of the first apply. -/
def GoesOn {α : Type} (env : Accounts) (previous updated : Config) (s₀ : Disk)
    (_ : Except Exc α) (s : Disk) : Prop :=
  Going env previous updated s₀ s

omit [Unicode] in
theorem performs_still {op : DaemonOp} (hop : isStill op = true) :
    Performs (S := daemonSig) (fun op => isStill op = true) (call op) :=
  footprint_call hop fun _ => trivial

theorem performs_foreignOccupant (c : Connection) :
    Performs (S := daemonSig) (fun op => isStill op = true) (foreignOccupant c) :=
  performs_bind ((footprint_fromExcept _).mpr fun _ _ => trivial) fun _ =>
    performs_bind (performs_still rfl) fun _ => trivial

/-- The first loop of the first apply, from any point of it. -/
theorem always_prepareFirst (hupd : ∀ c ∈ updated.connections, c.WellFormed)
    {before todo : List Connection} (hsplit : updated.connections = before ++ todo)
    (hbefore : ∀ b ∈ before, ∃ names, namesOf b = .ok names) (h : Going env previous updated s₀ s) :
    Always (rollbackMachine env previous) (prepareUnits todo)
    (GoesOn env previous updated s₀) s := by
  induction todo generalizing before s with
  | nil => exact h
  | cons c todo ih =>
      have hmem : c ∈ updated.connections := hsplit ▸ List.mem_append_right _ List.mem_cons_self
      have hsplit' : updated.connections = (before ++ [c]) ++ todo := by
        rw [hsplit, List.append_assoc]
        rfl
      unfold prepareUnits
      refine always_check (fun e => h) fun names hnames => ?_
      -- The connections before this one had names, and so has this one.
      have hbefore' : ∀ b ∈ before ++ [c], ∃ names, namesOf b = .ok names := by
        intro b hb
        rcases List.mem_append.mp hb with hb | hb
        · exact hbefore b hb
        · rw [List.mem_singleton.mp hb]
          exact ⟨names, hnames⟩
      -- Wherever the rest of them stops, it has gone on from here.
      have hrest : ∀ {s : Disk} {f : List Str × List (Option Str) → DaemonM
        (List Str × List (Option Str))},
          Going env previous updated s₀ s → (∀ rest, ∃ v, f rest = pure v) →
          Always (rollbackMachine env previous) (prepareUnits todo >>= f)
            (GoesOn env previous updated s₀) s := by
        intro s f hs hf
        rw [always_bind]
        refine always_mono (ih hsplit' hbefore' hs) fun r s' hr => ?_
        cases r with
        | error e => exact hr
        | ok rest =>
            rcases hf rest with ⟨v, hv⟩
            rw [andThen_ok, hv]
            exact hr
      rw [always_bind]
      refine always_still (performs_foreignOccupant c) fun r => ?_
      cases r with
      | error e => exact h
      | ok intruder =>
          rw [andThen_ok]
          cases intruder with
          -- Something else is mounted there, so no unit is written.
          | some entry => exact hrest h fun rest => ⟨_, rfl⟩
          | none =>
              dsimp only
              rw [always_bind]
              unfold writeUnits
              refine always_check (fun e => h) fun mountpoint hm => ?_
              rw [always_bind]
              refine always_still (performs_still rfl) fun r => ?_
              cases r with
              | error e => exact h
              | ok v =>
                  rw [andThen_ok, always_bind]
                  refine always_credentialsPath (hupd c hmem) (fun _ e => h) ?_
                  rw [andThen_ok, always_bind]
                  refine always_ownerIds (fun _ e => h) ?_
                  rw [andThen_ok, always_bind]
                  -- The mount unit is reached first, and the automount unit only behind it.
                  have hreach₁ : encode (mountText env c) ≠ none →
                      Reaches env updated c names.1 (mountText env c) := fun hencode =>
                    ⟨before, todo, hsplit, hbefore, names, hnames, hencode, Or.inl ⟨rfl, rfl⟩⟩
                  refine always_writeUnit (fun _ e => h)
                    (fun hencode _ e => going_write h (hreach₁ hencode)) fun hmount => ?_
                  have h₁ := going_write h (hreach₁ hmount)
                  have hreach₂ : encode (automountUnit c) ≠ none →
                      Reaches env updated c names.2 (automountUnit c) := fun hencode =>
                    ⟨before, todo, hsplit, hbefore, names, hnames, hmount,
                      Or.inr ⟨rfl, rfl, hencode⟩⟩
                  rw [andThen_ok]
                  refine always_writeUnit (fun _ e => h₁)
                    (fun hencode _ e => going_write h₁ (hreach₂ hencode)) fun hauto => ?_
                  rw [andThen_ok]
                  exact hrest (going_write h₁ (hreach₂ hauto)) fun rest => ⟨_, rfl⟩

theorem always_readFirst {name : Str} {Q : Except Exc (Option Str) → Disk → Prop}
    (hraise : ∀ e, Q (.error e) s) (hnone : Q (.ok none) s)
    (hsome : ∀ text, s.units name = some text → Q (.ok (some text)) s) :
    Always (rollbackMachine env previous) (readUnit name) Q s := by
  unfold readUnit
  rw [always_catching, always_bind]
  have herror : ∀ e, orCatch (rollbackMachine env previous) Exc.isOS (fun _ => pure none) Q
      (.error e) s := by
    intro e
    rw [orCatch_error]
    split
    · exact hnone
    · exact hraise e
  refine (always_call (.readUnit name) _).mpr fun ans s' hM => ?_
  rcases hM with ⟨rfl, ⟨text, htext, ⟨v, rfl, rfl⟩ | ⟨-, e, rfl⟩⟩ | ⟨-, e, rfl, -⟩⟩
  · exact hsome _ htext
  · exact herror e
  · exact herror e

/-- The body of the sweep in the first apply. -/
theorem always_removeFirst (hprev : ∀ c ∈ previous.connections, c.WellFormed)
    (hupd : ∀ c ∈ updated.connections, c.WellFormed) {name : Str}
    (hname : isUnitFile name = true) (hnone : UnitOfNone updated.connections name)
    (h : Going env previous updated s₀ s) :
    Always (rollbackMachine env previous) (removeIfStale (untouched updated (some previous)) name)
      (GoesOn env previous updated s₀) s := by
  unfold removeIfStale
  rw [always_bind]
  refine always_readFirst (fun e => h) ?_ fun text htext => ?_
  · exact h
  · rw [andThen_ok]
    by_cases hmarker : contains marker text = true
    · rw [Option.getD_some, if_pos hmarker, always_bind]
      refine always_readFirst (fun e => h) ?_ fun again hagain => ?_
      · -- The second reading failed, so where it mounts is not known.
        rw [andThen_ok, Option.bind_none]
        dsimp only
        rw [mayRemove_unread hprev hupd]
        exact h
      · -- The second reading gave the same text.
        rw [htext, Option.some.injEq] at hagain
        subst hagain
        rw [andThen_ok, Option.bind_some]
        dsimp only
        by_cases hremove : mayRemove (untouched updated (some previous)) (whereOf text) = true
        · rw [if_pos hremove, always_bind]
          -- Standing down asks systemd alone.
          have hstand : Performs (S := daemonSig) (fun op => isStill op = true)
              (standDown name (whereOf text)) := by
            unfold standDown
            split
            · exact performs_bind (performs_still rfl) fun _ => trivial
            · refine performs_bind (performs_still rfl) fun _ => ?_
              split
              · exact (footprint_pure _).mpr trivial
              · exact performs_bind (performs_still rfl) fun _ => trivial
          refine always_still hstand fun r => ?_
          cases r with
          | error e => exact h
          | ok busy =>
              rw [andThen_ok]
              cases busy with
              | true => exact h
              | false =>
                  rw [if_neg Bool.false_ne_true]
                  have hgone := going_unlink h hnone htext ⟨hname, hmarker⟩ hremove
                  have hrest : ∀ {gone : Bool} {s : Disk}, Going env previous updated s₀ s →
                      Always (rollbackMachine env previous) _ (GoesOn env previous updated s₀) s :=
                    fun {gone s} hs => always_still
                      (footprint_afterUnlink (fun _ => rfl) (whereOf text) gone) fun r => hs
                  unfold unlinkUnit
                  rw [always_bind, always_catching, always_bind]
                  refine (always_call (.unlinkUnit name) _).mpr fun ans s' hM => ?_
                  -- The file is gone, or could not be removed.
                  have hs' : Going env previous updated s₀ s' := by
                    rcases hM with ⟨rfl, -⟩ | ⟨-, -, rfl⟩
                    · exact hgone
                    · exact h
                  cases ans with
                  | ok v => exact hrest hs'
                  | error e =>
                      rw [andThen_error, orCatch_error]
                      split
                      · exact hrest hs'
                      · exact hs'
        · rw [if_neg hremove]
          exact h
    · rw [Option.getD_some, if_neg hmarker]
      exact h

theorem always_sweepFirst (hprev : ∀ c ∈ previous.connections, c.WellFormed)
    (hupd : ∀ c ∈ updated.connections, c.WellFormed) {wanted : List Str}
    (hwanted : ∀ c ∈ updated.connections, ∀ name, UnitOf c name → name ∈ wanted) (names : List Str)
    (h : Going env previous updated s₀ s) :
    Always (rollbackMachine env previous)
      (removeStaleFrom wanted (untouched updated (some previous)) names)
      (GoesOn env previous updated s₀) s := by
  induction names generalizing s with
  | nil => exact h
  | cons name names ih =>
      unfold removeStaleFrom
      split
      · rename_i hname
        -- A name that is not wanted is a unit of no connection.
        have hnone : UnitOfNone updated.connections name := fun c hc hunit =>
          hname.2 (hwanted c hc name hunit)
        rw [always_bind]
        refine always_mono (always_removeFirst hprev hupd hname.1 hnone h) fun r s' hr => ?_
        cases r with
        | error e => exact hr
        | ok gone =>
            rw [andThen_ok, always_bind]
            refine always_mono (ih hr) fun r' s'' hr' => ?_
            cases r' with
            | error e => exact hr'
            | ok removed => exact hr'
      · exact ih h

omit [Unicode] in
theorem performs_armUnits (blocked : List (Option Str)) (todo : List Connection) :
    Performs (S := daemonSig) (fun op => isStill op = true) (armUnits blocked todo) := by
  induction todo with
  | nil => exact (footprint_pure _).mpr trivial
  | cons c todo ih =>
      unfold armUnits
      split
      · exact ih
      · refine performs_bind ((footprint_fromExcept _).mpr fun _ _ => trivial) fun names => ?_
        split
        · exact performs_bind (performs_still rfl) fun _ => ih
        · exact performs_bind (performs_still rfl) fun _ =>
            performs_bind (performs_still rfl) fun _ => ih

theorem performs_plan (todo : List Connection) :
    Performs (S := daemonSig) (fun op => isStill op = true) (plan todo) := by
  have hexist : ∀ ref, Performs (S := daemonSig) (fun op => isStill op = true)
      (credentialsExist ref) :=
    fun ref => performs_bind ((footprint_fromExcept _).mpr fun _ _ => trivial) fun _ =>
      performs_still rfl
  have hpresent : ∀ c, Performs (S := daemonSig) (fun op => isStill op = true)
      (hasCredentials c) := by
    intro c
    unfold hasCredentials
    split
    · exact (footprint_pure _).mpr trivial
    · exact hexist _
  induction todo with
  | nil => exact (footprint_pure _).mpr trivial
  | cons c todo ih =>
      refine performs_bind ?_ fun _ => performs_bind ih fun _ => (footprint_pure _).mpr trivial
      refine performs_bind ((footprint_fromExcept _).mpr fun _ _ => trivial) fun names => ?_
      refine performs_bind (hpresent c) fun there => ?_
      refine performs_bind ((footprint_fromExcept _).mpr fun _ _ => trivial) fun mountpoint => ?_
      refine performs_bind (performs_still rfl) fun state => ?_
      exact performs_bind (performs_foreignOccupant c) fun _ => (footprint_pure _).mpr trivial

/-- However far the first apply gets, it leaves the units touched at most. -/
theorem always_firstApply (hprev : ∀ c ∈ previous.connections, c.WellFormed)
    (hupd : ∀ c ∈ updated.connections, c.WellFormed) (h : Going env previous updated s₀ s) :
    Always (rollbackMachine env previous) (mounterApply updated (some previous))
      (GoesOn env previous updated s₀) s := by
  unfold mounterApply
  rw [always_bind]
  refine always_mono (always_footprint (footprint_prepareUnits fun _ hc => hc)
    (always_prepareFirst hupd rfl (fun b hb => absurd hb List.not_mem_nil) h)) ?_
  rintro r s₁ ⟨h₁, hwanted⟩
  cases r with
  | error e => exact h₁
  | ok prepared =>
      rw [andThen_ok, always_bind]
      unfold removeStaleUnits
      rw [always_bind]
      refine always_still (performs_still rfl) fun r => ?_
      cases r with
      | error e => exact h₁
      | ok listed =>
          rw [andThen_ok]
          -- Only the sweep removes files, and it is still going on where it stops.
          refine always_mono (always_sweepFirst hprev hupd (hwanted prepared rfl) listed h₁) ?_
          intro r s₂ h₂
          cases r with
          | error e => exact h₂
          | ok removed =>
              rw [andThen_ok]
              refine always_still ?_ fun r => h₂
              refine performs_bind (footprint_onlyIf fun _ => performs_still rfl) fun _ => ?_
              exact performs_bind (performs_armUnits _ _) fun _ => performs_plan _

end First

section Raising

variable {env : Accounts} {previous updated : Config} {s : Disk} {d : Dispatcher}

/-- A directory has finitely many files. -/
def Listed (units : Str → Option Str) : Prop :=
  ∃ names : List Str, ∀ name, units name ≠ none → name ∈ names

omit [Unicode] in
theorem listed_update {units : Str → Option Str} (name : Str) (file : Option Str)
    (h : Listed units) : Listed (Function.update units name file) := by
  rcases h with ⟨names, hnames⟩
  refine ⟨name :: names, fun other hother => ?_⟩
  by_cases hsame : other = name
  · rw [hsame]
    exact List.mem_cons_self
  · rw [Function.update_of_ne hsame] at hother
    exact List.mem_cons_of_mem _ (hnames other hother)

/-- Every operation has an answer. -/
theorem rollbackMachine_total (op : DaemonOp) (s : Disk) (h : Listed s.units) :
    ∃ ans s', rollbackMachine env previous op s ans s' ∧ Listed s'.units := by
  cases op
  -- The calls that the machine says something about each have an answer.
  case load => exact ⟨_, s, ⟨storeLoad_loadFrom s.config, rfl⟩, h⟩
  case save doc =>
    exact ⟨_, { s with config := (saveOver doc s.config).2, saves := s.saves + 1 },
      ⟨storeSave_saveOver doc s.config, fun hv => congrArg Prod.fst (saveOver_valid hv s.config),
        rfl, rfl⟩, h⟩
  case writeUnit name text =>
    by_cases hencode : encode text = none
    · exact ⟨.error .exception, s, Or.inr ⟨Or.inl hencode, ⟨_, rfl⟩, rfl⟩, h⟩
    · exact ⟨.ok (), s.put name (some text), Or.inl ⟨hencode, rfl, Or.inl ⟨_, rfl, trivial⟩⟩,
        listed_update _ _ h⟩
  case unlinkUnit name =>
    exact ⟨.ok (), s.put name none, Or.inl ⟨rfl, Or.inl ⟨_, rfl, trivial⟩⟩, listed_update _ _ h⟩
  case iterUnits =>
    rcases h with ⟨names, hnames⟩
    exact ⟨.ok names, s, ⟨rfl, Or.inl ⟨names, rfl, hnames⟩⟩, names, hnames⟩
  case readUnit name =>
    cases hfile : s.units name with
    | none => exact ⟨.error (.os []), s, ⟨rfl, Or.inr ⟨hfile, _, rfl, fun _ => rfl⟩⟩, h⟩
    | some text => exact ⟨.ok text, s, ⟨rfl, Or.inl ⟨text, hfile, Or.inl ⟨text, rfl, rfl⟩⟩⟩, h⟩
  case isMounted m =>
    exact ⟨.ok none, s, ⟨rfl, Or.inl ⟨none, rfl, fun _ => by decide⟩⟩, h⟩
  case occupant m => exact ⟨.ok none, s, ⟨rfl, Or.inl ⟨none, rfl, fun _ _ _ _ => rfl⟩⟩, h⟩
  case credentialsExists ref => exact ⟨.ok (env.present ref), s, ⟨rfl, Or.inl ⟨_, rfl, rfl⟩⟩, h⟩
  case getpwnam name => exact ⟨.ok (env.passwd name), s, ⟨rfl, Or.inl ⟨_, rfl, rfl⟩⟩, h⟩
  case unmanagedShares l => exact ⟨.ok [], s, ⟨rfl, Or.inl ⟨_, rfl, trivial⟩⟩, h⟩
  case getpwuid uid => exact ⟨.ok none, s, ⟨rfl, Or.inl ⟨_, rfl, trivial⟩⟩, h⟩
  case occupiedMountpoints => exact ⟨.ok [], s, ⟨rfl, Or.inl ⟨_, rfl, trivial⟩⟩, h⟩
  case probeState m => exact ⟨.ok [], s, ⟨rfl, Or.inl ⟨_, rfl, trivial⟩⟩, h⟩
  case smbUrl host share => exact ⟨.ok [], s, ⟨rfl, Or.inl ⟨_, rfl, trivial⟩⟩, h⟩
  case credentialSet => exact ⟨.ok .created, s, ⟨rfl, Or.inl ⟨_, rfl, trivial⟩⟩, h⟩
  case agentMount => exact ⟨.ok [], s, ⟨rfl, Or.inl ⟨_, rfl, trivial⟩⟩, h⟩
  case agentUnmount => exact ⟨.ok false, s, ⟨rfl, Or.inl ⟨_, rfl, trivial⟩⟩, h⟩
  case agentRelease =>
    exact ⟨.ok { unmounted := [], left := [] }, s, ⟨rfl, Or.inl ⟨_, rfl, trivial⟩⟩, h⟩
  -- Any other call may answer anything.
  all_goals exact ⟨.ok (), s, ⟨rfl, Or.inl ⟨_, rfl, trivial⟩⟩, h⟩

theorem exec_credentialsPath {c : Connection} (hc : c.WellFormed) :
    Exec (rollbackMachine env previous) (credentialsPath c) s
    (.ok (credentialsPathIn env c)) s := by
  unfold credentialsPath credentialsPathIn
  cases href : truthy c.credentialRef with
  | none => exact Exec.ret _ s
  | some ref =>
      have hpath : pathFor ref = .ok (str "/etc/smbpal/credentials/" ++ ref) :=
        if_pos (truthy_wellFormed hc href)
      have hexist : Exec (rollbackMachine env previous) (credentialsExist ref) s
          (.ok (env.present ref)) s :=
        exec_check hpath (exec_call ⟨rfl, Or.inl ⟨_, rfl, rfl⟩⟩)
      refine exec_bind hexist ?_
      dsimp only
      cases env.present ref with
      | true =>
          rw [if_pos rfl, if_pos rfl]
          exact exec_check hpath (Exec.ret _ s)
      | false =>
          rw [if_neg Bool.false_ne_true, if_neg Bool.false_ne_true]
          exact Exec.ret _ s

theorem exec_ownerIds (c : Connection) :
    Exec (rollbackMachine env previous) (ownerIds c) s (.ok (ownerIdsIn env c)) s := by
  unfold ownerIds ownerIdsIn
  cases truthy c.owner with
  | none => exact Exec.ret _ s
  | some owner => exact exec_call ⟨rfl, Or.inl ⟨_, rfl, rfl⟩⟩

/-- In the first apply anybody may hold a mountpoint, or nobody. -/
theorem exec_foreignOccupant {c : Connection} {names : Str × Str} (hnames : namesOf c = .ok names)
    (hs : s.saves < 2) (entry : Option MountEntry) :
    Exec (rollbackMachine env previous) (foreignOccupant c) s (.ok (foreignMount entry c)) s := by
  rcases mountpointOf_of_namesOf hnames with ⟨mountpoint, -, hm⟩
  refine exec_check hm (exec_bind (a := entry) (exec_call ⟨rfl, Or.inl ⟨_, rfl, ?_⟩⟩)
    (Exec.ret _ s))
  exact fun h => absurd hs (Nat.not_lt.mpr h)

theorem exec_writeUnit_raises {name text : Str} (hs : s.saves < 2) (hencode : encode text ≠ none) :
    Exec (rollbackMachine env previous) (writeUnit name text) s (.error .exception)
      (s.put name (some text)) :=
  exec_catching_pass (exec_call (Or.inl ⟨hencode, rfl, Or.inr ⟨hs, _, rfl⟩⟩)) rfl

theorem exec_writeUnit {name text : Str} (hencode : encode text ≠ none) :
    Exec (rollbackMachine env previous) (writeUnit name text) s (.ok ()) (s.put name (some text)) :=
  exec_catching_ok (exec_call (Or.inl ⟨hencode, rfl, Or.inl ⟨_, rfl, trivial⟩⟩))

/-- The first apply may raise right after writing any unit it can reach. -/
theorem exec_prepare_raises {c : Connection} {name text : Str} {before after : List Connection}
    (hc : c.WellFormed) (hbefore : ∀ b ∈ before, ∃ names, namesOf b = .ok names) {names : Str × Str}
    (hnames : namesOf c = .ok names) (hmount : encode (mountText env c) ≠ none)
    (hunit : (name = names.1 ∧ text = mountText env c) ∨
      (name = names.2 ∧ text = automountUnit c ∧ encode text ≠ none))
    (hs : s.saves < 2) (hlisted : Listed s.units) :
    ∃ s', Exec (rollbackMachine env previous) (prepareUnits (before ++ c :: after)) s
      (.error .exception) s' ∧ s'.units name = some text ∧ s'.saves = s.saves ∧
      Listed s'.units := by
  induction before with
  | nil =>
      rcases mountpointOf_of_namesOf hnames with ⟨mountpoint, -, hm⟩
      have hreach : ∀ {s' : Disk}, Exec (rollbackMachine env previous)
          (do writeUnit names.1 (mountText env c); writeUnit names.2 (automountUnit c)) s
            (.error .exception) s' →
          Exec (rollbackMachine env previous) (prepareUnits (c :: after)) s
          (.error .exception) s' := by
        intro s' hwrite
        refine exec_check hnames (exec_bind (exec_foreignOccupant hnames hs none) ?_)
        refine exec_bind_error (exec_check hm ?_)
        refine exec_bind (a := ()) (exec_call ⟨rfl, Or.inl ⟨_, rfl, trivial⟩⟩) ?_
        exact exec_bind (exec_credentialsPath hc) (exec_bind (exec_ownerIds c) hwrite)
      rcases hunit with ⟨rfl, rfl⟩ | ⟨rfl, rfl, hencode⟩
      · exact ⟨_, hreach (exec_bind_error (exec_writeUnit_raises hs hmount)),
          Function.update_self _ _ _, rfl, listed_update _ _ hlisted⟩
      · refine ⟨_, hreach (exec_bind (exec_writeUnit hmount) (exec_writeUnit_raises hs hencode)),
          Function.update_self _ _ _, rfl, listed_update _ _ (listed_update _ _ hlisted)⟩
  | cons b before ih =>
      rcases hbefore b List.mem_cons_self with ⟨bnames, hb⟩
      rcases ih fun b' hb' => hbefore b' (List.mem_cons_of_mem _ hb') with ⟨s', hx, hrest⟩
      -- The mountpoint of an earlier connection is held by something else.
      have hheld : foreignMount (some ⟨[], []⟩) b = some ⟨[], []⟩ := by
        unfold foreignMount
        exact if_pos (by decide)
      have hintruder : Exec (rollbackMachine env previous) (foreignOccupant b) s
          (.ok (foreignMount (some ⟨[], []⟩) b)) s :=
        exec_foreignOccupant hb hs (some ⟨[], []⟩)
      rw [hheld] at hintruder
      exact ⟨s', exec_check hb (exec_bind hintruder (exec_bind_error hx)), hrest⟩

/-- What undoing a commit leaves. -/
theorem always_rollBack (hm : d.mounter = true) (hvalid : previous.Valid)
    (hre : Reapplies env previous) (hs : s.saves = 1) (applies : Bool) (e : Exc) :
    Always (rollbackMachine env previous) (rollBack d applies previous updated e)
      (fun r s' => r = .error e ∧ s'.config = previous ∧
        s'.units = reapplied env previous updated s.units) s := by
  unfold rollBack
  rw [always_bind]
  refine (always_call (.save previous) _).mpr fun ans s₁ hM => ?_
  rcases hM with ⟨hsave, hworks, hunits, hsaves⟩
  rcases storeSave_cases hsave with ⟨rfl, -, hconfig⟩ | ⟨⟨e', rfl⟩, -⟩
  · -- This is the second save, behind which nothing refuses.
    have hs₁ : 2 ≤ s₁.saves := by omega
    rw [andThen_ok, always_bind, always_catching]
    unfold applyAll
    rw [always_bind, hm]
    have hmounter : ∀ {Q : Except Exc Unit → Disk → Prop},
        Q (.ok ()) { s₁ with units := reapplied env previous updated s₁.units } →
        Always (rollbackMachine env previous)
          (onlyIf true (do let _ ← mounterApply previous (some updated); pure ())) Q s₁ := by
      intro Q hQ
      unfold onlyIf
      rw [if_pos rfl, always_bind]
      exact always_reapply hvalid.sound.connections hre hs₁ fun v => hQ
    have hend : ∀ {Q : Except Exc Unit → Disk → Prop}, Q (.ok ()) s₁ →
        Always (rollbackMachine env previous) (onlyIf applies
        (call (.applierApply previous))) Q s₁ := by
      intro Q hQ
      cases applies with
      | true => exact always_plain rfl hs₁ fun v => hQ
      | false => exact hQ
    refine hend ?_
    rw [andThen_ok]
    refine hmounter ?_
    rw [orCatch_ok, andThen_ok]
    exact ⟨rfl, hconfig, congrArg (reapplied env previous updated) hunits⟩
  · -- The document before was valid, so its save works.
    exact nomatch hworks hvalid

/-- What the first apply of a commit leaves. -/
theorem always_applyFirst (hprev : ∀ c ∈ previous.connections, c.WellFormed)
    (hupd : ∀ c ∈ updated.connections, c.WellFormed) (applies : Bool) :
    Always (rollbackMachine env previous) (applyAll d applies updated previous)
      (GoesOn env previous updated s) s := by
  have hstart : Going env previous updated s s := ⟨rfl, rfl, touched_refl _⟩
  unfold applyAll
  rw [always_bind]
  refine always_still (footprint_onlyIf fun _ => performs_still rfl) fun r => ?_
  cases r with
  | error e => exact hstart
  | ok u =>
      rw [andThen_ok]
      unfold onlyIf
      split
      · rw [always_bind]
        refine always_mono (always_firstApply hprev hupd hstart) fun r s' hr => ?_
        cases r with
        | error e => exact hr
        | ok planned => exact hr
      · exact hstart

/-- The state in which a commit starts. -/
def diskOf (previous : Config) (units : Str → Option Str) : Disk :=
  { config := previous, units := units, saves := 0 }

/-- A commit whose first apply raises leaves what applying the previous document
    again makes of touched units. -/
theorem commitRaising_leaves {units : Str → Option Str} {e : Exc} {r : Except Exc Unit} {s' : Disk}
    (hm : d.mounter = true) (hprev : previous.Valid) (hupd : updated.Valid)
    (hre : Reapplies env previous)
    (h : CommitRaising (rollbackMachine env previous) d previous updated
    (diskOf previous units) e r s') :
    r = .error e ∧ s'.config = previous ∧ ∃ after, Touched env previous updated units after ∧
      s'.units = reapplied env previous updated after := by
  rcases h with ⟨s₁, s₂, hsave, happly, hback⟩
  have hfirst : s₁.units = units ∧ s₁.saves = 1 := by
    have hall : Always (rollbackMachine env previous) (save updated)
        (fun _ s₁ => s₁.units = units ∧ s₁.saves = 1) (diskOf previous units) :=
      (always_call (.save updated) _).mpr fun ans s₁ hM => ⟨hM.2.2.1, hM.2.2.2⟩
    exact always_exec hall hsave
  have hgoing := always_exec
    (always_applyFirst hprev.sound.connections hupd.sound.connections _) happly
  have hundone := always_exec (always_rollBack hm hprev hre (hgoing.2.1.trans hfirst.2) _ e) hback
  refine ⟨hundone.1, hundone.2.1, s₂.units, ?_, hundone.2.2⟩
  rw [← hfirst.1]
  exact hgoing.2.2

/-- A commit can fail right after writing any unit it can reach. -/
theorem commitRaising_reaches {units : Str → Option Str} {c : Connection} {name text : Str}
    (hm : d.mounter = true) (hprev : previous.Valid) (hupd : updated.Valid)
    (hre : Reapplies env previous) (hlisted : Listed units)
    (hreach : Reaches env updated c name text) :
    ∃ e r s' after, CommitRaising (rollbackMachine env previous) d previous updated
      (diskOf previous units) e r s' ∧ after name = some text ∧
        s'.units = reapplied env previous updated after := by
  rcases hreach with ⟨before, rest, hsplit, hbefore, names, hnames, hmount, hunit⟩
  have hc : c.WellFormed := hupd.sound.connections c
    (hsplit ▸ List.mem_append_right _ List.mem_cons_self)
  have hsave : Exec (rollbackMachine env previous) (save updated) (diskOf previous units) (.ok ())
      { config := updated, units := units, saves := 1 } := by
    refine exec_call ⟨?_, fun _ => rfl, rfl, rfl⟩
    have hover := storeSave_saveOver updated previous
    rw [saveOver_valid hupd] at hover
    exact hover
  rcases exec_prepare_raises
    (s := { config := updated, units := units, saves := 1 }) hc hbefore hnames hmount hunit
      Nat.one_lt_two hlisted with ⟨s₂, hx, hthere, hsaves, hlisted₂⟩
  -- The apply raises while the units are written.
  have happly : Exec (rollbackMachine env previous)
      (applyAll d (d.applies previous updated) updated previous)
      { config := updated, units := units, saves := 1 } (.error .exception) s₂ := by
    unfold applyAll
    have hsamba : Exec (rollbackMachine env previous)
        (onlyIf (d.applies previous updated) (call (.applierApply updated)))
        { config := updated, units := units, saves := 1 } (.ok ())
        { config := updated, units := units, saves := 1 } := by
      cases d.applies previous updated with
      | true => exact exec_call ⟨rfl, Or.inl ⟨_, rfl, trivial⟩⟩
      | false => exact Exec.ret () _
    refine exec_bind hsamba ?_
    rw [hm]
    unfold onlyIf mounterApply
    rw [if_pos rfl, hsplit]
    exact exec_bind_error (exec_bind_error hx)
  rcases exec_exists (I := fun s => Listed s.units) (fun op s => rollbackMachine_total op s)
    (rollBack d (d.applies previous updated) previous updated .exception) hlisted₂
    with ⟨r, s', hback⟩
  have hundone := always_exec (always_rollBack hm hprev hre hsaves _ _) hback
  exact ⟨_, r, s', s₂.units, ⟨_, s₂, hsave, happly, hback⟩, hthere, hundone.2.2⟩

end Raising

/-- A commit whose first apply raises, at any point and for whatever reason,
    raises that again and leaves the previous config and the units as they were,
    exactly when it is clean. -/
theorem rollback_restores_iff (env : Accounts) {d : Dispatcher} (hm : d.mounter = true)
    {previous updated : Config} {units : Str → Option Str} (hprev : previous.Valid)
    (hupd : updated.Valid) (hre : Reapplies env previous) (hagree : Agrees env previous units)
    (hlisted : Listed units) :
    (∀ e r s', CommitRaising (rollbackMachine env previous) d previous updated
      (diskOf previous units) e r s' →
        r = .error e ∧ s'.config = previous ∧ Restored env previous updated units s'.units) ↔
      Clean env previous updated units := by
  have hwf := hupd.sound.connections
  constructor
  · -- A unit that the failing commit reaches is seen as the rollback left it.
    intro hall c name text hreach hpre
    rcases commitRaising_reaches (d := d) hm hprev hupd hre hlisted hreach with
      ⟨e, r, s', after, hcommit, hthere, hunits⟩
    refine clean_of_restored hwf hreach hpre hthere ?_
    rw [← hunits]
    exact (hall e r s' hcommit).2.2
  · intro hclean e r s' hcommit
    rcases commitRaising_leaves hm hprev hupd hre hcommit
      with ⟨hr, hconfig, after, htouched, hunits⟩
    refine ⟨hr, hconfig, ?_⟩
    rw [hunits]
    exact restored_of_clean hwf hagree hclean htouched

end Rollback

section Spaces

attribute [local instance] Unicode.ascii

set_option maxRecDepth 10000

/-- No credentials files, and no accounts. -/
def noAccounts : Accounts :=
  { present := fun _ => false, passwd := fun _ => none }

/-- `Music` at a mountpoint. -/
def musicAt (mountpoint : String) : Connection :=
  { id := some (str "music")
    host := some (str "nas")
    share := some (str "Music")
    mountpoint := some (str mountpoint)
    credentialRef := none
    autoConnect := none
    owner := none
    fallbackHost := none
    credentialAccount := none
    keychainCredential := none
    disconnected := none }

/-- The config with that connection alone. -/
def onlyMusic (mountpoint : String) : Config :=
  { emptyConfig with connections := [musicAt mountpoint] }

/-- Adding the first connection undoes itself, where the mountpoint is found
    again. -/
theorem rollback_restores_iff_firstConnection :
    (onlyMusic "/mnt/m").Valid ∧
      ∀ e r s', CommitRaising (rollbackMachine noAccounts emptyConfig) linuxDaemon emptyConfig
        (onlyMusic "/mnt/m") (diskOf emptyConfig fun _ => none) e r s' →
          r = .error e ∧ s'.config = emptyConfig ∧
            Restored noAccounts emptyConfig (onlyMusic "/mnt/m") (fun _ => none) s'.units := by
  have hvalid : (onlyMusic "/mnt/m").Valid := by decide +kernel
  have hagree : Agrees noAccounts emptyConfig fun _ => none := fun name text h => by
    cases h
  refine ⟨hvalid, (rollback_restores_iff noAccounts rfl (by decide +kernel) hvalid
    (fun c hc => absurd hc List.not_mem_nil) hagree ⟨[], fun name h => absurd rfl h⟩).mpr ?_⟩
  intro c name text hreach _
  have hc : c = musicAt "/mnt/m" := List.mem_singleton.mp hreach.unitText.1
  rw [hc]
  exact Or.inr ⟨by decide +kernel, fun old h => nomatch h⟩

/-- A mountpoint that ends in a space: its unit stays when adding it fails. -/
theorem unit_left_behind :
    ∃ e r s', CommitRaising (rollbackMachine noAccounts emptyConfig) linuxDaemon emptyConfig
      (onlyMusic "/mnt/m ") (diskOf emptyConfig fun _ => none) e r s' ∧
        emptyConfig.Valid ∧ (onlyMusic "/mnt/m ").Valid ∧
          ¬ Restored noAccounts emptyConfig (onlyMusic "/mnt/m ") (fun _ => none) s'.units := by
  have hprev : emptyConfig.Valid := by decide +kernel
  have hupd : (onlyMusic "/mnt/m ").Valid := by decide +kernel
  have hreach : Reaches noAccounts (onlyMusic "/mnt/m ") (musicAt "/mnt/m ")
      (str "mnt-m\\x20.mount") (mountText noAccounts (musicAt "/mnt/m ")) :=
    ⟨[], [], rfl, fun b hb => absurd hb List.not_mem_nil,
      (str "mnt-m\\x20.mount", str "mnt-m\\x20.automount"), by decide +kernel, by decide +kernel,
        Or.inl ⟨rfl, rfl⟩⟩
  rcases commitRaising_reaches (d := linuxDaemon) rfl hprev hupd
    (fun c hc => absurd hc List.not_mem_nil) ⟨[], fun name h => absurd rfl h⟩ hreach with
    ⟨e, r, s', after, hcommit, hthere, hunits⟩
  refine ⟨e, r, s', hcommit, hprev, hupd, fun hrestored => ?_⟩
  rw [hunits] at hrestored
  rcases clean_of_restored hupd.sound.connections hreach rfl hthere hrestored with h | ⟨h, -⟩
  · exact nomatch h
  · exact absurd h (by decide +kernel)

end Spaces

end Smbpal
