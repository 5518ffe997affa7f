import Smbpal.Lib.Serializable
import Smbpal.Daemon.Edits

/-!
# Changes to the Config from Several Clients

The server runs one thread a client, and every handler loads the whole document
and writes the whole document back, with nothing held in between. So two
requests that overlap can each load before the other saves, and the later save
takes the earlier change away: `lost_update` is that run, with both requests
acknowledged.

What a handler does alone is sound. `Request.allOrNothing` says that a request
that is refused leaves the document as it found it, whatever failed, as long as
what it does *after* it has changed the document and outside applying succeeds:
`commit` undoes a failed apply, and nothing undoes a failed clean-up.

The two meet in `config_serializable`. Where no request touches the store with
a document in hand that somebody else has replaced, and none begins while
another is between its first save and its last use of the store, the stored
config is what the acknowledged requests leave when they are run one after
another.

## Main definitions

* `dependable`: The answers of an operation that did what it was asked.
* `Dependably`: A program that fails only when an operation does.

## Theorems

* `Request.allOrNothing`: A refused request leaves the config as it was.
* `config_serializable`: Requests kept apart on the store are serializable.
* `lost_update`: Requests not kept apart are not.
-/

namespace Smbpal

open Lib Program

section LostUpdate

variable [Unicode]

/-- The operations of applying, whose failure a commit undoes. -/
def appliesSystem : DaemonOp → Bool
  | .applierApply _ => true
  | .occupant _ => true
  | .isMounted _ => true
  | .probeState _ => true
  | .ensureMountpoint _ => true
  | .rmdir _ => true
  | .getpwnam _ => true
  | .credentialsExists _ => true
  | .writeUnit _ _ => true
  | .iterUnits => true
  | .readUnit _ => true
  | .unlinkUnit _ => true
  | .systemctl _ => true
  | _ => false

/-- Everything but applying did what it was asked. -/
def dependable (event : Event daemonSig) : Prop :=
  appliesSystem event.1 = true ∨ ∃ v, event.2 = Except.ok v

/-- The stored config as one request sees it alone, when everything but
    applying succeeds once the request has changed it. -/
abbrev aloneMachine : Machine daemonSig (Config × Bool) :=
  steady storeMachine dependable

section Alone

variable {s : Config × Bool} {α β : Type}

theorem alone_silent {op : DaemonOp} {ans : Except Exc op.Value} {s' : Config × Bool}
    (hop : usesStore op = false) (h : aloneMachine op s ans s') :
    s' = s ∧ (s.2 = true → dependable ⟨op, ans⟩) := by
  rcases h with ⟨hM, hgood, hflag⟩
  have hcell : s'.1 = s.1 := storeMachine_silent hop hM
  refine ⟨Prod.ext hcell ?_, hgood⟩
  rw [hflag, hcell, decide_eq_false (not_not.mpr rfl), Bool.or_false]

/-- A program that does not use the store ends where it began. -/
theorem alone_quiet {p : DaemonM α} {Q : Except Exc α → Config × Bool → Prop}
    (hp : Performs (S := daemonSig) (fun op => usesStore op = false) p) (hQ : ∀ r, Q r s) :
    Always aloneMachine p Q s :=
  always_frame hp (fun _ _ _ _ hop h => (alone_silent hop h).1) hQ

/-- Loading gives the stored document, which validated, or fails. -/
theorem alone_load {Q : Except Exc Config → Config × Bool → Prop}
    (hraise : ∀ e, s.2 = false → Q (.error e) s) (hok : s.1.Valid → Q (.ok s.1) s) :
    Always aloneMachine load Q s := by
  refine (always_call .load _).mpr ?_
  rintro ans s' ⟨⟨hans, hcell⟩, hgood, hflag⟩
  have hs : s' = s := by
    refine Prod.ext hcell ?_
    rw [hflag, hcell, decide_eq_false (not_not.mpr rfl), Bool.or_false]
  subst hs
  rcases hans with ⟨e, rfl⟩ | ⟨hvalid, rfl⟩
  · refine hraise e ?_
    cases hb : s'.2 with
    | false => rfl
    | true =>
        rcases hgood hb with h | ⟨v, h⟩
        · exact absurd h Bool.false_ne_true
        · exact nomatch h
  · exact hok hvalid

/-- Saving stores the document and remembers whether it is another one, or
    fails and leaves it. -/
theorem alone_save {doc : Config} {Q : Except Exc Unit → Config × Bool → Prop}
    (hraise : ∀ e, s.2 = false → Q (.error e) s)
    (hok : doc.Valid → Q (.ok ()) (doc, s.2 || decide (doc ≠ s.1))) :
    Always aloneMachine (save doc) Q s := by
  refine (always_call (.save doc) _).mpr ?_
  rintro ans s' ⟨hsave, hgood, hflag⟩
  rcases storeSave_cases hsave with ⟨rfl, hvalid, hcell⟩ | ⟨⟨e, rfl⟩, hcell⟩
  · have hs : s' = (doc, s.2 || decide (doc ≠ s.1)) := by
      refine Prod.ext hcell ?_
      rw [hflag, hcell]
    rw [hs]
    exact hok hvalid
  · have hs : s' = s := by
      refine Prod.ext hcell ?_
      rw [hflag, hcell, decide_eq_false (not_not.mpr rfl), Bool.or_false]
    rw [hs]
    refine hraise e ?_
    cases hb : s.2 with
    | false => rfl
    | true =>
        rcases hgood hb with h | ⟨v, h⟩
        · exact absurd h Bool.false_ne_true
        · exact nomatch h

/-- A program that does not use the store and, once the document has changed,
    does not raise. -/
def Dependably (p : DaemonM α) : Prop :=
  ∀ s, Always aloneMachine p (fun r s' => s' = s ∧ (s.2 = true → ∃ v, r = .ok v)) s

theorem dependably_pure (a : α) : Dependably (pure a) :=
  fun _ => (always_pure a).mpr ⟨rfl, fun _ => ⟨a, rfl⟩⟩

theorem dependably_fromExcept {r : Except Exc α} {a : α} (h : r = .ok a) :
    Dependably (fromExcept r) := by
  intro s
  rw [h, always_fromExcept]
  exact ⟨rfl, fun _ => ⟨a, rfl⟩⟩

theorem dependably_call {op : DaemonOp} (hop : usesStore op = false)
    (happly : appliesSystem op = false) : Dependably (call op) := by
  intro s
  rw [always_call]
  intro ans s' h
  rcases alone_silent hop h with ⟨hs, hgood⟩
  refine ⟨hs, fun hb => ?_⟩
  rcases hgood hb with h | h
  · rw [happly] at h
    exact absurd h Bool.false_ne_true
  · exact h

theorem dependably_bind {p : DaemonM α} {f : α → DaemonM β} (hp : Dependably p)
    (hf : ∀ a, Dependably (f a)) : Dependably (p >>= f) := by
  intro s
  rw [always_bind]
  refine always_mono (hp s) ?_
  rintro r s' ⟨rfl, hr⟩
  cases r with
  | ok a => exact hf a s'
  | error e =>
      refine ⟨rfl, fun hb => ?_⟩
      rcases hr hb with ⟨v, hv⟩
      cases hv

/-- A handler runs only when the document has not changed. -/
theorem dependably_catching {caught : Exc → Bool} {p : DaemonM α} {handler : Exc → DaemonM α}
    (hp : Dependably p)
    (hh : ∀ e, Performs (S := daemonSig) (fun op => usesStore op = false) (handler e)) :
    Dependably (catching caught p handler) := by
  intro s
  rw [always_catching]
  refine always_mono (hp s) ?_
  rintro r s' ⟨rfl, hr⟩
  cases r with
  | ok a => exact ⟨rfl, fun _ => ⟨a, rfl⟩⟩
  | error e =>
      have hsame : ∀ r : Except Exc α, s'.2 = true → ∃ v, r = .ok v := by
        intro _ hb
        rcases hr hb with ⟨v, hv⟩
        cases hv
      rw [orCatch_error]
      by_cases hc : caught e = true
      · rw [if_pos hc]
        exact alone_quiet (hh e) fun r => ⟨rfl, hsame r⟩
      · rw [if_neg hc]
        exact ⟨rfl, hsame _⟩

/-- What is left to do after the document has changed: if it raises, the
    document had not changed after all. -/
theorem dependably_last {p : DaemonM α} {previous : Config} (hp : Dependably p)
    (hs : s.2 = false → s.1 = previous) :
    Always aloneMachine p (fun r s => ∀ e, r = .error e → s.1 = previous) s := by
  refine always_mono (hp s) ?_
  rintro r s' ⟨rfl, hr⟩ e rfl
  refine hs ?_
  cases hb : s'.2 with
  | false => rfl
  | true =>
      rcases hr hb with ⟨v, hv⟩
      cases hv

end Alone

/-- A commit stores the new document, or fails and leaves the old one: the undo
    is a save, and once the document has changed a save succeeds. -/
theorem alone_commit (d : Dispatcher) (previous updated : Config) :
    Always aloneMachine (commit d previous updated)
      (fun r s => (s.2 = false → s.1 = previous) ∧ ∀ e, r = .error e → s.1 = previous)
      (previous, false) := by
  -- Nothing was changed where what was saved is what was there.
  have hflag : ∀ b, (false || decide (updated ≠ previous)) = b → b = false →
      updated = previous := by
    intro b hb hfalse
    rw [hfalse, Bool.false_or] at hb
    exact not_not.mp (of_decide_eq_false hb)
  unfold commit
  rw [always_bind]
  refine alone_save (fun e _ => ⟨fun _ => rfl, fun _ _ => rfl⟩) fun _ => ?_
  rw [andThen_ok]
  generalize hb : (false || decide (updated ≠ previous)) = b
  split
  · exact ⟨hflag b hb, fun e he => nomatch he⟩
  · rw [always_tryCatch]
    refine alone_quiet (performs_of_quiet (quiet_applyAll _ _ _ _)) fun r => ?_
    cases r with
    | ok u => exact ⟨hflag b hb, fun e he => nomatch he⟩
    | error e =>
        rw [orElse_error]
        unfold rollBack
        rw [always_bind]
        -- The mounter refused, so the document before is saved over what may have changed.
        refine alone_save (fun e' hfalse => ?_) fun _ => ?_
        · exact ⟨hflag b hb, fun _ _ => hflag b hb hfalse⟩
        · rw [andThen_ok, always_bind]
          refine alone_quiet (footprint_catching (performs_of_quiet (quiet_applyAll _ _ _ _))
            fun _ => (footprint_pure _).mpr trivial) fun r => ?_
          cases r with
          | ok u => exact ⟨fun _ => rfl, fun _ _ => rfl⟩
          | error e' => exact ⟨fun _ => rfl, fun _ _ => rfl⟩

/-- A refusal leaves the config as it was. -/
def Kept {α : Type} (previous : Config) (r : Except Exc α) (s : Config × Bool) : Prop :=
  ∀ e, r = .error e → s.1 = previous

section Handlers

variable {α β : Type} {d : Dispatcher} {previous : Config}

omit [Unicode] in
theorem kept_here (r : Except Exc α) (b : Bool) : Kept previous r (previous, b) :=
  fun _ _ => rfl

/-- A part that does not use the store comes first. -/
theorem quiet_then {p : DaemonM α} {f : α → DaemonM β}
    (hp : Performs (S := daemonSig) (fun op => usesStore op = false) p)
    (hf : ∀ a, Always aloneMachine (f a) (Kept previous) (previous, false)) :
    Always aloneMachine (p >>= f) (Kept previous) (previous, false) := by
  rw [always_bind]
  refine alone_quiet hp fun r => ?_
  cases r with
  | ok a => exact hf a
  | error e => exact kept_here _ false

/-- A check comes first. -/
theorem check_then {r : Except Exc α} {f : α → DaemonM β}
    (hf : ∀ a, r = .ok a → Always aloneMachine (f a) (Kept previous) (previous, false)) :
    Always aloneMachine (fromExcept r >>= f) (Kept previous) (previous, false) :=
  always_check (fun _ => kept_here _ false) hf

/-- The load comes first. -/
theorem load_then {f : Config → DaemonM β}
    (hf : previous.Valid → Always aloneMachine (f previous) (Kept previous) (previous, false)) :
    Always aloneMachine (load >>= f) (Kept previous) (previous, false) := by
  rw [always_bind]
  exact alone_load (fun _ _ => kept_here _ false) hf

/-- The commit comes first, and what is left depends on its operations alone. -/
theorem commit_then {updated : Config} {f : Unit → DaemonM β} (hf : ∀ u, Dependably (f u)) :
    Always aloneMachine (commit d previous updated >>= f) (Kept previous) (previous, false) := by
  rw [always_bind]
  refine always_mono (alone_commit d previous updated) ?_
  rintro r s ⟨hs, herr⟩
  cases r with
  | ok u => exact dependably_last (hf u) hs
  | error e => exact fun _ _ => herr e rfl

theorem dependably_onlyIf {condition : Bool} {p : DaemonM Unit} (hp : Dependably p) :
    Dependably (onlyIf condition p) := by
  cases condition with
  | true => exact hp
  | false => exact dependably_pure ()

theorem dependably_forgetState (id : Option Str) : Dependably (forgetState d id) :=
  dependably_onlyIf (dependably_call rfl rfl)

theorem alone_finishAdd {updated : Config} {c : Connection} {stored : Option Stored}
    {writtenRef : Option Str} :
    Always aloneMachine (finishAdd d previous updated c stored writtenRef) (Kept previous)
      (previous, false) := by
  unfold finishAdd
  rw [always_bind, always_tryCatch]
  refine always_mono (alone_commit d previous updated) ?_
  rintro r s ⟨hs, herr⟩
  cases r with
  | ok u =>
      exact dependably_last (dependably_bind (dependably_forgetState c.id) fun _ =>
        dependably_pure _) hs
  | error e =>
      -- The undo of the commit has run; taking the file back does not change it.
      rw [orElse_error, always_bind]
      refine alone_quiet (performs_takeBack writtenRef) fun r => ?_
      cases r with
      | ok u => exact fun _ _ => herr e rfl
      | error e' => exact fun _ _ => herr e rfl

theorem alone_connectionAdd (uid : Nat) (params : Params) :
    Always aloneMachine (connectionAdd d uid params) (Kept previous) (previous, false) := by
  refine load_then fun _ => quiet_then (performs_of_quiet (quiet_newConnection uid params))
    fun args => ?_
  refine check_then fun added _ => check_then fun username _ => check_then fun credential _ => ?_
  cases credential with
  | none => exact alone_finishAdd
  | some pair =>
      rcases pair with ⟨username, password⟩
      dsimp only
      split
      · exact quiet_then (performs_silent rfl) fun outcome => alone_finishAdd
      · unfold addWithFile
        split
        · refine check_then fun ref _ => check_then fun domain _ => ?_
          exact quiet_then (performs_writeCredentials _ _ _ _) fun _ => alone_finishAdd
        · exact kept_here _ false

/-- A credentials file a valid document names can be taken back. -/
theorem dependably_takeFile {c : Connection} (hvalid : previous.Valid)
    (hc : c ∈ previous.connections) : Dependably (takeFile d c) := by
  refine dependably_onlyIf ?_
  cases href : truthy c.credentialRef with
  | none => exact dependably_pure ()
  | some ref =>
      have hid : isId ref = true := by
        refine (hvalid.sound.connections c hc).credentialRef ref ?_
        unfold truthy at href
        split at href
        · rename_i v hv
          split at href
          · exact nomatch href
          · rw [hv, href]
        · exact nomatch href
      have hpath : pathFor ref = .ok (str "/etc/smbpal/credentials/" ++ ref) := by
        unfold pathFor
        rw [if_pos hid]
      refine dependably_bind (dependably_fromExcept hpath) fun path => ?_
      exact dependably_catching (dependably_call rfl rfl) fun _ => trivial

theorem dependably_takeItem (uid : Nat) (updated : Config) (c : Connection) :
    Dependably (takeItem d uid updated c) := by
  unfold takeItem
  split
  · exact dependably_onlyIf (dependably_call rfl rfl)
  · exact dependably_pure ()

theorem dependably_finishRemove (uid : Nat) (c : Connection) :
    Dependably (finishRemove d uid c) := by
  unfold finishRemove
  split
  · refine dependably_bind (dependably_catching ?_ fun _ => trivial) fun _ => dependably_pure _
    exact dependably_bind (dependably_call rfl rfl) fun _ =>
      dependably_bind (dependably_call rfl rfl) fun _ => dependably_pure _
  · exact dependably_pure _

theorem alone_connectionRemove (uid : Nat) (params : Params) :
    Always aloneMachine (connectionRemove d uid params) (Kept previous) (previous, false) := by
  refine check_then fun ref _ => load_then fun hvalid => check_then fun removed hremoved => ?_
  rcases removed with ⟨updated, c⟩
  have hc : c ∈ previous.connections := by
    rcases removeConnection_ok hremoved with ⟨before, after, hsplit, -, -⟩
    rw [hsplit]
    exact List.mem_append_right _ List.mem_cons_self
  refine commit_then fun _ => dependably_bind (dependably_takeFile hvalid hc) fun _ => ?_
  refine dependably_bind (dependably_takeItem uid updated c) fun _ => ?_
  exact dependably_bind (dependably_forgetState c.id) fun _ => dependably_finishRemove uid c

theorem save_then {updated : Config} {f : Unit → DaemonM β} (hf : ∀ u, Dependably (f u)) :
    Always aloneMachine (save updated >>= f) (Kept previous) (previous, false) := by
  rw [always_bind]
  refine alone_save (fun _ _ => kept_here _ false) fun _ => ?_
  refine dependably_last (hf ()) fun hb => ?_
  rw [Bool.false_or] at hb
  exact not_not.mp (of_decide_eq_false hb)

theorem alone_connectionSetCredentials (uid : Nat) (params : Params) :
    Always aloneMachine (connectionSetCredentials d uid params) (Kept previous)
      (previous, false) := by
  refine check_then fun ref _ => check_then fun username _ => check_then fun password _ => ?_
  split
  · refine load_then fun _ => check_then fun c _ => quiet_then (performs_silent rfl) fun _ => ?_
    exact save_then fun _ => dependably_bind (dependably_forgetState c.id) fun _ =>
      dependably_pure _
  · split
    · refine load_then fun _ => check_then fun c _ => check_then fun credentialRef _ => ?_
      refine check_then fun domain _ => quiet_then (performs_writeCredentials _ _ _ _) fun _ => ?_
      exact commit_then fun _ => dependably_bind (dependably_forgetState c.id) fun _ =>
        dependably_pure _
    · exact kept_here _ false

theorem alone_connectionUseFallback (params : Params) :
    Always aloneMachine (connectionUseFallback d params) (Kept previous) (previous, false) := by
  refine check_then fun ref _ => load_then fun _ => check_then fun c _ => ?_
  exact check_then fun fallback _ => commit_then fun _ => dependably_pure _

theorem alone_shareAdd (params : Params) :
    Always aloneMachine (shareAdd d params) (Kept previous) (previous, false) := by
  have hshadow : ∀ name config, Performs (S := daemonSig) (fun op => usesStore op = false)
      (refuseToShadow d name config) := by
    intro name config
    unfold refuseToShadow
    split
    · exact (footprint_pure _).mpr trivial
    · exact performs_bind (footprint_catching (performs_silent rfl) fun _ => trivial) fun _ =>
        (footprint_fromExcept _).mpr fun _ _ => trivial
  refine check_then fun name _ => check_then fun path _ => load_then fun _ => ?_
  refine quiet_then (hshadow name previous) fun _ => check_then fun id _ => ?_
  refine check_then fun readOnly _ => check_then fun ref _ => check_then fun enabled _ => ?_
  refine check_then fun added _ => commit_then fun _ => ?_
  exact dependably_bind (dependably_call rfl rfl) fun _ => dependably_pure _

theorem alone_shareRemove (params : Params) :
    Always aloneMachine (shareRemove d params) (Kept previous) (previous, false) := by
  refine check_then fun ref _ => load_then fun _ => check_then fun removed _ => ?_
  exact commit_then fun _ => dependably_pure _

/-- Recording a disconnect is the first change of its request. -/
theorem alone_setDisconnected (id : Option Str) (value : Bool) :
    Always aloneMachine (setDisconnected id value)
      (fun r s => (s.2 = false → s.1 = previous) ∧ Kept previous r s) (previous, false) := by
  unfold setDisconnected
  rw [always_bind]
  refine alone_load (fun _ _ => ⟨fun _ => rfl, kept_here _ false⟩) fun _ => ?_
  rw [andThen_ok]
  unfold onlyIf
  split
  · refine alone_save (fun _ _ => ⟨fun _ => rfl, kept_here _ false⟩) fun _ => ?_
    refine ⟨fun hb => ?_, fun e he => nomatch he⟩
    rw [Bool.false_or] at hb
    exact not_not.mp (of_decide_eq_false hb)
  · exact ⟨fun _ => rfl, kept_here _ false⟩

/-- Recording where a share landed is the second: it finds the document as the
    first left it, and fails only when that was no change. -/
theorem alone_recordWhereItLanded (c : Connection) (landed : Str) {s : Config × Bool}
    (hs : s.2 = false → s.1 = previous) :
    Always aloneMachine (recordWhereItLanded c landed) (Kept previous) s := by
  unfold recordWhereItLanded
  split
  · exact fun e he => nomatch he
  · rw [always_bind]
    refine alone_load (fun _ hb _ _ => hs hb) fun _ => ?_
    exact alone_save (fun _ hb _ _ => hs hb) fun _ e he => nomatch he

theorem alone_connectionFor {β : Type} {params : Params} {f : Connection → DaemonM β}
    (hf : ∀ c, Always aloneMachine (f c) (Kept previous) (previous, false)) :
    Always aloneMachine (connectionFor params >>= f) (Kept previous) (previous, false) := by
  have hload : Always aloneMachine (connectionFor params)
      (fun r s => s = (previous, false)) (previous, false) := by
    unfold connectionFor
    rw [always_bind]
    refine alone_load (fun _ _ => rfl) fun _ => ?_
    rw [andThen_ok]
    refine alone_quiet (performs_bind ((footprint_fromExcept _).mpr fun _ _ => trivial) fun _ =>
      (footprint_fromExcept _).mpr fun _ _ => trivial) fun _ => rfl
  rw [always_bind]
  refine always_mono hload ?_
  rintro r s rfl
  cases r with
  | ok c => exact hf c
  | error e => exact kept_here _ false

theorem alone_connectViaAgent (uid : Nat) (params : Params) :
    Always aloneMachine (connectViaAgent uid params) (Kept previous) (previous, false) := by
  refine alone_connectionFor fun c => quiet_then (performs_silent rfl) fun url => ?_
  refine quiet_then (performs_silent rfl) fun landed => ?_
  rw [always_bind]
  refine always_mono (alone_setDisconnected c.id false) ?_
  rintro r s ⟨hs, hkept⟩
  cases r with
  | error e => exact fun _ _ => hkept e rfl
  | ok u =>
      rw [andThen_ok, always_bind]
      refine always_mono (alone_recordWhereItLanded c landed hs) ?_
      intro r s' hkept'
      cases r with
      | ok u => exact fun e he => nomatch he
      | error e => exact fun _ _ => hkept' e rfl

theorem alone_disconnectViaAgent (uid : Nat) (params : Params) :
    Always aloneMachine (disconnectViaAgent uid params) (Kept previous) (previous, false) := by
  refine alone_connectionFor fun c => quiet_then (performs_silent rfl) fun url => ?_
  refine quiet_then (performs_silent rfl) fun unmounted => ?_
  rw [always_bind]
  refine always_mono (alone_setDisconnected c.id true) ?_
  rintro r s ⟨-, hkept⟩
  cases r with
  | error e => exact fun _ _ => hkept e rfl
  | ok u => exact fun e he => nomatch he

/-- A request through systemd only reads the document. -/
theorem alone_unitFor {params : Params} {f : Str → DaemonM Unit}
    (hf : ∀ unit, Always aloneMachine (f unit) (Kept previous) (previous, false)) :
    Always aloneMachine (unitFor d params >>= f) (Kept previous) (previous, false) := by
  -- The unit is looked up in the document, which is read and left.
  have hunit : Always aloneMachine (unitFor d params)
      (fun _ s => s = (previous, false)) (previous, false) := by
    unfold unitFor
    split
    · rw [always_bind]
      unfold connectionFor
      rw [always_bind]
      refine alone_load (fun _ _ => rfl) fun _ => ?_
      rw [andThen_ok]
      refine alone_quiet (performs_bind ((footprint_fromExcept _).mpr fun _ _ => trivial) fun _ =>
        (footprint_fromExcept _).mpr fun _ _ => trivial) fun r => ?_
      cases r with
      | error e => rfl
      | ok c =>
          rw [andThen_ok]
          exact alone_quiet (performs_bind ((footprint_fromExcept _).mpr fun _ _ => trivial)
            fun _ => trivial) fun _ => rfl
    · exact rfl
  rw [always_bind]
  refine always_mono hunit ?_
  rintro r s rfl
  cases r with
  | ok unit => exact hf unit
  | error e => exact kept_here _ false

theorem alone_acknowledge {α : Type} {handler : DaemonM α} {s : Config × Bool}
    (h : Always aloneMachine handler (Kept previous) s) :
    Always aloneMachine (acknowledge handler) (Kept previous) s := by
  unfold acknowledge
  rw [always_bind]
  refine always_mono h ?_
  intro r s' hkept
  cases r with
  | ok a => exact fun e he => nomatch he
  | error e => exact fun _ _ => hkept e rfl

end Handlers

/-- A refused request leaves the config as it was, whatever failed, when what
    it does after a change and outside applying succeeds. -/
theorem Request.allOrNothing (d : Dispatcher) (r : Request) :
    AllOrNothing storeMachine dependable (r.program d) := by
  intro previous
  change Always aloneMachine (r.program d) (Kept previous) (previous, false)
  unfold Request.program
  -- A request through the agent saves at most once, and all others end as they began.
  cases r.method with
  | connectionAdd => exact alone_acknowledge (alone_connectionAdd _ _)
  | connectionRemove => exact alone_acknowledge (alone_connectionRemove _ _)
  | connectionSetCredentials => exact alone_acknowledge (alone_connectionSetCredentials _ _)
  | connectionUseFallback => exact alone_acknowledge (alone_connectionUseFallback _)
  | connectionConnect =>
      dsimp only
      unfold connectionConnect
      split
      · exact alone_acknowledge (alone_connectViaAgent _ _)
      · exact alone_unitFor fun unit => quiet_then (performs_silent rfl) fun _ =>
          alone_quiet (performs_silent rfl) fun _ => kept_here _ false
  | connectionDisconnect =>
      dsimp only
      unfold connectionDisconnect
      split
      · exact alone_acknowledge (alone_disconnectViaAgent _ _)
      · exact alone_unitFor fun unit => alone_quiet (performs_silent rfl) fun _ =>
          kept_here _ false
  | shareAdd => exact alone_acknowledge (alone_shareAdd _)
  | shareRemove => exact alone_acknowledge (alone_shareRemove _)

/-- The operations of the interleaving that use the store. -/
def onStore (op : daemonSig.Op) : Prop :=
  usesStore op = true

instance : DecidablePred onStore :=
  fun op => inferInstanceAs (Decidable (usesStore op = true))

theorem storeMachine_silentOutside : SilentOutside storeMachine onStore := by
  intro op hop stored ans stored' h
  have hsilent : usesStore op = false := Bool.not_eq_true _ |>.mp hop
  exact ⟨storeMachine_silent hsilent h, fun other => storeMachine_any hsilent other ans⟩

/-- Requests that keep apart on the store, and that finish what they began once
    they have changed the document, leave the config as the acknowledged ones
    leave it when they are run one after another. -/
theorem config_serializable {ι : Type} [DecidableEq ι] [Fintype ι] (d : Dispatcher)
    (requests : ι → Request) (stored : Config) (sys : Shared ι Config daemonSig Exc Unit)
    (hrun : GuardedRun (Shared.Step storeMachine onStore)
      (fun sys label => Isolated onStore sys label ∧ Steady dependable sys label)
      (Shared.init (fun i => (requests i).program d) stored) sys)
    (hended : ∀ i, Ended (sys.thread i).code) :
    ∃ order : List ι, order.Nodup ∧ (∀ i, i ∈ order ↔ Returned (sys.thread i).code) ∧
      SerialRun storeMachine (fun i => (requests i).program d) sys stored order sys.cell :=
  serializable storeMachine_silentOutside (fun i => (requests i).allOrNothing d) hrun hended

/-- Every acknowledged add leaves one connection more. -/
theorem length_of_adds {ι : Type} {programs : ι → DaemonM Unit} {d : Dispatcher} {c c' : Config}
    {order : List ι}
    (hadd : ∀ i, ∃ uid params, programs i = acknowledge (connectionAdd d uid params))
    (h : Chain (fun i a b => ∃ v, Exec storeMachine (programs i) a (.ok v) b) c order c') :
    c'.connections.length = c.connections.length + order.length := by
  induction h with
  | nil => rfl
  | @snoc L i d' d'' _ link ih =>
      rcases hadd i with ⟨uid, params, hprogram⟩
      rcases link with ⟨v, hexec⟩
      rw [hprogram] at hexec
      rcases always_exec (leaves_acknowledge (leaves_connectionAdd uid params)) hexec with
        ⟨-, e, he⟩ | ⟨-, args, doc, added, stored, -, -, happend⟩
      · exact nomatch he
      · rw [happend, List.length_append, ih, List.length_append, List.length_singleton,
          List.length_singleton, Nat.add_assoc]

end LostUpdate

section Overlap

attribute [local instance] Unicode.ascii

set_option maxRecDepth 10000

/-- Add a share of one server, under its own name. -/
def addRequest (share : String) : Request :=
  { method := .connectionAdd
    uid := 0
    params := fun key =>
      if key = "host" then .string (str "nas")
      else if key = "share" then .string (str share)
      else if key = "mountpoint" then .string (str "/Volumes/" ++ str share)
      else if key = "id" then .string (str share)
      else .null }

/-- Two clients, each adding a share of its own. -/
def twoAdds (i : Fin 2) : Request :=
  if i = 0 then addRequest "Music" else addRequest "Video"

/-- Neither client has been served. -/
def beforeAdds : Shared (Fin 2) Config daemonSig Exc Unit :=
  Shared.init (fun i => (twoAdds i).program darwinDaemon) emptyConfig

/-- One add after the other is an isolated run. -/
theorem config_serializable_twoAdds :
    ∃ order : List (Fin 2), order.Nodup ∧
      (∀ i, i ∈ order ↔
        Returned ((beforeAdds.play onStore obliging [0, 0, 1, 1]).thread i).code) ∧
      SerialRun storeMachine (fun i => (twoAdds i).program darwinDaemon)
        (beforeAdds.play onStore obliging [0, 0, 1, 1]) emptyConfig order
        (beforeAdds.play onStore obliging [0, 0, 1, 1]).cell := by
  refine config_serializable darwinDaemon twoAdds emptyConfig _ ?_ ?_
  · refine (play_guarded onStore (fun sys label => decide (Apart sys label))
      storeMachine_obliging ?_).mono fun sys label h => isolated_of_apart (of_decide_eq_true h)
    decide +kernel
  · intro i
    have hret : Returned ((beforeAdds.play onStore obliging [0, 0, 1, 1]).thread i).code := by
      revert i
      decide +kernel
    exact ended_of_returned hret

/-- Both adds load the empty document, and the second save takes the first
    away: both are acknowledged, one connection is stored, and no order of the
    two leaves that. -/
theorem lost_update :
    ∃ sys, GuardedRun (Shared.Step storeMachine onStore) (fun _ _ => True) beforeAdds sys ∧
      (∀ i, Returned (sys.thread i).code) ∧
      ¬ ∃ order : List (Fin 2), (∀ i, i ∈ order ↔ Returned (sys.thread i).code) ∧
        Chain (fun i a b => ∃ v, Exec storeMachine ((twoAdds i).program darwinDaemon) a (.ok v) b)
          emptyConfig order sys.cell := by
  -- Both load before either saves.
  refine ⟨beforeAdds.play onStore obliging [0, 1, 0, 1], ?_, ?_, ?_⟩
  · exact (play_guarded onStore (fun _ _ => true) storeMachine_obliging
      (by decide +kernel)).mono fun _ _ _ => trivial
  · decide +kernel
  · -- In any order one would have added behind the other, and there would be two.
    rintro ⟨order, hmem, hchain⟩
    have hboth : ∀ i : Fin 2, i ∈ order := by
      intro i
      refine (hmem i).mpr ?_
      revert i
      decide +kernel
    have hlength := length_of_adds (d := darwinDaemon) ?_ hchain
    · have hsub : [(0 : Fin 2), 1] ⊆ order := fun i _ => hboth i
      have htwo := (List.Nodup.subperm (by decide) hsub).length_le
      have hone : (beforeAdds.play onStore obliging [0, 1, 0, 1]).cell.connections.length = 1 := by
        decide +kernel
      rw [hone] at hlength
      simp only [List.length_cons, List.length_nil] at htwo
      omega
    · intro i
      unfold twoAdds
      split
      · exact ⟨_, _, rfl⟩
      · exact ⟨_, _, rfl⟩

end Overlap

end Smbpal
