import Smbpal.Daemon.Handlers

/-!
# What the Handlers Leave

One request at a time, on any machine that has a stored config among other
things: what each part of a handler does to the config and to the rest.

A `StoreView` of a machine is its stored config and whatever else of its state
a result is about, with the promise that only the store's operations change the
one and only the credential operations change the other. The rules for a load,
a commit and a connection's parameters are proved once over any view.

A request is answered in some `Surroundings`: who the peer's uid is, and what is
mounted. What an add would do in them is then a value (`newConnectionIn`), and
conditions can speak of it.

## Main definitions

* `StoreView`: A machine's stored config, and the rest.
* `Surroundings`, `within`: What the system answers an add.
* `newConnectionIn`: The connection an add asks for.

## Theorems

* `quiet_newConnection` and its like: What touches neither config nor credentials.
* `StoreView.always_commit`: What a commit leaves.
* `StoreView.always_newConnection`: What an add asks for.
-/

namespace Smbpal

open Lib Program

/-- What the system answers when a connection is added. -/
structure Surroundings where
  /-- The account of the peer's uid, none when it has none. -/
  owner : Option Str
  /-- The mountpoints in use. -/
  taken : List Str

/-- The answers that fit the surroundings. -/
def Surroundings.Fits (env : Surroundings) : (op : DaemonOp) → Except Exc op.Value → Prop
  | .getpwuid _, ans => ∀ owner, ans = .ok owner → owner = env.owner
  | .occupiedMountpoints, ans => ∀ taken, ans = .ok taken → taken = env.taken
  | _, _ => True

/-- The machine in given surroundings. -/
def within {σ : Type} (env : Surroundings) (M : Machine daemonSig σ) : Machine daemonSig σ :=
  fun op s ans s' => M op s ans s' ∧ env.Fits op ans

/-- What holds of every run holds of those the surroundings allow. -/
theorem always_within {σ α : Type} {M : Machine daemonSig σ} {p : DaemonM α}
    {Q : Except Exc α → σ → Prop} {s : σ} (env : Surroundings) (h : Always M p Q s) :
    Always (within env M) p Q s := by
  induction p generalizing s with
  | ret a => exact h
  | raise e => exact h
  | perform op next ih => exact fun ans s' hM => ih ans (h ans s' hM.1)

/-- The operations that change neither the stored config nor a credential. -/
def isQuiet : DaemonOp → Bool
  | .load => false
  | .save _ => false
  | .credentialsWrite _ _ => false
  | .credentialsUnlink _ => false
  | .credentialSet _ _ _ _ => false
  | .credentialForget _ _ _ => false
  | _ => true

/-- What holds however a handler ends holds however its request does. -/
theorem always_acknowledge {σ α : Type} {M : Machine daemonSig σ} {handler : DaemonM α}
    {P : σ → Prop} {s : σ} (h : Always M handler (fun _ s' => P s') s) :
    Always M (acknowledge handler) (fun _ s' => P s') s := by
  unfold acknowledge
  rw [always_bind]
  refine always_mono h fun r s' hs => ?_
  cases r with
  | ok a => exact hs
  | error e => exact hs

section Quiet

variable [Unicode]

omit [Unicode] in
theorem performs_quiet {op : DaemonOp} (hop : isQuiet op = true) :
    Performs (S := daemonSig) (ε := Exc) (fun op => isQuiet op = true) (call op) :=
  footprint_call hop fun _ => trivial

omit [Unicode] in
/-- What is quiet does not use the store. -/
theorem silent_of_quiet {op : DaemonOp} (hop : isQuiet op = true) : usesStore op = false := by
  cases op
  case load => exact absurd hop Bool.false_ne_true
  case save => exact absurd hop Bool.false_ne_true
  all_goals rfl

omit [Unicode] in
theorem performs_of_quiet {α : Type} {p : DaemonM α}
    (hp : Performs (S := daemonSig) (fun op => isQuiet op = true) p) :
    Performs (S := daemonSig) (fun op => usesStore op = false) p :=
  footprint_mono hp (fun _ => silent_of_quiet) fun _ h => h

omit [Unicode] in
theorem quiet_newConnection {d : Dispatcher} (uid : Nat) (params : Params) :
    Performs (S := daemonSig) (fun op => isQuiet op = true) (newConnection d uid params) := by
  have hread : ∀ {γ : Type} (r : Except Exc γ),
      Performs (S := daemonSig) (fun op => isQuiet op = true) (fromExcept r) :=
    fun _ => (footprint_fromExcept _).mpr fun _ _ => trivial
  -- The owner is read from the parameters, or from the user database.
  have howner : ∀ asked, Performs (S := daemonSig) (fun op => isQuiet op = true)
      (chooseOwner asked uid) := by
    intro asked
    unfold chooseOwner
    split
    · exact (footprint_pure _).mpr trivial
    · unfold ownerFrom
      by_cases huid : uid = 0
      · rw [if_pos huid]
        exact (footprint_pure _).mpr trivial
      · rw [if_neg huid]
        exact performs_quiet rfl
  have htaken : Performs (S := daemonSig) (fun op => isQuiet op = true) (inUse d) := by
    unfold inUse
    split
    · exact performs_bind (performs_quiet rfl) fun _ => trivial
    · exact (footprint_pure _).mpr trivial
  -- The rest are checks of the parameters, in the order of the source.
  refine performs_bind (hread _) fun host => performs_bind (hread _) fun share => ?_
  refine performs_bind (hread _) fun mountpoint => ?_
  refine performs_bind (hread _) fun id => performs_bind (hread _) fun ref => ?_
  refine performs_bind (hread _) fun auto => performs_bind (hread _) fun asked => ?_
  refine performs_bind (howner asked) fun owner => performs_bind (hread _) fun fallback => ?_
  exact performs_bind htaken fun _ => trivial

theorem performs_writeCredentials (ref username password : Str) (domain : Option Str) :
    Performs (S := daemonSig) (fun op => usesStore op = false)
      (writeCredentials ref username password domain) :=
  performs_bind ((footprint_fromExcept _).mpr fun _ _ => trivial) fun _ =>
    performs_bind ((footprint_fromExcept _).mpr fun _ _ => trivial) fun _ =>
      footprint_catching (performs_silent rfl) fun _ => trivial

theorem performs_forgetCredentials (ref : Str) :
    Performs (S := daemonSig) (fun op => usesStore op = false) (forgetCredentials ref) :=
  performs_bind ((footprint_fromExcept _).mpr fun _ _ => trivial) fun _ =>
    footprint_catching (performs_silent rfl) fun _ => trivial

theorem performs_takeBack (writtenRef : Option Str) :
    Performs (S := daemonSig) (fun op => usesStore op = false) (takeBack writtenRef) := by
  cases writtenRef with
  | none => exact (footprint_pure _).mpr trivial
  | some ref => exact performs_forgetCredentials ref

omit [Unicode] in
theorem quiet_forgetState (d : Dispatcher) (id : Option Str) :
    Performs (S := daemonSig) (fun op => isQuiet op = true) (forgetState d id) :=
  footprint_onlyIf fun _ => performs_quiet rfl

theorem performs_takeFile (d : Dispatcher) (c : Connection) :
    Performs (S := daemonSig) (fun op => usesStore op = false) (takeFile d c) :=
  footprint_onlyIf fun _ => performs_takeBack _

omit [Unicode] in
theorem quiet_smbUrl (c : Connection) :
    Performs (S := daemonSig) (fun op => isQuiet op = true) (smbUrl c) :=
  performs_quiet rfl

omit [Unicode] in
theorem quiet_finishRemove (d : Dispatcher) (uid : Nat) (c : Connection) :
    Performs (S := daemonSig) (fun op => isQuiet op = true) (finishRemove d uid c) := by
  unfold finishRemove
  split
  · refine performs_bind (footprint_catching ?_ fun _ => trivial) fun _ => trivial
    exact performs_bind (quiet_smbUrl c) fun _ => performs_bind (performs_quiet rfl)
      fun _ => trivial
  · exact (footprint_pure _).mpr trivial

end Quiet

section Views

variable [Unicode] {σ φ : Type}

/-- A machine with a stored config, and with more that a result is about. -/
structure StoreView (M : Machine daemonSig σ) (config : σ → Config) (rest : σ → φ) : Prop where
  onLoad : ∀ s ans s', M .load s ans s' → s' = s ∧ storeLoad (config s) ans
  onSave : ∀ doc s ans s', M (.save doc) s ans s' →
    rest s' = rest s ∧ storeSave doc (config s) ans (config s')
  onQuiet : ∀ op s ans s', isQuiet op = true → M op s ans s' →
    config s' = config s ∧ rest s' = rest s

variable {M : Machine daemonSig σ} {config : σ → Config} {rest : σ → φ} {s : σ} {α β : Type}

omit [Unicode] in
theorem isQuiet_of_reconciles {cs : List Connection} {op : DaemonOp} (h : Reconciles cs op) :
    isQuiet op = true := by
  cases op
  case load => exact absurd h id
  case save => exact absurd h id
  case credentialsWrite => exact absurd h id
  case credentialsUnlink => exact absurd h id
  case credentialSet => exact absurd h id
  case credentialForget => exact absurd h id
  all_goals rfl

theorem quiet_applyAll (d : Dispatcher) (applies : Bool) (doc other : Config) :
    Performs (S := daemonSig) (fun op => isQuiet op = true) (applyAll d applies doc other) :=
  performs_bind (footprint_onlyIf fun _ => performs_quiet rfl) fun _ =>
    footprint_onlyIf fun _ => performs_bind (footprint_mono
      (footprint_mounterApply doc (some other)) (fun _ h => isQuiet_of_reconciles h)
      fun _ h => h) fun _ => trivial

namespace StoreView

theorem within (V : StoreView M config rest) (env : Surroundings) :
    StoreView (within env M) config rest where
  onLoad := fun s ans s' h => V.onLoad s ans s' h.1
  onSave := fun doc s ans s' h => V.onSave doc s ans s' h.1
  onQuiet := fun op s ans s' hop h => V.onQuiet op s ans s' hop h.1

/-- A program of quiet operations leaves the config and the rest alone. -/
theorem always_quiet (V : StoreView M config rest) {p : DaemonM α} {Q : Except Exc α → σ → Prop}
    (hp : Performs (S := daemonSig) (fun op => isQuiet op = true) p)
    (hQ : ∀ r s', config s' = config s → rest s' = rest s → Q r s') : Always M p Q s := by
  rw [always_iff]
  intro r s' hx
  have hpair : (config s', rest s') = (config s, rest s) :=
    exec_frame (fun s => (config s, rest s)) hp
      (fun op s ans s' hop h => Prod.ext (V.onQuiet op s ans s' hop h).1
      (V.onQuiet op s ans s' hop h).2)
      hx
  rw [Prod.mk.injEq] at hpair
  exact hQ r s' hpair.1 hpair.2

theorem always_load (V : StoreView M config rest) {Q : Except Exc Config → σ → Prop}
    (hraise : ∀ e, Q (.error e) s) (hok : (config s).Valid → Q (.ok (config s)) s) :
    Always M load Q s := by
  refine (always_call .load _).mpr ?_
  intro ans s' h
  rcases V.onLoad s ans s' h with ⟨rfl, ⟨e, rfl⟩ | ⟨hvalid, rfl⟩⟩
  · exact hraise e
  · exact hok hvalid

theorem always_save (V : StoreView M config rest) {doc : Config} {Q : Except Exc Unit → σ → Prop}
    (hraise : ∀ e s', config s' = config s → rest s' = rest s → Q (.error e) s')
    (hok : ∀ s', doc.Valid → config s' = doc → rest s' = rest s → Q (.ok ()) s') :
    Always M (save doc) Q s := by
  refine (always_call (.save doc) _).mpr ?_
  intro ans s' h
  rcases V.onSave doc s ans s' h with ⟨hrest, hsave⟩
  rcases storeSave_cases hsave with ⟨rfl, hvalid, hconfig⟩ | ⟨⟨e, rfl⟩, hconfig⟩
  · exact hok s' hvalid hconfig hrest
  · exact hraise e s' hconfig hrest

/-- A commit stores the new document, or fails: then the old document is stored
    again, unless its own undo failed and the new one stayed. -/
theorem always_commit (V : StoreView M config rest) {d : Dispatcher} {updated : Config}
    {Q : Except Exc Unit → σ → Prop}
    (hraise : ∀ e s', rest s' = rest s →
      (config s' = config s ∨ (updated.Valid ∧ config s' = updated)) → Q (.error e) s')
    (hok : ∀ s', rest s' = rest s → updated.Valid → config s' = updated → Q (.ok ()) s') :
    Always M (commit d (config s) updated) Q s := by
  unfold commit
  rw [always_bind]
  refine V.always_save (fun e s' hc hr => hraise e s' hr (Or.inl hc)) ?_
  intro s₁ hvalid hc₁ hr₁
  rw [andThen_ok]
  -- Without a mounter the save is all there is.
  split
  · exact hok s₁ hr₁ hvalid hc₁
  · rw [always_tryCatch]
    refine V.always_quiet (quiet_applyAll _ _ _ _) ?_
    intro r s₂ hc₂ hr₂
    cases r with
    | ok u => exact hok s₂ (hr₂.trans hr₁) hvalid (hc₂.trans hc₁)
    | error e =>
        -- The mounter failed, so the document before is saved again.
        rw [orElse_error]
        unfold rollBack
        rw [always_bind]
        refine V.always_save ?_ ?_
        · -- That save failed too: the new document is what is stored.
          intro e' s₃ hc₃ hr₃
          exact hraise e' s₃ (hr₃.trans (hr₂.trans hr₁))
            (Or.inr ⟨hvalid, hc₃.trans (hc₂.trans hc₁)⟩)
        · intro s₃ _ hc₃ hr₃
          rw [andThen_ok, always_bind]
          refine V.always_quiet (footprint_catching (quiet_applyAll _ _ _ _)
            fun _ => (footprint_pure _).mpr trivial) ?_
          intro r s₄ hc₄ hr₄
          have hr : rest s₄ = rest s := hr₄.trans (hr₃.trans (hr₂.trans hr₁))
          -- Whether the mounter takes it or not, the document is the one before.
          cases r with
          | ok u => exact hraise e s₄ hr (Or.inl (hc₄.trans hc₃))
          | error e' => exact hraise e' s₄ hr (Or.inl (hc₄.trans hc₃))

end StoreView

/-- The owner an add records. -/
def ownerIn (env : Surroundings) (uid : Nat) (asked : Option Str) : Option Str :=
  match truthy asked with
  | some owner => some owner
  | none => if uid = 0 then none else env.owner

/-- The connection an add asks for, in given surroundings. -/
def newConnectionIn (d : Dispatcher) (env : Surroundings) (uid : Nat) (params : Params) :
    Except Exc NewConnection := do
  let host ← requireStr params "host"
  let share ← requireStr params "share"
  let mountpoint ← optionalStr params "mountpoint"
  let id ← optionalStr params "id"
  let credentialRef ← optionalStr params "credential_ref"
  let autoConnect ← optionalStr params "auto_connect"
  let asked ← optionalStr params "owner"
  let fallbackHost ← optionalStr params "fallback_host"
  pure
    { host := host
      share := share
      mountpoint := mountpoint
      id := id
      credentialRef := credentialRef
      autoConnect := (truthy autoConnect).getD (str "on_this_network")
      owner := ownerIn env uid asked
      fallbackHost := fallbackHost
      inUse := if d.mounter then some env.taken else none
      style := d.style }

namespace StoreView

variable {env : Surroundings} {d : Dispatcher}

/-- What reads its own answer off the surroundings. -/
theorem always_chooseOwner (V : StoreView M config rest) {uid : Nat} {asked : Option Str}
    {Q : Except Exc (Option Str) → σ → Prop}
    (hraise : ∀ e s', config s' = config s → rest s' = rest s → Q (.error e) s')
    (hok : ∀ s', config s' = config s → rest s' = rest s → Q (.ok (ownerIn env uid asked)) s') :
    Always (Smbpal.within env M) (chooseOwner asked uid) Q s := by
  unfold chooseOwner
  unfold ownerIn at hok
  cases hasked : truthy asked with
  -- An owner that was asked for is not looked up.
  | some owner =>
      rw [hasked] at hok
      exact hok s rfl rfl
  | none =>
      rw [hasked] at hok
      dsimp only at hok ⊢
      unfold ownerFrom
      by_cases huid : uid = 0
      · rw [if_pos huid]
        rw [if_pos huid] at hok
        exact hok s rfl rfl
      · rw [if_neg huid]
        rw [if_neg huid] at hok
        -- The user database is asked, and answers as the surroundings say.
        refine (always_call (.getpwuid uid) _).mpr ?_
        rintro ans s' ⟨hM, hfit⟩
        rcases V.onQuiet _ s ans s' rfl hM with ⟨hc, hr⟩
        cases ans with
        | ok owner =>
            rw [hfit owner rfl]
            exact hok s' hc hr
        | error e => exact hraise e s' hc hr

theorem always_inUse (V : StoreView M config rest) {Q : Except Exc (Option (List Str)) → σ → Prop}
    (hraise : ∀ e s', config s' = config s → rest s' = rest s → Q (.error e) s')
    (hok : ∀ s', config s' = config s → rest s' = rest s →
      Q (.ok (if d.mounter then some env.taken else none)) s') :
    Always (Smbpal.within env M) (inUse d) Q s := by
  unfold inUse
  split
  · rename_i hm
    rw [if_pos hm] at hok
    rw [always_bind]
    refine (always_call .occupiedMountpoints _).mpr ?_
    rintro ans s' ⟨hM, hfit⟩
    rcases V.onQuiet _ s ans s' rfl hM with ⟨hc, hr⟩
    cases ans with
    | ok taken =>
        rw [hfit taken rfl]
        exact hok s' hc hr
    | error e => exact hraise e s' hc hr
  · rename_i hm
    rw [if_neg hm] at hok
    exact hok s rfl rfl

/-- What an add asks for, or why it does not get that far. -/
theorem always_newConnection (V : StoreView M config rest) {uid : Nat} {params : Params}
    {Q : Except Exc NewConnection → σ → Prop}
    (hraise : ∀ e s', config s' = config s → rest s' = rest s → Q (.error e) s')
    (hok : ∀ args s', newConnectionIn d env uid params = .ok args → config s' = config s →
      rest s' = rest s → Q (.ok args) s') :
    Always (Smbpal.within env M) (newConnection d uid params) Q s := by
  have hfail : ∀ e, Q (.error e) s := fun e => hraise e s rfl rfl
  unfold newConnection
  refine always_check hfail fun host hhost => always_check hfail fun share hshare => ?_
  refine always_check hfail fun mountpoint hmountpoint => always_check hfail fun id hid => ?_
  refine always_check hfail fun ref href => always_check hfail fun auto hauto => ?_
  refine always_check hfail fun asked hasked => ?_
  rw [always_bind]
  -- Two answers come from outside: who the owner is, and which places are taken.
  refine V.always_chooseOwner (fun e s' hc hr => hraise e s' hc hr) fun s₁ hc₁ hr₁ => ?_
  rw [andThen_ok]
  refine always_check (fun e => hraise e s₁ hc₁ hr₁) fun fallback hfallback => ?_
  rw [always_bind]
  refine V.always_inUse (fun e s' hc hr => hraise e s' (hc.trans hc₁) (hr.trans hr₁)) ?_
  intro s₂ hc₂ hr₂
  refine hok _ s₂ ?_ (hc₂.trans hc₁) (hr₂.trans hr₁)
  simp only [newConnectionIn, hhost, hshare, hmountpoint, hid, href, hauto, hasked, hfallback]
  rfl

end StoreView

end Views

end Smbpal
