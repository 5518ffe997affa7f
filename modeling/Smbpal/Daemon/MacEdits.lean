import Mathlib.Logic.Function.Basic
import Smbpal.Daemon.Edits

/-!
# What a Request Makes of the Keychain

The stored config and the login Keychain from one request to the next, on
macOS.

The Keychain is a map keyed by exact host and account, and only SMBPal changes
it. Setting an item answers whether it was there before, which is all that is
ever known about whose it is: the answer is stored as a mark in the connection
the item was set for.

What works while a request is served is given (`Works`). A store that works
writes what validates; an applier that works succeeds; an agent that works does
what it is asked and says so. What does not work may still have had its effect.

## Main definitions

* `Mac`, `Item`: The stored config and the Keychain.
* `macMachine`: What the operations do to them.
* `Committed`: What a commit leaves.
* `MacEdit`: What a request leaves.
* `macStep`: One request after another.

## Theorems

* `always_macCommit`: What a commit leaves.
* `macStep_edits`: What a request leaves.
-/

namespace Smbpal

open Lib Program

/-- An item of a login Keychain. -/
structure Item where
  uid : Nat
  host : Str
  account : Str
  deriving DecidableEq

/-- The password of every item there is. -/
abbrev Keychain := Item → Option Str

/-- The stored config and the Keychain. -/
structure Mac where
  config : Config
  keychain : Keychain

/-- `credential_set` on an item. -/
def Keychain.put (k : Keychain) (item : Item) (password : Str) : Keychain :=
  Function.update k item (some password)

/-- `credential_forget` on an item. -/
def Keychain.forget (k : Keychain) (item : Item) : Keychain :=
  Function.update k item none

/-- What `credential_set` answers. -/
def Keychain.outcome (k : Keychain) (item : Item) : KeychainMark :=
  if k item = none then .created else .replaced

/-- What works while a request is served. -/
structure Works where
  store : Bool
  applier : Bool
  agent : Bool

section MacEdits

variable [Unicode]

/-- An agent's answer and its effect: what it says it did, unless it does not
    work. -/
def agentDoes {α : Type} (works : Works) (k k' : Keychain) (done : α) (effect : Keychain)
    (ans : Except Exc α) : Prop :=
  (ans = .ok done ∧ k' = effect) ∨
    works.agent = false ∧ (∃ e, ans = .error e) ∧ (k' = k ∨ k' = effect)

/-- The operations as the stored config and the Keychain see them. -/
def macMachine (works : Works) : Machine daemonSig Mac
  | .load, s, ans, s' => storeLoad s.config ans ∧ s' = s
  | .save doc, s, ans, s' => storeSave doc s.config ans s'.config ∧ s'.keychain = s.keychain ∧
      (works.store = true → doc.Valid → ans = .ok ())
  | .applierApply _, s, ans, s' => s' = s ∧ (works.applier = true → ans = .ok ())
  | .credentialSet uid host account password, s, ans, s' => s'.config = s.config ∧
      agentDoes works s.keychain s'.keychain (s.keychain.outcome ⟨uid, host, account⟩)
        (s.keychain.put ⟨uid, host, account⟩ password) ans
  | .credentialForget uid host account, s, ans, s' => s'.config = s.config ∧
      agentDoes works s.keychain s'.keychain () (s.keychain.forget ⟨uid, host, account⟩) ans
  | _, s, _, s' => s' = s

omit [Unicode] in
theorem Mac.eq_of {s s' : Mac} (hconfig : s'.config = s.config)
    (hkeychain : s'.keychain = s.keychain) :
    s' = s := by
  cases s
  cases s'
  simp only at hconfig hkeychain
  rw [hconfig, hkeychain]

theorem macMachine_quiet {works : Works} {op : DaemonOp} {s s' : Mac} {ans : Except Exc op.Value}
    (hop : isQuiet op = true) (h : macMachine works op s ans s') : s' = s := by
  cases op
  case load => exact absurd hop Bool.false_ne_true
  case save => exact absurd hop Bool.false_ne_true
  case credentialSet => exact absurd hop Bool.false_ne_true
  case credentialForget => exact absurd hop Bool.false_ne_true
  case applierApply => exact h.1
  all_goals exact h

theorem macView (works : Works) : StoreView (macMachine works) Mac.config Mac.keychain where
  onLoad := fun _ _ _ h => ⟨h.2, h.1⟩
  onSave := fun _ _ _ _ h => ⟨h.2.1, h.1⟩
  onQuiet := fun _ _ _ _ hop h => by rw [macMachine_quiet hop h]; exact ⟨rfl, rfl⟩

/-- What a commit leaves: the new document; or the old one, when the store or
    the applier does not work or the new one is no document; or the new one
    after all, when neither works. -/
def Committed (works : Works) (previous updated : Config) (k : Keychain) (r : Except Exc Unit)
    (s' : Mac) : Prop :=
  s'.keychain = k ∧
    ((r = .ok () ∧ s'.config = updated) ∨
      ((∃ e, r = .error e) ∧ s'.config = previous ∧
        ¬ (works.store = true ∧ works.applier = true ∧ updated.Valid)) ∨
      ((∃ e, r = .error e) ∧ s'.config = updated ∧ works.store = false ∧ works.applier = false))

section Commit

variable {works : Works} {d : Dispatcher} {s : Mac} {α β : Type}

theorem always_macSave {doc : Config} {Q : Except Exc Unit → Mac → Prop}
    (hraise : ∀ e, (works.store = true → ¬ doc.Valid) → Q (.error e) s)
    (hok : ∀ s', doc.Valid → s'.config = doc → s'.keychain = s.keychain → Q (.ok ()) s') :
    Always (macMachine works) (save doc) Q s := by
  refine (always_call (.save doc) _).mpr ?_
  rintro ans s' ⟨hsave, hkeychain, hworks⟩
  rcases storeSave_cases hsave with ⟨rfl, hvalid, hconfig⟩ | ⟨⟨e, rfl⟩, hconfig⟩
  · exact hok s' hvalid hconfig hkeychain
  · rw [Mac.eq_of hconfig hkeychain]
    exact hraise e fun hstore hvalid => nomatch hworks hstore hvalid

/-- With no mounter, applying is the applier. -/
theorem always_macApply (hmac : d.mounter = false) {applies : Bool} {doc other : Config}
    {Q : Except Exc Unit → Mac → Prop} (hraise : ∀ e, works.applier = false → Q (.error e) s)
    (hok : Q (.ok ()) s) :
    Always (macMachine works) (applyAll d applies doc other) Q s := by
  unfold applyAll
  rw [hmac, always_bind]
  cases applies with
  | false => exact hok
  | true =>
      refine (always_call (.applierApply doc) _).mpr ?_
      rintro ans s' ⟨rfl, hworks⟩
      cases ans with
      | ok u => exact hok
      | error e =>
          refine hraise e ?_
          cases happlier : works.applier with
          | false => rfl
          | true => exact nomatch hworks happlier

theorem always_macCommit (hmac : d.mounter = false) (hprevious : s.config.Valid)
    (updated : Config) :
    Always (macMachine works) (commit d s.config updated)
      (Committed works s.config updated s.keychain) s := by
  unfold commit
  rw [always_bind]
  refine always_macSave (fun e hno => ?_) fun s₁ hvalid hc₁ hk₁ => ?_
  · exact ⟨rfl, Or.inr (Or.inl ⟨⟨e, rfl⟩, rfl, fun h => hno h.1 h.2.2⟩)⟩
  have hdone : Committed works s.config updated s.keychain (.ok ()) s₁ := ⟨hk₁, Or.inl ⟨rfl, hc₁⟩⟩
  rw [andThen_ok]
  split
  · exact hdone
  · rw [always_tryCatch]
    refine always_macApply hmac (fun e happlier => ?_) hdone
    rw [orElse_error]
    unfold rollBack
    rw [always_bind]
    refine always_macSave (fun e' hno => ?_) fun s₂ _ hc₂ hk₂ => ?_
    · -- The undo was refused: the old document is valid, so the store failed.
      refine ⟨hk₁, Or.inr (Or.inr ⟨⟨e', rfl⟩, hc₁, ?_, happlier⟩)⟩
      cases hstore : works.store with
      | false => rfl
      | true => exact absurd hprevious (hno hstore)
    · have hundone : ∀ e', Committed works s.config updated s.keychain (.error e') s₂ := by
        intro e'
        refine ⟨hk₂.trans hk₁, Or.inr (Or.inl ⟨⟨e', rfl⟩, hc₂, fun h => ?_⟩)⟩
        rw [happlier] at h
        exact Bool.false_ne_true h.2.1
      rw [andThen_ok, always_bind, always_catching]
      refine always_macApply hmac (fun e' _ => ?_) (hundone e)
      rw [orCatch_error]
      split
      · exact hundone e
      · exact hundone e'

end Commit

/-- A connection with the account and the mark of an item. -/
def withMark (c : Connection) (account : Str) (mark : KeychainMark) : Connection :=
  { c with
    credentialAccount := some account
    keychainCredential := some mark }

/-- The mark a connection gets when an item is set for it. -/
def markIn (s : Mac) (item : Item) : KeychainMark :=
  keychainMark s.config item.host item.account (s.keychain.outcome item)

/-- The item an add gets as far as setting. -/
def addItem (d : Dispatcher) (env : Surroundings) (c : Config) (r : Request) : Except Exc Item := do
  let args ← newConnectionIn d env r.uid r.params
  let _ ← addConnection c args
  let username ← optionalStr r.params "username"
  let credential ← passwordFor r.params username
  match credential with
  | some (account, _) => pure ⟨r.uid, args.host, account⟩
  | none => .error .exception

/-- Whose credentials are set, and the item that is. -/
def setTarget (c : Config) (r : Request) : Except Exc (Connection × Item) := do
  let ref ← requireStr r.params "ref"
  let account ← requireStr r.params "username"
  let _ ← requirePassword r.params
  let found ← findConnection c ref
  pure (found, ⟨r.uid, pyStr found.host, account⟩)

/-- What is removed, and the document without it. -/
def removeTarget (c : Config) (r : Request) : Except Exc (Config × Connection) := do
  let ref ← requireStr r.params "ref"
  removeConnection c ref

/-- The item a removal takes away, if any. -/
def takenItem (uid : Nat) (doc : Config) (removed : Connection) : Option Item :=
  match truthy removed.credentialAccount with
  | some account =>
      if removed.keychainCredential = some .created ∧ sharingWith doc removed = [] then
        some ⟨uid, pyStr removed.host, account⟩
      else none
  | none => none

/-- The Keychain without an item, if there is one to take. -/
def Keychain.without (k : Keychain) : Option Item → Keychain
  | some item => k.forget item
  | none => k

/-- What an add leaves. -/
def MacAdd (d : Dispatcher) (env : Surroundings) (works : Works) (r : Request)
    (s s' : Mac) : Prop :=
  ∃ args doc added, addConnection s.config args = .ok (doc, added) ∧
    (s' = { s with config := doc } ∨
      ∃ item password, addItem d env s.config r = .ok item ∧ item.host = args.host ∧
        s'.keychain = s.keychain.put item password ∧
          (s'.config = updateWhere doc added.id (fun _ =>
          withMark added item.account (markIn s item)) ∨
            s'.config = s.config ∧ ¬ (works.agent = true ∧ works.store = true ∧
              works.applier = true ∧ IsAccount item.account)))

/-- What setting credentials leaves. -/
def MacSet (works : Works) (r : Request) (s s' : Mac) : Prop :=
  ∃ found item password, setTarget s.config r = .ok (found, item) ∧
    s'.keychain = s.keychain.put item password ∧
      (s'.config = updateWhere s.config found.id
          (fun c => withMark c item.account (markIn s item)) ∨
        s'.config = s.config ∧
          ¬ (works.agent = true ∧ works.store = true ∧ IsAccount item.account))

/-- What a removal leaves. -/
def MacRemove (works : Works) (r : Request) (s s' : Mac) : Prop :=
  ∃ doc removed, removeTarget s.config r = .ok (doc, removed) ∧ s'.config = moveMark doc removed ∧
    (s'.keychain = s.keychain.without (takenItem r.uid doc removed) ∨
      s'.keychain = s.keychain ∧
        ¬ (works.agent = true ∧ (works.store = true ∨ works.applier = true)))

/-- What a swap leaves. -/
def MacSwap (r : Request) (s s' : Mac) : Prop :=
  ∃ found fallback, swapTarget s.config r.params = .ok (found, fallback) ∧
    s' = { s with config := updateWhere s.config found.id fun _ => swapHosts fallback found }

/-- What a request that edits connections leaves. -/
def MacEdit (d : Dispatcher) (env : Surroundings) (works : Works) (r : Request) (s s' : Mac) :
    Prop :=
  match r.method with
  | .connectionAdd => MacAdd d env works r s s'
  | .connectionRemove => MacRemove works r s s'
  | .connectionSetCredentials => MacSet works r s s'
  | .connectionUseFallback => MacSwap r s s'
  | _ => False

section Handlers

variable {works : Works} {d : Dispatcher} {s : Mac} {α β : Type} {E : Mac → Prop}

/-- A document stays valid when one record is replaced by well-formed ones
    with its id. -/
theorem valid_updateWhere {c : Config} {id : Option Str} {f : Connection → Connection}
    (h : c.Valid)
    (hf : ∀ e ∈ c.connections, e.id = id → (f e).WellFormed ∧ (f e).id = e.id) :
    (updateWhere c id f).Valid := by
  rcases (valid_iff c).mp h with ⟨hsound, hnames⟩
  -- The function leaves the ids, so they are as distinct as before.
  have hids : (updateWhere c id f).ids = c.ids := by
    unfold Config.ids updateWhere
    dsimp only
    rw [List.filterMap_map]
    refine congrArg _ (List.filterMap_congr fun e he => ?_)
    rw [Function.comp_apply]
    split
    · rename_i hid
      exact (hf e he hid).2
    · rfl
  refine (valid_iff _).mpr ⟨⟨hsound.version, hsound.shares, ?_, ?_⟩, hnames⟩
  · intro e he
    rcases List.mem_map.mp he with ⟨e', he', rfl⟩
    split
    · rename_i hid
      exact (hf e' he' hid).1
    · exact hsound.connections e' he'
  · rw [hids]
    exact hsound.ids

omit [Unicode] in
theorem withMark_wellFormed {c : Connection} {account : Str} {mark : KeychainMark}
    (h : c.WellFormed) (haccount : IsAccount account) : (withMark c account mark).WellFormed :=
  { h with
    credentialAccount := by
      rintro v ⟨⟩
      exact haccount }

/-- Nothing is left to do that matters. -/
theorem mac_rest {p : DaemonM α}
    (hp : Performs (S := daemonSig) (fun op => isQuiet op = true) p) (hE : E s) :
    Always (macMachine works) p (fun _ s' => E s') s :=
  always_frame hp (fun _ _ _ _ => macMachine_quiet) fun _ => hE

/-- The load comes first. -/
theorem mac_load_then {f : Config → DaemonM β} (hE : E s)
    (hf : s.config.Valid → Always (macMachine works) (f s.config) (fun _ s' => E s') s) :
    Always (macMachine works) (load >>= f) (fun _ s' => E s') s := by
  rw [always_bind]
  exact (macView works).always_load (fun _ => hE) hf

/-- Setting an item: it is set, unless the agent does not work. -/
theorem mac_set_then (item : Item) {password : Str} {f : KeychainMark → DaemonM β} (hE : E s)
    (hlost : works.agent = false → E { s with keychain := s.keychain.put item password })
    (hf : Always (macMachine works) (f (s.keychain.outcome item)) (fun _ s' => E s')
      { s with keychain := s.keychain.put item password }) :
    Always (macMachine works) (call (.credentialSet item.uid item.host item.account password) >>= f)
      (fun _ s' => E s') s := by
  rw [always_bind]
  refine (always_call (.credentialSet item.uid item.host item.account password) _).mpr ?_
  rintro ans s' ⟨hconfig, ⟨rfl, hkeychain⟩ | ⟨hagent, ⟨e, rfl⟩, hkeychain⟩⟩
  · rw [show s' = { s with keychain := s.keychain.put item password } from
      Mac.eq_of hconfig hkeychain]
    exact hf
  · rcases hkeychain with hkeychain | hkeychain
    · rw [Mac.eq_of hconfig hkeychain]
      exact hE
    · rw [show s' = { s with keychain := s.keychain.put item password } from
        Mac.eq_of hconfig hkeychain]
      exact hlost hagent

/-- The end of an add: its commit, and nothing that matters after it. -/
theorem mac_finishAdd {updated : Config} {connection : Connection} {stored : Option Stored}
    (hmac : d.mounter = false) (hprevious : s.config.Valid)
    (hdone : E { s with config := updated })
    (hkept : ¬ (works.store = true ∧ works.applier = true ∧ updated.Valid) → E s) :
    Always (macMachine works) (finishAdd d s.config updated connection stored none)
      (fun _ s' => E s') s := by
  unfold finishAdd
  rw [always_bind, always_tryCatch]
  refine always_mono (always_macCommit hmac hprevious updated) ?_
  rintro r s' ⟨hkeychain, ⟨rfl, hconfig⟩ | ⟨⟨e, rfl⟩, hconfig, hno⟩ | ⟨⟨e, rfl⟩, hconfig, -⟩⟩
  · rw [show s' = { s with config := updated } from Mac.eq_of hconfig hkeychain]
    exact mac_rest (performs_bind (quiet_forgetState d connection.id) fun _ => trivial) hdone
  · rw [Mac.eq_of hconfig hkeychain]
    exact hkept hno
  · rw [show s' = { s with config := updated } from Mac.eq_of hconfig hkeychain]
    exact hdone

/-- The end of an add, from what it is asked for. -/
theorem mac_added {env : Surroundings} {r : Request} {args : NewConnection}
    (hmac : d.mounter = false) (hagents : d.agents = true) (hvalid : s.config.Valid)
    (hargs : newConnectionIn d env r.uid r.params = .ok args) :
    Always (macMachine works) (addFrom d r.uid r.params s.config args)
      (fun _ s' => s' = s ∨ MacAdd d env works r s s') s := by
  refine always_check (fun _ => Or.inl rfl) fun added hadded => ?_
  refine always_check (fun _ => Or.inl rfl) fun username husername => ?_
  refine always_check (fun _ => Or.inl rfl) fun credential hcredential => ?_
  rcases added with ⟨doc, added⟩
  have hok := addConnection_ok hadded
  cases credential with
  | none =>
      refine mac_finishAdd hmac hvalid (Or.inr ⟨args, doc, added, hadded, Or.inl rfl⟩) ?_
      exact fun _ => Or.inl rfl
  | some pair =>
      rcases pair with ⟨account, password⟩
      dsimp only
      rw [if_pos hagents]
      have hname : pyStr added.host = args.host := congrArg pyStr hok.host
      -- The item is set before the document that says so is stored.
      let item : Item := ⟨r.uid, pyStr added.host, account⟩
      have hitem : addItem d env s.config r = .ok item := by
        refine except_bind_eq_ok.mpr ⟨args, hargs, except_bind_eq_ok.mpr ⟨_, hadded, ?_⟩⟩
        refine except_bind_eq_ok.mpr ⟨username, husername, ?_⟩
        refine except_bind_eq_ok.mpr ⟨_, hcredential, ?_⟩
        rw [← hname]
        rfl
      let stored : Mac := { s with keychain := s.keychain.put item password }
      have horphan : ¬ (works.agent = true ∧ works.store = true ∧ works.applier = true ∧
          IsAccount account) → MacAdd d env works r s stored := fun hno =>
        ⟨args, doc, added, hadded, Or.inr ⟨item, password, hitem, hname, rfl, Or.inr ⟨rfl, hno⟩⟩⟩
      refine mac_set_then item (Or.inl rfl) (fun hagent => ?_) ?_
      · refine Or.inr (horphan fun h => ?_)
        rw [hagent] at h
        exact Bool.false_ne_true h.1
      · refine mac_finishAdd (s := stored) hmac hvalid (Or.inr ?_) fun hno => ?_
        · exact ⟨args, doc, added, hadded, Or.inr ⟨item, password, hitem, hname, rfl, Or.inl rfl⟩⟩
        · refine Or.inr (horphan fun h => hno ⟨h.2.1, h.2.2.1, ?_⟩)
          refine valid_updateWhere hok.valid fun e he hid => ⟨?_, hid ▸ rfl⟩
          have hadded' : added ∈ doc.connections := by
            rw [hok.result]
            exact List.mem_append_right _ (List.mem_singleton_self _)
          exact withMark_wellFormed (hok.valid.sound.connections added hadded') h.2.2.2

theorem mac_connectionAdd (env : Surroundings) {r : Request} (hmac : d.mounter = false)
    (hagents : d.agents = true) :
    Always (within env (macMachine works)) (connectionAdd d r.uid r.params)
      (fun _ s' => s' = s ∨ MacAdd d env works r s s') s := by
  have hsame : ∀ {s' : Mac}, s'.config = s.config → s'.keychain = s.keychain →
      s' = s ∨ MacAdd d env works r s s' := fun hconfig hkeychain =>
    Or.inl (Mac.eq_of hconfig hkeychain)
  unfold connectionAdd
  rw [always_bind]
  refine ((macView works).within env).always_load (fun _ => Or.inl rfl) fun hvalid => ?_
  rw [andThen_ok, always_bind]
  refine (macView works).always_newConnection (fun e s' hconfig hkeychain => ?_) ?_
  · exact hsame hconfig hkeychain
  · intro args s' hargs hconfig hkeychain
    rw [Mac.eq_of hconfig hkeychain, andThen_ok]
    exact always_within env (mac_added hmac hagents hvalid hargs)

theorem mac_connectionSetCredentials {r : Request} (hagents : d.agents = true) :
    Always (macMachine works) (connectionSetCredentials d r.uid r.params)
      (fun _ s' => s' = s ∨ MacSet works r s s') s := by
  refine always_check (fun _ => Or.inl rfl) fun ref href => ?_
  refine always_check (fun _ => Or.inl rfl) fun account haccount => ?_
  refine always_check (fun _ => Or.inl rfl) fun password hpassword => ?_
  rw [if_pos hagents]
  refine mac_load_then (Or.inl rfl) fun hvalid => ?_
  refine always_check (fun _ => Or.inl rfl) fun found hfound => ?_
  let item : Item := ⟨r.uid, pyStr found.host, account⟩
  let stored : Mac := { s with keychain := s.keychain.put item password }
  -- What the checks found is the target of the request.
  have htarget : setTarget s.config r = .ok (found, item) :=
    except_bind_eq_ok.mpr ⟨ref, href, except_bind_eq_ok.mpr ⟨account, haccount,
      except_bind_eq_ok.mpr ⟨password, hpassword, except_bind_eq_ok.mpr ⟨found, hfound, rfl⟩⟩⟩⟩
  -- The item is set and the record not marked, where the save can be refused.
  have horphan : ¬ (works.agent = true ∧ works.store = true ∧ IsAccount account) →
      MacSet works r s stored := fun hno =>
    ⟨found, item, password, htarget, rfl, Or.inr ⟨rfl, hno⟩⟩
  refine mac_set_then item (Or.inl rfl) (fun hagent => ?_) ?_
  · refine Or.inr (horphan fun h => ?_)
    rw [hagent] at h
    exact Bool.false_ne_true h.1
  · dsimp only
    rw [always_bind]
    refine always_macSave (s := stored) (fun e hno => ?_) fun s' _ hconfig hkeychain => ?_
    · -- The save was refused by the store, for the document would have been valid.
      refine Or.inr (horphan fun h => hno h.2.1 ?_)
      refine valid_updateWhere hvalid fun e he _ => ⟨?_, rfl⟩
      exact withMark_wellFormed (hvalid.sound.connections e he) h.2.2
    · rw [andThen_ok]
      refine mac_rest (performs_bind (quiet_forgetState d found.id) fun _ => trivial) (Or.inr ?_)
      exact ⟨found, item, password, htarget, hkeychain, Or.inl hconfig⟩

theorem mac_connectionUseFallback {r : Request} (hmac : d.mounter = false) :
    Always (macMachine works) (connectionUseFallback d r.params)
      (fun _ s' => s' = s ∨ MacSwap r s s') s := by
  refine always_check (fun _ => Or.inl rfl) fun ref href => ?_
  refine mac_load_then (Or.inl rfl) fun hvalid => ?_
  refine always_check (fun _ => Or.inl rfl) fun found hfound => ?_
  refine always_check (fun _ => Or.inl rfl) fun fallback hfallback => ?_
  have htarget : swapTarget s.config r.params = .ok (found, fallback) :=
    except_bind_eq_ok.mpr ⟨ref, href, except_bind_eq_ok.mpr
      ⟨found, hfound, except_bind_eq_ok.mpr ⟨fallback, hfallback, rfl⟩⟩⟩
  rw [always_bind]
  refine always_mono (always_macCommit hmac hvalid _) ?_
  rintro result s' ⟨hkeychain, ⟨rfl, hconfig⟩ | ⟨⟨e, rfl⟩, hconfig, -⟩ | ⟨⟨e, rfl⟩, hconfig, -⟩⟩
  · exact Or.inr ⟨found, fallback, htarget, Mac.eq_of hconfig hkeychain⟩
  · exact Or.inl (Mac.eq_of hconfig hkeychain)
  · exact Or.inr ⟨found, fallback, htarget, Mac.eq_of hconfig hkeychain⟩

/-- Taking an item away: it is gone, unless the agent does not work. -/
theorem mac_forget_then (item : Item) {f : Unit → DaemonM β}
    (hleft : works.agent = false → E s)
    (hgone : works.agent = false → E { s with keychain := s.keychain.forget item })
    (hf : Always (macMachine works) (f ()) (fun _ s' => E s')
      { s with keychain := s.keychain.forget item }) :
    Always (macMachine works) (call (.credentialForget item.uid item.host item.account) >>= f)
      (fun _ s' => E s') s := by
  rw [always_bind]
  refine (always_call (.credentialForget item.uid item.host item.account) _).mpr ?_
  rintro ans s' ⟨hconfig, ⟨rfl, hkeychain⟩ | ⟨hagent, ⟨e, rfl⟩, hkeychain⟩⟩
  · rw [show s' = { s with keychain := s.keychain.forget item } from
      Mac.eq_of hconfig hkeychain]
    exact hf
  · rcases hkeychain with hkeychain | hkeychain
    · rw [Mac.eq_of hconfig hkeychain]
      exact hleft hagent
    · rw [show s' = { s with keychain := s.keychain.forget item } from
        Mac.eq_of hconfig hkeychain]
      exact hgone hagent

/-- With an agent to ask, taking the item away is asking it to, when there is
    an item to take. -/
theorem takeItem_eq (hagents : d.agents = true) (uid : Nat) (doc : Config) (removed : Connection) :
    takeItem d uid doc removed = match takenItem uid doc removed with
      | some item => call (.credentialForget item.uid item.host item.account)
      | none => pure () := by
  unfold takeItem takenItem
  cases truthy removed.credentialAccount with
  | none => rfl
  | some account =>
      dsimp only
      rw [hagents, Bool.true_and]
      by_cases htakes : removed.keychainCredential = some .created ∧ sharingWith doc removed = []
      · rw [if_pos htakes, decide_eq_true htakes.1, decide_eq_true htakes.2]
        rfl
      · rw [if_neg htakes, ← Bool.decide_and, decide_eq_false htakes]
        rfl

/-- The item of a removed connection comes first. -/
theorem mac_takeItem_then (hagents : d.agents = true) {uid : Nat} {doc : Config}
    {removed : Connection} {f : Unit → DaemonM β} (hleft : works.agent = false → E s)
    (hf : Always (macMachine works) (f ()) (fun _ s' => E s')
      { s with keychain := s.keychain.without (takenItem uid doc removed) })
    (hgone : works.agent = false →
      E { s with keychain := s.keychain.without (takenItem uid doc removed) }) :
    Always (macMachine works) (takeItem d uid doc removed >>= f) (fun _ s' => E s') s := by
  rw [takeItem_eq hagents]
  cases htaken : takenItem uid doc removed with
  | none =>
      rw [htaken] at hf
      exact hf
  | some item =>
      rw [htaken] at hf hgone
      exact mac_forget_then item hleft hgone hf

theorem mac_connectionRemove {r : Request} (hmac : d.mounter = false) (hagents : d.agents = true) :
    Always (macMachine works) (connectionRemove d r.uid r.params)
      (fun _ s' => s' = s ∨ MacRemove works r s s') s := by
  refine always_check (fun _ => Or.inl rfl) fun ref href => ?_
  refine mac_load_then (Or.inl rfl) fun hvalid => ?_
  refine always_check (fun _ => Or.inl rfl) fun removed hremoved => ?_
  rcases removed with ⟨doc, removed⟩
  have htarget : removeTarget s.config r = .ok (doc, removed) :=
    except_bind_eq_ok.mpr ⟨ref, href, hremoved⟩
  let stored : Mac := { s with config := moveMark doc removed }
  -- The item stays, where the agent cannot be asked or the document not be stored.
  have hkept : ¬ (works.agent = true ∧ (works.store = true ∨ works.applier = true)) →
      MacRemove works r s stored := fun hno =>
    ⟨doc, removed, htarget, rfl, Or.inr ⟨rfl, hno⟩⟩
  have htaken : MacRemove works r s
      { stored with keychain := stored.keychain.without (takenItem r.uid doc removed) } :=
    ⟨doc, removed, htarget, rfl, Or.inl rfl⟩
  rw [always_bind]
  -- The document is committed first; only then is the item taken.
  refine always_mono (always_macCommit hmac hvalid _) ?_
  rintro result s' ⟨hkeychain, ⟨rfl, hconfig⟩ | ⟨⟨e, rfl⟩, hconfig, -⟩ |
    ⟨⟨e, rfl⟩, hconfig, hstore, happlier⟩⟩
  · rw [show s' = stored from Mac.eq_of hconfig hkeychain, andThen_ok]
    unfold takeFile
    rw [hmac]
    refine mac_takeItem_then (s := stored) hagents (fun hagent => Or.inr (hkept fun h => ?_)) ?_
      fun _ => Or.inr htaken
    · rw [hagent] at h
      exact Bool.false_ne_true h.1
    · exact mac_rest (performs_bind (quiet_forgetState d removed.id)
        fun _ => quiet_finishRemove d r.uid removed) (Or.inr htaken)
  · -- The commit failed and the document is the one before.
    exact Or.inl (Mac.eq_of hconfig hkeychain)
  · -- The commit failed and could not be undone.
    rw [show s' = stored from Mac.eq_of hconfig hkeychain]
    refine Or.inr (hkept ?_)
    rintro ⟨-, h | h⟩
    · rw [hstore] at h
      exact Bool.false_ne_true h
    · rw [happlier] at h
      exact Bool.false_ne_true h

end Handlers

/-- A request, what the system answers an add, and what works meanwhile. -/
structure MacEvent where
  request : Request
  surroundings : Surroundings
  works : Works

/-- One request after another. -/
def macStep (d : Dispatcher) (s : Mac) (event : MacEvent) (s' : Mac) : Prop :=
  ∃ result, Exec (within event.surroundings (macMachine event.works)) (event.request.program d) s
    result s'

/-- What a request that edits connections leaves. -/
theorem macStep_edits {d : Dispatcher} {s s' : Mac} {event : MacEvent} (hmac : d.mounter = false)
    (hagents : d.agents = true) (hmethod : editsConnections event.request.method = true)
    (h : macStep d s event s') :
    s' = s ∨ MacEdit d event.surroundings event.works event.request s s' := by
  rcases event with ⟨⟨method, uid, params⟩, env, works⟩
  rcases h with ⟨result, hexec⟩
  -- Each handler leaves what it leaves, and its answer nothing more.
  cases method with
  | connectionAdd =>
      have hadd : Always (within env (macMachine works)) (connectionAdd d uid params)
          (fun _ s' => s' = s ∨ MacAdd d env works ⟨.connectionAdd, uid, params⟩ s s') s :=
        mac_connectionAdd env (r := ⟨.connectionAdd, uid, params⟩) hmac hagents
      exact always_exec (always_acknowledge hadd) hexec
  | connectionRemove =>
      have hremove : Always (macMachine works) (connectionRemove d uid params)
          (fun _ s' => s' = s ∨ MacRemove works ⟨.connectionRemove, uid, params⟩ s s') s :=
        mac_connectionRemove (r := ⟨.connectionRemove, uid, params⟩) hmac hagents
      exact always_exec (always_acknowledge (always_within env hremove)) hexec
  | connectionSetCredentials =>
      have hset : Always (macMachine works) (connectionSetCredentials d uid params)
          (fun _ s' => s' = s ∨ MacSet works ⟨.connectionSetCredentials, uid, params⟩ s s') s :=
        mac_connectionSetCredentials (r := ⟨.connectionSetCredentials, uid, params⟩) hagents
      exact always_exec (always_acknowledge (always_within env hset)) hexec
  | connectionUseFallback =>
      have hswap : Always (macMachine works) (connectionUseFallback d params)
          (fun _ s' => s' = s ∨ MacSwap ⟨.connectionUseFallback, uid, params⟩ s s') s :=
        mac_connectionUseFallback (r := ⟨.connectionUseFallback, uid, params⟩) hmac
      exact always_exec (always_acknowledge (always_within env hswap)) hexec
  | connectionConnect => exact absurd hmethod Bool.false_ne_true
  | connectionDisconnect => exact absurd hmethod Bool.false_ne_true
  | shareAdd => exact absurd hmethod Bool.false_ne_true
  | shareRemove => exact absurd hmethod Bool.false_ne_true

/-- Only documents that validate are stored. -/
theorem macStep_valid {d : Dispatcher} {s s' : Mac} {event : MacEvent} (h : macStep d s event s')
    (hvalid : s.config.Valid) : s'.config.Valid := by
  rcases h with ⟨result, hexec⟩
  generalize event.request.program d = p at hexec
  induction hexec with
  | ret a s => exact hvalid
  | raise e s => exact hvalid
  | @perform op next s s₁ s₂ r ans hM _ ih =>
      refine ih ?_
      have hstep := hM.1
      cases op
      case load => rw [hstep.2]; exact hvalid
      case save doc =>
        rcases storeSave_cases hstep.1 with ⟨-, hdoc, hconfig⟩ | ⟨-, hconfig⟩
        · rw [hconfig]; exact hdoc
        · rw [hconfig]; exact hvalid
      case credentialSet => rw [hstep.1]; exact hvalid
      case credentialForget => rw [hstep.1]; exact hvalid
      case applierApply => rw [hstep.1]; exact hvalid
      all_goals rw [show s₁ = s from hstep]; exact hvalid

/-- A Mac that does what it is asked. -/
def obligingMac : (op : DaemonOp) → Mac → Except Exc op.Value × Mac
  | .load, s => (loadFrom s.config, s)
  | .save doc, s =>
      ((saveOver doc s.config).1, { s with config := (saveOver doc s.config).2 })
  | .credentialSet uid host account password, s =>
      (.ok (s.keychain.outcome ⟨uid, host, account⟩),
        { s with keychain := s.keychain.put ⟨uid, host, account⟩ password })
  | .credentialForget uid host account, s =>
      (.ok (), { s with keychain := s.keychain.forget ⟨uid, host, account⟩ })
  | op, s => ((obliging op s.config).1, s)

/-- Everything works. -/
def allWork : Works :=
  { store := true, applier := true, agent := true }

theorem macMachine_obligingMac (op : DaemonOp) (s : Mac) :
    macMachine allWork op s (obligingMac op s).1 (obligingMac op s).2 := by
  cases op
  case load => exact ⟨storeLoad_loadFrom s.config, rfl⟩
  case save doc =>
    refine ⟨storeSave_saveOver doc s.config, rfl, fun _ hvalid => ?_⟩
    exact congrArg Prod.fst (saveOver_valid hvalid s.config)
  case applierApply doc => exact ⟨rfl, fun _ => rfl⟩
  case credentialSet uid host account password => exact ⟨rfl, Or.inl ⟨rfl, rfl⟩⟩
  case credentialForget uid host account => exact ⟨rfl, Or.inl ⟨rfl, rfl⟩⟩
  all_goals rfl

theorem within_obligingMac (op : DaemonOp) (s : Mac) :
    within bareSurroundings (macMachine allWork) op s (obligingMac op s).1
    (obligingMac op s).2 := by
  refine ⟨macMachine_obligingMac op s, ?_⟩
  have hbare := (within_obliging op s.config).2
  cases op
  case getpwuid => exact hbare
  case occupiedMountpoints => exact hbare
  all_goals trivial

/-- A request when everything works. -/
def whenAllWorks (r : Request) : MacEvent :=
  { request := r, surroundings := bareSurroundings, works := allWork }

/-- What a request leaves when everything works. -/
def macServe (d : Dispatcher) (s : Mac) (r : Request) : Mac :=
  (runWith obligingMac (r.program d) s).2

/-- Requests served one after another are a run. -/
theorem macServe_run (d : Dispatcher) {guard : Mac → MacEvent → Prop} {s : Mac}
    {requests : List Request}
    (h : GuardedRun.Along (macServe d) (fun s r => guard s (whenAllWorks r)) s requests) :
    GuardedRun (macStep d) guard s (requests.foldl (macServe d) s) :=
  GuardedRun.foldl (fun s r => ⟨_, exec_runWith within_obligingMac (r.program d) s⟩) h

end MacEdits

end Smbpal
