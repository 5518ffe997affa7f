import Smbpal.Daemon.HandlerSpecs
import Smbpal.Lib.Run

/-!
# What a Request Makes of the Config

The stored config from one request to the next, when they come one after
another.

Whatever fails, a request leaves the stored config as it was or makes one edit
of it, and which edit depends on the method: `Edit` lists them, each with the
checks the handler made first. A failed commit whose undo fails too leaves the
edit behind, so a refusal does not mean that nothing changed; but an
acknowledged request did make its edit.

`program_edits` is the only place where the handlers are taken apart for this.
What the config keeps over any sequence of requests is proved from `Edit`, by
the induction of `GuardedRun.invariant` over `requestStep`.

## Main definitions

* `Site`: What identifies a connection, and what it mounts where.
* `Edit`: What a request makes of the stored config.
* `requestStep`: One request after another.

## Theorems

* `program_edits`: A request makes its edit, or is refused and changes nothing.
* `requestStep_edits`: The same of a step.
-/

namespace Smbpal

open Lib Program

/-- What identifies a connection, and what it mounts where. -/
structure Site where
  id : Option Str
  host : Option Str
  share : Option Str
  mountpoint : Option Str
  fallbackHost : Option Str

/-- The site of a connection. -/
def Connection.site (c : Connection) : Site :=
  { id := c.id
    host := c.host
    share := c.share
    mountpoint := c.mountpoint
    fallbackHost := c.fallbackHost }

/-- A change to records that keeps the site of each. -/
def KeepsSite (h : Connection → Connection) : Prop :=
  ∀ c, (h c).site = c.site

/-- A change to records that may move them, and no more. -/
def MayMove (h : Connection → Connection) : Prop :=
  ∀ c, ∃ mountpoint, (h c).site = { c.site with mountpoint := mountpoint }

/-- The requests that edit connections, and do nothing else. -/
def editsConnections : Method → Bool
  | .connectionAdd => true
  | .connectionRemove => true
  | .connectionSetCredentials => true
  | .connectionUseFallback => true
  | _ => false

section Edits

variable [Unicode]

/-- What an add makes of the stored config, once it is known what it adds. -/
def AddEdit (c : Config) (args : NewConnection) (c' : Config) : Prop :=
  ∃ doc added stored, addConnection c args = .ok (doc, added) ∧
    Connection.site stored = Connection.site added ∧ c'.connections = c.connections ++ [stored]

/-- What a request makes of the stored config, with what its handler made sure
    of first. -/
def Edit (d : Dispatcher) (env : Surroundings) (r : Request) (c c' : Config) : Prop :=
  match r.method with
  | .connectionAdd => ∃ args, newConnectionIn d env r.uid r.params = .ok args ∧ AddEdit c args c'
  | .connectionRemove => ∃ before removed after h, KeepsSite h ∧
      c.connections = before ++ removed :: after ∧ c'.connections = (before ++ after).map h
  | .connectionUseFallback => ∃ ref found fallback, requireStr r.params "ref" = .ok ref ∧
      findConnection c ref = .ok found ∧ fallbackOf found = .ok fallback ∧
        c' = updateWhere c found.id fun _ => swapHosts fallback found
  | .connectionSetCredentials => ∃ h, KeepsSite h ∧ c'.connections = c.connections.map h
  | .connectionConnect => ∃ h, MayMove h ∧ c'.connections = c.connections.map h
  | .connectionDisconnect => ∃ h, KeepsSite h ∧ c'.connections = c.connections.map h
  | .shareAdd => c'.connections = c.connections
  | .shareRemove => c'.connections = c.connections

/-- What a swap would swap. -/
def swapTarget (c : Config) (params : Params) : Except Exc (Connection × Str) := do
  let ref ← requireStr params "ref"
  let found ← findConnection c ref
  let fallback ← fallbackOf found
  pure (found, fallback)

/-- A refusal that changed nothing, or a valid document with the edit in it. -/
def Leaves {α : Type} (E : Config → Prop) (c : Config) (r : Except Exc α) (c' : Config) : Prop :=
  (c' = c ∧ ∃ e, r = .error e) ∨ (c'.Valid ∧ E c')

/-- The stored config as a view of the machine that has nothing else. -/
theorem storeView : StoreView storeMachine id fun _ => () where
  onLoad := fun _ _ _ h => ⟨h.2, h.1⟩
  onSave := fun _ _ _ _ h => ⟨rfl, h⟩
  onQuiet := fun _ _ _ _ hop h => ⟨storeMachine_silent (silent_of_quiet hop) h, rfl⟩

/-- A valid document without null ids, where one id is one record. -/
structure Tidy (c : Config) : Prop where
  valid : c.Valid
  named : ∀ e ∈ c.connections, e.id ≠ none

theorem Tidy.unique {c : Config} (h : Tidy c) {a b : Connection} (ha : a ∈ c.connections)
    (hb : b ∈ c.connections) (hid : a.id = b.id) : a = b := by
  cases hb' : b.id with
  | none => exact absurd hb' (h.named b hb)
  | some id => exact h.valid.sound.connection_unique ha hb (hid.trans hb') hb'

section Rules

variable {α β : Type} {E : Config → Prop} {d : Dispatcher} {c c₁ : Config}

theorem leaves_error (e : Exc) : Leaves (α := α) E c (.error e) c :=
  Or.inl ⟨rfl, e, rfl⟩

theorem leaves_mono {E' : Config → Prop} {r : Except Exc α} {c' : Config}
    (hE : ∀ x, E x → E' x) (h : Leaves E c r c') : Leaves E' c r c' := by
  rcases h with h | ⟨hvalid, h⟩
  · exact Or.inl h
  · exact Or.inr ⟨hvalid, hE c' h⟩

/-- Once the edit is made, what does not use the store keeps it. -/
theorem leaves_rest {p : DaemonM α}
    (hp : Performs (S := daemonSig) (fun op => usesStore op = false) p) (hvalid : c₁.Valid)
    (hE : E c₁) : Always storeMachine p (Leaves E c) c₁ :=
  always_frame hp (fun _ _ _ _ hop => storeMachine_silent hop) fun _ => Or.inr ⟨hvalid, hE⟩

/-- What does not use the store comes first. -/
theorem leaves_silent_then {p : DaemonM α} {f : α → DaemonM β}
    (hp : Performs (S := daemonSig) (fun op => usesStore op = false) p)
    (hf : ∀ a, Always storeMachine (f a) (Leaves E c) c) :
    Always storeMachine (p >>= f) (Leaves E c) c := by
  rw [always_bind]
  refine always_frame hp (fun _ _ _ _ hop => storeMachine_silent hop) fun r => ?_
  cases r with
  | ok a => exact hf a
  | error e => exact leaves_error e

/-- A check comes first. -/
theorem leaves_check_then {r : Except Exc α} {f : α → DaemonM β}
    (hf : ∀ a, r = .ok a → Always storeMachine (f a) (Leaves E c) c) :
    Always storeMachine (fromExcept r >>= f) (Leaves E c) c :=
  always_check leaves_error hf

/-- The load comes first. -/
theorem leaves_load_then {f : Config → DaemonM β}
    (hf : c.Valid → Always storeMachine (f c) (Leaves E c) c) :
    Always storeMachine (load >>= f) (Leaves E c) c := by
  rw [always_bind]
  exact storeView.always_load leaves_error hf

/-- A commit made its edit, or raised and may have made it. -/
theorem leaves_commit {updated : Config} (hE : E updated) :
    Always storeMachine (commit d c updated) (Leaves E c) c := by
  refine storeView.always_commit ?_ fun s' _ hvalid hs => ?_
  · rintro e s' - (hs | ⟨hvalid, hs⟩)
    · rw [show s' = c from hs]
      exact leaves_error e
    · rw [show s' = updated from hs]
      exact Or.inr ⟨hvalid, hE⟩
  · rw [show s' = updated from hs]
    exact Or.inr ⟨hvalid, hE⟩

/-- The commit comes first, and nothing after it uses the store. -/
theorem leaves_commit_then {updated : Config} {f : Unit → DaemonM β} (hE : E updated)
    (hf : ∀ u, Performs (S := daemonSig) (fun op => usesStore op = false) (f u)) :
    Always storeMachine (commit d c updated >>= f) (Leaves E c) c := by
  rw [always_bind]
  refine always_mono (leaves_commit hE) ?_
  rintro r s (⟨rfl, e, rfl⟩ | ⟨hvalid, hs⟩)
  · exact leaves_error e
  · cases r with
    | ok u => exact leaves_rest (hf u) hvalid hs
    | error e => exact Or.inr ⟨hvalid, hs⟩

/-- The save comes first, and nothing after it uses the store. -/
theorem leaves_save_then {updated : Config} {f : Unit → DaemonM β} (hE : E updated)
    (hf : ∀ u, Performs (S := daemonSig) (fun op => usesStore op = false) (f u)) :
    Always storeMachine (save updated >>= f) (Leaves E c) c := by
  rw [always_bind]
  refine storeView.always_save (fun e s' hs _ => ?_) fun s' hvalid hs _ => ?_
  · rw [show s' = c from hs]
    exact leaves_error e
  · rw [show s' = updated from hs]
    exact leaves_rest (hf ()) hvalid hE

theorem leaves_acknowledge {M : Machine daemonSig Config} {handler : DaemonM α}
    (h : Always M handler (Leaves E c) c) : Always M (acknowledge handler) (Leaves E c) c := by
  unfold acknowledge
  rw [always_bind]
  refine always_mono h ?_
  rintro r s (⟨rfl, e, rfl⟩ | hs)
  · exact leaves_error e
  · cases r with
    | ok a => exact Or.inr hs
    | error e => exact Or.inr hs

end Rules

section Handlers

variable {d : Dispatcher} {c : Config}

/-- Naming the credentials of a connection just added touches no other
    record. -/
theorem updateWhere_added {args : NewConnection} {doc : Config} {added : Connection}
    (h : Added c args doc added) (named : Connection) :
    (updateWhere doc added.id fun _ => named).connections = c.connections ++ [named] := by
  have hold : ∀ e ∈ c.connections, e.id ≠ added.id := by
    intro e he heq
    rcases h.id with ⟨id, hid, hfree⟩
    refine hfree ?_
    unfold Config.ids
    rw [List.mem_append]
    refine Or.inr (List.mem_filterMap.mpr ⟨e, he, ?_⟩)
    rw [heq, hid]
  have hkept : c.connections.map (fun e => if e.id = added.id then named else e) =
      c.connections := by
    conv_rhs => rw [← List.map_id c.connections]
    exact List.map_congr_left fun e he => if_neg (hold e he)
  unfold updateWhere
  rw [h.result]
  dsimp only
  rw [List.map_append, hkept, List.map_singleton, if_pos rfl]

theorem leaves_finishAdd {E : Config → Prop} {updated : Config} {connection : Connection}
    {stored : Option Stored} {writtenRef : Option Str} (hE : E updated) :
    Always storeMachine (finishAdd d c updated connection stored writtenRef)
      (Leaves E c) c := by
  unfold finishAdd
  rw [always_bind, always_tryCatch]
  refine always_mono (leaves_commit hE) ?_
  intro r s hs
  cases r with
  | ok u =>
      rcases hs with ⟨-, e, he⟩ | ⟨hvalid, hs⟩
      · exact nomatch he
      · exact leaves_rest (performs_bind (performs_of_quiet (quiet_forgetState d _))
          fun _ => trivial) hvalid hs
  | error e =>
      rw [orElse_error, always_bind]
      -- Taking the file back does not use the store, and the exception goes on.
      refine always_frame (performs_takeBack writtenRef)
        (fun _ _ _ _ hop => storeMachine_silent hop) fun r => ?_
      have hleft : ∀ e', Leaves (α := AddedConnection) E c (.error e') s := by
        intro e'
        rcases hs with ⟨hs, -⟩ | hs
        · exact Or.inl ⟨hs, e', rfl⟩
        · exact Or.inr hs
      cases r with
      | ok u => exact hleft e
      | error e' => exact hleft e'

/-- The end of an add, from what it is asked for. -/
theorem leaves_added {uid : Nat} {params : Params} (args : NewConnection) :
    Always storeMachine (addFrom d uid params c args) (Leaves (AddEdit c args) c) c := by
  refine leaves_check_then fun added hadded => leaves_check_then fun username _ => ?_
  refine leaves_check_then fun credential _ => ?_
  rcases added with ⟨doc, added⟩
  have hok := addConnection_ok hadded
  -- Without credentials the record added is the one stored.
  cases credential with
  | none =>
      refine leaves_finishAdd ⟨doc, added, added, hadded, rfl, ?_⟩
      rw [hok.result]
  | some pair =>
      rcases pair with ⟨username, password⟩
      dsimp only
      split
      · -- With an agent the record is marked for its Keychain item, else for its file.
        refine leaves_silent_then (performs_silent rfl) fun outcome => leaves_finishAdd ?_
        refine ⟨doc, added, _, hadded, ?_, updateWhere_added hok _⟩
        rfl
      · unfold addWithFile
        split
        · refine leaves_check_then fun ref _ => leaves_check_then fun domain _ => ?_
          refine leaves_silent_then (performs_writeCredentials _ _ _ _) fun _ => ?_
          refine leaves_finishAdd ?_
          refine ⟨doc, added, _, hadded, ?_, updateWhere_added hok _⟩
          rfl
        · exact leaves_error _

/-- An acknowledged add has added a connection. -/
theorem leaves_connectionAdd (uid : Nat) (params : Params) :
    Always storeMachine (connectionAdd d uid params)
      (Leaves (fun c' => ∃ args, AddEdit c args c') c) c := by
  refine leaves_load_then fun _ => leaves_silent_then (performs_of_quiet
    (quiet_newConnection uid params)) ?_
  exact fun args => always_mono (leaves_added args) fun _ _ => leaves_mono fun _ h => ⟨args, h⟩

/-- An acknowledged add has added the connection it was asked for. -/
theorem leaves_connectionAdd_within (env : Surroundings) (uid : Nat) (params : Params) :
    Always (within env storeMachine) (connectionAdd d uid params)
      (Leaves (fun c' => ∃ args, newConnectionIn d env uid params = .ok args ∧
        AddEdit c args c') c) c := by
  unfold connectionAdd
  rw [always_bind]
  refine (storeView.within env).always_load
    (fun e => (andThen_error _ _ e).mpr (leaves_error e)) fun _ => ?_
  rw [andThen_ok, always_bind]
  refine storeView.always_newConnection (fun e s' hs _ => ?_) fun args s' hargs hs _ => ?_
  · rw [show s' = c from hs, andThen_error]
    exact leaves_error e
  · rw [show s' = c from hs, andThen_ok]
    refine always_mono (always_within env (leaves_added args)) fun _ _ => leaves_mono ?_
    exact fun _ h => ⟨args, hargs, h⟩

theorem findConnection_mem {c : Config} {ref : Str} {found : Connection}
    (h : findConnection c ref = .ok found) : found ∈ c.connections := by
  unfold findConnection at h
  split at h
  · rename_i e he
    cases h
    exact List.mem_of_find?_eq_some he
  · exact nomatch h

theorem moveMark_connections (updated : Config) (removed : Connection) :
    ∃ h, KeepsSite h ∧ (moveMark updated removed).connections = updated.connections.map h := by
  unfold moveMark
  split
  · refine ⟨_, ?_, rfl⟩
    intro other
    dsimp only
    split
    · rfl
    · rfl
  · exact ⟨id, fun _ => rfl, (List.map_id _).symm⟩

theorem leaves_connectionRemove (uid : Nat) (params : Params) :
    Always storeMachine (connectionRemove d uid params)
      (Leaves (fun c' => ∃ before removed after h, KeepsSite h ∧
        c.connections = before ++ removed :: after ∧
          c'.connections = (before ++ after).map h) c) c := by
  refine leaves_check_then fun ref _ => leaves_load_then fun _ => ?_
  refine leaves_check_then fun removed hremoved => leaves_commit_then ?_ fun _ => ?_
  · rcases removed with ⟨doc, removed⟩
    rcases removeConnection_ok hremoved with ⟨before, after, hsplit, hdoc, -⟩
    rcases moveMark_connections doc removed with ⟨h, hkeeps, hmap⟩
    refine ⟨before, removed, after, h, hkeeps, hsplit, ?_⟩
    rw [hmap, hdoc]
  · refine performs_bind (performs_takeFile d _) fun _ => performs_bind ?_ fun _ =>
      performs_bind (performs_of_quiet (quiet_forgetState d _)) fun _ =>
        performs_of_quiet (quiet_finishRemove d uid _)
    unfold takeItem
    split
    · exact footprint_onlyIf fun _ => performs_silent rfl
    · exact (footprint_pure _).mpr trivial

theorem leaves_connectionUseFallback (params : Params) :
    Always storeMachine (connectionUseFallback d params)
      (Leaves (fun c' => ∃ ref found fallback, requireStr params "ref" = .ok ref ∧
        findConnection c ref = .ok found ∧ fallbackOf found = .ok fallback ∧
          c' = updateWhere c found.id fun _ => swapHosts fallback found) c) c := by
  refine leaves_check_then fun ref href => leaves_load_then fun _ => ?_
  refine leaves_check_then fun found hfound => leaves_check_then fun fallback hfallback => ?_
  exact leaves_commit_then ⟨ref, found, fallback, href, hfound, hfallback, rfl⟩ fun _ => trivial

omit [Unicode] in
/-- An update of the credentials of every record with one id. -/
theorem updateWhere_keeps {id : Option Str} {f : Connection → Connection} (hf : KeepsSite f) :
    ∃ h, KeepsSite h ∧ (updateWhere c id f).connections = c.connections.map h := by
  refine ⟨_, ?_, rfl⟩
  intro e
  dsimp only
  split
  · exact hf e
  · rfl

theorem leaves_connectionSetCredentials (uid : Nat) (params : Params) :
    Always storeMachine (connectionSetCredentials d uid params)
      (Leaves (fun c' => ∃ h, KeepsSite h ∧ c'.connections = c.connections.map h) c) c := by
  refine leaves_check_then fun ref _ => leaves_check_then fun username _ => ?_
  refine leaves_check_then fun password _ => ?_
  split
  · refine leaves_load_then fun _ => leaves_check_then fun found _ => ?_
    refine leaves_silent_then (performs_silent rfl) fun outcome => ?_
    exact leaves_save_then (updateWhere_keeps fun _ => rfl) fun _ =>
      performs_bind (performs_of_quiet (quiet_forgetState d _)) fun _ => trivial
  · split
    · refine leaves_load_then fun _ => leaves_check_then fun found _ => ?_
      refine leaves_check_then fun credentialRef _ => leaves_check_then fun domain _ => ?_
      refine leaves_silent_then (performs_writeCredentials _ _ _ _) fun _ => ?_
      exact leaves_commit_then (updateWhere_keeps fun _ => rfl) fun _ =>
        performs_bind (performs_of_quiet (quiet_forgetState d _)) fun _ => trivial
    · exact leaves_error _

theorem leaves_shareAdd (params : Params) :
    Always storeMachine (shareAdd d params)
      (Leaves (fun c' => c'.connections = c.connections) c) c := by
  have hshadow : ∀ name config, Performs (S := daemonSig) (fun op => usesStore op = false)
      (refuseToShadow d name config) := by
    intro name config
    unfold refuseToShadow
    split
    · exact (footprint_pure _).mpr trivial
    · exact performs_bind (footprint_catching (performs_silent rfl) fun _ => trivial) fun _ =>
        (footprint_fromExcept _).mpr fun _ _ => trivial
  refine leaves_check_then fun name _ =>
    leaves_check_then fun path _ => leaves_load_then fun _ => ?_
  refine leaves_silent_then (hshadow name c) fun _ => leaves_check_then fun id _ => ?_
  refine leaves_check_then fun readOnly _ => leaves_check_then fun credentialRef _ => ?_
  refine leaves_check_then fun enabled _ => leaves_check_then fun added hadded => ?_
  refine leaves_commit_then ?_ fun _ => performs_bind (performs_silent rfl) fun _ => trivial
  rw [(addShare_ok hadded).1]

theorem leaves_shareRemove (params : Params) :
    Always storeMachine (shareRemove d params)
      (Leaves (fun c' => c'.connections = c.connections) c) c := by
  refine leaves_check_then fun ref _ => leaves_load_then fun _ => ?_
  refine leaves_check_then fun removed hremoved => leaves_commit_then ?_ fun _ => trivial
  exact (removeShare_ok hremoved).1

/-- Recording a disconnect marks the records with one id. -/
theorem always_setDisconnected (id : Option Str) (value : Bool) (hvalid : c.Valid) :
    Always storeMachine (setDisconnected id value)
      (fun _ s => s.Valid ∧ ∃ h, KeepsSite h ∧ s.connections = c.connections.map h) c := by
  have hhere : c.Valid ∧ ∃ h, KeepsSite h ∧ c.connections = c.connections.map h :=
    ⟨hvalid, fun e => e, fun _ => rfl, (List.map_id _).symm⟩
  -- The mark is none of what the site of a connection is made of.
  have hmark : KeepsSite (markDisconnected id value) := by
    intro e
    unfold markDisconnected
    split
    · rfl
    · rfl
  unfold setDisconnected
  rw [always_bind]
  refine storeView.always_load (fun _ => hhere) fun _ => ?_
  rw [andThen_ok]
  unfold onlyIf
  split
  · refine storeView.always_save (fun e s hs _ => ?_) fun s hs hc _ => ?_
    · rw [show s = c from hs]
      exact hhere
    · rw [show s = _ from hc]
      exact ⟨hs, _, hmark, rfl⟩
  · exact hhere

/-- Recording where a share landed moves the records with one id. -/
theorem always_recordWhereItLanded (connection : Connection) (landed : Str) (hvalid : c.Valid) :
    Always storeMachine (recordWhereItLanded connection landed)
      (fun _ s => s.Valid ∧ ∃ h, MayMove h ∧ s.connections = c.connections.map h) c := by
  have hhere : c.Valid ∧ ∃ h, MayMove h ∧ c.connections = c.connections.map h :=
    ⟨hvalid, fun e => e, fun e => ⟨e.mountpoint, rfl⟩, (List.map_id _).symm⟩
  unfold recordWhereItLanded
  split
  · exact hhere
  · rw [always_bind]
    refine storeView.always_load (fun _ => hhere) fun _ => ?_
    rw [andThen_ok]
    refine storeView.always_save (fun e s hs _ => ?_) fun s hs hc _ => ?_
    · rw [show s = c from hs]
      exact hhere
    · rw [show s = _ from hc]
      refine ⟨hs, _, fun e => ?_, rfl⟩
      dsimp only
      split
      · exact ⟨some landed, rfl⟩
      · exact ⟨e.mountpoint, rfl⟩

omit [Unicode] in
theorem mayMove_comp {h g : Connection → Connection} (hh : KeepsSite h) (hg : MayMove g) :
    MayMove (g ∘ h) := by
  intro e
  rcases hg (h e) with ⟨mountpoint, hsite⟩
  refine ⟨mountpoint, ?_⟩
  rw [Function.comp_apply, hsite, hh e]

/-- Looking a connection up changes nothing, and only a valid document is
    looked up in. -/
theorem always_connectionFor (params : Params) :
    Always storeMachine (connectionFor params)
      (fun r s => s = c ∧ ((∃ e, r = .error e) ∨ c.Valid)) c := by
  unfold connectionFor
  rw [always_bind]
  refine storeView.always_load (fun e => ⟨rfl, Or.inl ⟨e, rfl⟩⟩) fun hvalid => ?_
  refine always_check (fun e => ⟨rfl, Or.inl ⟨e, rfl⟩⟩) fun ref _ => ?_
  rw [always_fromExcept]
  exact ⟨rfl, Or.inr hvalid⟩

/-- What happens once something is looked up, when nothing was changed so
    far. -/
theorem leaves_lookup_then {α β : Type} {E : Config → Prop} {p : DaemonM α} {f : α → DaemonM β}
    (hp : Always storeMachine p
      (fun r s => s = c ∧ ((∃ e, r = .error e) ∨ c.Valid)) c)
    (hf : c.Valid → ∀ found, Always storeMachine (f found) (Leaves E c) c) :
    Always storeMachine (p >>= f) (Leaves E c) c := by
  rw [always_bind]
  refine always_mono hp ?_
  rintro r s ⟨rfl, hr⟩
  cases r with
  | error e => exact leaves_error e
  | ok found =>
      rcases hr with ⟨e, he⟩ | hvalid
      · exact nomatch he
      · exact hf hvalid found

theorem leaves_connectViaAgent (uid : Nat) (params : Params) :
    Always storeMachine (connectViaAgent uid params)
      (Leaves (fun c' => ∃ h, MayMove h ∧ c'.connections = c.connections.map h) c) c := by
  refine leaves_lookup_then (always_connectionFor params) fun hvalid found => ?_
  refine leaves_silent_then (performs_of_quiet (quiet_smbUrl _)) fun url => ?_
  refine leaves_silent_then (performs_silent rfl) fun landed => ?_
  rw [always_bind]
  refine always_mono (always_setDisconnected found.id false hvalid) ?_
  rintro r s ⟨hs, h, hkeeps, hmap⟩
  have hmoves : MayMove h := fun e => ⟨e.mountpoint, hkeeps e⟩
  cases r with
  | error e => exact Or.inr ⟨hs, h, hmoves, hmap⟩
  | ok u =>
      rw [andThen_ok, always_bind]
      refine always_mono (always_recordWhereItLanded found landed hs) ?_
      rintro r s' ⟨hs', g, hg, hmap'⟩
      -- The mark and the place are two edits, the one after the other.
      have hboth : s'.connections = c.connections.map (g ∘ h) := by
        rw [hmap', hmap, List.map_map]
      cases r with
      | error e => exact Or.inr ⟨hs', _, mayMove_comp hkeeps hg, hboth⟩
      | ok u => exact Or.inr ⟨hs', _, mayMove_comp hkeeps hg, hboth⟩

theorem leaves_disconnectViaAgent (uid : Nat) (params : Params) :
    Always storeMachine (disconnectViaAgent uid params)
      (Leaves (fun c' => ∃ h, KeepsSite h ∧ c'.connections = c.connections.map h) c) c := by
  refine leaves_lookup_then (always_connectionFor params) fun hvalid found => ?_
  refine leaves_silent_then (performs_of_quiet (quiet_smbUrl _)) fun url => ?_
  refine leaves_silent_then (performs_silent rfl) fun unmounted => ?_
  rw [always_bind]
  refine always_mono (always_setDisconnected found.id true hvalid) ?_
  rintro r s hs
  cases r with
  | error e => exact Or.inr hs
  | ok u => exact Or.inr hs

theorem always_unitFor (params : Params) :
    Always storeMachine (unitFor d params)
      (fun r s => s = c ∧ ((∃ e, r = .error e) ∨ c.Valid)) c := by
  unfold unitFor
  split
  · rw [always_bind]
    refine always_mono (always_connectionFor params) ?_
    rintro r s ⟨rfl, hr⟩
    cases r with
    | error e => exact ⟨rfl, Or.inl ⟨e, rfl⟩⟩
    | ok found =>
        rcases hr with ⟨e, he⟩ | hvalid
        · exact nomatch he
        · exact always_check (fun e => ⟨rfl, Or.inl ⟨e, rfl⟩⟩) fun names _ => ⟨rfl, Or.inr hvalid⟩
  · exact ⟨rfl, Or.inl ⟨_, rfl⟩⟩

end Handlers

/-- A request makes its edit, or is refused and changes nothing. -/
theorem program_edits (d : Dispatcher) (env : Surroundings) (r : Request) (c : Config) :
    Always (within env storeMachine) (r.program d) (Leaves (Edit d env r c) c) c := by
  rcases r with ⟨method, uid, params⟩
  by_cases hadd : method = .connectionAdd
  · subst hadd
    exact leaves_acknowledge (leaves_connectionAdd_within env uid params)
  -- No other handler reads its surroundings.
  refine always_within env ?_
  cases method with
  | connectionAdd => exact absurd rfl hadd
  | connectionRemove => exact leaves_acknowledge (leaves_connectionRemove uid params)
  | connectionSetCredentials =>
      exact leaves_acknowledge (leaves_connectionSetCredentials uid params)
  | connectionUseFallback => exact leaves_acknowledge (leaves_connectionUseFallback params)
  | connectionConnect =>
      change Always _ (connectionConnect d uid params) _ c
      unfold connectionConnect
      split
      · exact leaves_acknowledge (leaves_connectViaAgent uid params)
      · refine leaves_lookup_then (always_unitFor params) fun hvalid unit => ?_
        refine leaves_rest (performs_bind (performs_silent rfl)
          fun _ => performs_silent rfl) hvalid ?_
        exact ⟨fun e => e, fun e => ⟨e.mountpoint, rfl⟩, (List.map_id _).symm⟩
  | connectionDisconnect =>
      change Always _ (connectionDisconnect d uid params) _ c
      unfold connectionDisconnect
      split
      · exact leaves_acknowledge (leaves_disconnectViaAgent uid params)
      · refine leaves_lookup_then (always_unitFor params) fun hvalid unit => ?_
        exact leaves_rest (performs_silent rfl) hvalid
          ⟨fun e => e, fun _ => rfl, (List.map_id _).symm⟩
  | shareAdd => exact leaves_acknowledge (leaves_shareAdd params)
  | shareRemove => exact leaves_acknowledge (leaves_shareRemove params)

/-- One request, in the surroundings it was answered in. -/
def requestStep (d : Dispatcher) (c : Config) (event : Request × Surroundings) (c' : Config) :
    Prop :=
  ∃ result, Exec (within event.2 storeMachine) (event.1.program d) c result c'

theorem requestStep_edits {d : Dispatcher} {c c' : Config} {event : Request × Surroundings}
    (h : requestStep d c event c') : c' = c ∨ (c'.Valid ∧ Edit d event.2 event.1 c c') := by
  rcases h with ⟨result, hexec⟩
  rcases always_exec (program_edits d event.2 event.1 c) hexec with ⟨hsame, -⟩ | hedit
  · exact Or.inl hsame
  · exact Or.inr hedit

/-- The daemon on macOS: no mounter, and agents to ask. -/
def darwinDaemon : Dispatcher :=
  { applier := none
    mounter := false
    agents := true
    monitor := false
    style := darwinStyle }

/-- The daemon on Linux: a mounter, and no agents. -/
def linuxDaemon : Dispatcher :=
  { applier := none
    mounter := true
    agents := false
    monitor := false
    style := linuxStyle }

/-- Nobody is logged in, and nothing is mounted. -/
def bareSurroundings : Surroundings :=
  { owner := none, taken := [] }

/-- What a request leaves when everything does what it is asked. -/
def serve (d : Dispatcher) (c : Config) (r : Request) : Config :=
  (runWith obliging (r.program d) c).2

theorem within_obliging (op : DaemonOp) (c : Config) :
    within bareSurroundings storeMachine op c (obliging op c).1 (obliging op c).2 := by
  refine ⟨storeMachine_obliging op c, ?_⟩
  cases op
  case getpwuid uid =>
    intro owner h
    cases h
    rfl
  case occupiedMountpoints =>
    intro taken h
    cases h
    rfl
  all_goals trivial

/-- Requests served one after another are a run. -/
theorem serve_run (d : Dispatcher) {guard : Config → Request × Surroundings → Prop} {c : Config}
    {requests : List Request}
    (h : GuardedRun.Along (serve d) (fun c r => guard c (r, bareSurroundings)) c requests) :
    GuardedRun (requestStep d) guard c (requests.foldl (serve d) c) :=
  GuardedRun.foldl (fun c r => ⟨_, exec_runWith within_obliging (r.program d) c⟩) h

end Edits

end Smbpal
