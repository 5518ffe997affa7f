import Mathlib.Data.List.Forall2
import Smbpal.Agent.Reconnect
import Smbpal.Daemon.Edits

/-!
# Other People's Records

On macOS a connect or a disconnect happens in the session of whoever asks: the
uid the kernel reports chooses the agent. What comes of it is written into the
record the request names, and every user's reconnect loop reads the records.

The reference may name anybody's record. The uid is asked which session to
mount in, and nothing asks whose record it is. So a request leaves other users'
records alone exactly when every record it would write to is the account's own
(`NamesOwn`), and then no other user's loop can tell that there was a request.

## Main definitions

* `agentMachine`: The operations as the stored config sees them.
* `KeptApart`: What one user's request keeps of the others.
* `NamesOwn`: The record the request names is the account's own.

## Theorems

* `keptApart_of_only`: Loops of other users see no difference.
* `kept_apart_iff`: What keeps the users apart.
* `disconnects_someone_else`: Where it does not.
-/

namespace Smbpal

open Lib Program

section OthersRecords

variable [Unicode]

/-- The operations as the stored config sees them, with the URL built as it
    is. -/
def agentMachine : Machine daemonSig Config
  | .smbUrl host share, stored, ans, stored' => ans = netfsSmbUrl host share ∧ stored' = stored
  | op, stored, ans, stored' => storeMachine op stored ans stored'

theorem agentView : StoreView agentMachine id fun _ => () where
  onLoad := fun _ _ _ h => ⟨h.2, h.1⟩
  onSave := fun _ _ _ _ h => ⟨rfl, h⟩
  onQuiet := by
    intro op s ans s' hop h
    refine ⟨?_, rfl⟩
    cases op
    case load => exact absurd hop Bool.false_ne_true
    case save => exact absurd hop Bool.false_ne_true
    case smbUrl => exact h.2
    all_goals exact h

/-- The connection is the account's own. -/
def IsOwn (account : Option Str) (c : Connection) : Prop :=
  c.owner ≠ none ∧ c.owner = account

/-- What the request of one account keeps of everybody else. -/
structure KeptApart (account : Option Str) (before after : Config) : Prop where
  records : List.Forall₂ (fun c c' => ¬IsOwn account c → c' = c) before.connections
    after.connections
  loops : ∀ r : Reconnector, some r.username ≠ account → ∀ s events,
    r.decisionsOver after.connections s events = r.decisionsOver before.connections s events

/-- A request that connects or disconnects. -/
def IsAgentRequest (r : Request) : Prop :=
  r.method = .connectionConnect ∨ r.method = .connectionDisconnect

/-- A request that found a record writes to this one: it has the record's id,
    and there is something to write. -/
def Touches (r : Request) (found c : Connection) : Prop :=
  c.id = found.id ∧ (r.method = .connectionDisconnect → c.disconnected ≠ some true)

/-- Every record the request writes to is the account's own. A request that
    is refused before it mounts writes to none. -/
def NamesOwn (account : Option Str) (r : Request) (stored : Config) : Prop :=
  stored.Valid → ∀ ref found, requireStr r.params "ref" = .ok ref →
    findConnection stored ref = .ok found → encode (pyStr found.share) ≠ none →
      ∀ c ∈ stored.connections, Touches r found c → IsOwn account c

/-- The records were edited in place, and only those that satisfy `touched`. -/
def OnlyEdits (touched : Connection → Prop) (before after : Config) : Prop :=
  ∃ h : Connection → Connection, (∀ c, (h c).owner = c.owner ∧ (h c).id = c.id) ∧
    after.connections = before.connections.map h ∧ ∀ c, ¬touched c → h c = c

omit [Unicode] in
theorem onlyEdits_refl (touched : Connection → Prop) (c : Config) : OnlyEdits touched c c :=
  ⟨fun c => c, fun _ => ⟨rfl, rfl⟩, (List.map_id _).symm, fun _ _ => rfl⟩

/-- When only the account's own records are edited, no loop of another user
    sees a difference. -/
theorem keptApart_of_only {account : Option Str} {before after : Config}
    {touched : Connection → Prop}
    (h : OnlyEdits touched before after)
    (hown : ∀ c ∈ before.connections, touched c → IsOwn account c) :
    KeptApart account before after := by
  rcases h with ⟨f, hkeeps, hmap, hsame⟩
  have hrecords : ∀ c ∈ before.connections, ¬IsOwn account c → f c = c :=
    fun c hc hnot => hsame c fun ht => hnot (hown c hc ht)
  refine ⟨?_, fun r hr s events => ?_⟩
  · rw [hmap, List.forall₂_map_right_iff, List.forall₂_same]
    exact hrecords
  · refine decisionsOver_alike ?_ events ⟨s.lastList, rfl, rfl⟩
    unfold Reconnector.mine
    rw [hmap, List.filter_map]
    have hsees : (fun c => decide (c.owner = some r.username)) ∘ f =
        fun c => decide (c.owner = some r.username) := by
      funext c
      rw [Function.comp_apply, (hkeeps c).1]
    rw [hsees]
    -- a row of this user's loop is not the account's, so it was not edited
    refine (List.map_congr_left fun c hc => ?_).trans (List.map_id _)
    rcases List.mem_filter.mp hc with ⟨hc, howner⟩
    refine hrecords c hc fun h => hr ?_
    rw [← of_decide_eq_true howner, h.2]

/-- Recording a disconnect, or clearing one. -/
theorem always_setDisconnected_only (id : Option Str) (value : Bool) (stored : Config) :
    Always agentMachine (setDisconnected id value)
      (fun _ s => OnlyEdits (fun c => c.id = id ∧ c.disconnected.getD false ≠ value) stored s)
      stored := by
  unfold setDisconnected
  rw [always_bind]
  refine agentView.always_load (fun _ => onlyEdits_refl _ stored) fun _ => ?_
  rw [andThen_ok]
  unfold onlyIf
  split
  · refine agentView.always_save (fun e s hs _ => ?_) fun s _ hs _ => ?_
    · rw [show s = stored from hs]
      exact onlyEdits_refl _ stored
    · rw [show s = _ from hs]
      refine ⟨markDisconnected id value, fun c => ?_, rfl, fun c hc => if_neg hc⟩
      unfold markDisconnected
      split
      · exact ⟨rfl, rfl⟩
      · exact ⟨rfl, rfl⟩
  · exact onlyEdits_refl _ stored

/-- Recording where a share landed. -/
theorem always_recordWhereItLanded_only (found : Connection) (landed : Str) (stored : Config) :
    Always agentMachine (recordWhereItLanded found landed)
      (fun _ s => OnlyEdits (fun c => c.id = found.id) stored s) stored := by
  unfold recordWhereItLanded
  split
  · exact onlyEdits_refl _ stored
  · rw [always_bind]
    refine agentView.always_load (fun _ => onlyEdits_refl _ stored) fun _ => ?_
    rw [andThen_ok]
    refine agentView.always_save (fun e s hs _ => ?_) fun s _ hs _ => ?_
    · rw [show s = stored from hs]
      exact onlyEdits_refl _ stored
    · rw [show s = _ from hs]
      refine ⟨_, fun c => ?_, rfl, fun c hc => if_neg hc⟩
      dsimp only
      split
      · exact ⟨rfl, rfl⟩
      · exact ⟨rfl, rfl⟩

omit [Unicode] in
/-- One edit after another, the second of records known by their id. -/
theorem OnlyEdits.comp {touched : Connection → Prop} {id : Option Str} {a b c : Config}
    (h : OnlyEdits touched a b) (h' : OnlyEdits (fun e => e.id = id) b c) :
    OnlyEdits (fun e => touched e ∨ e.id = id) a c := by
  rcases h with ⟨f, hf, hmap, hsame⟩
  rcases h' with ⟨g, hg, hmap', hsame'⟩
  refine ⟨g ∘ f, fun e => ?_, ?_, fun e he => ?_⟩
  · exact ⟨(hg (f e)).1.trans (hf e).1, (hg (f e)).2.trans (hf e).2⟩
  · rw [hmap', hmap, List.map_map]
  · rw [not_or] at he
    rw [Function.comp_apply, hsame e he.1]
    exact hsame' e he.2

omit [Unicode] in
theorem OnlyEdits.mono {touched touched' : Connection → Prop} {a b : Config}
    (h : OnlyEdits touched a b) (hmono : ∀ c, touched c → touched' c) : OnlyEdits touched' a b := by
  rcases h with ⟨f, hf, hmap, hsame⟩
  exact ⟨f, hf, hmap, fun c hc => hsame c fun ht => hc (hmono c ht)⟩

/-- What is done with the record a request names and its URL. A request that
    is refused before that changes nothing. -/
theorem always_named {α : Type} {r : Request} {stored : Config} {f : Connection → Str → DaemonM α}
    (hf : stored.Valid → ∀ ref found url, requireStr r.params "ref" = .ok ref →
      findConnection stored ref = .ok found → encode (pyStr found.share) ≠ none →
        Always agentMachine (f found url) (fun _ s => OnlyEdits (Touches r found) stored s) stored)
    {account : Option Str} (hown : NamesOwn account r stored) :
    Always agentMachine
      (connectionFor r.params >>= fun found => smbUrl found >>= fun url => f found url)
      (fun _ s => KeptApart account stored s) stored := by
  -- Where nothing is written, everybody's records are as they were.
  have hhere : KeptApart account stored stored :=
    keptApart_of_only (onlyEdits_refl (fun _ => False) stored) fun _ _ h => h.elim
  rw [always_bind]
  unfold connectionFor
  rw [always_bind]
  refine agentView.always_load (fun _ => hhere) fun hvalid => ?_
  rw [andThen_ok]
  refine always_check (fun _ => hhere) fun ref href => ?_
  rw [always_fromExcept]
  change andThen agentMachine _ _ (findConnection stored ref) stored
  cases hfound : findConnection stored ref with
  | error e => exact hhere
  | ok found =>
      rw [andThen_ok, always_bind]
      refine (always_call (.smbUrl _ _) _).mpr ?_
      rintro ans s ⟨hans, hs⟩
      rw [hs]
      cases ans with
      | error e => exact hhere
      | ok url =>
          -- The share has an address, so its name can be encoded.
          have hurl : encode (pyStr found.share) ≠ none :=
            (netfsSmbUrl_ok_iff _ _).mp ⟨url, hans.symm⟩
          refine always_mono (hf hvalid ref found url href hfound hurl) fun _ s hs => ?_
          exact keptApart_of_only hs fun c hc ht => hown hvalid ref found href hfound hurl c hc ht

/-- Where every record it writes to is its own, a request keeps the users
    apart. -/
theorem program_keeps_apart {d : Dispatcher} (hagents : d.agents = true) {r : Request}
    (hr : IsAgentRequest r) {account : Option Str} {stored : Config}
    (hown : NamesOwn account r stored) :
    Always agentMachine (r.program d) (fun _ s => KeptApart account stored s) stored := by
  rcases r with ⟨method, uid, params⟩
  rcases hr with hmethod | hmethod
  · cases hmethod
    -- What is noted of a connect: that it is wanted again, and where it landed.
    change Always agentMachine (connectionConnect d uid params) _ stored
    unfold connectionConnect
    rw [if_pos hagents, always_bind]
    refine always_mono (always_named (r := ⟨.connectionConnect, uid, params⟩)
      (f := fun found url => do
        let landed : Str ← call (.agentMount uid url (truthy found.credentialAccount)
          (pyStr found.host))
        setDisconnected found.id false
        recordWhereItLanded found landed
        pure landed)
      (fun _ _ found url _ _ _ => ?_) hown) ?_
    · -- What is written by id touches the records with that id.
      have htouches : ∀ c : Connection, c.id = found.id →
          Touches ⟨.connectionConnect, uid, params⟩ found c := fun c hc => ⟨hc, fun h => nomatch h⟩
      rw [always_bind]
      refine (always_call (.agentMount _ _ _ _) _).mpr ?_
      rintro ans s hs
      rw [show s = stored from hs]
      cases ans with
      | error e => exact onlyEdits_refl _ stored
      | ok landed =>
          rw [andThen_ok, always_bind]
          refine always_mono (always_setDisconnected_only found.id false stored)
            fun ans s hset => ?_
          have hset' := hset.mono fun c hc => htouches c hc.1
          cases ans with
          | error e => exact hset'
          | ok u =>
              rw [andThen_ok, always_bind]
              refine always_mono (always_recordWhereItLanded_only found landed s)
                fun ans s' hrec => ?_
              -- Both notes touch no more than either.
              have hboth := (hset.comp hrec).mono fun c hc => htouches c (hc.elim And.left id)
              cases ans with
              | error e => exact hboth
              | ok u => exact hboth
    · rintro ans s hs
      cases ans with
      | error e => exact hs
      | ok landed => exact hs
  · cases hmethod
    -- What is noted of a disconnect is the mark alone.
    change Always agentMachine (connectionDisconnect d uid params) _ stored
    unfold connectionDisconnect
    rw [if_pos hagents, always_bind]
    refine always_mono (always_named (r := ⟨.connectionDisconnect, uid, params⟩)
      (f := fun found url => do
        let unmounted : Bool ← call (.agentUnmount uid found.mountpoint url)
        setDisconnected found.id true
        pure unmounted)
      (fun _ _ found url _ _ _ => ?_) hown) ?_
    · rw [always_bind]
      refine (always_call (.agentUnmount _ _ _) _).mpr ?_
      rintro ans s hs
      rw [show s = stored from hs]
      cases ans with
      | error e => exact onlyEdits_refl _ stored
      | ok unmounted =>
          rw [andThen_ok, always_bind]
          refine always_mono (always_setDisconnected_only found.id true stored) fun ans s hset => ?_
          have hset' : OnlyEdits (Touches ⟨.connectionDisconnect, uid, params⟩ found) stored s :=
            hset.mono fun c hc => ⟨hc.1, fun _ h => hc.2 (by rw [h]; rfl)⟩
          cases ans with
          | error e => exact hset'
          | ok u => exact hset'
    · rintro ans s hs
      cases ans with
      | error e => exact hs
      | ok unmounted => exact hs

omit [Unicode] in
/-- A path that is neither of two. -/
theorem exists_landing (a b : Option Str) :
    ∃ landed, IsPath landed ∧ some landed ≠ a ∧ some landed ≠ b := by
  have ha : IsPath (str "/a") := ⟨by decide, by decide, by decide, by decide⟩
  have hb : IsPath (str "/b") := ⟨by decide, by decide, by decide, by decide⟩
  have hc : IsPath (str "/c") := ⟨by decide, by decide, by decide, by decide⟩
  have hab : some (str "/a") ≠ some (str "/b") := by decide
  have hac : some (str "/a") ≠ some (str "/c") := by decide
  have hbc : some (str "/b") ≠ some (str "/c") := by decide
  by_cases h : some (str "/a") ≠ a ∧ some (str "/a") ≠ b
  · exact ⟨_, ha, h⟩
  · by_cases h' : some (str "/b") ≠ a ∧ some (str "/b") ≠ b
    · exact ⟨_, hb, h'⟩
    · -- each of the first two is one of the two, so the third is neither
      refine ⟨_, hc, ?_, ?_⟩
      · grind
      · grind

omit [Unicode] in
theorem markDisconnected_id (id : Option Str) (value : Bool) (c : Connection) :
    (markDisconnected id value c).id = c.id := by
  unfold markDisconnected
  split
  · rfl
  · rfl

theorem markDisconnected_valid {stored : Config} (h : stored.Valid) (id : Option Str)
    (value : Bool) :
    ({ stored with connections := stored.connections.map (markDisconnected id value) } :
      Config).Valid := by
  refine h.mapConnections (markDisconnected_id id value) fun c hc => ?_
  have hwf := h.sound.connections c hc
  unfold markDisconnected
  split
  · exact ⟨hwf.id, hwf.host, hwf.share, hwf.mountpoint, hwf.credentialRef, hwf.owner,
      hwf.fallbackHost, hwf.credentialAccount, hwf.autoConnect⟩
  · exact hwf

theorem landed_valid {stored : Config} (h : stored.Valid) (id : Option Str) {landed : Str}
    (hpath : IsPath landed) :
    (updateWhere stored id fun c => { c with mountpoint := some landed }).Valid := by
  refine h.mapConnections (fun c => ?_) fun c hc => ?_
  · dsimp only
    split
    · rfl
    · rfl
  · have hwf := h.sound.connections c hc
    split
    · exact ⟨hwf.id, hwf.host, hwf.share, fun v hv => Option.some.inj hv ▸ hpath,
        hwf.credentialRef, hwf.owner, hwf.fallbackHost, hwf.credentialAccount, hwf.autoConnect⟩
    · exact hwf

theorem exec_agentLoad {stored : Config} (h : stored.Valid) :
    Exec agentMachine load stored (.ok stored) stored :=
  exec_call (M := agentMachine) ⟨Or.inr ⟨h, rfl⟩, rfl⟩

theorem exec_agentSave {doc : Config} (h : doc.Valid) (stored : Config) :
    Exec agentMachine (save doc) stored (.ok ()) doc := by
  refine exec_call (M := agentMachine) ?_
  change storeSave doc stored _ _
  unfold storeSave
  rw [validateOrRaise_ok.mpr ⟨h, rfl⟩]
  exact Or.inl ⟨rfl, rfl⟩

/-- A disconnect can be recorded, or cleared. -/
theorem exec_setDisconnected {stored : Config} (h : stored.Valid) (id : Option Str) (value : Bool) :
    Exec agentMachine (setDisconnected id value) stored (.ok ())
      { stored with connections := stored.connections.map (markDisconnected id value) } := by
  refine exec_bind (exec_agentLoad h) ?_
  unfold onlyIf
  split
  · exact exec_agentSave (markDisconnected_valid h id value) stored
  · rename_i hnone
    have hsame : stored.connections.map (markDisconnected id value) = stored.connections := by
      refine (List.map_congr_left fun c hc => ?_).trans (List.map_id _)
      refine if_neg fun hmark => hnone ?_
      refine List.any_eq_true.mpr ⟨c, hc, ?_⟩
      rw [decide_eq_true hmark.1, decide_eq_true hmark.2]
      rfl
    rw [hsame]
    exact Exec.ret () stored

/-- Where a share landed can be recorded. -/
theorem exec_recordWhereItLanded {stored : Config} (h : stored.Valid) {found : Connection}
    {landed : Str} (hpath : IsPath landed) (hmoved : some landed ≠ found.mountpoint) :
    Exec agentMachine (recordWhereItLanded found landed) stored (.ok ())
      (updateWhere stored found.id fun c => { c with mountpoint := some landed }) := by
  unfold recordWhereItLanded
  rw [if_neg fun heq => hmoved heq.symm]
  exact exec_bind (exec_agentLoad h) (exec_agentSave (landed_valid h found.id hpath) stored)

theorem exec_connectionFor {stored : Config} (h : stored.Valid) {params : Params} {ref : Str}
    {found : Connection} (href : requireStr params "ref" = .ok ref)
    (hfound : findConnection stored ref = .ok found) :
    Exec agentMachine (connectionFor params) stored (.ok found) stored := by
  refine exec_bind (exec_agentLoad h) (exec_check href ?_)
  rw [hfound]
  exact exec_fromExcept _

theorem exec_smbUrl {stored : Config} {c : Connection} (h : encode (pyStr c.share) ≠ none) :
    ∃ url, Exec agentMachine (smbUrl c) stored (.ok url) stored := by
  rcases (netfsSmbUrl_ok_iff (pyStr c.host) (pyStr c.share)).mpr h with ⟨url, hurl⟩
  exact ⟨url, exec_call (M := agentMachine) ⟨hurl.symm, rfl⟩⟩

/-- The agent mounts somewhere the record does not say. -/
theorem exec_connectionConnect {d : Dispatcher} (hagents : d.agents = true) {stored : Config}
    (h : stored.Valid) {uid : Nat} {params : Params} {ref : Str} {found : Connection} {landed : Str}
    (href : requireStr params "ref" = .ok ref) (hfound : findConnection stored ref = .ok found)
    (hurl : encode (pyStr found.share) ≠ none) (hpath : IsPath landed)
    (hmoved : some landed ≠ found.mountpoint) :
    Exec agentMachine (connectionConnect d uid params) stored (.ok ())
      (updateWhere
        { stored with connections := stored.connections.map (markDisconnected found.id false) }
        found.id fun c => { c with mountpoint := some landed }) := by
  rcases exec_smbUrl hurl with ⟨url, hsmb⟩
  have hmount : Exec agentMachine (call (.agentMount uid url (truthy found.credentialAccount)
      (pyStr found.host))) stored (.ok landed) stored :=
    exec_call (M := agentMachine) rfl
  have hrun : Exec agentMachine (connectViaAgent uid params) stored (.ok landed) _ :=
    exec_bind (exec_connectionFor h href hfound) (exec_bind hsmb (exec_bind hmount
      (exec_bind (exec_setDisconnected h found.id false)
        (exec_bind (exec_recordWhereItLanded (markDisconnected_valid h found.id false)
          hpath hmoved) (Exec.ret landed _)))))
  unfold connectionConnect
  rw [if_pos hagents]
  exact exec_bind hrun (Exec.ret () _)

/-- The agent unmounts. -/
theorem exec_connectionDisconnect {d : Dispatcher} (hagents : d.agents = true) {stored : Config}
    (h : stored.Valid) {uid : Nat} {params : Params} {ref : Str} {found : Connection}
    (href : requireStr params "ref" = .ok ref) (hfound : findConnection stored ref = .ok found)
    (hurl : encode (pyStr found.share) ≠ none) :
    Exec agentMachine (connectionDisconnect d uid params) stored (.ok ())
      { stored with connections := stored.connections.map (markDisconnected found.id true) } := by
  rcases exec_smbUrl hurl with ⟨url, hsmb⟩
  have hunmount : Exec agentMachine (call (.agentUnmount uid found.mountpoint url)) stored
      (.ok true) stored := exec_call (M := agentMachine) rfl
  have hrun : Exec agentMachine (disconnectViaAgent uid params) stored (.ok true) _ :=
    exec_bind (exec_connectionFor h href hfound) (exec_bind hsmb (exec_bind hunmount
      (exec_bind (exec_setDisconnected h found.id true) (Exec.ret true _))))
  unfold connectionDisconnect
  rw [if_pos hagents]
  exact exec_bind hrun (Exec.ret () _)

omit [Unicode] in
/-- A record that is someone else's was edited, so the users were not kept
    apart. -/
theorem not_keptApart {account : Option Str} {before after : Config} {h : Connection → Connection}
    (hmap : after.connections = before.connections.map h) {c : Connection}
    (hc : c ∈ before.connections) (hnot : ¬IsOwn account c) (hedit : h c ≠ c)
    (hrecords : List.Forall₂ (fun c c' => ¬IsOwn account c → c' = c) before.connections
      after.connections) : False := by
  rw [hmap, List.forall₂_map_right_iff, List.forall₂_same] at hrecords
  exact hedit (hrecords c hc hnot)

/-- A request keeps the users apart, whatever the agent answers, exactly when
    every record it writes to is the account's own. -/
theorem kept_apart_iff (d : Dispatcher) (hagents : d.agents = true) (r : Request)
    (hr : IsAgentRequest r) (account : Option Str) (stored : Config) :
    (∀ ans stored', Exec agentMachine (r.program d) stored ans stored' →
      KeptApart account stored stored') ↔ NamesOwn account r stored := by
  constructor
  · intro hkept hvalid ref found href hfound hurl c hc htouches
    by_contra hnot
    rcases r with ⟨method, uid, params⟩
    rcases hr with hmethod | hmethod
    · cases hmethod
      -- the agent mounts where neither record says
      rcases exists_landing found.mountpoint c.mountpoint with ⟨landed, hpath, hmoved, helse⟩
      have hrun : Exec agentMachine (connectionConnect d uid params) _ _ _ :=
        exec_connectionConnect hagents hvalid href hfound hurl hpath hmoved
      refine not_keptApart (List.map_map ..) hc hnot (fun hsame => ?_) (hkept _ _ hrun).records
      have hid : (markDisconnected found.id false c).id = found.id :=
        (markDisconnected_id found.id false c).trans htouches.1
      have hmountpoint := congrArg Connection.mountpoint hsame
      rw [Function.comp_apply, if_pos hid] at hmountpoint
      exact helse hmountpoint
    · cases hmethod
      have hrun : Exec agentMachine (connectionDisconnect d uid params) _ _ _ :=
        exec_connectionDisconnect hagents hvalid href hfound hurl
      refine not_keptApart rfl hc hnot (fun hsame => ?_) (hkept _ _ hrun).records
      have hopen : c.disconnected ≠ some true := htouches.2 rfl
      have hmark : c.id = found.id ∧ c.disconnected.getD false ≠ true := by
        refine ⟨htouches.1, fun h => hopen ?_⟩
        cases hd : c.disconnected with
        | none => rw [hd] at h; exact absurd h Bool.false_ne_true
        | some b => rw [hd] at h; exact congrArg some h
      unfold markDisconnected at hsame
      rw [if_pos hmark] at hsame
      exact hopen (congrArg Connection.disconnected hsame).symm
  · intro hown ans stored' hrun
    exact always_exec (program_keeps_apart hagents hr hown) hrun

end OthersRecords

section TwoPeople

attribute [local instance] Unicode.ascii

set_option maxRecDepth 10000

/-- A person's connection to a share of the one server. -/
def personsConnection (owner share : String) : Connection :=
  { id := some (str share)
    host := some (str "nas")
    share := some (str share)
    mountpoint := some (str "/Volumes/" ++ str share)
    credentialRef := none
    autoConnect := none
    owner := some (str owner)
    fallbackHost := none
    credentialAccount := none
    keychainCredential := none
    disconnected := none }

/-- What two people have stored. -/
def twoPeople : Config :=
  { emptyConfig with
    connections := [personsConnection "ann" "music", personsConnection "bob" "video"] }

/-- A request of the person with uid 501 about a connection. -/
def askAbout (method : Method) (ref : String) : Request :=
  { method := method
    uid := 501
    params := fun key => if key = "ref" then .string (str ref) else .null }

/-- Ann disconnects her own. -/
theorem kept_apart_iff_own :
    (askAbout .connectionDisconnect "music").method = .connectionDisconnect ∧ ∀ ans stored',
      Exec agentMachine ((askAbout .connectionDisconnect "music").program darwinDaemon) twoPeople
        ans stored' → KeptApart (some (str "ann")) twoPeople stored' := by
  refine ⟨rfl, (kept_apart_iff darwinDaemon rfl (askAbout .connectionDisconnect "music")
    (Or.inr rfl)
    (some (str "ann")) twoPeople).mpr ?_⟩
  intro _ ref found href hfound _ c hc htouches
  have href' : ref = str "music" := (Except.ok.inj href).symm
  rw [href'] at hfound
  have hfound' : found = personsConnection "ann" "music" := (Except.ok.inj hfound).symm
  rw [hfound'] at htouches
  rcases List.mem_cons.mp hc with rfl | hc
  · exact ⟨by decide, rfl⟩
  · rw [List.mem_singleton.mp hc] at htouches
    exact absurd htouches.1 (by decide)

/-- Ann disconnects Bob's connection: his record is marked, and stays marked
    until somebody connects it. -/
theorem disconnects_someone_else :
    ∃ stored', Exec agentMachine
        ((askAbout .connectionDisconnect "video").program darwinDaemon) twoPeople (.ok ()) stored' ∧
      stored'.connections = [personsConnection "ann" "music",
        { personsConnection "bob" "video" with disconnected := some true }] ∧
      ¬KeptApart (some (str "ann")) twoPeople stored' := by
  have hrun : Exec agentMachine (connectionDisconnect darwinDaemon 501
      (askAbout .connectionDisconnect "video").params) twoPeople (.ok ()) _ :=
    exec_connectionDisconnect rfl (by decide +kernel) rfl rfl (by decide)
  refine ⟨_, hrun, by decide +kernel, fun hkept => ?_⟩
  refine not_keptApart (c := personsConnection "bob" "video") rfl (by decide +kernel) ?_
    (by decide +kernel) hkept.records
  rintro ⟨-, howner⟩
  exact absurd howner (by decide)

end TwoPeople

end Smbpal
