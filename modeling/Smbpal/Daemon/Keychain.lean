import Smbpal.Daemon.MacEdits

/-!
# Whose Keychain Items

On macOS a password lives in the login Keychain, under an exact host and
account, and the person may have put it there. Two things are asked of SMBPal:
never to delete an item it did not create, and to take away every item it did.

All it has to go by is a mark on a connection: `created`, when setting the item
answered that it was new. The mark stands for the item of the connection's own
host and account (`Marks`), and it is kept where those change: a swap of hosts
carries it to another item, setting credentials for another account drops the
item it stood for, and sharing is decided without case while items are not.

So each promise is an invariant about marks with a condition on requests.
`OwnMarks` says that no mark stands for an item that was there first, and
`Accounted` that every item that was not there first has a mark. Each is kept
by one request (`macStep_ownMarks`, `macStep_accounted`) and so by a run, and a
run that breaks each is `deletes_persons_item` and `leaves_item_behind`.

## Main definitions

* `Marks`, `markedItem`: The item a connection's mark stands for.
* `OwnMarks`, `SparesOthers`: What keeps the person's items.
* `Accounted`, `LeavesNone`: What takes SMBPal's own away.

## Theorems

* `initial_items_kept`: No item that was there first is deleted.
* `deletes_persons_item`: Where a swap carries the mark, one is.
* `no_item_left`: With no connections left, no item is left.
* `leaves_item_behind`: Where a commit is refused, one is.
-/

namespace Smbpal

open Lib Program

section Keychain

/-- The connection is marked as what the item was created for. -/
structure Marks (uid : Nat) (c : Connection) (item : Item) : Prop where
  created : c.keychainCredential = some .created
  account : c.credentialAccount = some item.account
  host : pyStr c.host = item.host
  uid : item.uid = uid

/-- The item a connection's mark stands for. -/
def markedItem (uid : Nat) (c : Connection) : Option Item :=
  if c.keychainCredential = some .created then
    c.credentialAccount.map fun account => ⟨uid, pyStr c.host, account⟩
  else none

theorem mem_markedItem {uid : Nat} {c : Connection} {item : Item} :
    item ∈ markedItem uid c ↔ Marks uid c item := by
  unfold markedItem
  constructor
  · intro h
    split at h
    · rename_i hcreated
      rcases Option.map_eq_some_iff.mp h with ⟨account, haccount, rfl⟩
      exact ⟨hcreated, haccount, rfl, rfl⟩
    · exact nomatch h
  · rintro ⟨hcreated, haccount, hhost, huid⟩
    rw [if_pos hcreated]
    refine Option.map_eq_some_iff.mpr ⟨item.account, haccount, ?_⟩
    rw [hhost, ← huid]

theorem Keychain.put_of_ne {k : Keychain} {item other : Item} {password : Str} (h : other ≠ item) :
    k.put item password other = k other :=
  Function.update_of_ne h _ _

theorem Keychain.put_ne_none (k : Keychain) (item other : Item) (password : Str)
    (h : k other ≠ none) : k.put item password other ≠ none := by
  by_cases hsame : other = item
  · rw [hsame]
    unfold Keychain.put
    rw [Function.update_self]
    exact Option.some_ne_none password
  · rw [Keychain.put_of_ne hsame]
    exact h

theorem Keychain.without_of_ne {k : Keychain} {taken : Option Item} {other : Item}
    (h : taken ≠ some other) : k.without taken other = k other := by
  cases taken with
  | none => rfl
  | some item =>
      exact Function.update_of_ne (fun hsame => h (congrArg some hsame.symm)) _ _

theorem Keychain.without_self (k : Keychain) (item : Item) : k.without (some item) item = none :=
  Function.update_self _ _ _

variable [Unicode]

/-- The item that is taken away is the removed connection's own. -/
theorem marks_of_taken {uid : Nat} {doc : Config} {removed : Connection} {item : Item}
    (h : takenItem uid doc removed = some item) :
    Marks uid removed item ∧ sharingWith doc removed = [] := by
  unfold takenItem at h
  split at h
  · rename_i account haccount
    split at h
    · rename_i htakes
      cases h
      exact ⟨⟨htakes.1, (truthy_eq_some_iff.mp haccount).1, rfl, rfl⟩, htakes.2⟩
    · exact nomatch h
  · exact nomatch h

/-- A mark says `created` for a new item, or for one another connection's mark
    may stand for. -/
theorem markIn_created {s : Mac} {item : Item} (h : markIn s item = .created) :
    s.keychain item = none ∨ ∃ e ∈ s.config.connections, e.keychainCredential = some .created ∧
      sameCredential e item.host item.account = true := by
  unfold markIn keychainMark at h
  by_cases hnew : s.keychain item = none
  · exact Or.inl hnew
  · right
    have hreplaced : s.keychain.outcome item = .replaced := if_neg hnew
    rw [hreplaced, if_neg (by decide)] at h
    split at h
    · rename_i hany
      rcases List.any_eq_true.mp hany with ⟨e, he, hboth⟩
      rw [Bool.and_eq_true, decide_eq_true_eq] at hboth
      exact ⟨e, he, hboth⟩
    · exact nomatch h

/-- A connection just added replaces no other record. -/
theorem connections_of_added {c doc : Config} {args : NewConnection} {added : Connection}
    (h : addConnection c args = .ok (doc, added)) (named : Connection) :
    doc.connections = c.connections ++ [added] ∧
      (updateWhere doc added.id fun _ => named).connections = c.connections ++ [named] := by
  have hok := addConnection_ok h
  refine ⟨?_, updateWhere_added hok named⟩
  rw [hok.result]

omit [Unicode] in
/-- Every record of an updated document is an old one or an updated one. -/
theorem mem_updateWhere {c : Config} {id : Option Str} {f : Connection → Connection}
    {e : Connection}
    (h : e ∈ (updateWhere c id f).connections) :
    e ∈ c.connections ∨ ∃ e' ∈ c.connections, e'.id = id ∧ e = f e' := by
  rcases List.mem_map.mp h with ⟨e', he', rfl⟩
  by_cases hid : e'.id = id
  · rw [if_pos hid]
    exact Or.inr ⟨e', he', hid, rfl⟩
  · rw [if_neg hid]
    exact Or.inl he'

/-- Every record left after a removal is an old one, marked or not. -/
theorem mem_moveMark {doc : Config} {removed e : Connection}
    (h : e ∈ (moveMark doc removed).connections) :
    e ∈ doc.connections ∨ ∃ e' ∈ sharingWith doc removed,
      removed.keychainCredential = some .created ∧
        e = { e' with keychainCredential := some .created } := by
  unfold moveMark at h
  split at h
  · rename_i hmoves
    rcases List.mem_map.mp h with ⟨e', he', rfl⟩
    by_cases hshares : e' ∈ sharingWith doc removed
    · rw [if_pos hshares]
      exact Or.inr ⟨e', hshares, hmoves.1, rfl⟩
    · rw [if_neg hshares]
      exact Or.inl he'
  · exact Or.inl h

theorem mem_of_sharing {doc : Config} {removed e : Connection} (h : e ∈ sharingWith doc removed) :
    e ∈ doc.connections ∧ e.credentialAccount = removed.credentialAccount := by
  unfold sharingWith at h
  split at h
  · exact absurd h List.not_mem_nil
  · rename_i account haccount
    rcases List.mem_filter.mp h with ⟨hmem, hsame⟩
    refine ⟨hmem, ?_⟩
    unfold sameCredential at hsame
    rw [Bool.and_eq_true, decide_eq_true_eq, decide_eq_true_eq] at hsame
    rw [hsame.2, (truthy_eq_some_iff.mp haccount).1]

/-- What a removal takes out of the document. -/
theorem removeTarget_ok {c doc : Config} {r : Request} {removed : Connection}
    (h : removeTarget c r = .ok (doc, removed)) :
    ∃ before after, c.connections = before ++ removed :: after ∧
      doc.connections = before ++ after := by
  rcases except_bind_eq_ok.mp h with ⟨ref, -, h⟩
  rcases removeConnection_ok h with ⟨before, after, hsplit, hdoc, -⟩
  refine ⟨before, after, hsplit, ?_⟩
  rw [hdoc]

theorem removeTarget_mem {c doc : Config} {r : Request} {removed e : Connection}
    (h : removeTarget c r = .ok (doc, removed)) :
    e ∈ c.connections ↔ e = removed ∨ e ∈ doc.connections := by
  rcases removeTarget_ok h with ⟨before, after, hsplit, hdoc⟩
  rw [hsplit, hdoc]
  simp only [List.mem_append, List.mem_cons]
  constructor
  · rintro (he | he | he)
    · exact Or.inr (Or.inl he)
    · exact Or.inl he
    · exact Or.inr (Or.inr he)
  · rintro (he | he | he)
    · exact Or.inr (Or.inl he)
    · exact Or.inl he
    · exact Or.inr (Or.inr he)

theorem setTarget_ok {c : Config} {r : Request} {found : Connection} {item : Item}
    (h : setTarget c r = .ok (found, item)) :
    found ∈ c.connections ∧ item.host = pyStr found.host ∧ item.uid = r.uid := by
  rcases except_bind_eq_ok.mp h with ⟨ref, -, h⟩
  rcases except_bind_eq_ok.mp h with ⟨account, -, h⟩
  rcases except_bind_eq_ok.mp h with ⟨password, -, h⟩
  rcases except_bind_eq_ok.mp h with ⟨found', hfound, h⟩
  cases h
  exact ⟨findConnection_mem hfound, rfl, rfl⟩

theorem addItem_uid {d : Dispatcher} {env : Surroundings} {c : Config} {r : Request} {item : Item}
    (h : addItem d env c r = .ok item) : item.uid = r.uid := by
  rcases except_bind_eq_ok.mp h with ⟨args, -, h⟩
  rcases except_bind_eq_ok.mp h with ⟨added, -, h⟩
  rcases except_bind_eq_ok.mp h with ⟨username, -, h⟩
  rcases except_bind_eq_ok.mp h with ⟨credential, -, h⟩
  split at h
  · cases h
    rfl
  · exact nomatch h

/-- One id is one record after a request as before it. -/
theorem macStep_tidy {d : Dispatcher} {s s' : Mac} {event : MacEvent} (hmac : d.mounter = false)
    (hagents : d.agents = true) (hmethod : editsConnections event.request.method = true)
    (h : Tidy s.config) (hstep : macStep d s event s') : Tidy s'.config := by
  refine ⟨macStep_valid hstep h.valid, ?_⟩
  -- Where a record is changed it keeps its id.
  have hupdate : ∀ {id : Option Str} {f : Connection → Connection},
      (∀ e ∈ s.config.connections, e.id = id → (f e).id = e.id) →
        ∀ e ∈ (updateWhere s.config id f).connections, e.id ≠ none := by
    intro id f hf e he
    rcases mem_updateWhere he with he | ⟨e', he', hid, rfl⟩
    · exact h.named e he
    · rw [hf e' he' hid]
      exact h.named e' he'
  rcases macStep_edits hmac hagents hmethod hstep with rfl | hedit
  · exact h.named
  unfold MacEdit at hedit
  cases hm : event.request.method <;> rw [hm] at hedit hmethod <;> dsimp only at hedit
  case connectionAdd =>
    rcases hedit with ⟨args, doc, added, hadd, hedit⟩
    -- The record added has an id, and so have the others.
    have hnew : ∀ named : Connection, named.id = added.id →
        ∀ e ∈ s.config.connections ++ [named], e.id ≠ none := by
      intro named hid e he
      rcases List.mem_append.mp he with he | he
      · exact h.named e he
      · rcases (addConnection_ok hadd).id with ⟨id, hadded, -⟩
        rw [List.mem_singleton.mp he, hid, hadded]
        exact Option.some_ne_none id
    rcases hedit with rfl | ⟨item, password, -, -, -, hconfig | ⟨hconfig, -⟩⟩
    · rw [(connections_of_added hadd added).1]
      exact hnew added rfl
    · rw [hconfig, (connections_of_added hadd _).2]
      exact hnew _ rfl
    · rw [hconfig]
      exact h.named
  case connectionRemove =>
    rcases hedit with ⟨doc, removed, htarget, hconfig, -⟩
    have hdoc : ∀ e ∈ doc.connections, e.id ≠ none := fun e he =>
      h.named e ((removeTarget_mem htarget).mpr (Or.inr he))
    -- A removal may hand the mark on, which changes no id.
    intro e he
    rw [hconfig] at he
    rcases mem_moveMark he with he | ⟨e', he', -, rfl⟩
    · exact hdoc e he
    · exact hdoc e' (mem_of_sharing he').1
  case connectionSetCredentials =>
    rcases hedit with ⟨found, item, password, -, -, hconfig | ⟨hconfig, -⟩⟩
    · rw [hconfig]
      exact hupdate fun _ _ _ => rfl
    · rw [hconfig]
      exact h.named
  case connectionUseFallback =>
    rcases hedit with ⟨found, fallback, -, rfl⟩
    exact hupdate fun _ _ hid => hid.symm

section OwnMarks

variable {uid : Nat} {first : Keychain} {s s' : Mac} {event : MacEvent} {d : Dispatcher}

/-- Every item that was there first is there, and no mark stands for one. -/
structure OwnMarks (uid : Nat) (first : Keychain) (s : Mac) : Prop where
  kept : ∀ item, first item ≠ none → s.keychain item ≠ none
  marks : ∀ c ∈ s.config.connections, ∀ item, Marks uid c item → first item = none

/-- Setting the item marks no connection as the creator of one that was there
    first. -/
def MarksOwn (first : Keychain) (s : Mac) (item : Item) : Prop :=
  first item = none ∨ ∀ e ∈ s.config.connections, e.keychainCredential = some .created →
    sameCredential e item.host item.account = false

instance (first : Keychain) (s : Mac) (item : Item) : Decidable (MarksOwn first s item) :=
  inferInstanceAs (Decidable (_ ∨ ∀ _ ∈ _, _ → _))

/-- A request of one user that takes no mark to an item that was there first:
    setting an item does not, by way of a connection it shares the item with; a
    swap of hosts does not; and a removal does not, by way of the connections
    it hands the mark to. -/
def SparesOthers (d : Dispatcher) (uid : Nat) (first : Keychain) (s : Mac) (event : MacEvent) :
    Prop :=
  event.request.uid = uid ∧ match event.request.method with
    | .connectionAdd => ∀ item,
        addItem d event.surroundings s.config event.request = .ok item → MarksOwn first s item
    | .connectionSetCredentials => ∀ target,
        setTarget s.config event.request = .ok target → MarksOwn first s target.2
    | .connectionUseFallback => ∀ target,
        swapTarget s.config event.request.params = .ok target →
          ∀ item ∈ markedItem uid (swapHosts target.2 target.1), first item = none
    | .connectionRemove => ∀ target, removeTarget s.config event.request = .ok target →
        target.2.keychainCredential = some .created → ∀ e ∈ sharingWith target.1 target.2,
          ∀ item ∈ markedItem uid { e with keychainCredential := some .created }, first item = none
    | _ => False

instance : Decidable (SparesOthers d uid first s event) := by
  unfold SparesOthers
  refine @instDecidableAnd _ _ inferInstance ?_
  split
  · infer_instance
  · infer_instance
  · infer_instance
  · infer_instance
  · infer_instance

theorem SparesOthers.method (h : SparesOthers d uid first s event) :
    editsConnections event.request.method = true := by
  unfold SparesOthers at h
  cases hm : event.request.method <;> rw [hm] at h
  case connectionAdd => rfl
  case connectionRemove => rfl
  case connectionSetCredentials => rfl
  case connectionUseFallback => rfl
  all_goals exact absurd h.2 id

/-- The mark of an item that was just set stands for no item that was there
    first. -/
theorem first_of_markIn {item item' : Item} {c : Connection} (h : OwnMarks uid first s)
    (hown : MarksOwn first s item) (hhost : pyStr c.host = item.host) (huid : item.uid = uid)
    (hmarks : Marks uid (withMark c item.account (markIn s item)) item') : first item' = none := by
  have hsame : item' = item := by
    have haccount : item'.account = item.account := (Option.some.inj hmarks.account).symm
    cases item
    cases item'
    simp only at haccount hhost huid
    rw [Item.mk.injEq]
    exact ⟨hmarks.uid.trans huid.symm, (hmarks.host.symm.trans hhost), haccount⟩
  rw [hsame]
  rcases hown with hnone | hothers
  · exact hnone
  · rcases markIn_created (Option.some.inj hmarks.created) with hnew | ⟨e, he, hcreated, hshares⟩
    · by_contra hfirst
      exact h.kept item hfirst hnew
    · rw [hothers e he hcreated] at hshares
      exact absurd hshares Bool.false_ne_true

/-- A request that takes no mark to an item that was there first keeps them
    all. -/
theorem macStep_ownMarks (hmac : d.mounter = false) (hagents : d.agents = true)
    (htidy : Tidy s.config) (h : OwnMarks uid first s) (hspares : SparesOthers d uid first s event)
    (hstep : macStep d s event s') : OwnMarks uid first s' := by
  have hmethod := hspares.method
  rcases hspares with ⟨huid, hspares⟩
  rcases macStep_edits hmac hagents hmethod hstep with rfl | hedit
  · exact h
  unfold MacEdit at hedit
  cases hm : event.request.method <;> rw [hm] at hedit hmethod hspares <;>
    dsimp only at hedit hspares
  case connectionAdd =>
    rcases hedit with ⟨args, doc, added, hadd, hedit⟩
    have hok := addConnection_ok hadd
    rcases hedit with rfl | ⟨item, password, hitem, hhost, hkeychain, hconfig⟩
    · refine ⟨h.kept, fun c hc item' hmarks => ?_⟩
      rw [(connections_of_added hadd added).1] at hc
      rcases List.mem_append.mp hc with hc | hc
      · exact h.marks c hc item' hmarks
      · have hcreated := hmarks.created
        rw [List.mem_singleton.mp hc, hok.noMark] at hcreated
        exact nomatch hcreated
    · refine ⟨fun item' hfirst => ?_, fun c hc item' hmarks => ?_⟩
      · rw [hkeychain]
        exact Keychain.put_ne_none _ _ _ _ (h.kept item' hfirst)
      · rcases hconfig with hconfig | ⟨hconfig, -⟩
        · rw [hconfig, (connections_of_added hadd _).2] at hc
          rcases List.mem_append.mp hc with hc | hc
          · exact h.marks c hc item' hmarks
          · rw [List.mem_singleton.mp hc] at hmarks
            refine first_of_markIn h (hspares item hitem) ?_ ((addItem_uid hitem).trans huid) hmarks
            rw [hok.host, hhost]
            rfl
        · rw [hconfig] at hc
          exact h.marks c hc item' hmarks
  case connectionRemove =>
    rcases hedit with ⟨doc, removed, htarget, hconfig, hkeychain⟩
    have hmem : ∀ {e}, e ∈ doc.connections → e ∈ s.config.connections := fun he =>
      (removeTarget_mem htarget).mpr (Or.inr he)
    refine ⟨fun item' hfirst => ?_, fun c hc item' hmarks => ?_⟩
    · rcases hkeychain with hkeychain | ⟨hkeychain, -⟩
      · rw [hkeychain, Keychain.without_of_ne]
        · exact h.kept item' hfirst
        · -- What is taken has the removed connection's mark.
          intro htaken
          rw [huid] at htaken
          have hremoved := (removeTarget_mem htarget).mpr (Or.inl rfl)
          exact hfirst (h.marks removed hremoved item' (marks_of_taken htaken).1)
      · rw [hkeychain]
        exact h.kept item' hfirst
    · rw [hconfig] at hc
      rcases mem_moveMark hc with hc | ⟨e, he, hcreated, rfl⟩
      · exact h.marks c (hmem hc) item' hmarks
      · exact hspares _ htarget hcreated e he item' (mem_markedItem.mpr hmarks)
  case connectionSetCredentials =>
    rcases hedit with ⟨found, item, password, htarget, hkeychain, hconfig⟩
    rcases setTarget_ok htarget with ⟨hfound, hhost, hitem⟩
    refine ⟨fun item' hfirst => ?_, fun c hc item' hmarks => ?_⟩
    · rw [hkeychain]
      exact Keychain.put_ne_none _ _ _ _ (h.kept item' hfirst)
    · rcases hconfig with hconfig | ⟨hconfig, -⟩
      · rw [hconfig] at hc
        rcases mem_updateWhere hc with hc | ⟨e, he, hid, rfl⟩
        · exact h.marks c hc item' hmarks
        · refine first_of_markIn h (hspares _ htarget) ?_ (hitem.trans huid) hmarks
          rw [htidy.unique he hfound hid, hhost]
      · rw [hconfig] at hc
        exact h.marks c hc item' hmarks
  case connectionUseFallback =>
    rcases hedit with ⟨found, fallback, htarget, rfl⟩
    refine ⟨h.kept, fun c hc item' hmarks => ?_⟩
    rcases mem_updateWhere hc with hc | ⟨e, -, -, rfl⟩
    · exact h.marks c hc item' hmarks
    · exact hspares _ htarget item' (mem_markedItem.mpr hmarks)

/-- Over any sequence of requests of one user that take no mark to an item that
    was there first, no such item is deleted. -/
theorem initial_items_kept (d : Dispatcher) (hmac : d.mounter = false) (hagents : d.agents = true)
    (uid : Nat) (first : Keychain)
    (hrun : GuardedRun (macStep d) (SparesOthers d uid first)
      { config := emptyConfig, keychain := first } s) :
    ∀ item, first item ≠ none → s.keychain item ≠ none := by
  have h : Tidy s.config ∧ OwnMarks uid first s := by
    refine hrun.invariant (fun s => Tidy s.config ∧ OwnMarks uid first s) ?_ ?_
    · exact ⟨⟨rfl, fun _ he => absurd he List.not_mem_nil⟩, fun _ hitem => hitem,
        fun _ he => absurd he List.not_mem_nil⟩
    · rintro s event s' ⟨htidy, h⟩ hspares hstep
      exact ⟨macStep_tidy hmac hagents hspares.method htidy hstep,
        macStep_ownMarks hmac hagents htidy h hspares hstep⟩
  exact h.2.kept

end OwnMarks

section Accounted

variable {uid : Nat} {first : Keychain} {s s' : Mac} {event : MacEvent} {d : Dispatcher}

/-- Every item that was not there first has a mark that stands for it. -/
def Accounted (uid : Nat) (first : Keychain) (s : Mac) : Prop :=
  ∀ item, s.keychain item ≠ none → first item = none → ∃ c ∈ s.config.connections,
    Marks uid c item

/-- Somebody else's mark stands for the item a connection's mark stands for,
    when SMBPal put it there. -/
def Spared (uid : Nat) (first : Keychain) (s : Mac) (found : Connection) (item : Item) : Prop :=
  ∀ old ∈ markedItem uid found, old ≠ item → s.keychain old ≠ none → first old = none →
    ∃ e ∈ s.config.connections, e ≠ found ∧ old ∈ markedItem uid e

/-- The item of a removed connection goes, or its mark goes to a connection it
    stands for the same item in. -/
def HandedOn (uid : Nat) (first : Keychain) (s : Mac) (works : Works) (doc : Config)
    (removed : Connection) : Prop :=
  ∀ item ∈ markedItem uid removed, s.keychain item ≠ none → first item = none →
    (∃ e ∈ sharingWith doc removed, pyStr e.host = item.host) ∨
      (sharingWith doc removed = [] ∧ (works.store = true ∨ works.applier = true))

instance (item : Item) : Decidable (Spared uid first s found item) :=
  inferInstanceAs (Decidable (∀ _ ∈ _, _ → _ → _ → _))

instance (works : Works) (doc : Config) (removed : Connection) :
    Decidable (HandedOn uid first s works doc removed) :=
  inferInstanceAs (Decidable (∀ _ ∈ _, _ → _ → _))

/-- A request of one user, with an agent that works, that leaves no item
    without a mark: an item is set only when the document that says so can be
    stored, and no mark is taken from an item it alone stands for. -/
def LeavesNone (d : Dispatcher) (uid : Nat) (first : Keychain) (s : Mac) (event : MacEvent) :
    Prop :=
  event.request.uid = uid ∧ event.works.agent = true ∧ match event.request.method with
    | .connectionAdd => ∀ item,
        addItem d event.surroundings s.config event.request = .ok item →
          event.works.store = true ∧ event.works.applier = true ∧ IsAccount item.account
    | .connectionSetCredentials => ∀ target,
        setTarget s.config event.request = .ok target →
          event.works.store = true ∧ IsAccount target.2.account ∧
            Spared uid first s target.1 target.2
    | .connectionRemove => ∀ target, removeTarget s.config event.request = .ok target →
        HandedOn uid first s event.works target.1 target.2
    | _ => False

instance : Decidable (LeavesNone d uid first s event) := by
  unfold LeavesNone
  refine @instDecidableAnd _ _ inferInstance (@instDecidableAnd _ _ inferInstance ?_)
  split
  · infer_instance
  · infer_instance
  · infer_instance
  · infer_instance

theorem LeavesNone.method (h : LeavesNone d uid first s event) :
    editsConnections event.request.method = true := by
  unfold LeavesNone at h
  cases hm : event.request.method <;> rw [hm] at h
  case connectionAdd => rfl
  case connectionRemove => rfl
  case connectionSetCredentials => rfl
  all_goals exact absurd h.2.2 id

/-- A connection set up with an item is marked for it, when the item is new or
    some connection is marked for it already. -/
theorem marks_withMark {c : Connection} {item : Item} (hhost : pyStr c.host = item.host)
    (huid : item.uid = uid)
    (h : s.keychain item = none ∨ ∃ e ∈ s.config.connections, Marks uid e item) :
    Marks uid (withMark c item.account (markIn s item)) item := by
  refine ⟨congrArg some ?_, rfl, hhost, huid⟩
  unfold markIn keychainMark
  rcases h with hnew | ⟨e, he, hmarks⟩
  · exact if_pos (if_pos hnew)
  · by_cases hcreated : s.keychain.outcome item = .created
    · exact if_pos hcreated
    · rw [if_neg hcreated, if_pos]
      refine List.any_eq_true.mpr ⟨e, he, ?_⟩
      unfold sameCredential
      rw [hmarks.created, hmarks.account, hmarks.host, decide_eq_true rfl, decide_eq_true rfl,
        decide_eq_true rfl]
      rfl

/-- A mark is not lost when the mark of a removed connection moves. -/
theorem marks_moveMark {doc : Config} {removed c : Connection} {item : Item}
    (hc : c ∈ doc.connections) (h : Marks uid c item) :
    ∃ c' ∈ (moveMark doc removed).connections, Marks uid c' item := by
  unfold moveMark
  split
  · refine ⟨_, List.mem_map_of_mem hc, ?_⟩
    split
    · exact ⟨rfl, h.account, h.host, h.uid⟩
    · exact h
  · exact ⟨c, hc, h⟩

/-- A mark that moves stands for the same item where the host is the same. -/
theorem marks_of_sharing {doc : Config} {removed e : Connection} {item : Item}
    (hremoved : Marks uid removed item) (he : e ∈ sharingWith doc removed)
    (hhost : pyStr e.host = item.host) :
    ∃ c' ∈ (moveMark doc removed).connections, Marks uid c' item := by
  have hmoves : removed.keychainCredential = some .created ∧ sharingWith doc removed ≠ [] :=
    ⟨hremoved.created, List.ne_nil_of_mem he⟩
  unfold moveMark
  rw [if_pos hmoves]
  refine ⟨_, List.mem_map_of_mem (mem_of_sharing he).1, ?_⟩
  rw [if_pos he]
  exact ⟨rfl, (mem_of_sharing he).2.trans hremoved.account, hhost, hremoved.uid⟩

/-- The item of a marked connection is taken when nobody shares it. -/
theorem taken_of_marks {doc : Config} {removed : Connection} {item : Item}
    (hwell : removed.WellFormed) (hremoved : Marks uid removed item)
    (hnone : sharingWith doc removed = []) : takenItem uid doc removed = some item := by
  have hnonempty : item.account ≠ [] := (hwell.credentialAccount _ hremoved.account).nonempty
  have htruthy : truthy removed.credentialAccount = some item.account := by
    unfold truthy
    rw [hremoved.account]
    exact if_neg hnonempty
  unfold takenItem
  rw [htruthy]
  dsimp only
  rw [if_pos ⟨hremoved.created, hnone⟩, hremoved.host, ← hremoved.uid]

omit [Unicode] in
/-- Once an item is set, every item is marked: the one just set by the record that
    was marked for it, any other as before. -/
theorem accounted_put {item : Item} {password : Str} (h : Accounted uid first s)
    (hkeychain : s'.keychain = s.keychain.put item password)
    (hset : s.keychain item = none ∨ (∃ e ∈ s.config.connections, Marks uid e item) →
      ∃ c ∈ s'.config.connections, Marks uid c item)
    (hother : ∀ old, old ≠ item → s.keychain old ≠ none → first old = none →
      ∃ c ∈ s'.config.connections, Marks uid c old) :
    Accounted uid first s' := by
  intro old hthere hfirst
  rw [hkeychain] at hthere
  by_cases hsame : old = item
  · subst hsame
    by_cases hnew : s.keychain old = none
    · exact hset (Or.inl hnew)
    · exact hset (Or.inr (h old hnew hfirst))
  · rw [Keychain.put_of_ne hsame] at hthere
    exact hother old hsame hthere hfirst

/-- A connection added marks the item that was set for it, and takes no mark. -/
theorem accounted_added (hagent : event.works.agent = true) (h : Accounted uid first s)
    (huid : event.request.uid = uid)
    (hleaves : ∀ item, addItem d event.surroundings s.config event.request = .ok item →
      event.works.store = true ∧ event.works.applier = true ∧ IsAccount item.account)
    (hedit : MacAdd d event.surroundings event.works event.request s s') :
    Accounted uid first s' := by
  rcases hedit with ⟨args, doc, added, hadd, hedit⟩
  rcases hedit with rfl | ⟨item, password, hitem, hhost, hkeychain, hconfig⟩
  · -- no item was set
    intro item hthere hfirst
    rcases h item hthere hfirst with ⟨c, hc, hmarks⟩
    refine ⟨c, ?_, hmarks⟩
    rw [(connections_of_added hadd added).1]
    exact List.mem_append_left _ hc
  · rcases hconfig with hconfig | ⟨-, hno⟩
    · refine accounted_put h hkeychain (fun hset => ?_) fun old _ hthere hfirst => ?_
      · rw [hconfig, (connections_of_added hadd _).2]
        refine ⟨_, List.mem_append_right _ (List.mem_singleton_self _), ?_⟩
        refine marks_withMark ?_ ((addItem_uid hitem).trans huid) hset
        rw [(addConnection_ok hadd).host, hhost]
        rfl
      · rw [hconfig, (connections_of_added hadd _).2]
        rcases h old hthere hfirst with ⟨c, hc, hmarks⟩
        exact ⟨c, List.mem_append_left _ hc, hmarks⟩
    · -- the document could be stored, so it was
      rcases hleaves item hitem with ⟨hstore, happlier, haccount⟩
      exact absurd ⟨hagent, hstore, happlier, haccount⟩ hno

/-- An item that is there after a connection was removed was there before. -/
theorem there_before {removed : Connection} {doc : Config} {item : Item} {no : Prop}
    (hkeychain : s'.keychain = s.keychain.without (takenItem event.request.uid doc removed) ∨
      s'.keychain = s.keychain ∧ no)
    (hthere : s'.keychain item ≠ none) : s.keychain item ≠ none := by
  rcases hkeychain with hkeychain | ⟨hkeychain, -⟩
  · rw [hkeychain] at hthere
    by_cases htaken : takenItem event.request.uid doc removed = some item
    · rw [htaken, Keychain.without_self] at hthere
      exact absurd rfl hthere
    · rw [Keychain.without_of_ne htaken] at hthere
      exact hthere
  · rw [hkeychain] at hthere
    exact hthere

/-- The item of a removed connection is taken, or its mark is handed on. -/
theorem accounted_removed (hagent : event.works.agent = true) (htidy : Tidy s.config)
    (h : Accounted uid first s) (huid : event.request.uid = uid)
    (hleaves : ∀ target, removeTarget s.config event.request = .ok target →
      HandedOn uid first s event.works target.1 target.2)
    (hedit : MacRemove event.works event.request s s') : Accounted uid first s' := by
  rcases hedit with ⟨doc, removed, htarget, hconfig, hkeychain⟩
  have hmem : removed ∈ s.config.connections := (removeTarget_mem htarget).mpr (Or.inl rfl)
  have hwell := htidy.valid.sound.connections removed hmem
  intro item hthere hfirst
  have hbefore := there_before hkeychain hthere
  rcases h item hbefore hfirst with ⟨c, hc, hmarks⟩
  rw [hconfig]
  rcases (removeTarget_mem htarget).mp hc with rfl | hc
  · rcases hleaves _ htarget item (mem_markedItem.mpr hmarks) hbefore hfirst with
      ⟨e, he, hhost⟩ | ⟨hnone, hworks⟩
    · exact marks_of_sharing hmarks he hhost
    · -- Nobody shares the item, so it was taken.
      have htaken := taken_of_marks hwell hmarks hnone
      rcases hkeychain with hkeychain | ⟨-, hno⟩
      · rw [hkeychain, huid, htaken, Keychain.without_self] at hthere
        exact absurd rfl hthere
      · exact absurd ⟨hagent, hworks⟩ hno
  · exact marks_moveMark hc hmarks

/-- Setting a password marks its connection for the item. The mark it had stands
    for nothing, or a connection beside it has one for the same. -/
theorem accounted_set (hagent : event.works.agent = true) (htidy : Tidy s.config)
    (h : Accounted uid first s) (huid : event.request.uid = uid)
    (hleaves : ∀ target, setTarget s.config event.request = .ok target →
      event.works.store = true ∧ IsAccount target.2.account ∧
        Spared uid first s target.1 target.2)
    (hedit : MacSet event.works event.request s s') : Accounted uid first s' := by
  rcases hedit with ⟨found, item, password, htarget, hkeychain, hconfig⟩
  rcases setTarget_ok htarget with ⟨hfound, hhost, hitem⟩
  rcases hleaves _ htarget with ⟨hstore, haccount, hspared⟩
  rcases hconfig with hconfig | ⟨-, hno⟩
  · have hother : ∀ {e}, e ∈ s.config.connections → e ≠ found → e ∈ s'.config.connections := by
      intro e he hne
      rw [hconfig]
      exact List.mem_map.mpr ⟨e, he, if_neg fun hid => hne (htidy.unique he hfound hid)⟩
    refine accounted_put h hkeychain (fun hset => ?_) fun old hne hthere hfirst => ?_
    · refine ⟨withMark found item.account (markIn s item), ?_,
        marks_withMark hhost.symm (hitem.trans huid) hset⟩
      rw [hconfig]
      exact List.mem_map.mpr ⟨found, hfound, if_pos rfl⟩
    · rcases h old hthere hfirst with ⟨c, hc, hmarks⟩
      by_cases hcfound : c = found
      · -- its own mark was written over
        subst hcfound
        rcases hspared old (mem_markedItem.mpr hmarks) hne hthere hfirst with
          ⟨e, he, hne', hmarks'⟩
        exact ⟨e, hother he hne', mem_markedItem.mp hmarks'⟩
      · exact ⟨c, hother hc hcfound, hmarks⟩
  · exact absurd ⟨hagent, hstore, haccount⟩ hno

/-- A request that leaves no item without a mark keeps every item marked. -/
theorem macStep_accounted (hmac : d.mounter = false) (hagents : d.agents = true)
    (htidy : Tidy s.config) (h : Accounted uid first s) (hleaves : LeavesNone d uid first s event)
    (hstep : macStep d s event s') : Accounted uid first s' := by
  have hmethod := hleaves.method
  rcases hleaves with ⟨huid, hagent, hleaves⟩
  rcases macStep_edits hmac hagents hmethod hstep with rfl | hedit
  · exact h
  unfold MacEdit at hedit
  cases hm : event.request.method <;> rw [hm] at hedit hmethod hleaves <;>
    dsimp only at hedit hleaves
  case connectionAdd => exact accounted_added hagent h huid hleaves hedit
  case connectionRemove => exact accounted_removed hagent htidy h huid hleaves hedit
  case connectionSetCredentials => exact accounted_set hagent htidy h huid hleaves hedit

/-- Over any sequence of requests of one user that leave no item without a
    mark, with every agent call succeeding, no connections left means no items
    left but those that were there first. -/
theorem no_item_left (d : Dispatcher) (hmac : d.mounter = false) (hagents : d.agents = true)
    (uid : Nat) (first : Keychain)
    (hrun : GuardedRun (macStep d) (LeavesNone d uid first)
      { config := emptyConfig, keychain := first } s) (hnone : s.config.connections = []) :
    ∀ item, s.keychain item ≠ none → first item ≠ none := by
  have h : Tidy s.config ∧ Accounted uid first s := by
    refine hrun.invariant (fun s => Tidy s.config ∧ Accounted uid first s) ?_ ?_
    · refine ⟨⟨rfl, fun _ he => absurd he List.not_mem_nil⟩, fun item hthere hfirst => ?_⟩
      exact absurd hfirst hthere
    · rintro s event s' ⟨htidy, h⟩ hleaves hstep
      exact ⟨macStep_tidy hmac hagents hleaves.method htidy hstep,
        macStep_accounted hmac hagents htidy h hleaves hstep⟩
  intro item hthere hfirst
  rcases h.2 item hthere hfirst with ⟨c, hc, -⟩
  rw [hnone] at hc
  exact absurd hc List.not_mem_nil

end Accounted

end Keychain

section OneUser

attribute [local instance] Unicode.ascii

set_option maxRecDepth 10000

/-- Add `Music` of a server, with a fallback address and a password. -/
def addWithPassword (account : Str) : Request :=
  { method := .connectionAdd
    uid := 501
    params := fun key =>
      if key = "host" then .string (str "nas")
      else if key = "share" then .string (str "Music")
      else if key = "mountpoint" then .string (str "/Volumes/Music")
      else if key = "id" then .string (str "music")
      else if key = "fallback_host" then .string (str "10.0.0.5")
      else if key = "username" then .string account
      else if key = "password" then .string (str "secret")
      else .null }

/-- A request about that connection. -/
def aboutMusic (method : Method) : Request :=
  { method := method
    uid := 501
    params := fun key => if key = "ref" then .string (str "music") else .null }

/-- The person's own item, for the fallback address. -/
def annasItem : Item :=
  { uid := 501, host := str "10.0.0.5", account := str "anna" }

/-- A Keychain with that item in it. -/
def annasKeychain : Keychain :=
  fun item => if item = annasItem then some (str "hers") else none

/-- Nothing configured yet. -/
def atFirst (first : Keychain) : Mac :=
  { config := emptyConfig, keychain := first }

theorem initial_items_kept_addRemove :
    annasKeychain annasItem ≠ none ∧
      ([addWithPassword (str "anna"), aboutMusic .connectionRemove].foldl (macServe darwinDaemon)
        (atFirst annasKeychain)).keychain annasItem ≠ none := by
  have hthere : annasKeychain annasItem ≠ none := by decide +kernel
  exact ⟨hthere, initial_items_kept darwinDaemon rfl rfl 501 annasKeychain
    (macServe_run darwinDaemon (by decide +kernel)) annasItem hthere⟩

/-- A swap of hosts takes the mark to the person's item, and removing the
    connection deletes it. -/
theorem deletes_persons_item :
    ∃ s, GuardedRun (macStep darwinDaemon)
        (fun _ event => event.request.uid = 501 ∧ editsConnections event.request.method = true)
        (atFirst annasKeychain) s ∧
      annasKeychain annasItem ≠ none ∧ s.keychain annasItem = none :=
  ⟨[addWithPassword (str "anna"), aboutMusic .connectionUseFallback,
      aboutMusic .connectionRemove].foldl (macServe darwinDaemon) (atFirst annasKeychain),
    macServe_run darwinDaemon (by decide +kernel), by decide +kernel, by decide +kernel⟩

theorem no_item_left_addRemove :
    ([addWithPassword (str "anna"), aboutMusic .connectionRemove].foldl (macServe darwinDaemon)
        (atFirst annasKeychain)).config.connections = [] ∧
      ∀ item, ([addWithPassword (str "anna"), aboutMusic .connectionRemove].foldl
          (macServe darwinDaemon) (atFirst annasKeychain)).keychain item ≠ none →
        annasKeychain item ≠ none := by
  have hgone : ([addWithPassword (str "anna"), aboutMusic .connectionRemove].foldl
      (macServe darwinDaemon) (atFirst annasKeychain)).config.connections = [] := by decide +kernel
  exact ⟨hgone, no_item_left darwinDaemon rfl rfl 501 annasKeychain
    (macServe_run darwinDaemon (by decide +kernel)) hgone⟩

/-- The item is set, and the document with an account the schema refuses is
    not stored: nothing is configured, and the item is still there. -/
theorem leaves_item_behind :
    ∃ s, GuardedRun (macStep darwinDaemon)
        (fun _ event => event.request.uid = 501 ∧ event.works.agent = true ∧
          (event.request.method = .connectionAdd ∨
            event.request.method = .connectionSetCredentials ∨
              event.request.method = .connectionRemove))
        (atFirst annasKeychain) s ∧
      s.config.connections = [] ∧
        ∃ item, s.keychain item ≠ none ∧ annasKeychain item = none :=
  ⟨[addWithPassword (str "an\x01na")].foldl (macServe darwinDaemon) (atFirst annasKeychain),
    macServe_run darwinDaemon (by decide +kernel), by decide +kernel,
    { uid := 501, host := str "nas", account := str "an\x01na" }, by decide +kernel,
    by decide +kernel⟩

end OneUser

end Smbpal
