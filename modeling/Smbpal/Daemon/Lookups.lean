import Smbpal.Daemon.Dispatch

/-!
# What a Reference Means

A record is looked up by its id or by a field people know it by: a share by its name, a
connection by its mountpoint. Removing does it with `_find`, on ids first and then on the other
field without case; every other request with `_find_share` or `_find_connection`, on both at once
and in the order of the document. `same_record_iff` says when both mean the same record.

They differ when a share in front of the one with the id has it for a name, when a share has no
name and is asked for as `None`, and when a mountpoint is given in another case.

## Main definitions

* `removedShare`, `removedConnection`: The record a removal takes.
* `FirstOf`: The first record with a property.
* `SameRecord`: That a reference means one record, and an id its own.

## Theorems

* `or_eq_either_iff`, `or_eq_either_iff'`: When two lookups agree.
* `same_record_iff`: When a reference means the same to every request.
-/

namespace Smbpal

section Find

variable {α : Type} {items : List α} {p q q' : α → Bool} {a : α}

/-- The first of some records of which `P` holds. -/
def FirstOf (P : α → Prop) (items : List α) (a : α) : Prop :=
  ∃ before after, items = before ++ a :: after ∧ P a ∧ ∀ b ∈ before, ¬P b

theorem find?_eq_some_iff_firstOf {P : α → Prop} (hp : ∀ a, p a = true ↔ P a) :
    items.find? p = some a ↔ FirstOf P items a := by
  rw [List.find?_eq_some_iff_append]
  unfold FirstOf
  constructor
  · rintro ⟨ha, before, after, hitems, hbefore⟩
    refine ⟨before, after, hitems, (hp a).mp ha, fun b hb hP => ?_⟩
    have hb := hbefore b hb
    rw [(hp b).mpr hP] at hb
    exact Bool.false_ne_true hb
  · rintro ⟨before, after, hitems, ha, hbefore⟩
    refine ⟨(hp a).mpr ha, before, after, hitems, fun b hb => ?_⟩
    rw [Bool.eq_false_iff.mpr fun h => hbefore b hb ((hp b).mp h)]
    rfl

/-- A head of which `P` holds is the first. -/
theorem FirstOf.eq_head {P : α → Prop} {head : α} (h : FirstOf P (head :: items) a)
    (hhead : P head) : a = head := by
  rcases h with ⟨before, after, hitems, -, hbefore⟩
  cases before with
  | nil => exact (List.cons.inj hitems).1.symm
  | cons b before =>
      rw [List.cons_append, List.cons.injEq] at hitems
      exact absurd (hitems.1 ▸ hhead) (hbefore b List.mem_cons_self)

/-- The first that passes a test passes a stronger one first, when it passes it. -/
theorem find?_of_find? (h : items.find? q = some a) (hp : p a = true)
    (hsub : ∀ b, p b = true → q b = true) : items.find? p = some a := by
  rw [List.find?_eq_some_iff_append] at h ⊢
  rcases h with ⟨-, before, after, hitems, hbefore⟩
  refine ⟨hp, before, after, hitems, fun b hb => ?_⟩
  have hq := hbefore b hb
  rw [Bool.not_eq_true'] at hq ⊢
  exact Bool.eq_false_iff.mpr fun h => Bool.eq_false_iff.mp hq (hsub b h)

theorem find?_none_of_find? (h : items.find? q = none) (hsub : ∀ b, p b = true → q b = true) :
    items.find? p = none := by
  rw [List.find?_eq_none] at h ⊢
  exact fun b hb hpb => h b hb (hsub b hpb)

theorem find?_congr (h : ∀ b ∈ items, p b = q b) : items.find? p = items.find? q := by
  induction items with
  | nil => rfl
  | cons b items ih =>
      rw [List.forall_mem_cons] at h
      rw [List.find?_cons, List.find?_cons, h.1, ih h.2]

/-- Looking for one thing and then another is looking for both at once, when the first found
    passes the first test, or nothing does and it passes the second. -/
theorem or_eq_either_iff (hsub : ∀ b, q b = true → q' b = true) :
    (items.find? p).or (items.find? q) = items.find? (fun b => p b || q' b) ↔
      ∀ a, items.find? (fun b => p b || q' b) = some a →
        p a = true ∨ (q a = true ∧ items.find? p = none) := by
  have hp : ∀ b, p b = true → (p b || q' b) = true := fun b h => by rw [h, Bool.true_or]
  have hq : ∀ b, q b = true → (p b || q' b) = true := fun b h => by rw [hsub b h, Bool.or_true]
  -- The search for either stops at its first match, which the two may pass over.
  constructor
  · intro h a hfound
    rw [hfound] at h
    cases hfirst : items.find? p with
    | some b =>
        rw [hfirst, Option.some_or] at h
        exact Or.inl (Option.some.inj h ▸ List.find?_some hfirst)
    | none =>
        rw [hfirst, Option.none_or] at h
        exact Or.inr ⟨List.find?_some h, rfl⟩
  · intro h
    cases hfound : items.find? (fun b => p b || q' b) with
    | none => rw [find?_none_of_find? hfound hp, find?_none_of_find? hfound hq, Option.none_or]
    | some a =>
        rcases h a hfound with ha | ⟨ha, hnone⟩
        · rw [find?_of_find? hfound ha hp, Option.some_or]
        · rw [hnone, find?_of_find? hfound ha hq, Option.none_or]

/-- The same when what is looked for at once is the narrower, and is no other record than the
    first. -/
theorem or_eq_either_iff' (hsub : ∀ b, q' b = true → q b = true)
    (hapart : ∀ a ∈ items, p a = true → ∀ b ∈ items, q' b = false) :
    (items.find? p).or (items.find? q) = items.find? (fun b => p b || q' b) ↔
      (items.find? p = none → ∀ a, items.find? q = some a → q' a = true) := by
  constructor
  · -- The first of either is the second's, so it is in the part that counts.
    intro h hnone a hfound
    rw [hnone, Option.none_or, hfound] at h
    have heither := List.find?_some h.symm
    have hp : p a = false := by
      rw [List.find?_eq_none] at hnone
      exact Bool.eq_false_iff.mpr (hnone a (List.mem_of_find?_eq_some hfound))
    rwa [hp, Bool.false_or] at heither
  · intro h
    -- A first one of `p` is found before anything of `q'` can be.
    cases hfirst : items.find? p with
    | some a =>
        rw [Option.some_or, ← hfirst]
        refine find?_congr fun b hb => ?_
        rw [hapart a (List.mem_of_find?_eq_some hfirst) (List.find?_some hfirst) b hb,
          Bool.or_false]
    | none =>
        -- Without one the two searches are for the same.
        have hsame : items.find? (fun b => p b || q' b) = items.find? q' := by
          refine find?_congr fun b hb => ?_
          rw [List.find?_eq_none] at hfirst
          rw [Bool.eq_false_iff.mpr (hfirst b hb), Bool.false_or]
        rw [Option.none_or, hsame]
        cases hfound : items.find? q with
        | none => rw [find?_none_of_find? hfound hsub]
        | some a => rw [find?_of_find? hfound (h hfirst a hfound) hsub]

end Find

section Lookups

variable [Unicode]

/-- The share that `remove_share` takes. -/
def removedShare (doc : Config) (ref : Str) : Option Share :=
  (find Share.id Share.name doc.shares ref).bind fun index => doc.shares[index]?

/-- The connection that `remove_connection` takes. -/
def removedConnection (doc : Config) (ref : Str) : Option Connection :=
  (find Connection.id Connection.mountpoint doc.connections ref).bind fun index =>
    doc.connections[index]?

/-- A reference means one share and one connection to every request, and those with it for an id
    when there are such. -/
structure SameRecord (doc : Config) (ref : Str) : Prop where
  shares : removedShare doc ref = (findShare doc ref).toOption
  connections : removedConnection doc ref = (findConnection doc ref).toOption
  shareById : ∀ s ∈ doc.shares, s.id = some ref →
    removedShare doc ref = some s ∧ findShare doc ref = .ok s
  connectionById : ∀ c ∈ doc.connections, c.id = some ref →
    removedConnection doc ref = some c ∧ findConnection doc ref = .ok c

/-- A share of that id, or of that name in any case, where no name is called `None`. -/
def Share.Matches (ref : Str) (s : Share) : Prop :=
  s.id = some ref ∨ lower (pyStr s.name) = lower ref

/-- A connection at that mountpoint, in any case. -/
def Connection.IsAt (ref : Str) (c : Connection) : Prop :=
  ∃ mountpoint, c.mountpoint = some mountpoint ∧ lower mountpoint = lower ref

variable {doc : Config} {ref : Str}

/-- `_find` looks through the ids and then through the other field. -/
theorem find_bind {α : Type} (idOf secondary : α → Option Str) (items : List α) (ref : Str) :
    ((find idOf secondary items ref).bind fun index => items[index]?) =
      (items.find? fun item => decide (idOf item = some ref)).or
        (items.find? fun item =>
          match secondary item with
          | some value => decide (lower value = lower ref)
          | none => false) := by
  rw [List.find?_eq_bind_findIdx?_getElem?, List.find?_eq_bind_findIdx?_getElem?]
  unfold find
  cases hfirst : items.findIdx? fun item => decide (idOf item = some ref) with
  | none => exact Option.none_or.symm
  | some index =>
      dsimp only
      rw [Option.bind_some]
      have hlt : index < items.length := (List.findIdx?_eq_some_iff_getElem.mp hfirst).1
      rw [List.getElem?_eq_getElem hlt, Option.some_or]

/-- The name of a share is matched by `_find`. -/
def namedAs (ref : Str) (s : Share) : Bool :=
  match s.name with
  | some value => decide (lower value = lower ref)
  | none => false

/-- The mountpoint of a connection is matched by `_find`. -/
def mountedAs (ref : Str) (c : Connection) : Bool :=
  match c.mountpoint with
  | some value => decide (lower value = lower ref)
  | none => false

theorem namedAs_iff {s : Share} :
    namedAs ref s = true ↔ s.name ≠ none ∧ lower (pyStr s.name) = lower ref := by
  unfold namedAs
  cases s.name with
  | none => exact ⟨fun h => absurd h Bool.false_ne_true, fun h => absurd rfl h.1⟩
  | some value =>
      rw [decide_eq_true_eq]
      exact ⟨fun h => ⟨Option.some_ne_none value, h⟩, fun h => h.2⟩

theorem mountedAs_iff {c : Connection} : mountedAs ref c = true ↔ c.IsAt ref := by
  unfold mountedAs Connection.IsAt
  cases c.mountpoint with
  | none =>
      refine ⟨fun h => absurd h Bool.false_ne_true, ?_⟩
      rintro ⟨mountpoint, h, -⟩
      cases h
  | some value =>
      rw [decide_eq_true_eq]
      constructor
      · exact fun h => ⟨value, rfl, h⟩
      · rintro ⟨mountpoint, hsome, h⟩
        rwa [Option.some.inj hsome]

theorem removedShare_eq : removedShare doc ref =
    (doc.shares.find? fun s => decide (s.id = some ref)).or (doc.shares.find? (namedAs ref)) :=
  find_bind _ _ _ _

theorem removedConnection_eq : removedConnection doc ref =
    (doc.connections.find? fun c => decide (c.id = some ref)).or
      (doc.connections.find? (mountedAs ref)) :=
  find_bind _ _ _ _

theorem findShare_toOption : (findShare doc ref).toOption = doc.shares.find? fun s =>
    decide (s.id = some ref) || decide (lower (pyStr s.name) = lower ref) := by
  unfold findShare
  split
  · rename_i s h
    exact h.symm
  · rename_i h
    exact h.symm

theorem findConnection_toOption : (findConnection doc ref).toOption = doc.connections.find? fun c =>
    decide (c.id = some ref) || decide (c.mountpoint = some ref) := by
  unfold findConnection
  split
  · rename_i c h
    exact h.symm
  · rename_i h
    exact h.symm

omit [Unicode] in
theorem ok_of_toOption {α : Type} {r : Except Exc α} {a : α} (h : r.toOption = some a) :
    r = .ok a := by
  cases r with
  | ok b => rw [Option.some.inj h]
  | error e => cases h

omit [Unicode] in
/-- What alone has an id is found by it. -/
theorem find?_id {α : Type} {idOf : α → Option Str} {items : List α} {a : α}
    (hids : (items.filterMap idOf).Nodup) (ha : a ∈ items) (hid : idOf a = some ref) :
    items.find? (fun b => decide (idOf b = some ref)) = some a := by
  cases hfound : items.find? (fun b => decide (idOf b = some ref)) with
  | none => exact absurd (decide_eq_true hid) (List.find?_eq_none.mp hfound a ha)
  | some b =>
      have hpass := List.find?_some hfound
      have hb : idOf b = some ref := of_decide_eq_true hpass
      rw [eq_of_nodup_filterMap hids (List.mem_of_find?_eq_some hfound) ha hb hid]

/-- When the two lookups of a share agree. -/
theorem shares_agree_iff :
    removedShare doc ref = (findShare doc ref).toOption ↔
      ∀ s, FirstOf (Share.Matches ref) doc.shares s →
        s.id = some ref ∨ (s.name ≠ none ∧ ∀ b ∈ doc.shares, b.id ≠ some ref) := by
  have hfirst : ∀ s, (doc.shares.find? fun s =>
      decide (s.id = some ref) || decide (lower (pyStr s.name) = lower ref)) = some s ↔
        FirstOf (Share.Matches ref) doc.shares s := fun s =>
    find?_eq_some_iff_firstOf fun b => by
      rw [Bool.or_eq_true, decide_eq_true_eq, decide_eq_true_eq]
      rfl
  -- By id first and by name only then, against whichever comes first.
  rw [removedShare_eq, findShare_toOption, or_eq_either_iff fun b h =>
    decide_eq_true (namedAs_iff.mp h).2]
  refine forall_congr' fun s => ?_
  rw [hfirst s]
  refine imp_congr_right fun hs => ?_
  rw [decide_eq_true_eq, namedAs_iff, List.find?_eq_none]
  simp only [decide_eq_true_eq]
  constructor
  · rintro (hid | ⟨⟨hname, -⟩, hnone⟩)
    · exact Or.inl hid
    · exact Or.inr ⟨hname, hnone⟩
  · rintro (hid | ⟨hname, hnone⟩)
    · exact Or.inl hid
    · -- Nobody has the id, so what makes it match is the name.
      rcases hs with ⟨before, after, hitems, hmatches, -⟩
      have hmem : s ∈ doc.shares := hitems ▸ List.mem_append_right before List.mem_cons_self
      exact Or.inr ⟨⟨hname, hmatches.resolve_left (hnone s hmem)⟩, hnone⟩

/-- No id is a mountpoint. -/
theorem mountpoint_ne_id (hvalid : doc.Valid) {a b : Connection} (ha : a ∈ doc.connections)
    (hb : b ∈ doc.connections) (hid : a.id = some ref) : b.mountpoint ≠ some ref := by
  intro hplace
  have hisId := (hvalid.sound.connections a ha).id ref hid
  have hpath := ((hvalid.sound.connections b hb).mountpoint ref hplace).absolute
  cases ref with
  | nil => exact absurd hpath (by decide)
  | cons d rest =>
      have hd : d = chr '/' := by
        have hprefix := List.isPrefixOf_iff_prefix.mp hpath
        exact (List.cons_prefix_cons.mp hprefix).1.symm
      exact absurd (isId_chars hisId d List.mem_cons_self) (hd ▸ by decide)

/-- When the two lookups of a connection agree. -/
theorem connections_agree_iff (hvalid : doc.Valid) :
    removedConnection doc ref = (findConnection doc ref).toOption ↔
      ((∀ c ∈ doc.connections, c.id ≠ some ref) →
        ∀ c, FirstOf (Connection.IsAt ref) doc.connections c → c.mountpoint = some ref) := by
  have hfirst : ∀ c, doc.connections.find? (mountedAs ref) = some c ↔
      FirstOf (Connection.IsAt ref) doc.connections c := fun c =>
    find?_eq_some_iff_firstOf fun b => mountedAs_iff
  rw [removedConnection_eq, findConnection_toOption, or_eq_either_iff']
  · rw [List.find?_eq_none]
    simp only [decide_eq_true_eq, hfirst]
  · exact fun b h => mountedAs_iff.mpr ⟨ref, decide_eq_true_eq.mp h, rfl⟩
  · exact fun a ha hid b hb => decide_eq_false (mountpoint_ne_id hvalid ha hb
      (decide_eq_true_eq.mp hid))

/-- A reference means the same record to every request exactly when the first share it matches has
    it for an id, or a name and no share has it for an id, and, unless a connection has it for an
    id, the first connection at that mountpoint in any case is at that mountpoint. -/
theorem same_record_iff (hvalid : doc.Valid) (ref : Str) :
    SameRecord doc ref ↔
      (∀ s, FirstOf (Share.Matches ref) doc.shares s →
        s.id = some ref ∨ (s.name ≠ none ∧ ∀ b ∈ doc.shares, b.id ≠ some ref)) ∧
      ((∀ c ∈ doc.connections, c.id ≠ some ref) →
        ∀ c, FirstOf (Connection.IsAt ref) doc.connections c → c.mountpoint = some ref) := by
  rw [← shares_agree_iff, ← connections_agree_iff hvalid]
  refine ⟨fun h => ⟨h.shares, h.connections⟩, fun h => ⟨h.1, h.2, fun s hs hid => ?_,
    fun c hc hid => ?_⟩⟩
  · have hremoved : removedShare doc ref = some s := by
      rw [removedShare_eq, find?_id (List.nodup_append.mp hvalid.sound.ids).1 hs hid,
        Option.some_or]
    exact ⟨hremoved, ok_of_toOption (h.1.symm.trans hremoved)⟩
  · have hremoved : removedConnection doc ref = some c := by
      rw [removedConnection_eq, find?_id (List.nodup_append.mp hvalid.sound.ids).2.1 hc hid,
        Option.some_or]
    exact ⟨hremoved, ok_of_toOption (h.2.symm.trans hremoved)⟩

end Lookups

section Examples

attribute [local instance] Unicode.ascii

/-- A share at `/srv`. -/
def srvShare (id name : String) : Share :=
  { id := some (str id)
    name := some (str name)
    path := some (str "/srv")
    readOnly := some false
    credentialRef := none
    enabled := some (some true) }

/-- A share called `beta` in front of the one with that id, or behind it. -/
def alphaBeta (front : Bool) : Config :=
  { emptyConfig with
    shares := if front then [srvShare "gamma" "beta", srvShare "beta" "alpha"]
      else [srvShare "beta" "alpha", srvShare "gamma" "beta"] }

theorem same_record_behind : SameRecord (alphaBeta false) (str "beta") := by
  refine (same_record_iff (by decide +kernel) _).mpr ⟨fun s hs => Or.inl ?_, fun _ c hc => ?_⟩
  · rw [hs.eq_head (Or.inl rfl)]
    rfl
  · rcases hc with ⟨before, after, hitems, -⟩
    exact absurd hitems.symm (List.append_ne_nil_of_right_ne_nil before (List.cons_ne_nil c after))

/-- The share in front is the one that is shown, and the other is the one that goes. -/
theorem name_shadows_id : (alphaBeta true).Valid ∧ ¬SameRecord (alphaBeta true) (str "beta") := by
  refine ⟨by decide +kernel, fun h => ?_⟩
  have hshares := h.shares
  have hremoved : removedShare (alphaBeta true) (str "beta") = some (srvShare "beta" "alpha") := by
    decide +kernel
  have hfound : (findShare (alphaBeta true) (str "beta")).toOption =
      some (srvShare "gamma" "beta") := by decide +kernel
  rw [hremoved, hfound] at hshares
  exact absurd hshares (by decide)

end Examples

end Smbpal
