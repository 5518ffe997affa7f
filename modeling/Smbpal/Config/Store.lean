import Smbpal.Config.Exact
import Smbpal.Lib.Grouping
import Smbpal.Python.Files
import Smbpal.Python.Reread
import Smbpal.System.Stores

/-!
# The Config Store

`config/store.py`: what `load` makes of the file, and that it is what `save` was given.

The file holds the document with the keys of every object in order, indented. Loading gives
that document back, whatever was in it, so what the daemon works with after a restart is what
it had. A save that raises leaves the file as it was, so over any number of saves what is
loaded is what the last one that returned was given.

## Main definitions

* `ConfigStore.load`: `load`.
* `emptyDocument`: `empty_config()`.
* `saveAll`: Saves, one after the other, and the document the last one that returned was given.

## Theorems

* `spells_prettyValue`: The text of the file spells the document.
* `toConfig_sortKeys`, `meets_sortKeys`: The order of keys changes nothing.
* `sortKeys_idem`: What is in order stays as it is.
* `config_remembered`: What is loaded after any saves.
-/

namespace Smbpal

section Layout

theorem blank_lineAt (level : Nat) : Blank (lineAt level) := by
  refine List.all_eq_true.mpr fun c hc => ?_
  rcases List.mem_cons.mp hc with rfl | hc
  · rfl
  · rw [List.eq_of_mem_replicate hc]
    rfl

theorem blank_space : Blank (str " ") :=
  rfl

theorem dumpsString_colon (k t : Str) :
    dumpsString k ++ str ": " ++ t = dumpsString k ++ ([] ++ chr ':' :: (str " " ++ t)) := by
  rw [List.append_assoc]
  rfl

variable [FloatText]

mutual

/-- The indented text of a value spells it, at any level. -/
theorem spells_prettyValue (level : Nat) : (v : Json) → Spells v (prettyValue level v)
  | .null => by rw [prettyValue]; exact .atom rfl
  | .bool _ => by rw [prettyValue]; exact .atom rfl
  | .int _ => by rw [prettyValue]; exact .atom rfl
  | .float _ => by rw [prettyValue]; exact .atom rfl
  | .string _ => by rw [prettyValue]; exact .atom rfl
  | .array [] => by
      rw [prettyValue]
      exact .emptyArray [] rfl
  | .array (v :: vs) => by
      simp only [prettyValue, List.cons_append, List.append_assoc]
      exact .array _ (blank_lineAt _)
        (spellsItems_pretty (level + 1) (v :: vs) (List.cons_ne_nil v vs) (blank_lineAt level))
  | .object [] => by
      rw [prettyValue]
      exact .emptyObject [] rfl
  | .object (m :: ms) => by
      simp only [prettyValue, List.cons_append, List.append_assoc]
      exact .object _ (blank_lineAt _)
        (spellsMembers_pretty (level + 1) (m :: ms) (List.cons_ne_nil m ms) (blank_lineAt level))

theorem spellsItems_pretty (level : Nat) : (items : List Json) → items ≠ [] → {b : Str} →
    Blank b → SpellsItems items (prettyItems level items ++ (b ++ [chr ']']))
  | [], h, _, _ => absurd rfl h
  | [v], _, _, hb => by
      rw [prettyItems]
      exact .last _ (spells_prettyValue level v) hb
  | v :: w :: vs, _, _, hb => by
      rw [prettyItems, List.append_assoc, List.append_assoc]
      exact .more [] _ (spells_prettyValue level v) rfl (blank_lineAt level)
        (spellsItems_pretty level (w :: vs) (List.cons_ne_nil w vs) hb)

theorem spellsMembers_pretty (level : Nat) : (members : Members) → members ≠ [] → {b : Str} →
    Blank b → SpellsMembers members (prettyMembers level members ++ (b ++ [chr '\x7d']))
  | [], h, _, _ => absurd rfl h
  | [(k, v)], _, _, hb => by
      rw [prettyMembers, List.append_assoc, dumpsString_colon]
      exact .last [] _ _ rfl blank_space (spells_prettyValue level v) hb
  | (k, v) :: m :: ms, _, _, hb => by
      rw [prettyMembers, List.append_assoc, List.append_assoc, List.append_assoc,
        dumpsString_colon]
      exact .more [] _ [] _ rfl blank_space (spells_prettyValue level v) rfl
        (blank_lineAt level) (spellsMembers_pretty level (m :: ms) (List.cons_ne_nil m ms) hb)

end

end Layout

section Order

theorem sortItems_eq (items : List Json) : sortItems items = items.map sortKeys := by
  induction items with
  | nil => rfl
  | cons v vs ih => rw [sortItems, ih, List.map_cons]

theorem sortMembers_eq (members : Members) :
    sortMembers members = members.map fun m => (m.1, sortKeys m.2) := by
  induction members with
  | nil => rfl
  | cons m ms ih => rw [sortMembers, ih, List.map_cons]

/-- The members of an object, in order. -/
def sortedMembers (members : Members) : Members :=
  (sortMembers members).mergeSort fun m n => strLe m.1 n.1

theorem sortKeys_object (members : Members) :
    sortKeys (.object members) = .object (sortedMembers members) :=
  rfl

theorem perm_sortedMembers (members : Members) :
    (sortedMembers members).Perm (members.map fun m => (m.1, sortKeys m.2)) := by
  rw [← sortMembers_eq]
  exact List.mergeSort_perm _ _

theorem perm_sortedKeys (members : Members) :
    ((sortedMembers members).map Prod.fst).Perm (members.map Prod.fst) := by
  have h := (perm_sortedMembers members).map Prod.fst
  rw [List.map_map] at h
  exact h

/-- A member is found under its key, wherever it stands. -/
theorem getMember_sorted {members : Members} (h : (members.map Prod.fst).Nodup) (key : String) :
    getMember (sortedMembers members) key = (getMember members key).map sortKeys := by
  have hsorted : ((sortedMembers members).map Prod.fst).Nodup :=
    (perm_sortedKeys members).nodup_iff.mpr h
  refine Option.ext fun v => ?_
  rw [getMember, getMember, Option.map_eq_some_iff]
  rw [← Lib.mem_iff_lookup hsorted, (perm_sortedMembers members).mem_iff, List.mem_map]
  constructor
  · rintro ⟨⟨k, w⟩, hmem, heq⟩
    rcases Prod.mk.inj heq with ⟨rfl, rfl⟩
    exact ⟨w, (Lib.mem_iff_lookup h).mp hmem, rfl⟩
  · rintro ⟨w, hlookup, rfl⟩
    exact ⟨(str key, w), (Lib.mem_iff_lookup h).mpr hlookup, rfl⟩

/-- The sort of a value that is a string or a boolean is that value. -/
theorem textMember_sorted {members : Members} (h : (members.map Prod.fst).Nodup)
    (key : String) : textMember (sortedMembers members) key = textMember members key := by
  rw [textMember, textMember, getMember_sorted h]
  cases getMember members key with
  | none => rfl
  | some v => cases v <;> rfl

theorem boolMember_sorted {members : Members} (h : (members.map Prod.fst).Nodup)
    (key : String) : boolMember (sortedMembers members) key = boolMember members key := by
  rw [boolMember, boolMember, getMember_sorted h]
  cases getMember members key with
  | none => rfl
  | some v => cases v <;> rfl

theorem itemsOf_sorted {members : Members} (h : (members.map Prod.fst).Nodup) (key : String) :
    itemsOf (sortedMembers members) key = (itemsOf members key).map sortKeys := by
  rw [itemsOf, itemsOf, getMember_sorted h]
  cases getMember members key with
  | none => rfl
  | some v =>
      cases v with
      | array items => exact sortItems_eq items
      | _ => rfl

theorem recordsOf_sorted {members : Members} (h : (members.map Prod.fst).Nodup)
    (key : String) :
    recordsOf (sortedMembers members) key = (recordsOf members key).map sortedMembers := by
  rw [recordsOf, recordsOf, itemsOf_sorted h, List.filterMap_map, List.map_filterMap]
  refine congrArg (fun f => (itemsOf members key).filterMap f) (funext fun v => ?_)
  cases v <;> rfl

end Order

section Records

variable [FloatRead] {levels : Nat} {members : Members}

theorem Rereadable.keys (h : Rereadable levels (.object members)) : (members.map Prod.fst).Nodup :=
  h.2.1

theorem Rereadable.member (h : Rereadable levels (.object members)) {key : String} {v : Json}
    (hv : getMember members key = some v) : Rereadable (levels - 1) v := by
  have hmem := (Lib.mem_iff_lookup h.keys).mpr hv
  exact (rereadableMembers_iff.mp h.2.2 _ hmem).2

theorem Rereadable.record (h : Rereadable levels (.object members)) (key : String) :
    ∀ r ∈ recordsOf members key, Rereadable (levels - 1 - 1) (.object r) := by
  intro r hr
  rcases List.mem_filterMap.mp hr with ⟨v, hv, hrecord⟩
  unfold itemsOf at hv
  split at hv
  · rename_i items hitems
    have hrereadable := h.member hitems
    have hitem := rereadableItems_iff.mp hrereadable.2 v hv
    rw [asObject_eq_some hrecord] at hitem
    exact hitem
  · exact absurd hv List.not_mem_nil

/-- No record has a key twice. -/
theorem Rereadable.records (h : Rereadable levels (.object members)) (key : String) :
    ∀ r ∈ recordsOf members key, (r.map Prod.fst).Nodup :=
  fun r hr => (h.record key r hr).keys

theorem recordsOf_map {α : Type} {f : Members → α}
    (hf : ∀ r : Members, (r.map Prod.fst).Nodup → f (sortedMembers r) = f r)
    (h : Rereadable levels (.object members)) (key : String) :
    (recordsOf (sortedMembers members) key).map f = (recordsOf members key).map f := by
  rw [recordsOf_sorted h.keys, List.map_map]
  exact List.map_congr_left fun r hr => hf r (h.records key r hr)

theorem recordsOf_filterMap {α : Type} {f : Members → Option α}
    (hf : ∀ r : Members, (r.map Prod.fst).Nodup → f (sortedMembers r) = f r)
    (h : Rereadable levels (.object members)) (key : String) :
    (recordsOf (sortedMembers members) key).filterMap f =
      (recordsOf members key).filterMap f := by
  rw [recordsOf_sorted h.keys, List.filterMap_map]
  exact List.filterMap_congr fun r hr => hf r (h.records key r hr)

mutual

/-- What can be read back can be shown, by a `repr` that goes as deep as the reader. -/
theorem Rereadable.representable : (v : Json) → {levels room : Nat} → levels ≤ room →
    Rereadable levels v → representable room v = true
  | .null, _, _, _, _ => rfl
  | .bool _, _, _, _, _ => rfl
  | .int _, _, _, _, h => decide_eq_true h
  | .float _, _, _, _, _ => rfl
  | .string _, _, _, _, _ => rfl
  | .array items, levels, room, hroom, h => by
      have hlt : 0 < levels := h.1
      rw [Smbpal.representable, decide_eq_true (by omega : 0 < room), Bool.true_and]
      exact RereadableItems.representable items (by omega : levels - 1 ≤ room - 1) h.2
  | .object members, levels, room, hroom, h => by
      have hlt : 0 < levels := h.1
      rw [Smbpal.representable, decide_eq_true (by omega : 0 < room), Bool.true_and]
      exact RereadableMembers.representable members (by omega : levels - 1 ≤ room - 1) h.2.2

theorem RereadableItems.representable : (items : List Json) → {levels room : Nat} →
    levels ≤ room → RereadableItems levels items → representableItems room items = true
  | [], _, _, _, _ => rfl
  | v :: vs, _, _, hroom, h =>
      (Bool.and_eq_true _ _).mpr
        ⟨Rereadable.representable v hroom h.1, RereadableItems.representable vs hroom h.2⟩

theorem RereadableMembers.representable : (members : Members) → {levels room : Nat} →
    levels ≤ room → RereadableMembers levels members → representableMembers room members = true
  | [], _, _, _, _ => rfl
  | (_, v) :: ms, _, _, hroom, h =>
      (Bool.and_eq_true _ _).mpr
        ⟨Rereadable.representable v hroom h.2.1, RereadableMembers.representable ms hroom h.2.2⟩

end

/-- What a record of a text holds can be shown. -/
theorem Rereadable.shown [JsonText] (h : Rereadable levels (.object members))
    (hlevels : levels ≤ reprLevels) (key : String) : Shown (getMember members key) := by
  intro v hv
  exact Rereadable.representable v (by omega : levels - 1 ≤ reprLevels) (h.member hv)

/-- Of a document that was read from a text everything can be looked at, unless a
    `keychain_credential` has no hash: the reader has the same limits. -/
theorem looked_of_scan [Unicode] [JsonText] {text : Str} {doc : Json} (hplain : IsPlain text)
    (h : jsonScan levels text = .ok doc) (hlevels : levels ≤ reprLevels) :
    Looked doc ↔ ∀ m, doc = .object m →
      ∀ c ∈ recordsOf m "connections", Hashable (getMember c "keychain_credential") := by
  have hrereadable := jsonScan_rereadable hplain h
  constructor
  · exact fun hlooked m hm c hc => ((hlooked m hm).2.2 c hc).hashable
  · intro hhash m hm
    subst hm
    have hrecord : ∀ key, ∀ r ∈ recordsOf m key, ∀ field, Shown (getMember r field) :=
      fun key r hr field => (hrereadable.record key r hr).shown (by omega) field
    refine ⟨fun n hn => ?_, fun s hs => hrecord "shares" s hs "type", fun c hc => ?_⟩
    · exact hrereadable.member hn
    · exact ⟨hrecord "connections" c hc "type", hhash m rfl c hc,
        hrecord "connections" c hc "keychain_credential", hrecord "connections" c hc "auto_connect"⟩

omit [FloatRead] in
theorem shareOf_sorted {r : Members} (h : (r.map Prod.fst).Nodup) :
    shareOf (sortedMembers r) = shareOf r := by
  have henabled : (getMember (sortedMembers r) "enabled").map boolOf =
      (getMember r "enabled").map boolOf := by
    rw [getMember_sorted h]
    cases getMember r "enabled" with
    | none => rfl
    | some v => cases v <;> rfl
  simp only [shareOf, textMember_sorted h, boolMember_sorted h, henabled]

omit [FloatRead] in
theorem connectionOf_sorted {r : Members} (h : (r.map Prod.fst).Nodup) :
    connectionOf (sortedMembers r) = connectionOf r := by
  simp only [connectionOf, textMember_sorted h, boolMember_sorted h]

/-- The order of keys changes nothing of what a document says. -/
theorem toConfig_sortKeys {doc : Json} (h : Rereadable levels doc) :
    toConfig (sortKeys doc) = toConfig doc := by
  cases doc with
  | object m =>
      have hversion : versionOf (getMember (sortedMembers m) "version") =
          versionOf (getMember m "version") := by
        rw [getMember_sorted h.keys]
        cases getMember m "version" with
        | none => rfl
        | some v => cases v <;> rfl
      rw [sortKeys_object]
      simp only [toConfig, hversion, recordsOf_map (fun r => shareOf_sorted) h,
        recordsOf_map (fun r => connectionOf_sorted) h]
  | _ => rfl

end Records

section Meets

variable {value : Option Json}

theorem Field.sorted {nullable : Bool} {P : Str → Prop} (h : Field nullable P value) :
    Field nullable P (value.map sortKeys) := by
  rcases h with ⟨hnull, rfl⟩ | ⟨s, rfl, hs⟩
  · exact Or.inl ⟨hnull, rfl⟩
  · exact Or.inr ⟨s, rfl, hs⟩

theorem OptionalText.sorted {P : Str → Prop} (h : OptionalText P value) :
    OptionalText P (value.map sortKeys) := by
  rintro v hv
  rcases Option.map_eq_some_iff.mp hv with ⟨w, hw, rfl⟩
  rcases h w hw with rfl | ⟨s, rfl, hs⟩
  · exact Or.inl rfl
  · exact Or.inr ⟨s, rfl, hs⟩

theorem OptionalBool.sorted (h : OptionalBool value) : OptionalBool (value.map sortKeys) := by
  rintro v hv
  rcases Option.map_eq_some_iff.mp hv with ⟨w, hw, rfl⟩
  rcases h w hw with rfl | ⟨b, rfl⟩
  · exact Or.inl rfl
  · exact Or.inr ⟨b, rfl⟩

theorem IsRecords.sorted (h : IsRecords value) : IsRecords (value.map sortKeys) := by
  rintro v hv
  rcases Option.map_eq_some_iff.mp hv with ⟨w, hw, rfl⟩
  rcases h w hw with ⟨items, rfl, hitems⟩
  refine ⟨items.map sortKeys, congrArg Json.array (sortItems_eq items), ?_⟩
  refine List.forall_mem_map.mpr fun item hitem => ?_
  rcases hitems item hitem with ⟨m, rfl⟩
  exact ⟨sortedMembers m, rfl⟩

variable [Unicode] {nullable : Bool}

theorem ShareMeets.sorted {m : Members} (hkeys : (m.map Prod.fst).Nodup)
    (h : ShareMeets nullable m) : ShareMeets nullable (sortedMembers m) where
  keys := fun key hkey => h.keys key ((perm_sortedKeys m).mem_iff.mp hkey)
  type := by rw [getMember_sorted hkeys]; exact h.type.sorted
  id := by rw [getMember_sorted hkeys]; exact h.id.sorted
  name := by rw [getMember_sorted hkeys]; exact h.name.sorted
  path := by rw [getMember_sorted hkeys]; exact h.path.sorted
  readOnly := by rw [getMember_sorted hkeys]; exact h.readOnly.sorted
  enabled := by rw [getMember_sorted hkeys]; exact h.enabled.sorted
  credentialRef := by rw [getMember_sorted hkeys]; exact h.credentialRef.sorted

omit [Unicode] in
theorem ConnectionMeets.sorted {m : Members} (hkeys : (m.map Prod.fst).Nodup)
    (h : ConnectionMeets nullable m) : ConnectionMeets nullable (sortedMembers m) where
  keys := fun key hkey => h.keys key ((perm_sortedKeys m).mem_iff.mp hkey)
  type := by rw [getMember_sorted hkeys]; exact h.type.sorted
  id := by rw [getMember_sorted hkeys]; exact h.id.sorted
  host := by rw [getMember_sorted hkeys]; exact h.host.sorted
  share := by rw [getMember_sorted hkeys]; exact h.share.sorted
  mountpoint := by rw [getMember_sorted hkeys]; exact h.mountpoint.sorted
  credentialRef := by rw [getMember_sorted hkeys]; exact h.credentialRef.sorted
  owner := by rw [getMember_sorted hkeys]; exact h.owner.sorted
  fallbackHost := by rw [getMember_sorted hkeys]; exact h.fallbackHost.sorted
  credentialAccount := by rw [getMember_sorted hkeys]; exact h.credentialAccount.sorted
  disconnected := by rw [getMember_sorted hkeys]; exact h.disconnected.sorted
  keychainCredential := by rw [getMember_sorted hkeys]; exact h.keychainCredential.sorted
  autoConnect := by rw [getMember_sorted hkeys]; exact h.autoConnect.sorted

variable [FloatRead] {levels : Nat}

/-- Nor does it change whether the document is accepted. -/
theorem meets_sortKeys {doc : Json} (hrereadable : Rereadable levels doc) (h : Meets nullable doc) :
    Meets nullable (sortKeys doc) := by
  rcases h with ⟨m, rfl, h⟩
  have hkeys := hrereadable.keys
  -- Sorting moves the members of an object and changes none.
  have htext : ∀ key, ∀ r : Members, (r.map Prod.fst).Nodup →
      textMember (sortedMembers r) key = textMember r key := fun key r hr =>
    textMember_sorted hr key
  refine ⟨sortedMembers m, rfl, ?_, ?_, ?_, ?_, ?_, ?_, ?_, ?_⟩
  · -- Each condition is on the members, which are found where they were.
    exact fun key hkey => h.keys key ((perm_sortedKeys m).mem_iff.mp hkey)
  · rw [getMember_sorted hkeys, h.version]
    rfl
  · rw [getMember_sorted hkeys]
    exact h.shareList.sorted
  · rw [getMember_sorted hkeys]
    exact h.connectionList.sorted
  · rw [recordsOf_sorted hkeys]
    exact List.forall_mem_map.mpr fun r hr =>
      (h.shares r hr).sorted (hrereadable.records "shares" r hr)
  · rw [recordsOf_sorted hkeys]
    exact List.forall_mem_map.mpr fun r hr =>
      (h.connections r hr).sorted (hrereadable.records "connections" r hr)
  · unfold idsOf
    rw [recordsOf_filterMap (htext "id") hrereadable, recordsOf_filterMap (htext "id") hrereadable]
    exact h.ids
  · unfold shareNamesOf
    rw [recordsOf_filterMap (htext "name") hrereadable]
    exact h.names

end Meets

section Sorted

/-- Members stand in the order of their keys. -/
theorem pairwise_sortedMembers (members : Members) :
    (sortedMembers members).Pairwise fun m n => strLe m.1 n.1 = true := by
  have htrans : ∀ a b c : Str × Json, strLe a.1 b.1 = true → strLe b.1 c.1 = true →
      strLe a.1 c.1 = true := fun a b c => strLe_trans
  have htotal : ∀ a b : Str × Json, (strLe a.1 b.1 || strLe b.1 a.1) = true := fun a b =>
    (Bool.or_eq_true ..).mpr (strLe_total a.1 b.1)
  exact List.pairwise_mergeSort htrans htotal (sortMembers members)

/-- Members in order, whose values are, stay as they are. -/
theorem sortedMembers_idem {members : Members}
    (h : ∀ m ∈ members, sortKeys (sortKeys m.2) = sortKeys m.2) :
    sortedMembers (sortedMembers members) = sortedMembers members := by
  have hsame : sortMembers (sortedMembers members) = sortedMembers members := by
    rw [sortMembers_eq]
    refine (List.map_congr_left fun m hm => ?_).trans (List.map_id _)
    rcases List.mem_map.mp ((perm_sortedMembers members).mem_iff.mp hm) with ⟨m', hm', rfl⟩
    rw [h m' hm']
    rfl
  rw [sortedMembers, hsame]
  exact List.mergeSort_of_pairwise (pairwise_sortedMembers members)

mutual

/-- What is in order stays as it is. -/
theorem sortKeys_idem : (v : Json) → sortKeys (sortKeys v) = sortKeys v
  | .null => rfl
  | .bool _ => rfl
  | .int _ => rfl
  | .float _ => rfl
  | .string _ => rfl
  | .array items => by
      have hitems := sortItems_idem items
      simp only [sortKeys, sortItems_eq, List.map_map] at hitems ⊢
      exact congrArg Json.array (List.map_congr_left hitems)
  | .object members => by
      rw [sortKeys_object, sortKeys_object, sortedMembers_idem (sortMembers_idem members)]

theorem sortItems_idem : (items : List Json) →
    ∀ v ∈ items, sortKeys (sortKeys v) = sortKeys v
  | [] => fun _ h => absurd h List.not_mem_nil
  | v :: vs => List.forall_mem_cons.mpr ⟨sortKeys_idem v, sortItems_idem vs⟩

theorem sortMembers_idem : (members : Members) →
    ∀ m ∈ members, sortKeys (sortKeys m.2) = sortKeys m.2
  | [] => fun _ h => absurd h List.not_mem_nil
  | (_, v) :: ms => List.forall_mem_cons.mpr ⟨sortKeys_idem v, sortMembers_idem ms⟩

end

variable [FloatRead]

mutual

/-- A value in order can be read back as well. -/
theorem rereadable_sortKeys : (v : Json) → (levels : Nat) → Rereadable levels v →
    Rereadable levels (sortKeys v)
  | .null, _, h => h
  | .bool _, _, h => h
  | .int _, _, h => h
  | .float _, _, h => h
  | .string _, _, h => h
  | .array items, levels, h => by
      refine ⟨h.1, ?_⟩
      rw [sortItems_eq, rereadableItems_iff]
      exact List.forall_mem_map.mpr fun v hv =>
        rereadable_sortItems items v hv (levels - 1) (rereadableItems_iff.mp h.2 v hv)
  | .object members, levels, h => by
      refine ⟨h.1, (perm_sortedKeys members).nodup_iff.mpr h.2.1, ?_⟩
      change RereadableMembers (levels - 1) (sortedMembers members)
      rw [rereadableMembers_iff]
      intro m hm
      rcases List.mem_map.mp ((perm_sortedMembers members).mem_iff.mp hm) with ⟨m', hm', rfl⟩
      have hrereadable := rereadableMembers_iff.mp h.2.2 m' hm'
      exact ⟨hrereadable.1, rereadable_sortMembers members m' hm' (levels - 1) hrereadable.2⟩

theorem rereadable_sortItems : (items : List Json) →
    ∀ v ∈ items, ∀ levels, Rereadable levels v → Rereadable levels (sortKeys v)
  | [] => fun _ h => absurd h List.not_mem_nil
  | v :: vs => List.forall_mem_cons.mpr ⟨rereadable_sortKeys v, rereadable_sortItems vs⟩

theorem rereadable_sortMembers : (members : Members) →
    ∀ m ∈ members, ∀ levels, Rereadable levels m.2 → Rereadable levels (sortKeys m.2)
  | [] => fun _ h => absurd h List.not_mem_nil
  | (_, v) :: ms => List.forall_mem_cons.mpr ⟨rereadable_sortKeys v, rereadable_sortMembers ms⟩

end

end Sorted

section Text

/-- Printable ASCII and ends of lines. -/
def IsLines (s : Str) : Prop :=
  ∀ c ∈ s, isPrintable c = true ∨ c = chr '\n'

theorem isLines_append {s t : Str} : IsLines (s ++ t) ↔ IsLines s ∧ IsLines t :=
  List.forall_mem_append

theorem isLines_cons {c : PyChar} (hc : isPrintable c = true) {s : Str} (h : IsLines s) :
    IsLines (c :: s) :=
  List.forall_mem_cons.mpr ⟨Or.inl hc, h⟩

theorem isLines_printable {s : Str} (h : Printable s) : IsLines s :=
  fun c hc => Or.inl (List.all_eq_true.mp h c hc)

theorem isLines_lineAt (level : Nat) : IsLines (lineAt level) := by
  refine List.forall_mem_cons.mpr ⟨Or.inr rfl, fun c hc => Or.inl ?_⟩
  rw [List.eq_of_mem_replicate hc]
  rfl

variable [FloatText]

mutual

/-- The indented text of a value is such lines. -/
theorem isLines_prettyValue (level : Nat) : (v : Json) → IsLines (prettyValue level v)
  | .null => by rw [prettyValue]; exact isLines_printable (dumps_printable _)
  | .bool _ => by rw [prettyValue]; exact isLines_printable (dumps_printable _)
  | .int _ => by rw [prettyValue]; exact isLines_printable (dumps_printable _)
  | .float _ => by rw [prettyValue]; exact isLines_printable (dumps_printable _)
  | .string _ => by rw [prettyValue]; exact isLines_printable (dumps_printable _)
  | .array [] => by rw [prettyValue]; exact isLines_printable (s := str "[]") rfl
  | .array (v :: vs) => by
      simp only [prettyValue, List.cons_append, List.append_assoc]
      refine isLines_cons rfl (isLines_append.mpr ⟨isLines_lineAt _, isLines_append.mpr
        ⟨isLines_prettyItems (level + 1) (v :: vs), isLines_append.mpr ⟨isLines_lineAt _, ?_⟩⟩⟩)
      exact isLines_printable (s := str "]") rfl
  | .object [] => by rw [prettyValue]; exact isLines_printable (s := str "\x7b\x7d") rfl
  | .object (m :: ms) => by
      simp only [prettyValue, List.cons_append, List.append_assoc]
      refine isLines_cons rfl (isLines_append.mpr ⟨isLines_lineAt _, isLines_append.mpr
        ⟨isLines_prettyMembers (level + 1) (m :: ms), isLines_append.mpr
          ⟨isLines_lineAt _, ?_⟩⟩⟩)
      exact isLines_printable (s := str "\x7d") rfl

theorem isLines_prettyItems (level : Nat) : (items : List Json) → IsLines (prettyItems level items)
  | [] => fun _ h => absurd h List.not_mem_nil
  | [v] => by rw [prettyItems]; exact isLines_prettyValue level v
  | v :: w :: vs => by
      simp only [prettyItems, List.append_assoc, List.cons_append]
      exact isLines_append.mpr ⟨isLines_prettyValue level v, isLines_cons rfl
        (isLines_append.mpr ⟨isLines_lineAt level, isLines_prettyItems level (w :: vs)⟩)⟩

theorem isLines_prettyMembers (level : Nat) : (members : Members) →
    IsLines (prettyMembers level members)
  | [] => fun _ h => absurd h List.not_mem_nil
  | [(k, v)] => by
      simp only [prettyMembers, List.append_assoc]
      exact isLines_append.mpr ⟨isLines_printable (printable_dumpsString k),
        isLines_append.mpr ⟨isLines_printable (s := str ": ") rfl, isLines_prettyValue level v⟩⟩
  | (k, v) :: m :: ms => by
      simp only [prettyMembers, List.append_assoc, List.cons_append]
      exact isLines_append.mpr ⟨isLines_printable (printable_dumpsString k),
        isLines_append.mpr ⟨isLines_printable (s := str ": ") rfl,
          isLines_append.mpr ⟨isLines_prettyValue level v, isLines_cons rfl
            (isLines_append.mpr ⟨isLines_lineAt level,
              isLines_prettyMembers level (m :: ms)⟩)⟩⟩⟩

end

/-- The file's text is read as it was written: it has no carriage return. -/
theorem readText_dumpsPretty {doc : Json} {bytes : List UInt8}
    (h : encode (dumpsPretty doc ++ str "\n") = some bytes) :
    readText bytes = some (dumpsPretty doc ++ str "\n") := by
  refine readText_writeText h fun hreturn => ?_
  rcases List.mem_append.mp hreturn with hmem | hmem
  · rcases isLines_prettyValue 0 (sortKeys doc) _ hmem with h | h
    · exact absurd h (by decide)
    · exact absurd h (by decide)
  · exact absurd hmem (by decide)

end Text

section Load

variable [FloatRead] [Unicode] [JsonText]

/-- `empty_config()`. -/
def emptyDocument : Json :=
  .object [(str "version", .int schemaVersion), (str "shares", .array []),
    (str "connections", .array [])]

/-- `validate_or_raise`, of a document as a whole. -/
def validateDocumentOrRaise (source : Str) (doc : Json) : Except Exc Json :=
  match validateDocument doc with
  | .error e => .error e
  | .ok problems => if problems = [] then .ok doc else .error (invalidDocument source problems)

/-- What `load` makes of the file's text. -/
def ConfigStore.parse (levels : Nat) (path raw : Str) : Except Exc Json :=
  match jsonScan levels raw with
  | .error (.fault message rest) =>
      .error (.detailed .configInvalid (path ++ str " is not valid JSON")
        (str "line " ++ digits (jsonFault raw message rest).lineno ++ str ", column " ++
          digits (jsonFault raw message rest).colno ++ str ": " ++
          (jsonFault raw message rest).msg))
  | .error .other => .error .exception
  | .ok doc => validateDocumentOrRaise path doc

/-- `ConfigStore.load`, where reading the file may be refused. -/
def ConfigStore.load (levels : Nat) (refused : Option Str) (path : Str)
    (file : Option DirFile) : Except Exc Json :=
  match refused with
  | some detail => .error (.detailed ErrorCode.configIO (str "cannot read " ++ path) detail)
  | none =>
      match file with
      | none => .ok emptyDocument
      | some file =>
          match readText file.bytes with
          | none => .error .exception
          | some raw => ConfigStore.parse levels path raw

/-- What was saved is loaded, with the keys in order. -/
theorem load_saved {levels mode : Nat} {doc : Json} {bytes : List UInt8}
    (hrereadable : Rereadable levels doc) (haccepted : validateDocument doc = .ok [])
    (hbytes : encode (dumpsPretty doc ++ str "\n") = some bytes) (path : Str) :
    ConfigStore.load levels none path (some { bytes := bytes, mode := mode }) =
      .ok (sortKeys doc) := by
  have hsorted : validateDocument (sortKeys doc) = .ok [] :=
    (validateDocument_eq_nil _).mpr
      (meets_sortKeys hrereadable ((validateDocument_eq_nil doc).mp haccepted))
  have hscan : jsonScan levels (dumpsPretty doc ++ str "\n") = .ok (sortKeys doc) :=
    jsonScan_spelled (a := []) (b := str "\n") (spells_prettyValue 0 (sortKeys doc))
      (rereadable_sortKeys doc levels hrereadable) rfl rfl
  rw [ConfigStore.load, readText_dumpsPretty hbytes]
  dsimp only
  rw [ConfigStore.parse, hscan]
  dsimp only
  rw [validateDocumentOrRaise, hsorted]
  exact if_pos rfl

/-- A save that returns was given a document that is accepted. -/
theorem accepted_of_save {faults : Faults} {path name : Str} {doc : Json} {dir : Directory}
    (h : (ConfigStore.save faults path name doc dir).1 = .ok ()) :
    validateDocument doc = .ok [] := by
  unfold ConfigStore.save at h
  cases hvalid : validateDocument doc with
  | error e =>
      rw [hvalid] at h
      cases h
  | ok problems =>
      rw [hvalid] at h
      dsimp only at h
      by_cases hnone : problems = []
      · rw [hnone]
      · rw [if_neg hnone] at h
        cases h

end Load

section Runs

variable [FloatRead] [Unicode] [JsonText]

/-- A save, and what the system does to it. -/
structure Saving where
  faults : Faults
  doc : Json

/-- The directory of the config file, and what the last save that returned was given. -/
structure Saved where
  dir : Directory
  kept : Option Json

/-- One save. -/
def saveOnce (path name : Str) (s : Saved) (saving : Saving) : Saved :=
  let ended := ConfigStore.save saving.faults path name saving.doc s.dir
  { dir := ended.2
    kept :=
      match ended.1 with
      | .ok () => some saving.doc
      | .error _ => s.kept }

/-- Saves, one after the other. -/
def saveAll (path name : Str) (s : Saved) (savings : List Saving) : Saved :=
  savings.foldl (saveOnce path name) s

/-- The file holds what was kept, or is as it was. -/
def Remembers (levels : Nat) (name : Str) (dir : Directory) (s : Saved) : Prop :=
  match s.kept with
  | none => s.dir name = dir name
  | some doc => Rereadable levels doc ∧ validateDocument doc = .ok [] ∧
      ∃ bytes, encode (dumpsPretty doc ++ str "\n") = some bytes ∧
        s.dir name = some { bytes := bytes, mode := 384 }

/-- A save that returns is kept, and one that raises changes nothing. -/
theorem remembers_saveOnce {levels : Nat} {path name : Str} {dir : Directory} {s : Saved}
    {saving : Saving} (h : Remembers levels name dir s)
    (hrereadable : Rereadable levels saving.doc) :
    Remembers levels name dir (saveOnce path name s saving) := by
  have hall := save_allOrNothing saving.faults path name saving.doc s.dir
  unfold saveOnce
  cases hended : (ConfigStore.save saving.faults path name saving.doc s.dir).1 with
  | error e =>
      dsimp only
      rw [hended, hall.raised e hended]
      exact h
  | ok u =>
      rcases hall.returned hended with ⟨bytes, hbytes, hdir⟩
      dsimp only
      rw [hended, hdir]
      exact ⟨hrereadable, accepted_of_save hended, bytes, hbytes, Function.update_self ..⟩

theorem remembers_saveAll {levels : Nat} (path : Str) {name : Str} {dir : Directory} {s : Saved}
    {savings : List Saving} (h : Remembers levels name dir s)
    (hrereadable : ∀ saving ∈ savings, Rereadable levels saving.doc) :
    Remembers levels name dir (saveAll path name s savings) := by
  induction savings generalizing s with
  | nil => exact h
  | cons saving savings ih =>
      rw [List.forall_mem_cons] at hrereadable
      exact ih (remembers_saveOnce h hrereadable.1) hrereadable.2

/-- Over any saves of documents that could have been read, each with whatever the system
    refuses it: where none has returned the file is as it was, which is an empty config if
    there was no file. Otherwise what is loaded is what the last one that returned was given,
    in order. It says what the document said, and saving it again changes nothing. -/
theorem config_remembered {levels : Nat} {path name : Str} {dir : Directory}
    {savings : List Saving} (hrereadable : ∀ saving ∈ savings, Rereadable levels saving.doc) :
    ((saveAll path name { dir := dir, kept := none } savings).kept = none →
      (saveAll path name { dir := dir, kept := none } savings).dir name = dir name ∧
      (dir name = none → ConfigStore.load levels none path
        ((saveAll path name { dir := dir, kept := none } savings).dir name) =
          .ok emptyDocument)) ∧
    ∀ doc, (saveAll path name { dir := dir, kept := none } savings).kept = some doc →
      ConfigStore.load levels none path
        ((saveAll path name { dir := dir, kept := none } savings).dir name) =
          .ok (sortKeys doc) ∧
      toConfig (sortKeys doc) = toConfig doc ∧
      ∀ faults, (ConfigStore.save faults path name (sortKeys doc)
        (saveAll path name { dir := dir, kept := none } savings).dir).2 name =
          (saveAll path name { dir := dir, kept := none } savings).dir name := by
  have hstart : Remembers levels name dir { dir := dir, kept := none } := rfl
  have hends := remembers_saveAll path hstart hrereadable
  -- What each saving keeps, all of them keep.
  generalize saveAll path name { dir := dir, kept := none } savings = s at hends
  unfold Remembers at hends
  constructor
  · intro hkept
    rw [hkept] at hends
    have hsame : s.dir name = dir name := hends
    refine ⟨hsame, fun hnone => ?_⟩
    rw [hsame, hnone]
    rfl
  · intro doc hkept
    rw [hkept] at hends
    rcases hends with ⟨hdoc, haccepted, bytes, hbytes, hfile⟩
    refine ⟨hfile ▸ load_saved hdoc haccepted hbytes path, toConfig_sortKeys hdoc,
      fun faults => ?_⟩
    have hall := save_allOrNothing faults path name (sortKeys doc) s.dir
    -- Sorted once more it is written as before, so another save leaves the same text.
    have hsame : dumpsPretty (sortKeys doc) = dumpsPretty doc :=
      congrArg (prettyValue 0) (sortKeys_idem doc)
    cases hended : (ConfigStore.save faults path name (sortKeys doc) s.dir).1 with
    -- A save that fails leaves the file, and one that returns wrote what is there.
    | error e => rw [hall.raised e hended]
    | ok u =>
        rcases hall.returned hended with ⟨again, hagain, hdir⟩
        rw [hsame, hbytes] at hagain
        rw [hdir, Function.update_self, hfile, Option.some.inj hagain]

end Runs

section Restart

attribute [local instance] Unicode.ascii JsonText.none FloatRead.none

theorem raiseFrom_ok {code : ErrorCode} {message : Str}
    {ended : Except Exc Unit × Directory} (h : ended.1 = .ok ()) :
    (raiseFrom code message ended).1 = .ok () := by
  rcases ended with ⟨result, dir⟩
  obtain rfl : result = .ok () := h
  rfl

theorem ok_of_raiseFrom {code : ErrorCode} {message : Str}
    {ended : Except Exc Unit × Directory} (h : (raiseFrom code message ended).1 = .ok ()) :
    ended.1 = .ok () := by
  rcases ended with ⟨result, dir⟩
  cases result with
  | ok u => rfl
  | error e => cases h

theorem rereadable_emptyDocument : Rereadable 4 emptyDocument := by
  have hkeys : ([str "version", str "shares", str "connections"] : List Str).Nodup := by decide
  have hunpaired : Unpaired (str "version") ∧ Unpaired (str "shares") ∧
      Unpaired (str "connections") := by
    unfold Unpaired
    decide
  have hversion : (digits schemaVersion.natAbs).length ≤ maxStrDigits := by decide
  exact ⟨by decide, hkeys, hunpaired.1, hversion, hunpaired.2.1, ⟨by decide, trivial⟩,
    hunpaired.2.2, ⟨by decide, trivial⟩, trivial⟩

/-- The document of one share is what `json` reads. -/
theorem rereadable_films : Rereadable 4 (shareNamed (.string (str "Films"))) := by
  have hscan : jsonScan 4 (dumps (shareNamed (.string (str "Films")))) =
      .ok (shareNamed (.string (str "Films"))) := by
    rfl
  have hencodes : (encode (dumps (shareNamed (.string (str "Films"))))).isSome = true := by
    rfl
  rcases Option.isSome_iff_exists.mp hencodes with ⟨bytes, hbytes⟩
  exact jsonScan_rereadable (isPlain_of_encode hbytes) hscan

/-- A disk on which nothing more can be written. -/
def fullDisk : Faults :=
  { yielding with fails := fun step => decide (step = .write) }

/-- Where the temporary name is free, a document that is accepted is kept. -/
theorem saveOnce_yielding {path name : Str} {doc : Json} {s : Saved}
    (hvalid : validateDocument doc = .ok [])
    (hfree : s.dir (temporaryName name (str "x7k2_q9a")) = none) :
    ∃ file, saveOnce path name s { faults := yielding, doc := doc } =
      { dir := Function.update s.dir name (some file), kept := some doc } := by
  have hplain : IsPlain (dumpsPretty doc ++ str "\n") :=
    isPlain_append.mpr ⟨isPlain_dumpsPretty _, isPlain_str _⟩
  have hfirst : freeName yielding name s.dir = some (temporaryName name (str "x7k2_q9a")) :=
    List.find?_cons_of_pos (by rw [hfree]; rfl)
  have hended : (ConfigStore.save yielding path name doc s.dir).1 = .ok () := by
    rw [ConfigStore.save, hvalid]
    dsimp only
    rw [if_pos rfl]
    exact raiseFrom_ok (writeText_unrefused (fun _ => rfl) hfirst hplain)
  rcases (save_allOrNothing yielding path name doc s.dir).returned hended with ⟨bytes, -, hdir⟩
  unfold saveOnce
  dsimp only
  rw [hended, hdir]
  exact ⟨_, rfl⟩

/-- On a full disk nothing is kept, and nothing is lost. -/
theorem saveOnce_fullDisk (path name : Str) (doc : Json) (s : Saved) :
    saveOnce path name s { faults := fullDisk, doc := doc } = s := by
  have hraised : (ConfigStore.save fullDisk path name doc s.dir).1 ≠ .ok () := by
    intro h
    rw [ConfigStore.save, accepted_of_save h] at h
    dsimp only at h
    rw [if_pos rfl] at h
    exact writeText_full rfl true name _ 384 s.dir (ok_of_raiseFrom h)
  have hall := save_allOrNothing fullDisk path name doc s.dir
  unfold saveOnce
  dsimp only
  cases hended : (ConfigStore.save fullDisk path name doc s.dir).1 with
  | ok u => exact absurd hended hraised
  | error e => rw [hall.raised e hended]

/-- An empty config, one with a share, and a last one for which there is no room. -/
def filmsSavings : List Saving :=
  [{ faults := yielding, doc := emptyDocument },
    { faults := yielding, doc := shareNamed (.string (str "Films")) },
    { faults := fullDisk, doc := emptyDocument }]

theorem filmsSavings_kept (path : Str) :
    (saveAll path (str "config.json") { dir := fun _ => none, kept := none } filmsSavings).kept =
      some (shareNamed (.string (str "Films"))) := by
  have hempty : validateDocument emptyDocument = .ok [] := by rfl
  have hfilms : validateDocument (shareNamed (.string (str "Films"))) = .ok [] := by rfl
  rcases @saveOnce_yielding path (str "config.json") _ { dir := fun _ => none, kept := none }
    hempty rfl with ⟨first, hfirst⟩
  -- the temporary name is free again by then
  have hfree : (Function.update (fun _ => none) (str "config.json") (some first) : Directory)
      (temporaryName (str "config.json") (str "x7k2_q9a")) = none :=
    Function.update_of_ne (temporaryName_ne _ _) _ _
  rcases @saveOnce_yielding path (str "config.json") _
    { dir := Function.update (fun _ => none) (str "config.json") (some first),
      kept := some emptyDocument } hfilms hfree with ⟨second, hsecond⟩
  unfold saveAll filmsSavings
  rw [List.foldl_cons, hfirst, List.foldl_cons, hsecond, List.foldl_cons, saveOnce_fullDisk]
  rfl

/-- The share is there after a restart. -/
theorem config_remembered_films :
    ConfigStore.load 4 none (str "/etc/smbpal/config.json")
      ((saveAll (str "/etc/smbpal/config.json") (str "config.json")
        { dir := fun _ => none, kept := none } filmsSavings).dir (str "config.json")) =
      .ok (sortKeys (shareNamed (.string (str "Films")))) := by
  have hdocs : ∀ saving ∈ filmsSavings, Rereadable 4 saving.doc := by
    have hempty := rereadable_emptyDocument
    exact List.forall_mem_cons.mpr ⟨hempty, List.forall_mem_cons.mpr
      ⟨rereadable_films, List.forall_mem_singleton.mpr hempty⟩⟩
  exact ((config_remembered hdocs).2 _ (filmsSavings_kept _)).1

end Restart

end Smbpal
