import Mathlib.Data.List.Dedup
import Smbpal.Config.Exact
import Smbpal.Sharepoints.Apply

/-!
# The Phases of Publishing

What `apply` knows before it changes anything, and what each of its phases leaves: the
unpublishing of what should not be there, the publishing of what is missing, and the two
readings after them.

## Theorems

* `applyPlan_ok`: What the plan knows.
* `unpublishAll_ok`, `publishAll_spec`: The records and the list after each phase.
* `verifyPresent_spec`, `verifyReadOnly_unshared`: What the readings find and undo.
-/

namespace Smbpal

open Lib

section Dicts

variable {κ ν : Type} [DecidableEq κ] {entries : List (κ × ν)} {key : κ} {v : ν}

theorem mem_of_dictGet (h : dictGet entries key = some v) : (key, v) ∈ entries := by
  rcases List.lookup_eq_some_iff.mp h with ⟨before, after, hsplit, -⟩
  refine List.mem_reverse.mp ?_
  rw [hsplit]
  exact List.mem_append_right _ List.mem_cons_self

theorem exists_dictGet (h : (key, v) ∈ entries) : ∃ v', dictGet entries key = some v' := by
  cases hget : dictGet entries key with
  | some v' => exact ⟨v', rfl⟩
  | none =>
      have hnone := List.lookup_eq_none_iff.mp hget (key, v) (List.mem_reverse.mpr h)
      rw [bne_self_eq_false] at hnone
      exact nomatch hnone

theorem mem_dictKeys : key ∈ dictKeys entries ↔ ∃ v, (key, v) ∈ entries := by
  rw [dictKeys, List.mem_dedup, List.mem_map]
  constructor
  · rintro ⟨⟨k, v⟩, hmem, rfl⟩
    exact ⟨v, hmem⟩
  · rintro ⟨v, hmem⟩
    exact ⟨(key, v), hmem, rfl⟩

end Dicts

section Plan

variable [Unicode]

/-- Two shares of a name are one. -/
theorem Config.Valid.share_unique {config : Config} (h : config.Valid) {s s' : Share}
    (hs : s ∈ config.shares) (hs' : s' ∈ config.shares) {name : Str} (hname : s.name = some name)
    (hname' : s'.name = some name) : s = s' := by
  have hnodup := ((valid_iff config).mp h).2
  rw [checkUniqueShareNames_eq, checkUniqueNames_eq_nil] at hnodup
  have hnames := hnodup.1.of_map
  rw [List.filterMap_map] at hnames
  exact eq_of_nodup_filterMap hnames hs hs' hname hname'

omit [Unicode] in
theorem map_some_filterMap {ids : List (Option Str)} (h : ids.all Option.isSome = true) :
    (ids.filterMap id).map some = ids := by
  induction ids with
  | nil => rfl
  | cons first ids ih =>
      rw [List.all_cons, Bool.and_eq_true] at h
      cases first with
      | none => exact nomatch h.1
      | some v =>
          rw [List.filterMap_cons_some (show id (some v) = some v from rfl), List.map_cons, ih h.2]

omit [Unicode] in
/-- Sorting keeps what there is. -/
theorem perm_sortedIds {ids sorted : List (Option Str)} (h : sortedIds ids = .ok sorted) :
    List.Perm sorted ids := by
  unfold sortedIds at h
  split at h
  · rw [← Except.ok.inj h]
  · rw [← Except.ok.inj h]
  · split at h
    · rename_i hall
      rw [← Except.ok.inj h]
      refine List.Perm.trans ((List.perm_insertionSort _ _).map some) ?_
      rw [map_some_filterMap hall]
    · exact nomatch h

omit [Unicode] in
/-- Strings have an order. -/
theorem sortedIds_of_some {ids : List (Option Str)} (h : none ∉ ids) :
    ∃ sorted, sortedIds ids = .ok sorted := by
  unfold sortedIds
  split
  · exact ⟨_, rfl⟩
  · exact ⟨_, rfl⟩
  · have hall : ids.all Option.isSome = true := by
      refine List.all_eq_true.mpr fun id hid => ?_
      cases id with
      | none => exact absurd hid h
      | some v => rfl
    rw [if_pos hall]
    exact ⟨_, rfl⟩

variable {env : SharingEnv} {config : Config} {grant : Option (List UInt8)} {w : ServedShares}

omit [Unicode] in
/-- Each share has its facts among those of the shares. -/
theorem inspectShares_ok {shares : List Share} {facts : List (Option Str × PathFacts)}
    (h : inspectShares env shares = .ok facts) {s : Share} (hs : s ∈ shares) :
    ∃ f, factsFor env s = .ok f ∧ (s.id, f) ∈ facts := by
  induction shares generalizing facts with
  | nil => exact absurd hs List.not_mem_nil
  | cons first shares ih =>
      rcases except_bind_eq_ok.mp h with ⟨f, hf, h⟩
      rcases except_bind_eq_ok.mp h with ⟨rest, hrest, h⟩
      rw [← Except.ok.inj h]
      rcases List.mem_cons.mp hs with rfl | hs
      · exact ⟨f, hf, List.mem_cons_self⟩
      · rcases ih hrest hs with ⟨g, hg, hmem⟩
        exact ⟨g, hg, List.mem_cons_of_mem _ hmem⟩

/-- A name that is to be published has no record, unless it is on the list. -/
theorem refuseTaken_ok {names : List (Option Str)} (h : refuseTaken w names = .ok ()) {name : Str}
    (hname : some name ∈ names) (hrecord : w.records name ≠ none) : name ∈ w.ledger := by
  induction names with
  | nil => exact absurd hname List.not_mem_nil
  | cons first names ih =>
      cases first with
      | none =>
          rcases List.mem_cons.mp hname with heq | hname
          · exact nomatch heq
          · exact ih h hname
      | some first =>
          rw [refuseTaken] at h
          rcases List.mem_cons.mp hname with heq | hname
          · cases heq
            -- A record under the name is answered by the ledger or the check refuses.
            cases hfirst : w.records name with
            | none => exact absurd hfirst hrecord
            | some record =>
                rw [hfirst] at h
                dsimp only at h
                by_cases hlisted : name ∈ w.ledger
                · exact hlisted
                · rw [if_neg hlisted] at h
                  exact nomatch h
          · cases hfirst : w.records first with
            | none =>
                rw [hfirst] at h
                exact ih h hname
            | some record =>
                rw [hfirst] at h
                dsimp only at h
                by_cases hlisted : first ∈ w.ledger
                · rw [if_pos hlisted] at h
                  exact ih h hname
                · rw [if_neg hlisted] at h
                  exact nomatch h

/-- No folder is refused. -/
theorem refuseShares_ok {facts : List (Option Str × PathFacts)} {shares : List Share}
    (h : refuseShares facts shares = .ok ()) {s : Share} (hs : s ∈ shares) {f : PathFacts}
    (hf : dictGet facts s.id = some f) : f.resolved.isSome = true := by
  induction shares with
  | nil => exact absurd hs List.not_mem_nil
  | cons first shares ih =>
      rw [refuseShares] at h
      cases hfirst : (dictGet facts first.id).bind (folderRefusal (pyStr first.path)) with
      | some refused =>
          rw [hfirst] at h
          exact nomatch h
      | none =>
          rw [hfirst] at h
          rcases List.mem_cons.mp hs with rfl | hs
          · rw [hf, Option.bind_some] at hfirst
            refine f.is_resolved fun hmissing => ?_
            rw [folderRefusal, hmissing] at hfirst
            exact nomatch hfirst
          · exact ih h hs

/-- What the plan knows. -/
structure PlanFacts (env : SharingEnv) (config : Config) (w : ServedShares) (plan : ApplyPlan) :
    Prop where
  wanted : ∃ facts, inspectShares env config.shares = .ok facts ∧
    refuseShares facts (config.shares.filter Share.isEnabled) = .ok () ∧
      plan.wanted = wantedShares facts (config.shares.filter Share.isEnabled)
  stale : ∀ name, name ∈ plan.stale ↔ name ∈ w.ledger ∧ isStale plan.wanted w name = true
  missing : ∀ name, name ∈ plan.missing ↔
    name ∈ dictKeys plan.wanted ∧ isMissing w plan.stale name = true
  nodup : plan.missing.Nodup
  free : ∀ name, some name ∈ plan.missing → w.records name ≠ none → name ∈ w.ledger

/-- What the plan knows. -/
theorem applyPlan_ok {plan : ApplyPlan} (h : applyPlan env config grant w = .ok plan) :
    PlanFacts env config w plan := by
  rcases except_bind_eq_ok.mp h with ⟨facts, hfacts, h⟩
  rcases except_bind_eq_ok.mp h with ⟨_, hrefused, h⟩
  rcases except_bind_eq_ok.mp h with ⟨_, -, h⟩
  rcases except_bind_eq_ok.mp h with ⟨_, -, h⟩
  rcases except_bind_eq_ok.mp h with ⟨missing, hmissing, h⟩
  rcases except_bind_eq_ok.mp h with ⟨_, htaken, h⟩
  rcases except_bind_eq_ok.mp h with ⟨_, -, h⟩
  have hperm := perm_sortedIds hmissing
  rw [← Except.ok.inj h]
  exact
    { wanted := ⟨facts, hfacts, hrefused, rfl⟩
      stale := fun name => by
        rw [staleNames, List.mem_insertionSort, List.mem_filter, List.mem_dedup]
      missing := fun name => by
        rw [hperm.mem_iff, List.mem_filter]
      nodup := hperm.nodup_iff.mpr ((List.nodup_dedup _).filter _)
      free := fun name hname hrecord => refuseTaken_ok htaken hname hrecord }

namespace PlanFacts

variable {plan : ApplyPlan} (hp : PlanFacts env config w plan)

include hp

/-- What is wanted under a name is an enabled share's, and has a folder. -/
theorem of_mem {name path : Option Str} {readOnly : Bool}
    (h : (name, path, readOnly) ∈ plan.wanted) :
    ∃ s ∈ config.shares, s.isEnabled = true ∧ s.name = name ∧ readOnly = s.readOnly.getD false ∧
      path.isSome = true := by
  rcases hp.wanted with ⟨facts, hfacts, hrefused, heq⟩
  rw [heq, wantedShares] at h
  rcases List.mem_map.mp h with ⟨s, hs, hentry⟩
  rcases List.mem_filter.mp hs with ⟨hshare, henabled⟩
  cases hentry
  refine ⟨s, hshare, henabled, rfl, rfl, ?_⟩
  rcases inspectShares_ok hfacts hshare with ⟨f, -, hf⟩
  rcases exists_dictGet hf with ⟨g, hg⟩
  rw [hg, Option.bind_some]
  exact refuseShares_ok hrefused hs hg

/-- An enabled share is wanted, under its name. -/
theorem mem_of_enabled {s : Share} (hs : s ∈ config.shares) (henabled : s.isEnabled = true) :
    ∃ path, (s.name, path, s.readOnly.getD false) ∈ plan.wanted := by
  rcases hp.wanted with ⟨facts, -, -, heq⟩
  rw [heq, wantedShares]
  exact ⟨_, List.mem_map.mpr ⟨s, List.mem_filter.mpr ⟨hs, henabled⟩, rfl⟩⟩

/-- The names that are wanted. -/
theorem mem_names {name : Option Str} :
    name ∈ dictKeys plan.wanted ↔ ∃ s ∈ config.shares, s.isEnabled = true ∧ s.name = name := by
  rw [mem_dictKeys]
  constructor
  · rintro ⟨⟨path, readOnly⟩, h⟩
    rcases hp.of_mem h with ⟨s, hs, henabled, hname, -⟩
    exact ⟨s, hs, henabled, hname⟩
  · rintro ⟨s, hs, henabled, rfl⟩
    rcases hp.mem_of_enabled hs henabled with ⟨path, h⟩
    exact ⟨_, h⟩

/-- What is wanted under a name is the one share's that has it. -/
theorem wanted_eq (hvalid : config.Valid) {s : Share} (hs : s ∈ config.shares)
    (henabled : s.isEnabled = true) {name : Str} (hname : s.name = some name) :
    ∃ path, dictGet plan.wanted (some name) = some (some path, s.readOnly.getD false) := by
  rcases hp.mem_of_enabled hs henabled with ⟨path, hmem⟩
  rcases exists_dictGet hmem with ⟨⟨path', readOnly⟩, hget⟩
  rcases hp.of_mem (mem_of_dictGet hget) with ⟨s', hs', -, hname', hreadOnly, hpath⟩
  rcases Option.isSome_iff_exists.mp hpath with ⟨path, rfl⟩
  rw [hname] at hget hname'
  rw [hvalid.share_unique hs hs' hname hname', ← hreadOnly]
  exact ⟨path, hget⟩

/-- A name that need not be published is on the list, and is there as it should be. -/
theorem settled {name : Str} (hname : some name ∈ dictKeys plan.wanted)
    (hmissing : some name ∉ plan.missing) :
    name ∈ w.ledger ∧ name ∉ plan.stale ∧
      currentPath w name = (dictGet plan.wanted (some name)).bind Prod.fst ∧
        currentReadOnly w name = asksReadOnly plan.wanted (some name) := by
  have hneed : ¬isMissing w plan.stale (some name) = true := fun h =>
    hmissing ((hp.missing _).mpr ⟨hname, h⟩)
  rw [isMissing, Bool.or_eq_true, decide_eq_true_eq, decide_eq_true_eq, not_or, not_not] at hneed
  have hstale : ¬isStale plan.wanted w name = true := fun h =>
    hneed.2 ((hp.stale name).mpr ⟨hneed.1, h⟩)
  refine ⟨hneed.1, hneed.2, ?_⟩
  rcases mem_dictKeys.mp hname with ⟨v, hv⟩
  rcases exists_dictGet hv with ⟨⟨path, readOnly⟩, hget⟩
  rw [isStale, hget] at hstale
  dsimp only at hstale
  rw [Bool.or_eq_true, decide_eq_true_eq, decide_eq_true_eq, not_or, not_not, not_not] at hstale
  rw [asksReadOnly, hget]
  exact hstale

/-- What is on the list and need not be unpublished is wanted. -/
theorem wanted_of_listed {name : Str} (hlisted : name ∈ w.ledger) (hstale : name ∉ plan.stale) :
    some name ∈ dictKeys plan.wanted := by
  have hstale : ¬isStale plan.wanted w name = true := fun h =>
    hstale ((hp.stale name).mpr ⟨hlisted, h⟩)
  rw [isStale] at hstale
  cases hget : dictGet plan.wanted (some name) with
  | none =>
      rw [hget] at hstale
      exact absurd rfl hstale
  | some v => exact mem_dictKeys.mpr ⟨v, mem_of_dictGet hget⟩

end PlanFacts

end Plan

section Phases

variable {env : SharingEnv} {wanted : Wanted} {w w' : ServedShares} {err : Option Exc}

/-- An exception that is no answer to what the person may do about it. -/
def IsFailure (e : Exc) : Prop :=
  ∀ error, e = .smbpal error → error.code = .applyFailed ∨ error.code = .internal

theorem isFailure_explained (e : HelperFailure) : IsFailure (explained e) := by
  intro error h
  cases e with
  | helper e =>
      cases h
      exact Or.inl rfl
  | other => exact nomatch h

theorem isFailure_list (e : ListFailure) : IsFailure e.exc := by
  intro error h
  cases e with
  | helper e =>
      cases e with
      | helper e =>
          cases h
          exact Or.inr rfl
      | other => exact nomatch h
  | unreadable detail =>
      cases h
      exact Or.inl rfl

/-- What unpublishing several names leaves. -/
structure Unpublished (w w' : ServedShares) (names : List Str) : Prop where
  records : ∀ name, w'.records name = if name ∈ names then none else w.records name
  ledger : ∀ name, name ∈ w'.ledger ↔ name ∈ w.ledger ∧ name ∉ names
  published : w'.published = w.published
  unpublishFailed : w'.unpublishFailed = w.unpublishFailed

/-- Where no unpublishing is refused, the names are gone. -/
theorem unpublishAll_ok {names : List Str} (h : ∀ name ∈ names, (env.unpublish name).isOk = true) :
    ∃ w', unpublishAll env names w = (none, w') ∧ Unpublished w w' names := by
  induction names generalizing w with
  | nil =>
      refine ⟨w, rfl, fun name => (if_neg List.not_mem_nil).symm, fun name => ?_, rfl, rfl⟩
      exact ⟨fun hname => ⟨hname, List.not_mem_nil⟩, fun hname => hname.1⟩
  | cons first names ih =>
      rw [List.forall_mem_cons] at h
      rcases ih (w := w.unpublish first .ok) h.2 with ⟨w', hrun, hleft⟩
      refine ⟨w', ?_, fun name => ?_, fun name => ?_, hleft.published, ?_⟩
      · rw [unpublishAll]
        -- The first one is gone from the records and the ledger, and the rest follow.
        cases hout : env.unpublish first with
        | ok => exact hrun
        | refused e gone unlisted =>
            rw [hout] at h
            exact nomatch h.1
      · rw [hleft.records]
        change (if name ∈ names then none else Function.update w.records first none name) = _
        by_cases hsame : name = first
        · rw [hsame, Function.update_self, if_pos List.mem_cons_self, ite_self]
        · rw [Function.update_of_ne hsame]
          simp only [List.mem_cons, hsame, false_or]
      · rw [hleft.ledger, List.mem_cons, not_or]
        change name ∈ w.ledger.filter (fun line => decide (line ≠ first)) ∧ _ ↔ _
        rw [List.mem_filter, decide_eq_true_eq]
        exact and_assoc
      · rw [hleft.unpublishFailed]
        exact Bool.or_false _

/-- Where one is refused, `apply` ends. -/
theorem unpublishAll_refused {names : List Str}
    (h : ¬∀ name ∈ names, (env.unpublish name).isOk = true) :
    ∃ e w', unpublishAll env names w = (some e, w') ∧ IsFailure e ∧ w'.unpublishFailed = true := by
  induction names generalizing w with
  | nil => exact absurd (fun name hname => absurd hname List.not_mem_nil) h
  | cons first names ih =>
      rw [unpublishAll]
      cases hout : env.unpublish first with
      | ok =>
          refine ih fun hall => h (List.forall_mem_cons.mpr ⟨?_, hall⟩)
          rw [hout]
          rfl
      | refused e gone unlisted =>
          exact ⟨_, _, rfl, isFailure_explained e, Bool.or_true _⟩

/-- What publishing names leaves, as far as was asked. -/
structure PublishedAs (env : SharingEnv) (wanted : Wanted) (w w' : ServedShares)
    (names : List (Option Str)) : Prop where
  records : ∀ name, w'.records name =
    if some name ∈ names then ((publishOutcome env wanted (some name)).left).or (w.records name)
    else w.records name
  ledger : ∀ name, name ∈ w'.ledger ↔ name ∈ w.ledger ∨
    some name ∈ names ∧ (publishOutcome env wanted (some name)).listed = true
  published : ∀ name, name ∈ w'.published ↔ name ∈ w.published ∨ some name ∈ names
  unpublishFailed : w'.unpublishFailed = w.unpublishFailed

/-- Nothing is asked. -/
theorem publishedAs_nil : PublishedAs env wanted w w [] where
  records := fun _ => (if_neg List.not_mem_nil).symm
  ledger := fun _ => ⟨Or.inl, (fun h => h.resolve_right fun h => absurd h.1 List.not_mem_nil)⟩
  published := fun _ => ⟨Or.inl, fun h => h.resolve_right List.not_mem_nil⟩
  unpublishFailed := rfl

/-- One more name is asked for, first. -/
theorem PublishedAs.cons {first : Option Str} {names : List (Option Str)} (hfirst : first ∉ names)
    (h : PublishedAs env wanted (w.publishOne first (publishOutcome env wanted first)) w' names) :
    PublishedAs env wanted w w' (first :: names) := by
  cases first with
  | none =>
      -- Publishing no name leaves the records, the ledger and what is published.
      have hnames : ∀ name : Str, some name ∈ none :: names ↔ some name ∈ names := fun name =>
        ⟨(fun h => (List.mem_cons.mp h).resolve_left (Option.some_ne_none name)),
          List.mem_cons_of_mem none⟩
      exact
        { records := fun name => by
            rw [h.records]
            simp only [hnames]
            rfl
          ledger := fun name => by
            rw [h.ledger, hnames]
            rfl
          published := fun name => by
            rw [h.published, hnames]
            rfl
          unpublishFailed := h.unpublishFailed }
  | some first =>
      -- The first name's record is what its publishing left, and no other's changes.
      have hrecords : ∀ name,
          (w.publish first (publishOutcome env wanted (some first))).records name =
          if name = first then
            ((publishOutcome env wanted (some first)).left).or (w.records name)
          else w.records name := by
        intro name
        change (publishOutcome env wanted (some first)).records first w.records name = _
        unfold PublishOutcome.records
        cases (publishOutcome env wanted (some first)).left with
        | none => exact (ite_self _).symm
        | some record =>
            by_cases hsame : name = first
            · rw [hsame, if_pos rfl]
              exact Function.update_self ..
            · rw [if_neg hsame]
              exact Function.update_of_ne hsame ..
      have hledger : ∀ name,
          name ∈ (w.publish first (publishOutcome env wanted (some first))).ledger ↔
            name ∈ w.ledger ∨
              name = first ∧ (publishOutcome env wanted (some first)).listed = true := by
        intro name
        change name ∈ (publishOutcome env wanted (some first)).ledger first w.ledger ↔ _
        unfold PublishOutcome.ledger
        by_cases hlisted : (publishOutcome env wanted (some first)).listed = true
        · rw [if_pos hlisted, List.mem_append, List.mem_singleton]
          simp only [hlisted, and_true]
        · rw [if_neg hlisted]
          exact ⟨Or.inl, (fun h => h.resolve_right fun h => hlisted h.2)⟩
      exact
        { records := fun name => by
            rw [h.records, ServedShares.publishOne, hrecords]
            by_cases hsame : name = first
            · subst hsame
              rw [if_neg hfirst, if_pos rfl, if_pos List.mem_cons_self]
            · rw [if_neg hsame]
              simp only [List.mem_cons, Option.some.injEq, hsame, false_or]
          ledger := fun name => by
            rw [h.ledger, ServedShares.publishOne, hledger, List.mem_cons, Option.some.injEq]
            by_cases hsame : name = first
            · subst hsame
              simp only [hfirst, false_and, or_false, true_and]
            · simp only [hsame, false_and, or_false, false_or]
          published := fun name => by
            rw [h.published, ServedShares.publishOne, List.mem_cons, Option.some.injEq]
            change name ∈ w.published ++ [first] ∨ _ ↔ _
            rw [List.mem_append, List.mem_singleton, or_assoc]
          unpublishFailed := h.unpublishFailed }

theorem attempted_ok {first : Option Str} {names : List (Option Str)}
    (h : (publishOutcome env wanted first).isOk = true) :
    attempted env wanted (first :: names) = first :: attempted env wanted names := by
  rw [attempted, if_pos h]

theorem attempted_refused {first : Option Str} {names : List (Option Str)}
    (h : (publishOutcome env wanted first).isOk = false) :
    attempted env wanted (first :: names) = [first] := by
  rw [attempted, if_neg (ne_true_of_eq_false h)]

theorem attempted_of_ok {names : List (Option Str)}
    (h : ∀ name ∈ names, (publishOutcome env wanted name).isOk = true) :
    attempted env wanted names = names := by
  induction names with
  | nil => rfl
  | cons first names ih =>
      rw [List.forall_mem_cons] at h
      rw [attempted_ok h.1, ih h.2]

theorem attempted_subset {names : List (Option Str)} {name : Option Str}
    (h : name ∈ attempted env wanted names) : name ∈ names := by
  induction names with
  | nil => exact h
  | cons first names ih =>
      rw [attempted] at h
      rcases List.mem_cons.mp h with rfl | h
      · exact List.mem_cons_self
      · by_cases hok : (publishOutcome env wanted first).isOk = true
        · rw [if_pos hok] at h
          exact List.mem_cons_of_mem _ (ih h)
        · rw [if_neg hok] at h
          exact absurd h List.not_mem_nil

/-- What publishing leaves, and that it ends with a failure where one is refused. -/
theorem publishAll_spec {names : List (Option Str)} (hnodup : names.Nodup) :
    ∃ err w', publishAll env wanted names w = (err, w') ∧
      PublishedAs env wanted w w' (attempted env wanted names) ∧
      (err = none ↔ ∀ name ∈ names, (publishOutcome env wanted name).isOk = true) ∧
      ∀ e, err = some e → IsFailure e := by
  induction names generalizing w with
  | nil =>
      exact ⟨none, w, rfl, publishedAs_nil, ⟨fun _ name hname => absurd hname List.not_mem_nil,
        fun _ => rfl⟩, fun e h => nomatch h⟩
  | cons first names ih =>
      rw [List.nodup_cons] at hnodup
      rw [publishAll]
      cases hout : publishOutcome env wanted first with
      -- What the first one left is carried through the rest, which do not name it again.
      | ok record =>
          have hok : (publishOutcome env wanted first).isOk = true := by
            rw [hout]
            rfl
          rcases ih (w := w.publishOne first (publishOutcome env wanted first)) hnodup.2 with
            ⟨err, w', hrun, hleft, hall, hfail⟩
          refine ⟨err, w', ?_, ?_, ?_, hfail⟩
          · rw [hout] at hrun
            exact hrun
          · rw [attempted_ok hok]
            exact hleft.cons fun h => hnodup.1 (attempted_subset h)
          · rw [hall, List.forall_mem_cons]
            exact ⟨fun h => ⟨hok, h⟩, fun h => h.2⟩
      -- A refusal ends the phase, with what the refused one left behind.
      | refused e left listed =>
          have hrefused : (publishOutcome env wanted first).isOk = false := by
            rw [hout]
            rfl
          refine ⟨some (explained e), _, rfl, ?_, ⟨(fun h => nomatch h), fun h => ?_⟩,
            fun e' he => ?_⟩
          · rw [attempted_refused hrefused, ← hout]
            exact publishedAs_nil.cons List.not_mem_nil
          · exact absurd (h first List.mem_cons_self) (ne_true_of_eq_false hrefused)
          · cases he
            exact isFailure_explained e

/-- A list that cannot be sorted is no answer either. -/
theorem isFailure_sortedIds {ids : List (Option Str)} {e : Exc} (h : sortedIds ids = .error e) :
    IsFailure e := by
  unfold sortedIds at h
  split at h
  · exact nomatch h
  · exact nomatch h
  · split at h
    · exact nomatch h
    · intro error he
      rw [← Except.error.inj h] at he
      exact nomatch he

theorem sortedIds_eq_nil {ids sorted : List (Option Str)} (h : sortedIds ids = .ok sorted) :
    sorted = [] ↔ ids = [] := by
  have hperm := perm_sortedIds h
  exact ⟨(fun heq => (heq ▸ hperm).nil_eq.symm), (fun heq => (heq ▸ hperm).eq_nil)⟩

/-- What came back writable is gone, unless the helper refuses. -/
structure Unshared (w w' : ServedShares) (names : List (Option Str)) : Prop where
  published : w'.published = w.published
  refused : w.unpublishFailed = true → w'.unpublishFailed = true
  records : w'.unpublishFailed = false → ∀ name,
    w'.records name = if some name ∈ names then none else w.records name

theorem unpublish_failed (name : Str) {o : UnpublishOutcome HelperFailure} (ho : o.isOk = false) :
    (w.unpublish name o).unpublishFailed = true := by
  change (w.unpublishFailed || !o.isOk) = true
  rw [ho]
  exact Bool.or_true _

theorem Unshared.ok {first : Str} {names : List (Option Str)}
    (h : Unshared (w.unpublish first .ok) w' names) : Unshared w w' (some first :: names) where
  published := h.published
  refused := fun hfailed => h.refused ((Bool.or_false _).trans hfailed)
  records := fun hfailed name => by
    rw [h.records hfailed]
    change (if some name ∈ names then none else Function.update w.records first none name) = _
    by_cases hsame : name = first
    · rw [hsame, Function.update_self, if_pos List.mem_cons_self, ite_self]
    · rw [Function.update_of_ne hsame]
      simp only [List.mem_cons, Option.some.injEq, hsame, false_or]

theorem Unshared.of_refused {first : Str} {names : List (Option Str)}
    {o : UnpublishOutcome HelperFailure} (ho : o.isOk = false)
    (h : Unshared (w.unpublish first o) w' names) : Unshared w w' (some first :: names) := by
  have hfailed := unpublish_failed (w := w) first ho
  refine ⟨h.published, fun _ => h.refused hfailed, fun hnot => ?_⟩
  rw [h.refused hfailed] at hnot
  exact nomatch hnot

theorem Unshared.refl : Unshared w w [] :=
  ⟨rfl, id, fun _ _ => (if_neg List.not_mem_nil).symm⟩

/-- Where it ends at once, it was refused. -/
theorem Unshared.of_failed {first : Str} {names : List (Option Str)}
    {o : UnpublishOutcome HelperFailure} (ho : o.isOk = false) :
    Unshared w (w.unpublish first o) (some first :: names) := by
  have hfailed := unpublish_failed (w := w) first ho
  refine ⟨rfl, fun _ => hfailed, fun hnot => ?_⟩
  rw [hfailed] at hnot
  exact nomatch hnot

/-- Unpublishing what came back writable. -/
theorem unshareAll_spec {names : List (Option Str)} (hnames : none ∉ names) :
    ∃ err w', unshareAll env names w = (err, w') ∧ (∀ e, err = some e → IsFailure e) ∧
      Unshared w w' names := by
  induction names generalizing w with
  | nil => exact ⟨none, w, rfl, (fun e h => nomatch h), Unshared.refl⟩
  | cons first names ih =>
      rw [List.mem_cons, not_or] at hnames
      cases first with
      | none => exact absurd rfl hnames.1
      | some first =>
          rcases ih (w := w.unpublish first (env.unshare first)) hnames.2 with
            ⟨err, w', hrun, hfail, hleft⟩
          rw [unshareAll]
          cases hout : env.unshare first with
          | ok =>
              rw [hout] at hrun hleft
              exact ⟨err, w', hrun, hfail, hleft.ok⟩
          | refused e gone unlisted =>
              rw [hout] at hrun hleft
              -- A refusal of the helper is passed over, and any other exception ends the
              -- phase.
              cases e with
              | helper e => exact ⟨err, w', hrun, hfail, hleft.of_refused rfl⟩
              | other =>
                  refine ⟨_, _, rfl, fun e h => ?_, Unshared.of_failed rfl⟩
                  cases h
                  exact fun error he => nomatch he

end Phases

section Verify

variable [Unicode] {env : SharingEnv} {wanted : Wanted} {w : ServedShares}

/-- What the looking finds. -/
theorem verifyPresent_spec :
    (verifyPresent env wanted w = .ok () ↔ env.list 1 = none ∧ wrongNames wanted w = []) ∧
      ∀ e, verifyPresent env wanted w = .error e → IsFailure e := by
  unfold verifyPresent
  cases hlist : env.list 1 with
  | some e =>
      refine ⟨⟨(fun h => nomatch h), (fun h => nomatch h.1)⟩, fun e' h => ?_⟩
      rw [← Except.error.inj h]
      exact isFailure_list e
  | none =>
      -- The names are sorted for the message, which fails where one is null.
      cases hsorted : sortedIds (wrongNames wanted w) with
      | error e =>
          refine ⟨⟨(fun h => nomatch h), fun h => ?_⟩, fun e' h => ?_⟩
          · rw [h.2] at hsorted
            exact nomatch hsorted
          · rw [← Except.error.inj h]
            exact isFailure_sortedIds hsorted
      | ok wrong =>
          rw [← sortedIds_eq_nil hsorted]
          cases wrong with
          | nil => exact ⟨⟨(fun _ => ⟨rfl, rfl⟩), (fun _ => rfl)⟩, fun e' h => nomatch h⟩
          | cons name names =>
              refine ⟨⟨(fun h => nomatch h), (fun h => nomatch h.2)⟩, fun e' h error he => ?_⟩
              rw [← Except.error.inj h] at he
              cases he
              exact Or.inl rfl

/-- Where the sharepoints can be read and none came back writable, it ends well. -/
theorem verifyReadOnly_ok (hlist : env.list 2 = none) (hnone : writableNames wanted w = []) :
    verifyReadOnly env wanted w = (none, w) := by
  rw [verifyReadOnly, hlist, hnone]
  rfl

/-- Where they cannot be read, nothing is unpublished. -/
theorem verifyReadOnly_unread (hlist : env.list 2 ≠ none) :
    ∃ e, verifyReadOnly env wanted w = (some e, w) ∧ IsFailure e := by
  unfold verifyReadOnly
  cases h : env.list 2 with
  | none => exact absurd h hlist
  | some e => exact ⟨_, rfl, isFailure_list e⟩

/-- Where some came back writable, they are unpublished and `apply` fails. -/
theorem verifyReadOnly_unshared (hlist : env.list 2 = none) (hsome : writableNames wanted w ≠ [])
    (hnames : none ∉ writableNames wanted w) :
    ∃ e w', verifyReadOnly env wanted w = (some e, w') ∧ IsFailure e ∧
      Unshared w w' (writableNames wanted w) := by
  rcases sortedIds_of_some hnames with ⟨writable, hsorted⟩
  have hperm := perm_sortedIds hsorted
  rcases @unshareAll_spec env w writable (fun h => hnames (hperm.mem_iff.mp h)) with
    ⟨err, w', hrun, hfail, hleft⟩
  -- Sorting changes the order only.
  have hgone : Unshared w w' (writableNames wanted w) :=
    ⟨hleft.published, hleft.refused, fun h name => by
      rw [hleft.records h]
      simp only [hperm.mem_iff]⟩
  rw [verifyReadOnly, hlist, hsorted]
  cases writable with
  | nil => exact absurd ((sortedIds_eq_nil hsorted).mp rfl) hsome
  | cons name names =>
      dsimp only
      rw [hrun]
      cases err with
      | some e => exact ⟨e, w', rfl, hfail e rfl, hgone⟩
      | none =>
          refine ⟨_, w', rfl, fun error he => ?_, hgone⟩
          cases he
          exact Or.inl rfl

end Verify

end Smbpal
