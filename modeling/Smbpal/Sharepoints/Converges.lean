import Smbpal.Sharepoints.Phases

/-!
# When Publishing Converges

The phases of `apply` put together: where it stops short, where it unpublishes what came
back writable, and where it returns.

## Theorems

* `applyShares_stopsShort`, `applyShares_runsThrough`: How `apply` ends.
* `apply_converges_iff`: When it does what it is to do.
* `read_only_left_writable`: A share that was to be read-only, left writable.
-/

namespace Smbpal

open Lib

section Asked

variable [Unicode] {env : SharingEnv} {config : Config} {grant : Option (List UInt8)}
  {w w' : ServedShares} {plan : ApplyPlan} {names : List (Option Str)}

/-- The records and the list after the helper was asked to publish these names. -/
structure Asked (env : SharingEnv) (plan : ApplyPlan) (w w' : ServedShares)
    (names : List (Option Str)) : Prop where
  subset : ∀ name ∈ names, name ∈ plan.missing
  left : ∀ name, some name ∈ names →
    w'.records name = (publishOutcome env plan.wanted (some name)).left
  kept : ∀ name, some name ∉ names → name ∉ plan.stale → w'.records name = w.records name
  ledger : ∀ name, name ∈ w'.ledger ↔ name ∈ w.ledger ∧ name ∉ plan.stale ∨
    some name ∈ names ∧ (publishOutcome env plan.wanted (some name)).listed = true
  published : ∀ name, name ∈ w'.published ↔ name ∈ w.published ∨ some name ∈ names
  unpublishFailed : w'.unpublishFailed = w.unpublishFailed

/-- Where a name is published, there is no record of it any more. -/
theorem Asked.of_phases (hp : PlanFacts env config w plan) {w₁ : ServedShares}
    (hgone : Unpublished w w₁ plan.stale) (hleft : PublishedAs env plan.wanted w₁ w' names)
    (hsubset : ∀ name ∈ names, name ∈ plan.missing) : Asked env plan w w' names where
  subset := hsubset
  left := fun name hname => by
    -- What is asked for was not on the list, or is stale: either way it has no record.
    have hnone : w₁.records name = none := by
      rw [hgone.records]
      by_cases hstale : name ∈ plan.stale
      · rw [if_pos hstale]
      · rw [if_neg hstale]
        by_contra hrecord
        have hmissing := hsubset _ hname
        have hlisted := hp.free name hmissing hrecord
        have hneed := ((hp.missing _).mp hmissing).2
        rw [isMissing, Bool.or_eq_true, decide_eq_true_eq, decide_eq_true_eq] at hneed
        exact hneed.elim (fun h => h hlisted) hstale
    rw [hleft.records, if_pos hname, hnone, Option.or_none]
  kept := fun name hname hstale => by
    rw [hleft.records, if_neg hname, hgone.records, if_neg hstale]
  ledger := fun name => by
    rw [hleft.ledger, hgone.ledger]
  published := fun name => by
    rw [hleft.published, hgone.published]
  unpublishFailed := hleft.unpublishFailed.trans hgone.unpublishFailed

omit [Unicode] in
theorem currentPath_congr {name : Str} (h : w'.records name = w.records name) :
    currentPath w' name = currentPath w name := by
  rw [currentPath, h, currentPath]

omit [Unicode] in
theorem currentReadOnly_congr {name : Str} (h : w'.records name = w.records name) :
    currentReadOnly w' name = currentReadOnly w name := by
  rw [currentReadOnly, h, currentReadOnly]

omit [Unicode] in
theorem currentPath_of_record {name : Str} {record : ListedRecord}
    (h : w.records name = some record) : currentPath w name = record.path := by
  rw [currentPath, h, Option.bind_some]

omit [Unicode] in
theorem currentReadOnly_of_record {name : Str} {record : ListedRecord}
    (h : w.records name = some record) : currentReadOnly w name = record.readOnly := by
  rw [currentReadOnly, h]

omit [Unicode] in
theorem exists_left {o : PublishOutcome ListedRecord HelperFailure} (h : o.isOk = true) :
    ∃ record, o.left = some record := by
  cases o with
  | ok record => exact ⟨record, rfl⟩
  | refused e left listed => exact nomatch h

omit [Unicode] in
theorem listed_of_ok {o : PublishOutcome ListedRecord HelperFailure} (h : o.isOk = true) :
    o.listed = true := by
  cases o with
  | ok record => rfl
  | refused e left listed => exact nomatch h

/-- Where all could be published, each has a name. -/
theorem PlanFacts.none_notMem (hp : PlanFacts env config w plan)
    (hok : ∀ name ∈ plan.missing, (publishOutcome env plan.wanted name).isOk = true) :
    none ∉ dictKeys plan.wanted := by
  intro hnone
  exact nomatch hok none ((hp.missing none).mpr ⟨hnone, rfl⟩)

/-- What is asked of a share's name is what the share says. -/
theorem PlanFacts.asksReadOnly_eq (hp : PlanFacts env config w plan) (hvalid : config.Valid)
    {s : Share} (hs : s ∈ config.shares) (henabled : s.isEnabled = true) {name : Str}
    (hname : s.name = some name) :
    asksReadOnly plan.wanted (some name) = s.readOnly.getD false := by
  rcases hp.wanted_eq hvalid hs henabled hname with ⟨path, hget⟩
  rw [asksReadOnly, hget]

namespace Asked

variable (hp : PlanFacts env config w plan) (ha : Asked env plan w w' names)

include hp ha

/-- None of the shares that were published is writable that was not to be: none came back
    so. -/
theorem readOnly_iff (hvalid : config.Valid) (hstart : w.published = []) :
    (∀ s ∈ config.shares, s.isEnabled = true → s.readOnly = some true →
      ∀ name, s.name = some name → name ∈ w'.published →
        ∀ record, w'.records name = some record → record.readOnly = true) ↔
      ¬CameWritable env plan names := by
  constructor
  · -- A share that asked for read-only and came back writable breaks its promise.
    rintro hkept ⟨name, hname, hasks, record, hleft, hwritable⟩
    cases name with
    | none => exact absurd hleft (Option.some_ne_none record).symm
    | some name =>
        have hwanted := ((hp.missing _).mp (ha.subset _ hname)).1
        rcases hp.mem_names.mp hwanted with ⟨s, hs, henabled, hsname⟩
        rw [hp.asksReadOnly_eq hvalid hs henabled hsname] at hasks
        have hreadOnly : s.readOnly = some true := by
          cases h : s.readOnly with
          | none =>
              rw [h] at hasks
              exact nomatch hasks
          | some b =>
              rw [h] at hasks
              exact congrArg some hasks
        have hasked := (ha.published name).mpr (Or.inr hname)
        rw [hkept s hs henabled hreadOnly name hsname hasked record
          ((ha.left name hname).trans hleft)] at hwritable
        exact nomatch hwritable
  · -- A share was asked for in this apply only, so what is there is what it came back as.
    intro hnone s hs henabled hreadOnly name hname hasked record hrecord
    by_contra hwritable
    rw [ha.published, hstart] at hasked
    have hmem := hasked.resolve_left List.not_mem_nil
    refine hnone ⟨some name, hmem, ?_, record, ?_, eq_false_of_ne_true hwritable⟩
    · rw [hp.asksReadOnly_eq hvalid hs henabled hname, hreadOnly]
      rfl
    · exact (ha.left name hmem).symm.trans hrecord

end Asked

namespace Asked

variable (hp : PlanFacts env config w plan) (ha : Asked env plan w w' plan.missing)
  (hok : ∀ name ∈ plan.missing, (publishOutcome env plan.wanted name).isOk = true)

include hp ha hok

/-- A name is at another folder if it came back so. -/
theorem wrongNames_iff : wrongNames plan.wanted w' = [] ↔
    ¬∃ name ∈ plan.missing, ∃ record, (publishOutcome env plan.wanted name).left = some record ∧
      record.path ≠ (dictGet plan.wanted name).bind Prod.fst := by
  unfold wrongNames
  simp only [List.filter_eq_nil_iff, decide_eq_true_eq, not_not]
  constructor
  · rintro hright ⟨name, hname, record, hleft, hwrong⟩
    cases name with
    | none => exact absurd hleft (Option.some_ne_none record).symm
    | some name =>
        refine hwrong ?_
        rw [← hright _ ((hp.missing _).mp hname).1, Option.bind_some]
        exact (currentPath_of_record ((ha.left name hname).trans hleft)).symm
  · intro hright name hname
    cases name with
    | none => exact absurd hname (hp.none_notMem hok)
    | some name =>
        -- A share that was not asked for is as the plan found it, which is right.
        rw [Option.bind_some]
        by_cases hmissing : some name ∈ plan.missing
        · rcases exists_left (hok _ hmissing) with ⟨record, hleft⟩
          rw [currentPath_of_record ((ha.left name hmissing).trans hleft)]
          by_contra hwrong
          exact hright ⟨some name, hmissing, record, hleft, hwrong⟩
        · rcases hp.settled hname hmissing with ⟨-, hstale, hpath, -⟩
          rw [currentPath_congr (ha.kept name hmissing hstale), hpath]

/-- A name is writable that is not to be if it came back so. -/
theorem mem_writableNames {name : Str} : some name ∈ writableNames plan.wanted w' ↔
    some name ∈ plan.missing ∧ asksReadOnly plan.wanted (some name) = true ∧
      ∃ record, (publishOutcome env plan.wanted (some name)).left = some record ∧
        record.readOnly = false := by
  rw [writableNames, List.mem_filter, Bool.and_eq_true, Bool.not_eq_true', Option.elim_some]
  constructor
  · rintro ⟨hname, hasks, hwritable⟩
    have hmissing : some name ∈ plan.missing := by
      by_contra hmissing
      rcases hp.settled hname hmissing with ⟨-, hstale, -, hreadOnly⟩
      rw [currentReadOnly_congr (ha.kept name hmissing hstale), hreadOnly, hasks] at hwritable
      exact nomatch hwritable
    rcases exists_left (hok _ hmissing) with ⟨record, hleft⟩
    rw [currentReadOnly_of_record ((ha.left name hmissing).trans hleft)] at hwritable
    exact ⟨hmissing, hasks, record, hleft, hwritable⟩
  · rintro ⟨hmissing, hasks, record, hleft, hwritable⟩
    refine ⟨((hp.missing _).mp hmissing).1, hasks, ?_⟩
    rw [currentReadOnly_of_record ((ha.left name hmissing).trans hleft)]
    exact hwritable

/-- None is to be unpublished if none came back writable. -/
theorem writableNames_iff : writableNames plan.wanted w' = [] ↔
    ¬CameWritable env plan plan.missing := by
  constructor
  · rintro hnil ⟨name, hname, hasks, record, hleft, hwritable⟩
    cases name with
    | none => exact absurd hleft (Option.some_ne_none record).symm
    | some name =>
        have hmem := (mem_writableNames hp ha hok).mpr ⟨hname, hasks, record, hleft, hwritable⟩
        rw [hnil] at hmem
        exact absurd hmem List.not_mem_nil
  · intro hnone
    refine List.eq_nil_iff_forall_not_mem.mpr fun name hname => ?_
    cases name with
    | none => exact hp.none_notMem hok (List.mem_of_mem_filter hname)
    | some name => exact hnone ⟨some name, (mem_writableNames hp ha hok).mp hname⟩

/-- What is left of what was published, after the writable ones were unpublished. -/
theorem readOnly_of_unshared (hvalid : config.Valid) (hstart : w.published = [])
    {w'' : ServedShares} (hunshared : Unshared w' w'' (writableNames plan.wanted w'))
    (hdone : w''.unpublishFailed = false) :
    ∀ s ∈ config.shares, s.isEnabled = true → s.readOnly = some true →
      ∀ name, s.name = some name → name ∈ w''.published →
        ∀ record, w''.records name = some record → record.readOnly = true := by
  intro s hs henabled hreadOnly name hname hasked record hrecord
  by_contra hwritable
  rw [hunshared.published, ha.published, hstart] at hasked
  have hmissing := hasked.resolve_left List.not_mem_nil
  rw [hunshared.records hdone] at hrecord
  by_cases hmem : some name ∈ writableNames plan.wanted w'
  · rw [if_pos hmem] at hrecord
    exact nomatch hrecord
  · rw [if_neg hmem, ha.left name hmissing] at hrecord
    refine hmem ((mem_writableNames hp ha hok).mpr ⟨hmissing, ?_, record, hrecord, ?_⟩)
    · rw [hp.asksReadOnly_eq hvalid hs henabled hname, hreadOnly]
      rfl
    · exact eq_false_of_ne_true hwritable

/-- The list is of the shares that are enabled. -/
theorem mem_ledger {name : Str} : name ∈ w'.ledger ↔ some name ∈ dictKeys plan.wanted := by
  rw [ha.ledger]
  constructor
  · rintro (⟨hlisted, hstale⟩ | ⟨hmissing, -⟩)
    · exact hp.wanted_of_listed hlisted hstale
    · exact ((hp.missing _).mp hmissing).1
  · intro hname
    by_cases hmissing : some name ∈ plan.missing
    · exact Or.inr ⟨hmissing, listed_of_ok (hok _ hmissing)⟩
    · rcases hp.settled hname hmissing with ⟨hlisted, hstale, -⟩
      exact Or.inl ⟨hlisted, hstale⟩

end Asked

end Asked

section Outcome

variable [Unicode] {env : SharingEnv} {config : Config} {grant : Option (List UInt8)}
  {w w' : ServedShares} {plan : ApplyPlan}

omit [Unicode] in
/-- Where it does not stop short, all is published. -/
theorem isOk_of_not_stopsShort (h : ¬StopsShort env plan) :
    ∀ name ∈ plan.missing, (publishOutcome env plan.wanted name).isOk = true := by
  intro name hname
  by_contra hrefused
  exact h (Or.inl ⟨name, hname, eq_false_of_ne_true hrefused⟩)

/-- Where `apply` stops short, it fails and leaves what it asked for. -/
theorem applyShares_stopsShort (hplan : applyPlan env config grant w = .ok plan)
    (hstale : ∀ name ∈ plan.stale, (env.unpublish name).isOk = true)
    (hstops : StopsShort env plan) :
    ∃ e w', applyShares env config grant w = (.error e, w') ∧ IsFailure e ∧
      Asked env plan w w' (attempted env plan.wanted plan.missing) := by
  have hp := applyPlan_ok hplan
  rcases unpublishAll_ok (w := w) hstale with ⟨w₁, hunpublish, hgone⟩
  rcases @publishAll_spec env plan.wanted w₁ plan.missing hp.nodup with
    ⟨err, w₂, hpublish, hleft, hall, hfail⟩
  have ha := Asked.of_phases hp hgone hleft fun name => attempted_subset
  rw [applyShares, hplan]
  dsimp only
  rw [hunpublish]
  dsimp only
  rw [hpublish]
  cases err with
  | some e => exact ⟨e, w₂, rfl, hfail e rfl, ha⟩
  | none =>
      have hok := hall.mp rfl
      have hmissing := ha
      rw [attempted_of_ok hok] at hmissing
      dsimp only
      cases hpresent : verifyPresent env plan.wanted w₂ with
      | error e => exact ⟨e, w₂, rfl, verifyPresent_spec.2 e hpresent, ha⟩
      | ok _ =>
          -- all was published, and at its folder: what is left is the last reading
          rcases verifyPresent_spec.1.mp hpresent with ⟨hlist, hwrong⟩
          rw [hmissing.wrongNames_iff hp hok] at hwrong
          have hunread : env.list 2 ≠ none := by
            rcases hstops with ⟨name, hname, hrefused⟩ | hunread | hmoved | hunread
            · rw [hok name hname] at hrefused
              exact nomatch hrefused
            · exact absurd hlist hunread
            · exact absurd hmoved hwrong
            · exact hunread
          rcases @verifyReadOnly_unread _ env plan.wanted w₂ hunread with ⟨e, hrun, he⟩
          dsimp only
          rw [hrun]
          exact ⟨e, w₂, rfl, he, ha⟩

/-- Where all was published and is at its folder, the last reading decides. -/
theorem applyShares_verify {w₁ w₂ : ServedShares} (hplan : applyPlan env config grant w = .ok plan)
    (hunpublish : unpublishAll env plan.stale w = (none, w₁))
    (hpublish : publishAll env plan.wanted plan.missing w₁ = (none, w₂))
    (hpresent : verifyPresent env plan.wanted w₂ = .ok ()) :
    (∀ e w', verifyReadOnly env plan.wanted w₂ = (some e, w') →
      applyShares env config grant w = (.error e, w')) ∧
    (verifyReadOnly env plan.wanted w₂ = (none, w₂) →
      applyShares env config grant w = (sortedIds (dictKeys plan.wanted), w₂)) := by
  rw [applyShares, hplan]
  dsimp only
  rw [hunpublish]
  dsimp only
  rw [hpublish]
  dsimp only
  rw [hpresent]
  dsimp only
  refine ⟨fun e w' h => ?_, fun h => ?_⟩
  · rw [h]
  · rw [h]

/-- Where it does not, it unpublishes what came back writable and fails, or it returns. -/
theorem applyShares_runsThrough (hplan : applyPlan env config grant w = .ok plan)
    (hstale : ∀ name ∈ plan.stale, (env.unpublish name).isOk = true)
    (hnot : ¬StopsShort env plan) :
    ∃ w', Asked env plan w w' plan.missing ∧
      (CameWritable env plan plan.missing → ∃ e w'',
        applyShares env config grant w = (.error e, w'') ∧ IsFailure e ∧
          Unshared w' w'' (writableNames plan.wanted w')) ∧
      (¬CameWritable env plan plan.missing → ∃ served,
        applyShares env config grant w = (.ok served, w')) := by
  have hp := applyPlan_ok hplan
  have hok := isOk_of_not_stopsShort hnot
  -- The list is read twice and neither reading failed, else the apply stopped short.
  have hlist₁ : env.list 1 = none := by
    by_contra h
    exact hnot (Or.inr (Or.inl h))
  have hlist₂ : env.list 2 = none := by
    by_contra h
    exact hnot (Or.inr (Or.inr (Or.inr h)))
  rcases unpublishAll_ok (w := w) hstale with ⟨w₁, hunpublish, hgone⟩
  rcases @publishAll_spec env plan.wanted w₁ plan.missing hp.nodup with
    ⟨err, w₂, hpublish, hleft, hall, -⟩
  rw [attempted_of_ok hok] at hleft
  have ha := Asked.of_phases hp hgone hleft fun name hname => hname
  have hwrong := (ha.wrongNames_iff hp hok).mpr fun h => hnot (Or.inr (Or.inr (Or.inl h)))
  have hpresent : verifyPresent env plan.wanted w₂ = .ok () :=
    verifyPresent_spec.1.mpr ⟨hlist₁, hwrong⟩
  rcases applyShares_verify hplan hunpublish (hpublish.trans (by rw [hall.mpr hok])) hpresent with
    ⟨hfails, hreturns⟩
  refine ⟨w₂, ha, fun hcame => ?_, fun hcame => ?_⟩
  · -- With one writable share the second check undoes all and raises.
    have hsome : writableNames plan.wanted w₂ ≠ [] := fun h =>
      (ha.writableNames_iff hp hok).mp h hcame
    rcases verifyReadOnly_unshared hlist₂ hsome
      (fun h => hp.none_notMem hok (List.mem_of_mem_filter h)) with ⟨e, w', hverify, he, hunshared⟩
    exact ⟨e, w', hfails e w' hverify, he, hunshared⟩
  · rcases sortedIds_of_some (hp.none_notMem hok) with ⟨served, hsorted⟩
    refine ⟨served, ?_⟩
    rw [hreturns (verifyReadOnly_ok hlist₂ ((ha.writableNames_iff hp hok).mpr hcame)), hsorted]

omit [Unicode] in
/-- Where it fails, only what it published can be wrong. -/
theorem converges_of_failure {e : Exc} (he : IsFailure e)
    (h : w'.unpublishFailed = false → ∀ s ∈ config.shares, s.isEnabled = true →
      s.readOnly = some true → ∀ name, s.name = some name → name ∈ w'.published →
        ∀ record, w'.records name = some record → record.readOnly = true) :
    Converges env config grant w w' (.error e) where
  names := fun _ h => nomatch h
  shares := fun _ h => nomatch h
  others := fun _ h => nomatch h
  unchanged := fun error herror hcode => by
    rcases he error (Except.error.inj herror) with h | h
    · rw [h] at hcode
      rcases hcode with h | ⟨_, h⟩
      · exact nomatch h
      · exact nomatch h
    · rw [h] at hcode
      rcases hcode with h | ⟨_, h⟩
      · exact nomatch h
      · exact nomatch h
  readOnly := h

/-- Where none came back otherwise, a name is read-only when it is asked to be. -/
theorem currentReadOnly_eq (hp : PlanFacts env config w plan)
    (ha : Asked env plan w w' plan.missing)
    (hok : ∀ name ∈ plan.missing, (publishOutcome env plan.wanted name).isOk = true)
    (hwritable : ¬CameWritable env plan plan.missing) (hreadOnly : ¬CameReadOnly env plan)
    {name : Str} (hname : some name ∈ dictKeys plan.wanted) :
    currentReadOnly w' name = asksReadOnly plan.wanted (some name) := by
  by_cases hmissing : some name ∈ plan.missing
  · rcases exists_left (hok _ hmissing) with ⟨record, hleft⟩
    rw [currentReadOnly_of_record ((ha.left name hmissing).trans hleft)]
    cases hasks : asksReadOnly plan.wanted (some name) with
    | true =>
        by_contra h
        exact hwritable ⟨_, hmissing, hasks, record, hleft, eq_false_of_ne_true h⟩
    | false =>
        by_contra h
        exact hreadOnly ⟨_, hmissing, hasks, record, hleft, eq_true_of_ne_false h⟩
  · rcases hp.settled hname hmissing with ⟨-, hstale, -, hsettled⟩
    rw [currentReadOnly_congr (ha.kept name hmissing hstale), hsettled]

/-- Each enabled share has a record, at the folder that is wanted. -/
theorem exists_record (hvalid : config.Valid) (hp : PlanFacts env config w plan)
    (hok : ∀ name ∈ plan.missing, (publishOutcome env plan.wanted name).isOk = true)
    (hwrong : wrongNames plan.wanted w' = []) {s : Share} (hs : s ∈ config.shares)
    (henabled : s.isEnabled = true) :
    ∃ name record, s.name = some name ∧ w'.records name = some record ∧
      record.path = (dictGet plan.wanted s.name).bind Prod.fst := by
  have hwanted := hp.mem_names.mpr ⟨s, hs, henabled, rfl⟩
  cases hname : s.name with
  | none =>
      rw [hname] at hwanted
      exact absurd hwanted (hp.none_notMem hok)
  | some name =>
      rcases hp.wanted_eq hvalid hs henabled hname with ⟨path, hget⟩
      -- A record with another folder would be one of the wrong ones.
      have hpath : currentPath w' name = some path := by
        by_contra h
        have hmem : s.name ∈ wrongNames plan.wanted w' := by
          refine List.mem_filter.mpr ⟨hwanted, ?_⟩
          rw [hname, hget]
          exact decide_eq_true h
        rw [hwrong] at hmem
        exact absurd hmem List.not_mem_nil
      rcases Option.bind_eq_some_iff.mp hpath with ⟨record, hrecord, hat⟩
      refine ⟨name, record, rfl, hrecord, ?_⟩
      rw [hget, hat]
      rfl

/-- Where it returns, the shares are there as they came back. -/
theorem converges_of_return (hvalid : config.Valid) (hp : PlanFacts env config w plan)
    (hnot : ¬StopsShort env plan) (ha : Asked env plan w w' plan.missing)
    (hcame : ¬CameWritable env plan plan.missing) (hstart : w.published = [])
    (served : List (Option Str)) :
    Converges env config grant w w' (.ok served) ↔
      ¬CameReadOnly env plan ∧ OwnFolders env config plan := by
  have hok := isOk_of_not_stopsShort hnot
  have hwrong := (ha.wrongNames_iff hp hok).mpr fun h => hnot (Or.inr (Or.inr (Or.inl h)))
  constructor
  · intro h
    refine ⟨?_, fun s hs henabled => ?_⟩
    · -- A writable share that came back read-only is not as the config has it.
      rintro ⟨name, hname, hasks, record, hleft, hreadOnly⟩
      cases name with
      | none => exact absurd hleft (Option.some_ne_none record).symm
      | some name =>
          rcases hp.mem_names.mp ((hp.missing _).mp hname).1 with ⟨s, hs, henabled, hsname⟩
          rcases h.shares served rfl s hs henabled with
            ⟨name', facts, record', hname', -, hrecord, -, heq⟩
          rw [hsname] at hname'
          cases hname'
          rw [(ha.left name hname).trans hleft] at hrecord
          cases hrecord
          rw [hp.asksReadOnly_eq hvalid hs henabled hsname, ← heq, hreadOnly] at hasks
          exact nomatch hasks
    · -- The record's folder is the resolved path, so a share's own folder is that one.
      rcases h.shares served rfl s hs henabled with
        ⟨name, facts, record, hname, hfacts, hrecord, hpath, -⟩
      rcases exists_record hvalid hp hok hwrong hs henabled with
        ⟨name', record', hname', hrecord', hpath'⟩
      rw [hname] at hname'
      cases hname'
      rw [hrecord] at hrecord'
      cases hrecord'
      exact ⟨facts, hfacts, hpath'.symm.trans hpath⟩
  · rintro ⟨hreadOnly, hfolders⟩
    exact
      { names := fun _ _ name => (ha.mem_ledger hp hok).trans hp.mem_names
        shares := fun _ _ s hs henabled => by
          rcases exists_record hvalid hp hok hwrong hs henabled with
            ⟨name, record, hname, hrecord, hpath⟩
          rcases hfolders s hs henabled with ⟨facts, hfacts, hfolder⟩
          refine ⟨name, facts, record, hname, hfacts, hrecord, hpath.trans hfolder, ?_⟩
          rw [← hp.asksReadOnly_eq hvalid hs henabled hname, ← currentReadOnly_of_record hrecord]
          refine currentReadOnly_eq hp ha hok hcame hreadOnly ?_
          exact hp.mem_names.mpr ⟨s, hs, henabled, hname⟩
        others := fun _ _ name hbefore hafter => by
          refine ha.kept name (fun hmissing => hafter ?_) fun hstale =>
            hbefore ((hp.stale name).mp hstale).1
          rw [ha.mem_ledger hp hok]
          exact ((hp.missing _).mp hmissing).1
        unchanged := fun _ h => nomatch h
        readOnly := fun _ => (ha.readOnly_iff hp hvalid hstart).mpr hcame }

/-- What the condition is where `apply` gets to publishing. -/
theorem convergesWhen_iff (hplan : applyPlan env config grant w = .ok plan)
    (hstale : ∀ name ∈ plan.stale, (env.unpublish name).isOk = true) :
    ConvergesWhen env config grant w ↔
      (StopsShort env plan → ¬CameWritable env plan (attempted env plan.wanted plan.missing)) ∧
        (¬StopsShort env plan → CameWritable env plan plan.missing ∨
          ¬CameReadOnly env plan ∧ OwnFolders env config plan) := by
  refine ⟨fun h => h plan hplan hstale, fun h plan' hplan' _ => ?_⟩
  rw [hplan] at hplan'
  rw [← Except.ok.inj hplan']
  exact h

/-- `apply` does what it is to do exactly where, if it stops short, none of what it asked to
    publish came back writable that was to be read-only, and if it does not, one did, or
    none came back read-only that was to be writable and each is at its own folder. -/
theorem apply_converges_iff (hvalid : config.Valid) (records : Str → Option ListedRecord)
    (ledger : List Str) :
    Converges env config grant (ServedShares.start records ledger)
        (applyShares env config grant (ServedShares.start records ledger)).2
        (applyShares env config grant (ServedShares.start records ledger)).1 ↔
      ConvergesWhen env config grant (ServedShares.start records ledger) := by
  generalize hw : ServedShares.start records ledger = w
  have hstart : w.published = [] := hw ▸ rfl
  have hnone : w.unpublishFailed = false := hw ▸ rfl
  cases hplan : applyPlan env config grant w with
  | error e =>
      have hrun : applyShares env config grant w = (.error e, w) := by
        rw [applyShares, hplan]
      rw [hrun]
      refine ⟨(fun _ plan h => nomatch hplan.symm.trans h), fun _ => ?_⟩
      refine ⟨(fun _ h => nomatch h), (fun _ h => nomatch h), (fun _ h => nomatch h),
        (fun _ _ _ => ⟨rfl, rfl⟩), fun _ s _ _ _ name _ hasked => ?_⟩
      rw [hstart] at hasked
      exact absurd hasked List.not_mem_nil
  | ok plan =>
      by_cases hstale : ∀ name ∈ plan.stale, (env.unpublish name).isOk = true
      · have hp := applyPlan_ok hplan
        rw [convergesWhen_iff hplan hstale]
        by_cases hstops : StopsShort env plan
        · rcases applyShares_stopsShort hplan hstale hstops with ⟨e, w', hrun, he, ha⟩
          rw [hrun]
          have hkept := ha.readOnly_iff hp hvalid hstart
          constructor
          · intro h
            refine ⟨fun _ => hkept.mp (h.readOnly ?_), fun hnot => absurd hstops hnot⟩
            exact ha.unpublishFailed.trans hnone
          · intro h
            exact converges_of_failure he fun _ => hkept.mpr (h.1 hstops)
        · rcases applyShares_runsThrough hplan hstale hstops with ⟨w', ha, hfails, hreturns⟩
          by_cases hcame : CameWritable env plan plan.missing
          · -- what came back writable is unpublished, and nothing else was to be read-only
            rcases hfails hcame with ⟨e, w'', hrun, he, hunshared⟩
            rw [hrun]
            refine ⟨fun _ => ⟨(fun h => absurd h hstops), (fun _ => Or.inl hcame)⟩, fun _ => ?_⟩
            refine converges_of_failure he fun hdone => ?_
            exact ha.readOnly_of_unshared hp (isOk_of_not_stopsShort hstops) hvalid hstart
              hunshared hdone
          · rcases hreturns hcame with ⟨served, hrun⟩
            rw [hrun, converges_of_return hvalid hp hstops ha hcame hstart]
            constructor
            · intro h
              exact ⟨(fun h' => absurd h' hstops), (fun _ => Or.inr h)⟩
            · intro h
              exact (h.2 hstops).resolve_left hcame
      · rcases unpublishAll_refused (w := w) hstale with ⟨e, w', hrun, he, hfailed⟩
        have hrun : applyShares env config grant w = (.error e, w') := by
          rw [applyShares, hplan]
          dsimp only
          rw [hrun]
        rw [hrun]
        refine ⟨fun _ plan' h hall => ?_, fun _ => converges_of_failure he fun h => ?_⟩
        · rw [hplan] at h
          cases h
          exact absurd hall hstale
        · rw [hfailed] at h
          exact nomatch h

end Outcome

section Examples

attribute [local instance] Unicode.ascii

/-- A share of Ann's, in her home folder. -/
def shareOfAnn (name : String) (readOnly : Bool) : Share where
  id := some (str name)
  name := some (str name)
  path := some (str "/Users/ann/" ++ str name)
  readOnly := some readOnly
  credentialRef := none
  enabled := none

/-- Documents that nobody is to write to, and music. -/
def docsAndMusic : Config where
  version := 1
  shares := [shareOfAnn "Docs" true, shareOfAnn "Music" false]
  connections := []

/-- Folders that are Ann's, and a helper that unpublishes and publishes. -/
def sharingOfAnn (publish : Str → Str → Bool → PublishOutcome ListedRecord HelperFailure) :
    SharingEnv where
  account := fun _ => none
  inspect := fun path _ => .ok
    { verdict := .ok, resolved := some path, owner := some (str "ann"),
      is_resolved := fun _ => rfl }
  owned := none
  list := fun _ => none
  unpublish := fun _ => .ok
  publish := publish
  unshare := fun _ => .ok

/-- What `sharing` makes of it is what was asked for. -/
def asAsked : SharingEnv := sharingOfAnn fun _ path readOnly => .ok ⟨some path, readOnly⟩

/-- The documents come back writable, and the music is refused. -/
def docsWritable : SharingEnv := sharingOfAnn fun name path _ =>
  if name = str "Docs" then .ok ⟨some path, false⟩
  else
    .refused (.helper ⟨str "the helper refused share.publish", none, some (str "sharing")⟩) none
      false

/-- Nothing is published. -/
def nothingPublished : ServedShares := ServedShares.start (fun _ => none) []

/-- What comes back is what was asked for. -/
theorem left_asAsked {wanted : Wanted} {name : Option Str} {record : ListedRecord}
    (h : (publishOutcome asAsked wanted name).left = some record) :
    record.path = (dictGet wanted name).bind Prod.fst ∧
      record.readOnly = asksReadOnly wanted name := by
  cases name with
  | none => exact absurd h (Option.some_ne_none record).symm
  | some name =>
      rw [publishOutcome] at h
      rw [asksReadOnly]
      cases hget : dictGet wanted (some name) with
      | none =>
          rw [hget] at h
          exact absurd h (Option.some_ne_none record).symm
      | some v =>
          rcases v with ⟨path, readOnly⟩
          rw [hget] at h
          cases path with
          | none => exact absurd h (Option.some_ne_none record).symm
          | some path =>
              cases h
              exact ⟨rfl, rfl⟩

set_option maxRecDepth 10000 in
theorem apply_converges_as_asked :
    Converges asAsked docsAndMusic (some []) nothingPublished
      (applyShares asAsked docsAndMusic (some []) nothingPublished).2
      (applyShares asAsked docsAndMusic (some []) nothingPublished).1 := by
  refine (apply_converges_iff (by decide +kernel) (fun _ => none) []).mpr ?_
  intro plan hplan _
  rcases (applyPlan_ok hplan).wanted with ⟨facts, hfacts, -, hwanted⟩
  cases Except.ok.inj hfacts
  -- A system that does as asked leaves nothing in another way.
  have hwritable : ∀ names, ¬CameWritable asAsked plan names := by
    rintro names ⟨name, -, hasks, record, hleft, hwritable⟩
    rw [← (left_asAsked hleft).2, hwritable] at hasks
    exact nomatch hasks
  refine ⟨fun _ => hwritable _, fun _ => Or.inr ⟨?_, fun s hs _ => ?_⟩⟩
  · rintro ⟨name, -, hasks, record, hleft, hreadOnly⟩
    rw [← (left_asAsked hleft).2, hreadOnly] at hasks
    exact nomatch hasks
  · rw [hwanted]
    rcases List.mem_cons.mp hs with rfl | hs
    · exact ⟨_, rfl, by decide +kernel⟩
    · rcases List.mem_singleton.mp hs with rfl
      exact ⟨_, rfl, by decide +kernel⟩

set_option maxRecDepth 10000 in
/-- Documents that were to be read-only are left writable, and nothing was refused that
    would unpublish them. -/
theorem read_only_left_writable :
    docsAndMusic.Valid ∧
      (applyShares docsWritable docsAndMusic (some []) nothingPublished).2.unpublishFailed = false ∧
        ¬Converges docsWritable docsAndMusic (some []) nothingPublished
          (applyShares docsWritable docsAndMusic (some []) nothingPublished).2
          (applyShares docsWritable docsAndMusic (some []) nothingPublished).1 := by
  have hdone :
      (applyShares docsWritable docsAndMusic (some []) nothingPublished).2.unpublishFailed =
        false := by
    decide +kernel
  refine ⟨by decide +kernel, hdone, fun h => ?_⟩
  have hreadOnly := h.readOnly hdone (shareOfAnn "Docs" true) List.mem_cons_self rfl rfl
    (str "Docs") rfl (by decide +kernel) ⟨some (str "/Users/ann/Docs"), false⟩ (by decide +kernel)
  exact nomatch hreadOnly

end Examples

end Smbpal
