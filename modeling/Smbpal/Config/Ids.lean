import Mathlib.Data.Finset.Card
import Mathlib.Data.Finset.SDiff
import Smbpal.Config.Operations
import Smbpal.Python.Dumps

/-!
# Derived Ids

`make_id`: the id of a record that brings none. It is a slug of the record's name, or the slug
cut and with a number from 2 to 999 behind it, whichever is free first; so there is none exactly
when all of these are taken (`makeId_eq_error_iff`), and what there is fits the schema's rule
(`isId_of_mem_candidates`).

The numbered forms are all different, but the slug itself may be one of them: a slug of 64
characters that ends in `-2` is what cutting and numbering make of it. Records that slug alike
then find 998 ids and not 999 (`deriveIds_ok_iff`, `card_candidates`).

## Main definitions

* `candidates`: The ids a slug can lead to.
* `deriveIds`: Ids for one record after another.
* `room`: How many records can have one slug.

## Theorems

* `isId_of_mem_candidates`: They fit the schema's rule.
* `suffixed_injective`: The numbered ones are different.
* `makeId_eq_error_iff`: When there is no id.
* `deriveIds_ok_iff`: When there are ids for some records that slug alike.
* `makeId_derives`: What `make_id` is good for.
-/

namespace Smbpal

section Slugs

variable [Unicode] {slug name : Str} {taken : List Str} {m n : Nat}

/-- The slug with a number behind it. -/
def numberedForms (slug : Str) : List Str :=
  (List.range' 2 998).map (suffixed slug)

/-- The ids a slug can lead to, in the order they are tried. -/
def candidates (slug : Str) : List Str :=
  slug :: numberedForms slug

/-- Ids for records of these names, one after the other. -/
def deriveIds (taken : List Str) : List Str → Except Exc (List Str)
  | [] => .ok []
  | name :: names => do
      let id ← makeId name taken
      let ids ← deriveIds (id :: taken) names
      pure (id :: ids)

/-- How many records can have one slug. -/
def room (slug : Str) : Nat :=
  if slug ∈ numberedForms slug then 998 else 999

/-! ### The schema's rule -/

/-- A character of a slug. -/
def isSlugPart (c : PyChar) : Bool :=
  isSlugChar c || decide (c = chr '-')

omit [Unicode] in
theorem replaceRuns_slug (inRun : Bool) (s : Str) :
    ∀ c ∈ replaceRuns (fun c => !isSlugChar c) (chr '-') inRun s, isSlugPart c = true := by
  induction s generalizing inRun with
  | nil => exact fun c hc => absurd hc List.not_mem_nil
  | cons d s ih =>
      rw [replaceRuns]
      -- A character that stays ends a run, and any other goes on with it.
      by_cases hd : isSlugChar d = true
      · have hplain : ¬(!isSlugChar d) = true := by
          rw [hd]
          decide
        rw [if_neg hplain, List.forall_mem_cons]
        refine ⟨?_, ih false⟩
        rw [isSlugPart, hd]
        rfl
      · have hrun : (!isSlugChar d) = true := by
          rw [Bool.not_eq_true] at hd
          rw [hd]
          decide
        rw [if_pos hrun]
        cases inRun with
        | true => exact ih true
        | false => exact List.forall_mem_cons.mpr ⟨by decide, ih true⟩

omit [Unicode] in
theorem mem_of_mem_stripWhile {p : PyChar → Bool} {s : Str} {c : PyChar}
    (h : c ∈ stripWhile p s) : c ∈ s := by
  rcases stripWhile_parts p s with ⟨a, b, hs, -⟩
  rw [hs]
  exact List.mem_append_left b (List.mem_append_right a h)

/-- A slug is not empty, starts with a letter or a digit, and has nothing but these and dashes. -/
theorem slugOf_parts (name : Str) : ∃ c s, slugOf name = c :: s ∧ isSlugChar c = true ∧
    (∀ d ∈ s, isSlugPart d = true) ∧ s.length ≤ 63 := by
  unfold slugOf
  generalize hstripped : stripChar '-' (replaceRuns (fun c => !isSlugChar c) (chr '-') false
    (lower name)) = stripped
  cases stripped with
  | nil => exact ⟨chr 's', str "hare", rfl, by decide, by decide, by decide⟩
  | cons c s =>
      have hall : ∀ d ∈ c :: s, isSlugPart d = true := fun d hd =>
        replaceRuns_slug false (lower name) d (mem_of_mem_stripWhile (hstripped ▸ hd))
      rw [List.forall_mem_cons] at hall
      -- The dashes are stripped, so the first character left is none.
      have hhead : decide (c = chr '-') = false := stripWhile_head hstripped
      have hc : isSlugChar c = true := by
        have hpart := hall.1
        rwa [isSlugPart, hhead, Bool.or_false] at hpart
      rw [List.take_succ_cons]
      dsimp only
      rw [if_pos hc]
      refine ⟨c, s.take 63, rfl, hc, fun d hd => hall.2 d (List.mem_of_mem_take hd), ?_⟩
      rw [List.length_take]
      omega

omit [Unicode] in
/-- What has the characters of a slug and is not too long is an id. -/
theorem isId_of_slug {c : PyChar} {s : Str} (hc : isSlugChar c = true)
    (hs : ∀ d ∈ s, isSlugPart d = true) (hlen : s.length ≤ 63) : isId (c :: s) = true := by
  have hall : s.all (fun d => isLowerLetter d || isUpperLetter d || isDigit d || oneOf "_-" d) =
      true := by
    refine List.all_eq_true.mpr fun d hd => ?_
    have hpart := hs d hd
    rw [isSlugPart, isSlugChar, Bool.or_eq_true, Bool.or_eq_true, decide_eq_true_eq] at hpart
    rcases hpart with (hlower | hdigit) | rfl
    · rw [hlower]
      rfl
    · rw [hdigit, Bool.or_true, Bool.true_or]
    · decide
  rw [isSlugChar, Bool.or_eq_true] at hc
  rw [isId, hall, decide_eq_true hlen, Bool.and_true, Bool.and_true]
  rcases hc with hlower | hdigit
  · rw [hlower]
    rfl
  · rw [hdigit, Bool.or_true]

/-! ### The numbered forms -/

omit [Unicode] in
theorem length_digits_le (h : n ≤ 999) : (digits n).length ≤ 3 := by
  rw [digits, List.length_map]
  exact (Nat.length_toDigits_le_iff (by decide) (by decide)).mpr (by omega)

omit [Unicode] in
theorem dash_not_mem_digits (n : Nat) : chr '-' ∉ digits n := fun h =>
  absurd (isDigit_of_mem_digits h) (by decide)

omit [Unicode] in
/-- Behind the last dash there is one text. -/
theorem behind_dash {a b x y : Str} (hx : chr '-' ∉ x) (hy : chr '-' ∉ y)
    (h : a ++ chr '-' :: x = b ++ chr '-' :: y) : x = y := by
  have htake : ∀ {s t : Str}, chr '-' ∉ s →
      ((t ++ chr '-' :: s).reverse.takeWhile fun c => decide (c ≠ chr '-')) = s.reverse := by
    intro s t hs
    have hall : ∀ c ∈ s.reverse, decide (c ≠ chr '-') = true := fun c hc =>
      decide_eq_true fun heq => hs (heq ▸ List.mem_reverse.mp hc)
    rw [List.reverse_append, List.reverse_cons, List.append_assoc,
      List.takeWhile_append_of_pos hall, List.singleton_append,
      List.takeWhile_cons_of_neg (by decide), List.append_nil]
  have hsame := htake (t := a) hx
  rw [h, htake hy] at hsame
  exact (List.reverse_injective hsame).symm

omit [Unicode] in
/-- Two numbers make two ids of a slug. -/
theorem suffixed_injective (h : suffixed slug m = suffixed slug n) : m = n := by
  unfold suffixed at h
  rw [List.append_assoc, List.append_assoc] at h
  exact digits_injective (behind_dash (dash_not_mem_digits m) (dash_not_mem_digits n) h)

omit [Unicode] in
theorem mem_numberedForms {id : Str} :
    id ∈ numberedForms slug ↔ ∃ n, (2 ≤ n ∧ n ≤ 999) ∧ suffixed slug n = id := by
  unfold numberedForms
  rw [List.mem_map]
  refine exists_congr fun n => and_congr_left fun _ => ?_
  rw [List.mem_range'_1]
  omega

omit [Unicode] in
theorem nodup_numberedForms (slug : Str) : (numberedForms slug).Nodup :=
  List.Nodup.map (fun _ _ => suffixed_injective) List.nodup_range'

/-- The ids a slug can lead to fit the schema's rule. -/
theorem isId_of_mem_candidates {id : Str} (h : id ∈ candidates (slugOf name)) : isId id = true := by
  rcases slugOf_parts name with ⟨c, s, hslug, hc, hs, hlen⟩
  rw [hslug] at h
  rcases List.mem_cons.mp h with rfl | hnumbered
  · exact isId_of_slug hc hs hlen
  · rcases mem_numberedForms.mp hnumbered with ⟨n, hn, rfl⟩
    have hdigits := length_digits_le hn.2
    have hcut : 64 - (digits n).length - 1 = (64 - (digits n).length - 2) + 1 := by omega
    unfold suffixed
    rw [hcut, List.take_succ_cons, List.append_assoc, List.cons_append]
    refine isId_of_slug hc ?_ ?_
    · rw [List.forall_mem_append, List.forall_mem_append]
      refine ⟨fun d hd => hs d (List.mem_of_mem_take hd), by decide, fun d hd => ?_⟩
      rw [isSlugPart, isSlugChar, isDigit_of_mem_digits hd, Bool.or_true, Bool.true_or]
    · rw [List.length_append, List.length_append, List.length_take]
      have hdash : (str "-").length = 1 := rfl
      omega

/-! ### What is free -/

/-- The id is one the slug leads to, and free. -/
theorem makeId_mem {id : Str} (h : makeId name taken = .ok id) :
    id ∈ candidates (slugOf name) ∧ id ∉ taken := by
  unfold makeId at h
  dsimp only at h
  split at h
  · rename_i hfree
    rw [← Except.ok.inj h]
    exact ⟨List.mem_cons_self, hfree⟩
  · split at h
    · rename_i n hfind
      rw [← Except.ok.inj h]
      exact ⟨List.mem_cons_of_mem _ (List.mem_map_of_mem (List.mem_of_find?_eq_some hfind)),
        of_decide_eq_true (List.find?_eq_some_iff_append.mp hfind).1⟩
    · cases h

/-- There is no id when all of them are taken, and that is what is said then. -/
theorem makeId_eq_error_iff {e : Exc} : makeId name taken = .error e ↔
    e = .of .alreadyExists (str "cannot derive a free id from " ++ repr name) ∧
      ∀ id ∈ candidates (slugOf name), id ∈ taken := by
  unfold candidates numberedForms
  rw [List.forall_mem_cons, List.forall_mem_map]
  unfold makeId
  dsimp only
  by_cases hslug : slugOf name ∈ taken
  · rw [if_neg (not_not_intro hslug)]
    -- The slug is taken, and the numbered forms are tried in turn.
    rcases hfind : (List.range' 2 998).find? fun suffix =>
      decide (suffixed (slugOf name) suffix ∉ taken) with _ | n
    · have hall : ∀ n ∈ List.range' 2 998, suffixed (slugOf name) n ∈ taken := by
        intro n hn
        by_contra hfree
        exact List.find?_eq_none.mp hfind n hn (decide_eq_true hfree)
      constructor
      · intro h
        exact ⟨(Except.error.inj h).symm, hslug, hall⟩
      · rintro ⟨rfl, -⟩
        rfl
    · constructor
      · intro h
        cases h
      · rintro ⟨-, -, hall⟩
        have hfree : suffixed (slugOf name) n ∉ taken :=
          of_decide_eq_true (List.find?_eq_some_iff_append.mp hfind).1
        exact absurd (hall n (List.mem_of_find?_eq_some hfind)) hfree
  · -- The slug is free.
    rw [if_pos hslug]
    constructor
    · intro h
      cases h
    · rintro ⟨-, hin, -⟩
      exact absurd hin hslug

/-- As many records that slug alike find ids as there are free ones. -/
theorem deriveIds_ok_iff {names : List Str} (halike : ∀ name ∈ names, slugOf name = slug) :
    (∃ ids, deriveIds taken names = .ok ids) ↔
      names.length ≤ ((candidates slug).toFinset \ taken.toFinset).card := by
  induction names generalizing taken with
  | nil => exact iff_of_true ⟨[], rfl⟩ (Nat.zero_le _)
  | cons name names ih =>
      rw [List.forall_mem_cons] at halike
      rw [deriveIds, List.length_cons]
      rcases hid : makeId name taken with e | id
      · -- Nothing is free.
        have hnone := (makeId_eq_error_iff.mp hid).2
        rw [halike.1] at hnone
        have hempty : (candidates slug).toFinset \ taken.toFinset = ∅ := by
          rw [Finset.sdiff_eq_empty_iff_subset]
          intro id hin
          exact List.mem_toFinset.mpr (hnone id (List.mem_toFinset.mp hin))
        rw [hempty, Finset.card_empty]
        refine iff_of_false ?_ (by omega)
        rintro ⟨ids, hids⟩
        cases hids
      · -- The id is free, and then not any more.
        have hfree := makeId_mem hid
        rw [halike.1] at hfree
        have hmem : id ∈ (candidates slug).toFinset \ taken.toFinset := by
          rw [Finset.mem_sdiff, List.mem_toFinset, List.mem_toFinset]
          exact hfree
        have hrest : (candidates slug).toFinset \ (id :: taken).toFinset =
            ((candidates slug).toFinset \ taken.toFinset).erase id := by
          rw [List.toFinset_cons, Finset.sdiff_insert]
        have hcard := Finset.card_erase_add_one hmem
        have hlater := @ih (id :: taken) halike.2
        rw [hrest] at hlater
        rw [← hcard, Nat.add_le_add_iff_right, ← hlater]
        constructor
        · rintro ⟨ids, hids⟩
          rcases except_bind_eq_ok.mp hids with ⟨first, hfirst, hids⟩
          rcases except_bind_eq_ok.mp hids with ⟨rest, hrest, -⟩
          rw [Except.ok.inj hfirst]
          exact ⟨rest, hrest⟩
        · rintro ⟨ids, hids⟩
          refine ⟨id :: ids, ?_⟩
          change (deriveIds (id :: taken) names >>= fun ids => pure (id :: ids)) = .ok (id :: ids)
          rw [hids]
          rfl

omit [Unicode] in
/-- So many ids a slug can lead to. -/
theorem card_candidates (slug : Str) : (candidates slug).toFinset.card = room slug := by
  have hforms : (numberedForms slug).toFinset.card = 998 := by
    rw [List.toFinset_card_of_nodup (nodup_numberedForms slug)]
    unfold numberedForms
    rw [List.length_map, List.length_range']
  unfold candidates room
  rw [List.toFinset_cons]
  by_cases hown : slug ∈ numberedForms slug
  · rw [if_pos hown, Finset.insert_eq_of_mem (List.mem_toFinset.mpr hown), hforms]
  · rw [if_neg hown, Finset.card_insert_of_notMem fun h => hown (List.mem_toFinset.mp h), hforms]

/-- `make_id` derives an id that fits the schema's rule and is free, or raises when the slug and
    all its numbered forms are taken; the numbered forms are different from each other; and where
    none of these is taken, records that slug alike find ids as long as there are no more than 999
    of them, or 998 where the slug is one of its own numbered forms. -/
theorem makeId_derives (name : Str) (taken : List Str) :
    ((∃ id, makeId name taken = .ok id ∧ isId id = true ∧ id ∉ taken) ∨
      makeId name taken =
        .error (.of .alreadyExists (str "cannot derive a free id from " ++ repr name)) ∧
          slugOf name ∈ taken ∧ ∀ n, 2 ≤ n → n ≤ 999 → suffixed (slugOf name) n ∈ taken) ∧
    (∀ m n, suffixed (slugOf name) m = suffixed (slugOf name) n → m = n) ∧
    ∀ names, (∀ other ∈ names, slugOf other = slugOf name) →
      (∀ id ∈ candidates (slugOf name), id ∉ taken) →
        ((∃ ids, deriveIds taken names = .ok ids) ↔ names.length ≤ room (slugOf name)) := by
  refine ⟨?_, fun m n => suffixed_injective, fun names halike hfree => ?_⟩
  · rcases hid : makeId name taken with e | id
    · rcases makeId_eq_error_iff.mp hid with ⟨rfl, hall⟩
      refine Or.inr ⟨rfl, hall _ List.mem_cons_self, fun n hlow hhigh => hall _ ?_⟩
      exact List.mem_cons_of_mem _ (mem_numberedForms.mpr ⟨n, ⟨hlow, hhigh⟩, rfl⟩)
    · rcases makeId_mem hid with ⟨hmem, hfree⟩
      exact Or.inl ⟨id, rfl, isId_of_mem_candidates hmem, hfree⟩
  · -- None of the forms is taken, so all of them are left.
    have hdisjoint : Disjoint (candidates (slugOf name)).toFinset taken.toFinset := by
      rw [Finset.disjoint_left]
      intro id hid hin
      exact hfree id (List.mem_toFinset.mp hid) (List.mem_toFinset.mp hin)
    rw [deriveIds_ok_iff halike, Finset.sdiff_eq_self_of_disjoint hdisjoint, card_candidates]

end Slugs

section Examples

attribute [local instance] Unicode.ascii

/-- A name of 64 characters that ends as a numbered form does. -/
def numberedName : Str :=
  str "the-library-of-photographs-and-films-from-all-our-summer-walks-2"

/-- 999 records of this name do not all find ids. -/
theorem numbered_name_runs_out : ¬∃ ids, deriveIds [] (List.replicate 999 numberedName) =
    .ok ids := by
  have halike : ∀ name ∈ List.replicate 999 numberedName, slugOf name = slugOf numberedName :=
    fun name hname => congrArg slugOf (List.eq_of_mem_replicate hname)
  have hown : slugOf numberedName ∈ numberedForms (slugOf numberedName) :=
    mem_numberedForms.mpr ⟨2, by decide, by decide +kernel⟩
  rw [deriveIds_ok_iff halike, List.length_replicate, List.toFinset_nil, Finset.sdiff_empty,
    card_candidates, room, if_pos hown]
  decide

end Examples

end Smbpal
