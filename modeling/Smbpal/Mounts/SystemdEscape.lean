import Smbpal.Mounts.Units
import Smbpal.Python.Dumps
import Smbpal.Python.Paths

/-!
# What systemd Makes of a Path

`escape_path` is to be what `systemd-escape --path` produces. systemd drops the empty
components of a path and the ones that are `.`, and escapes what is left. `escape_path`
collapses the slashes only, so a path with a `.` among its components gets a name that
systemd does not give it (`dot_escaped`), and differs from the path without it. A path
without a UTF-8 gets no name at all.

## Main definitions

* `systemdEscape`: What `systemd-escape --path` produces.
* `EscapesAlike`: That two paths get systemd's names, and one name if they are one place.

## Theorems

* `collapse_eq`: Collapsing keeps the parts between the slashes.
* `escapePath_eq`: What `escape_path` makes of the parts.
* `escapes_alike_iff`: When the names are systemd's.
-/

namespace Smbpal

section Systemd

/-- A byte of a component. -/
def systemdByte (b : UInt8) : Str :=
  if isAllowedByte b then [chr (Char.ofNat b.toNat)] else hexEscape b

/-- The bytes of a component. -/
def systemdComponent (bytes : List UInt8) : Str :=
  bytes.flatMap systemdByte

/-- The bytes of the first component, where a leading `.` is escaped. -/
def systemdFirst : List UInt8 → Str
  | [] => []
  | b :: bytes => (if b = 46 then hexEscape b else systemdByte b) ++ systemdComponent bytes

/-- The bytes of some components. -/
def encodeAll : List Str → Option (List (List UInt8))
  | [] => some []
  | part :: parts => do
      let bytes ← encode part
      let rest ← encodeAll parts
      pure (bytes :: rest)

/-- The escape of a path's components. -/
def systemdJoin : List Str → Option Str
  | [] => some (str "-")
  | first :: parts => do
      let bytes ← encode first
      let rest ← encodeAll parts
      pure (join (str "-") (systemdFirst bytes :: rest.map systemdComponent))

/-- `systemd-escape --path`. -/
def systemdEscape (path : Str) : Option Str :=
  systemdJoin (components path)

/-- Both paths get systemd's names, and they get one name if they have the same
    components. -/
def EscapesAlike (p q : Str) : Prop :=
  (∃ e, escapePath p = some e ∧ systemdEscape p = some e) ∧
    (∃ e, escapePath q = some e ∧ systemdEscape q = some e) ∧
      (escapePath p = escapePath q ↔ components p = components q)

/-- The path has a UTF-8, and no component of it is `.`. -/
def NoDot (path : Str) : Prop :=
  IsPlain path ∧ str "." ∉ splitChar '/' path

end Systemd

section Collapse

/-- A run of slashes that goes on is dropped. -/
theorem replaceRuns_part {part rest : Str} (hpart : chr '/' ∉ part) (hne : part ≠ [])
    (inRun : Bool) :
    replaceRuns (fun c => decide (c = chr '/')) (chr '/') inRun (part ++ chr '/' :: rest) =
      part ++ chr '/' ::
        replaceRuns (fun c => decide (c = chr '/')) (chr '/') true rest := by
  induction part generalizing inRun with
  | nil => exact absurd rfl hne
  | cons d part ih =>
      rw [List.mem_cons, not_or] at hpart
      have hd : decide (d = chr '/') = false := decide_eq_false (Ne.symm hpart.1)
      rw [List.cons_append, replaceRuns, hd, if_neg Bool.false_ne_true, List.cons_append]
      refine congrArg (d :: ·) ?_
      by_cases hlast : part = []
      · rw [hlast]
        rfl
      · exact ih hpart.2 hlast false

theorem replaceRuns_last {part : Str} (hpart : chr '/' ∉ part) (inRun : Bool) :
    replaceRuns (fun c => decide (c = chr '/')) (chr '/') inRun part = part := by
  induction part generalizing inRun with
  | nil => rfl
  | cons d part ih =>
      rw [List.mem_cons, not_or] at hpart
      have hd : decide (d = chr '/') = false := decide_eq_false (Ne.symm hpart.1)
      rw [replaceRuns, hd, if_neg Bool.false_ne_true, ih hpart.2]

/-- In a run nothing starts with a slash. -/
theorem replaceRuns_dropWhile (s : Str) :
    (replaceRuns (fun c => decide (c = chr '/')) (chr '/') true s).dropWhile
      (fun c => decide (c = chr '/')) =
        replaceRuns (fun c => decide (c = chr '/')) (chr '/') true s := by
  induction s with
  | nil => rfl
  | cons d s ih =>
      rw [replaceRuns]
      by_cases hd : d = chr '/'
      · rw [if_pos (decide_eq_true hd), if_pos rfl]
        exact ih
      · have hnot : ¬decide (d = chr '/') = true := fun h => hd (of_decide_eq_true h)
        rw [if_neg hnot, List.dropWhile_cons, if_neg hnot]

/-- The first run is stripped. -/
theorem replaceRuns_first (s : Str) :
    (replaceRuns (fun c => decide (c = chr '/')) (chr '/') false s).dropWhile
      (fun c => decide (c = chr '/')) =
        replaceRuns (fun c => decide (c = chr '/')) (chr '/') true s := by
  cases s with
  | nil => rfl
  | cons d s =>
      rw [replaceRuns, replaceRuns]
      by_cases hd : d = chr '/'
      · rw [if_pos (decide_eq_true hd), if_pos (decide_eq_true hd), if_pos rfl,
          if_neg Bool.false_ne_true, List.dropWhile_cons, if_pos (decide_eq_true rfl)]
        exact replaceRuns_dropWhile s
      · have hnot : ¬decide (d = chr '/') = true := fun h => hd (of_decide_eq_true h)
        rw [if_neg hnot, if_neg hnot, List.dropWhile_cons, if_neg hnot]

theorem rdropWhile_append (p : PyChar → Bool) (s t : Str) :
    (s ++ t).rdropWhile p =
      if t.rdropWhile p = [] then s.rdropWhile p else s ++ t.rdropWhile p := by
  unfold List.rdropWhile
  rw [List.reverse_append, List.dropWhile_append]
  by_cases h : List.dropWhile p t.reverse = []
  · rw [h]
    rfl
  · have hempty : (List.dropWhile p t.reverse).isEmpty = false := by
      rw [List.isEmpty_eq_false_iff]
      exact h
    rw [hempty, if_neg Bool.false_ne_true, if_neg fun hnil => h (List.reverse_eq_nil_iff.mp hnil),
      List.reverse_append, List.reverse_reverse]

theorem rdropWhile_part {part : Str} (h : chr '/' ∉ part) :
    part.rdropWhile (fun c => decide (c = chr '/')) = part := by
  refine List.rdropWhile_eq_self_iff.mpr fun hne hlast => ?_
  exact h (of_decide_eq_true hlast ▸ List.getLast_mem hne)

/-- Collapsing keeps the parts between the slashes. -/
theorem collapse_eq (path : Str) : collapse path = join (str "/") (pathParts path) := by
  rw [collapse, stripChar, stripWhile, replaceRuns_first, pathParts]
  refine @split_induction '/' (fun path parts =>
    (replaceRuns (fun c => decide (c = chr '/')) (chr '/') true path).rdropWhile
      (fun c => decide (c = chr '/')) =
        join (str "/") (parts.filter fun part => decide (part ≠ []))) ?_ ?_ path
  · intro part hpart
    rw [replaceRuns_last hpart, rdropWhile_part hpart]
    cases part with
    | nil => rfl
    | cons d part => rfl
  · intro part rest parts hpart _ ih
    by_cases hne : part = []
    · rw [hne]
      exact ih
    · rw [replaceRuns_part hpart hne, List.filter_cons, if_pos (decide_eq_true hne),
        List.append_cons, rdropWhile_append, ih]
      by_cases hrest : parts.filter (fun part => decide (part ≠ [])) = []
      · -- what is left is slashes, and they are stripped
        have hlast : decide (chr '/' = chr '/') = true := rfl
        rw [hrest, if_pos (show join (str "/") [] = [] from rfl),
          List.rdropWhile_concat_pos (fun c => decide (c = chr '/')) part (chr '/') hlast,
          rdropWhile_part hpart]
        rfl
      · have hnonempty : join (str "/") (parts.filter fun part => decide (part ≠ [])) ≠ [] :=
          fun hnil => hrest (join_eq_nil (fun part h => of_decide_eq_true (List.mem_filter.mp h).2)
            hnil)
        rw [if_neg hnonempty, join_cons hrest]
        rfl

end Collapse

section Bytes

theorem encodeAll_of_plain {parts : List Str} (h : ∀ part ∈ parts, IsPlain part) :
    ∃ all, encodeAll parts = some all := by
  induction parts with
  | nil => exact ⟨[], rfl⟩
  | cons part parts ih =>
      rw [List.forall_mem_cons] at h
      rcases h.1.encodes with ⟨bytes, hbytes⟩
      rcases ih h.2 with ⟨rest, hrest⟩
      refine ⟨bytes :: rest, ?_⟩
      rw [encodeAll, hbytes, hrest]
      rfl

/-- The bytes of a path are those of its parts, with slashes between them. -/
theorem encode_join {first : Str} {parts : List Str} {bytes : List UInt8}
    {all : List (List UInt8)} (hfirst : encode first = some bytes)
    (hall : encodeAll parts = some all) :
    encode (join (str "/") (first :: parts)) = some (bytes ++ all.flatMap (47 :: ·)) := by
  induction parts generalizing first bytes all with
  | nil =>
      rw [← Option.some.inj hall, List.flatMap_nil, List.append_nil]
      exact hfirst
  | cons part parts ih =>
      rcases Option.bind_eq_some_iff.mp hall with ⟨next, hnext, hall⟩
      rcases Option.bind_eq_some_iff.mp hall with ⟨rest, hrest, hall⟩
      rw [← Option.some.inj hall, join_cons (List.cons_ne_nil part parts), List.append_assoc]
      refine encode_append hfirst ?_
      have hslash : encode (str "/") = some [47] := by decide
      have hrest := encode_append hslash (ih hnext hrest)
      rw [List.flatMap_cons]
      exact hrest

/-- A part without a slash has no byte of one. -/
theorem slash_not_mem {part : Str} {bytes : List UInt8} (h : chr '/' ∉ part)
    (hbytes : encode part = some bytes) : 47 ∉ bytes := fun hmem =>
  h (mem_of_mem_encode hbytes hmem (by decide))

/-- The bytes of a part are escaped as systemd escapes them. -/
theorem escape_component {bytes : List UInt8} (h : 47 ∉ bytes) :
    bytes.flatMap escapeByte = systemdComponent bytes := by
  refine List.flatMap_congr fun b hb => ?_
  have hne : b ≠ 47 := fun heq => h (heq ▸ hb)
  rw [escapeByte, if_neg hne, systemdByte]

theorem escape_rest {parts : List Str} {all : List (List UInt8)}
    (hslash : ∀ part ∈ parts, chr '/' ∉ part) (hall : encodeAll parts = some all) :
    (all.flatMap (47 :: ·)).flatMap escapeByte =
      (all.map systemdComponent).flatMap (chr '-' :: ·) := by
  induction parts generalizing all with
  | nil =>
      rw [← Option.some.inj hall]
      rfl
  | cons part parts ih =>
      rw [List.forall_mem_cons] at hslash
      rcases Option.bind_eq_some_iff.mp hall with ⟨bytes, hbytes, hall⟩
      rcases Option.bind_eq_some_iff.mp hall with ⟨rest, hrest, hall⟩
      rw [← Option.some.inj hall, List.flatMap_cons, List.flatMap_append, ih hslash.2 hrest,
        List.map_cons, List.flatMap_cons, List.flatMap_cons,
        escape_component (slash_not_mem hslash.1 hbytes)]
      rfl

theorem join_eq_flatMap (c : Char) (part : Str) (parts : List Str) :
    join [chr c] (part :: parts) = part ++ parts.flatMap (chr c :: ·) := by
  induction parts generalizing part with
  | nil => exact (List.append_nil part).symm
  | cons next parts ih =>
      rw [join_cons (List.cons_ne_nil next parts), ih, List.flatMap_cons, List.append_assoc]
      rfl

/-- What `escape_path` makes of the bytes. -/
theorem escapePath_of_encode {path : Str} {b : UInt8} {bytes : List UInt8}
    (h : encode (collapse path) = some (b :: bytes)) :
    escapePath path = some (escapeFirstByte b ++ bytes.flatMap escapeByte) := by
  unfold escapePath
  cases hcollapse : collapse path with
  | nil =>
      rw [hcollapse] at h
      exact absurd (Option.some.inj h).symm (List.cons_ne_nil b bytes)
  | cons c s =>
      rw [hcollapse] at h
      dsimp only
      rw [h]

/-- The parts of a path with a UTF-8 have one. -/
theorem isPlain_pathParts {path part : Str} (hplain : IsPlain path) (h : part ∈ pathParts path) :
    IsPlain part := by
  intro c hc
  refine hplain c ?_
  rw [← join_splitChar (c := '/') path]
  exact mem_join (mem_pathParts.mp h).1 hc

/-- What `escape_path` makes of a path is systemd's escape of all its parts. -/
theorem escapePath_eq {path : Str} (hplain : IsPlain path) :
    escapePath path = systemdJoin (pathParts path) := by
  have hslash : ∀ part ∈ pathParts path, chr '/' ∉ part := fun part h =>
    not_mem_of_mem_splitChar (mem_pathParts.mp h).1
  have hparts : ∀ part ∈ pathParts path, IsPlain part := fun part => isPlain_pathParts hplain
  have hempty : ∀ part ∈ pathParts path, part ≠ [] := fun part h => (mem_pathParts.mp h).2
  have hcollapse := collapse_eq path
  cases hp : pathParts path with
  | nil =>
      rw [hp] at hcollapse
      exact escapePath_nil hcollapse
  | cons first parts =>
      rw [hp] at hcollapse hslash hparts hempty
      rw [List.forall_mem_cons] at hslash hparts hempty
      rcases hparts.1.encodes with ⟨bytes, hbytes⟩
      rcases encodeAll_of_plain hparts.2 with ⟨all, hall⟩
      have hencode := encode_join hbytes hall
      have hnot := slash_not_mem hslash.1 hbytes
      rw [← hcollapse] at hencode
      cases bytes with
      | nil =>
          have hnil : encode [] = some [] := rfl
          exact absurd (encode_injective hbytes hnil) hempty.1
      | cons b bytes =>
          have hb : b ≠ 47 := fun h => hnot (h ▸ List.mem_cons_self)
          have hrest : 47 ∉ bytes := fun h => hnot (List.mem_cons_of_mem b h)
          -- the dot in front is escaped by both, and the rest byte for byte
          have hfirst : escapeFirstByte b ++ bytes.flatMap escapeByte =
              systemdFirst (b :: bytes) := by
            rw [escape_component hrest, systemdFirst, escapeFirstByte, escapeByte, if_neg hb,
              systemdByte]
          rw [List.cons_append] at hencode
          rw [escapePath_of_encode hencode, systemdJoin, hbytes, hall, List.flatMap_append,
            ← List.append_assoc, hfirst, escape_rest hslash.2 hall]
          exact congrArg some (join_eq_flatMap '-' _ _).symm

end Bytes

section Alike

/-- A path's escape is systemd's exactly when it names no `.`. -/
theorem escapePath_eq_systemd_iff (path : Str) :
    (∃ e, escapePath path = some e ∧ systemdEscape path = some e) ↔ NoDot path := by
  -- What can be escaped has no half of a pair.
  have hplain_of : ∀ p e, escapePath p = some e → IsPlain p := by
    intro p e he
    refine (unitNames_isSome_iff p).mp ?_
    rw [unitNames, he]
    rfl
  constructor
  · rintro ⟨e, he, hsystemd⟩
    have hplain := hplain_of path e he
    refine ⟨hplain, ?_⟩
    rw [← components_eq_pathParts_iff]
    -- The components are of the path, so they are plain too.
    have hplain' : IsPlain (join (str "/") (components path)) := by
      intro c hc
      rcases mem_of_mem_join hc with hc | ⟨part, hpart, hc⟩
      · exact ⟨'/', List.mem_singleton.mp hc⟩
      · rw [components_eq, List.mem_filter] at hpart
        exact isPlain_pathParts hplain hpart.1 c hc
    have hjoin : escapePath (join (str "/") (components path)) = some e := by
      rw [escapePath_eq hplain', pathParts_components]
      exact hsystemd
    -- Two paths with one name are the same path, dots aside.
    have hcollapse := (escapePath_eq_iff he hjoin).mp rfl
    rw [collapse_eq, collapse_eq, pathParts_components] at hcollapse
    have hparts := congrArg pathParts hcollapse
    rw [pathParts_join_pathParts, pathParts_components] at hparts
    exact hparts.symm
  · rintro ⟨hplain, hdot⟩
    -- Without dots the components are the parts, and the two agree.
    have hsome : (escapePath path).isSome = true := by
      have h := (unitNames_isSome_iff path).mpr hplain
      rw [unitNames, Option.isSome_map] at h
      exact h
    rcases Option.isSome_iff_exists.mp hsome with ⟨e, he⟩
    refine ⟨e, he, ?_⟩
    rw [systemdEscape, components_eq_pathParts_iff.mpr hdot, ← escapePath_eq hplain]
    exact he

/-- The names are systemd's, and tell places apart, exactly when both paths name no `.`. -/
theorem escapes_alike_iff (p q : Str) : EscapesAlike p q ↔ NoDot p ∧ NoDot q := by
  unfold EscapesAlike
  rw [escapePath_eq_systemd_iff, escapePath_eq_systemd_iff]
  refine ⟨fun h => ⟨h.1, h.2.1⟩, fun h => ⟨h.1, h.2, ?_⟩⟩
  rcases (escapePath_eq_systemd_iff p).mpr h.1 with ⟨e, he, -⟩
  rcases (escapePath_eq_systemd_iff q).mpr h.2 with ⟨e', he', -⟩
  rw [he, he', Option.some.injEq, escapePath_eq_iff he he', collapse_eq, collapse_eq,
    components_eq_pathParts_iff.mpr h.1.2, components_eq_pathParts_iff.mpr h.2.2]
  constructor
  · intro heq
    have hparts := congrArg pathParts heq
    rw [pathParts_join_pathParts, pathParts_join_pathParts] at hparts
    exact hparts
  · intro heq
    rw [heq]

/-- An accepted path with a `.` in it: the name is not systemd's, and is another one than that
    of the same place without it. -/
theorem dot_escaped : IsPath (str "/mnt/./a") ∧ IsPath (str "/mnt/a") ∧
    escapePath (str "/mnt/./a") = some (str "mnt-.-a") ∧
    systemdEscape (str "/mnt/./a") = some (str "mnt-a") ∧
    ¬EscapesAlike (str "/mnt/./a") (str "/mnt/a") := by
  have hescape : escapePath (str "/mnt/./a") = some (str "mnt-.-a") := by decide +kernel
  have hsystemd : systemdEscape (str "/mnt/./a") = some (str "mnt-a") := by decide +kernel
  refine ⟨⟨by decide, by decide, by decide, by decide⟩,
    ⟨by decide, by decide, by decide, by decide⟩, hescape, hsystemd, ?_⟩
  rintro ⟨⟨e, he, hsame⟩, -⟩
  rw [hescape] at he
  rw [hsystemd, ← he] at hsame
  exact absurd hsame (by decide)

end Alike

end Smbpal
