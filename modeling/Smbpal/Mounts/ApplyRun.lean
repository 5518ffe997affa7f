import Mathlib.Data.List.Sort
import Smbpal.Lib.Dict
import Smbpal.Mounts.Prescribed
import Smbpal.Python.Files

/-!
# An Apply Where Everything Works

`Mounter.apply` with the document that was there before, run against surroundings in which
everything it asks for works: no command fails, what is stopped is unmounted, and the unit
directory takes and gives what it is asked for. What is left to go wrong is in the strings: a
unit whose text has no UTF-8 cannot be written, and a file that is not UTF-8 cannot be read.

The run is computed loop by loop: the units of the new document are written, the sweep goes over
the names in the directory, and the automounts are armed. The directory keeps the names under
which it was written to, and those that were stopped and removed.

## Main definitions

* `UnitDir`, `WorkingHost`: The unit directory and what was done to it, and the rest.
* `WorkingHost.serve`: What an operation answers and does, when everything works.
* `applied`: What an apply does.
* `CanWrite`, `CanSweep`: When the units can be written, and the other files read.
* `Reaped`: What the sweep takes away.

## Theorems

* `run_prepareUnits`, `run_removeStaleFrom`, `run_armUnits`: What the loops do.
* `run_mounterApply`, `run_mounterApply_error`: What an apply does, and when it raises.
-/

namespace Smbpal

open Lib Program

/-- The files of the unit directory, the names under which units were written, and those that
    were stopped or disabled, and removed. -/
structure UnitDir where
  files : Dict Str (List UInt8)
  rewritten : List Str
  stopped : List Str
  removed : List Str

namespace UnitDir

/-- A directory nothing was done to. -/
def fresh (files : Dict Str (List UInt8)) : UnitDir :=
  { files := files
    rewritten := []
    stopped := []
    removed := [] }

/-- A file is written. -/
def put (dir : UnitDir) (name : Str) (bytes : List UInt8) : UnitDir :=
  { dir with
    files := dir.files.insert name bytes
    rewritten := dir.rewritten ++ [name] }

/-- A unit is stopped, or disabled. -/
def stop (dir : UnitDir) (name : Str) : UnitDir :=
  { dir with stopped := dir.stopped ++ [name] }

/-- A file is removed. -/
def unlink (dir : UnitDir) (name : Str) : UnitDir :=
  { dir with
    files := dir.files.erase name
    removed := dir.removed ++ [name] }

/-- The text of a file that is there and can be read. -/
def textOf (dir : UnitDir) (name : Str) : Option Str :=
  (dir.files.lookup name).bind readText

end UnitDir

/-- What there is besides the unit files. -/
structure WorkingHost where
  accounts : Accounts
  /-- What is mounted at a mountpoint. -/
  occupant : Str → Option MountEntry
  probeState : Str → Str

/-- `read_text` of a file of the directory. -/
def UnitDir.read (dir : UnitDir) (name : Str) : Except Exc Str :=
  match dir.files.lookup name with
  | none => .error (.os (str "No such file or directory"))
  | some bytes =>
      match readText bytes with
      | some text => .ok text
      | none => .error .exception

/-- `atomic.write_text` of a file of the directory. -/
def UnitDir.write (dir : UnitDir) (name text : Str) : Except Exc Unit × UnitDir :=
  match writeText text with
  | some bytes => (.ok (), dir.put name bytes)
  | none => (.error .exception, dir)

/-- What an operation answers and does, when everything works. What is stopped is unmounted. -/
def WorkingHost.serve (env : WorkingHost) :
    (op : DaemonOp) → UnitDir → Except Exc op.Value × UnitDir
  | .writeUnit name text, dir => dir.write name text
  | .unlinkUnit name, dir => (.ok (), dir.unlink name)
  | .iterUnits, dir => (.ok (dir.files.keys.insertionSort fun a b => strLe a b = true), dir)
  | .readUnit name, dir => (dir.read name, dir)
  | .systemctl (.stop name), dir => (.ok (), dir.stop name)
  | .systemctl (.disable name), dir => (.ok (), dir.stop name)
  | .systemctl _, dir => (.ok (), dir)
  | .ensureMountpoint _, dir => (.ok (), dir)
  | .rmdir _, dir => (.ok (), dir)
  | .isMounted _, dir => (.ok (some false), dir)
  | .occupant mountpoint, dir => (.ok (env.occupant mountpoint), dir)
  | .probeState mountpoint, dir => (.ok (env.probeState mountpoint), dir)
  | .credentialsExists ref, dir => (.ok (env.accounts.present ref), dir)
  | .getpwnam name, dir => (.ok (env.accounts.passwd name), dir)
  | _, dir => (.error .exception, dir)

section Run

variable [Unicode]

/-- What an apply does. -/
def applied (env : WorkingHost) (updated previous : Config) (files : Dict Str (List UInt8)) :
    Except Exc (List PlannedConnection) × UnitDir :=
  (mounterApply updated (some previous)).run env.serve (UnitDir.fresh files)

/-! ### The units that are written -/

variable {env : WorkingHost} {dir : UnitDir} {α : Type}

/-- The names of the units of some connections. -/
def unitNamesOf (cs : List Connection) : List Str :=
  cs.flatMap fun c =>
    match namesOf c with
    | .ok names => [names.1, names.2]
    | .error _ => []

omit [Unicode] in
theorem mem_unitNamesOf {cs : List Connection} {name : Str} :
    name ∈ unitNamesOf cs ↔ ¬UnitOfNone cs name := by
  unfold unitNamesOf UnitOfNone UnitOf
  rw [List.mem_flatMap]
  push Not
  refine exists_congr fun c => and_congr_right fun _ => ?_
  cases hnames : namesOf c with
  | ok names =>
      dsimp only
      rw [List.mem_cons, List.mem_singleton]
      constructor
      · exact fun h => ⟨names, rfl, h⟩
      · rintro ⟨other, hother, h⟩
        rwa [← Except.ok.inj hother] at h
  | error e =>
      refine ⟨fun h => absurd h List.not_mem_nil, ?_⟩
      rintro ⟨names, h, -⟩
      cases h

/-- The directory once a connection's units are written. -/
def UnitDir.writeOwn (env : Accounts) (dir : UnitDir) (c : Connection) : UnitDir :=
  match namesOf c with
  | .ok names =>
      (dir.put names.1 ((writeText (mountText env c)).getD [])).put names.2
        ((writeText (automountUnit c)).getD [])
  | .error _ => dir

/-- The units of a connection have names, and their texts can be written. -/
def CanWrite (env : Accounts) (c : Connection) : Prop :=
  ∃ names, namesOf c = .ok names ∧ encode (mountText env c) ≠ none ∧
    encode (automountUnit c) ≠ none

omit [Unicode] in
theorem run_then {β : Type} {p : DaemonM α} {f : α → DaemonM β} {a : α} {dir' : UnitDir}
    (h : p.run env.serve dir = (.ok a, dir')) :
    (p >>= f).run env.serve dir = (f a).run env.serve dir' :=
  run_bind_ok h

omit [Unicode] in
theorem run_call (op : DaemonOp) : (call op).run env.serve dir = env.serve op dir :=
  run_ask _ _

omit [Unicode] in
theorem run_return (a : α) : (pure a : DaemonM α).run env.serve dir = (.ok a, dir) :=
  rfl

omit [Unicode] in
theorem run_catching_ok {p : DaemonM α} {caught : Exc → Bool} {handler : Exc → DaemonM α} {a : α}
    {dir' : UnitDir} (h : p.run env.serve dir = (.ok a, dir')) :
    (catching caught p handler).run env.serve dir = (.ok a, dir') :=
  run_tryCatch_ok h

omit [Unicode] in
theorem run_catching_error {p : DaemonM α} {caught : Exc → Bool} {handler : Exc → DaemonM α}
    {e : Exc} {dir' : UnitDir} (h : p.run env.serve dir = (.error e, dir'))
    (hcaught : caught e = false) :
    (catching caught p handler).run env.serve dir = (.error e, dir') := by
  refine (run_tryCatch_error h).trans ?_
  rw [hcaught]
  rfl

omit [Unicode] in
/-- A unit is written, or its text has no UTF-8. -/
theorem run_writeUnit (name text : Str) :
    (writeUnit name text).run env.serve dir = dir.write name text := by
  have hcall : (call (.writeUnit name text)).run env.serve dir = dir.write name text := run_call _
  unfold writeUnit
  cases hwrite : writeText text with
  | some bytes =>
      have hresult : dir.write name text = (.ok (), dir.put name bytes) := by
        unfold UnitDir.write
        rw [hwrite]
      rw [hresult] at hcall ⊢
      exact run_catching_ok hcall
  | none =>
      have hresult : dir.write name text = (.error .exception, dir) := by
        unfold UnitDir.write
        rw [hwrite]
      rw [hresult] at hcall ⊢
      exact run_catching_error hcall rfl

theorem run_credentialsExist {ref : Str} (h : isId ref = true) :
    (credentialsExist ref).run env.serve dir = (.ok (env.accounts.present ref), dir) := by
  unfold credentialsExist pathFor
  rw [if_pos h]
  exact (run_then (run_fromExcept _)).trans (run_call _)

theorem run_credentialsPath {c : Connection} (hc : c.WellFormed) :
    (credentialsPath c).run env.serve dir = (.ok (credentialsPathIn env.accounts c), dir) := by
  unfold credentialsPath credentialsPathIn
  cases href : truthy c.credentialRef with
  | none => rfl
  | some ref =>
      have hid := truthy_wellFormed hc href
      refine (run_then (run_credentialsExist hid)).trans ?_
      dsimp only
      cases env.accounts.present ref with
      | false => rfl
      | true =>
          unfold pathFor
          rw [if_pos hid]
          rfl

omit [Unicode] in
theorem run_ownerIds (c : Connection) :
    (ownerIds c).run env.serve dir = (.ok (ownerIdsIn env.accounts c), dir) := by
  unfold ownerIds ownerIdsIn
  cases truthy c.owner with
  | none => rfl
  | some owner => exact run_call _

/-- The units of a connection whose mountpoint is free are written, if they can be. -/
theorem run_writeUnits {c : Connection} {names : Str × Str} (hc : c.WellFormed)
    (hnames : namesOf c = .ok names) (hmount : encode (mountText env.accounts c) ≠ none)
    (hautomount : encode (automountUnit c) ≠ none) :
    (writeUnits c names).run env.serve dir = (.ok (), dir.writeOwn env.accounts c) := by
  rcases mountpointOf_of_namesOf hnames with ⟨mountpoint, -, hpoint⟩
  rcases Option.ne_none_iff_exists'.mp hmount with ⟨mount, hmount⟩
  rcases Option.ne_none_iff_exists'.mp hautomount with ⟨automount, hautomount⟩
  have hwrite : ∀ (d : UnitDir) (name text : Str) (bytes : List UInt8), encode text = some bytes →
      (writeUnit name text).run env.serve d = (.ok (), d.put name bytes) := by
    intro d name text bytes hbytes
    have htext : writeText text = some bytes := hbytes
    rw [run_writeUnit, UnitDir.write, htext]
  have hown : dir.writeOwn env.accounts c = (dir.put names.1 mount).put names.2 automount := by
    unfold UnitDir.writeOwn writeText
    rw [hnames, hmount, hautomount]
    rfl
  unfold writeUnits
  rw [hpoint, hown, run_then (run_fromExcept _), run_then (run_call _),
    run_then (run_credentialsPath hc), run_then (run_ownerIds c)]
  exact (run_then (hwrite _ _ _ _ hmount)).trans (hwrite _ _ _ _ hautomount)

/-- If they cannot, it raises. -/
theorem run_writeUnits_error {c : Connection} {names : Str × Str} (hc : c.WellFormed)
    (hnames : namesOf c = .ok names)
    (hnot : encode (mountText env.accounts c) = none ∨ encode (automountUnit c) = none) :
    ∃ e dir', (writeUnits c names).run env.serve dir = (.error e, dir') := by
  rcases mountpointOf_of_namesOf hnames with ⟨mountpoint, -, hpoint⟩
  unfold writeUnits
  rw [hpoint, run_then (run_fromExcept _), run_then (run_call _),
    run_then (run_credentialsPath hc), run_then (run_ownerIds c)]
  cases hmount : encode (mountText env.accounts c) with
  -- The mount unit cannot be written, and the run stops there.
  | none =>
      have htext : writeText (mountText env.accounts c) = none := hmount
      have hresult : dir.write names.1 (mountText env.accounts c) = (.error .exception, dir) := by
        rw [UnitDir.write, htext]
      exact ⟨.exception, dir, run_bind_error ((run_writeUnit _ _).trans hresult)⟩
  | some mount =>
      have htext : writeText (mountText env.accounts c) = some mount := hmount
      -- The mount unit is written, so it is the automount unit that cannot be.
      have hautomount : writeText (automountUnit c) = none := by
        rcases hnot with h | h
        · rw [hmount] at h
          cases h
        · exact h
      have hfirst : (writeUnit names.1 (mountText env.accounts c)).run env.serve dir =
          (.ok (), dir.put names.1 mount) := by
        rw [run_writeUnit, UnitDir.write, htext]
      refine ⟨.exception, dir.put names.1 mount, ?_⟩
      refine (run_then hfirst).trans ?_
      rw [run_writeUnit, UnitDir.write, hautomount]

/-- Nothing else is mounted at a connection's mountpoint. -/
def Free (env : WorkingHost) (c : Connection) : Prop :=
  ∀ mountpoint, c.mountpoint = some mountpoint → foreignMount (env.occupant mountpoint) c = none

theorem run_foreignOccupant {c : Connection} {names : Str × Str} (hnames : namesOf c = .ok names)
    (hfree : Free env c) : (foreignOccupant c).run env.serve dir = (.ok none, dir) := by
  rcases mountpointOf_of_namesOf hnames with ⟨mountpoint, hsome, hpoint⟩
  unfold foreignOccupant
  rw [hpoint, run_then (run_fromExcept _), run_then (run_call _), run_return,
    hfree mountpoint hsome]

/-- The first loop writes all units. -/
theorem run_prepareUnits {cs : List Connection} (hwf : ∀ c ∈ cs, c.WellFormed)
    (hfree : ∀ c ∈ cs, Free env c) (hcan : ∀ c ∈ cs, CanWrite env.accounts c) :
    (prepareUnits cs).run env.serve dir =
      (.ok (unitNamesOf cs, []), cs.foldl (UnitDir.writeOwn env.accounts) dir) := by
  induction cs generalizing dir with
  | nil => rfl
  | cons c cs ih =>
      rw [List.forall_mem_cons] at hwf hfree hcan
      rcases hcan.1 with ⟨names, hnames, hmount, hautomount⟩
      unfold prepareUnits
      rw [hnames, run_then (run_fromExcept _), run_then (run_foreignOccupant hnames hfree.1)]
      dsimp only
      rw [run_then (run_writeUnits hwf.1 hnames hmount hautomount),
        run_then (ih hwf.2 hfree.2 hcan.2), run_return]
      unfold unitNamesOf
      rw [List.flatMap_cons, hnames]
      rfl

/-- Or it raises. -/
theorem run_prepareUnits_error {cs : List Connection} (hwf : ∀ c ∈ cs, c.WellFormed)
    (hfree : ∀ c ∈ cs, Free env c) (hnot : ¬∀ c ∈ cs, CanWrite env.accounts c) :
    ∃ e dir', (prepareUnits cs).run env.serve dir = (.error e, dir') := by
  induction cs generalizing dir with
  | nil => exact absurd (fun c hc => absurd hc List.not_mem_nil) hnot
  | cons c cs ih =>
      rw [List.forall_mem_cons] at hwf hfree hnot
      unfold prepareUnits
      cases hnames : namesOf c with
      | error e => exact ⟨e, dir, run_bind_error (run_fromExcept _)⟩
      | ok names =>
          rw [run_then (run_fromExcept _), run_then (run_foreignOccupant hnames hfree.1)]
          dsimp only
          -- This connection can be written, so it fails behind it.
          by_cases hcan : CanWrite env.accounts c
          · rcases hcan with ⟨names', hnames', hmount, hautomount⟩
            rw [run_then (run_writeUnits hwf.1 hnames hmount hautomount)]
            have hrest := @ih (dir.writeOwn env.accounts c) hwf.2 hfree.2 fun hrest =>
              hnot ⟨⟨names', hnames', hmount, hautomount⟩, hrest⟩
            rcases hrest with ⟨e, dir', h⟩
            exact ⟨e, dir', run_bind_error h⟩
          · have hone : encode (mountText env.accounts c) = none ∨
                encode (automountUnit c) = none := by
              by_contra hboth
              rw [not_or] at hboth
              exact hcan ⟨names, hnames, hboth.1, hboth.2⟩
            rcases run_writeUnits_error hwf.1 hnames hone with ⟨e, dir', h⟩
            exact ⟨e, dir', run_bind_error h⟩

omit [Unicode] in
/-- Writing a connection's units leaves the other files, and what else was done. -/
theorem writeOwn_spec (env : WorkingHost) (dir : UnitDir) (c : Connection) :
    (∀ name, ¬UnitOf c name →
      (dir.writeOwn env.accounts c).files.lookup name = dir.files.lookup name) ∧
    (dir.writeOwn env.accounts c).rewritten = dir.rewritten ++ unitNamesOf [c] ∧
    (dir.writeOwn env.accounts c).stopped = dir.stopped ∧
    (dir.writeOwn env.accounts c).removed = dir.removed := by
  unfold UnitDir.writeOwn unitNamesOf
  rw [List.flatMap_singleton]
  cases hnames : namesOf c with
  | error e => exact ⟨fun name _ => rfl, (List.append_nil _).symm, rfl, rfl⟩
  | ok names =>
      refine ⟨fun name hname => ?_, List.append_assoc _ _ _, rfl, rfl⟩
      have h2 : name ≠ names.2 := fun h => hname ⟨names, hnames, Or.inr h⟩
      have h1 : name ≠ names.1 := fun h => hname ⟨names, hnames, Or.inl h⟩
      exact (AList.lookup_insert_ne h2).trans (AList.lookup_insert_ne h1)

omit [Unicode] in
/-- So does writing all units. -/
theorem writeOwn_foldl (env : WorkingHost) (dir : UnitDir) (cs : List Connection) :
    (∀ name, UnitOfNone cs name →
      (cs.foldl (UnitDir.writeOwn env.accounts) dir).files.lookup name = dir.files.lookup name) ∧
    (cs.foldl (UnitDir.writeOwn env.accounts) dir).rewritten = dir.rewritten ++ unitNamesOf cs ∧
    (cs.foldl (UnitDir.writeOwn env.accounts) dir).stopped = dir.stopped ∧
    (cs.foldl (UnitDir.writeOwn env.accounts) dir).removed = dir.removed := by
  induction cs generalizing dir with
  | nil => exact ⟨fun name _ => rfl, (List.append_nil _).symm, rfl, rfl⟩
  | cons c cs ih =>
      have hone := writeOwn_spec env dir c
      have hrest := ih (dir.writeOwn env.accounts c)
      refine ⟨fun name hname => ?_, ?_, hrest.2.2.1.trans hone.2.2.1,
        hrest.2.2.2.trans hone.2.2.2⟩
      · exact (hrest.1 name fun d hd => hname d (List.mem_cons_of_mem c hd)).trans
          (hone.1 name (hname c List.mem_cons_self))
      · rw [List.foldl_cons, hrest.2.1, hone.2.1, List.append_assoc]
        unfold unitNamesOf
        rw [List.flatMap_singleton, List.flatMap_cons]

/-! ### The units that are removed -/

/-- The directory once a unit is stopped and its file removed. -/
def UnitDir.reap (dir : UnitDir) (name : Str) : UnitDir :=
  (dir.stop name).unlink name

omit [Unicode] in
theorem textOf_reap {name other : Str} (h : other ≠ name) :
    (dir.reap name).textOf other = dir.textOf other :=
  congrArg (fun file => Option.bind file readText) (AList.lookup_erase_ne h)

omit [Unicode] in
/-- A file that can be read is read. -/
theorem run_readUnit {name text : Str} (h : dir.textOf name = some text) :
    (readUnit name).run env.serve dir = (.ok (some text), dir) := by
  rcases Option.bind_eq_some_iff.mp h with ⟨bytes, hfile, htext⟩
  have hread : dir.read name = .ok text := by
    rw [UnitDir.read, hfile]
    dsimp only
    rw [htext]
  have hcall : (call (.readUnit name)).run env.serve dir = (dir.read name, dir) := run_call _
  rw [hread] at hcall
  exact run_catching_ok (run_then hcall)

omit [Unicode] in
/-- One that is not UTF-8 raises, and nobody catches it. -/
theorem run_readUnit_error {name : Str} {bytes : List UInt8}
    (hfile : dir.files.lookup name = some bytes)
    (hbytes : readText bytes = none) :
    (readUnit name).run env.serve dir = (.error .exception, dir) := by
  have hread : dir.read name = .error .exception := by
    rw [UnitDir.read, hfile]
    dsimp only
    rw [hbytes]
  have hcall : (call (.readUnit name)).run env.serve dir = (dir.read name, dir) := run_call _
  rw [hread] at hcall
  exact run_catching_error (run_bind_error hcall) rfl

omit [Unicode] in
/-- A unit is stopped, and then nothing is mounted there. -/
theorem run_standDown (name : Str) (place : Option Str) :
    (standDown name place).run env.serve dir = (.ok false, dir.stop name) := by
  unfold standDown
  by_cases hauto : hasSuffix name ".automount" = true
  · rw [if_pos hauto]
    exact (run_then (run_call _)).trans (run_return _)
  · rw [if_neg hauto]
    refine (run_then (run_call _)).trans ?_
    cases truthy place with
    | none => exact run_return _
    | some mountpoint => exact (run_then (run_call _)).trans (run_return _)

omit [Unicode] in
theorem run_unlinkUnit (name : Str) (place : Option Str) :
    (unlinkUnit name place).run env.serve dir = (.ok true, dir.unlink name) := by
  have hcall : (call (.unlinkUnit name)).run env.serve dir = (.ok (), dir.unlink name) :=
    run_call _
  unfold unlinkUnit
  refine (run_then (run_catching_ok ((run_then hcall).trans (run_return true)))).trans ?_
  rw [if_pos rfl]
  cases truthy place with
  | none => exact run_return _
  | some mountpoint =>
      dsimp only
      by_cases hroot : inManagedRoot mountpoint = true
      · rw [if_pos hroot]
        exact (run_then (run_catching_ok (run_call _))).trans (run_return _)
      · rw [if_neg hroot]
        exact run_return _

omit [Unicode] in
/-- A file goes when the marker is in it and the mountpoint it names is one of those kept. -/
theorem run_removeIfStale {keep : Option (List Str)} {name text : Str}
    (h : dir.textOf name = some text) :
    (removeIfStale keep name).run env.serve dir =
      if contains marker text = true ∧ mayRemove keep (whereOf text) = true then
        (.ok true, dir.reap name)
      else (.ok false, dir) := by
  unfold removeIfStale
  rw [run_then (run_readUnit h), Option.getD_some]
  by_cases hmarker : contains marker text = true
  · rw [if_pos hmarker, run_then (run_readUnit h), Option.bind_some]
    by_cases hkeep : mayRemove keep (whereOf text) = true
    · rw [if_pos hkeep, if_pos ⟨hmarker, hkeep⟩, run_then (run_standDown _ _)]
      exact run_unlinkUnit _ _
    · rw [if_neg hkeep, if_neg fun hboth => hkeep hboth.2]
      exact run_return _
  · rw [if_neg hmarker, if_neg fun hboth => hmarker hboth.1]
    exact run_return _

/-- Which of some files the sweep takes away. -/
def staleAmong (dir : UnitDir) (wanted : List Str) (keep : Option (List Str)) (names : List Str) :
    List Str :=
  names.filter fun name => stale wanted keep name (dir.textOf name)

omit [Unicode] in
theorem staleAmong_reap {wanted : List Str} {keep : Option (List Str)} {name : Str}
    {names : List Str} (h : name ∉ names) :
    staleAmong (dir.reap name) wanted keep names = staleAmong dir wanted keep names := by
  unfold staleAmong
  refine List.filter_congr fun other hother => ?_
  rw [textOf_reap (ne_of_mem_of_not_mem hother h)]

omit [Unicode] in
/-- The loop removes the files that are stale, one by one, when it can read those it looks at. -/
theorem run_removeStaleFrom {wanted : List Str} {keep : Option (List Str)} {names : List Str}
    (hnodup : names.Nodup)
    (hread : ∀ name ∈ names, isUnitFile name = true → name ∉ wanted → dir.textOf name ≠ none) :
    (removeStaleFrom wanted keep names).run env.serve dir =
      (.ok (staleAmong dir wanted keep names),
        (staleAmong dir wanted keep names).foldl UnitDir.reap dir) := by
  induction names generalizing dir with
  | nil => exact run_return _
  | cons name names ih =>
      rw [List.nodup_cons] at hnodup
      rw [List.forall_mem_cons] at hread
      unfold removeStaleFrom staleAmong
      rw [List.filter_cons]
      by_cases hlook : isUnitFile name = true ∧ name ∉ wanted
      · rcases Option.ne_none_iff_exists'.mp (hread.1 hlook.1 hlook.2) with ⟨text, htext⟩
        rw [if_pos hlook, htext]
        by_cases hstale : stale wanted keep name (some text) = true
        · -- It is stale, and goes; the rest is swept behind it.
          have hgoes : contains marker text = true ∧ mayRemove keep (whereOf text) = true :=
            ⟨(stale_some.mp hstale).1.2, (stale_some.mp hstale).2.2⟩
          have hfirst : (removeIfStale keep name).run env.serve dir = (.ok true, dir.reap name) :=
            (run_removeIfStale htext).trans (if_pos hgoes)
          have hrest := @ih (dir.reap name) hnodup.2 fun other hother hunit hwanted => by
            rw [textOf_reap (ne_of_mem_of_not_mem hother hnodup.1)]
            exact hread.2 other hother hunit hwanted
          rw [staleAmong_reap hnodup.1] at hrest
          rw [if_pos hstale, run_then hfirst, run_then hrest]
          rfl
        · -- It is not ours, or belongs to a connection that is kept.
          have hstays : ¬(contains marker text = true ∧ mayRemove keep (whereOf text) = true) :=
            fun hboth => hstale (stale_some.mpr ⟨⟨hlook.1, hboth.1⟩, hlook.2, hboth.2⟩)
          have hfirst : (removeIfStale keep name).run env.serve dir = (.ok false, dir) :=
            (run_removeIfStale htext).trans (if_neg hstays)
          rw [if_neg hstale, run_then hfirst, run_then (ih hnodup.2 hread.2)]
          rfl
      · -- A wanted name, or one that is no unit's, is not even read.
        have hstays : stale wanted keep name (dir.textOf name) ≠ true := by
          cases dir.textOf name with
          | none => exact Bool.false_ne_true
          | some text => exact fun h => hlook ⟨(stale_some.mp h).1.1, (stale_some.mp h).2.1⟩
        rw [if_neg hlook, if_neg hstays]
        exact ih hnodup.2 hread.2

omit [Unicode] in
/-- It raises when one of them is not UTF-8. -/
theorem run_removeStaleFrom_error {wanted : List Str} {keep : Option (List Str)} {names : List Str}
    (hnodup : names.Nodup) (hthere : ∀ name ∈ names, dir.files.lookup name ≠ none)
    (hnot : ¬∀ name ∈ names, isUnitFile name = true → name ∉ wanted → dir.textOf name ≠ none) :
    ∃ e dir', (removeStaleFrom wanted keep names).run env.serve dir = (.error e, dir') := by
  induction names generalizing dir with
  | nil => exact absurd (fun name hname => absurd hname List.not_mem_nil) hnot
  | cons name names ih =>
      rw [List.nodup_cons] at hnodup
      rw [List.forall_mem_cons] at hthere hnot
      unfold removeStaleFrom
      by_cases hlook : isUnitFile name = true ∧ name ∉ wanted
      · rw [if_pos hlook]
        rcases Option.ne_none_iff_exists'.mp hthere.1 with ⟨bytes, hfile⟩
        cases htext : readText bytes with
        | none => exact ⟨.exception, dir, run_bind_error (run_bind_error
            (run_readUnit_error hfile htext))⟩
        | some text =>
            have hname : dir.textOf name = some text := by
              rw [UnitDir.textOf, hfile]
              exact htext
            have hrest : ¬∀ other ∈ names, isUnitFile other = true → other ∉ wanted →
                dir.textOf other ≠ none := fun h =>
              hnot ⟨fun _ _ => hname ▸ Option.some_ne_none text, h⟩
            -- Whether this file goes or stays, the one that cannot be read is still ahead.
            have hgo : ∃ gone dir', (removeIfStale keep name).run env.serve dir = (.ok gone, dir') ∧
                (dir' = dir.reap name ∨ dir' = dir) := by
              by_cases hboth : contains marker text = true ∧ mayRemove keep (whereOf text) = true
              · exact ⟨true, _, (run_removeIfStale hname).trans (if_pos hboth), Or.inl rfl⟩
              · exact ⟨false, _, (run_removeIfStale hname).trans (if_neg hboth), Or.inr rfl⟩
            rcases hgo with ⟨gone, dir', hfirst, hdir⟩
            have hsame : ∀ other ∈ names, dir'.files.lookup other = dir.files.lookup other := by
              intro other hother
              rcases hdir with rfl | rfl
              · exact AList.lookup_erase_ne (ne_of_mem_of_not_mem hother hnodup.1)
              · rfl
            have hlast := @ih dir' hnodup.2 (fun other hother => (hsame other hother).symm ▸
              hthere.2 other hother) fun h => hrest fun other hother hunit hwanted => by
                have htextOf : dir'.textOf other = dir.textOf other :=
                  congrArg (fun file => Option.bind file readText) (hsame other hother)
                exact htextOf ▸ h other hother hunit hwanted
            rcases hlast with ⟨e, dir'', hraise⟩
            exact ⟨e, dir'', (run_then hfirst).trans (run_bind_error hraise)⟩
      · rw [if_neg hlook]
        exact ih hnodup.2 hthere.2 fun h => hnot ⟨fun hunit hwanted =>
          absurd ⟨hunit, hwanted⟩ hlook, h⟩

omit [Unicode] in
/-- What the sweep leaves in the logs. -/
theorem reap_foldl (gone : List Str) (dir : UnitDir) :
    (gone.foldl UnitDir.reap dir).rewritten = dir.rewritten ∧
      (gone.foldl UnitDir.reap dir).stopped = dir.stopped ++ gone ∧
      (gone.foldl UnitDir.reap dir).removed = dir.removed ++ gone := by
  induction gone generalizing dir with
  | nil => exact ⟨rfl, (List.append_nil _).symm, (List.append_nil _).symm⟩
  | cons name gone ih =>
      rcases ih (dir.reap name) with ⟨hrewritten, hstopped, hremoved⟩
      refine ⟨hrewritten, hstopped.trans ?_, hremoved.trans ?_⟩
      · exact List.append_assoc dir.stopped [name] gone
      · exact List.append_assoc dir.removed [name] gone

/-! ### The whole apply -/

omit [Unicode] in
/-- The second loop disables wanted units at most. -/
theorem run_armUnits {cs : List Connection} (hnames : ∀ c ∈ cs, ∃ names, namesOf c = .ok names) :
    ∃ disabled, (armUnits [] cs).run env.serve dir =
      (.ok (), { dir with stopped := dir.stopped ++ disabled }) ∧
        ∀ name ∈ disabled, name ∈ unitNamesOf cs := by
  induction cs generalizing dir with
  | nil =>
      refine ⟨[], ?_, fun name h => absurd h List.not_mem_nil⟩
      rw [List.append_nil]
      rfl
  | cons c cs ih =>
      rw [List.forall_mem_cons] at hnames
      rcases hnames.1 with ⟨names, hown⟩
      have hcons : unitNamesOf (c :: cs) = names.1 :: names.2 :: unitNamesOf cs := by
        unfold unitNamesOf
        rw [List.flatMap_cons, hown]
        rfl
      unfold armUnits
      rw [if_neg List.not_mem_nil, hown, run_then (run_fromExcept _), hcons]
      -- Only a connection that is never connected by itself is disabled.
      by_cases hnever : c.autoConnect = some (str "never")
      · rcases @ih (dir.stop names.2) hnames.2 with ⟨disabled, hrun, hdisabled⟩
        refine ⟨names.2 :: disabled, ?_, fun name h => ?_⟩
        · rw [if_pos hnever]
          refine (run_then (run_call _)).trans (hrun.trans ?_)
          unfold UnitDir.stop
          rw [List.append_assoc]
          rfl
        · rcases List.mem_cons.mp h with rfl | h
          · exact List.mem_cons_of_mem _ List.mem_cons_self
          · exact List.mem_cons_of_mem _ (List.mem_cons_of_mem _ (hdisabled name h))
      · rcases @ih dir hnames.2 with ⟨disabled, hrun, hdisabled⟩
        refine ⟨disabled, ?_, fun name h =>
          List.mem_cons_of_mem _ (List.mem_cons_of_mem _ (hdisabled name h))⟩
        rw [if_neg hnever]
        exact (run_then (run_call _)).trans ((run_then (run_call _)).trans hrun)

theorem run_planOne {c : Connection} {names : Str × Str} (hc : c.WellFormed)
    (hnames : namesOf c = .ok names) :
    ∃ planned, (planOne c).run env.serve dir = (.ok planned, dir) := by
  rcases mountpointOf_of_namesOf hnames with ⟨mountpoint, -, hpoint⟩
  have hpresent : ∃ present, (hasCredentials c).run env.serve dir = (.ok present, dir) := by
    unfold hasCredentials
    cases href : truthy c.credentialRef with
    | none => exact ⟨false, run_return _⟩
    | some ref => exact ⟨_, run_credentialsExist (truthy_wellFormed hc href)⟩
  have hoccupant : ∃ intruder, (foreignOccupant c).run env.serve dir = (.ok intruder, dir) := by
    unfold foreignOccupant
    rw [hpoint, run_then (run_fromExcept _), run_then (run_call _)]
    exact ⟨_, run_return _⟩
  rcases hpresent with ⟨present, hpresent⟩
  rcases hoccupant with ⟨intruder, hoccupant⟩
  unfold planOne
  rw [hnames, run_then (run_fromExcept _), run_then hpresent, hpoint, run_then (run_fromExcept _),
    run_then (run_call _), run_then hoccupant]
  exact ⟨_, run_return _⟩

theorem run_plan {cs : List Connection} (hwf : ∀ c ∈ cs, c.WellFormed)
    (hnames : ∀ c ∈ cs, ∃ names, namesOf c = .ok names) :
    ∃ planned, (plan cs).run env.serve dir = (.ok planned, dir) := by
  induction cs with
  | nil => exact ⟨[], run_return _⟩
  | cons c cs ih =>
      rw [List.forall_mem_cons] at hwf hnames
      rcases hnames.1 with ⟨names, hown⟩
      have hone : ∃ planned, (planOne c).run env.serve dir = (.ok planned, dir) :=
        run_planOne hwf.1 hown
      rcases hone with ⟨planned, hone⟩
      rcases ih hwf.2 hnames.2 with ⟨rest, hrest⟩
      unfold plan
      rw [run_then hone, run_then hrest]
      exact ⟨_, run_return _⟩

/-- What the sweep takes away: SMBPal's files that are units of no connection of the new document
    and name a mountpoint of one of the two. -/
def Reaped (updated previous : Config) (files : Dict Str (List UInt8)) (name : Str) : Prop :=
  ∃ bytes text, files.lookup name = some bytes ∧ readText bytes = some text ∧ IsOurs name text ∧
    UnitOfNone updated.connections name ∧ Belongs previous updated text

variable {updated previous : Config} {files : Dict Str (List UInt8)}

/-- The directory after the first loop. -/
def prepared (env : WorkingHost) (updated : Config) (files : Dict Str (List UInt8)) : UnitDir :=
  updated.connections.foldl (UnitDir.writeOwn env.accounts) (UnitDir.fresh files)

/-- The names the sweep goes through. -/
def listing (dir : UnitDir) : List Str :=
  dir.files.keys.insertionSort fun a b => strLe a b = true

omit [Unicode] in
theorem mem_listing {name : Str} : name ∈ listing dir ↔ dir.files.lookup name ≠ none := by
  unfold listing
  rw [List.mem_insertionSort, ← AList.mem_keys, ← AList.lookup_isSome,
    Option.isSome_iff_ne_none]

omit [Unicode] in
theorem nodup_listing (dir : UnitDir) : (listing dir).Nodup :=
  (List.perm_insertionSort _ _).nodup_iff.mpr dir.files.keys_nodup

omit [Unicode] in
/-- The files that are nobody's are there as before. -/
theorem lookup_prepared {name : Str} (h : UnitOfNone updated.connections name) :
    (prepared env updated files).files.lookup name = files.lookup name :=
  (writeOwn_foldl env (UnitDir.fresh files) updated.connections).1 name h

omit [Unicode] in
theorem textOf_prepared {name : Str} {bytes : List UInt8} (h : UnitOfNone updated.connections name)
    (hfile : files.lookup name = some bytes) :
    (prepared env updated files).textOf name = readText bytes := by
  unfold UnitDir.textOf
  rw [lookup_prepared h, hfile]
  rfl

omit [Unicode] in
/-- Only writing was done. -/
theorem prepared_logs :
    (prepared env updated files).rewritten = unitNamesOf updated.connections ∧
      (prepared env updated files).stopped = [] ∧ (prepared env updated files).removed = [] :=
  (writeOwn_foldl env (UnitDir.fresh files) updated.connections).2

/-- The files the sweep removes. -/
def sweptAway (env : WorkingHost) (updated previous : Config) (files : Dict Str (List UInt8)) :
    List Str :=
  staleAmong (prepared env updated files) (unitNamesOf updated.connections)
    (untouched updated (some previous)) (listing (prepared env updated files))

omit [Unicode] in
theorem mem_sweptAway {name : Str} :
    name ∈ sweptAway env updated previous files ↔ Reaped updated previous files name := by
  unfold sweptAway staleAmong
  rw [List.mem_filter, mem_listing]
  constructor
  · rintro ⟨-, hstale⟩
    cases htext : (prepared env updated files).textOf name with
    | none =>
        rw [htext] at hstale
        exact absurd hstale Bool.false_ne_true
    | some text =>
        rw [htext] at hstale
        rcases stale_some.mp hstale with ⟨hours, hwanted, hbelongs⟩
        -- A wanted name is a unit's, so this one is nobody's.
        have hnone : UnitOfNone updated.connections name := by
          by_contra hunit
          exact hwanted (mem_unitNamesOf.mpr hunit)
        rcases Option.bind_eq_some_iff.mp htext with ⟨bytes, hfile, hbytes⟩
        exact ⟨bytes, text, (lookup_prepared hnone).symm.trans hfile, hbytes, hours,
          hnone, hbelongs⟩
  · rintro ⟨bytes, text, hfile, hbytes, hours, hnone, hbelongs⟩
    have hthere : (prepared env updated files).files.lookup name = some bytes :=
      (lookup_prepared hnone).trans hfile
    have htext : (prepared env updated files).textOf name = some text :=
      (textOf_prepared hnone hfile).trans hbytes
    rw [hthere, htext]
    exact ⟨Option.some_ne_none bytes,
      stale_some.mpr ⟨hours, fun h => mem_unitNamesOf.mp h hnone, hbelongs⟩⟩

/-- The files the sweep has to read can be read. -/
def CanSweep (updated : Config) (files : Dict Str (List UInt8)) : Prop :=
  ∀ name bytes, files.lookup name = some bytes → isUnitFile name = true →
    UnitOfNone updated.connections name → readText bytes ≠ none

omit [Unicode] in
/-- It can read what it looks at when it can read what is nobody's. -/
theorem canSweep_iff :
    CanSweep updated files ↔
      ∀ name ∈ listing (prepared env updated files), isUnitFile name = true →
        name ∉ unitNamesOf updated.connections →
          (prepared env updated files).textOf name ≠ none := by
  constructor
  · intro h name hname hunit hwanted
    have hnone : UnitOfNone updated.connections name := by
      by_contra hsome
      exact hwanted (mem_unitNamesOf.mpr hsome)
    rcases Option.ne_none_iff_exists'.mp (mem_listing.mp hname) with ⟨bytes, hthere⟩
    -- No write touches a unit of none of the connections.
    have hfile := (lookup_prepared hnone).symm.trans hthere
    rw [textOf_prepared hnone hfile]
    exact h name bytes hfile hunit hnone
  · intro h name bytes hfile hunit hnone
    have hthere : (prepared env updated files).files.lookup name = some bytes :=
      (lookup_prepared hnone).trans hfile
    have hname : name ∈ listing (prepared env updated files) := by
      rw [mem_listing, hthere]
      exact Option.some_ne_none bytes
    have htext : (prepared env updated files).textOf name = readText bytes :=
      textOf_prepared hnone hfile
    rw [← htext]
    exact h name hname hunit fun hwanted => mem_unitNamesOf.mp hwanted hnone

omit [Unicode] in
theorem run_removeStaleUnits (h : CanSweep updated files) :
    (removeStaleUnits (unitNamesOf updated.connections) (untouched updated (some previous))).run
        env.serve (prepared env updated files) =
      (.ok (sweptAway env updated previous files),
        (sweptAway env updated previous files).foldl UnitDir.reap (prepared env updated files)) :=
  (run_then (run_call _)).trans (run_removeStaleFrom (nodup_listing _) (canSweep_iff.mp h))

omit [Unicode] in
theorem run_removeStaleUnits_error (h : ¬CanSweep updated files) :
    ∃ e dir', (removeStaleUnits (unitNamesOf updated.connections)
      (untouched updated (some previous))).run env.serve (prepared env updated files) =
        (.error e, dir') := by
  have hraise : ∃ e dir', (removeStaleFrom (unitNamesOf updated.connections)
      (untouched updated (some previous)) (listing (prepared env updated files))).run env.serve
        (prepared env updated files) = (.error e, dir') :=
    run_removeStaleFrom_error (nodup_listing _)
    (fun name hname => mem_listing.mp hname) fun hread =>
      h (canSweep_iff.mpr hread)
  rcases hraise with ⟨e, dir', hraise⟩
  exact ⟨e, dir', (run_then (run_call _)).trans hraise⟩

/-- What an apply does when the units can be written and the others be read. -/
theorem run_mounterApply (hwf : ∀ c ∈ updated.connections, c.WellFormed)
    (hfree : ∀ c ∈ updated.connections, Free env c)
    (hcan : ∀ c ∈ updated.connections, CanWrite env.accounts c) (hsweep : CanSweep updated files) :
    (∃ planned, (applied env updated previous files).1 = .ok planned) ∧
    (applied env updated previous files).2.rewritten = unitNamesOf updated.connections ∧
    (∀ name, name ∈ (applied env updated previous files).2.removed ↔
      Reaped updated previous files name) ∧
    ∀ name ∈ (applied env updated previous files).2.stopped,
      Reaped updated previous files name ∨ ¬UnitOfNone updated.connections name := by
  have hnames : ∀ c ∈ updated.connections, ∃ names, namesOf c = .ok names := fun c hc =>
    (hcan c hc).imp fun names h => h.1
  let dir := (sweptAway env updated previous files).foldl UnitDir.reap (prepared env updated files)
  have hreload : (onlyIf (decide (unitNamesOf updated.connections ≠ [] ∨
      sweptAway env updated previous files ≠ [])) (call (.systemctl .daemonReload))).run env.serve
        dir = (.ok (), dir) := by
    unfold onlyIf
    split
    · exact run_call _
    · exact run_return _
  have harm : ∃ disabled, (armUnits [] updated.connections).run env.serve dir =
      (.ok (), { dir with stopped := dir.stopped ++ disabled }) ∧
        ∀ name ∈ disabled, name ∈ unitNamesOf updated.connections := run_armUnits hnames
  rcases harm with ⟨disabled, harm, hdisabled⟩
  have hplan : ∃ planned, (plan updated.connections).run env.serve
      { dir with stopped := dir.stopped ++ disabled } =
        (.ok planned, { dir with stopped := dir.stopped ++ disabled }) := run_plan hwf hnames
  rcases hplan with ⟨planned, hplan⟩
  -- The steps in the order of the source: write, sweep, reload, arm, plan.
  have hrun : applied env updated previous files =
      (.ok planned, { dir with stopped := dir.stopped ++ disabled }) := by
    unfold applied mounterApply
    refine (run_then (run_prepareUnits hwf hfree hcan)).trans ?_
    refine (run_then (run_removeStaleUnits hsweep)).trans ((run_then hreload).trans ?_)
    exact (run_then harm).trans hplan
  have hreap := reap_foldl (sweptAway env updated previous files) (prepared env updated files)
  -- Writing stops and removes nothing.
  have hlog : (prepared env updated files).rewritten = unitNamesOf updated.connections ∧
      (prepared env updated files).stopped = [] ∧ (prepared env updated files).removed = [] :=
    prepared_logs
  rw [hlog.1, hlog.2.1, hlog.2.2] at hreap
  rw [hrun]
  refine ⟨⟨planned, rfl⟩, hreap.1, fun name => ?_, fun name hname => ?_⟩
  · exact (Iff.of_eq (congrArg (name ∈ ·) hreap.2.2)).trans mem_sweptAway
  · rcases List.mem_append.mp hname with h | h
    · exact Or.inl (mem_sweptAway.mp (hreap.2.1 ▸ h))
    · exact Or.inr (mem_unitNamesOf.mp (hdisabled name h))

/-- Otherwise it raises. -/
theorem run_mounterApply_error (hwf : ∀ c ∈ updated.connections, c.WellFormed)
    (hfree : ∀ c ∈ updated.connections, Free env c)
    (hnot : ¬((∀ c ∈ updated.connections, CanWrite env.accounts c) ∧ CanSweep updated files)) :
    ∃ e, (applied env updated previous files).1 = .error e := by
  unfold applied mounterApply
  by_cases hcan : ∀ c ∈ updated.connections, CanWrite env.accounts c
  · have hraise : ∃ e dir', (removeStaleUnits (unitNamesOf updated.connections)
        (untouched updated (some previous))).run env.serve (prepared env updated files) =
          (.error e, dir') := run_removeStaleUnits_error fun hsweep => hnot ⟨hcan, hsweep⟩
    rcases hraise with ⟨e, dir', hraise⟩
    refine ⟨e, ?_⟩
    rw [run_then (run_prepareUnits hwf hfree hcan)]
    exact congrArg Prod.fst (run_bind_error hraise)
  · have hraise : ∃ e dir', (prepareUnits updated.connections).run env.serve (UnitDir.fresh files) =
        (.error e, dir') := run_prepareUnits_error hwf hfree hcan
    rcases hraise with ⟨e, dir', hraise⟩
    exact ⟨e, congrArg Prod.fst (run_bind_error hraise)⟩

end Run

end Smbpal
