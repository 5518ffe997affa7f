import Smbpal.Daemon.Effects
import Mathlib.Logic.Function.Basic

/-!
# Writing a File Whole

`system/atomic.py`: a temporary file in the same directory, renamed over the target once it
holds the whole text. Every step asks the system for something and may be refused. What it
had made by then is removed again on an `OSError`, and encoding a text that has no UTF-8
raises none: it is a `UnicodeEncodeError`, and the temporary file stays.

## Main definitions

* `Directory`: The files of a directory.
* `WriteStep`, `Faults`: What may be refused.
* `Atomic.writeText`: `write_text`.
* `AllOrNothing`: What a caller counts on.

## Theorems

* `fill_cases`, `install_cases`: What the steps leave, and that it is the temporary file only.
* `writeText_allOrNothing_iff`: When a caller gets it.
* `writeText_returned`: A write that returns has written the whole text.
* `writeText_unrefused`, `writeText_full`: Where nothing is refused it returns, and where
  nothing can be written it raises.
-/

namespace Smbpal

/-- A file of a directory. -/
structure DirFile where
  bytes : List UInt8
  mode : Nat
  deriving DecidableEq

/-- The files of a directory, by name. -/
abbrev Directory := Str → Option DirFile

/-- Whatever the system is asked for. -/
inductive WriteStep where
  | mkdir
  | mkstemp
  | fdopen
  | write
  | fsync
  | close
  | chmod
  | replace
  deriving DecidableEq

/-- What is refused, which names `mkstemp` tries, and how much of the text gets to the disk
    before writing fails. -/
structure Faults where
  fails : WriteStep → Bool
  randoms : List Str
  written : Nat

/-- A name `mkstemp` makes up for a file. -/
def temporaryName (name random : Str) : Str :=
  str "." ++ name ++ str "-" ++ random

/-- The first name `mkstemp` tries that is free. -/
def freeName (faults : Faults) (name : Str) (dir : Directory) : Option Str :=
  (faults.randoms.map (temporaryName name)).find? fun tmp => (dir tmp).isNone

/-- `tempfile.mkstemp`: the name of a file that is there now, and empty. -/
def mkstemp (faults : Faults) (name : Str) (dir : Directory) : Option (Str × Directory) :=
  if faults.fails .mkstemp = true then none
  else (freeName faults name dir).map fun tmp =>
    (tmp, Function.update dir tmp (some { bytes := [], mode := 384 }))

/-- `handle.write`, `handle.flush` and `os.fsync`. The text is encoded before any of it is
    written. -/
def writeHandle (faults : Faults) (tmp text : Str) (dir : Directory) :
    Except Exc Unit × Directory :=
  match encode text with
  | none => (.error .exception, dir)
  | some bytes =>
      if faults.fails .write = true then
        (.error (.os []),
          Function.update dir tmp (some { bytes := bytes.take faults.written, mode := 384 }))
      else
        let full := Function.update dir tmp (some { bytes := bytes, mode := 384 })
        if faults.fails .fsync = true then (.error (.os []), full) else (.ok (), full)

/-- The `with` block. Closing may fail as well, and then that is what is raised. -/
def fill (faults : Faults) (tmp text : Str) (dir : Directory) : Except Exc Unit × Directory :=
  if faults.fails .fdopen = true then (.error (.os []), dir)
  else
    let (result, dir) := writeHandle faults tmp text dir
    if faults.fails .close = true then (.error (.os []), dir) else (result, dir)

/-- `os.chmod` and `os.replace`. -/
def install (faults : Faults) (name tmp : Str) (mode : Nat) (dir : Directory) :
    Except Exc Unit × Directory :=
  if faults.fails .chmod = true then (.error (.os []), dir)
  else
    let moded := (dir tmp).map fun file => { file with mode := mode }
    if faults.fails .replace = true then (.error (.os []), Function.update dir tmp moded)
    else (.ok (), Function.update (Function.update dir name moded) tmp none)

/-- The `try` block. -/
def fillAndInstall (faults : Faults) (name tmp text : Str) (mode : Nat) (dir : Directory) :
    Except Exc Unit × Directory :=
  match fill faults tmp text dir with
  | (.error e, dir) => (.error e, dir)
  | (.ok (), dir) => install faults name tmp mode dir

/-- The `try` block and its `except OSError`. -/
def placeText (faults : Faults) (name tmp text : Str) (mode : Nat) (dir : Directory) :
    Except Exc Unit × Directory :=
  match fillAndInstall faults name tmp text mode dir with
  | (.error e, dir) =>
      if e.isOS = true then (.error e, Function.update dir tmp none) else (.error e, dir)
  | (.ok (), dir) => (.ok (), dir)

/-- `write_text`, of the file with this name in its directory. -/
def Atomic.writeText (faults : Faults) (makeParents : Bool) (name text : Str) (mode : Nat)
    (dir : Directory) : Except Exc Unit × Directory :=
  if makeParents = true ∧ faults.fails .mkdir = true then (.error (.os []), dir)
  else
    match mkstemp faults name dir with
    | none => (.error (.os []), dir)
    | some (tmp, dir) => placeText faults name tmp text mode dir

/-- Raising leaves the directory as it was, and returning leaves the text there and nothing
    else. -/
structure AllOrNothing (name text : Str) (mode : Nat) (dir : Directory)
    (ended : Except Exc Unit × Directory) : Prop where
  raised : ∀ e, ended.1 = .error e → ended.2 = dir
  returned : ended.1 = .ok () → ∃ bytes, encode text = some bytes ∧
    ended.2 = Function.update dir name (some { bytes := bytes, mode := mode })

/-- The temporary file cannot be made, or opened, or closed. -/
def Refused (faults : Faults) (makeParents : Bool) (name : Str) (dir : Directory) : Prop :=
  makeParents = true ∧ faults.fails .mkdir = true ∨ faults.fails .mkstemp = true ∨
    freeName faults name dir = none ∨ faults.fails .fdopen = true ∨ faults.fails .close = true

theorem temporaryName_ne (name random : Str) : temporaryName name random ≠ name := by
  intro h
  have hlength := congrArg List.length h
  rw [temporaryName, List.length_append, List.length_append, List.length_append] at hlength
  have hdot : (str ".").length = 1 := rfl
  omega

section Steps

variable {faults : Faults} {name tmp text : Str} {mode : Nat} {dir : Directory}

/-- A free name is another one than the file's. -/
theorem freeName_spec (h : freeName faults name dir = some tmp) :
    dir tmp = none ∧ tmp ≠ name := by
  have hmem := List.mem_of_find?_eq_some h
  rcases List.mem_map.mp hmem with ⟨random, -, rfl⟩
  have hnone : (dir (temporaryName name random)).isNone = true := by
    unfold freeName at h
    exact @List.find?_some _ (fun tmp => (dir tmp).isNone) _ _ h
  exact ⟨Option.isNone_iff_eq_none.mp hnone, temporaryName_ne name random⟩

/-- A text with a UTF-8 is written whole, or the system refuses. -/
theorem writeHandle_cases {bytes : List UInt8} (hencode : encode text = some bytes) :
    (∃ file, writeHandle faults tmp text dir =
      (.error (.os []), Function.update dir tmp (some file))) ∨
    writeHandle faults tmp text dir =
      (.ok (), Function.update dir tmp (some { bytes := bytes, mode := 384 })) := by
  unfold writeHandle
  rw [hencode]
  dsimp only
  by_cases hwrite : faults.fails .write = true
  · rw [if_pos hwrite]
    exact Or.inl ⟨_, rfl⟩
  rw [if_neg hwrite]
  by_cases hsync : faults.fails .fsync = true
  · rw [if_pos hsync]
    exact Or.inl ⟨_, rfl⟩
  · rw [if_neg hsync]
    exact Or.inr rfl

/-- The block fails as the system does, with nothing but the temporary file changed, or on a
    text without a UTF-8, or writes the whole text. -/
theorem fill_cases (faults : Faults) (tmp text : Str) (dir : Directory) :
    (∃ written, fill faults tmp text dir = (.error (.os []), written) ∧
      (∀ other, other ≠ tmp → written other = dir other) ∧
      (IsPlain text ∨ faults.fails .fdopen = true ∨ faults.fails .close = true)) ∨
    (¬IsPlain text ∧ faults.fails .fdopen = false ∧ faults.fails .close = false ∧
      fill faults tmp text dir = (.error .exception, dir)) ∨
    (∃ bytes, encode text = some bytes ∧ fill faults tmp text dir =
      (.ok (), Function.update dir tmp (some { bytes := bytes, mode := 384 }))) := by
  -- Only the temporary is written, so every other name reads as before.
  have hother : ∀ file other, other ≠ tmp → Function.update dir tmp file other = dir other :=
    fun file other hne => Function.update_of_ne hne file dir
  unfold fill
  by_cases hopen : faults.fails .fdopen = true
  · rw [if_pos hopen]
    exact Or.inl ⟨dir, rfl, fun _ _ => rfl, Or.inr (Or.inl hopen)⟩
  rw [if_neg hopen]
  cases hencode : encode text with
  -- A text with no bytes raises while it is encoded, before anything is written.
  | none =>
      have hnot : ¬IsPlain text := by
        intro h
        rcases h.encodes with ⟨bytes, hbytes⟩
        exact absurd (hbytes.symm.trans hencode) (Option.some_ne_none bytes)
      have hwrite : writeHandle faults tmp text dir = (.error .exception, dir) := by
        unfold writeHandle
        rw [hencode]
      rw [hwrite]
      dsimp only
      by_cases hclose : faults.fails .close = true
      · rw [if_pos hclose]
        exact Or.inl ⟨dir, rfl, fun _ _ => rfl, Or.inr (Or.inr hclose)⟩
      · rw [if_neg hclose]
        exact Or.inr (Or.inl ⟨hnot, eq_false_of_ne_true hopen, eq_false_of_ne_true hclose, rfl⟩)
  | some bytes =>
      have hplain : IsPlain text := isPlain_of_encode hencode
      rcases @writeHandle_cases faults tmp text dir bytes hencode with ⟨file, hwrite⟩ | hwrite
      · rw [hwrite]
        exact Or.inl ⟨_, ite_self _, hother _, Or.inl hplain⟩
      · rw [hwrite]
        dsimp only
        by_cases hclose : faults.fails .close = true
        · rw [if_pos hclose]
          exact Or.inl ⟨_, rfl, hother _, Or.inl hplain⟩
        · rw [if_neg hclose]
          exact Or.inr (Or.inr ⟨bytes, rfl, rfl⟩)

theorem install_cases (faults : Faults) (name tmp : Str) (mode : Nat) (dir : Directory) :
    (∃ left, install faults name tmp mode dir = (.error (.os []), left) ∧
      ∀ other, other ≠ tmp → left other = dir other) ∨
    install faults name tmp mode dir = (.ok (), Function.update (Function.update dir name
      ((dir tmp).map fun file => { file with mode := mode })) tmp none) := by
  unfold install
  by_cases hmode : faults.fails .chmod = true
  · rw [if_pos hmode]
    exact Or.inl ⟨dir, rfl, fun _ _ => rfl⟩
  rw [if_neg hmode]
  by_cases hreplace : faults.fails .replace = true
  · dsimp only
    rw [if_pos hreplace]
    exact Or.inl ⟨_, rfl, fun other hne => Function.update_of_ne hne _ dir⟩
  · dsimp only
    rw [if_neg hreplace]
    exact Or.inr rfl

/-- What the `except` leaves where only the temporary file was changed. -/
theorem update_none_eq {left : Directory} (hfree : dir tmp = none)
    (h : ∀ other, other ≠ tmp → left other = dir other) : Function.update left tmp none = dir := by
  refine funext fun other => ?_
  by_cases hother : other = tmp
  · rw [hother, Function.update_self, hfree]
  · rw [Function.update_of_ne hother, h other hother]

/-- With the temporary file made, everything is undone except after a text that has no
    UTF-8. -/
theorem placeText_iff (hfree : dir tmp = none) (hne : tmp ≠ name) :
    AllOrNothing name text mode dir (placeText faults name tmp text mode
      (Function.update dir tmp (some { bytes := [], mode := 384 }))) ↔
    IsPlain text ∨ faults.fails .fdopen = true ∨ faults.fails .close = true := by
  have hmade : ∀ file other, other ≠ tmp → Function.update dir tmp file other = dir other :=
    fun file other hother => Function.update_of_ne hother file dir
  have hundone : ∀ left, (∀ other, other ≠ tmp → left other = dir other) →
      AllOrNothing name text mode dir (.error (.os []), Function.update left tmp none) :=
    fun left hframe => ⟨fun _ _ => update_none_eq hfree hframe, fun h => by cases h⟩
  unfold placeText fillAndInstall
  rcases fill_cases faults tmp text (Function.update dir tmp (some { bytes := [], mode := 384 }))
    with ⟨written, hfill, hframe, hcond⟩ | ⟨hplain, hopen, hclose, hfill⟩ | ⟨bytes, hbytes, hfill⟩
  · rw [hfill]
    exact iff_of_true (hundone written fun other hother =>
      (hframe other hother).trans (hmade _ other hother)) hcond
  · rw [hfill]
    refine iff_of_false (fun h => ?_) ?_
    · -- the temporary file is there, and was not
      have hleft := congrFun (h.raised .exception rfl) tmp
      rw [hfree] at hleft
      exact absurd ((Function.update_self tmp _ dir).symm.trans hleft) (Option.some_ne_none _)
    · rw [hopen, hclose]
      exact fun h => h.elim hplain fun h => h.elim Bool.false_ne_true Bool.false_ne_true
  · rw [hfill, Function.update_idem]
    dsimp only
    refine iff_of_true ?_ (Or.inl (isPlain_of_encode hbytes))
    rcases install_cases faults name tmp mode
      (Function.update dir tmp (some { bytes := bytes, mode := 384 }))
      with ⟨left, hinstall, hframe⟩ | hinstall
    · rw [hinstall]
      exact hundone left fun other hother => (hframe other hother).trans (hmade _ other hother)
    · rw [hinstall]
      refine ⟨(fun e h => by cases h), fun _ => ⟨bytes, hbytes, ?_⟩⟩
      rw [Function.update_self, Function.update_comm hne.symm, Function.update_idem]
      refine congrArg (fun d => Function.update d name _) ?_
      exact (congrArg (Function.update dir tmp) hfree.symm).trans (Function.update_eq_self tmp dir)

end Steps

/-- A write is all or nothing exactly when the text has a UTF-8, or the temporary file was
    not made, opened or closed. -/
theorem writeText_allOrNothing_iff (faults : Faults) (makeParents : Bool) (name text : Str)
    (mode : Nat) (dir : Directory) :
    AllOrNothing name text mode dir (Atomic.writeText faults makeParents name text mode dir) ↔
      IsPlain text ∨ Refused faults makeParents name dir := by
  -- Where nothing was written, nothing changed and the call raised.
  have hnothing : AllOrNothing name text mode dir (.error (.os []), dir) :=
    ⟨fun _ _ => rfl, fun h => by cases h⟩
  unfold Atomic.writeText Refused
  by_cases hmkdir : makeParents = true ∧ faults.fails .mkdir = true
  · rw [if_pos hmkdir]
    exact iff_of_true hnothing (Or.inr (Or.inl hmkdir))
  rw [if_neg hmkdir]
  unfold mkstemp
  by_cases hmkstemp : faults.fails .mkstemp = true
  · rw [if_pos hmkstemp]
    exact iff_of_true hnothing (Or.inr (Or.inr (Or.inl hmkstemp)))
  rw [if_neg hmkstemp]
  cases hfree : freeName faults name dir with
  | none => exact iff_of_true hnothing (Or.inr (Or.inr (Or.inr (Or.inl rfl))))
  | some tmp =>
      have hspec := freeName_spec hfree
      refine (placeText_iff hspec.1 hspec.2).trans ?_
      simp only [hmkdir, hmkstemp, reduceCtorEq, false_or]

/-- A write returns only if its `with` block did. -/
theorem filled_of_writeText {faults : Faults} {makeParents : Bool} {name text : Str} {mode : Nat}
    {dir : Directory} (h : (Atomic.writeText faults makeParents name text mode dir).1 = .ok ()) :
    ∃ tmp made, (fill faults tmp text made).1 = .ok () := by
  unfold Atomic.writeText at h
  split at h
  · cases h
  · split at h
    · cases h
    · rename_i tmp made hmade
      refine ⟨tmp, made, ?_⟩
      unfold placeText fillAndInstall at h
      rcases hended : fill faults tmp text made with ⟨r, written⟩
      rw [hended] at h
      cases r with
      | ok u => rfl
      | error e =>
          dsimp only at h
          split at h <;> cases h

/-- A write that returns was of a text with a UTF-8. -/
theorem isPlain_of_writeText {faults : Faults} {makeParents : Bool} {name text : Str} {mode : Nat}
    {dir : Directory} (h : (Atomic.writeText faults makeParents name text mode dir).1 = .ok ()) :
    IsPlain text := by
  rcases filled_of_writeText h with ⟨tmp, made, hok⟩
  -- Encoding comes before anything that could return.
  rcases fill_cases faults tmp text made with
    ⟨written, hfill, -, -⟩ | ⟨-, -, -, hfill⟩ | ⟨bytes, hbytes, -⟩
  · rw [hfill] at hok
    cases hok
  · rw [hfill] at hok
    cases hok
  · exact isPlain_of_encode hbytes

/-- Where no text can be written, it does not return. -/
theorem writeText_full {faults : Faults} (hfull : faults.fails .write = true)
    (makeParents : Bool) (name text : Str) (mode : Nat) (dir : Directory) :
    (Atomic.writeText faults makeParents name text mode dir).1 ≠ .ok () := by
  intro h
  rcases filled_of_writeText h with ⟨tmp, made, hok⟩
  have hhandle : (writeHandle faults tmp text made).1 ≠ .ok () := by
    intro hwritten
    unfold writeHandle at hwritten
    split at hwritten
    · cases hwritten
    · rw [if_pos hfull] at hwritten
      cases hwritten
  unfold fill at hok
  split at hok
  · cases hok
  · dsimp only at hok
    split at hok
    · cases hok
    · exact hhandle hok

/-- A write that returns has written the whole text. -/
theorem writeText_returned {faults : Faults} {makeParents : Bool} {name text : Str} {mode : Nat}
    {dir : Directory} (h : (Atomic.writeText faults makeParents name text mode dir).1 = .ok ()) :
    ∃ bytes, encode text = some bytes ∧ (Atomic.writeText faults makeParents name text mode dir).2 =
      Function.update dir name (some { bytes := bytes, mode := mode }) :=
  ((writeText_allOrNothing_iff faults makeParents name text mode dir).mpr
    (Or.inl (isPlain_of_writeText h))).returned h

/-- Where nothing is refused a text with a UTF-8 is written. -/
theorem writeText_unrefused {faults : Faults} {makeParents : Bool} {name tmp text : Str}
    {mode : Nat} {dir : Directory} (hfaults : ∀ step, faults.fails step = false)
    (hfree : freeName faults name dir = some tmp) (hplain : IsPlain text) :
    (Atomic.writeText faults makeParents name text mode dir).1 = .ok () := by
  -- No step fails, so the function goes its straight way.
  have hno : ∀ step, ¬faults.fails step = true := fun step =>
    ne_true_of_eq_false (hfaults step)
  rcases hplain.encodes with ⟨bytes, hbytes⟩
  have hmade : mkstemp faults name dir =
      some (tmp, Function.update dir tmp (some { bytes := [], mode := 384 })) := by
    rw [mkstemp, if_neg (hno .mkstemp), hfree]
    rfl
  have hhandle : ∀ dir, writeHandle faults tmp text dir =
      (.ok (), Function.update dir tmp (some { bytes := bytes, mode := 384 })) := by
    intro dir
    unfold writeHandle
    rw [hbytes]
    dsimp only
    rw [if_neg (hno .write), if_neg (hno .fsync)]
  have hfill : ∀ dir, fill faults tmp text dir =
      (.ok (), Function.update dir tmp (some { bytes := bytes, mode := 384 })) := by
    intro dir
    rw [fill, if_neg (hno .fdopen), hhandle]
    dsimp only
    rw [if_neg (hno .close)]
  rw [Atomic.writeText, if_neg fun h => hno .mkdir h.2, hmade]
  dsimp only
  rw [placeText, fillAndInstall, hfill]
  dsimp only
  rw [install, if_neg (hno .chmod)]
  dsimp only
  rw [if_neg (hno .replace)]

end Smbpal
