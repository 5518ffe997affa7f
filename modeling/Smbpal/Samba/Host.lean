import Smbpal.Samba.Control
import Smbpal.Shares.Ownership
import Smbpal.System.Atomic

/-!
# The Host an Applier Works On

What `samba/apply.py`, `discovery/advertise.py` and `shares/ownership.py` ask the system
for: the accounts, the share directories, three files, and the two commands of Samba.

Any of it may be refused at any time. A file is written as `Atomic.writeText` writes it,
with some steps refused, and what is known of it afterwards is what that leaves of the one
file (`FileWritten`). A read, a `stat` and a look whether a file is there say what is there
or fail, and never say `FileNotFoundError` of what is there.

Two things are kept on the side that no program reads. `loaded` is what the files were when
`smbcontrol` last succeeded, and `dumped` what `testparm` last printed and what the files
were then. They are what a promise about Samba is stated with.

## Main definitions

* `HostExc`: What can be raised.
* `HostOp`, `HostM`: What is asked, and the programs that ask it.
* `HostState`: The files and directories, and what Samba was told and has said.
* `hostMachine`: What may be answered.

## Theorems

* `FileWritten.ok`, `FileWritten.error`: A write is whole, or has not happened.
* `hostMachine_obliging`: What an obliging system answers may be answered.
-/

namespace Smbpal

section Raising

/-- The classes of error, those of the daemon and those these modules add. -/
inductive HostCode where
  | known (code : ErrorCode)
  | commandFailed
  | ownership
  | advertise
  | reloadFailed
  | shareNotServed

/-- What can be raised, by what catches it. -/
inductive HostExc where
  | smbpal (code : HostCode) (message : Str) (detail : Option Str)
  /-- `FileNotFoundError`, which is an `OSError`. -/
  | fileNotFound (text : Str)
  /-- `FileExistsError`, which is one too. -/
  | fileExists (text : Str)
  | os (text : Str)
  | exception

/-- `except SmbpalError`. -/
def HostExc.isSmbpal : HostExc → Bool
  | .smbpal _ _ _ => true
  | _ => false

/-- `except FileNotFoundError`. -/
def HostExc.isFileNotFound : HostExc → Bool
  | .fileNotFound _ => true
  | _ => false

/-- `except FileExistsError`. -/
def HostExc.isFileExists : HostExc → Bool
  | .fileExists _ => true
  | _ => false

/-- `except OSError`. -/
def HostExc.isOS : HostExc → Bool
  | .fileNotFound _ | .fileExists _ | .os _ => true
  | _ => false

/-- `str(exc)`, of an `OSError`. -/
def HostExc.text : HostExc → Str
  | .fileNotFound text | .fileExists text | .os text => text
  | _ => []

/-- What the functions on texts raise. -/
def HostExc.ofExc : Exc → HostExc
  | .smbpal e => .smbpal (.known e.code) e.message e.detail
  | .os text => .os text
  | _ => .exception

/-- What `serving_identity` raises. -/
def HostExc.ofOwnership : OwnershipFailure → HostExc
  | .notFound message detail => .smbpal (.known .notFound) message detail
  | .ownership message detail => .smbpal .ownership message detail
  | .other => .exception

end Raising

section Asking

/-- The files an applier owns, or owns a block of. -/
inductive HostFile where
  | smbConf
  | smbpalConf
  | service
  deriving DecidableEq

/-- What is asked of the system. -/
inductive HostOp where
  | getpwnam (name : Str)
  | getgrall
  | getpwuid (uid : Nat)
  /-- `path.stat()`, of a share's directory. -/
  | stat (path : Str)
  /-- `path.mkdir(parents=True, exist_ok=False, mode=0o755)`. -/
  | mkdir (path : Str)
  | chown (path : Str) (uid gid : Nat)
  | readText (f : HostFile)
  /-- `path.stat().st_mode`. -/
  | mode (f : HostFile)
  /-- `atomic.write_text`. -/
  | writeText (f : HostFile) (text : Str) (mode : Nat)
  /-- `path.exists()`. -/
  | present (f : HostFile)
  | unlink (f : HostFile)
  /-- `smbcontrol all reload-config`. -/
  | smbcontrol
  /-- `testparm -s`. -/
  | testparm

/-- What is returned where nothing is raised. -/
@[reducible] def HostOp.Value : HostOp → Type
  | .getpwnam _ => Option (Nat × Nat)
  | .getgrall => List (Nat × List Str)
  | .getpwuid _ => Option Str
  | .stat _ => Stat
  | .readText _ => Str
  | .mode _ => Nat
  | .present _ => Bool
  | .smbcontrol => CommandResult
  | .testparm => CommandResult
  | _ => Unit

/-- The operations, each answered by a value or an exception. -/
def hostSig : Lib.Signature :=
  { Op := HostOp, Answer := fun op => Except HostExc op.Value }

/-- A program on the host. -/
abbrev HostM (α : Type) :=
  Lib.Program hostSig HostExc α

/-- Ask the system, raising what it raises. -/
def HostM.call (op : HostOp) : HostM op.Value :=
  Lib.Program.ask (S := hostSig) op id

/-- `except`, for the exceptions a class names. -/
def HostM.catching {α : Type} (caught : HostExc → Bool) (p : HostM α)
    (handler : HostExc → HostM α) : HostM α :=
  tryCatch p fun e => if caught e = true then handler e else throw e

end Asking

section Answering

/-- What the three files are. -/
abbrev HostFiles := HostFile → Option DirFile

/-- The host, and what Samba was told and has said. -/
structure HostState where
  files : HostFiles
  /-- The directories of shares, by path. -/
  dirs : Str → Option Stat
  /-- The files, when `smbcontrol` last succeeded. -/
  loaded : Option HostFiles
  /-- What `testparm` last printed, and the files then. -/
  dumped : Option (Str × HostFiles)

/-- The accounts of the system. -/
structure UserDatabase where
  passwd : Str → Option (Nat × Nat)
  groups : List (Nat × List Str)
  userName : Nat → Option Str

/-- What is there is told or the look fails, and what is there is not said to be missing. -/
def Finds {α : Type} (value : Option α) (there : Bool) (ans : Except HostExc α) : Prop :=
  (∃ v, value = some v ∧ ans = .ok v) ∨
    ∃ e, ans = .error e ∧ e.isSmbpal = false ∧ (there = true → e.isFileNotFound = false)

/-- How a call of `write_text` ended, as its caller sees it. -/
def EndedAs : Except Exc Unit → Except HostExc Unit → Prop
  | .ok (), .ok () => True
  | .error (.os _), .error e => e.isOS = true
  | .error .exception, .error e => e = .exception
  | _, _ => False

/-- What a write makes of a file: what `write_text` makes of it in its directory. -/
def FileWritten (text : Str) (mode : Nat) (ans : Except HostExc Unit)
    (before after : Option DirFile) : Prop :=
  ∃ faults name dir, dir name = before ∧
    EndedAs (Atomic.writeText faults true name text mode dir).1 ans ∧
    after = (Atomic.writeText faults true name text mode dir).2 name

/-- The state with this file so. -/
def HostState.put (s : HostState) (f : HostFile) (file : Option DirFile) : HostState :=
  { s with files := Function.update s.files f file }

/-- `mkdir` and its parents: what was there stays, and it returns only of what was not. -/
def DirMade (path : Str) (ans : Except HostExc Unit) (before after : Str → Option Stat) : Prop :=
  (∀ p info, before p = some info → after p = some info) ∧
    (ans = .ok () → before path = none ∧ after path ≠ none) ∧
    ∀ e, ans = .error e → e.isSmbpal = false

/-- The owner of a directory after `chown`. -/
def Chowned (path : Str) (uid gid : Nat) (ans : Except HostExc Unit)
    (before after : Str → Option Stat) : Prop :=
  (∃ info, before path = some info ∧ ans = .ok () ∧
    after = Function.update before path (some (info.chown uid gid))) ∨
  ∃ e, ans = .error e ∧ e.isSmbpal = false ∧ after = before

/-- What is left of a file after `unlink`. -/
def Unlinked (ans : Except HostExc Unit) (before after : Option DirFile) : Prop :=
  (before ≠ none ∧ ans = .ok () ∧ after = none) ∨
    after = before ∧ Finds none before.isSome ans

/-- `smbcontrol` that succeeds has had Samba read the files. -/
def Reloaded (ans : Except HostExc CommandResult) (files : HostFiles)
    (before after : Option HostFiles) : Prop :=
  after = some files ∨ after = before ∧ ∀ r, ans = .ok r → r.isOk = false

/-- What `testparm` prints when it succeeds. -/
def Dumped (ans : Except HostExc CommandResult) (files : HostFiles)
    (before after : Option (Str × HostFiles)) : Prop :=
  (∃ r, ans = .ok r ∧ r.isOk = true ∧ after = some (r.stdout, files)) ∨
    after = before ∧ ∀ r, ans = .ok r → r.isOk = false

/-- What may be answered, and what becomes of the host. -/
def hostMachine (db : UserDatabase) : Lib.Machine hostSig HostState
  | .getpwnam name, s, ans, s' => s' = s ∧ Finds (some (db.passwd name)) true ans
  | .getgrall, s, ans, s' => s' = s ∧ Finds (some db.groups) true ans
  | .getpwuid uid, s, ans, s' => s' = s ∧ Finds (some (db.userName uid)) true ans
  | .stat path, s, ans, s' => s' = s ∧ Finds (s.dirs path) (s.dirs path).isSome ans
  | .mkdir path, s, ans, s' => ∃ dirs, s' = { s with dirs := dirs } ∧ DirMade path ans s.dirs dirs
  | .chown path uid gid, s, ans, s' =>
      ∃ dirs, s' = { s with dirs := dirs } ∧ Chowned path uid gid ans s.dirs dirs
  | .readText f, s, ans, s' =>
      s' = s ∧ Finds ((s.files f).bind fun file => readText file.bytes) (s.files f).isSome ans
  | .mode f, s, ans, s' =>
      s' = s ∧ Finds ((s.files f).map DirFile.mode) (s.files f).isSome ans
  | .writeText f text mode, s, ans, s' =>
      ∃ file, s' = s.put f file ∧ FileWritten text mode ans (s.files f) file
  | .present f, s, ans, s' => s' = s ∧ Finds (some (s.files f).isSome) true ans
  | .unlink f, s, ans, s' => ∃ file, s' = s.put f file ∧ Unlinked ans (s.files f) file
  | .smbcontrol, s, ans, s' =>
      ∃ loaded, s' = { s with loaded := loaded } ∧ Reloaded ans s.files s.loaded loaded
  | .testparm, s, ans, s' =>
      ∃ dumped, s' = { s with dumped := dumped } ∧ Dumped ans s.files s.dumped dumped

end Answering

theorem put_self (s : HostState) (f : HostFile) : s.put f (s.files f) = s := by
  unfold HostState.put
  rw [Function.update_eq_self]

@[simp] theorem put_files (s : HostState) (f : HostFile) (file : Option DirFile) :
    (s.put f file).files f = file := by
  change Function.update s.files f file f = file
  rw [Function.update_self]

theorem put_files_ne {f f' : HostFile} (h : f' ≠ f) (s : HostState) (file : Option DirFile) :
    (s.put f file).files f' = s.files f' := by
  change Function.update s.files f file f' = s.files f'
  rw [Function.update_of_ne h]

section Written

variable {faults : Faults} {name text : Str} {mode : Nat} {dir : Directory}

/-- A write that raises has left the file alone, whatever it was. -/
theorem writeText_raised {makeParents : Bool} {e : Exc}
    (h : (Atomic.writeText faults makeParents name text mode dir).1 = .error e) :
    (Atomic.writeText faults makeParents name text mode dir).2 name = dir name := by
  unfold Atomic.writeText at h ⊢
  by_cases hmkdir : makeParents = true ∧ faults.fails .mkdir = true
  · rw [if_pos hmkdir]
  rw [if_neg hmkdir] at h ⊢
  unfold mkstemp at h ⊢
  by_cases hmkstemp : faults.fails .mkstemp = true
  · rw [if_pos hmkstemp]
  rw [if_neg hmkstemp] at h ⊢
  cases hfree : freeName faults name dir with
  | none => rfl
  | some tmp =>
      have hne := (freeName_spec hfree).2.symm
      have hmade : ∀ file, Function.update dir tmp file name = dir name := fun file =>
        Function.update_of_ne hne file dir
      rw [hfree] at h
      simp only [Option.map_some] at h ⊢
      unfold placeText fillAndInstall at h ⊢
      -- whatever is raised, only the temporary file was touched
      rcases fill_cases faults tmp text (Function.update dir tmp
        (some { bytes := [], mode := 384 }))
        with ⟨written, hfill, hframe, -⟩ | ⟨-, -, -, hfill⟩ | ⟨bytes, -, hfill⟩
      · rw [hfill]
        exact (Function.update_of_ne hne none written).trans ((hframe name hne).trans (hmade _))
      · rw [hfill]
        exact hmade _
      · rw [hfill] at h ⊢
        dsimp only at h ⊢
        rcases install_cases faults name tmp mode (Function.update
            (Function.update dir tmp (some { bytes := [], mode := 384 })) tmp
            (some { bytes := bytes, mode := 384 }))
          with ⟨left, hinstall, hframe⟩ | hinstall
        · rw [hinstall]
          refine (Function.update_of_ne hne none left).trans ((hframe name hne).trans ?_)
          rw [Function.update_of_ne hne]
          exact hmade _
        · rw [hinstall] at h
          cases h

variable {before after : Option DirFile} {ans : Except HostExc Unit}

/-- A write that returns has left the whole text. -/
theorem FileWritten.ok (h : FileWritten text mode (.ok ()) before after) :
    ∃ bytes, encode text = some bytes ∧ after = some { bytes := bytes, mode := mode } := by
  rcases h with ⟨faults, name, dir, -, hended, rfl⟩
  have hok : (Atomic.writeText faults true name text mode dir).1 = .ok () := by
    cases hwritten : (Atomic.writeText faults true name text mode dir).1 with
    | ok value => rfl
    | error e =>
        rw [hwritten] at hended
        cases e <;> exact absurd hended not_false
  rcases writeText_returned hok with ⟨bytes, hbytes, hdir⟩
  refine ⟨bytes, hbytes, ?_⟩
  rw [hdir, Function.update_self]

/-- One that raises has left the file. -/
theorem FileWritten.error {e : HostExc} (h : FileWritten text mode (.error e) before after) :
    after = before := by
  rcases h with ⟨faults, name, dir, rfl, hended, rfl⟩
  cases hwritten : (Atomic.writeText faults true name text mode dir).1 with
  | ok value =>
      rw [hwritten] at hended
      exact absurd hended not_false
  | error raised => exact writeText_raised hwritten

end Written

section Obliging

/-- What is there, or an exception. -/
def orRaise {α : Type} (value : Option α) (e : HostExc) : Except HostExc α :=
  value.elim (.error e) .ok

/-- A write that is refused only where the text has no UTF-8. -/
def obligingWrite (f : HostFile) (text : Str) (mode : Nat) (s : HostState) :
    Except HostExc Unit × HostState :=
  match encode text with
  | none => (.error (.os []), s)
  | some bytes => (.ok (), s.put f (some { bytes := bytes, mode := mode }))

/-- A host that refuses nothing it can do, except to make a directory, and on which `testparm`
    prints this. -/
def obligingHost (db : UserDatabase) (stdout : Str) :
    (op : HostOp) → HostState → Except HostExc op.Value × HostState
  | .getpwnam name, s => (.ok (db.passwd name), s)
  | .getgrall, s => (.ok db.groups, s)
  | .getpwuid uid, s => (.ok (db.userName uid), s)
  | .stat path, s => (orRaise (s.dirs path) (.os []), s)
  | .mkdir _, s => (.error (.os []), s)
  | .chown _ _ _, s => (.error (.os []), s)
  | .readText f, s =>
      (orRaise ((s.files f).bind fun file => readText file.bytes) .exception, s)
  | .mode f, s => (orRaise ((s.files f).map DirFile.mode) (.os []), s)
  | .writeText f text mode, s => obligingWrite f text mode s
  | .present f, s => (.ok (s.files f).isSome, s)
  | .unlink f, s =>
      (orRaise ((s.files f).map fun _ => ()) (.fileNotFound []), s.put f none)
  | .smbcontrol, s => (.ok ⟨0, [], []⟩, { s with loaded := some s.files })
  | .testparm, s => (.ok ⟨0, stdout, []⟩, { s with dumped := some (stdout, s.files) })

theorem finds_orRaise {α : Type} (value : Option α) {there : Bool} {e : HostExc}
    (hours : e.isSmbpal = false) (hthere : there = true → e.isFileNotFound = false) :
    Finds value there (orRaise value e) := by
  cases value with
  | none => exact Or.inr ⟨e, rfl, hours, hthere⟩
  | some v => exact Or.inl ⟨v, rfl, rfl⟩

/-- Nothing is refused. -/
def noFaults : Faults where
  fails := fun _ => false
  randoms := [[]]
  written := 0

/-- A write of which nothing is refused. -/
theorem fileWritten_unrefused {text : Str} {bytes : List UInt8} (mode : Nat)
    (hbytes : encode text = some bytes) (before : Option DirFile) :
    FileWritten text mode (.ok ()) before (some { bytes := bytes, mode := mode }) := by
  have hfree : freeName noFaults [] (Function.update (fun _ => none) [] before) =
      some (temporaryName [] []) := rfl
  have hok : (Atomic.writeText noFaults true [] text mode
      (Function.update (fun _ => none) [] before)).1 = .ok () :=
    writeText_unrefused (fun _ => rfl) hfree (isPlain_of_encode hbytes)
  rcases writeText_returned hok with ⟨written, hwritten, hdir⟩
  refine ⟨noFaults, [], Function.update (fun _ => none) [] before, ?_, ?_, ?_⟩
  · rw [Function.update_self]
  · rw [hok]
    trivial
  · rw [hdir, Function.update_self, Option.some.inj (hbytes.symm.trans hwritten)]

/-- One of which something is. -/
theorem fileWritten_refused (text : Str) (mode : Nat) (before : Option DirFile) :
    FileWritten text mode (.error (.os [])) before before :=
  ⟨{ noFaults with fails := fun _ => true }, [], fun _ => before, rfl, rfl, rfl⟩

/-- Its answers are among those there may be. -/
theorem hostMachine_obliging (db : UserDatabase) (stdout : Str) (op : HostOp) (s : HostState) :
    hostMachine db op s (obligingHost db stdout op s).1 (obligingHost db stdout op s).2 := by
  cases op with
  | getpwnam name => exact ⟨rfl, Or.inl ⟨_, rfl, rfl⟩⟩
  | getgrall => exact ⟨rfl, Or.inl ⟨_, rfl, rfl⟩⟩
  | getpwuid uid => exact ⟨rfl, Or.inl ⟨_, rfl, rfl⟩⟩
  | stat path => exact ⟨rfl, finds_orRaise _ rfl fun _ => rfl⟩
  | mkdir path =>
      refine ⟨s.dirs, rfl, fun _ _ h => h, (fun h => by cases h), fun e he => ?_⟩
      rw [← Except.error.inj he]
      rfl
  | chown path uid gid => exact ⟨s.dirs, rfl, Or.inr ⟨_, rfl, rfl, rfl⟩⟩
  | readText f => exact ⟨rfl, finds_orRaise _ rfl fun _ => rfl⟩
  | mode f => exact ⟨rfl, finds_orRaise _ rfl fun _ => rfl⟩
  | present f => exact ⟨rfl, Or.inl ⟨_, rfl, rfl⟩⟩
  | smbcontrol => exact ⟨some s.files, rfl, Or.inl rfl⟩
  | testparm => exact ⟨_, rfl, Or.inl ⟨_, rfl, rfl, rfl⟩⟩
  | writeText f text mode =>
      -- A refused encoding leaves the file; every other write leaves the bytes.
      change ∃ file, (obligingWrite f text mode s).2 = s.put f file ∧
        FileWritten text mode (obligingWrite f text mode s).1 (s.files f) file
      unfold obligingWrite
      cases hbytes : encode text with
      | none => exact ⟨s.files f, (put_self s f).symm, fileWritten_refused text mode (s.files f)⟩
      | some bytes => exact ⟨_, rfl, fileWritten_unrefused mode hbytes (s.files f)⟩
  | unlink f =>
      refine ⟨none, rfl, ?_⟩
      change Unlinked (orRaise ((s.files f).map fun _ => ()) (.fileNotFound [])) (s.files f) none
      cases hfile : s.files f with
      | none => exact Or.inr ⟨rfl, Or.inr ⟨.fileNotFound [], rfl, rfl, (fun h => by cases h)⟩⟩
      | some file => exact Or.inl ⟨Option.some_ne_none file, rfl, rfl⟩

end Obliging

end Smbpal
