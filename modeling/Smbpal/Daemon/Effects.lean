import Smbpal.Lib.Program
import Smbpal.Config.Operations
import Smbpal.Mounts.Units

/-!
# What the Daemon Does to the World

The operations a request handler performs, and what each of them may do.

A handler is a `DaemonM`: it loads and saves the config, asks the system
things, writes credentials and unit files, runs `systemctl`, and asks a user's
agent. Every operation answers with a value or with the exception it raises,
and between two operations anything may happen elsewhere.

Two machines give the operations a meaning. `storeMachine` sees the stored
config alone: `load` and `save` are `ConfigStore`'s, and every other operation
leaves the config alone and may answer anything. It is all that can be said
about several clients at once, and enough for what the stored config keeps. The
machines that also see files, units and the Keychain are with the results that
need them; on the config they all agree with this one.

## Main definitions

* `DaemonOp`, `daemonSig`, `DaemonM`: The operations and the programs over them.
* `storeLoad`, `storeSave`: `ConfigStore.load` and `ConfigStore.save`.
* `storeMachine`: The meaning of the operations for the stored config.
* `catching`: `except` for a class of exceptions.

## Theorems

* `always_catching`: Catching a class of exceptions.
-/

namespace Smbpal

open Lib Program

/-- A filesystem the kernel reports at a mountpoint. -/
structure MountEntry where
  source : Str
  fstype : Str
  deriving DecidableEq

/-- What `systemctl` is asked to do. -/
inductive Systemctl where
  | daemonReload
  | enable (unit : Str)
  | disable (unit : Str)
  | stop (unit : Str)
  | resetFailed (unit : Str)
  | start (unit : Str)
  deriving DecidableEq

/-- A mount `agent.release` left where it is, and whether it was in use. -/
structure LeftMount where
  mountpoint : Str
  busy : Bool

/-- What `agent.release` answers. -/
structure Released where
  unmounted : List Str
  left : List LeftMount

/-- One operation of a handler. -/
inductive DaemonOp where
  | load
  | save (doc : Config)
  /-- `applier.apply`. -/
  | applierApply (doc : Config)
  /-- `applier.unmanaged_shares`. -/
  | unmanagedShares (configured : List Str)
  /-- What `share.add` asks after the commit, for its reply alone. -/
  | describeShare (share : Share)
  | getpwuid (uid : Nat)
  | getpwnam (name : Str)
  /-- `Mounter.occupied_mountpoints`. -/
  | occupiedMountpoints
  /-- `MountProbe.occupant`. -/
  | occupant (mountpoint : Str)
  /-- `MountProbe.is_mounted`. -/
  | isMounted (mountpoint : Str)
  /-- `MountProbe.state`. -/
  | probeState (mountpoint : Str)
  /-- `Mounter._ensure_mountpoint`. -/
  | ensureMountpoint (mountpoint : Str)
  | rmdir (path : Str)
  | credentialsExists (ref : Str)
  | credentialsWrite (ref body : Str)
  | credentialsUnlink (ref : Str)
  | writeUnit (name text : Str)
  /-- The names in the unit directory, none when it is not there. -/
  | iterUnits
  | readUnit (name : Str)
  | unlinkUnit (name : Str)
  | systemctl (command : Systemctl)
  /-- `netfs.smb_url`, which fails on a name that has no UTF-8. -/
  | smbUrl (host share : Str)
  | credentialSet (uid : Nat) (host account password : Str)
  | credentialForget (uid : Nat) (host account : Str)
  | agentMount (uid : Nat) (url : Str) (user : Option Str) (host : Str)
  | agentUnmount (uid : Nat) (mountpoint : Option Str) (url : Str)
  | agentRelease (uid : Nat) (url : Str)
  /-- `StateMonitor.forget`. -/
  | monitorForget (id : Option Str)

/-- What an operation returns when it does not raise. -/
@[reducible] def DaemonOp.Value : DaemonOp → Type
  | .load => Config
  | .unmanagedShares _ => List (Str × Option Str)
  | .getpwuid _ => Option Str
  | .getpwnam _ => Option OwnerIds
  | .occupiedMountpoints => List Str
  | .occupant _ => Option MountEntry
  | .isMounted _ => Option Bool
  | .probeState _ => Str
  | .credentialsExists _ => Bool
  | .iterUnits => List Str
  | .readUnit _ => Str
  | .smbUrl _ _ => Str
  | .credentialSet _ _ _ _ => KeychainMark
  | .agentMount _ _ _ _ => Str
  | .agentUnmount _ _ _ => Bool
  | .agentRelease _ _ => Released
  | _ => Unit

/-- The operations, each answered by a value or an exception. -/
def daemonSig : Signature :=
  { Op := DaemonOp, Answer := fun op => Except Exc op.Value }

/-- A program of the daemon. -/
abbrev DaemonM (α : Type) :=
  Program daemonSig Exc α

/-- Perform an operation, raising what it raises. -/
def call (op : DaemonOp) : DaemonM op.Value :=
  Program.ask (S := daemonSig) op fun ans => ans

/-- Do it when the condition holds. -/
def onlyIf (condition : Bool) (p : DaemonM Unit) : DaemonM Unit :=
  if condition then p else pure ()

/-- `except` for the exceptions a class names: handle those, let the others
    through. -/
def catching {α : Type} (caught : Exc → Bool) (p : DaemonM α) (handler : Exc → DaemonM α) :
    DaemonM α :=
  tryCatch p fun e => if caught e then handler e else throw e

/-- `except SmbpalError`. -/
def Exc.isSmbpal : Exc → Bool
  | .smbpal _ => true
  | _ => false

/-- `except OSError`. -/
def Exc.isOS : Exc → Bool
  | .os _ => true
  | _ => false

/-- `except Exception`. -/
def Exc.isException : Exc → Bool
  | .interrupt => false
  | _ => true

section Catching

variable {σ : Type} {M : Machine daemonSig σ} {α : Type} {Q : Except Exc α → σ → Prop} {s : σ}

/-- The rest of a run inside an `except` clause. -/
def orCatch (M : Machine daemonSig σ) (caught : Exc → Bool) (handler : Exc → DaemonM α)
    (Q : Except Exc α → σ → Prop) : Except Exc α → σ → Prop
  | .ok a, s => Q (.ok a) s
  | .error e, s => if caught e then Always M (handler e) Q s else Q (.error e) s

@[simp] theorem orCatch_ok (caught : Exc → Bool) (handler : Exc → DaemonM α) (a : α) :
    orCatch M caught handler Q (.ok a) s ↔ Q (.ok a) s :=
  Iff.rfl

@[simp] theorem orCatch_error (caught : Exc → Bool) (handler : Exc → DaemonM α) (e : Exc) :
    orCatch M caught handler Q (.error e) s ↔
      if caught e then Always M (handler e) Q s else Q (.error e) s :=
  Iff.rfl

@[simp] theorem always_call (op : DaemonOp) (Q : Except Exc op.Value → σ → Prop) :
    Always M (call op) Q s ↔ ∀ ans s', M op s ans s' → Q ans s' :=
  always_ask (S := daemonSig) op fun ans => ans

@[simp] theorem always_catching (caught : Exc → Bool) (p : DaemonM α)
    (handler : Exc → DaemonM α) :
    Always M (catching caught p handler) Q s ↔ Always M p (orCatch M caught handler Q) s := by
  unfold catching
  rw [always_tryCatch]
  have hQ : ∀ r s, orElse M (fun e => if caught e then handler e else throw e) Q r s ↔
      orCatch M caught handler Q r s := by
    intro r s
    cases r with
    | ok a => rfl
    | error e =>
        cases hc : caught e with
        | true => simp [orCatch, hc]
        | false => simp [orCatch, hc]
  constructor
  · exact fun h => always_mono h fun r s => (hQ r s).mp
  · exact fun h => always_mono h fun r s => (hQ r s).mpr

/-- A check at the head of a program: it raises, or the rest goes on with what
    it found. -/
theorem always_check {β : Type} {r : Except Exc β} {f : β → DaemonM α}
    (hraise : ∀ e, Q (.error e) s) (hok : ∀ b, r = .ok b → Always M (f b) Q s) :
    Always M (fromExcept r >>= f) Q s := by
  rw [always_bind, always_fromExcept]
  cases hr : r with
  | ok b => exact hok b hr
  | error e => exact hraise e

/-- A run of an operation is what the machine may answer. -/
theorem exec_call {op : DaemonOp} {ans : Except Exc op.Value} {s' : σ} (h : M op s ans s') :
    Exec M (call op) s ans s' :=
  exec_ask (S := daemonSig) h

/-- A run that goes on after a check that passes. -/
theorem exec_check {β : Type} {x : Except Exc β} {f : β → DaemonM α} {b : β} {r : Except Exc α}
    {s' : σ} (hx : x = .ok b) (h : Exec M (f b) s r s') : Exec M (fromExcept x >>= f) s r s' := by
  subst hx
  exact h

/-- The body of an `except` clause returns. -/
theorem exec_catching_ok {caught : Exc → Bool} {p : DaemonM α} {handler : Exc → DaemonM α} {a : α}
    {s' : σ} (h : Exec M p s (.ok a) s') : Exec M (catching caught p handler) s (.ok a) s' :=
  exec_tryCatch_iff.mpr (Or.inl ⟨a, h, rfl⟩)

/-- An exception of another class goes through. -/
theorem exec_catching_pass {caught : Exc → Bool} {p : DaemonM α} {handler : Exc → DaemonM α}
    {e : Exc} {s' : σ} (h : Exec M p s (.error e) s') (he : caught e = false) :
    Exec M (catching caught p handler) s (.error e) s' := by
  refine exec_tryCatch_iff.mpr (Or.inr ⟨e, s', h, ?_⟩)
  rw [he, if_neg Bool.false_ne_true]
  exact Exec.raise e s'

theorem footprint_call {P : DaemonOp → Prop} {op : DaemonOp} {R : op.Value → Prop} (hop : P op)
    (hR : ∀ v, R v) : Footprint (S := daemonSig) (ε := Exc) P R (call op) :=
  footprint_ask hop fun _ v _ => hR v

theorem footprint_onlyIf {P : DaemonOp → Prop} {condition : Bool} {p : DaemonM Unit}
    (hp : condition = true → Performs (S := daemonSig) P p) :
    Performs (S := daemonSig) P (onlyIf condition p) := by
  cases condition with
  | true => exact hp rfl
  | false => exact (footprint_pure _).mpr trivial

theorem footprint_catching {P : DaemonOp → Prop} {R : α → Prop} {caught : Exc → Bool}
    {p : DaemonM α} {handler : Exc → DaemonM α} (hp : Footprint (S := daemonSig) P R p)
    (hh : ∀ e, Footprint (S := daemonSig) P R (handler e)) :
    Footprint (S := daemonSig) P R (catching caught p handler) := by
  refine footprint_tryCatch hp fun e => ?_
  cases caught e with
  | true => exact hh e
  | false => exact footprint_throw e

end Catching

section Running

variable {σ α β : Type} {answer : (op : DaemonOp) → σ → Except Exc op.Value × σ} {s s' : σ}

/-- The run of a program against a function that answers. -/
def runWith (answer : (op : DaemonOp) → σ → Except Exc op.Value × σ) (p : DaemonM α) (s : σ) :
    Except Exc α × σ :=
  Program.run (S := daemonSig) answer p s

theorem exec_runWith {M : Machine daemonSig σ}
    (hM : ∀ op s, M op s (answer op s).1 (answer op s).2) (p : DaemonM α) (s : σ) :
    Exec M p s (runWith answer p s).1 (runWith answer p s).2 :=
  exec_run (S := daemonSig) hM p s

theorem runWith_call (op : DaemonOp) : runWith answer (call op) s = answer op s :=
  run_ask (S := daemonSig) op fun ans => ans

theorem runWith_ok {p : DaemonM α} {f : α → DaemonM β} {a : α}
    (h : runWith answer p s = (.ok a, s')) : runWith answer (p >>= f) s = runWith answer (f a) s' :=
  run_bind_ok h

theorem runWith_error {p : DaemonM α} {f : α → DaemonM β} {e : Exc}
    (h : runWith answer p s = (.error e, s')) : runWith answer (p >>= f) s = (.error e, s') :=
  run_bind_error h

/-- A check that passes comes first. -/
theorem runWith_check {x : Except Exc α} {f : α → DaemonM β} {a : α} (h : x = .ok a) :
    runWith answer (fromExcept x >>= f) s = runWith answer (f a) s := by
  subst h
  rfl

/-- The body of an `except` clause returns. -/
theorem runWith_catching {caught : Exc → Bool} {p : DaemonM α} {handler : Exc → DaemonM α} {a : α}
    (h : runWith answer p s = (.ok a, s')) :
    runWith answer (catching caught p handler) s = (.ok a, s') :=
  run_tryCatch_ok h

end Running

section Store

variable [Unicode]

/-- `ConfigStore.load`: the stored document, when it validates and can be
    read. -/
def storeLoad (stored : Config) (ans : Except Exc Config) : Prop :=
  (∃ e, ans = .error e) ∨ (stored.Valid ∧ ans = .ok stored)

/-- `ConfigStore.save`: an invalid document is refused before anything touches
    the disk, and what cannot be written leaves the old one. -/
def storeSave (doc stored : Config) (ans : Except Exc Unit) (stored' : Config) : Prop :=
  match validateOrRaise doc (str "the new config") id with
  | .error e => ans = .error e ∧ stored' = stored
  | .ok _ => (ans = .ok () ∧ stored' = doc) ∨ (∃ e, ans = .error e) ∧ stored' = stored

/-- The operations as the stored config sees them. -/
def storeMachine : Machine daemonSig Config
  | .load, stored, ans, stored' => storeLoad stored ans ∧ stored' = stored
  | .save doc, stored, ans, stored' => storeSave doc stored ans stored'
  | _, stored, _, stored' => stored' = stored

/-- The operations that use the store. -/
def usesStore : DaemonOp → Bool
  | .load => true
  | .save _ => true
  | _ => false

theorem storeSave_cases {doc stored stored' : Config} {ans : Except Exc Unit}
    (h : storeSave doc stored ans stored') :
    (ans = .ok () ∧ doc.Valid ∧ stored' = doc) ∨ ((∃ e, ans = .error e) ∧ stored' = stored) := by
  unfold storeSave at h
  cases hv : validateOrRaise doc (str "the new config") id with
  | error e =>
      rw [hv] at h
      exact Or.inr ⟨⟨e, h.1⟩, h.2⟩
  | ok doc' =>
      rw [hv] at h
      rcases h with ⟨hans, hdoc⟩ | h
      · exact Or.inl ⟨hans, (validateOrRaise_ok.mp hv).1, hdoc⟩
      · exact Or.inr h

theorem storeMachine_silent {op : DaemonOp} {stored stored' : Config} {ans : Except Exc op.Value}
    (hop : usesStore op = false) (h : storeMachine op stored ans stored') : stored' = stored := by
  cases op
  case load => exact absurd hop (by decide)
  case save => exact absurd hop (by simp [usesStore])
  all_goals exact h

theorem storeMachine_any {op : DaemonOp} (hop : usesStore op = false) (stored : Config)
    (ans : Except Exc op.Value) : storeMachine op stored ans stored := by
  cases op
  case load => exact absurd hop (by decide)
  case save => exact absurd hop (by simp [usesStore])
  all_goals rfl

/-- What a store that never fails loads. -/
def loadFrom (stored : Config) : Except Exc Config :=
  validateOrRaise stored (str "the config") id

/-- What a store that never fails answers to a save, and what it has then. -/
def saveOver (doc stored : Config) : Except Exc Unit × Config :=
  match validateOrRaise doc (str "the new config") id with
  | .ok _ => (.ok (), doc)
  | .error e => (.error e, stored)

theorem storeLoad_loadFrom (stored : Config) : storeLoad stored (loadFrom stored) := by
  unfold loadFrom
  cases hv : validateOrRaise stored (str "the config") id with
  | error e => exact Or.inl ⟨e, rfl⟩
  | ok doc =>
      rcases validateOrRaise_ok.mp hv with ⟨hvalid, rfl⟩
      exact Or.inr ⟨hvalid, rfl⟩

theorem storeSave_saveOver (doc stored : Config) :
    storeSave doc stored (saveOver doc stored).1 (saveOver doc stored).2 := by
  unfold storeSave saveOver
  cases validateOrRaise doc (str "the new config") id with
  | error e => exact ⟨rfl, rfl⟩
  | ok doc' => exact Or.inl ⟨rfl, rfl⟩

theorem loadFrom_valid {stored : Config} (h : stored.Valid) : loadFrom stored = .ok stored :=
  validateOrRaise_ok.mpr ⟨h, rfl⟩

theorem saveOver_valid {doc : Config} (h : doc.Valid) (stored : Config) :
    saveOver doc stored = (.ok (), doc) := by
  unfold saveOver
  rw [validateOrRaise_ok.mpr ⟨h, rfl⟩]

/-- A system that does what it is asked, with nobody logged in and nothing
    mounted, and a store that never fails. -/
def obliging : (op : DaemonOp) → Config → Except Exc op.Value × Config
  -- The config is loaded and saved as it is; everything else leaves it.
  | .load, stored => (loadFrom stored, stored)
  | .save doc, stored => saveOver doc stored
  | .unmanagedShares _, stored => (.ok [], stored)
  | .getpwuid _, stored => (.ok none, stored)
  | .getpwnam _, stored => (.ok none, stored)
  | .occupiedMountpoints, stored => (.ok [], stored)
  | .occupant _, stored => (.ok none, stored)
  | .isMounted _, stored => (.ok none, stored)
  | .probeState _, stored => (.ok (str "unknown"), stored)
  | .credentialsExists _, stored => (.ok false, stored)
  | .iterUnits, stored => (.ok [], stored)
  | .readUnit _, stored => (.error (.os (str "no such file")), stored)
  | .smbUrl host share, stored => (.ok (str "smb://" ++ host ++ str "/" ++ share), stored)
  | .credentialSet _ _ _ _, stored => (.ok .created, stored)
  | .agentMount _ _ _ _, stored => (.ok (str "/Volumes/share"), stored)
  | .agentUnmount _ _ _, stored => (.ok false, stored)
  | .agentRelease _ _, stored => (.ok { unmounted := [], left := [] }, stored)
  | .applierApply _, stored => (.ok (), stored)
  | .describeShare _, stored => (.ok (), stored)
  | .ensureMountpoint _, stored => (.ok (), stored)
  | .rmdir _, stored => (.ok (), stored)
  | .credentialsWrite _ _, stored => (.ok (), stored)
  | .credentialsUnlink _, stored => (.ok (), stored)
  | .writeUnit _ _, stored => (.ok (), stored)
  | .unlinkUnit _, stored => (.ok (), stored)
  | .systemctl _, stored => (.ok (), stored)
  | .credentialForget _ _ _, stored => (.ok (), stored)
  | .monitorForget _, stored => (.ok (), stored)

theorem storeMachine_obliging (op : DaemonOp) (stored : Config) :
    storeMachine op stored (obliging op stored).1 (obliging op stored).2 := by
  cases op
  case load => exact ⟨storeLoad_loadFrom stored, rfl⟩
  case save doc => exact storeSave_saveOver doc stored
  all_goals rfl

omit [Unicode] in
theorem performs_silent {op : DaemonOp} (hop : usesStore op = false) :
    Performs (S := daemonSig) (ε := Exc) (fun op => usesStore op = false) (call op) :=
  footprint_call hop fun _ => trivial

end Store

end Smbpal
