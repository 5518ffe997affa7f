import Smbpal.Config.Schema
import Smbpal.Python.Numbers

/-!
# The State of a Connection

`state/machine.py`: what a person is shown about one connection, derived from
the mount table, systemd and the journal, and `state/translate.py`'s reading of
the last two.

A state is one word with a message. The derivation looks at what could explain
the connection in a fixed order, and the first that applies names the state: a
connection that is never mounted by itself, another filesystem at the
mountpoint, the mount itself, and only then the unit and the trigger.

## Main definitions

* `StateWord`: The states.
* `ConnectionState`: What is shown.
* `Cause`: Why a mount failed, and whether trying again could help.
* `translateJournal`: The most recent failure a journal records.
* `derive`: The state.

## Theorems

* `derive_id`, `derive_connected`: What a derived state is about, and when it is
  connected.
* `lastMountError_newline`: No error goes over the end of a line.
-/

namespace Smbpal

/-- The states a connection may be in. -/
inductive StateWord where
  | idle
  | connecting
  | connected
  | reconnecting
  | unreachable
  | unresolved
  | authFailed
  | failed
  | disabled
  | unknown
  deriving DecidableEq

/-- What a person is shown about a connection. -/
structure ConnectionState where
  id : Option Str
  state : StateWord
  message : Str
  errno : Option Nat
  retryable : Bool
  readOnly : Bool
  deriving DecidableEq

/-- Why a mount failed, and whether trying again could ever help. -/
structure Cause where
  state : StateWord
  message : Str
  errno : Option Nat
  retryable : Bool
  deriving DecidableEq

/-- What `systemctl show` says of a unit; a property it does not show reads
    like an empty one. -/
structure UnitShow where
  activeState : Str
  result : Str
  execMainStatus : Str

section Journal

variable [Decimals]

/-- Whether a character matches a lower-case letter of a pattern that ignores
    case. -/
def matchesLetter (p : Char) (c : PyChar) : Bool :=
  decide (asciiLower c = chr p) ||
    decide (p = 'i' ∧ (ord c = 0x130 ∨ ord c = 0x131)) ||
    decide (p = 's' ∧ ord c = 0x17F) || decide (p = 'k' ∧ ord c = 0x212A)

/-- What follows a literal at the head of a string, ignoring case. -/
def afterLiteral : List Char → Str → Option Str
  | [], s => some s
  | p :: ps, c :: s => if matchesLetter p c then afterLiteral ps s else none
  | _ :: _, [] => none

/-- The number at the head of a string that a `)` ends, from the digits read
    so far. -/
def numberBeforeParen : Option Nat → Str → Option Nat
  | _, [] => none
  | read, c :: s =>
      match decimal c with
      | some d => numberBeforeParen (some (read.getD 0 * 10 + d)) s
      | none => if c = chr ')' then read else none

/-- `_MOUNT_ERROR` at the head of a string. -/
def mountErrorAt (s : Str) : Option Nat :=
  match afterLiteral "mount error(".toList s with
  | some rest => numberBeforeParen none rest
  | none => none

/-- The last `_MOUNT_ERROR` of a text. -/
def lastMountError : Str → Option Nat
  | [] => none
  | c :: s =>
      match lastMountError s with
      | some errno => some errno
      | none => mountErrorAt (c :: s)

omit [Decimals] in
/-- `_UNRESOLVED` somewhere in a text. -/
def saysUnresolved : Str → Bool
  | [] => false
  | c :: s =>
      (afterLiteral "could not resolve address".toList (c :: s)).isSome ||
        (afterLiteral "unable to find suitable address".toList (c :: s)).isSome ||
        (afterLiteral "name or service not known".toList (c :: s)).isSome || saysUnresolved s

/-- `_LINUX_MOUNT_ERRNO`: the state, the message, and whether to try again. -/
def linuxMountErrno : Nat → StateWord × Str × Bool
  | 1 => (.authFailed, str "the server refused the credentials", false)
  | 13 => (.authFailed, str "the username or password was refused by the server", false)
  | 2 => (.failed, str ("the server has no share by that name. " ++
      "`smbpal browse HOST --user NAME` lists what it offers"), false)
  | 5 => (.failed, str "the server reported an I/O error", true)
  | 6 => (.failed, str ("the server has no share by that name. " ++
      "`smbpal browse HOST --user NAME` lists what it offers"), false)
  | 101 => (.unreachable, str "the network is unreachable", true)
  | 110 => (.unreachable, str "the server did not answer in time", true)
  | 111 => (.unreachable, str ("the server refused the connection: either SMBPal's sharing is " ++
      "stopped there, or a firewall is blocking it. `smbpal status` on that machine says which"),
      true)
  | 112 => (.unreachable, str "the server is switched off or unreachable", true)
  | 113 => (.unreachable, str "there is no route to the server", true)
  | 115 => (.connecting, str "still connecting", true)
  | errno => (.failed, str "the mount failed with error " ++ digits errno, true)

/-- The cause of an error with a number. -/
def causeOfErrno (errno : Nat) : Cause where
  state := (linuxMountErrno errno).1
  message := (linuxMountErrno errno).2.1
  errno := some errno
  retryable := (linuxMountErrno errno).2.2

/-- The cause of a name that did not resolve. -/
def unresolvedCause : Cause where
  state := .unresolved
  message := str "the server's name could not be resolved"
  errno := none
  retryable := true

/-- `translate_journal`: the last error of the text, or else that a name did
    not resolve. -/
def translateJournal (text : Str) : Option Cause :=
  match lastMountError text with
  | some errno =>
      let known := linuxMountErrno errno
      some
        { state := known.1
          message := known.2.1
          errno := some errno
          retryable := known.2.2 }
  | none =>
      if saysUnresolved text then
        some
          { state := .unresolved
            message := str "the server's name could not be resolved"
            errno := none
            retryable := true }
      else none

/-! ### One line after another -/

omit [Decimals] in
/-- A literal without a line's end does not go over one. -/
theorem afterLiteral_newline {ps : List Char}
    (h : ∀ p ∈ ps, matchesLetter p (chr '\n') = false) (s t : Str) :
    afterLiteral ps (s ++ chr '\n' :: t) = (afterLiteral ps s).map (· ++ chr '\n' :: t) := by
  induction ps generalizing s with
  | nil => rfl
  | cons p ps ih =>
      have hps : ∀ q ∈ ps, matchesLetter q (chr '\n') = false :=
        fun q hq => h q (List.mem_cons_of_mem p hq)
      -- The letters that are left would have to match the line end.
      cases s with
      | nil =>
          change (if matchesLetter p (chr '\n') = true then afterLiteral ps t else none) = none
          rw [h p List.mem_cons_self]
          rfl
      | cons c s =>
          change (if matchesLetter p c = true then afterLiteral ps (s ++ chr '\n' :: t) else none)
            = (if matchesLetter p c = true then afterLiteral ps s else none).map _
          by_cases hc : matchesLetter p c = true
          · rw [if_pos hc, if_pos hc]
            exact ih hps s
          · rw [if_neg hc, if_neg hc]
            rfl

theorem numberBeforeParen_newline (read : Option Nat) (s t : Str) :
    numberBeforeParen read (s ++ chr '\n' :: t) = numberBeforeParen read s := by
  induction s generalizing read with
  | nil =>
      change numberBeforeParen read (chr '\n' :: t) = none
      unfold numberBeforeParen
      rw [Decimals.newline]
      exact if_neg (by decide)
  | cons c s ih =>
      change numberBeforeParen read (c :: (s ++ chr '\n' :: t)) = _
      unfold numberBeforeParen
      cases decimal c with
      | none => rfl
      | some d => exact ih _

theorem mountErrorAt_newline (s t : Str) :
    mountErrorAt (s ++ chr '\n' :: t) = mountErrorAt s := by
  have hall : ("mount error(".toList.all fun p => !matchesLetter p (chr '\n')) = true := by decide
  have hplain : ∀ p ∈ "mount error(".toList, matchesLetter p (chr '\n') = false := fun p hp =>
    (Bool.not_eq_true' _).mp (List.all_eq_true.mp hall p hp)
  unfold mountErrorAt
  rw [afterLiteral_newline hplain]
  cases afterLiteral "mount error(".toList s with
  | none => rfl
  | some rest => exact numberBeforeParen_newline none rest t

/-- The last error of two pieces of text, of which the first ends a line. -/
theorem lastMountError_newline (s t : Str) :
    lastMountError (s ++ chr '\n' :: t) = (lastMountError t).or (lastMountError s) := by
  induction s with
  | nil =>
      have hnone : mountErrorAt (chr '\n' :: t) = none := mountErrorAt_newline [] t
      change lastMountError (chr '\n' :: t) = (lastMountError t).or none
      rw [lastMountError, hnone, Option.or_none]
      cases lastMountError t with
      | none => rfl
      | some errno => rfl
  | cons c s ih =>
      change lastMountError (c :: (s ++ chr '\n' :: t)) = _
      -- No error number goes over the end of a line.
      have hat : mountErrorAt (c :: (s ++ chr '\n' :: t)) = mountErrorAt (c :: s) :=
        mountErrorAt_newline (c :: s) t
      rw [lastMountError, ih, hat, lastMountError]
      cases lastMountError t with
      | some errno => rfl
      | none =>
          cases lastMountError s with
          | some errno => rfl
          | none => rfl

end Journal

/-- `describe_exit`. -/
def describeExit (status : Str) : Str :=
  if status = [] ∨ status = str "0" then
    str "the mount failed for a reason not recorded in its journal"
  else
    str "the mount command exited with status " ++ status ++
      if status = str "32" then str " (mount(8) reports a generic failure)" else []

/-- `_latched`: a message, and that systemd has given up. -/
def latched (message : Str) (id : Option Str) : Str :=
  message ++ str (". systemd has stopped retrying after repeated failures, so " ++
    "nothing will happen on access until it is cleared — run ") ++
    str "`smbpal connection connect " ++ pyStr id ++ str "`"

/-- A connection in a state that needs no more to be said of it. -/
def ConnectionState.plain (id : Option Str) (state : StateWord) (message : Str) :
    ConnectionState :=
  { id := id
    state := state
    message := message
    errno := none
    retryable := false
    readOnly := false }

/-- Whether `systemctl show` says that the unit failed. -/
def UnitShow.hasFailed (unit : UnitShow) : Bool :=
  decide (unit.activeState = str "failed") ||
    decide (unit.result ≠ [] ∧ unit.result ≠ str "success")

/-- The word for a failure's cause. What systemd has given up on is not
    reconnecting. -/
def stateOfCause (cause : Cause) (gaveUp : Bool) : StateWord :=
  let word := if cause.retryable ∧ cause.state = .failed then .reconnecting else cause.state
  if gaveUp then (if word = .authFailed then .authFailed else .failed) else word

/-- The state of a connection whose unit failed. -/
def failureState (id : Option Str) (unit : UnitShow) (cause : Option Cause) : ConnectionState :=
  let gaveUp := decide (unit.result = str "start-limit-hit")
  match cause with
  | some cause =>
      { id := id
        state := stateOfCause cause gaveUp
        message := if gaveUp then latched cause.message id else cause.message
        errno := cause.errno
        retryable := if gaveUp then false else cause.retryable
        readOnly := false }
  | none =>
      let message := describeExit unit.execMainStatus
      { id := id
        state := .failed
        message := if gaveUp then latched message id else message
        errno := none
        retryable := !gaveUp
        readOnly := false }

/-- The state of a connection that is mounted. -/
def mountedState (id : Option Str) (readOnly serverAnswering : Option Bool) : ConnectionState :=
  if serverAnswering = some false then
    { id := id
      state := .unreachable
      message := str ("still mounted, but the server has stopped answering — files " ++
        "will fail until it comes back")
      errno := none
      retryable := true
      readOnly := readOnly.getD false }
  else if readOnly = some true then
    { ConnectionState.plain id .connected (str "mounted read-only — writes will be refused") with
      readOnly := true }
  else .plain id .connected (str "mounted")

/-- `derive`. -/
def derive (c : Connection) (mounted : Option Bool) (unit : Option UnitShow)
    (cause : Option Cause) (armed readOnly : Option Bool) (occupiedBy : Option Str)
    (serverAnswering : Option Bool) : ConnectionState :=
  if c.autoConnect = some (str "never") then
    .plain c.id .disabled (str "not connected automatically")
  else
    match occupiedBy with
    | some occupant =>
        .plain c.id .failed (occupant ++ str " is mounted at " ++ pyStr c.mountpoint ++
          str (" and it is not this share. SMBPal will not mount on top of it, because that " ++
            "would hide it until the unmount"))
    | none =>
        -- A mounted share says so before its unit is asked.
        if mounted = some true then mountedState c.id readOnly serverAnswering
        else
          match unit with
          | none => .plain c.id .unknown (str "no information about the unit")
          | some unit =>
              if unit.activeState = str "activating" then
                { ConnectionState.plain c.id .connecting (str "mounting") with retryable := true }
              else if unit.hasFailed then failureState c.id unit cause
              else if armed = some false then
                .plain c.id .failed (str ("the automount is not running, so nothing will mount " ++
                  "on access — try `smbpal apply`"))
              else .plain c.id .idle (str "ready; it will mount on first access")

theorem failureState_id (id : Option Str) (unit : UnitShow) (cause : Option Cause) :
    (failureState id unit cause).id = id := by
  cases cause with
  | none => rfl
  | some cause => rfl

theorem mountedState_id (id : Option Str) (readOnly serverAnswering : Option Bool) :
    (mountedState id readOnly serverAnswering).id = id := by
  unfold mountedState
  split
  · rfl
  · split
    · rfl
    · rfl

/-- A state is about the connection it was derived for. -/
theorem derive_id (c : Connection) (mounted : Option Bool) (unit : Option UnitShow)
    (cause : Option Cause) (armed readOnly : Option Bool) (occupiedBy : Option Str)
    (serverAnswering : Option Bool) :
    (derive c mounted unit cause armed readOnly occupiedBy serverAnswering).id = c.id := by
  unfold derive
  split
  · rfl
  · cases occupiedBy with
    | some occupant => rfl
    | none =>
        dsimp only
        split
        · exact mountedState_id ..
        · cases unit with
          | none => rfl
          | some unit =>
              dsimp only
              split
              · rfl
              · split
                · exact failureState_id ..
                · split
                  · rfl
                  · rfl

/-- A share that is mounted, not held by anything else, and not one that is
    never mounted by itself, is connected unless its server is known not to
    answer. -/
theorem derive_connected {c : Connection} (hauto : c.autoConnect ≠ some (str "never"))
    {serverAnswering : Option Bool} (hanswers : serverAnswering ≠ some false)
    (unit : Option UnitShow) (cause : Option Cause) (armed readOnly : Option Bool) :
    (derive c (some true) unit cause armed readOnly none serverAnswering).state = .connected := by
  unfold derive mountedState
  rw [if_neg hauto]
  dsimp only
  rw [if_pos rfl, if_neg hanswers]
  split
  · rfl
  · rfl

end Smbpal
