import Smbpal.Python.Dumps
import Smbpal.State.Monitor

/-!
# What the Words of a State Tell

A poll tells of a connection when its state or its message is another than before, and what is
shown of it is more: an error number, whether to try again, whether the mount is read-only. For
most derived states the message says all of that. Two do not. A share that is still mounted
while its server does not answer has one message whether its mount is read-only or not, and the
errors 2 and 6 of a mount share one.

## Main definitions

* `Reading`: What a turn reads of a connection.
* `Derived`: A state that was derived for the connection with an id.
* `FlipsReadOnly`, `OtherErrno`: A reading whose state has the words of another one.

## Theorems

* `Reading.cases`: The state, and what of the reading it is from.
* `failure_words_eq`: Failures with one message.
* `words_tell_iff`: When the words of a state tell all of it.
-/

namespace Smbpal

/-- What a turn reads of a connection. -/
structure Reading where
  mounted : Option Bool
  unit : Option UnitShow
  cause : Option Cause
  armed : Option Bool
  readOnly : Option Bool
  occupiedBy : Option Str
  serverAnswering : Option Bool

/-- The state derived from it. -/
def Reading.state (r : Reading) (c : Connection) : ConnectionState :=
  derive c r.mounted r.unit r.cause r.armed r.readOnly r.occupiedBy r.serverAnswering

/-- A cause that `translate_journal` finds. -/
def Cause.IsFound (cause : Cause) : Prop :=
  (∃ errno, cause = causeOfErrno errno) ∨ cause = unresolvedCause

theorem translateJournal_found [Decimals] {text : Str} {cause : Cause}
    (h : translateJournal text = some cause) : cause.IsFound := by
  unfold translateJournal at h
  cases herror : lastMountError text with
  | some errno =>
      rw [herror] at h
      exact Or.inl ⟨errno, (Option.some.inj h).symm⟩
  | none =>
      rw [herror] at h
      dsimp only at h
      split_ifs at h
      exact Or.inr (Option.some.inj h).symm

/-- The status is a number, as systemd shows it, and the cause is one from a journal. -/
structure Reading.Plausible (r : Reading) : Prop where
  status : ∀ unit, r.unit = some unit → unit.execMainStatus.all isDigit = true
  cause : ∀ cause, r.cause = some cause → cause.IsFound

/-- systemd has given up on the unit. -/
def UnitShow.gaveUp (unit : UnitShow) : Bool :=
  decide (unit.result = str "start-limit-hit")

/-- Why a mount failed, in words. -/
def failureWords (unit : UnitShow) : Option Cause → Str
  | some cause => cause.message
  | none => describeExit unit.execMainStatus

/-- The state of a mount whose server has gone. -/
def silentState (id : Option Str) (readOnly : Bool) : ConnectionState :=
  mountedState id (some readOnly) (some false)

/-- The state of a connection at whose mountpoint something else is. -/
def occupiedState (id : Option Str) (occupant mountpoint : Str) : ConnectionState :=
  .plain id .failed (occupant ++ str " is mounted at " ++ mountpoint ++
    str (" and it is not this share. SMBPal will not mount on top of it, because that " ++
      "would hide it until the unmount"))

/-- The states with a text of their own. -/
inductive CalmState where
  | never
  | mounted
  | mountedReadOnly
  | noUnit
  | mounting
  | unarmed
  | ready
  deriving DecidableEq

/-- The state. -/
def CalmState.state (id : Option Str) : CalmState → ConnectionState
  | .never => .plain id .disabled (str "not connected automatically")
  | .mounted => mountedState id none none
  | .mountedReadOnly => mountedState id (some true) none
  | .noUnit => .plain id .unknown (str "no information about the unit")
  | .mounting =>
      { ConnectionState.plain id .connecting (str "mounting") with retryable := true }
  | .unarmed =>
      .plain id .failed (str ("the automount is not running, so nothing will mount " ++
        "on access — try `smbpal apply`"))
  | .ready => .plain id .idle (str "ready; it will mount on first access")

/-- The reading says that the share is mounted and its server gone. -/
structure Reading.StillMounted (c : Connection) (r : Reading) : Prop where
  automatic : c.autoConnect ≠ some (str "never")
  own : r.occupiedBy = none
  mounted : r.mounted = some true
  gone : r.serverAnswering = some false

/-- The reading says that the unit failed to mount the share. -/
structure Reading.Fails (c : Connection) (unit : UnitShow) (r : Reading) : Prop where
  automatic : c.autoConnect ≠ some (str "never")
  own : r.occupiedBy = none
  unmounted : r.mounted ≠ some true
  shown : r.unit = some unit
  settled : unit.activeState ≠ str "activating"
  failed : unit.hasFailed = true

/-- The state, and what of the reading it is from. -/
theorem Reading.cases (r : Reading) (c : Connection) :
    (∃ k : CalmState, r.state c = k.state c.id) ∨
      (∃ occupant mountpoint, r.state c = occupiedState c.id occupant mountpoint) ∨
      (r.StillMounted c ∧ r.state c = silentState c.id (r.readOnly.getD false)) ∨
      ∃ unit, r.Fails c unit ∧ r.state c = failureState c.id unit r.cause := by
  unfold Reading.state derive
  -- The branches are the source's, in its order.
  by_cases hnever : c.autoConnect = some (str "never")
  · rw [if_pos hnever]
    exact Or.inl ⟨.never, rfl⟩
  · rw [if_neg hnever]
    cases hown : r.occupiedBy with
    | some occupant => exact Or.inr (Or.inl ⟨occupant, pyStr c.mountpoint, rfl⟩)
    | none =>
        dsimp only
        by_cases hmounted : r.mounted = some true
        · rw [if_pos hmounted]
          by_cases hgone : r.serverAnswering = some false
          · refine Or.inr (Or.inr (Or.inl ⟨⟨hnever, hown, hmounted, hgone⟩, ?_⟩))
            unfold silentState mountedState
            rw [if_pos hgone, if_pos rfl]
            rfl
          · left
            by_cases hro : r.readOnly = some true
            · refine ⟨.mountedReadOnly, ?_⟩
              unfold CalmState.state mountedState
              rw [if_neg hgone, if_pos hro]
              rfl
            · refine ⟨.mounted, ?_⟩
              unfold CalmState.state mountedState
              rw [if_neg hgone, if_neg hro]
              rfl
        · rw [if_neg hmounted]
          cases hshown : r.unit with
          | none => exact Or.inl ⟨.noUnit, rfl⟩
          | some unit =>
              dsimp only
              by_cases hover : unit.activeState = str "activating"
              · rw [if_pos hover]
                exact Or.inl ⟨.mounting, rfl⟩
              · rw [if_neg hover]
                by_cases hfailed : unit.hasFailed = true
                · rw [if_pos hfailed]
                  exact Or.inr (Or.inr (Or.inr
                    ⟨unit, ⟨hnever, hown, hmounted, hshown, hover, hfailed⟩, rfl⟩))
                · rw [if_neg hfailed]
                  left
                  by_cases harmed : r.armed = some false
                  · rw [if_pos harmed]
                    exact ⟨.unarmed, rfl⟩
                  · rw [if_neg harmed]
                    exact ⟨.ready, rfl⟩

/-- A state that was derived for the connection with this id. -/
inductive Derived (id : Option Str) : ConnectionState → Prop where
  | calm (k : CalmState) : Derived id (k.state id)
  | occupied (occupant mountpoint : Str) : Derived id (occupiedState id occupant mountpoint)
  | gone (readOnly : Bool) : Derived id (silentState id readOnly)
  | failure (unit : UnitShow) (cause : Option Cause)
      (status : unit.execMainStatus.all isDigit = true)
      (found : ∀ known, cause = some known → known.IsFound) :
      Derived id (failureState id unit cause)

theorem Reading.Plausible.derived {r : Reading} (h : r.Plausible) (c : Connection) :
    Derived c.id (r.state c) := by
  rcases r.cases c with ⟨k, hk⟩ | ⟨occupant, mountpoint, hocc⟩ | ⟨-, hgone⟩ | ⟨unit, hfails, hf⟩
  · exact hk ▸ .calm k
  · exact hocc ▸ .occupied occupant mountpoint
  · exact hgone ▸ .gone _
  · exact hf ▸ .failure unit r.cause (h.status unit hfails.shown) h.cause

/-! ### What a message starts and ends with -/

section Texts

/-- The errors with a text of their own. -/
def knownErrnos : List Nat :=
  [1, 13, 2, 5, 6, 101, 110, 111, 112, 113, 115]

theorem linuxMountErrno_of_not_mem {errno : Nat} (h : errno ∉ knownErrnos) :
    linuxMountErrno errno = (.failed, str "the mount failed with error " ++
    digits errno, true) := by
  have hne : ∀ known ∈ knownErrnos, errno ≠ known := fun known hknown heq => h (heq ▸ hknown)
  unfold knownErrnos at hne
  simp only [List.forall_mem_cons] at hne
  unfold linuxMountErrno
  split
  all_goals first
    | rfl
    | omega

/-- What the words of a failure start with. -/
def failureStarts : List Str :=
  [str "the ser", str "the use", str "the net", str "there i", str "still c", str "the mou"]

/-- The words of a failure, by how they start and end. -/
structure IsFailureText (s : Str) : Prop where
  start : s.take 7 ∈ failureStarts
  last : ∀ c, s.getLast? = some c → c ≠ chr '`' ∧ c ≠ chr 't'

/-- A text that ends in digits ends in one. -/
theorem last_append_digits {s number : Str} (hne : number ≠ [])
    (hdigits : number.all isDigit = true) {c : PyChar} (h : (s ++ number).getLast? = some c) :
    c ≠ chr '`' ∧ c ≠ chr 't' := by
  rw [List.getLast?_append_of_ne_nil s hne] at h
  have hdigit : isDigit c = true := List.all_eq_true.mp hdigits c (List.mem_of_getLast? h)
  constructor
  · rintro rfl
    exact absurd hdigit (by decide)
  · rintro rfl
    exact absurd hdigit (by decide)

theorem mount_start : str "the mou" ∈ failureStarts := by
  decide

/-- What the texts of the known errors start and end with, and that they differ. -/
theorem known_texts {m : Nat} (hm : m ∈ knownErrnos) :
    ((linuxMountErrno m).2.1.take 7 ∈ failureStarts ∧
      (linuxMountErrno m).2.1.take 7 ≠ str "the mou" ∧
      (linuxMountErrno m).2.1.take 12 ≠ str "the server's" ∧
      (linuxMountErrno m).2.1.getLast?.all (fun c => decide (c ≠ chr '`' ∧ c ≠ chr 't')) = true) ∧
    ∀ n ∈ knownErrnos, m = n ∨ (m = 2 ∧ n = 6) ∨ (m = 6 ∧ n = 2) ∨
      (linuxMountErrno m).2.1 ≠ (linuxMountErrno n).2.1 := by
  revert m
  decide +kernel

theorem failureText_errno (errno : Nat) : IsFailureText (causeOfErrno errno).message := by
  change IsFailureText (linuxMountErrno errno).2.1
  by_cases hknown : errno ∈ knownErrnos
  · rcases known_texts hknown with ⟨⟨hstart, -, -, hlast⟩, -⟩
    refine ⟨hstart, fun c hc => ?_⟩
    rw [hc] at hlast
    exact of_decide_eq_true hlast
  · rw [linuxMountErrno_of_not_mem hknown]
    refine ⟨mount_start, fun c hc => last_append_digits (digits_ne_nil errno) ?_ hc⟩
    exact List.all_eq_true.mpr fun d hd => isDigit_of_mem_digits hd

theorem failureText_exit {status : Str} (h : status.all isDigit = true) :
    IsFailureText (describeExit status) := by
  unfold describeExit
  split_ifs with hzero hgeneric
  · exact ⟨by decide, fun c hc => by
      rw [← Option.some.inj hc]
      decide⟩
  · rw [hgeneric]
    exact ⟨by decide, fun c hc => by
      rw [← Option.some.inj hc]
      decide⟩
  · rw [List.append_nil]
    exact ⟨mount_start, fun c hc => last_append_digits (fun hnil => hzero (Or.inl hnil)) h hc⟩

theorem failureText_words {unit : UnitShow} {cause : Option Cause}
    (hstatus : unit.execMainStatus.all isDigit = true)
    (hfound : ∀ known, cause = some known → known.IsFound) :
    IsFailureText (failureWords unit cause) := by
  cases cause with
  | none => exact failureText_exit hstatus
  | some known =>
      rcases hfound known rfl with ⟨errno, rfl⟩ | rfl
      · exact failureText_errno errno
      · have hstart : unresolvedCause.message.take 7 ∈ failureStarts := by decide
        exact ⟨hstart, fun c hc => by
          rw [← Option.some.inj hc]
          decide⟩

/-- Two numbers with one text: the same, or those of a share there is none of. -/
theorem errno_of_message_eq {m n : Nat} (h : (causeOfErrno m).message = (causeOfErrno n).message) :
    m = n ∨ (m = 2 ∧ n = 6) ∨ (m = 6 ∧ n = 2) := by
  -- A known number has words that no other number has.
  have hdiffer : ∀ {known other : Nat}, known ∈ knownErrnos → other ∉ knownErrnos →
      (linuxMountErrno known).2.1 ≠ (linuxMountErrno other).2.1 := by
    intro known other hin hout heq
    rw [linuxMountErrno_of_not_mem hout] at heq
    refine (known_texts hin).1.2.1 ?_
    rw [heq]
    rfl
  have heq : (linuxMountErrno m).2.1 = (linuxMountErrno n).2.1 := h
  by_cases hm : m ∈ knownErrnos
  · by_cases hn : n ∈ knownErrnos
    · rcases (known_texts hm).2 n hn with hsame | hother | hother | hne
      · exact Or.inl hsame
      · exact Or.inr (Or.inl hother)
      · exact Or.inr (Or.inr hother)
      · exact absurd heq hne
    · exact absurd heq (hdiffer hm hn)
  · by_cases hn : n ∈ knownErrnos
    · exact absurd heq.symm (hdiffer hn hm)
    · rw [linuxMountErrno_of_not_mem hm, linuxMountErrno_of_not_mem hn] at heq
      exact Or.inl (digits_injective (List.append_cancel_left heq))

/-- An exit status is told in other words than a cause. -/
theorem exit_ne_cause {status : Str} {known : Cause} (h : known.IsFound) :
    describeExit status ≠ known.message := by
  -- The first words tell an exit status from every cause the journal gives.
  have hexit : (describeExit status).take 18 = str "the mount failed f" ∨
      (describeExit status).take 18 = str "the mount command " := by
    unfold describeExit
    split_ifs
    all_goals first
      | exact Or.inl rfl
      | exact Or.inr rfl
  have hmount : (describeExit status).take 7 = str "the mou" := by
    have htake : (describeExit status).take 7 = ((describeExit status).take 18).take 7 := by
      rw [List.take_take]
      rfl
    rw [htake]
    rcases hexit with h18 | h18
    · rw [h18]
      decide
    · rw [h18]
      decide
  intro heq
  rcases h with ⟨errno, rfl⟩ | rfl
  · have hmessage : describeExit status = (linuxMountErrno errno).2.1 := heq
    by_cases hknown : errno ∈ knownErrnos
    · rw [hmessage] at hmount
      exact (known_texts hknown).1.2.1 hmount
    · rw [hmessage, linuxMountErrno_of_not_mem hknown] at hexit
      have hstart : (str "the mount failed with error " ++ digits errno).take 18 =
          str "the mount failed w" := rfl
      rw [hstart] at hexit
      exact absurd hexit (by decide)
  · rw [heq] at hmount
    exact absurd hmount (by decide)

theorem unresolved_ne_errno (errno : Nat) :
    unresolvedCause.message ≠ (causeOfErrno errno).message := by
  intro heq
  have hstart : (linuxMountErrno errno).2.1.take 12 = str "the server's" :=
    congrArg (List.take 12) heq.symm
  by_cases hknown : errno ∈ knownErrnos
  · exact (known_texts hknown).1.2.2.1 hstart
  · rw [linuxMountErrno_of_not_mem hknown] at hstart
    have hmount : (str "the mount failed with error " ++ digits errno).take 12 =
        str "the mount fa" := rfl
    rw [hmount] at hstart
    exact absurd hstart (by decide)

end Texts

/-! ### One message -/

section Words

variable {id : Option Str}

theorem failureState_message (id : Option Str) (unit : UnitShow) (cause : Option Cause) :
    (failureState id unit cause).message =
      if unit.gaveUp then latched (failureWords unit cause) id else failureWords unit cause := by
  cases cause with
  | none => rfl
  | some known => rfl

/-- A failure's state is from the cause and whether systemd has given up. -/
theorem failureState_congr {unit other : UnitShow} {known : Cause}
    (h : unit.gaveUp = other.gaveUp) :
    failureState id unit (some known) = failureState id other (some known) := by
  change ConnectionState.mk id (stateOfCause known unit.gaveUp)
    (if unit.gaveUp then latched known.message id else known.message) known.errno
    (if unit.gaveUp then false else known.retryable) false = _
  rw [h]
  rfl

theorem latched_last (message : Str) (id : Option Str) :
    (latched message id).getLast? = some (chr '`') :=
  List.getLast?_append_of_ne_nil _ (List.cons_ne_nil _ _)

theorem latched_take {message : Str} (h : message.take 7 ∈ failureStarts) :
    (latched message id).take 7 = message.take 7 := by
  have hlength : 7 ≤ message.length := by
    have hall : (failureStarts.all fun start => decide (start.length = 7)) = true := by decide
    have h7 := of_decide_eq_true (List.all_eq_true.mp hall _ h)
    rw [List.length_take] at h7
    omega
  unfold latched
  simp only [List.append_assoc]
  exact List.take_append_of_le_length hlength

/-- What a failure's message starts with. -/
theorem failure_start {unit : UnitShow} {cause : Option Cause}
    (h : IsFailureText (failureWords unit cause)) :
    (failureState id unit cause).message.take 7 ∈ failureStarts := by
  rw [failureState_message]
  by_cases hgave : unit.gaveUp = true
  · rw [if_pos hgave, latched_take h.start]
    exact h.start
  · rw [if_neg hgave]
    exact h.start

/-- What a failure's message ends with says whether systemd has given up. -/
theorem failure_last {unit : UnitShow} {cause : Option Cause}
    (h : IsFailureText (failureWords unit cause)) :
    (unit.gaveUp = true → (failureState id unit cause).message.getLast? = some (chr '`')) ∧
      (unit.gaveUp = false → ∀ c, (failureState id unit cause).message.getLast? = some c →
        c ≠ chr '`' ∧ c ≠ chr 't') := by
  rw [failureState_message]
  constructor
  · intro hgave
    rw [if_pos hgave]
    exact latched_last _ id
  · intro hgave
    rw [hgave]
    exact h.last

theorem occupied_ends (occupant mountpoint : Str) :
    (occupiedState id occupant mountpoint).message.reverse.take 2 = [chr 't', chr 'n'] := by
  change (occupant ++ str " is mounted at " ++ mountpoint ++
    str (" and it is not this share. SMBPal will not mount on top of it, because that " ++
      "would hide it until the unmount")).reverse.take 2 = _
  rw [List.reverse_append]
  rfl

theorem occupied_last (occupant mountpoint : Str) :
    (occupiedState id occupant mountpoint).message.getLast? = some (chr 't') :=
  List.getLast?_append_of_ne_nil _ (by decide)

theorem calm_message (id : Option Str) (k : CalmState) :
    (k.state id).message = (k.state none).message := by
  cases k
  all_goals rfl

/-- All of them. -/
def calmStates : List CalmState :=
  [.never, .mounted, .mountedReadOnly, .noUnit, .mounting, .unarmed, .ready]

/-- What their texts start and end with, and that they differ. -/
theorem calm_texts : ∀ k ∈ calmStates,
    ((k.state none).message.take 7 ∉ failureStarts ∧
      (k.state none).message.take 7 ≠ str "still m" ∧
      (k.state none).message.reverse.take 2 ≠ [chr 't', chr 'n']) ∧
    ∀ other ∈ calmStates, k = other ∨ (k.state none).message ≠ (other.state none).message := by
  decide +kernel

theorem mem_calmStates (k : CalmState) : k ∈ calmStates := by
  cases k
  all_goals decide

theorem calm_text (k : CalmState) : (k.state id).message.take 7 ∉ failureStarts ∧
    (k.state id).message.take 7 ≠ str "still m" ∧
    (k.state id).message.reverse.take 2 ≠ [chr 't', chr 'n'] :=
  calm_message id k ▸ (calm_texts k (mem_calmStates k)).1

theorem gone_start (readOnly : Bool) : (silentState id readOnly).message.take 7 = str "still m" :=
  rfl

theorem gone_ends (readOnly : Bool) :
    (silentState id readOnly).message.reverse.take 2 ≠ [chr 't', chr 'n'] := by
  change (silentState none false).message.reverse.take 2 ≠ _
  decide

theorem still_not_failure : str "still m" ∉ failureStarts := by
  decide

/-! ### No two kinds of state have one message -/

variable {unit : UnitShow} {cause : Option Cause}

theorem calm_ne_occupied (k : CalmState) (occupant mountpoint : Str) :
    (k.state id).message ≠ (occupiedState id occupant mountpoint).message := fun h =>
  (calm_text k).2.2 ((congrArg (fun text : Str => text.reverse.take 2) h).trans
    (occupied_ends occupant mountpoint))

theorem calm_ne_gone (k : CalmState) (readOnly : Bool) :
    (k.state id).message ≠ (silentState id readOnly).message := fun h =>
  (calm_text k).2.1 (congrArg (List.take 7) h)

theorem calm_ne_failure (k : CalmState) (h : IsFailureText (failureWords unit cause)) :
    (k.state id).message ≠ (failureState id unit cause).message := fun heq =>
  (calm_text k).1 (congrArg (List.take 7) heq ▸ failure_start h)

theorem gone_ne_occupied (readOnly : Bool) (occupant mountpoint : Str) :
    (silentState id readOnly).message ≠ (occupiedState id occupant mountpoint).message := fun h =>
  gone_ends readOnly ((congrArg (fun text : Str => text.reverse.take 2) h).trans
    (occupied_ends occupant mountpoint))

theorem gone_ne_failure (readOnly : Bool) (h : IsFailureText (failureWords unit cause)) :
    (silentState id readOnly).message ≠ (failureState id unit cause).message := by
  intro heq
  have hstart : (failureState id unit cause).message.take 7 ∈ failureStarts := failure_start h
  rw [← heq, gone_start] at hstart
  exact still_not_failure hstart

theorem occupied_ne_failure (occupant mountpoint : Str)
    (h : IsFailureText (failureWords unit cause)) :
    (occupiedState id occupant mountpoint).message ≠ (failureState id unit cause).message := by
  intro heq
  have hlast : (failureState id unit cause).message.getLast? = some (chr 't') :=
    heq ▸ occupied_last occupant mountpoint
  by_cases hgave : unit.gaveUp = true
  · rw [(failure_last h).1 hgave] at hlast
    exact absurd (Option.some.inj hlast) (by decide)
  · exact ((failure_last h).2 (Bool.not_eq_true _ ▸ hgave) _ hlast).2 rfl

theorem calm_inj {k other : CalmState}
    (h : (k.state id).message = (other.state id).message) : k = other := by
  rw [calm_message id k, calm_message id other] at h
  exact ((calm_texts k (mem_calmStates k)).2 other (mem_calmStates other)).resolve_right
    (not_not.mpr h)

/-- Two failures with one message: systemd has given up on both or on neither, and what went
    wrong is told in the same words. -/
theorem failure_words_eq {other : UnitShow} {cause' : Option Cause}
    (h : IsFailureText (failureWords unit cause)) (h' : IsFailureText (failureWords other cause'))
    (heq : (failureState id unit cause).message = (failureState id other cause').message) :
    unit.gaveUp = other.gaveUp ∧ failureWords unit cause = failureWords other cause' := by
  -- Only a unit that gave up ends with the backquote.
  have hgave : unit.gaveUp = other.gaveUp := by
    cases hu : unit.gaveUp with
    | true =>
        cases ho : other.gaveUp with
        | true => rfl
        | false =>
            have hlast : (failureState id unit cause).message.getLast? = some (chr '`') :=
              (failure_last h).1 hu
            exact absurd rfl ((failure_last h').2 ho _ (heq ▸ hlast)).1
    | false =>
        cases ho : other.gaveUp with
        | true =>
            have hlast : (failureState id other cause').message.getLast? = some (chr '`') :=
              (failure_last h').1 ho
            exact absurd rfl ((failure_last h).2 hu _ (heq ▸ hlast)).1
        | false => rfl
  refine ⟨hgave, ?_⟩
  rw [failureState_message, failureState_message, hgave] at heq
  by_cases ho : other.gaveUp = true
  · rw [if_pos ho, if_pos ho] at heq
    unfold latched at heq
    simp only [List.append_assoc] at heq
    exact List.append_cancel_right heq
  · rw [if_neg ho, if_neg ho] at heq
    exact heq

end Words

/-! ### When the words tell all -/

/-- The mount is as it was but for its being read-only. -/
def FlipsReadOnly (before : ConnectionState) (c : Connection) (r : Reading) : Prop :=
  r.StillMounted c ∧ before = silentState c.id (!r.readOnly.getD false)

/-- There was no such share, which the kernel said with the other of two numbers. -/
def OtherErrno (before : ConnectionState) (c : Connection) (r : Reading) : Prop :=
  ∃ unit m n, r.Fails c unit ∧ ((m = 2 ∧ n = 6) ∨ (m = 6 ∧ n = 2)) ∧
    r.cause = some (causeOfErrno n) ∧ before = failureState c.id unit (some (causeOfErrno m))

section Tell

variable {c : Connection} {r : Reading} {before : ConnectionState}

theorem Reading.StillMounted.state_eq (h : r.StillMounted c) :
    r.state c = silentState c.id (r.readOnly.getD false) := by
  unfold Reading.state derive
  rw [if_neg h.automatic, h.own]
  dsimp only
  rw [if_pos h.mounted]
  unfold silentState mountedState
  rw [if_pos h.gone, if_pos rfl]
  rfl

theorem Reading.Fails.state_eq {unit : UnitShow} (h : r.Fails c unit) :
    r.state c = failureState c.id unit r.cause := by
  unfold Reading.state derive
  rw [if_neg h.automatic, h.own]
  dsimp only
  rw [if_neg h.unmounted, h.shown]
  dsimp only
  rw [if_neg h.settled, if_pos h.failed]

theorem not_told_of_flips (h : FlipsReadOnly before c r) : before ≠ r.state c := by
  rw [h.1.state_eq, h.2]
  intro heq
  have hro : (!r.readOnly.getD false) = r.readOnly.getD false :=
    congrArg ConnectionState.readOnly heq
  exact absurd hro (Bool.not_ne_self _)

theorem not_told_of_errno (h : OtherErrno before c r) : before ≠ r.state c := by
  rcases h with ⟨unit, m, n, hfails, hmn, hcause, rfl⟩
  rw [hfails.state_eq, hcause]
  intro heq
  have herrno : some m = some n := congrArg ConnectionState.errno heq
  have hsame : m = n := Option.some.inj herrno
  omega

/-- Where a failure's message is that of a state before, that one is of the same failure, or of
    the other of two numbers. -/
theorem failure_told {unit : UnitShow} (hfails : r.Fails c unit) (hr : r.Plausible)
    (hbefore : Derived c.id before) (hmessage : before.message = (r.state c).message) :
    before = r.state c ∨ OtherErrno before c r := by
  have htext := failureText_words (hr.status unit hfails.shown) hr.cause
  rw [hfails.state_eq] at hmessage ⊢
  cases hbefore with
  | calm k => exact absurd hmessage (calm_ne_failure k htext)
  | occupied occupant mountpoint =>
      exact absurd hmessage (occupied_ne_failure occupant mountpoint htext)
  | gone readOnly => exact absurd hmessage (gone_ne_failure readOnly htext)
  | failure other cause hstatus hfound =>
      rcases failure_words_eq (failureText_words hstatus hfound) htext hmessage
        with ⟨hgave, hwords⟩
      -- A cause and none never say the same, and two causes do by one errno each.
      cases cause with
      | none =>
          cases hcause : r.cause with
          | none =>
              left
              rw [hcause] at hwords
              unfold failureState
              dsimp only
              rw [show describeExit other.execMainStatus = describeExit unit.execMainStatus
                from hwords, show decide (other.result = str "start-limit-hit") = _ from hgave]
              rfl
          | some known =>
              rw [hcause] at hwords
              exact absurd hwords (exit_ne_cause (hr.cause known hcause))
      | some known =>
          cases hcause : r.cause with
          | none =>
              rw [hcause] at hwords
              exact absurd hwords.symm (exit_ne_cause (hfound known rfl))
          | some now =>
              rw [hcause] at hwords
              have hmessages : known.message = now.message := hwords
              rw [failureState_congr hgave]
              rcases hfound known rfl with ⟨m, rfl⟩ | rfl
              · rcases hr.cause now hcause with ⟨n, rfl⟩ | rfl
                · rcases errno_of_message_eq hmessages with rfl | hmn
                  · exact Or.inl rfl
                  · exact Or.inr ⟨unit, m, n, hfails, hmn, hcause, rfl⟩
                · exact absurd hmessages.symm (unresolved_ne_errno m)
              · rcases hr.cause now hcause with ⟨n, rfl⟩ | rfl
                · exact absurd hmessages (unresolved_ne_errno n)
                · exact Or.inl rfl

/-- Where a state and its message are as before, so is the rest of it exactly when the mount is
    not still mounted and read-only another way, and no other number says that there is no such
    share. -/
theorem words_tell_iff (hbefore : Derived c.id before) (hr : r.Plausible)
    (hsame : differs before (r.state c) = false) :
    before = r.state c ↔ ¬FlipsReadOnly before c r ∧ ¬OtherErrno before c r := by
  have hmessage : before.message = (r.state c).message :=
    (Prod.mk.inj (not_not.mp (of_decide_eq_false hsame))).2
  constructor
  · exact fun h => ⟨fun hflips => not_told_of_flips hflips h, fun hno => not_told_of_errno hno h⟩
  · rintro ⟨hflips, hno⟩
    -- Each kind of state has words no other kind has.
    rcases r.cases c with ⟨k, hk⟩ | ⟨occupant, mountpoint, hocc⟩ | ⟨hstill, hgone⟩ |
      ⟨unit, hfails, -⟩
    · rw [hk] at hmessage ⊢
      cases hbefore with
      | calm other => rw [calm_inj hmessage]
      | occupied occupant mountpoint => exact absurd hmessage.symm (calm_ne_occupied k _ _)
      | gone readOnly => exact absurd hmessage.symm (calm_ne_gone k readOnly)
      | failure unit cause hstatus hfound =>
          exact absurd hmessage.symm (calm_ne_failure k (failureText_words hstatus hfound))
    · rw [hocc] at hmessage ⊢
      cases hbefore with
      | calm other => exact absurd hmessage (calm_ne_occupied other _ _)
      | occupied other elsewhere =>
          exact congrArg (ConnectionState.plain c.id .failed) hmessage
      | gone readOnly => exact absurd hmessage (gone_ne_occupied readOnly _ _)
      | failure unit cause hstatus hfound =>
          exact absurd hmessage.symm
            (occupied_ne_failure occupant mountpoint (failureText_words hstatus hfound))
    · rw [hgone] at hmessage ⊢
      cases hbefore with
      | calm other => exact absurd hmessage (calm_ne_gone other _)
      | occupied other elsewhere => exact absurd hmessage.symm (gone_ne_occupied _ _ _)
      | gone readOnly =>
          by_contra hne
          refine hflips ⟨hstill, congrArg (silentState c.id) ?_⟩
          exact Bool.eq_not.mpr fun heq => hne (congrArg (silentState c.id) heq)
      | failure unit cause hstatus hfound =>
          exact absurd hmessage.symm (gone_ne_failure _ (failureText_words hstatus hfound))
    · exact (failure_told hfails hr hbefore hmessage).resolve_right hno

end Tell

end Smbpal
