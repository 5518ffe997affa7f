import Smbpal.Lib.Run
import Smbpal.State.Eject

/-!
# A Refusal That Is Out of Date

A start the monitor queued has not produced a mount, and the unit's journal says
that the mount was refused: then the monitor latches the connection, and does
not try again. New credentials make that out of date, and storing them forgets
the connection. So a connection is to be latched as refused for a failure that
was recorded after the connection was last forgotten, and after a start the
monitor queued since.

The monitor does not look at when a failure was recorded. It reads the last
lines of the journal, and the refusal there may be older than the start it asks
about. And what it decides from the attempts it has asked about it writes down
later, in another step, between which the connection may be forgotten.
`latches_old_refusal` is the first of the two.

Other processes write to the journals and other threads forget connections
between any two steps of a poll. Two conditions make a latch current: nobody
forgets a connection while the poll decides about it (`Undisturbed`), and when
the journal is read for it, the lines from before the first start say no
refusal, or the lines after it say what came of a mount (`Tells`).

## Main definitions

* `Racing`: The monitor, the journals, and what the property needs remembered.
* `Between`, `racingMachine`: What happens between steps, and the steps.
* `LatchRecord.Current`: The failure latched for is one that was recorded after
  a start queued since the connection was last forgotten.

## Theorems

* `recorded_of_tells`: A refusal the journal tells of was recorded after the
  first start.
* `maybePrime_current`, `poll_current`: A turn, and a poll, latch currently.
* `refusal_latch_current`: So does a run, between whose steps the journals grow
  and connections are forgotten.
* `latches_old_refusal`: A run that does not meet the conditions need not.
-/

namespace Smbpal

open Lib Program

/-- The unit of what a connection points at. -/
def Target.unit (target : Target) : Option Str :=
  (target.mountpoint.bind unitNames).map Prod.fst

/-- A latch the monitor set, and what there was when it did. -/
structure LatchRecord where
  id : Option Str
  target : Target
  because : Str
  firstStart : Option (Str → Nat)
  journal : Str → List Str

/-- The monitor, among those that write to the journals and forget connections. -/
structure Racing where
  memory : Memory
  /-- The lines of each unit's journal, the oldest first. -/
  journal : Str → List Str
  /-- How long each journal was when the first start of a connection for a
      target was queued, since the connection was last forgotten. -/
  firstStart : Option Str → Target → Option (Str → Nat)
  /-- The connection the poll has asked the attempts of, until it has written
      down what it decided. -/
  deciding : Option (Option Str)
  latches : List LatchRecord

/-- What happens between two steps of a poll. -/
inductive Between where
  /-- A line is added to a unit's journal. -/
  | append (unit line : Str)
  | forget (id : Option Str)

namespace Racing

/-- The connection is forgotten, and its starts with it. -/
def forget (s : Racing) (id : Option Str) : Racing :=
  { s with
    memory := s.memory.forget id
    firstStart := Function.update s.firstStart id fun _ => none }

/-- A line is added to a unit's journal. -/
def append (s : Racing) (unit line : Str) : Racing :=
  { s with journal := Function.update s.journal unit (s.journal unit ++ [line]) }

/-- What happens between two steps. -/
def between (s : Racing) : Between → Racing
  | .append unit line => s.append unit line
  | .forget id => s.forget id

/-- A start is queued. -/
def start (s : Racing) (id : Option Str) (target : Target) : Racing :=
  { s with
    firstStart := Function.update s.firstStart id
      (Function.update (s.firstStart id) target
        (some ((s.firstStart id target).getD fun unit => (s.journal unit).length))) }

/-- A connection is latched. -/
def latch (s : Racing) (id : Option Str) (target : Target) (because : Str) : Racing :=
  { s with
    memory := s.memory.latch id target because
    deciding := none
    latches := s.latches ++
      [{ id := id
         target := target
         because := because
         firstStart := s.firstStart id target
         journal := s.journal }] }

end Racing

/-- `_JOURNAL_LINES`. -/
def journalLines : Nat := 50

/-- The lines `journalctl` shows. -/
def shownLines (lines : List Str) : List Str :=
  lines.drop (lines.length - journalLines)

/-- Lines as text. -/
def journalText (lines : List Str) : Str :=
  lines.flatMap fun line => line ++ [chr '\n']

/-- What may be answered to a step, and what the step leaves. What the config,
    the mount table, systemd and the network say is not of interest here, so it
    may be anything. -/
def Racing.serves (s : Racing) : (op : MonitorOp) → Except Exc op.Value → Racing → Prop
  | .journal unit, ans, s' =>
      (ans = .ok (journalText (shownLines (s.journal unit))) ∨ ∃ e, ans = .error e) ∧ s' = s
  | .start id target _, ans, s' =>
      ans = .ok () ∧ s' = s.start id target ∨ (∃ e, ans = .error e) ∧ s' = s
  | .primedTarget id, ans, s' => ans = .ok (s.memory.primed id) ∧ s' = s
  | .attemptFor id, ans, s' =>
      ans = .ok (s.memory.attempted id) ∧ s' = { s with deciding := some id }
  | .latch id target because, ans, s' => ans = .ok () ∧ s' = s.latch id target because
  | .recordAttempt id target count, ans, s' =>
      ans = .ok () ∧ s' = { s with memory := s.memory.record id target count, deciding := none }
  | .previousState id, ans, s' =>
      ans = .ok (s.memory.stateFor id) ∧ s' = { s with deciding := none }
  | .replaceStates current, ans, s' =>
      ans = .ok (s.memory.goneFrom current) ∧
        s' = { s with memory := { s.memory with states := current } }
  | .forget id, ans, s' => ans = .ok () ∧ s' = s.forget id
  | _, _, s' => s' = s

/-- A step, after whatever happened before it that meets a condition, if the
    journals it reads meet another. -/
def racingMachine (met : Racing → Between → Prop) (told : Racing → Str → Prop) :
    Machine monitorSig Racing :=
  fun op s ans s' => ∃ s₁, GuardedRun (fun s e s' => s' = s.between e) met s s₁ ∧
    (∀ unit, op = .journal unit → told s₁ unit) ∧ s₁.serves op ans s'

section Refusal

variable [Decimals]

/-- The last error of some lines is one that is not to be tried again. -/
def refusedIn (lines : List Str) : Bool :=
  match lastMountError (journalText lines) with
  | some errno => !(linuxMountErrno errno).2.2
  | none => false

/-- The lines that are shown of those a journal had at some time. -/
def shownOlder (lines : List Str) (mark : Nat) : List Str :=
  (shownLines lines).take (mark - (lines.length - journalLines))

/-- The lines that are shown of those that were added since. -/
def shownNewer (lines : List Str) (mark : Nat) : List Str :=
  (shownLines lines).drop (mark - (lines.length - journalLines))

/-- Nobody forgets a connection while the poll decides about it. -/
def Undisturbed (s : Racing) : Between → Prop
  | .append _ _ => True
  | .forget id => s.deciding ≠ some id

/-- For the connection the poll decides about, what the journal shows from
    before the first start is no refusal, or is not the last word. -/
def Tells (s : Racing) (unit : Str) : Prop :=
  ∀ id target mark, s.deciding = some id → s.firstStart id target = some mark →
    target.unit = some unit →
      refusedIn (shownOlder (s.journal unit) (mark unit)) = false ∨
        lastMountError (journalText (shownNewer (s.journal unit) (mark unit))) ≠ none

/-- The mount is said to have been refused. -/
def LatchRecord.Refused (l : LatchRecord) : Prop :=
  ∃ cause, l.because = refusedBecause cause

/-- After a start that was queued since the connection was last forgotten, the
    unit's journal got a line that tells of a failure that is not to be tried
    again. -/
def RecordedSince (journal : Str → List Str) (firstStart : Option (Str → Nat)) (target : Target)
    (cause : Cause) : Prop :=
  ∃ mark unit i line, firstStart = some mark ∧ target.unit = some unit ∧ mark unit ≤ i ∧
    (journal unit)[i]? = some line ∧ translateJournal line = some cause ∧ cause.retryable = false

/-- The failure latched for is such a one. -/
def LatchRecord.Current (l : LatchRecord) : Prop :=
  ∃ cause, l.because = refusedBecause cause ∧
    RecordedSince l.journal l.firstStart l.target cause

/-! ### What the journal tells -/

theorem lastMountError_cons (line : Str) (lines : List Str) :
    lastMountError (journalText (line :: lines))
      = (lastMountError (journalText lines)).or (lastMountError line) := by
  have htext : journalText (line :: lines) = line ++ chr '\n' :: journalText lines := by
    unfold journalText
    rw [List.flatMap_cons, List.append_assoc, List.singleton_append]
  rw [htext, lastMountError_newline]

theorem lastMountError_append (older newer : List Str) :
    lastMountError (journalText (older ++ newer))
      = (lastMountError (journalText newer)).or (lastMountError (journalText older)) := by
  induction older with
  | nil =>
      have hnone : lastMountError (journalText []) = none := rfl
      rw [List.nil_append, hnone, Option.or_none]
  | cons line older ih =>
      rw [List.cons_append, lastMountError_cons, lastMountError_cons, ih, Option.or_assoc]

/-- The last error of some lines is one of a line. -/
theorem exists_line {lines : List Str} {errno : Nat}
    (h : lastMountError (journalText lines) = some errno) :
    ∃ (i : Nat) (line : Str), lines[i]? = some line ∧ lastMountError line = some errno := by
  induction lines with
  | nil => exact nomatch h
  | cons line lines ih =>
      rw [lastMountError_cons] at h
      cases hrest : lastMountError (journalText lines) with
      | none =>
          rw [hrest] at h
          exact ⟨0, line, rfl, h⟩
      | some errno' =>
          rw [hrest] at h
          rcases ih (hrest.trans h) with ⟨i, line', hi, hline⟩
          exact ⟨i + 1, line', hi, hline⟩

theorem translateJournal_of_lastMountError {text text' : Str} {errno : Nat}
    (h : lastMountError text = some errno) (h' : lastMountError text' = some errno) :
    translateJournal text = translateJournal text' := by
  unfold translateJournal
  rw [h, h']

/-- A cause that is not to be tried again is an error of the text. -/
theorem lastMountError_of_refusal {text : Str} {cause : Cause}
    (h : translateJournal text = some cause) (hretry : cause.retryable = false) :
    ∃ errno, lastMountError text = some errno ∧ (linuxMountErrno errno).2.2 = false := by
  unfold translateJournal at h
  cases herrno : lastMountError text with
  | some errno =>
      rw [herrno] at h
      refine ⟨errno, rfl, ?_⟩
      rw [← Option.some.inj h] at hretry
      exact hretry
  | none =>
      rw [herrno] at h
      dsimp only at h
      split at h
      · rw [← Option.some.inj h] at hretry
        exact nomatch hretry
      · exact nomatch h

/-- A refusal that the journal tells of, if it tells of the connection's
    mounts, was recorded after the first start. -/
theorem recorded_of_tells {s : Racing} {id : Option Str} {target : Target} {mark : Str → Nat}
    {unit : Str} {cause : Cause} (hdeciding : s.deciding = some id)
    (hmark : s.firstStart id target = some mark) (hunit : target.unit = some unit)
    (htells : Tells s unit)
    (hcause : translateJournal (journalText (shownLines (s.journal unit))) = some cause)
    (hretry : cause.retryable = false) :
    RecordedSince s.journal (s.firstStart id target) target cause := by
  rcases lastMountError_of_refusal hcause hretry with ⟨errno, herrno, hrefused⟩
  have hsplit : shownLines (s.journal unit)
      = shownOlder (s.journal unit) (mark unit) ++ shownNewer (s.journal unit) (mark unit) :=
    (List.take_append_drop _ _).symm
  have hnewer : lastMountError (journalText (shownNewer (s.journal unit) (mark unit)))
      = some errno := by
    rw [hsplit, lastMountError_append] at herrno
    cases hnew : lastMountError (journalText (shownNewer (s.journal unit) (mark unit))) with
    | some errno' =>
        rw [hnew] at herrno
        exact herrno
    | none =>
        -- then the older lines have the last word, and they say no refusal
        rw [hnew] at herrno
        have holder : lastMountError (journalText (shownOlder (s.journal unit) (mark unit)))
            = some errno := herrno
        rcases htells id target mark hdeciding hmark hunit with hold | hnot
        · unfold refusedIn at hold
          rw [holder] at hold
          dsimp only at hold
          rw [hrefused] at hold
          exact nomatch hold
        · exact absurd hnew hnot
  rcases exists_line hnewer with ⟨i, line, hi, hline⟩
  refine ⟨mark, unit, (s.journal unit).length - journalLines +
    (mark unit - ((s.journal unit).length - journalLines) + i), line, hmark, hunit, by omega, ?_,
    ?_, hretry⟩
  · unfold shownNewer shownLines at hi
    rw [List.getElem?_drop, List.getElem?_drop] at hi
    exact hi
  · rw [← hcause]
    exact translateJournal_of_lastMountError hline herrno

/-! ### What is kept -/

/-- Starts are remembered only of a connection that had one queued since it was
    last forgotten, and latches are current. -/
structure Racing.Consistent (s : Racing) : Prop where
  attempted : ∀ id target count, s.memory.attempted id = some (target, count) →
    s.firstStart id target ≠ none
  current : ∀ l ∈ s.latches, l.Refused → l.Current

/-- The poll decides about a connection. -/
structure Racing.Deciding (id : Option Str) (s : Racing) : Prop extends s.Consistent where
  deciding : s.deciding = some id

/-- A start of it has been queued. -/
structure Racing.Started (id : Option Str) (target : Target) (s : Racing) : Prop
    extends s.Deciding id where
  started : s.firstStart id target ≠ none

/-- And the mount is known to have been refused. -/
structure Racing.SeenRefused (id : Option Str) (target : Target) (cause : Cause) (s : Racing) : Prop
    extends s.Deciding id where
  refused : RecordedSince s.journal (s.firstStart id target) target cause

/-- What may happen between two steps keeps the property. -/
def KeptBetween (I : Racing → Prop) : Prop :=
  ∀ s e, I s → Undisturbed s e → I (s.between e)

theorem forget_consistent {s : Racing} (h : s.Consistent) (id : Option Str) :
    (s.forget id).Consistent := by
  refine ⟨fun other target count hattempted => ?_, h.current⟩
  by_cases hother : other = id
  · have hnone : (s.forget id).memory.attempted id = none := Function.update_self _ _ _
    rw [hother, hnone] at hattempted
    exact nomatch hattempted
  · have hsame : (s.forget id).firstStart other = s.firstStart other :=
      Function.update_of_ne hother _ _
    rw [hsame]
    exact h.attempted other target count
      ((Function.update_of_ne hother _ _).symm.trans hattempted)

theorem between_consistent {s : Racing} (h : s.Consistent) (e : Between) :
    (s.between e).Consistent := by
  cases e with
  | append unit line => exact ⟨h.attempted, h.current⟩
  | forget id => exact forget_consistent h id

theorem kept_consistent : KeptBetween Racing.Consistent :=
  fun _ e h _ => between_consistent h e

theorem kept_deciding (id : Option Str) : KeptBetween (Racing.Deciding id) := by
  intro s e h hcalm
  refine ⟨kept_consistent s e h.toConsistent hcalm, ?_⟩
  cases e with
  | append unit line => exact h.deciding
  | forget other => exact h.deciding

/-- The starts of the connection the poll decides about are not forgotten. -/
theorem firstStart_between {s : Racing} {id : Option Str} {e : Between} (h : s.Deciding id)
    (hcalm : Undisturbed s e) : (s.between e).firstStart id = s.firstStart id := by
  cases e with
  | append unit line => rfl
  | forget other =>
      have hother : id ≠ other := by
        intro heq
        exact hcalm (heq ▸ h.deciding)
      exact Function.update_of_ne hother _ _

theorem kept_started (id : Option Str) (target : Target) :
    KeptBetween (Racing.Started id target) := by
  intro s e h hcalm
  refine ⟨kept_deciding id s e h.toDeciding hcalm, ?_⟩
  rw [firstStart_between h.toDeciding hcalm]
  exact h.started

omit [Decimals] in
/-- Journals only grow. -/
theorem getElem?_between {s : Racing} {e : Between} {unit line : Str} {i : Nat}
    (h : (s.journal unit)[i]? = some line) : ((s.between e).journal unit)[i]? = some line := by
  cases e with
  | forget id => exact h
  | append unit' line' =>
      change (Function.update s.journal unit' (s.journal unit' ++ [line']) unit)[i]? = some line
      by_cases hunit : unit = unit'
      · rw [hunit, Function.update_self]
        rw [hunit] at h
        have hlt : i < (s.journal unit').length := (List.getElem?_eq_some_iff.mp h).1
        rw [List.getElem?_append_left hlt]
        exact h
      · rw [Function.update_of_ne hunit]
        exact h

theorem kept_seenRefused (id : Option Str) (target : Target) (cause : Cause) :
    KeptBetween (Racing.SeenRefused id target cause) := by
  intro s e h hcalm
  refine ⟨kept_deciding id s e h.toDeciding hcalm, ?_⟩
  rcases h.refused with ⟨mark, unit, i, line, hmark, hunit, hle, hline, hcause, hretry⟩
  rw [firstStart_between h.toDeciding hcalm]
  exact ⟨mark, unit, i, line, hmark, hunit, hle, getElem?_between hline, hcause, hretry⟩

/-! ### The steps -/

/-- The machine whose runs meet both conditions. -/
abbrev currentMachine : Machine monitorSig Racing :=
  racingMachine Undisturbed Tells

variable {s : Racing}

/-- A step, from what is kept until it is taken. -/
theorem always_raced {op : MonitorOp} {Q : Except Exc op.Value → Racing → Prop}
    {I : Racing → Prop} (hI : KeptBetween I) (hs : I s)
    (h : ∀ s₁, I s₁ → (∀ unit, op = .journal unit → Tells s₁ unit) →
      ∀ ans s', s₁.serves op ans s' → Q ans s') :
    Always currentMachine (take op) Q s := by
  rw [always_take]
  rintro ans s' ⟨s₁, hgap, htells, hserves⟩
  refine h s₁ (hgap.invariant I hs fun s e s' hs he hstep => ?_) htells ans s' hserves
  rw [hstep]
  exact hI s e hs he

/-- A step that latches no refusal and remembers no start. -/
def MonitorOp.IsCalm : MonitorOp → Prop
  | .latch _ _ because => ∀ cause, because ≠ refusedBecause cause
  | .recordAttempt _ _ _ => False
  | _ => True

omit [Decimals] in
theorem calm_of_telling {op : MonitorOp} (h : op.IsTelling) : op.IsCalm := by
  cases op
  case start => exact h.elim
  case latch => exact h.elim
  case recordAttempt => exact h.elim
  all_goals trivial

omit [Decimals] in
theorem wasMounted_calm (cause : Cause) : wasMounted ≠ refusedBecause cause := by
  intro h
  have hne : chr 'i' ≠ chr 't' := by decide
  exact hne (Option.some.inj (congrArg List.head? h))

omit [Decimals] in
theorem neverMounted_calm (queued : Nat) (unit : Str) (cause : Cause) :
    neverMounted queued unit ≠ refusedBecause cause := by
  intro h
  -- one begins with a digit, and the other does not
  cases hdigits : digits queued with
  | nil => exact digits_ne_nil queued hdigits
  | cons c cs =>
      have hdigit : isDigit c = true :=
        isDigit_of_mem_digits (hdigits ▸ List.mem_cons_self : c ∈ digits queued)
      unfold neverMounted at h
      rw [hdigits] at h
      have hc : c = chr 't' := Option.some.inj (congrArg List.head? h)
      rw [hc] at hdigit
      exact absurd hdigit (by decide)

omit [Decimals] in
theorem firstStart_start_ne_none {id other : Option Str} {target target' : Target}
    (h : s.firstStart other target' ≠ none ∨ other = id ∧ target' = target) :
    (s.start id target).firstStart other target' ≠ none := by
  change Function.update s.firstStart id _ other target' ≠ none
  by_cases hid : other = id
  · rw [hid, Function.update_self]
    by_cases htarget : target' = target
    · rw [htarget, Function.update_self]
      exact Option.some_ne_none _
    · rw [Function.update_of_ne htarget]
      rcases h with h | ⟨-, h⟩
      · rw [← hid]
        exact h
      · exact absurd h htarget
  · rw [Function.update_of_ne hid]
    exact h.resolve_right fun h => hid h.1

theorem start_consistent (h : s.Consistent) (id : Option Str) (target : Target) :
    (s.start id target).Consistent :=
  ⟨fun other target' count hattempted =>
    firstStart_start_ne_none (Or.inl (h.attempted other target' count hattempted)), h.current⟩

/-- A latch that is current, if it is for a refusal, keeps the state consistent. -/
theorem latch_consistent (h : s.Consistent) {id : Option Str} {target : Target} {because : Str}
    (hcurrent : (∃ cause, because = refusedBecause cause) →
    ∃ cause, because = refusedBecause cause ∧
      RecordedSince s.journal (s.firstStart id target) target cause) :
    (s.latch id target because).Consistent := by
  refine ⟨fun other target' count hattempted => ?_, fun l hl hrefused => ?_⟩
  · by_cases hother : other = id
    · have hnone : (s.latch id target because).memory.attempted id = none :=
        Function.update_self _ _ _
      rw [hother, hnone] at hattempted
      exact nomatch hattempted
    · exact h.attempted other target' count
        ((Function.update_of_ne hother _ _).symm.trans hattempted)
  · rcases List.mem_append.mp hl with hl | hl
    · exact h.current l hl hrefused
    · rw [List.mem_singleton.mp hl] at hrefused ⊢
      exact hcurrent hrefused

/-- A calm step keeps the state consistent. -/
theorem calm_consistent {s' : Racing} {op : MonitorOp} {ans : Except Exc op.Value}
    (hop : op.IsCalm) (h : s.Consistent) (hserves : s.serves op ans s') : s'.Consistent := by
  -- Starting, latching and forgetting change what is kept; the rest only read it.
  cases op
  case journal unit =>
      rw [hserves.2]
      exact h
  case start id target unit =>
      rcases hserves with ⟨-, rfl⟩ | ⟨-, rfl⟩
      · exact start_consistent h id target
      · exact h
  case primedTarget id =>
      rw [hserves.2]
      exact h
  case attemptFor id =>
      rw [hserves.2]
      exact ⟨h.attempted, h.current⟩
  case latch id target because =>
      rw [hserves.2]
      refine latch_consistent h ?_
      rintro ⟨cause, hcause⟩
      exact absurd hcause (hop cause)
  case recordAttempt id target count => exact hop.elim
  case previousState id =>
      rw [hserves.2]
      exact ⟨h.attempted, h.current⟩
  case replaceStates current =>
      rw [hserves.2]
      exact ⟨h.attempted, h.current⟩
  case forget id =>
      rw [hserves.2]
      exact forget_consistent h id
  all_goals
    have hs' : s' = s := hserves
    rw [hs']
    exact h

theorem step_calm {op : MonitorOp} {ans : Except Exc op.Value} {s' : Racing} (hop : op.IsCalm)
    (hs : s.Consistent) (hstep : currentMachine op s ans s') : s'.Consistent := by
  rcases hstep with ⟨s₁, hgap, -, hserves⟩
  refine calm_consistent hop (hgap.invariant _ hs fun s e s' hs he hstep => ?_) hserves
  rw [hstep]
  exact kept_consistent s e hs he

/-- A program of calm steps keeps the state consistent. -/
theorem always_calm {α : Type} {p : MonitorM α}
    (hp : Performs (S := monitorSig) MonitorOp.IsCalm p) (hs : s.Consistent) :
    Always currentMachine p (fun _ s' => s'.Consistent) s :=
  always_keeps hp (fun _ _ _ _ hop hs hstep => step_calm hop hs hstep) hs

/-- Queueing a start for the connection that is decided about. -/
theorem queueStart_current {c : Connection} (hs : s.Deciding c.id) (unit : Str) (queued : Nat) :
    Always currentMachine (queueStart c unit queued) (fun _ s' => s'.Consistent) s := by
  unfold queueStart
  rw [always_bind]
  refine always_takeOr ?_
  rw [always_bind]
  refine always_raced (kept_deciding c.id) hs fun s₁ hs₁ _ ans s' hserves => ?_
  -- The count is recorded only after systemd took the start.
  rcases hserves with ⟨rfl, rfl⟩ | ⟨⟨e, rfl⟩, rfl⟩
  · have hstarted : (s₁.start c.id c.target).Started c.id c.target :=
      ⟨⟨start_consistent hs₁.toConsistent c.id c.target, hs₁.deciding⟩,
        firstStart_start_ne_none (Or.inr ⟨rfl, rfl⟩)⟩
    change Always currentMachine (take (.recordAttempt c.id c.target (queued + 1))) _ _
    refine always_raced (kept_started c.id c.target) hstarted fun s₂ hs₂ _ ans s' hserves => ?_
    rcases hserves with ⟨-, rfl⟩
    -- What is recorded is the target that was started, and of no other id.
    refine ⟨fun other target count hattempted => ?_, hs₂.current⟩
    by_cases hother : other = c.id
    · have hsome : Function.update s₂.memory.attempted c.id (some (c.target, queued + 1)) c.id
          = some (target, count) := hother ▸ hattempted
      rw [Function.update_self] at hsome
      rw [hother, ← (Prod.mk.inj (Option.some.inj hsome)).1]
      exact hs₂.started
    · exact hs₂.attempted other target count
        ((Function.update_of_ne hother _ _).symm.trans hattempted)
  · change if e.isSmbpal = true then _ else _
    split
    · exact hs₁.toConsistent
    · exact hs₁.toConsistent

/-- Reading the journal for the connection that is decided about. -/
theorem journalCause_current {id : Option Str} {target : Target} {unit : Str}
    {Q : Except Exc (Option Cause) → Racing → Prop} (hs : s.Started id target)
    (hunit : target.unit = some unit)
    (h : ∀ s₁ said, s₁.Started id target → (∀ cause, said = some cause → cause.retryable = false →
      s₁.SeenRefused id target cause) → Q (.ok said) s₁)
    (herror : ∀ s₁ e, s₁.Started id target → Q (.error e) s₁) :
    Always currentMachine (journalCause unit) Q s := by
  refine always_takeOr ?_
  rw [always_bind]
  refine always_raced (kept_started id target) hs fun s₁ hs₁ htells ans s' hserves => ?_
  rcases hserves with ⟨rfl | ⟨e, rfl⟩, rfl⟩
  · refine h s' _ hs₁ fun cause hcause hretry => ⟨hs₁.toDeciding, ?_⟩
    rcases Option.ne_none_iff_exists'.mp hs₁.started with ⟨mark, hmark⟩
    exact recorded_of_tells hs₁.deciding hmark hunit (htells unit rfl) hcause hretry
  · change if e.isSmbpal = true then _ else _
    split
    · exact h s' none hs₁ fun cause hcause => nomatch hcause
    · exact herror s' e hs₁

/-- Priming an idle connection latches it currently. -/
theorem primeIdle_current {c : Connection} {unit : Str} (hunit : c.target.unit = some unit)
    (hs : s.Consistent) :
    Always currentMachine (primeIdle c unit) (fun _ s' => s'.Consistent) s := by
  unfold primeIdle
  rw [always_bind]
  refine always_raced kept_consistent hs fun s₁ hs₁ _ ans s' hserves => ?_
  rcases hserves with ⟨rfl, rfl⟩
  have hdeciding : ({ s₁ with deciding := some c.id } : Racing).Deciding c.id :=
    ⟨⟨hs₁.attempted, hs₁.current⟩, rfl⟩
  rw [andThen_ok]
  dsimp only
  by_cases hqueued : queuedFor c (s₁.memory.attempted c.id) = 0
  · rw [if_pos hqueued]
    exact queueStart_current hdeciding unit _
  · -- what is remembered of the starts says that there was one
    have hstarted : ({ s₁ with deciding := some c.id } : Racing).Started c.id c.target := by
      refine ⟨hdeciding, ?_⟩
      cases hattempted : s₁.memory.attempted c.id with
      | none =>
          rw [hattempted] at hqueued
          exact absurd rfl hqueued
      | some attempt =>
          rw [hattempted] at hqueued
          by_cases htarget : attempt.1 = c.target
          · exact hs₁.attempted c.id c.target attempt.2 (htarget ▸ hattempted)
          · exact absurd (if_neg htarget) hqueued
    rw [if_neg hqueued, always_bind]
    refine journalCause_current hstarted hunit (fun s₂ said hs₂ hsaid => ?_)
      fun s₂ e hs₂ => hs₂.toConsistent
    rw [andThen_ok]
    split
    · rename_i cause hfilter
      rcases Option.filter_eq_some_iff.mp hfilter with ⟨hcause, hretry⟩
      have hseen := hsaid cause hcause (by simpa using hretry)
      refine always_raced (kept_seenRefused c.id c.target cause) hseen
        fun s₃ hs₃ _ ans s' hserves => ?_
      rcases hserves with ⟨-, rfl⟩
      exact latch_consistent hs₃.toConsistent fun _ => ⟨cause, rfl, hs₃.refused⟩
    · split
      · exact always_calm (performs_take (neverMounted_calm _ _)) hs₂.toConsistent
      · exact queueStart_current hs₂.toDeciding unit _

/-! ### Turns, polls and runs -/

/-- The program leaves a consistent state consistent. -/
abbrev KeepsConsistent {α : Type} (p : MonitorM α) : Prop :=
  Preserves currentMachine Racing.Consistent p

theorem keeps_calm {α : Type} {p : MonitorM α}
    (hp : Performs (S := monitorSig) MonitorOp.IsCalm p) : KeepsConsistent p :=
  fun _ hs => always_calm hp hs

omit [Decimals] in
theorem unit_of_namesOf {c : Connection} {names : Str × Str} (h : namesOf c = .ok names) :
    c.target.unit = some names.1 := by
  unfold namesOf at h
  unfold Target.unit Connection.target
  cases hnames : c.mountpoint.bind unitNames with
  | none =>
      rw [hnames] at h
      exact nomatch h
  | some names' =>
      rw [hnames] at h
      cases h
      rfl

/-- A turn latches currently. -/
theorem maybePrime_current (c : Connection) (state : ConnectionState) :
    KeepsConsistent (maybePrime c state) := by
  intro s hs
  unfold maybePrime
  refine (always_bind _ _ _).mpr ((always_fromExcept _).mpr ?_)
  cases hnames : namesOf c with
  | error e => exact hs
  | ok names =>
      rw [andThen_ok]
      split
      · -- The latch of a mounted share is no refusal.
        exact always_calm (performs_bind (performs_take trivial) fun _ =>
          performs_take wasMounted_calm) hs
      · have hasked : KeepsConsistent (take (.primedTarget c.id)) :=
          keeps_calm (performs_take trivial)
        refine preserves_bind hasked (fun primed => ?_) s hs
        split
        · exact fun s hs => hs
        · refine preserves_bind (keeps_calm (performs_mayPrime c trivial)) fun may => ?_
          cases may with
          | false => exact fun s hs => hs
          | true => exact fun s hs => primeIdle_current (unit_of_namesOf hnames) hs

variable [Unicode]

/-- A poll latches currently. -/
theorem poll_current (prime : Bool) : KeepsConsistent (poll prime) := by
  refine preserves_poll prime (I := fun _ => Racing.Consistent) (fun s ans s' hs hstep => ?_)
    (fun config op s ans s' hop hs hstep => step_calm (calm_of_telling hop) hs hstep)
    (fun config c _ state => maybePrime_current c state) fun config s hs => hs
  have hcalm : MonitorOp.IsCalm .load := trivial
  have hs' : s'.Consistent := step_calm hcalm hs hstep
  exact ⟨fun _ _ => hs', fun _ _ => hs'⟩

/-- What happens to a monitor that primes: a poll, and what happens between two. -/
inductive RaceEvent where
  | poll
  | between (e : Between)

/-- What an event does. When a poll is over, it decides about nothing. -/
def RaceStep (met : Racing → Between → Prop) (told : Racing → Str → Prop) (s : Racing) :
    RaceEvent → Racing → Prop
  | .poll, s' => ∃ r s₁, Exec (racingMachine met told) (poll true) s r s₁ ∧
      s' = { s₁ with deciding := none }
  | .between e, s' => s' = s.between e

/-- A monitor that has just been started, with what the journals have. -/
def Racing.fresh (journal : Str → List Str) : Racing :=
  { memory := Memory.empty
    journal := journal
    firstStart := fun _ _ => none
    deciding := none
    latches := [] }

/-- In every run whose steps meet the conditions, a connection is latched as
    refused only for a failure that was recorded after it was last forgotten,
    and after a start the monitor queued since. -/
theorem refusal_latch_current (journal : Str → List Str) (s : Racing)
    (hrun : GuardedRun (RaceStep Undisturbed Tells) (fun _ _ => True) (Racing.fresh journal) s) :
    ∀ l ∈ s.latches, l.Refused → l.Current := by
  have hfresh : (Racing.fresh journal).Consistent :=
    ⟨fun _ _ _ h => (nomatch h), fun l hl => absurd hl List.not_mem_nil⟩
  refine (hrun.invariant Racing.Consistent hfresh fun s e s' hs _ hstep => ?_).current
  cases e with
  | poll =>
      rcases hstep with ⟨r, s₁, hx, rfl⟩
      have hend := always_exec (poll_current true s hs) hx
      exact ⟨hend.attempted, hend.current⟩
  | between b =>
      rw [show s' = _ from hstep]
      exact between_consistent hs b

end Refusal

/-! ### Two runs -/

section Stale

attribute [local instance] Unicode.ascii Decimals.ascii

set_option maxRecDepth 10000

/-- What comes of a start. -/
def World.startRaced (w : World) (s : Racing) (id : Option Str) (target : Target) (unit : Str) :
    Except Exc Unit × Racing :=
  match w.start unit with
  | .ok _ => (.ok (), s.start id target)
  | .error e => (.error (.smbpal e), s)

/-- What a world that stands still answers, and what a step of the poll does. -/
def World.race (w : World) : (op : MonitorOp) → Racing → Except Exc op.Value × Racing
  | .load, s => (w.config, s)
  | .serverStates, s => (.ok w.servers, s)
  | .mountTable, s => (.ok w.table, s)
  | .unitShow unit, s => ((w.unitShow unit).mapError .smbpal, s)
  | .journal unit, s => (.ok (journalText (shownLines (s.journal unit))), s)
  | .reachable host, s => (.ok (w.reachable host), s)
  | .start id target unit, s => w.startRaced s id target unit
  | .primedTarget id, s => (.ok (s.memory.primed id), s)
  | .attemptFor id, s => (.ok (s.memory.attempted id), { s with deciding := some id })
  | .latch id target because, s => (.ok (), s.latch id target because)
  | .recordAttempt id target count, s =>
      (.ok (), { s with memory := s.memory.record id target count, deciding := none })
  | .previousState id, s => (.ok (s.memory.stateFor id), { s with deciding := none })
  | .replaceStates current, s =>
      (.ok (s.memory.goneFrom current), { s with memory := { s.memory with states := current } })
  | .forget id, s => (.ok (), s.forget id)
  | .emit _ _ _, s => (w.push, s)
  | .pushRemoved _, s => (w.push, s)

theorem serves_race (w : World) (op : MonitorOp) (s : Racing) :
    s.serves op (w.race op s).1 (w.race op s).2 := by
  cases op
  case journal unit => exact ⟨Or.inl rfl, rfl⟩
  case start id target unit =>
      change s.serves (.start id target unit) (w.startRaced s id target unit).1
        (w.startRaced s id target unit).2
      unfold World.startRaced
      cases w.start unit with
      | ok u => exact Or.inl ⟨rfl, rfl⟩
      | error e => exact Or.inr ⟨⟨_, rfl⟩, rfl⟩
  case load => exact rfl
  case serverStates => exact rfl
  case mountTable => exact rfl
  case unitShow => exact rfl
  case reachable => exact rfl
  case emit => exact rfl
  case pushRemoved => exact rfl
  all_goals exact ⟨rfl, rfl⟩

/-- What a poll of a world that stands still leaves. -/
def Racing.polled (s : Racing) (w : World) : Racing :=
  { ((poll true).run w.race s).2 with deciding := none }

/-- What `mount.cifs` says when the server refuses the password. -/
def permissionDenied : Str :=
  str "mount error(13): Permission denied"

/-- The unit of the share. -/
def musicUnit : Str :=
  str "mnt-music.mount"

/-- The share is idle, and nothing is started by systemd. -/
def nasBusy : World :=
  { nasEjected with
    start := fun _ => .error { code := .mountFailed, message := [], detail := none } }

/-- The first start of every connection was queued while the journals were
    empty. -/
def Racing.FromEmpty (s : Racing) : Prop :=
  ∀ id target mark, s.firstStart id target = some mark → ∀ unit, mark unit = 0

theorem fromEmpty_tells {s : Racing} (h : s.FromEmpty) (unit : Str) : Tells s unit := by
  intro id target mark _ hmark _
  refine Or.inl ?_
  unfold shownOlder
  rw [h id target mark hmark unit, Nat.zero_sub, List.take_zero]
  rfl

theorem fromEmpty_race {s : Racing} {w : World} (hw : ∀ unit, ∃ e, w.start unit = .error e)
    (h : s.FromEmpty) (op : MonitorOp) : (w.race op s).2.FromEmpty := by
  cases op
  case start id target unit =>
      change (w.startRaced s id target unit).2.FromEmpty
      unfold World.startRaced
      rcases hw unit with ⟨e, he⟩
      rw [he]
      exact h
  case forget id =>
      intro other target mark hmark
      by_cases hother : other = id
      · have hnone : (s.forget id).firstStart id = fun _ => none := Function.update_self _ _ _
        have hsome : (s.forget id).firstStart id target = some mark := hother ▸ hmark
        rw [hnone] at hsome
        exact nomatch hsome
      · exact h other target mark
          ((congrFun (Function.update_of_ne hother _ _) target).symm.trans hmark)
  all_goals exact h

theorem fromEmpty_start {s : Racing} (hempty : ∀ unit, s.journal unit = []) (h : s.FromEmpty)
    (id : Option Str) (target : Target) : (s.start id target).FromEmpty := by
  intro other target' mark hmark unit
  change Function.update s.firstStart id _ other target' = some mark at hmark
  by_cases hid : other = id
  · rw [hid, Function.update_self] at hmark
    by_cases htarget : target' = target
    · rw [htarget, Function.update_self] at hmark
      rw [← Option.some.inj hmark]
      cases hfirst : s.firstStart id target with
      | none => exact congrArg List.length (hempty unit)
      | some mark' => exact h id target mark' hfirst unit
    · rw [Function.update_of_ne htarget] at hmark
      exact h id target' mark hmark unit
  · rw [Function.update_of_ne hid] at hmark
    exact h other target' mark hmark unit

/-- A poll of a world that stands still is one of the race, as long as what it
    keeps to has the journals tell. -/
theorem step_polled {I : Racing → Prop} {w : World} (htells : ∀ s, I s → s.FromEmpty)
    (hkeeps : ∀ op s, I s → I (w.race op s).2) {s : Racing} (hs : I s) :
    RaceStep Undisturbed Tells s .poll (s.polled w) ∧ I ((poll true).run w.race s).2 := by
  have hrun := exec_run_keeping (M := currentMachine) (I := I)
    (fun op s hs => ⟨⟨s, GuardedRun.start, fun unit _ => fromEmpty_tells (htells s hs) unit,
      serves_race w op s⟩, hkeeps op s hs⟩) (poll true) hs
  exact ⟨⟨_, _, hrun.1, rfl⟩, hrun.2⟩

/-- The monitor started the mount, and the server refused it. -/
def refusedOnce : Racing :=
  (((Racing.fresh fun _ => []).polled nasEjected).append musicUnit permissionDenied).polled nasBusy

/-- A start, the refusal it came to, and the latch for that refusal. -/
theorem refusal_latch_current_once :
    refusedOnce.latches.map LatchRecord.because
        = [str "the mount was refused: the username or password was refused by the server"] ∧
      ∀ l ∈ refusedOnce.latches, l.Refused → l.Current := by
  refine ⟨by decide +kernel, refusal_latch_current (fun _ => []) _ ?_⟩
  -- The journal stays empty while the share is only ejected.
  have hempty : ∀ op (s : Racing), (∀ unit, s.journal unit = []) ∧ s.FromEmpty →
      (∀ unit, (nasEjected.race op s).2.journal unit = []) ∧
      (nasEjected.race op s).2.FromEmpty := by
    rintro op s ⟨hjournal, hmarks⟩
    cases op
    case start id target unit => exact ⟨hjournal, fromEmpty_start hjournal hmarks id target⟩
    case forget id =>
      exact ⟨hjournal, fromEmpty_race (w := nasBusy) (fun _ => ⟨_, rfl⟩) hmarks (.forget id)⟩
    all_goals exact ⟨hjournal, hmarks⟩
  have hfresh : (∀ unit, (Racing.fresh fun _ => []).journal unit = []) ∧
      (Racing.fresh fun _ => []).FromEmpty := ⟨fun _ => rfl, fun _ _ _ h => nomatch h⟩
  rcases step_polled (I := fun s => (∀ unit, s.journal unit = []) ∧ s.FromEmpty)
    (fun _ h => h.2) hempty hfresh with ⟨hstarted, -, hmarks⟩
  have hrefused := step_polled (I := Racing.FromEmpty) (w := nasBusy) (fun _ h => h)
    (fun op s h => fromEmpty_race (fun _ => ⟨_, rfl⟩) h op)
    (s := ((Racing.fresh fun _ => []).polled nasEjected).append musicUnit permissionDenied) hmarks
  exact ((GuardedRun.start.next .poll trivial hstarted).next
    (.between (.append musicUnit permissionDenied)) trivial rfl).next .poll trivial hrefused.1

/-- The journal has a refusal from before the monitor was started. -/
def oldRefusal (unit : Str) : List Str :=
  if unit = musicUnit then [permissionDenied] else []

/-- The monitor starts the mount, and nothing comes of it. -/
def refusedNever : Racing :=
  ((Racing.fresh oldRefusal).polled nasEjected).polled nasEjected

/-- The refusal in the journal is older than the start, and no other came of it:
    the connection is latched for that. -/
theorem latches_old_refusal :
    GuardedRun (RaceStep (fun _ _ => True) fun _ _ => True) (fun _ _ => True)
        (Racing.fresh oldRefusal) refusedNever ∧
      ∃ l ∈ refusedNever.latches, l.Refused ∧ ¬l.Current := by
  have hpolled : ∀ s : Racing, RaceStep (fun _ _ => True) (fun _ _ => True) s .poll
      (s.polled nasEjected) := fun s => ⟨_, _, exec_run (fun op s =>
    ⟨s, GuardedRun.start, fun _ _ => trivial, serves_race nasEjected op s⟩) (poll true) s, rfl⟩
  refine ⟨(GuardedRun.start.next .poll trivial (hpolled _)).next .poll trivial (hpolled _), ?_⟩
  have hlatches : refusedNever.latches.map (fun l => (l.target, l.because,
      l.firstStart.map fun mark => mark musicUnit, l.journal musicUnit))
      = [(nasMusic.target,
        str "the mount was refused: the username or password was refused by the server",
        some 1, [permissionDenied])] := by decide +kernel
  rcases List.map_eq_singleton_iff.mp hlatches with ⟨l, hl, hlatch⟩
  injection hlatch with htarget hrest
  injection hrest with hbecause hrest
  injection hrest with hmark hjournal
  refine ⟨l, hl ▸ List.mem_singleton_self l, ⟨⟨.authFailed,
    str "the username or password was refused by the server", some 13, false⟩, hbecause⟩, ?_⟩
  · rintro ⟨cause, -, mark, unit, i, line, hfirst, hunit, hle, hline, -⟩
    -- every line of the journal is older than the start
    have hmusic : nasMusic.target.unit = some musicUnit := by decide +kernel
    rw [htarget, hmusic] at hunit
    obtain rfl : musicUnit = unit := Option.some.inj hunit
    rw [hfirst] at hmark
    have hone : mark musicUnit = 1 := Option.some.inj hmark
    rw [hjournal] at hline
    have hlt := (List.getElem?_eq_some_iff.mp hline).1
    rw [List.length_singleton] at hlt
    omega

end Stale

end Smbpal
