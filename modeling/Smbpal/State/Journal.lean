import Smbpal.Python.Paths
import Smbpal.State.Machine

/-!
# The Latest Failure of a Journal

`translate_journal` in `state/translate.py` looks for an error with a number first, and for a
name that did not resolve only where there is none. The errors are looked through to the
last, so of two with a number the later one is reported. A name that did not resolve after
an error with a number is not (`refusal_before_unresolved`).

`int` raises where a number has more digits than Python's limit.

## Main definitions

* `translateJournalWithin`: `translate_journal`, with that limit.
* `ReportsLatest`: That the failure is the one on the last line that carries one.

## Theorems

* `lastMountError_eq`, `saysUnresolved_iff`: The two searches, line by line.
* `reports_latest_iff`: When the latest failure is reported.
-/

namespace Smbpal

section Within

variable [Decimals]

/-- How many digits a `)` ends at the head of a string, of those read so far and more. -/
def digitsBeforeParen : Nat → Str → Option Nat
  | _, [] => none
  | read, c :: s =>
      match decimal c with
      | some _ => digitsBeforeParen (read + 1) s
      | none => if c = chr ')' ∧ 0 < read then some read else none

/-- How many digits `_MOUNT_ERROR` has at the head of a string. -/
def errnoDigitsAt (s : Str) : Option Nat :=
  match afterLiteral "mount error(".toList s with
  | some rest => digitsBeforeParen 0 rest
  | none => none

/-- The most digits a `_MOUNT_ERROR` of a text has. -/
def longestErrno : Str → Nat
  | [] => 0
  | c :: s => max ((errnoDigitsAt (c :: s)).getD 0) (longestErrno s)

/-- `translate_journal`, where `int` reads so many digits. -/
def translateJournalWithin (limit : Nat) (text : Str) : Except Exc (Option Cause) :=
  if limit < longestErrno text then .error .exception
  else .ok (translateJournal text)

/-- Whether a line carries a failure. -/
def carriesFailure (line : Str) : Bool :=
  (lastMountError line).isSome || saysUnresolved line

/-- What is recognised on a line. -/
def RecognisedOn (line : Str) (cause : Cause) : Prop :=
  (∃ errno, lastMountError line = some errno ∧ cause = causeOfErrno errno) ∨
    saysUnresolved line = true ∧ cause = unresolvedCause

/-- The cause is the one on the last line that carries a failure, and there is none only
    where no line does. -/
def ReportsLatest (lines : List Str) : Option Cause → Prop
  | none => ∀ line ∈ lines, carriesFailure line = false
  | some cause => ∃ before line after, lines = before ++ line :: after ∧
      RecognisedOn line cause ∧ ∀ later ∈ after, carriesFailure later = false

/-- After the last line that carries an error with a number, no name did not resolve. -/
def NumberedLast (lines : List Str) : Prop :=
  ∀ before line after, lines = before ++ line :: after → (lastMountError line).isSome = true →
    (∀ later ∈ after, lastMountError later = none) → ∀ later ∈ after, saysUnresolved later = false

end Within

section Lines

variable [Decimals]

/-- The last error is that of the last line that has one. -/
theorem lastMountError_eq (text : Str) :
    lastMountError text = (splitChar '\n' text).reverse.findSome? lastMountError := by
  refine @split_induction '\n'
    (fun text lines => lastMountError text = lines.reverse.findSome? lastMountError) ?_ ?_ text
  · intro line _
    change _ = [line].findSome? lastMountError
    rw [List.findSome?_cons]
    cases lastMountError line <;> rfl
  · intro line rest lines _ _ hrest
    rw [lastMountError_newline, hrest, List.reverse_cons, List.findSome?_append]
    congr 1
    rw [List.findSome?_cons]
    cases lastMountError line <;> rfl

omit [Decimals] in
theorem saysUnresolved_newline (s t : Str) :
    saysUnresolved (s ++ chr '\n' :: t) = (saysUnresolved s || saysUnresolved t) := by
  -- No sentence goes over the end of a line.
  have hplain : ∀ literal : List Char, (literal.all fun p => !matchesLetter p (chr '\n')) = true →
      ∀ s, (afterLiteral literal (s ++ chr '\n' :: t)).isSome =
      (afterLiteral literal s).isSome := by
    intro literal hall s
    rw [afterLiteral_newline fun p hp => (Bool.not_eq_true' _).mp (List.all_eq_true.mp hall p hp),
      Option.isSome_map]
  induction s with
  | nil =>
      change saysUnresolved (chr '\n' :: t) = saysUnresolved t
      rw [saysUnresolved]
      have hnone := fun literal hall => hplain literal hall []
      simp only [List.nil_append] at hnone
      rw [hnone _ (by decide), hnone _ (by decide), hnone _ (by decide)]
      rfl
  | cons c s ih =>
      change saysUnresolved (c :: (s ++ chr '\n' :: t)) = _
      rw [saysUnresolved, ih, saysUnresolved]
      have hcons := fun literal hall => hplain literal hall (c :: s)
      simp only [List.cons_append] at hcons
      rw [hcons _ (by decide), hcons _ (by decide), hcons _ (by decide)]
      simp only [Bool.or_assoc]

omit [Decimals] in
/-- A name did not resolve somewhere if on some line. -/
theorem saysUnresolved_iff (text : Str) :
    saysUnresolved text = (splitChar '\n' text).any saysUnresolved := by
  refine @split_induction '\n' (fun text lines => saysUnresolved text = lines.any saysUnresolved)
    ?_ ?_ text
  · intro line _
    change _ = (saysUnresolved line || false)
    rw [Bool.or_false]
  · intro line rest lines _ _ hrest
    rw [saysUnresolved_newline, hrest, List.any_cons]

end Lines

section Latest

/-- The last member that satisfies a predicate is one. -/
theorem last_unique {α : Type} {p : α → Prop} {before before' after after' : List α} {a a' : α}
    (heq : before ++ a :: after = before' ++ a' :: after') (ha : p a) (ha' : p a')
    (hafter : ∀ x ∈ after, ¬p x) (hafter' : ∀ x ∈ after', ¬p x) : a = a' ∧ after = after' := by
  rcases List.append_eq_append_iff.mp heq with ⟨between, -, hrest⟩ | ⟨between, -, hrest⟩
  · cases between with
    | nil => exact ⟨(List.cons.inj hrest).1, (List.cons.inj hrest).2⟩
    | cons first between =>
        refine absurd ha' (hafter a' ?_)
        rw [(List.cons.inj hrest).2]
        exact List.mem_append_right _ List.mem_cons_self
  · cases between with
    | nil => exact ⟨(List.cons.inj hrest).1.symm, (List.cons.inj hrest).2.symm⟩
    | cons first between =>
        refine absurd ha (hafter' a ?_)
        rw [(List.cons.inj hrest).2]
        exact List.mem_append_right _ List.mem_cons_self

/-- Where there is one, there is a last one. -/
theorem exists_last {α : Type} {p : α → Bool} {l : List α} (h : l.any p = true) :
    ∃ before a after, l = before ++ a :: after ∧ p a = true ∧ ∀ x ∈ after, p x = false := by
  induction l with
  | nil => exact nomatch h
  | cons first l ih =>
      by_cases hrest : l.any p = true
      · rcases ih hrest with ⟨before, a, after, rfl, ha, hafter⟩
        exact ⟨first :: before, a, after, rfl, ha, hafter⟩
      · rw [List.any_cons, Bool.or_eq_true] at h
        refine ⟨[], first, l, rfl, h.resolve_right hrest, fun x hx => ?_⟩
        exact eq_false_of_ne_true fun hp => hrest (List.any_eq_true.mpr ⟨x, hx, hp⟩)

variable [Decimals]

/-- A number is read from the last line that has one. -/
theorem lastMountError_some {text : Str} {errno : Nat} (h : lastMountError text = some errno) :
    ∃ before line after, splitChar '\n' text = before ++ line :: after ∧
      lastMountError line = some errno ∧ ∀ later ∈ after, lastMountError later = none := by
  rw [lastMountError_eq, List.findSome?_eq_some_iff] at h
  rcases h with ⟨after, line, before, hsplit, hline, hafter⟩
  refine ⟨before.reverse, line, after.reverse, ?_, hline, fun later hlater => ?_⟩
  · rw [← List.reverse_reverse (splitChar '\n' text), hsplit, List.reverse_append,
      List.reverse_cons, List.append_assoc]
    rfl
  · exact hafter later (List.mem_reverse.mp hlater)

theorem lastMountError_none {text : Str} (h : lastMountError text = none) :
    ∀ line ∈ splitChar '\n' text, lastMountError line = none := by
  rw [lastMountError_eq, List.findSome?_eq_none_iff] at h
  exact fun line hline => h line (List.mem_reverse.mpr hline)

/-- A line with a number on which no name did not resolve carries that. -/
theorem carriesFailure_iff {line : Str} (h : lastMountError line = none) :
    carriesFailure line = saysUnresolved line := by
  rw [carriesFailure, h]
  rfl

/-- The latest failure is reported where no number is too long and no name fails to resolve
    after the last number. -/
theorem reports_latest_iff (limit : Nat) (text : Str) :
    (∃ cause, translateJournalWithin limit text = .ok cause ∧
      ReportsLatest (splitChar '\n' text) cause) ↔
      longestErrno text ≤ limit ∧ NumberedLast (splitChar '\n' text) := by
  rw [translateJournalWithin]
  by_cases hlong : limit < longestErrno text
  · rw [if_pos hlong]
    exact ⟨(fun ⟨_, h, _⟩ => nomatch h), fun h => absurd h.1 (by omega)⟩
  rw [if_neg hlong]
  have hreturns : (∃ cause, Except.ok (translateJournal text) = (.ok cause : Except Exc _) ∧
      ReportsLatest (splitChar '\n' text) cause) ↔
      ReportsLatest (splitChar '\n' text) (translateJournal text) :=
    ⟨(fun ⟨_, heq, h⟩ => Except.ok.inj heq ▸ h), fun h => ⟨_, rfl, h⟩⟩
  rw [hreturns, and_iff_right (Nat.le_of_not_lt hlong), translateJournal]
  cases herror : lastMountError text with
  | some errno =>
      rcases lastMountError_some herror with ⟨before, line, after, hsplit, hline, hafter⟩
      constructor
      · rintro ⟨before', line', after', hsplit', hcause, hafter'⟩
        -- the reported cause has a number, so its line is the last with one
        have hnumber : (lastMountError line').isSome = true := by
          rcases hcause with ⟨errno', hline', -⟩ | ⟨-, hcause⟩
          · rw [hline']
            rfl
          · exact nomatch congrArg Cause.errno hcause
        intro b l a hlines hl ha later hlater
        have hno : ∀ x ∈ a, ¬(lastMountError x).isSome = true := by
          intro x hx hsome
          rw [ha x hx] at hsome
          exact nomatch hsome
        have hno' : ∀ x ∈ after', ¬(lastMountError x).isSome = true := by
          intro x hx hsome
          have hcarries := hafter' x hx
          rw [carriesFailure, hsome] at hcarries
          exact nomatch hcarries
        have hsame := (last_unique (hlines.symm.trans hsplit') hl hnumber hno hno').2
        have hcarries := hafter' later (hsame ▸ hlater)
        rw [carriesFailure_iff (ha later hlater)] at hcarries
        exact hcarries
      · intro h
        have hsome : (lastMountError line).isSome = true := by
          rw [hline]
          rfl
        refine ⟨before, line, after, hsplit, Or.inl ⟨errno, hline, rfl⟩, fun later hlater => ?_⟩
        rw [carriesFailure_iff (hafter later hlater)]
        exact h before line after hsplit hsome hafter later hlater
  | none =>
      have hnone := lastMountError_none herror
      have hlast : NumberedLast (splitChar '\n' text) := by
        intro before line after hsplit hsome
        rw [hnone line (hsplit ▸ List.mem_append_right _ List.mem_cons_self)] at hsome
        exact nomatch hsome
      refine ⟨fun _ => hlast, fun _ => ?_⟩
      dsimp only
      by_cases hsays : saysUnresolved text = true
      · rw [if_pos hsays]
        rw [saysUnresolved_iff] at hsays
        rcases exists_last hsays with ⟨before, line, after, hsplit, hline, hafter⟩
        refine ⟨before, line, after, hsplit, Or.inr ⟨hline, rfl⟩, fun later hlater => ?_⟩
        rw [carriesFailure_iff, hafter later hlater]
        exact hnone later (hsplit ▸ List.mem_append_right _ (List.mem_cons_of_mem _ hlater))
      · rw [if_neg hsays]
        intro line hline
        rw [carriesFailure_iff (hnone line hline)]
        refine eq_false_of_ne_true fun h => hsays ?_
        rw [saysUnresolved_iff]
        exact List.any_eq_true.mpr ⟨line, hline, h⟩

end Latest

section Examples

attribute [local instance] Decimals.ascii

/-- A password that was refused. -/
def refusedLine : Str :=
  str "mount error(13): Permission denied"

/-- A name that did not resolve. -/
def unresolvedLine : Str :=
  str "mount error: could not resolve address for nas.local: Unknown error"

/-- The one, and then the other. -/
def refusalThenName : Str :=
  refusedLine ++ chr '\n' :: unresolvedLine

set_option maxRecDepth 20000 in
/-- The older refusal is reported, which is not tried again, and not the name. -/
theorem refusal_before_unresolved :
    ¬∃ cause, translateJournalWithin 4300 refusalThenName = .ok cause ∧
      ReportsLatest (splitChar '\n' refusalThenName) cause := by
  have hreturns : translateJournalWithin 4300 refusalThenName = .ok (some (causeOfErrno 13)) := by
    decide +kernel
  have hlines : splitChar '\n' refusalThenName = [refusedLine, unresolvedLine] := by
    decide +kernel
  have hfails : carriesFailure unresolvedLine = true := by decide +kernel
  have hnone : lastMountError unresolvedLine = none := by decide +kernel
  rw [hreturns, hlines]
  rintro ⟨cause, hcause, hlatest⟩
  cases hcause
  rcases hlatest with ⟨before, line, after, hsplit, hrecognised, hafter⟩
  cases before with
  | nil =>
      -- the name comes after the line that is reported
      cases hsplit
      rw [hafter unresolvedLine List.mem_cons_self] at hfails
      exact nomatch hfails
  | cons first before =>
      cases before with
      | nil =>
          cases hsplit
          rcases hrecognised with ⟨errno, hline, -⟩ | ⟨-, hcause⟩
          · rw [hnone] at hline
            exact nomatch hline
          · exact nomatch congrArg Cause.errno hcause
      | cons second before =>
          have hlen := congrArg List.length hsplit
          simp only [List.length_cons, List.length_append, List.length_nil] at hlen
          omega

end Examples

end Smbpal
