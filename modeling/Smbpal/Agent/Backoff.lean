import Smbpal.Agent.OwnMount
import Mathlib.Algebra.Order.Field.Rat
import Mathlib.Tactic.Linarith
import Mathlib.Tactic.Positivity

/-!
# The Backoff

How long the agent's loop goes on. `Reconnector._failed` counts the failures of a
mount in a row, and waits `interval * 2 ** failures` after one, at most half a
minute or five. The count goes on when the wait does not grow any more, and the
power of two is a whole number: from 1024 failures on it is too large for a
`float`, the product raises `OverflowError`, and a pass ends with an exception
before it comes to the connections behind this one. So it does when the mount of
a row raises what is not caught. And a wait is one only if the clock is not so
far on that adding the wait to it changes nothing.

A pass is a row of turns, one for each connection. The loop goes on as long as
every turn fits (`loop_goes_on_iff`): the row of a mount that is tried can be
mounted, and one that fails does not do so for the 1024th time in a row, and its
wait outweighs the clock. The count takes as many passes as it takes failures.

## Main definitions

* `Turn`: The turn of a connection in a pass.
* `Reconnector.passTurns`: The turns a pass comes to.
* `Reconnector.GoesOn`: That a pass considers every connection, gets to its
  report and has every failure wait.
* `Reconnector.Fits`: That no turn of a pass ends it, and that what fails waits.
* `Reconnector.Spares`: That no row of a pass ends it, and a wait is one.
* `AgentPass.Ordinary`: The daemon's list and the mount table are read.

## Theorems

* `turn_raises_iff`: When an exception ends a turn.
* `goesOn_iff`: When a pass goes on.
* `pass_counted`: What a pass adds to the counts.
* `loop_goes_on_iff`: When the loop goes on.
-/

namespace Smbpal

open Lib

/-- The turn of a connection in a pass. -/
structure Turn where
  /-- The loop when its turn comes. -/
  loop : Loop
  row : Connection
  mounted : Option SmbMount
  now : Rat
  trouble : Bool
  attempt : Attempt

/-- Failed, and tried again later. -/
def MountOutcome.retryable : MountOutcome → Bool
  | .mounted _ => false
  | .netfs _ retryable _ => retryable
  | .smbpal _ => true
  | .raised => false

/-- What the wait after an attempt is capped at. -/
def Attempt.cap (attempt : Attempt) : Rat :=
  if slowAttempt ≤ attempt.took then maxBackoff else fastBackoff

section Turns

variable [Unicode]

/-- Whether a mount is tried. -/
def Turn.tries (turn : Turn) : Bool :=
  (turn.loop.consider turn.row turn.mounted turn.now turn.trouble).2

/-- The loop after the turn, and whether the pass ends there with an exception. -/
def Turn.after (interval : Rat) (turn : Turn) : Loop × Bool :=
  let considered := turn.loop.consider turn.row turn.mounted turn.now turn.trouble
  if considered.2 then considered.1.record interval turn.now (rowId turn.row) turn.attempt
  else (considered.1, false)

/-- The turn of a row of a pass. -/
def Reconnector.turn (r : Reconnector) (now : Rat) (attempts : Nat → Attempt)
    (mounts : List SmbMount) (trouble : Bool) (place : Nat) (c : Connection) (s : Loop) : Turn :=
  { loop := s
    row := c
    mounted := r.mountOf mounts (rowKey c)
    now := now
    trouble := trouble
    attempt := attempts place }

/-- The turns that `considerAll` comes to. -/
def Reconnector.turns (r : Reconnector) (now : Rat) (attempts : Nat → Attempt)
    (mounts : List SmbMount) (trouble : Bool) : Nat → List Connection → Loop → List Turn
  | _, [], _ => []
  | place, c :: rows, s =>
      let turn := r.turn now attempts mounts trouble place c s
      let after := turn.after r.interval
      turn :: if after.2 then []
        else r.turns now attempts mounts trouble (place + 1) rows after.1

/-- The turns a pass over these rows comes to. -/
def Reconnector.turnsOver (r : Reconnector) (i : PassInput) (listed : List Connection) (s : Loop) :
    List Turn :=
  match i.mounts with
  | .error _ => []
  | .ok mounts =>
      r.turns i.now i.attempts mounts (before i.now s.troubleUntil) 0 (r.mine listed) s

/-- The turns a pass comes to. -/
def Reconnector.passTurns (r : Reconnector) (i : PassInput) (s : Loop) : List Turn :=
  match (s.wake i).readConnections i.listed with
  | (.error _, _) => []
  | (.ok listed, s) => r.turnsOver i listed s

/-- A mount that fails in the turn and is to be tried again waits, and no longer than its cap. -/
def Turn.Waits (interval : Rat) (turn : Turn) : Prop :=
  turn.tries = true → turn.attempt.outcome.retryable = true →
    ∃ t, (turn.after interval).1.tracks (rowId turn.row) = some t ∧
      turn.now < t.nextTry ∧ t.nextTry ≤ fl (turn.now + turn.attempt.cap)

/-- A mount that is tried in the turn is of a row that can be mounted, and if it fails and is to be
    tried again it has not failed too often, and its wait outweighs the clock. -/
def Turn.Fits (r : Reconnector) (nfkc : Str → Str) (table : List SmbMount) (turn : Turn) : Prop :=
  turn.tries = true → r.CanMount nfkc turn.row table ∧
    (turn.attempt.outcome.retryable = true →
      (turn.loop.trackFor turn.row).failures + 1 < floatLimit ∧
        Outweighs (backoff r.interval ((turn.loop.trackFor turn.row).failures + 1)
          turn.attempt.took) turn.now)

/-- A mount that is tried in the turn is of a row that can be mounted, and the shortest wait
    outweighs the clock. -/
def Turn.Spares (r : Reconnector) (nfkc : Str → Str) (table : List SmbMount) (turn : Turn) : Prop :=
  turn.tries = true → r.CanMount nfkc turn.row table ∧
    Outweighs (min (r.interval * 2) fastBackoff) turn.now

/-- The turns a pass of the agent's loop comes to. -/
def Reconnector.agentTurns (r : Reconnector) (nfkc : Str → Str) (s : Loop) (p : AgentPass) :
    List Turn :=
  r.passTurns (p.input r nfkc s) s

/-- Each connection has its turn in the pass, the pass gets to its report, and what failed waits. -/
structure Reconnector.GoesOn (r : Reconnector) (nfkc : Str → Str) (s : Loop) (p : AgentPass) :
    Prop where
  considered : r.rowsOf s (p.input r nfkc s) = some ((r.agentTurns nfkc s p).map Turn.row)
  reported : (r.tick (p.input r nfkc s) s).finished = true
  waits : ∀ turn ∈ r.agentTurns nfkc s p, turn.Waits r.interval

/-- Every turn of the pass fits. -/
def Reconnector.Fits (r : Reconnector) (nfkc : Str → Str) (s : Loop) (p : AgentPass) : Prop :=
  ∀ place (turn : Turn), (r.agentTurns nfkc s p)[place]? = some turn →
    turn.Fits r nfkc (p.answers place).table

/-- In every turn of the pass the row can be mounted and the shortest wait is one. -/
def Reconnector.Spares (r : Reconnector) (nfkc : Str → Str) (s : Loop) (p : AgentPass) : Prop :=
  ∀ place (turn : Turn), (r.agentTurns nfkc s p)[place]? = some turn →
    turn.Spares r nfkc (p.answers place).table

end Turns

/-- The daemon's list is read, or why it is not is reported; the mount table is read; and the clock
    is a float, and not negative. -/
structure AgentPass.Ordinary (p : AgentPass) : Prop where
  listed : ∀ e, p.listed = .error e → ∃ reported, e = .smbpal reported
  mounts : ∃ mounts, p.mounts = .ok mounts
  clock : IsFloat p.now
  started : 0 ≤ p.now

/-- A pass on which what is asked is answered, or another event. -/
def AgentEvent.Ordinary : AgentEvent → Prop
  | .pass p => p.Ordinary
  | _ => True

/-- Whether an event is a pass. -/
def AgentEvent.isPass : AgentEvent → Bool
  | .pass _ => true
  | _ => false

/-- What is asked of an event, where it is a pass. -/
def AgentEvent.InPass (P : Loop → AgentPass → Prop) (s : Loop) : AgentEvent → Prop
  | .pass p => P s p
  | _ => True

section OneTurn

theorem noteGone_counts (t : Track) (trouble : Bool) :
    (t.noteGone trouble).failures = t.failures ∧ (t.noteGone trouble).nextTry = t.nextTry := by
  unfold Track.noteGone
  cases t.mountedAt with
  | none => exact ⟨rfl, rfl⟩
  | some goneFrom => cases trouble <;> exact ⟨rfl, rfl⟩

theorem noteDisconnected_counts (t : Track) (c : Connection) :
    (t.noteDisconnected c).failures = t.failures ∧
      (t.noteDisconnected c).nextTry = t.nextTry := by
  unfold Track.noteDisconnected
  split
  · exact ⟨rfl, rfl⟩
  · exact ⟨rfl, rfl⟩

theorem decide_counts (t : Track) (c : Connection) (now : Rat) :
    (t.decide c now).1.failures = t.failures ∧ (t.decide c now).1.nextTry = t.nextTry ∧
      ((t.decide c now).2 = true → t.nextTry ≤ now) := by
  unfold Track.decide
  split
  · exact ⟨rfl, rfl, fun h => absurd h Bool.false_ne_true⟩
  · split
    · exact ⟨rfl, rfl, fun h => absurd h Bool.false_ne_true⟩
    · exact ⟨rfl, rfl, of_decide_eq_true⟩

/-- Considering a row leaves the count alone, or sets it back. A mount is tried only where the wait
    is over. -/
theorem considered_counts (t : Track) (c : Connection) (mounted : Option SmbMount) (now : Rat)
    (trouble : Bool) :
    let after := considered t c mounted now trouble
    (after.1.failures = t.failures ∧ after.1.nextTry = t.nextTry ∨ after.1.failures = 0) ∧
      (after.2 = true → after.1.failures = t.failures ∧ t.nextTry ≤ now) := by
  dsimp only
  unfold considered
  cases mounted with
  | some m => exact ⟨Or.inr rfl, fun h => absurd h Bool.false_ne_true⟩
  | none =>
      dsimp only
      have hgone := noteGone_counts t trouble
      have hmarked := noteDisconnected_counts (t.noteGone trouble) c
      rcases decide_counts ((t.noteGone trouble).noteDisconnected c) c now with
        ⟨hfailures, hnext, htry⟩
      rw [hmarked.1, hgone.1] at hfailures
      rw [hmarked.2, hgone.2] at hnext htry
      exact ⟨Or.inl ⟨hfailures, hnext⟩, fun h => ⟨hfailures, htry h⟩⟩

/-- No wait is shorter than the first one, or half a minute. -/
theorem least_backoff {interval took : Rat} {failures : Nat} (hinterval : IsFloat interval)
    (hpos : 0 ≤ interval) (hfailures : 1 ≤ failures) :
    min (interval * 2) fastBackoff ≤ backoff interval failures took := by
  have hexact : fl (interval * 2 ^ failures) = interval * 2 ^ failures :=
    fl_eq (isFloat_mul_pow hinterval failures)
  have hpower : (2 : Rat) ≤ 2 ^ failures := by
    calc (2 : Rat) = 2 ^ 1 := (pow_one 2).symm
      _ ≤ 2 ^ failures := pow_le_pow_right₀ (by norm_num) hfailures
  have hcaps : fastBackoff ≤ maxBackoff := by
    unfold fastBackoff maxBackoff
    norm_num
  unfold backoff
  rw [hexact]
  refine min_le_min (mul_le_mul_of_nonneg_left hpower hpos) ?_
  split
  · exact hcaps
  · exact le_rfl

theorem gap_pos (x : Rat) : 0 < gap x :=
  mul_pos (step_pos _) smallest_pos

/-- What outweighs a number is positive. -/
theorem pos_of_outweighs {d x : Rat} (h : Outweighs d x) : 0 < d := by
  have hgap := gap_pos x
  rcases h with h | ⟨h, -⟩
  · linarith
  · linarith

theorem recorded_raises_iff {interval now : Rat} {t : Track} {attempt : Attempt} :
    (recorded interval now t attempt).2 = true ↔ attempt.outcome = .raised ∨
      attempt.outcome.retryable = true ∧ floatLimit ≤ t.failures + 1 := by
  -- Only a failure that may pass is counted, and only the count can overflow.
  have hlater : ∀ message kind, (t.retryLater interval now message kind attempt.took).2 = true ↔
      floatLimit ≤ t.failures + 1 := by
    intro message kind
    unfold Track.retryLater
    dsimp only
    split
    · rename_i hlimit
      exact ⟨fun _ => hlimit, fun _ => rfl⟩
    · rename_i hlimit
      exact ⟨fun h => absurd h Bool.false_ne_true, fun h => absurd h hlimit⟩
  unfold recorded
  cases attempt.outcome with
  | mounted mountpoint => simp [MountOutcome.retryable]
  | netfs message retryable state =>
      cases retryable with
      | true => simp [MountOutcome.retryable, hlater]
      | false => simp [MountOutcome.retryable]
  | smbpal message => simp [MountOutcome.retryable, hlater]
  | raised => simp [MountOutcome.retryable]

/-- What is recorded of a failure that may pass. -/
theorem recorded_retryable {interval now : Rat} {t : Track} {attempt : Attempt}
    (hretry : attempt.outcome.retryable = true) (hfit : t.failures + 1 < floatLimit) :
    (recorded interval now t attempt).1.failures = t.failures + 1 ∧
      (recorded interval now t attempt).1.nextTry =
        fl (now + backoff interval (t.failures + 1) attempt.took) := by
  -- Both ways to fail are recorded by the same step.
  have hlater : ∀ message kind,
      (t.retryLater interval now message kind attempt.took).1.failures = t.failures + 1 ∧
      (t.retryLater interval now message kind attempt.took).1.nextTry =
        fl (now + backoff interval (t.failures + 1) attempt.took) := by
    intro message kind
    unfold Track.retryLater
    dsimp only
    rw [if_neg (Nat.not_le.mpr hfit)]
    exact ⟨rfl, rfl⟩
  unfold recorded
  cases houtcome : attempt.outcome with
  | mounted mountpoint =>
      rw [houtcome] at hretry
      exact absurd hretry Bool.false_ne_true
  | netfs message retryable state =>
      rw [houtcome] at hretry
      change retryable = true at hretry
      dsimp only
      rw [if_pos hretry]
      exact hlater message state
  | smbpal message => exact hlater message .failed
  | raised =>
      rw [houtcome] at hretry
      exact absurd hretry Bool.false_ne_true

/-- Any other outcome leaves the count alone, or sets it back. -/
theorem recorded_other {interval now : Rat} {t : Track} {attempt : Attempt}
    (hretry : attempt.outcome.retryable = false) :
    (recorded interval now t attempt).1.failures ≤ t.failures := by
  unfold recorded
  cases houtcome : attempt.outcome with
  | mounted mountpoint => exact Nat.zero_le _
  | netfs message retryable state =>
      rw [houtcome] at hretry
      change retryable = false at hretry
      dsimp only
      rw [if_neg (by rw [hretry]; decide)]
      exact Nat.le_refl _
  | smbpal message =>
      rw [houtcome] at hretry
      exact absurd hretry.symm Bool.false_ne_true
  | raised => exact Nat.le_refl _

variable [Unicode] {turn : Turn} {interval : Rat}

/-- The track that is put in place before a mount is tried. -/
def Turn.considered (turn : Turn) : Track :=
  (Smbpal.considered (turn.loop.trackFor turn.row) turn.row turn.mounted turn.now turn.trouble).1

theorem after_of_not_tries (h : turn.tries = false) :
    turn.after interval = (turn.loop.put (rowId turn.row) turn.considered, false) := by
  unfold Turn.after
  change (turn.loop.consider _ _ _ _).2 = false at h
  dsimp only
  rw [h]
  rfl

theorem after_of_tries (h : turn.tries = true) :
    (turn.after interval).2 =
        (recorded interval turn.now turn.considered turn.attempt).2 ∧
      (turn.after interval).1.tracks = (turn.loop.put (rowId turn.row)
        (recorded interval turn.now turn.considered turn.attempt).1).tracks := by
  have hput : (turn.loop.put (rowId turn.row) turn.considered).tracks (rowId turn.row) =
      some turn.considered := Function.update_self _ _ _
  unfold Turn.after
  change (turn.loop.consider _ _ _ _).2 = true at h
  dsimp only
  rw [h, if_pos rfl]
  change ((turn.loop.put (rowId turn.row) turn.considered).record _ _ _ _).2 = _ ∧
    ((turn.loop.put (rowId turn.row) turn.considered).record _ _ _ _).1.tracks = _
  unfold Loop.record
  rw [hput]
  refine ⟨rfl, ?_⟩
  unfold Loop.put
  dsimp only
  rw [Function.update_idem]

/-- What is recorded of a mount that was tried is the track of its row. -/
theorem after_track (h : turn.tries = true) :
    (turn.after interval).1.tracks (rowId turn.row) =
      some (recorded interval turn.now turn.considered turn.attempt).1 := by
  rw [(after_of_tries h).2]
  exact Function.update_self _ _ _

/-- A turn leaves the tracks of the other rows alone. -/
theorem after_other {id : Str} (h : id ≠ rowId turn.row) :
    (turn.after interval).1.tracks id = turn.loop.tracks id := by
  cases htries : turn.tries with
  | false =>
      rw [after_of_not_tries htries]
      exact Function.update_of_ne h _ _
  | true =>
      rw [(after_of_tries htries).2]
      exact Function.update_of_ne h _ _

/-- The count a mount is tried with. -/
theorem considered_failures (h : turn.tries = true) :
    turn.considered.failures = (turn.loop.trackFor turn.row).failures ∧
      (turn.loop.trackFor turn.row).nextTry ≤ turn.now :=
  (considered_counts _ _ _ _ _).2 h

/-- An exception ends a turn where the mount raises one, or fails once too often. -/
theorem turn_raises_iff : (turn.after interval).2 = true ↔ turn.tries = true ∧
    (turn.attempt.outcome = .raised ∨ turn.attempt.outcome.retryable = true ∧
      floatLimit ≤ (turn.loop.trackFor turn.row).failures + 1) := by
  cases htries : turn.tries with
  | false =>
      rw [after_of_not_tries htries]
      exact ⟨fun h => absurd h Bool.false_ne_true, fun h => absurd h.1 Bool.false_ne_true⟩
  | true =>
      rw [(after_of_tries htries).1, recorded_raises_iff, (considered_failures htries).1]
      exact ⟨fun h => ⟨rfl, h⟩, fun h => h.2⟩

/-- A turn is not ended by an exception and has what failed wait exactly when it fits. -/
theorem waits_iff_fits {r : Reconnector} {nfkc : Str → Str} {answers : MountAnswers}
    (hattempt : turn.attempt = r.attempt nfkc turn.row answers) (hclock : IsFloat turn.now)
    (hstarted : 0 ≤ turn.now) :
    (turn.after r.interval).2 = false ∧ turn.Waits r.interval ↔
      turn.Fits r nfkc answers.table := by
  -- A turn that tries raises just where nothing around it catches.
  have hraised : turn.attempt.outcome = .raised ↔ ¬r.CanMount nfkc turn.row answers.table := by
    rw [hattempt]
    exact mountRow_raised_iff
  constructor
  · rintro ⟨hgoes, hwaits⟩ htries
    have hnot : ¬(turn.after r.interval).2 = true := by
      rw [hgoes]
      exact Bool.false_ne_true
    refine ⟨?_, fun hretry => ?_⟩
    · by_contra hcan
      exact hnot (turn_raises_iff.mpr ⟨htries, Or.inl (hraised.mpr hcan)⟩)
    · -- With more failures the power of two overflows, and that raises too.
      have hfit : (turn.loop.trackFor turn.row).failures + 1 < floatLimit := by
        by_contra hlimit
        exact hnot (turn_raises_iff.mpr ⟨htries, Or.inr ⟨hretry, Nat.not_lt.mp hlimit⟩⟩)
      refine ⟨hfit, ?_⟩
      rcases hwaits htries hretry with ⟨t, ht, hlt, -⟩
      rw [after_track htries, Option.some.injEq] at ht
      rw [← (considered_failures htries).1] at hfit
      rw [← ht, (recorded_retryable hretry hfit).2, (considered_failures htries).1] at hlt
      exact (lt_fl_add_iff hclock hstarted).mp hlt
  · intro hfits
    refine ⟨Bool.eq_false_iff.mpr fun hraises => ?_, fun htries hretry => ?_⟩
    · rcases turn_raises_iff.mp hraises with ⟨htries, hraise | ⟨hretry, hlimit⟩⟩
      · exact hraised.mp hraise (hfits htries).1
      · exact absurd hlimit (Nat.not_le.mpr ((hfits htries).2 hretry).1)
    · rcases (hfits htries).2 hretry with ⟨hfit, hweighs⟩
      rw [← (considered_failures htries).1] at hfit hweighs
      refine ⟨_, after_track htries, ?_, ?_⟩
      · rw [(recorded_retryable hretry hfit).2]
        exact (lt_fl_add_iff hclock hstarted).mpr hweighs
      · rw [(recorded_retryable hretry hfit).2]
        -- The pause is at most the cap, and rounding keeps the order.
        have hcap : backoff r.interval (turn.considered.failures + 1) turn.attempt.took ≤
            turn.attempt.cap := min_le_right _ _
        exact fl_mono (by linarith)

end OneTurn

section OnePass

variable [Unicode] {r : Reconnector} {nfkc : Str → Str} {now : Rat} {attempts : Nat → Attempt}
  {answers : Nat → MountAnswers} {mounts : List SmbMount} {trouble : Bool}

/-- A pass goes from turn to turn. -/
theorem considerAll_cons (place : Nat) (c : Connection) (rows : List Connection) (s : Loop) :
    let after := (r.turn now attempts mounts trouble place c s).after r.interval
    let rest := r.considerAll now attempts mounts trouble (place + 1) rows after.1
    let passed := r.considerAll now attempts mounts trouble place (c :: rows) s
    passed.finished = (!after.2 && rest.finished) ∧
      passed.loop = if after.2 then after.1 else rest.loop := by
  dsimp only
  cases htries : (r.turn now attempts mounts trouble place c s).tries with
  | false =>
      have hafter := @after_of_not_tries _ _ r.interval htries
      change (s.consider c (r.mountOf mounts (rowKey c)) now trouble).2 = false at htries
      rw [hafter]
      simp only [Reconnector.considerAll, htries]
      exact ⟨rfl, rfl⟩
  | true =>
      change (s.consider c (r.mountOf mounts (rowKey c)) now trouble).2 = true at htries
      have hafter : (r.turn now attempts mounts trouble place c s).after r.interval =
          (s.consider c (r.mountOf mounts (rowKey c)) now trouble).1.record r.interval now
            (rowId c) (attempts place) := if_pos htries
      rw [hafter]
      simp only [Reconnector.considerAll, htries, if_true]
      -- A turn that raises ends the pass, and the rows behind it are not considered.
      split
      · rename_i hraises
        exact ⟨by rw [hraises]; rfl, rfl⟩
      · rename_i hraises
        exact ⟨by rw [Bool.eq_false_iff.mpr hraises]; rfl, rfl⟩

/-- The mounts tried for the rows, from this place on, are the agent's own. -/
def Attempted (r : Reconnector) (nfkc : Str → Str) (answers : Nat → MountAnswers)
    (attempts : Nat → Attempt) (place : Nat) (rows : List Connection) : Prop :=
  ∀ j c, rows[j]? = some c → attempts (place + j) = r.attempt nfkc c (answers (place + j))

theorem attempted_tail {place : Nat} {c : Connection} {rows : List Connection}
    (h : Attempted r nfkc answers attempts place (c :: rows)) :
    Attempted r nfkc answers attempts (place + 1) rows := by
  intro j d hd
  have hplace : place + 1 + j = place + (j + 1) := by omega
  rw [hplace]
  exact h (j + 1) d hd

omit [Unicode] in
/-- What holds at every place of a list holds at the first, and at all behind it. -/
theorem forall_places_cons {α : Type} {P : Nat → α → Prop} {a : α} {l : List α} {place : Nat} :
    (∀ j b, (a :: l)[j]? = some b → P (place + j) b) ↔
      P place a ∧ ∀ j b, l[j]? = some b → P (place + 1 + j) b := by
  constructor
  · intro h
    refine ⟨h 0 a rfl, fun j b hb => ?_⟩
    have hplace : place + 1 + j = place + (j + 1) := by omega
    rw [hplace]
    exact h (j + 1) b hb
  · rintro ⟨hfirst, hrest⟩ j b hb
    cases j with
    | zero => exact Option.some.inj hb ▸ hfirst
    | succ j =>
        have hplace : place + (j + 1) = place + 1 + j := by omega
        rw [hplace]
        exact hrest j b hb

/-- A pass has a turn for each row and gets to its end, and what failed waits, exactly when its
    turns fit. -/
theorem turns_fit_iff (hclock : IsFloat now) (hstarted : 0 ≤ now) (place : Nat)
    (rows : List Connection) (s : Loop)
    (hattempts : Attempted r nfkc answers attempts place rows) :
    let turns := r.turns now attempts mounts trouble place rows s
    (turns.map Turn.row = rows ∧
        (r.considerAll now attempts mounts trouble place rows s).finished = true ∧
          ∀ turn ∈ turns, turn.Waits r.interval) ↔
      ∀ j (turn : Turn), turns[j]? = some turn → turn.Fits r nfkc (answers (place + j)).table := by
  dsimp only
  induction rows generalizing place s with
  | nil =>
      exact ⟨fun _ _ _ h => (by cases h),
        fun _ => ⟨rfl, rfl, fun _ h => absurd h List.not_mem_nil⟩⟩
  | cons c rows ih =>
      let turn := r.turn now attempts mounts trouble place c s
      have hattempt : turn.attempt = r.attempt nfkc turn.row (answers place) := hattempts 0 c rfl
      have hone : (turn.after r.interval).2 = false ∧ turn.Waits r.interval ↔
          turn.Fits r nfkc (answers place).table := waits_iff_fits hattempt hclock hstarted
      have hfinished := (@considerAll_cons _ r now attempts mounts trouble place c rows s).1
      rw [hfinished, Bool.and_eq_true, Bool.not_eq_true']
      unfold Reconnector.turns
      dsimp only
      rw [List.map_cons, List.forall_mem_cons,
        @forall_places_cons Turn fun j turn => turn.Fits r nfkc (answers j).table]
      -- A turn that raises is the last one of its pass, and does not fit.
      cases hraises : (turn.after r.interval).2 with
      | true =>
          have hnot : ¬turn.Fits r nfkc (answers place).table := fun hfits =>
            Bool.false_ne_true ((hone.mpr hfits).1.symm.trans hraises)
          constructor
          · rintro ⟨-, ⟨hgoes, -⟩, -⟩
            cases hgoes
          · rintro ⟨hfits, -⟩
            exact absurd hfits hnot
      | false =>
          have hrest := ih (place + 1) (turn.after r.interval).1 (attempted_tail hattempts)
          rw [if_neg Bool.false_ne_true, ← hrest, ← hone]
          constructor
          · rintro ⟨hrows, ⟨-, hend⟩, hwaits, hwaitsRest⟩
            exact ⟨⟨hraises, hwaits⟩, (List.cons.inj hrows).2, hend, hwaitsRest⟩
          · rintro ⟨⟨-, hwaits⟩, hrows, hend, hwaitsRest⟩
            exact ⟨congrArg (c :: ·) hrows, ⟨rfl, hend⟩, hwaits, hwaitsRest⟩

omit [Unicode] in
theorem wake_lastList (s : Loop) (i : PassInput) : (s.wake i).lastList = s.lastList := by
  unfold Loop.wake
  dsimp only
  split
  · rfl
  · rfl

/-- An ordinary pass goes over some rows, and mounts them as the agent does. -/
theorem ordinary_rows {p : AgentPass} (hp : p.Ordinary) (s : Loop) : ∃ listed mounts s',
    s'.tracks = (s.wake (p.input r nfkc s)).tracks ∧
      r.rowsOf s (p.input r nfkc s) = some (r.mine listed) ∧
        r.agentTurns nfkc s p = r.turns p.now (p.input r nfkc s).attempts mounts
          (before p.now s'.troubleUntil) 0 (r.mine listed) s' ∧
        r.tick (p.input r nfkc s) s = r.pass (p.input r nfkc s) (r.mine listed) mounts s' ∧
        Attempted r nfkc p.answers (p.input r nfkc s).attempts 0 (r.mine listed) := by
  -- Each turn tries what the answers for its row make of it.
  have hattempted : ∀ listed, r.rowsOf s (p.input r nfkc s) = some (r.mine listed) →
      Attempted r nfkc p.answers (p.input r nfkc s).attempts 0 (r.mine listed) := by
    intro listed hrows j c hc
    have hsame : p.rows r s = r.mine listed := congrArg (·.getD []) hrows
    rw [Nat.zero_add]
    unfold AgentPass.input AgentPass.trying
    rw [hsame]
    dsimp only
    rw [hc]
  rcases hp.mounts with ⟨mounts, hmounts⟩
  cases hlisted : p.listed with
  -- The config could be read.
  | ok listed =>
      have hinput : (p.input r nfkc s).listed = .ok listed := hlisted
      have hrows : r.rowsOf s (p.input r nfkc s) = some (r.mine listed) := by
        unfold Reconnector.rowsOf
        rw [hinput]
      refine ⟨listed, mounts, { s.wake (p.input r nfkc s) with lastList := listed }, rfl, hrows,
        ?_, ?_, hattempted listed hrows⟩
      · unfold Reconnector.agentTurns Reconnector.passTurns
        rw [hinput]
        change r.turnsOver (p.input r nfkc s) listed _ = _
        unfold Reconnector.turnsOver
        rw [show (p.input r nfkc s).mounts = .ok mounts from hmounts]
        rfl
      · unfold Reconnector.tick
        rw [hinput]
        change r.passOver (p.input r nfkc s) listed _ = _
        unfold Reconnector.passOver
        rw [show (p.input r nfkc s).mounts = .ok mounts from hmounts]
  -- It could not, with an error that is caught: the rows are those read last.
  | error e =>
      rcases hp.listed e hlisted with ⟨reported, rfl⟩
      have hinput : (p.input r nfkc s).listed = .error (.smbpal reported) := hlisted
      have hrows : r.rowsOf s (p.input r nfkc s) =
          some (r.mine (s.wake (p.input r nfkc s)).lastList) := by
        unfold Reconnector.rowsOf
        rw [hinput, wake_lastList]
      refine ⟨(s.wake (p.input r nfkc s)).lastList, mounts, s.wake (p.input r nfkc s), rfl, hrows,
        ?_, ?_, hattempted _ hrows⟩
      · unfold Reconnector.agentTurns Reconnector.passTurns
        rw [hinput]
        change r.turnsOver (p.input r nfkc s) _ _ = _
        unfold Reconnector.turnsOver
        rw [show (p.input r nfkc s).mounts = .ok mounts from hmounts]
        rfl
      · unfold Reconnector.tick
        rw [hinput]
        change r.passOver (p.input r nfkc s) _ _ = _
        unfold Reconnector.passOver
        rw [show (p.input r nfkc s).mounts = .ok mounts from hmounts]

/-- The report is made where every row was considered. -/
theorem pass_finished (i : PassInput) (rows : List Connection) (mounts : List SmbMount) (s : Loop) :
    (r.pass i rows mounts s).finished =
      (r.considerAll i.now i.attempts mounts (before i.now s.troubleUntil) 0 rows s).finished := by
  unfold Reconnector.pass
  dsimp only
  split
  · rfl
  · rfl

/-- A pass keeps the tracks of its rows. -/
theorem pass_tracks (i : PassInput) {rows : List Connection} (mounts : List SmbMount) (s : Loop)
    {id : Str} (hid : id ∈ rows.map rowId) : (r.pass i rows mounts s).loop.tracks id =
      (r.considerAll i.now i.attempts mounts (before i.now s.troubleUntil) 0 rows s).loop.tracks
        id := by
  unfold Reconnector.pass
  dsimp only
  split
  · exact if_pos hid
  · rfl

/-- A pass goes on exactly when its turns fit. -/
theorem goesOn_iff {s : Loop} {p : AgentPass} (hp : p.Ordinary) :
    r.GoesOn nfkc s p ↔ r.Fits nfkc s p := by
  rcases @ordinary_rows _ r nfkc p hp s with ⟨listed, mounts, s', -, hrows, hturns, htick, hown⟩
  have hiff := @turns_fit_iff _ r nfkc p.now _ p.answers mounts (before p.now s'.troubleUntil)
    hp.clock hp.started 0 (r.mine listed) s' hown
  rw [← hturns] at hiff
  simp only [Nat.zero_add] at hiff
  have hfinished := pass_finished (r := r) (p.input r nfkc s) (r.mine listed) mounts s'
  rw [← htick] at hfinished
  rw [Reconnector.Fits, ← hiff]
  constructor
  · intro h
    exact ⟨(Option.some.inj (hrows.symm.trans h.considered)).symm, hfinished ▸ h.reported, h.waits⟩
  · rintro ⟨hall, hreported, hwaits⟩
    exact ⟨by rw [hrows, hall], hfinished ▸ hreported, hwaits⟩

end OnePass

section Counts

variable [Unicode] {r : Reconnector} {nfkc : Str → Str} {n : Nat} {s : Loop}

/-- No mount has failed more often in a row. -/
def Loop.Counted (n : Nat) (s : Loop) : Prop :=
  ∀ id t, s.tracks id = some t → t.failures ≤ n

/-- Within a pass: what has failed once more waits. -/
def Loop.CountedAt (n : Nat) (now : Rat) (s : Loop) : Prop :=
  ∀ id t, s.tracks id = some t → t.failures ≤ n ∨ t.failures = n + 1 ∧ now < t.nextTry

omit [Unicode] in
theorem put_countedAt {now : Rat} {id : Str} {t : Track} (hs : s.CountedAt n now)
    (ht : t.failures ≤ n ∨ t.failures = n + 1 ∧ now < t.nextTry) :
    (s.put id t).CountedAt n now := by
  intro other u hu
  change Function.update s.tracks id (some t) other = some u at hu
  by_cases hid : other = id
  · rw [hid, Function.update_self, Option.some.injEq] at hu
    rw [← hu]
    exact ht
  · rw [Function.update_of_ne hid] at hu
    exact hs other u hu

theorem trackFor_countedAt {now : Rat} (hs : s.CountedAt n now) (c : Connection) :
    (s.trackFor c).failures ≤ n ∨
      (s.trackFor c).failures = n + 1 ∧ now < (s.trackFor c).nextTry := by
  unfold Loop.trackFor
  cases htrack : s.tracks (rowId c) with
  | none => exact Or.inl (Nat.zero_le n)
  | some t =>
      dsimp only
      split
      · exact hs _ t htrack
      · exact Or.inl (Nat.zero_le n)

/-- A turn that is spared fits where the limit is not reached, and adds one to the count of what
    fails. -/
theorem turn_counted {turn : Turn} {table : List SmbMount} (hinterval : IsFloat r.interval)
    (hlimit : n + 1 < floatLimit) (hclock : IsFloat turn.now) (hstarted : 0 ≤ turn.now)
    (hspared : turn.Spares r nfkc table) (hs : turn.loop.CountedAt n turn.now) :
    turn.Fits r nfkc table ∧ (turn.after r.interval).1.CountedAt n turn.now := by
  have htrack := trackFor_countedAt hs turn.row
  have hconsidered := considered_counts (turn.loop.trackFor turn.row) turn.row turn.mounted turn.now
    turn.trouble
  -- Where a mount is tried the wait is over, so it has not failed in this pass.
  have hover : turn.tries = true → (turn.loop.trackFor turn.row).failures ≤ n := by
    intro htries
    rcases htrack with hle | ⟨-, hwaits⟩
    · exact hle
    · exact absurd (hconsidered.2 htries).2 (not_le.mpr hwaits)
  have hweighs : turn.tries = true → ∀ failures, 1 ≤ failures →
      Outweighs (backoff r.interval failures turn.attempt.took) turn.now := by
    intro htries failures hfailures
    have hleast := (hspared htries).2
    have hpos : 0 < r.interval * 2 := (pos_of_outweighs hleast).trans_le (min_le_left _ _)
    exact hleast.mono (least_backoff hinterval (by linarith) hfailures)
  refine ⟨fun htries => ⟨(hspared htries).1, fun _ => ⟨?_, hweighs htries _ (by omega)⟩⟩, ?_⟩
  · have hle := hover htries
    omega
  cases htries : turn.tries with
  | false =>
      rw [after_of_not_tries htries]
      refine put_countedAt hs ?_
      rcases hconsidered.1 with ⟨hfailures, hnext⟩ | hzero
      · unfold Turn.considered
        rw [hfailures, hnext]
        exact htrack
      · exact Or.inl (le_of_eq_of_le hzero (Nat.zero_le n))
  | true =>
      have hle := hover htries
      have hcount := (considered_failures htries).1
      intro id t ht
      rw [(after_of_tries htries).2] at ht
      refine put_countedAt hs ?_ id t ht
      cases hretry : turn.attempt.outcome.retryable with
      | true =>
          have hfit : turn.considered.failures + 1 < floatLimit := by omega
          rcases @recorded_retryable r.interval turn.now _ _ hretry hfit with ⟨hfailures, hnext⟩
          rw [hfailures, hnext]
          by_cases hn : turn.considered.failures = n
          · refine Or.inr ⟨by omega, ?_⟩
            exact (lt_fl_add_iff hclock hstarted).mpr (hweighs htries _ (by omega))
          · exact Or.inl (by omega)
      | false =>
          have hother := @recorded_other r.interval turn.now turn.considered turn.attempt hretry
          exact Or.inl (by omega)

/-- So do all turns of a pass. -/
theorem turns_counted {now : Rat} {attempts : Nat → Attempt} {answers : Nat → MountAnswers}
    {mounts : List SmbMount} {trouble : Bool} (hinterval : IsFloat r.interval)
    (hlimit : n + 1 < floatLimit) (hclock : IsFloat now) (hstarted : 0 ≤ now) (place : Nat)
    (rows : List Connection)
    (hspared : ∀ j (turn : Turn), (r.turns now attempts mounts trouble place rows s)[j]? =
      some turn → turn.Spares r nfkc (answers (place + j)).table) (hs : s.CountedAt n now) :
    (∀ j (turn : Turn), (r.turns now attempts mounts trouble place rows s)[j]? = some turn →
        turn.Fits r nfkc (answers (place + j)).table) ∧
      (r.considerAll now attempts mounts trouble place rows s).loop.CountedAt n now := by
  induction rows generalizing place s with
  | nil => exact ⟨fun _ _ h => (by cases h), hs⟩
  | cons c rows ih =>
      have hloop := (@considerAll_cons _ r now attempts mounts trouble place c rows s).2
      rw [hloop]
      unfold Reconnector.turns at hspared ⊢
      dsimp only at hspared ⊢
      rw [@forall_places_cons Turn fun j turn => turn.Spares r nfkc (answers j).table] at hspared
      rw [@forall_places_cons Turn fun j turn => turn.Fits r nfkc (answers j).table]
      have hone := @turn_counted _ r nfkc n (r.turn now attempts mounts trouble place c s) _
        hinterval hlimit hclock hstarted hspared.1 hs
      have hrest := hspared.2
      -- Where the pass ends here, nothing is asked of the rows behind.
      split
      · exact ⟨⟨hone.1, fun _ _ h => (by cases h)⟩, hone.2⟩
      · rename_i hgoes
        rw [if_neg hgoes] at hrest
        rcases ih (place + 1) hrest hone.2 with ⟨hfit, hcounted⟩
        exact ⟨⟨hone.1, hfit⟩, hcounted⟩

omit [Unicode] in
theorem wake_counted (hs : s.Counted n) (i : PassInput) : (s.wake i).Counted n := by
  unfold Loop.wake
  dsimp only
  split
  · intro id t ht
    rcases Option.map_eq_some_iff.mp ht with ⟨u, hu, rfl⟩
    have hcount : u.retryNow.failures = u.failures := by
      unfold Track.retryNow
      split
      · rfl
      · rfl
    rw [hcount]
    exact hs id u hu
  · exact hs

/-- Below the limit a pass that is spared goes on, and adds at most one to a count. -/
theorem pass_counted {p : AgentPass} (hinterval : IsFloat r.interval) (hlimit : n + 1 < floatLimit)
    (hp : p.Ordinary) (hspared : r.Spares nfkc s p) (hs : s.Counted n) :
    r.GoesOn nfkc s p ∧ (r.tick (p.input r nfkc s) s).loop.Counted (n + 1) := by
  rcases @ordinary_rows _ r nfkc p hp s with ⟨listed, mounts, s', htracks, -, hturns, htick, -⟩
  -- Waking only ever takes failures back.
  have hwoken : s'.CountedAt n p.now := by
    intro id t ht
    rw [htracks] at ht
    exact Or.inl (wake_counted hs _ id t ht)
  unfold Reconnector.Spares at hspared
  rw [hturns] at hspared
  have hall := @turns_counted _ r nfkc n s' p.now (p.input r nfkc s).attempts p.answers mounts
    (before p.now s'.troubleUntil) hinterval hlimit hp.clock hp.started 0 (r.mine listed)
    (fun j turn hturn => (Nat.zero_add j).symm ▸ hspared j turn hturn) hwoken
  constructor
  · rw [goesOn_iff hp]
    intro place turn hturn
    rw [hturns] at hturn
    exact Nat.zero_add place ▸ hall.1 place turn hturn
  · rw [htick]
    intro id t ht
    have hmember : (r.considerAll p.now (p.input r nfkc s).attempts mounts
        (before p.now s'.troubleUntil) 0 (r.mine listed) s').loop.tracks id = some t := by
      unfold Reconnector.pass at ht
      -- After the pass only the tracks of its own rows are kept.
      dsimp only at ht
      split at ht
      · change (if id ∈ (r.mine listed).map rowId then _ else none) = some t at ht
        split at ht
        · exact ht
        · cases ht
      · exact ht
    -- Either the track is as old as the pass before, or it failed in this one.
    rcases hall.2 id t hmember with hle | ⟨heq, -⟩
    · omega
    · omega

/-- What the agent's methods tell the loop adds to no count. -/
theorem told_counted {e : AgentEvent} (he : e.isPass = false) (hs : s.Counted n) :
    (r.agentStep nfkc s e).Counted n := by
  -- Both events change the tracks one by one, and neither counts a failure.
  have hmap : ∀ f : Track → Track, (∀ t, (f t).failures ≤ t.failures) →
      ({ s with tracks := fun id => (s.tracks id).map f } : Loop).Counted n := by
    intro f hf id t ht
    rcases Option.map_eq_some_iff.mp ht with ⟨u, hu, rfl⟩
    exact Nat.le_trans (hf u) (hs id u hu)
  cases e with
  | pass p => exact absurd he.symm Bool.false_ne_true
  | released mountpoint =>
      refine hmap _ fun t => ?_
      unfold Track.release
      split
      · exact Nat.le_refl _
      · exact Nat.le_refl _
  | connected key mountpoint =>
      refine hmap _ fun t => ?_
      unfold Track.connect
      split
      · exact Nat.zero_le _
      · exact Nat.le_refl _

/-- A loop that has made so many passes goes on for as many more as there are to the limit. -/
theorem goesOn_below_limit (hinterval : IsFloat r.interval) {events : List AgentEvent}
    (hevents : ∀ e ∈ events, e.Ordinary) (hs : s.Counted n)
    (hlimit : n + events.countP AgentEvent.isPass < floatLimit)
    (hspared : GuardedRun.Along (r.agentStep nfkc) (fun s e => e.InPass (r.Spares nfkc) s) s
      events) :
    GuardedRun.Along (r.agentStep nfkc) (fun s e => e.InPass (r.GoesOn nfkc) s) s events := by
  induction events generalizing s n with
  | nil => trivial
  | cons e events ih =>
      rw [List.forall_mem_cons] at hevents
      cases hpass : e.isPass with
      -- Only a pass counts a failure, so what is told in between keeps the count.
      | false =>
          rw [List.countP_cons_of_neg (by rw [hpass]; decide)] at hlimit
          refine ⟨?_, ih hevents.2 (told_counted hpass hs) hlimit hspared.2⟩
          cases e with
          | pass p => exact absurd hpass.symm Bool.false_ne_true
          | released mountpoint => trivial
          | connected key mountpoint => trivial
      | true =>
          rw [List.countP_cons_of_pos hpass] at hlimit
          cases e with
          | released mountpoint => exact absurd hpass Bool.false_ne_true
          | connected key mountpoint => exact absurd hpass Bool.false_ne_true
          | pass p =>
              -- The pass counts one more, and one less is left to come.
              rcases @pass_counted _ r nfkc n s p hinterval (by omega) hevents.1 hspared.1 hs with
                ⟨hgoes, hcounted⟩
              exact ⟨hgoes, ih hevents.2 hcounted (by omega) hspared.2⟩

theorem along_congr {P Q : Loop → AgentEvent → Prop} {events : List AgentEvent}
    (h : ∀ s, ∀ e ∈ events, (P s e ↔ Q s e)) (s : Loop) :
    GuardedRun.Along (r.agentStep nfkc) P s events ↔
      GuardedRun.Along (r.agentStep nfkc) Q s events := by
  induction events generalizing s with
  | nil => exact Iff.rfl
  | cons e events ih =>
      exact and_congr (h s e List.mem_cons_self)
        (ih (fun s e he => h s e (List.mem_cons_of_mem _ he)) _)

end Counts

section Main

variable [Unicode]

/-- Along every run of a loop, each pass considers every connection, gets to its report and has what
    failed wait, exactly when in each pass what is tried can be mounted, no mount fails for the
    1024th time in a row and each wait outweighs the clock. With an interval that does so, a run
    with fewer passes is one of those. -/
theorem loop_goes_on_iff (r : Reconnector) (nfkc : Str → Str) (events : List AgentEvent)
    (hevents : ∀ e ∈ events, e.Ordinary) :
    (GuardedRun.Along (r.agentStep nfkc) (fun s e => e.InPass (r.GoesOn nfkc) s) .start events ↔
      GuardedRun.Along (r.agentStep nfkc) (fun s e => e.InPass (r.Fits nfkc) s) .start events) ∧
    (IsFloat r.interval → events.countP AgentEvent.isPass < floatLimit →
      GuardedRun.Along (r.agentStep nfkc) (fun s e => e.InPass (r.Spares nfkc) s) .start events →
      GuardedRun.Along (r.agentStep nfkc) (fun s e => e.InPass (r.GoesOn nfkc) s) .start
        events) := by
  constructor
  · refine along_congr (fun s e he => ?_) .start
    have hordinary := hevents e he
    cases e with
    | pass p => exact goesOn_iff hordinary
    | released mountpoint => exact Iff.rfl
    | connected key mountpoint => exact Iff.rfl
  · intro hinterval hlimit hspared
    have hstart : Loop.start.Counted 0 := fun id t ht => by cases ht
    exact goesOn_below_limit hinterval hevents hstart (by rw [Nat.zero_add]; exact hlimit) hspared

end Main

section Outage

attribute [local instance] Unicode.ascii

/-- Ann's other connection. -/
def annsBackup : Connection :=
  { annsMusic with
    id := some (str "backup")
    host := some (str "tower")
    share := some (str "Backup")
    mountpoint := some (str "/Volumes/Backup") }

/-- Its mount. -/
def backupMount : SmbMount :=
  { host := str "tower"
    share := str "Backup"
    mountpoint := str "/Volumes/Backup"
    ownerUid := 501
    fsid := (1, 1) }

/-- What is answered while Ann's server is away. -/
def noRoute : MountAnswers :=
  { table := [backupMount]
    keychain := .ok false
    netfs := .error { message := str "no route", retryable := true, state := .unreachable }
    took := 5 }

/-- One of the passes while it is away, five minutes after the one before. -/
def outagePass (rows : List Connection) (k : Nat) : AgentPass :=
  { volumeTrouble := false
    networkChanged := false
    wall := 300 * k
    now := 300 * k
    listed := .ok rows
    mounts := .ok [backupMount]
    answers := fun _ => noRoute }

/-- What is tried in it over both connections. -/
def outageInput (k : Nat) : PassInput :=
  (outagePass [annsMusic, annsBackup] k).trying fun place =>
    match [annsMusic, annsBackup][place]? with
    | some c => annsLoop.attempt id c noRoute
    | none => .none

/-- The loop after so many of them. -/
def outageLoop (passes : Nat) : Loop :=
  ((List.range passes).map fun k => AgentEvent.pass (outagePass [annsMusic, annsBackup] k)).foldl
    (annsLoop.agentStep id) .start

theorem isFloat_outage (rows : List Connection) {k : Nat} (h : k ≤ 2 ^ 40) :
    IsFloat (outagePass rows k).now := by
  have hfloat := @isFloat_natCast (300 * k) (by omega)
  push_cast at hfloat
  exact hfloat

theorem outagePass_ordinary (rows : List Connection) {k : Nat} (h : k ≤ 2 ^ 40) :
    (outagePass rows k).Ordinary where
  listed := fun e he => by cases he
  mounts := ⟨_, rfl⟩
  clock := isFloat_outage rows h
  started := by
    change (0 : Rat) ≤ 300 * k
    positivity

theorem anns_rows : annsLoop.mine [annsMusic, annsBackup] = [annsMusic, annsBackup] := by
  decide +kernel

theorem outage_input (k : Nat) (s : Loop) :
    (outagePass [annsMusic, annsBackup] k).input annsLoop id s = outageInput k := by
  have hrows : (outagePass [annsMusic, annsBackup] k).rows annsLoop s = [annsMusic, annsBackup] :=
    anns_rows
  unfold AgentPass.input
  rw [hrows]
  rfl

/-- So many mounts have failed in a row, and the next is due. -/
structure Track.Due (t : Track) (k : Nat) : Prop where
  key : t.key = rowKey annsMusic
  mountedAt : t.mountedAt = none
  held : t.held = none
  failures : t.failures = k
  nextTry : t.nextTry ≤ 300 * k

theorem retryNow_key (t : Track) : t.retryNow.key = t.key := by
  unfold Track.retryNow
  split
  · rfl
  · rfl

theorem trackFor_retryWaiting (s : Loop) (c : Connection) :
    s.retryWaiting.trackFor c = (s.trackFor c).retryNow := by
  have hnew : (Track.new (rowKey c)).retryNow = Track.new (rowKey c) := if_pos ⟨rfl, rfl⟩
  unfold Loop.trackFor Loop.retryWaiting
  dsimp only
  cases s.tracks (rowId c) with
  | none => exact hnew.symm
  | some t =>
      dsimp only [Option.map_some]
      rw [retryNow_key]
      split
      · rfl
      · exact hnew.symm

theorem wake_due {s : Loop} {k : Nat} (h : (s.trackFor annsMusic).Due k) (i : PassInput) :
    ((s.wake i).trackFor annsMusic).Due k := by
  unfold Loop.wake
  dsimp only
  split
  · have hretry : (s.trackFor annsMusic).retryNow = { s.trackFor annsMusic with nextTry := 0 } :=
      if_pos ⟨h.held, h.mountedAt⟩
    rw [trackFor_retryWaiting]
    change (s.trackFor annsMusic).retryNow.Due k
    rw [hretry]
    exact ⟨h.key, h.mountedAt, h.held, h.failures, by positivity⟩
  · exact h

/-- The turn of a connection that is due. -/
def dueTurn (k : Nat) (trouble : Bool) (s : Loop) : Turn :=
  annsLoop.turn (300 * k) (outageInput k).attempts [backupMount] trouble 0 annsMusic s

theorem due_tries {s : Loop} {k : Nat} {trouble : Bool} (h : (s.trackFor annsMusic).Due k) :
    (dueTurn k trouble s).tries = true ∧
      (dueTurn k trouble s).considered = s.trackFor annsMusic := by
  have hmounted : (dueTurn k trouble s).mounted = none := by
    change annsLoop.mountOf [backupMount] (rowKey annsMusic) = none
    decide +kernel
  have hconsidered : considered (s.trackFor annsMusic) annsMusic none (300 * k) trouble =
      (s.trackFor annsMusic, true) := by
    -- Nothing was mounted and nothing is marked, so the track is what it was.
    have hgone : (s.trackFor annsMusic).noteGone trouble = s.trackFor annsMusic := by
      unfold Track.noteGone
      rw [h.mountedAt]
    have hmarked : (s.trackFor annsMusic).noteDisconnected annsMusic = s.trackFor annsMusic :=
      if_neg (by decide)
    have hnever : annsMusic.autoConnect ≠ some (str "never") := by decide
    unfold considered
    dsimp only
    rw [hgone, hmarked, Track.decide, if_neg (fun hheld => hheld h.held), if_neg hnever,
      decide_eq_true h.nextTry]
  unfold Turn.tries Turn.considered Loop.consider
  rw [hmounted]
  exact ⟨congrArg Prod.snd hconsidered, congrArg Prod.fst hconsidered⟩

/-- What an outage pass goes over. -/
theorem outage_pass (k : Nat) (s : Loop) : ∃ s', s'.trackFor annsMusic =
      (s.wake (outageInput k)).trackFor annsMusic ∧
    annsLoop.tick (outageInput k) s =
      annsLoop.pass (outageInput k) [annsMusic, annsBackup] [backupMount] s' ∧
    annsLoop.passTurns (outageInput k) s = annsLoop.turns (300 * k) (outageInput k).attempts
      [backupMount] (before (300 * k) s'.troubleUntil) 0 [annsMusic, annsBackup] s' := by
  refine ⟨{ s.wake (outageInput k) with lastList := [annsMusic, annsBackup] }, rfl, ?_, ?_⟩
  · change annsLoop.pass (outageInput k) (annsLoop.mine [annsMusic, annsBackup]) _ _ = _
    rw [anns_rows]
  · change annsLoop.turns _ _ _ _ 0 (annsLoop.mine [annsMusic, annsBackup]) _ = _
    rw [anns_rows]
    rfl

/-- On each pass the mount fails once more, and is due again on the next. -/
theorem outage_step {s : Loop} {k : Nat} (h : (s.trackFor annsMusic).Due k)
    (hk : k + 1 < floatLimit) :
    ((annsLoop.tick (outageInput k) s).loop.trackFor annsMusic).Due (k + 1) := by
  rcases outage_pass k s with ⟨s', htrack, htick, -⟩
  have hdue : (s'.trackFor annsMusic).Due k := htrack ▸ wake_due h (outageInput k)
  let trouble := before (300 * (k : Rat)) s'.troubleUntil
  let after := (dueTurn k trouble s').after annsLoop.interval
  rcases @due_tries s' k trouble hdue with ⟨htries, hconsidered⟩
  have hfit : (dueTurn k trouble s').considered.failures + 1 < floatLimit := by
    rw [hconsidered, hdue.failures]
    exact hk
  have hgoes : after.2 = false := by
    refine Bool.eq_false_iff.mpr fun hraises => ?_
    rcases turn_raises_iff.mp hraises with ⟨-, hraised | ⟨-, hlimit⟩⟩
    · cases hraised
    · rw [← (considered_failures htries).1] at hlimit
      omega
  have hothers : rowId annsMusic ≠ rowId annsBackup := by decide
  have hloop := (@considerAll_cons _ annsLoop (300 * k) (outageInput k).attempts [backupMount]
    trouble 0 annsMusic [annsBackup] s').2
  have hrest := (@considerAll_cons _ annsLoop (300 * k) (outageInput k).attempts [backupMount]
    trouble 1 annsBackup [] after.1).2
  change _ = if after.2 = true then after.1 else _ at hloop
  rw [hgoes, if_neg Bool.false_ne_true] at hloop
  replace hloop := hloop.trans hrest
  -- The other connection's turn does not touch the track.
  have hkept : ((annsLoop.tick (outageInput k) s).loop.tracks (rowId annsMusic)) =
      after.1.tracks (rowId annsMusic) := by
    rw [htick, pass_tracks _ _ _ List.mem_cons_self]
    change (annsLoop.considerAll (300 * (k : Rat)) _ _ trouble _ _ _).loop.tracks _ = _
    rw [hloop]
    split
    · exact after_other hothers
    · exact after_other hothers
  have hrecorded : recorded annsLoop.interval (300 * k) (s'.trackFor annsMusic)
      ((outageInput k).attempts 0) =
        (s'.trackFor annsMusic).retryLater annsLoop.interval (300 * k) (str "no route")
          .unreachable 5 := rfl
  have htracked : (annsLoop.tick (outageInput k) s).loop.tracks (rowId annsMusic) =
      some ((s'.trackFor annsMusic).retryLater annsLoop.interval (300 * k) (str "no route")
        .unreachable 5).1 := by
    rw [hkept, ← hrecorded, ← hconsidered]
    exact after_track htries
  have hlimit : ¬floatLimit ≤ (s'.trackFor annsMusic).failures + 1 := by
    rw [hdue.failures]
    omega
  unfold Track.retryLater at htracked
  dsimp only at htracked
  rw [if_neg hlimit] at htracked
  unfold Loop.trackFor
  rw [htracked]
  dsimp only
  rw [if_pos hdue.key]
  refine ⟨hdue.key, hdue.mountedAt, hdue.held, congrArg (· + 1) hdue.failures, ?_⟩
  have hcap : backoff annsLoop.interval ((s'.trackFor annsMusic).failures + 1) 5 ≤ 300 :=
    (min_le_right _ _).trans (by unfold slowAttempt maxBackoff; norm_num)
  have hsum : 300 * (k : Rat) + backoff annsLoop.interval ((s'.trackFor annsMusic).failures + 1) 5 ≤
      300 * ((k + 1 : Nat) : Rat) := by
    push_cast
    linarith
  have hnext : IsFloat (300 * ((k + 1 : Nat) : Rat)) :=
    isFloat_outage [] (by unfold floatLimit at hk; omega)
  exact fl_eq hnext ▸ fl_mono hsum

/-- After that many passes of an outage, that many mounts have failed. -/
theorem outageLoop_due {passes : Nat} (h : passes < floatLimit) :
    ((outageLoop passes).trackFor annsMusic).Due passes := by
  induction passes with
  | zero => exact ⟨rfl, rfl, rfl, rfl, by change (0 : Rat) ≤ 300 * ((0 : Nat) : Rat); norm_num⟩
  | succ passes ih =>
      have hlast : outageLoop (passes + 1) =
          (annsLoop.tick (outageInput passes) (outageLoop passes)).loop := by
        unfold outageLoop
        rw [List.range_succ, List.map_append, List.foldl_append, ← outage_input]
        rfl
      rw [hlast]
      exact outage_step (ih (by omega)) h

/-- Once too often, and the pass ends there. -/
theorem outage_ends {s : Loop} {k : Nat} (h : (s.trackFor annsMusic).Due k)
    (hk : floatLimit ≤ k + 1) :
    (annsLoop.passTurns (outageInput k) s).map Turn.row = [annsMusic] ∧
      (annsLoop.tick (outageInput k) s).finished = false := by
  rcases outage_pass k s with ⟨s', htrack, htick, hturns⟩
  have hdue : (s'.trackFor annsMusic).Due k := htrack ▸ wake_due h (outageInput k)
  let trouble := before (300 * (k : Rat)) s'.troubleUntil
  rcases @due_tries s' k trouble hdue with ⟨htries, hconsidered⟩
  -- The next failure would be the one whose power of two is too large.
  have hraises : ((dueTurn k trouble s').after annsLoop.interval).2 = true := by
    refine turn_raises_iff.mpr ⟨htries, Or.inr ⟨rfl, ?_⟩⟩
    rw [← (considered_failures htries).1, hconsidered, hdue.failures]
    exact hk
  have hcons := (@considerAll_cons _ annsLoop (300 * k) (outageInput k).attempts [backupMount]
    trouble 0 annsMusic [annsBackup] s').1
  change _ = (!((dueTurn k trouble s').after annsLoop.interval).2 && _) at hcons
  rw [hraises] at hcons
  constructor
  · -- The pass ends at the first row, so the second has no turn.
    have hone : annsLoop.turns (300 * k) (outageInput k).attempts [backupMount] trouble 0
        [annsMusic, annsBackup] s' = [dueTurn k trouble s'] := by
      unfold Reconnector.turns
      dsimp only
      exact congrArg _ (if_pos hraises)
    rw [hturns, hone]
    rfl
  · rw [htick, pass_finished]
    exact hcons

/-- An outage of 1024 failures in a row: the pass ends with an exception and does not come to the
    other connection. -/
theorem outage_stops_loop :
    ({ emptyConfig with connections := [annsMusic, annsBackup] } : Config).Valid ∧
      (∀ k ≤ 2 ^ 40, (outagePass [annsMusic, annsBackup] k).Ordinary) ∧
        (annsLoop.agentTurns id (outageLoop 1023)
            (outagePass [annsMusic, annsBackup] 1023)).map Turn.row = [annsMusic] ∧
          ¬annsLoop.GoesOn id (outageLoop 1023) (outagePass [annsMusic, annsBackup] 1023) := by
  have hlimit : (1023 : Nat) < floatLimit := by
    unfold floatLimit
    omega
  rcases outage_ends (outageLoop_due hlimit) (Nat.le_refl _) with ⟨hrows, hreported⟩
  rw [← outage_input 1023 (outageLoop 1023)] at hrows hreported
  refine ⟨by decide +kernel, fun k hk => outagePass_ordinary _ hk, hrows, fun h => ?_⟩
  exact Bool.false_ne_true (hreported.symm.trans h.reported)

/-- The same connection with a port in its host, which the schema accepts. -/
def annsPort : Connection :=
  { annsMusic with host := some (str "nas:445") }

/-- Its URL has the host in brackets, where only an address is read back, and the first pass ends
    there. -/
example : ({ emptyConfig with connections := [annsPort, annsBackup] } : Config).Valid ∧
    (annsLoop.agentTurns id .start (outagePass [annsPort, annsBackup] 0)).map Turn.row =
      [annsPort] ∧
    (annsLoop.tick ((outagePass [annsPort, annsBackup] 0).input annsLoop id .start)
      .start).finished = false := by
  decide +kernel

theorem anns_canMount : ∀ c ∈ [annsMusic, annsBackup],
    annsLoop.CanMount id c noRoute.table := by
  have hname : ∀ host, IsPlain (str host) ∧ IsPlain ([] : Str) :=
    fun host => ⟨isPlain_str host, isPlain_str ""⟩
  intro c hc
  simp only [List.mem_cons, List.not_mem_nil, or_false] at hc
  rcases hc with rfl | rfl
  · exact ⟨_, rfl, Or.inl (hname "nas")⟩
  · exact ⟨_, rfl, Or.inl (hname "tower")⟩

/-- The turns of a pass are those of its rows, at its time. -/
theorem turns_of_rows {r : Reconnector} {now : Rat} {attempts : Nat → Attempt}
    {mounts : List SmbMount} {trouble : Bool} (place : Nat) (rows : List Connection) (s : Loop) :
    ∀ turn ∈ r.turns now attempts mounts trouble place rows s,
      turn.row ∈ rows ∧ turn.now = now := by
  induction rows generalizing place s with
  | nil => exact fun _ h => absurd h List.not_mem_nil
  | cons c rows ih =>
      unfold Reconnector.turns
      dsimp only
      rw [List.forall_mem_cons]
      refine ⟨⟨List.mem_cons_self, rfl⟩, fun turn hturn => ?_⟩
      split at hturn
      · cases hturn
      · rcases ih _ _ turn hturn with ⟨hrow, hnow⟩
        exact ⟨List.mem_cons_of_mem _ hrow, hnow⟩

/-- Both connections can be mounted while the server is away, and five seconds are a wait. -/
theorem outage_spares {k : Nat} (h : k ≤ 2 ^ 40) (s : Loop) :
    annsLoop.Spares id s (outagePass [annsMusic, annsBackup] k) := by
  intro place turn hturn htries
  have hmem := List.mem_of_getElem? hturn
  unfold Reconnector.agentTurns at hmem
  rw [outage_input] at hmem
  rcases outage_pass k s with ⟨s', -, -, hturns⟩
  rw [hturns] at hmem
  rcases turns_of_rows _ _ _ turn hmem with ⟨hrow, hnow⟩
  refine ⟨anns_canMount turn.row hrow, ?_⟩
  have hk : (k : Rat) ≤ 2 ^ 40 := by exact_mod_cast h
  have hnonneg : (0 : Rat) ≤ 300 * k := by positivity
  rw [hnow]
  -- Half a minute is more than half a step of a clock that is not so far on.
  refine outweighs_of_lt ?_ ?_
  · refine smallest_lt_one.trans ?_
    unfold annsLoop fastBackoff
    norm_num
  · rw [abs_of_nonneg hnonneg]
    unfold annsLoop fastBackoff
    norm_num
    linarith

/-- Two passes of an outage, over which the loop goes on. -/
theorem outage_begins :
    GuardedRun.Along (annsLoop.agentStep id) (fun s e => e.InPass (annsLoop.GoesOn id) s) .start
      [.pass (outagePass [annsMusic, annsBackup] 0), .released (str "/Volumes/Other"),
        .pass (outagePass [annsMusic, annsBackup] 1)] :=
  (loop_goes_on_iff annsLoop id
    [.pass (outagePass [annsMusic, annsBackup] 0), .released (str "/Volumes/Other"),
      .pass (outagePass [annsMusic, annsBackup] 1)] (by
      rintro e he
      simp only [List.mem_cons, List.not_mem_nil, or_false] at he
      rcases he with rfl | rfl | rfl
      · exact outagePass_ordinary _ (by decide)
      · trivial
      · exact outagePass_ordinary _ (by decide))).2
    (isFloat_natCast (by decide : 5 ≤ 2 ^ 53)) (by decide)
    ⟨outage_spares (by decide) _, trivial, outage_spares (by decide) _, trivial⟩

end Outage

end Smbpal
