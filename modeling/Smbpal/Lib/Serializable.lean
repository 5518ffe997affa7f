import Smbpal.Lib.Program
import Smbpal.Lib.Run
import Mathlib.Data.Fintype.Basic
import Mathlib.Data.List.Nodup

/-!
# Serializability of Interleaved Programs

Several programs share one cell and are stepped in any order. When does the
cell end as if the programs had been run one after another?

The operations are split in two. A *store* operation may look at the cell or
change it; every other operation is silent: it leaves the cell alone and its
answer says nothing about it. Each thread carries three facts about its own
history, which the steps maintain and no program can see: whether it has used
the store (`begun`), whether it has changed the cell (`changed`), and whether
somebody else changed the cell since it began (`stale`).

`Isolated` is the condition on a step. A stale thread does not touch the store,
and a thread touches it for the first time only when every thread that has
changed the cell is done with it. It is what first-committer-wins with no
reading of uncommitted data comes to, and it is a condition on the state before
the step, not on what the step computes. `Steady` is the second condition, on
answers: once a thread has changed the cell, its operations answer reliably,
for a notion of reliable the caller chooses.

Under both, `serializable` gives an order of the threads that returned such
that running them alone, one after another, each with the very answers it got,
takes the first cell to the last. A thread that raised is nowhere in the order;
that it left nothing behind is a hypothesis about the program alone
(`AllOrNothing`), and with it a failed thread costs the others nothing.

The proof keeps the order as it grows. A thread enters it when it begins, and
moves to the end when it is done with the store after changing the cell; in
between it is the one *pending* writer, and while there is one, every other
thread in the middle of its work is stale.

## Main definitions

* `Event`: An operation with the answer it got.
* `Follows`: What a program gets to alone, through given events.
* `steady`: A machine that answers reliably once the cell has changed.
* `Thread`, `Shared`, `Shared.Step`: The interleaving.
* `Isolated`, `Steady`: The two conditions on a step.
* `Shared.play`: The interleaving of given turns and answers.
* `SerialRun`: Programs run one after another.

## Theorems

* `always_follows`: What holds of every run holds of every run that goes on
  from here.
* `Chain.erase`: A thread that left the cell as it found it can be left out.
* `serialized_step`: One isolated step keeps the order.
* `serializable`: An isolated run ends as some serial order of the threads that
  returned.
-/

namespace Smbpal

namespace Lib

open Program

variable {S : Signature} {D ε α : Type}

/-- An operation with the answer it got. -/
abbrev Event (S : Signature) := (op : S.Op) × S.Answer op

/-- Run alone from `s`, the program goes through the events and gets to `p'`
    at `s'`. -/
inductive Follows {σ : Type} (M : Machine S σ) (p : Program S ε α) (s : σ) :
    List (Event S) → Program S ε α → σ → Prop where
  | here : Follows M p s [] p s
  | step {tr : List (Event S)} {op : S.Op} {next : S.Answer op → Program S ε α} {s' s'' : σ}
      (ans : S.Answer op) (before : Follows M p s tr (.perform op next) s')
      (step : M op s' ans s'') : Follows M p s (tr ++ [⟨op, ans⟩]) (next ans) s''

theorem always_follows {σ : Type} {M : Machine S σ} {Q : Except ε α → σ → Prop}
    {p p' : Program S ε α} {s s' : σ} {tr : List (Event S)} (h : Always M p Q s)
    (hf : Follows M p s tr p' s') : Always M p' Q s' := by
  induction hf with
  | here => exact h
  | step ans _ step ih => exact ih ans _ step

/-- The machine that, once the cell has changed, gives only reliable answers.
    The second component says whether it has changed. -/
def steady [DecidableEq D] (M : Machine S D) (reliable : Event S → Prop) : Machine S (D × Bool) :=
  fun op before ans after =>
    M op before.1 ans after.1 ∧ (before.2 = true → reliable ⟨op, ans⟩) ∧
      after.2 = (before.2 || decide (after.1 ≠ before.1))

/-- A program that raises, run alone on a steady machine, leaves the cell as
    it found it. -/
def AllOrNothing [DecidableEq D] (M : Machine S D) (reliable : Event S → Prop)
    (p : Program S ε α) : Prop :=
  ∀ d, Always (steady M reliable) p (fun r s => ∀ e, r = .error e → s.1 = d) (d, false)

/-- One program of the interleaving, with the history of its own steps. -/
structure Thread (S : Signature) (ε α : Type) where
  code : Program S ε α
  trace : List (Event S)
  /-- It has used the store. -/
  begun : Bool
  /-- It has changed the cell. -/
  changed : Bool
  /-- Another thread has changed the cell since it began. -/
  stale : Bool

/-- A thread that has done nothing yet. -/
def Thread.fresh (p : Program S ε α) : Thread S ε α :=
  { code := p, trace := [], begun := false, changed := false, stale := false }

/-- The shared cell and the threads. -/
structure Shared (ι D : Type) (S : Signature) (ε α : Type) where
  cell : D
  thread : ι → Thread S ε α

section Interleaving

variable {ι : Type} [DecidableEq ι] [DecidableEq D]
variable (M : Machine S D) (store : S.Op → Prop) [DecidablePred store]
variable (reliable : Event S → Prop)

/-- Everyone at the start of their program, and the cell as given. -/
def Shared.init (programs : ι → Program S ε α) (d : D) : Shared ι D S ε α :=
  { cell := d, thread := fun i => Thread.fresh (programs i) }

/-- The state after thread `i` got `ans` from `op` and goes on with `rest`. -/
def Shared.advance (sys : Shared ι D S ε α) (i : ι) (op : S.Op) (ans : S.Answer op)
    (rest : Program S ε α) (cell' : D) : Shared ι D S ε α :=
  { cell := cell'
    thread := fun j =>
      if j = i then
        { code := rest
          trace := (sys.thread i).trace ++ [⟨op, ans⟩]
          begun := (sys.thread i).begun || decide (store op)
          changed := (sys.thread i).changed || decide (cell' ≠ sys.cell)
          stale := (sys.thread i).stale }
      else
        { sys.thread j with
          stale := (sys.thread j).stale || ((sys.thread j).begun && decide (cell' ≠ sys.cell)) } }

/-- Thread `i` performs its next operation and gets an answer. -/
def Shared.Step (sys : Shared ι D S ε α) (label : ι × Event S) (sys' : Shared ι D S ε α) : Prop :=
  ∃ next cell', (sys.thread label.1).code = .perform label.2.1 next ∧
    M label.2.1 sys.cell label.2.2 cell' ∧
    sys' = sys.advance store label.1 label.2.1 label.2.2 (next label.2.2) cell'

/-- Let the threads of a list take one step each, answered by a function; a
    thread that has ended passes. -/
def Shared.play (answer : (op : S.Op) → D → S.Answer op × D) :
    Shared ι D S ε α → List ι → Shared ι D S ε α
  | sys, [] => sys
  | sys, i :: turns =>
      match (sys.thread i).code with
      | .perform op next =>
          let r := answer op sys.cell
          (sys.advance store i op r.1 (next r.1) r.2).play answer turns
      | _ => sys.play answer turns

/-- Whether every step of such a run meets the guard. -/
def Shared.meets (answer : (op : S.Op) → D → S.Answer op × D)
    (guard : Shared ι D S ε α → ι × Event S → Bool) : Shared ι D S ε α → List ι → Bool
  | _, [] => true
  | sys, i :: turns =>
      match (sys.thread i).code with
      | .perform op next =>
          let r := answer op sys.cell
          guard sys ⟨i, op, r.1⟩ &&
            (sys.advance store i op r.1 (next r.1) r.2).meets answer guard turns
      | _ => sys.meets answer guard turns

variable {M} in
/-- Turns taken with answers the machine may give are a run. -/
theorem play_guarded {answer : (op : S.Op) → D → S.Answer op × D}
    (guard : Shared ι D S ε α → ι × Event S → Bool)
    (hM : ∀ op d, M op d (answer op d).1 (answer op d).2) {sys : Shared ι D S ε α}
    {turns : List ι} (h : sys.meets store answer guard turns = true) :
    GuardedRun (Shared.Step M store) (fun sys label => guard sys label = true) sys
      (sys.play store answer turns) := by
  induction turns generalizing sys with
  | nil => exact GuardedRun.start
  | cons i turns ih =>
      unfold Shared.meets at h
      unfold Shared.play
      -- A thread that has ended has no step, and its turn is lost.
      cases hcode : (sys.thread i).code with
      | ret a =>
          rw [hcode] at h
          exact ih h
      | raise e =>
          rw [hcode] at h
          exact ih h
      | perform op next =>
          rw [hcode] at h
          rcases Bool.and_eq_true_iff.mp h with ⟨hguard, h⟩
          refine GuardedRun.trans (GuardedRun.next _ GuardedRun.start hguard ?_) (ih h)
          exact ⟨next, _, hcode, hM op sys.cell, rfl⟩

/-- The program can no longer use the store. -/
def Settled (p : Program S ε α) : Prop :=
  Performs (fun op => ¬ store op) p

/-- A store operation is taken by a thread that is not stale, and for the first
    time only when every thread that has changed the cell is done with it. -/
def Isolated (sys : Shared ι D S ε α) (label : ι × Event S) : Prop :=
  store label.2.1 → (sys.thread label.1).stale = false ∧
    ((sys.thread label.1).begun = false →
      ∀ j, (sys.thread j).changed = true → Settled store (sys.thread j).code)

/-- A thread that has changed the cell is answered reliably. -/
def Steady (sys : Shared ι D S ε α) (label : ι × Event S) : Prop :=
  (sys.thread label.1).changed = true → reliable label.2

/-- An operation outside the store leaves the cell alone, and its answer does
    not depend on it. -/
def SilentOutside : Prop :=
  ∀ op, ¬ store op → ∀ d ans d', M op d ans d' → d' = d ∧ ∀ e, M op e ans e

end Interleaving

/-- Links along a list: each element takes the value its predecessor left. -/
inductive Chain {ι : Type} (R : ι → D → D → Prop) (d : D) : List ι → D → Prop where
  | nil : Chain R d [] d
  | snoc {L : List ι} {i : ι} {d' d'' : D} (before : Chain R d L d') (link : R i d' d'') :
      Chain R d (L ++ [i]) d''

namespace Chain

variable {ι : Type} {R R' : ι → D → D → Prop} {d d' : D} {L : List ι}

theorem mono (h : Chain R d L d') (hR : ∀ i ∈ L, ∀ a b, R i a b → R' i a b) :
    Chain R' d L d' := by
  induction h with
  | nil => exact Chain.nil
  | snoc _ link ih =>
      refine Chain.snoc (ih fun i hi => hR i (List.mem_append_left _ hi)) (hR _ ?_ _ _ link)
      exact List.mem_append_right _ (List.mem_singleton_self _)

/-- An element that keeps whatever it is given can be left out. -/
theorem erase [DecidableEq ι] (h : Chain R d L d') (hnd : L.Nodup) {i : ι}
    (hi : ∀ a b, R i a b → b = a) : Chain R d (L.erase i) d' := by
  induction h with
  | nil => exact Chain.nil
  | @snoc L k d₁ d₂ before link ih =>
      have hL : L.Nodup := (List.nodup_append.mp hnd).1
      by_cases hik : i = k
      · -- The element itself: it is not in `L`, so erasing drops the last link.
        subst hik
        have hnot : i ∉ L := fun hm =>
          (List.nodup_append.mp hnd).2.2 i hm i (List.mem_singleton_self i) rfl
        rw [List.erase_append_right _ hnot, List.erase_cons_head, List.append_nil,
          hi _ _ link]
        exact before
      · by_cases hm : i ∈ L
        · rw [List.erase_append_left _ hm]
          exact Chain.snoc (ih hL) link
        · rw [List.erase_of_not_mem (by
            simp only [List.mem_append, List.mem_singleton, not_or]
            exact ⟨hm, hik⟩)]
          exact Chain.snoc before link

/-- Only the elements a predicate keeps matter, when the others keep whatever
    they are given. -/
theorem filter (h : Chain R d L d') (keep : ι → Bool)
    (hdrop : ∀ i ∈ L, keep i = false → ∀ a b, R i a b → b = a) :
    Chain R d (L.filter keep) d' := by
  induction h with
  | nil => exact Chain.nil
  | @snoc L k d₁ d₂ before link ih =>
      have hrec := ih fun i hi => hdrop i (List.mem_append_left _ hi)
      have hk : k ∈ L ++ [k] := List.mem_append_right _ (List.mem_singleton_self k)
      rw [List.filter_append]
      cases hkeep : keep k with
      | true =>
          rw [List.filter_cons_of_pos hkeep, List.filter_nil]
          exact Chain.snoc hrec link
      | false =>
          rw [List.filter_cons_of_neg (by rw [hkeep]; exact Bool.false_ne_true), List.filter_nil,
            List.append_nil, hdrop k hk hkeep _ _ link]
          exact hrec

/-- Elements that keep the last value can be appended. -/
theorem append_keeping (h : Chain R d L d') (L' : List ι) (hL' : ∀ i ∈ L', R i d' d') :
    Chain R d (L ++ L') d' := by
  induction L' generalizing L with
  | nil =>
      rw [List.append_nil]
      exact h
  | cons i L' ih =>
      rw [List.append_cons]
      exact ih (Chain.snoc h (hL' i List.mem_cons_self))
        fun j hj => hL' j (List.mem_cons_of_mem _ hj)

end Chain

section Serializable

variable {ι : Type} [DecidableEq ι] [DecidableEq D]
variable {M : Machine S D} {store : S.Op → Prop} [DecidablePred store]
variable {reliable : Event S → Prop} {programs : ι → Program S ε α}

/-- What a thread has done so far, done alone from `d` on a steady machine,
    leaves `d'`. -/
def Replays (M : Machine S D) (reliable : Event S → Prop) (p : Program S ε α)
    (t : Thread S ε α) (d d' : D) : Prop :=
  Follows (steady M reliable) p (d, false) t.trace t.code (d', t.changed)

theorem steady_unchanged {p p' : Program S ε α} {d : D} {tr : List (Event S)} {s : D × Bool}
    (h : Follows (steady M reliable) p (d, false) tr p' s) (hs : s.2 = false) : s.1 = d := by
  induction h with
  | here => rfl
  | step ans _ step ih =>
      rcases step with ⟨-, -, hflag⟩
      rw [hs] at hflag
      have hparts := Bool.or_eq_false_iff.mp hflag.symm
      rw [← ih hparts.1]
      exact not_not.mp (of_decide_eq_false hparts.2)

theorem follows_of_steady {p p' : Program S ε α} {s₀ s : D × Bool} {tr : List (Event S)}
    (h : Follows (steady M reliable) p s₀ tr p' s) : Follows M p s₀.1 tr p' s.1 := by
  induction h with
  | here => exact Follows.here
  | step ans _ step ih => exact Follows.step ans ih step.1

namespace Replays

variable {p : Program S ε α} {t : Thread S ε α} {d d' : D}

theorem fresh (p : Program S ε α) (d : D) : Replays M reliable p (Thread.fresh p) d d :=
  Follows.here

theorem unchanged (h : Replays M reliable p t d d') (hc : t.changed = false) : d' = d :=
  steady_unchanged h hc

/-- A thread that raised left the cell as it found it. -/
theorem raised (h : Replays M reliable p t d d') (hp : AllOrNothing M reliable p) {e : ε}
    (hcode : t.code = .raise e) : d' = d := by
  unfold Replays at h
  rw [hcode] at h
  exact always_follows (hp d) h e rfl

/-- One more step of the thread. Whether it has changed the cell is judged by
    the shared cell; a thread that has not must have it at hand. -/
theorem step {cell cell' : D} {op : S.Op} {next : S.Answer op → Program S ε α}
    {ans : S.Answer op} (h : Replays M reliable p t d d') (hcode : t.code = .perform op next)
    (hreliable : t.changed = true → reliable ⟨op, ans⟩) (hM : M op d' ans cell')
    (hcell : t.changed = false → d' = cell) :
    Follows (steady M reliable) p (d, false) (t.trace ++ [⟨op, ans⟩]) (next ans)
      (cell', t.changed || decide (cell' ≠ cell)) := by
  unfold Replays at h
  rw [hcode] at h
  refine Follows.step ans h ⟨hM, hreliable, ?_⟩
  cases hc : t.changed with
  | true => rw [Bool.true_or, Bool.true_or]
  | false => rw [hcell hc]

/-- A step outside the store, which can be taken at any cell. -/
theorem silent {op : S.Op} {next : S.Answer op → Program S ε α} {ans : S.Answer op}
    (h : Replays M reliable p t d d') (hcode : t.code = .perform op next)
    (hreliable : t.changed = true → reliable ⟨op, ans⟩) (hM : M op d' ans d') :
    Follows (steady M reliable) p (d, false) (t.trace ++ [⟨op, ans⟩]) (next ans)
      (d', t.changed) := by
  unfold Replays at h
  rw [hcode] at h
  refine Follows.step ans h ⟨hM, hreliable, ?_⟩
  rw [decide_eq_false (not_not.mpr rfl), Bool.or_false]

end Replays

/-- The order so far: the threads listed, run alone one after another, take
    the first cell to `c`, and at most one thread is still to be added. -/
structure Serialized (M : Machine S D) (store : S.Op → Prop) (reliable : Event S → Prop)
    (programs : ι → Program S ε α) (d₀ : D) (sys : Shared ι D S ε α) (L : List ι) (c : D) :
    Prop where
  nodup : L.Nodup
  chain : Chain (fun i => Replays M reliable (programs i) (sys.thread i)) d₀ L c
  listed : ∀ i ∈ L, (sys.thread i).begun = true ∧
    ((sys.thread i).changed = true → Settled store (sys.thread i).code)
  /-- A thread that has begun and is not listed is the only one of its kind:
      it is the writer in the middle of its work, and everyone else in the
      middle of theirs is stale. -/
  pending : ∀ i, (sys.thread i).begun = true → i ∉ L →
    (sys.thread i).changed = true ∧ ¬ Settled store (sys.thread i).code ∧
      Replays M reliable (programs i) (sys.thread i) c sys.cell ∧
        ∀ j, j ≠ i → (sys.thread j).begun = true →
          j ∈ L ∧ ((sys.thread j).changed = false → (sys.thread j).stale = true)
  clean : (∀ i, (sys.thread i).begun = true → i ∈ L) → sys.cell = c
  /-- What a thread has read that changed nothing and is not stale, it could
      have read just now. -/
  current : ∀ i, (sys.thread i).begun = true → (sys.thread i).changed = false →
    (sys.thread i).stale = false →
      Replays M reliable (programs i) (sys.thread i) sys.cell sys.cell
  waiting : ∀ i, (sys.thread i).begun = false → (sys.thread i).changed = false ∧
    ∀ d, Replays M reliable (programs i) (sys.thread i) d d

namespace Serialized

variable {d₀ c : D} {sys : Shared ι D S ε α} {L : List ι}

omit [DecidableEq ι] [DecidablePred store] in
theorem init (programs : ι → Program S ε α) (d₀ : D) :
    Serialized M store reliable programs d₀ (Shared.init programs d₀) [] d₀ where
  nodup := List.nodup_nil
  chain := Chain.nil
  listed := fun _ hi => absurd hi List.not_mem_nil
  pending := fun _ hi => absurd hi Bool.false_ne_true
  clean := fun _ => rfl
  current := fun _ hi => absurd hi Bool.false_ne_true
  waiting := fun i _ => ⟨rfl, fun d => Replays.fresh (programs i) d⟩

omit [DecidablePred store] in
/-- The thread that has just stepped takes its place: behind the others when
    it is done with the store or has changed nothing, and as the pending writer
    otherwise. -/
theorem seat {i : ι} (hnd : L.Nodup) (hi : i ∉ L)
    (hchain : Chain (fun j => Replays M reliable (programs j) (sys.thread j)) d₀ L c)
    (hlisted : ∀ j ∈ L, (sys.thread j).begun = true ∧
      ((sys.thread j).changed = true → Settled store (sys.thread j).code))
    (hothers : ∀ j, j ≠ i → (sys.thread j).begun = true → j ∈ L)
    (hbegun : (sys.thread i).begun = true)
    (hlink : Replays M reliable (programs i) (sys.thread i) c sys.cell)
    (hstale : (sys.thread i).changed = true → ¬ Settled store (sys.thread i).code →
      ∀ j, j ≠ i → (sys.thread j).begun = true → (sys.thread j).changed = false →
        (sys.thread j).stale = true)
    (hcurrent : ∀ j, j ≠ i → (sys.thread j).begun = true → (sys.thread j).changed = false →
      (sys.thread j).stale = false →
        Replays M reliable (programs j) (sys.thread j) sys.cell sys.cell)
    (hwaiting : ∀ j, (sys.thread j).begun = false → (sys.thread j).changed = false ∧
      ∀ d, Replays M reliable (programs j) (sys.thread j) d d) :
    ∃ L' c', Serialized M store reliable programs d₀ sys L' c' := by
  have hcur : ∀ j, (sys.thread j).begun = true → (sys.thread j).changed = false →
      (sys.thread j).stale = false →
        Replays M reliable (programs j) (sys.thread j) sys.cell sys.cell := by
    intro j hb hc hs
    by_cases hj : j = i
    · subst hj
      have hsame : sys.cell = c := hlink.unchanged hc
      rw [← hsame] at hlink
      exact hlink
    · exact hcurrent j hj hb hc hs
  by_cases hdone : (sys.thread i).changed = true ∧ ¬ Settled store (sys.thread i).code
  · -- The writer in the middle of its work: the list stays as it is.
    refine ⟨L, c, hnd, hchain, hlisted, ?_, ?_, hcur, hwaiting⟩
    · intro k hk hkL
      have hki : k = i := by
        by_contra hne
        exact hkL (hothers k hne hk)
      subst hki
      refine ⟨hdone.1, hdone.2, hlink, fun j hj hb => ⟨hothers j hj hb, ?_⟩⟩
      exact hstale hdone.1 hdone.2 j hj hb
    · intro hall
      exact absurd (hall i hbegun) hi
  · -- It is done with the store, or has changed nothing: it is listed last.
    refine ⟨L ++ [i], sys.cell, ?_, Chain.snoc hchain hlink, ?_, ?_, fun _ => rfl, hcur, hwaiting⟩
    · rw [List.nodup_append]
      refine ⟨hnd, List.nodup_singleton i, ?_⟩
      intro a ha b hb hab
      rw [List.mem_singleton] at hb
      exact hi (hb ▸ hab ▸ ha)
    · intro j hj
      rcases List.mem_append.mp hj with hj | hj
      · exact hlisted j hj
      · rw [List.mem_singleton] at hj
        subst hj
        exact ⟨hbegun, fun hc => by_contra fun hs => hdone ⟨hc, hs⟩⟩
    · intro k hk hkL
      refine absurd ?_ hkL
      by_cases hki : k = i
      · rw [hki]
        exact List.mem_append_right _ (List.mem_singleton_self i)
      · exact List.mem_append_left _ (hothers k hki hk)

end Serialized

theorem advance_self (sys : Shared ι D S ε α) (i : ι) (op : S.Op) (ans : S.Answer op)
    (rest : Program S ε α) (cell' : D) :
    (sys.advance store i op ans rest cell').thread i =
      { code := rest
        trace := (sys.thread i).trace ++ [⟨op, ans⟩]
        begun := (sys.thread i).begun || decide (store op)
        changed := (sys.thread i).changed || decide (cell' ≠ sys.cell)
        stale := (sys.thread i).stale } := by
  unfold Shared.advance
  exact if_pos rfl

theorem advance_other {sys : Shared ι D S ε α} {i j : ι} (op : S.Op) (ans : S.Answer op)
    (rest : Program S ε α) (cell' : D) (hj : j ≠ i) :
    (sys.advance store i op ans rest cell').thread j =
      { sys.thread j with
        stale := (sys.thread j).stale || ((sys.thread j).begun && decide (cell' ≠ sys.cell)) } := by
  unfold Shared.advance
  exact if_neg hj

namespace Serialized

variable {d₀ c : D} {sys : Shared ι D S ε α} {L : List ι}

/-- What a step outside the store leaves: the cell and everybody's marks, whatever could be
    replayed, and whoever was done with the store. -/
structure SilentStep (M : Machine S D) (store : S.Op → Prop) (reliable : Event S → Prop)
    (programs : ι → Program S ε α) (i : ι) (sys sys' : Shared ι D S ε α) : Prop where
  cell : sys'.cell = sys.cell
  other : ∀ j, j ≠ i → sys'.thread j = sys.thread j
  begun : ∀ j, (sys'.thread j).begun = (sys.thread j).begun
  changed : ∀ j, (sys'.thread j).changed = (sys.thread j).changed
  stale : ∀ j, (sys'.thread j).stale = (sys.thread j).stale
  replays : ∀ j a b, Replays M reliable (programs j) (sys.thread j) a b →
    Replays M reliable (programs j) (sys'.thread j) a b
  settled : ∀ j, Settled store (sys.thread j).code → Settled store (sys'.thread j).code

/-- Only the thread's own past grows, and it could have grown so at any cell. -/
theorem silentStep_advance {i : ι} {op : S.Op} {next : S.Answer op → Program S ε α}
    {ans : S.Answer op} (hcode : (sys.thread i).code = .perform op next) (hop : ¬ store op)
    (hM : ∀ d, M op d ans d) (hreliable : (sys.thread i).changed = true → reliable ⟨op, ans⟩) :
    SilentStep M store reliable programs i sys
      (sys.advance store i op ans (next ans) sys.cell) := by
  generalize hsys' : sys.advance store i op ans (next ans) sys.cell = sys'
  have hother : ∀ j, j ≠ i → sys'.thread j = sys.thread j := by
    intro j hj
    rw [← hsys', advance_other op ans (next ans) sys.cell hj]
    simp
  have hself : sys'.thread i = { sys.thread i with
      code := next ans
      trace := (sys.thread i).trace ++ [⟨op, ans⟩] } := by
    rw [← hsys', advance_self]
    simp [hop]
  refine ⟨by rw [← hsys']; rfl, hother, fun j => ?_, fun j => ?_, fun j => ?_, ?_, ?_⟩
  -- the marks of the thread itself and of the others
  · by_cases hj : j = i
    · rw [hj, hself]
    · rw [hother j hj]
  · by_cases hj : j = i
    · rw [hj, hself]
    · rw [hother j hj]
  · by_cases hj : j = i
    · rw [hj, hself]
    · rw [hother j hj]
  · intro j a b hr
    by_cases hj : j = i
    · subst hj
      have hgrown := hr.silent hcode hreliable (hM b)
      rw [hself]
      unfold Replays
      simpa using hgrown
    · rw [hother j hj]
      exact hr
  · intro j hs
    by_cases hj : j = i
    · subst hj
      rw [hcode] at hs
      rw [hself]
      exact hs.2 ans
    · rw [hother j hj]
      exact hs

omit [DecidablePred store] in
/-- A step outside the store keeps the order. -/
theorem step_silent {i : ι} {sys' : Shared ι D S ε α}
    (h : Serialized M store reliable programs d₀ sys L c)
    (hstep : SilentStep M store reliable programs i sys sys') :
    ∃ L' c', Serialized M store reliable programs d₀ sys' L' c' := by
  have hchain := h.chain.mono fun j _ a b => hstep.replays j a b
  have hlisted : ∀ j ∈ L, (sys'.thread j).begun = true ∧
      ((sys'.thread j).changed = true → Settled store (sys'.thread j).code) := by
    intro j hj
    rw [hstep.begun, hstep.changed]
    exact ⟨(h.listed j hj).1, fun hc => hstep.settled j ((h.listed j hj).2 hc)⟩
  have hcurrent : ∀ j, (sys'.thread j).begun = true → (sys'.thread j).changed = false →
      (sys'.thread j).stale = false →
        Replays M reliable (programs j) (sys'.thread j) sys'.cell sys'.cell := by
    intro j hb hc hs
    rw [hstep.begun] at hb
    rw [hstep.changed] at hc
    rw [hstep.stale] at hs
    rw [hstep.cell]
    exact hstep.replays j _ _ (h.current j hb hc hs)
  have hwaiting : ∀ j, (sys'.thread j).begun = false → (sys'.thread j).changed = false ∧
      ∀ d, Replays M reliable (programs j) (sys'.thread j) d d := by
    intro j hb
    rw [hstep.begun] at hb
    rw [hstep.changed]
    exact ⟨(h.waiting j hb).1, fun d => hstep.replays j _ _ ((h.waiting j hb).2 d)⟩
  by_cases hpend : (sys.thread i).begun = true ∧ i ∉ L
  · -- The pending writer: it may have become settled by this step.
    rcases h.pending i hpend.1 hpend.2 with ⟨-, -, hlink, hrest⟩
    refine seat h.nodup hpend.2 hchain hlisted ?_ ?_ ?_ ?_ ?_ hwaiting
    · intro j hj hb
      rw [hstep.begun] at hb
      exact (hrest j hj hb).1
    · rw [hstep.begun]
      exact hpend.1
    · rw [hstep.cell]
      exact hstep.replays i _ _ hlink
    · intro _ _ j hj hb hc
      rw [hstep.begun] at hb
      rw [hstep.changed] at hc
      rw [hstep.stale]
      exact (hrest j hj hb).2 hc
    · exact fun j _ => hcurrent j
  · -- Anybody else keeps their place, and so does the pending writer if there is one.
    refine ⟨L, c, h.nodup, hchain, hlisted, ?_, ?_, hcurrent, hwaiting⟩
    · intro k hk hkL
      have hki : k ≠ i := by
        intro hki
        subst hki
        rw [hstep.begun] at hk
        exact hpend ⟨hk, hkL⟩
      rw [hstep.begun] at hk
      rcases h.pending k hk hkL with ⟨hc, hs, hlink, hrest⟩
      rw [hstep.changed, hstep.other k hki, hstep.cell]
      refine ⟨hc, hs, hlink, fun j hj hb => ?_⟩
      rw [hstep.begun] at hb
      rw [hstep.changed, hstep.stale]
      exact hrest j hj hb
    · intro hall
      rw [hstep.cell]
      exact h.clean fun j hb => hall j (by rw [hstep.begun]; exact hb)

omit [DecidablePred store] in
/-- What an isolated store step finds: everyone else who has begun is listed,
    and the thread itself could have got this far right behind them. -/
theorem ready {i : ι} {op : S.Op} {next : S.Answer op → Program S ε α}
    (h : Serialized M store reliable programs d₀ sys L c)
    (hcode : (sys.thread i).code = .perform op next) (hop : store op)
    (hfresh : (sys.thread i).stale = false)
    (hfirst : (sys.thread i).begun = false →
      ∀ j, (sys.thread j).changed = true → Settled store (sys.thread j).code) :
    ∃ L', L'.Nodup ∧ i ∉ L' ∧ (∀ j ∈ L', j ∈ L) ∧
      Chain (fun j => Replays M reliable (programs j) (sys.thread j)) d₀ L' c ∧
      (∀ j, j ≠ i → (sys.thread j).begun = true → j ∈ L') ∧
      Replays M reliable (programs i) (sys.thread i) c sys.cell ∧
      ((sys.thread i).changed = true → ∀ j, j ≠ i → (sys.thread j).begun = true →
        (sys.thread j).changed = false → (sys.thread j).stale = true) := by
  have hunsettled : ¬ Settled store (sys.thread i).code := by
    rw [hcode]
    exact fun hs => hs.1 hop
  cases hb : (sys.thread i).begun with
  | false =>
      -- It begins only when no writer is in the middle of its work, so nobody is pending.
      have hiL : i ∉ L := fun hm => by
        rw [(h.listed i hm).1] at hb
        exact Bool.false_ne_true hb.symm
      have hall : ∀ j, (sys.thread j).begun = true → j ∈ L := by
        intro j hj
        by_contra hjL
        rcases h.pending j hj hjL with ⟨hc, hs, -⟩
        exact hs (hfirst hb j hc)
      rcases h.waiting i hb with ⟨hc, hr⟩
      refine ⟨L, h.nodup, hiL, fun _ hj => hj, h.chain, fun j _ => hall j, ?_, ?_⟩
      · rw [h.clean hall]
        exact hr c
      · intro hc'
        rw [hc] at hc'
        exact absurd hc' Bool.false_ne_true
  | true =>
      cases hc : (sys.thread i).changed with
      | false =>
          -- It has only read so far: it leaves its place for the last one.
          have hall : ∀ j, (sys.thread j).begun = true → j ∈ L := by
            intro j hj
            by_contra hjL
            rcases h.pending j hj hjL with ⟨hcj, -, -, hrest⟩
            have hij : i ≠ j := by
              intro hij
              rw [hij, hcj] at hc
              exact Bool.false_ne_true hc.symm
            rw [(hrest i hij hb).2 hc] at hfresh
            exact Bool.false_ne_true hfresh.symm
          have hcell : sys.cell = c := h.clean hall
          refine ⟨L.erase i, h.nodup.erase i, h.nodup.not_mem_erase,
            fun j hj => List.mem_of_mem_erase hj,
            h.chain.erase h.nodup fun a b hr => Replays.unchanged hr hc, ?_, ?_, ?_⟩
          · intro j hj hbj
            exact (List.mem_erase_of_ne hj).mpr (hall j hbj)
          · have hr := h.current i hb hc hfresh
            rw [hcell] at hr ⊢
            exact hr
          · intro hc'
            exact absurd hc' Bool.false_ne_true
      | true =>
          -- It has changed the cell and is not settled: it is the pending writer itself.
          have hiL : i ∉ L := fun hm => hunsettled ((h.listed i hm).2 hc)
          rcases h.pending i hb hiL with ⟨-, -, hlink, hrest⟩
          exact ⟨L, h.nodup, hiL, fun _ hj => hj, h.chain, fun j hj hbj => (hrest j hj hbj).1,
            hlink, fun _ j hj hbj => (hrest j hj hbj).2⟩

/-- An isolated step on the store. -/
theorem step_store {i : ι} {op : S.Op} {next : S.Answer op → Program S ε α}
    {ans : S.Answer op} {cell' : D} (h : Serialized M store reliable programs d₀ sys L c)
    (hcode : (sys.thread i).code = .perform op next) (hop : store op)
    (hfresh : (sys.thread i).stale = false)
    (hfirst : (sys.thread i).begun = false →
      ∀ j, (sys.thread j).changed = true → Settled store (sys.thread j).code)
    (hM : M op sys.cell ans cell')
    (hreliable : (sys.thread i).changed = true → reliable ⟨op, ans⟩) :
    ∃ L' c', Serialized M store reliable programs d₀
      (sys.advance store i op ans (next ans) cell') L' c' := by
  rcases h.ready hcode hop hfresh hfirst with
    ⟨L', hnd, hiL', hsub, hchain, hothers, hlink, hwriter⟩
  generalize hsys' : sys.advance store i op ans (next ans) cell' = sys'
  have hcell : sys'.cell = cell' := by rw [← hsys']; rfl
  have hself : sys'.thread i =
      { code := next ans
        trace := (sys.thread i).trace ++ [⟨op, ans⟩]
        begun := (sys.thread i).begun || decide (store op)
        changed := (sys.thread i).changed || decide (cell' ≠ sys.cell)
        stale := (sys.thread i).stale } := by
    rw [← hsys', advance_self]
  have hother : ∀ j, j ≠ i → sys'.thread j =
      { sys.thread j with
        stale := (sys.thread j).stale || ((sys.thread j).begun && decide (cell' ≠ sys.cell)) } := by
    intro j hj
    rw [← hsys', advance_other op ans (next ans) cell' hj]
  have hbegun : ∀ j, j ≠ i → (sys'.thread j).begun = (sys.thread j).begun := by
    intro j hj
    rw [hother j hj]
  have hchanged : ∀ j, j ≠ i → (sys'.thread j).changed = (sys.thread j).changed := by
    intro j hj
    rw [hother j hj]
  have hreplays : ∀ j, j ≠ i → ∀ a b, Replays M reliable (programs j) (sys.thread j) a b →
      Replays M reliable (programs j) (sys'.thread j) a b := by
    intro j hj a b hr
    rw [hother j hj]
    exact hr
  have hne : ∀ j ∈ L', j ≠ i := fun j hj hji => hiL' (hji ▸ hj)
  have hbegun_i : (sys'.thread i).begun = true := by
    rw [hself]
    simp [hop]
  -- the thread is seated behind the others, whose pasts this step does not touch
  refine seat hnd hiL' (hchain.mono fun j hj => hreplays j (hne j hj)) ?_ ?_ hbegun_i ?_ ?_ ?_ ?_
  · intro j hj
    rw [hother j (hne j hj)]
    exact h.listed j (hsub j hj)
  · intro j hj hb
    rw [hbegun j hj] at hb
    exact hothers j hj hb
  · rw [hcell, hself]
    exact hlink.step hcode hreliable hM fun hc => (hlink.unchanged hc) ▸ rfl
  · intro hc _ j hj hb hcj
    rw [hbegun j hj] at hb
    rw [hchanged j hj] at hcj
    rw [hself] at hc
    rw [hother j hj]
    -- either it had changed the cell before, or it does now, which makes the others stale
    rcases Bool.or_eq_true_iff.mp hc with hc | hc
    · simp [hwriter hc j hj hb hcj]
    · simp only [hb, hc, Bool.and_self, Bool.or_true]
  · intro j hj hb hc hs
    rw [hbegun j hj] at hb
    rw [hchanged j hj] at hc
    rw [hother j hj] at hs
    have hparts := Bool.or_eq_false_iff.mp hs
    -- who has begun and is not stale has seen the cell stay
    have hsame : cell' = sys.cell := by
      have h2 := hparts.2
      rw [hb, Bool.true_and] at h2
      exact not_not.mp (of_decide_eq_false h2)
    rw [hcell, hsame]
    exact hreplays j hj _ _ (h.current j hb hc hparts.1)
  · intro j hb
    by_cases hj : j = i
    · rw [hj, hbegun_i] at hb
      exact absurd hb.symm Bool.false_ne_true
    · rw [hbegun j hj] at hb
      rw [hchanged j hj]
      exact ⟨(h.waiting j hb).1, fun d => hreplays j hj _ _ ((h.waiting j hb).2 d)⟩

end Serialized

/-- One isolated step keeps the order. -/
theorem serialized_step {d₀ c : D} {sys sys' : Shared ι D S ε α} {L : List ι}
    {label : ι × Event S} (hsilent : SilentOutside M store)
    (h : Serialized M store reliable programs d₀ sys L c) (hiso : Isolated store sys label)
    (hsteady : Steady reliable sys label) (hstep : Shared.Step M store sys label sys') :
    ∃ L' c', Serialized M store reliable programs d₀ sys' L' c' := by
  rcases label with ⟨i, op, ans⟩
  rcases hstep with ⟨next, cell', hcode, hM, rfl⟩
  by_cases hop : store op
  · rcases hiso hop with ⟨hfresh, hfirst⟩
    exact h.step_store hcode hop hfresh hfirst hM hsteady
  · rcases hsilent op hop _ _ _ hM with ⟨rfl, hany⟩
    exact h.step_silent (Serialized.silentStep_advance hcode hop hany hsteady)

/-- The program has come to an end. -/
def Ended : Program S ε α → Prop
  | .ret _ => True
  | .raise _ => True
  | .perform _ _ => False

/-- The program has come to an end by returning. -/
def Returned : Program S ε α → Prop
  | .ret _ => True
  | .raise _ => False
  | .perform _ _ => False

instance : DecidablePred (Returned : Program S ε α → Prop)
  | .ret _ => .isTrue trivial
  | .raise _ => .isFalse id
  | .perform _ _ => .isFalse id

/-- A thread works on its own: it has changed nothing, nobody has changed the
    cell under it, and whoever has changed the cell has returned. -/
def Apart (sys : Shared ι D S ε α) (label : ι × Event S) : Prop :=
  (sys.thread label.1).stale = false ∧ (sys.thread label.1).changed = false ∧
    ∀ j, (sys.thread j).changed = true → Returned (sys.thread j).code

instance [Fintype ι] (sys : Shared ι D S ε α) (label : ι × Event S) :
    Decidable (Apart sys label) :=
  inferInstanceAs (Decidable (_ ∧ _ ∧ ∀ _, _ → _))

omit [DecidableEq ι] [DecidableEq D] [DecidablePred store] in
theorem isolated_of_apart {sys : Shared ι D S ε α} {label : ι × Event S} (h : Apart sys label) :
    Isolated store sys label ∧ Steady reliable sys label := by
  rcases h with ⟨hstale, hchanged, hothers⟩
  refine ⟨fun _ => ⟨hstale, fun _ j hj => ?_⟩, fun hc => ?_⟩
  · have hret := hothers j hj
    cases hcode : (sys.thread j).code with
    | ret v => trivial
    | raise e => trivial
    | perform op next =>
        rw [hcode] at hret
        exact absurd hret id
  · rw [hchanged] at hc
    exact absurd hc Bool.false_ne_true

theorem ended_of_returned {p : Program S ε α} (h : Returned p) : Ended p := by
  cases p with
  | ret a => trivial
  | raise e => trivial
  | perform op next => exact absurd h id

/-- The threads of the list, run alone one after another, each with the answers
    it got, return what they returned and take `d` to `d'`. -/
def SerialRun (M : Machine S D) (programs : ι → Program S ε α) (sys : Shared ι D S ε α) :
    D → List ι → D → Prop :=
  Chain fun i d d' => ∃ v, (sys.thread i).code = .ret v ∧
    Follows M (programs i) d (sys.thread i).trace (.ret v) d'

/-- An isolated run that has come to its end left the cell as the threads that
    returned leave it, run one after another in some order. -/
theorem serializable [Fintype ι] {d₀ : D} {sys : Shared ι D S ε α}
    (hsilent : SilentOutside M store) (hatomic : ∀ i, AllOrNothing M reliable (programs i))
    (hrun : GuardedRun (Shared.Step M store)
      (fun sys label => Isolated store sys label ∧ Steady reliable sys label)
      (Shared.init programs d₀) sys)
    (hended : ∀ i, Ended (sys.thread i).code) :
    ∃ order : List ι, order.Nodup ∧ (∀ i, i ∈ order ↔ Returned (sys.thread i).code) ∧
      SerialRun M programs sys d₀ order sys.cell := by
  have hinv : ∃ L c, Serialized M store reliable programs d₀ sys L c :=
    hrun.invariant (fun sys => ∃ L c, Serialized M store reliable programs d₀ sys L c)
      ⟨[], d₀, Serialized.init programs d₀⟩
      fun _ _ _ ⟨_, _, h⟩ hg hstep => serialized_step hsilent h hg.1 hg.2 hstep
  rcases hinv with ⟨L, c, h⟩
  -- Nobody is in the middle of their work, so everyone who has begun is listed.
  have hsettled : ∀ i, Settled store (sys.thread i).code := by
    intro i
    have hi := hended i
    cases hcode : (sys.thread i).code with
    | ret a => trivial
    | raise e => trivial
    | perform op next =>
        rw [hcode] at hi
        exact absurd hi id
  have hall : ∀ i, (sys.thread i).begun = true → i ∈ L := by
    intro i hi
    by_contra hiL
    exact (h.pending i hi hiL).2.1 (hsettled i)
  have hcell : sys.cell = c := h.clean hall
  -- Those who raised left nothing behind, and those who never used the store
  -- may come last.
  let returned : ι → Bool := fun i => decide (Returned (sys.thread i).code)
  let idle : List ι :=
    (Finset.univ.filter fun i => (sys.thread i).begun = false ∧ returned i = true).toList
  have hkept : Chain (fun i => Replays M reliable (programs i) (sys.thread i)) d₀
      (L.filter returned) c := by
    refine h.chain.filter returned fun i _ hi a b hr => ?_
    have hraised : ¬ Returned (sys.thread i).code := of_decide_eq_false hi
    have hi' := hended i
    cases hcode : (sys.thread i).code with
    | ret v =>
        rw [hcode] at hraised
        exact absurd trivial hraised
    | raise e => exact Replays.raised hr (hatomic i) hcode
    | perform op next =>
        rw [hcode] at hi'
        exact absurd hi' id
  have hidle : ∀ i, i ∈ idle ↔ (sys.thread i).begun = false ∧ returned i = true := by
    intro i
    simp [idle]
  have hfull : Chain (fun i => Replays M reliable (programs i) (sys.thread i)) d₀
      (L.filter returned ++ idle) c :=
    hkept.append_keeping idle fun i hi => (h.waiting i ((hidle i).mp hi).1).2 c
  have hmem : ∀ i, i ∈ L.filter returned ++ idle ↔ Returned (sys.thread i).code := by
    intro i
    rw [List.mem_append, List.mem_filter, hidle]
    constructor
    · rintro (hi | hi)
      · exact of_decide_eq_true hi.2
      · exact of_decide_eq_true hi.2
    · intro hi
      cases hb : (sys.thread i).begun with
      | true => exact Or.inl ⟨hall i hb, decide_eq_true hi⟩
      | false => exact Or.inr ⟨rfl, decide_eq_true hi⟩
  refine ⟨L.filter returned ++ idle, ?_, hmem, ?_⟩
  · rw [List.nodup_append]
    refine ⟨h.nodup.filter returned, Finset.nodup_toList _, ?_⟩
    intro i hi j hj hij
    subst hij
    have hb := (h.listed i (List.mem_of_mem_filter hi)).1
    rw [((hidle i).mp hj).1] at hb
    exact Bool.false_ne_true hb
  · rw [hcell]
    refine Chain.mono hfull fun i hi a b hr => ?_
    have hret := (hmem i).mp hi
    cases hcode : (sys.thread i).code with
    | ret v =>
        refine ⟨v, rfl, ?_⟩
        have hf := follows_of_steady hr
        rw [hcode] at hf
        exact hf
    | raise e =>
        rw [hcode] at hret
        exact absurd hret id
    | perform op next =>
        rw [hcode] at hret
        exact absurd hret id

end Serializable

end Lib

end Smbpal
