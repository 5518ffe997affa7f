import Mathlib.Data.List.Basic

/-!
# One Wire and Many Writers

A wire that any number of writers put messages on. A message goes out piece by piece, as
much at a time as the other end takes, and under a lock that is held from its first piece
to its last. Writing can fail between two pieces; the wire is then closed, as it is when
someone closes it, and a message for a closed wire is dropped.

What has gone out is then the messages that were finished, one after another, and at most
one more of which only a part did (`Wire.Whole`). Nobody's messages change places, and a
wire that was not closed has lost none of them (`Wire.Accounted`): what a writer was given
to send is what it has finished, what was lost, and what it still has to send.

## Main definitions

* `Writing`: A message of which a part has gone out.
* `Wire`: The lock, and what has gone out.
* `Wire.Send`, `Wire.Close`: What a writer does, and what closing does.
* `Wire.Whole`, `Wire.Accounted`: The two invariants.

## Theorems

* `Wire.Send.outcome`: The ways a send goes on.
* `Wire.Send.whole`, `Wire.Close.whole`: Whole messages and a part of one.
* `Wire.Send.accounted`, `Wire.Close.accounted`, `Wire.Accounted.give`: Nothing lost.
-/

namespace Smbpal.Lib

variable {τ μ α : Type}

/-- A message of which a part has gone out, but not all of it. -/
structure Writing (τ : Type) {μ α : Type} (text : μ → List α) where
  writer : τ
  message : μ
  written : List α
  rest : List α
  parts : written ++ rest = text message
  part : written ≠ [] → rest ≠ []

namespace Writing

variable {text : μ → List α}

/-- Nothing has gone out yet. -/
def begun (text : μ → List α) (t : τ) (m : μ) : Writing τ text where
  writer := t
  message := m
  written := []
  rest := text m
  parts := rfl
  part := fun h => absurd rfl h

/-- One more piece, which is not the last. -/
def more (w : Writing τ text) (k : Nat) (hk : k < w.rest.length) : Writing τ text where
  writer := w.writer
  message := w.message
  written := w.written ++ w.rest.take k
  rest := w.rest.drop k
  parts := by rw [List.append_assoc, List.take_append_drop, w.parts]
  part := by
    intro _ h
    have hle := List.drop_eq_nil_iff.mp h
    omega

end Writing

/-- A wire: whether it is closed, who holds the lock and how far it has come, what has
    gone out, whose messages those were, and the one that failed. -/
structure Wire (τ : Type) {μ α : Type} (text : μ → List α) where
  closed : Bool
  holder : Option (Writing τ text)
  bytes : List α
  sent : List (τ × μ)
  torn : Option (Writing τ text)

namespace Wire

variable {text : μ → List α}

/-- Nothing has gone out. -/
def fresh (text : μ → List α) : Wire τ text where
  closed := false
  holder := none
  bytes := []
  sent := []
  torn := none

/-- What has gone out of a message that is not finished. -/
def unfinished (s : Wire τ text) : List α :=
  match s.holder with
  | some w => w.written
  | none =>
      match s.torn with
      | some w => w.written
      | none => []

/-- One step of sending a message, and whether it was the last. -/
inductive Send (s : Wire τ text) (t : τ) (m : μ) : Bool → Wire τ text → Prop where
  /-- The wire is closed. -/
  | dropped (free : s.holder = none) (h : s.closed = true) : Send s t m true s
  | acquire (free : s.holder = none) (h : s.closed = false) :
      Send s t m false { s with holder := some (Writing.begun text t m) }
  | write (w : Writing τ text) (h : s.holder = some w) (hw : w.writer = t)
      (hm : w.message = m) (k : Nat) (hpos : 0 < k) (hk : k < w.rest.length) :
      Send s t m false
        { s with holder := some (w.more k hk), bytes := s.bytes ++ w.rest.take k }
  /-- The last piece goes out, and the lock is released. -/
  | finish (w : Writing τ text) (h : s.holder = some w) (hw : w.writer = t)
      (hm : w.message = m) :
      Send s t m true
        { s with holder := none, bytes := s.bytes ++ w.rest, sent := s.sent ++ [(t, m)] }
  | fail (w : Writing τ text) (h : s.holder = some w) (hw : w.writer = t)
      (hm : w.message = m) :
      Send s t m true { s with holder := none, closed := true, torn := some w }

/-- The wire is closed, which waits for the lock. -/
inductive Close (s : Wire τ text) : Wire τ text → Prop where
  | again (free : s.holder = none) (h : s.closed = true) : Close s s
  | mark (free : s.holder = none) (h : s.closed = false) : Close s { s with closed := true }

/-- The messages finished and a part of one more are what has gone out. -/
structure Whole (s : Wire τ text) : Prop where
  bytes : s.bytes = (s.sent.flatMap fun x => text x.2) ++ s.unfinished
  writing : s.holder.isSome = true → s.closed = false ∧ s.torn = none
  closed : s.torn.isSome = true → s.closed = true

theorem whole_fresh : (fresh text : Wire τ text).Whole where
  bytes := rfl
  writing := fun h => absurd h Bool.false_ne_true
  closed := fun h => absurd h Bool.false_ne_true

theorem unfinished_holder {s : Wire τ text} {w : Writing τ text} (h : s.holder = some w) :
    s.unfinished = w.written := by
  rw [unfinished, h]

theorem unfinished_torn {s : Wire τ text} {w : Writing τ text} (free : s.holder = none)
    (h : s.torn = some w) : s.unfinished = w.written := by
  rw [unfinished, free, h]

theorem unfinished_none {s : Wire τ text} (free : s.holder = none) (h : s.torn = none) :
    s.unfinished = [] := by
  rw [unfinished, free, h]

/-- An open wire has no failed message. -/
theorem Whole.no_torn {s : Wire τ text} (h : s.Whole) (hopen : s.closed = false) :
    s.torn = none := by
  cases htorn : s.torn with
  | none => rfl
  | some w =>
      have hclosed := h.closed (by rw [htorn]; rfl)
      rw [hopen] at hclosed
      exact absurd hclosed Bool.false_ne_true

theorem Send.whole {s s' : Wire τ text} {t : τ} {m : μ} {last : Bool}
    (hstep : Send s t m last s') (h : s.Whole) : s'.Whole := by
  cases hstep with
  | dropped free hclosed => exact h
  | acquire free hopen =>
      have htorn := h.no_torn hopen
      refine ⟨?_, fun _ => ⟨hopen, htorn⟩, h.closed⟩
      rw [unfinished_holder rfl]
      exact h.bytes.trans (congrArg _ (unfinished_none free htorn))
  | write w hw _ _ k _ hk =>
      refine ⟨?_, fun _ => h.writing (by rw [hw]; rfl), h.closed⟩
      rw [unfinished_holder rfl]
      change s.bytes ++ _ = _ ++ (w.written ++ _)
      rw [h.bytes, unfinished_holder hw, List.append_assoc]
  | finish w hw _ hmessage =>
      have hopen := h.writing (by rw [hw]; rfl)
      refine ⟨?_, fun hsome => absurd hsome Bool.false_ne_true, h.closed⟩
      have hnone : ({ s with
          holder := none
          bytes := s.bytes ++ w.rest
          sent := s.sent ++ [(t, m)] } : Wire τ text).unfinished = [] :=
        unfinished_none rfl hopen.2
      -- with the last piece all of the message has gone out
      have htext : w.written ++ w.rest = text m := hmessage ▸ w.parts
      rw [hnone, List.append_nil, List.flatMap_append, List.flatMap_singleton, ← htext]
      change s.bytes ++ w.rest = _
      rw [h.bytes, unfinished_holder hw, List.append_assoc]
  | fail w hw _ _ =>
      refine ⟨?_, fun hsome => absurd hsome Bool.false_ne_true, fun _ => rfl⟩
      rw [unfinished_torn rfl rfl]
      exact h.bytes.trans (congrArg _ (unfinished_holder hw))

theorem Close.whole {s s' : Wire τ text} (hstep : Close s s') (h : s.Whole) : s'.Whole := by
  cases hstep with
  | again => exact h
  | mark free hopen =>
      have htorn := h.no_torn hopen
      refine ⟨h.bytes, fun hsome => ?_, fun _ => rfl⟩
      change s.holder.isSome = true at hsome
      rw [free] at hsome
      exact absurd hsome Bool.false_ne_true

/-- Only who sends holds the lock afterwards, and only if the send goes on. -/
theorem Send.holder {s s' : Wire τ text} {t : τ} {m : μ} {last : Bool}
    (hstep : Send s t m last s') {w : Writing τ text} (h : s'.holder = some w) :
    last = false ∧ w.writer = t ∧ w.message = m := by
  cases hstep with
  | dropped free =>
      rw [free] at h
      exact absurd h (Option.some_ne_none w).symm
  | acquire =>
      rw [← Option.some.inj h]
      exact ⟨rfl, rfl, rfl⟩
  | write w' _ hwriter hmessage =>
      rw [← Option.some.inj h]
      exact ⟨rfl, hwriter, hmessage⟩
  | finish | fail => exact absurd h (Option.some_ne_none w).symm

/-- A closed wire stays closed. -/
theorem Send.closed {s s' : Wire τ text} {t : τ} {m : μ} {last : Bool}
    (hstep : Send s t m last s') (h : s.closed = true) : s'.closed = true := by
  cases hstep with
  | fail => rfl
  | dropped | acquire | write | finish => exact h

theorem Close.closed {s s' : Wire τ text} (hstep : Close s s') : s'.closed = true := by
  cases hstep with
  | again _ h => exact h
  | mark => rfl

/-- Nothing goes out on a closed wire. -/
theorem Send.silent {s s' : Wire τ text} {t : τ} {m : μ} {last : Bool}
    (hstep : Send s t m last s') (h : s.Whole) (hclosed : s.closed = true) :
    s' = s ∧ last = true := by
  have hnone : ∀ w, s.holder ≠ some w := by
    intro w hw
    have hopen := (h.writing (by rw [hw]; rfl)).1
    rw [hclosed] at hopen
    exact Bool.false_ne_true hopen.symm
  cases hstep with
  | dropped => exact ⟨rfl, rfl⟩
  | acquire _ hopen => exact absurd (hclosed.symm.trans hopen) Bool.false_ne_true.symm
  | write w hw => exact absurd hw (hnone w)
  | finish w hw => exact absurd hw (hnone w)
  | fail w hw => exact absurd hw (hnone w)

section Accounts

variable [DecidableEq τ]

/-- The messages of one writer that were finished. -/
def sentBy (s : Wire τ text) (t : τ) : List μ :=
  (s.sent.filter fun x => x.1 = t).map Prod.snd

/-- What each writer was given to send is what it has finished, what was lost, and what it
    still has to send; an open wire has lost nothing. -/
def Accounted (s : Wire τ text) (given pending : τ → List μ) : Prop :=
  ∀ t, ∃ lost, given t = s.sentBy t ++ lost ++ pending t ∧ (s.closed = false → lost = [])

theorem accounted_fresh : (fresh text : Wire τ text).Accounted (fun _ => []) (fun _ => []) :=
  fun _ => ⟨[], rfl, fun _ => rfl⟩

/-- A message was finished. -/
theorem sentBy_append {s s' : Wire τ text} {t : τ} {m : μ} (h : s'.sent = s.sent ++ [(t, m)])
    (u : τ) : s'.sentBy u = s.sentBy u ++ if t = u then [m] else [] := by
  unfold sentBy
  rw [h, List.filter_append, List.map_append]
  by_cases h : t = u
  · rw [if_pos h, List.filter_cons_of_pos (by simpa using h), List.filter_nil]
    rfl
  · rw [if_neg h, List.filter_cons_of_neg (by simpa using h), List.filter_nil]
    rfl

/-- The ways a send goes on: it is not over, it is over and the message has gone out, or
    it is over, the message has not, and the wire is closed. -/
theorem Send.outcome {s s' : Wire τ text} {t : τ} {m : μ} {last : Bool}
    (hstep : Send s t m last s') :
    (last = false ∧ s'.closed = s.closed ∧ ∀ u, s'.sentBy u = s.sentBy u) ∨
    (last = true ∧ s'.closed = s.closed ∧ (∃ w, s.holder = some w) ∧
      ∀ u, s'.sentBy u = s.sentBy u ++ if t = u then [m] else []) ∨
    (last = true ∧ s'.closed = true ∧ ∀ u, s'.sentBy u = s.sentBy u) := by
  cases hstep with
  | dropped _ h => exact Or.inr (Or.inr ⟨rfl, h, fun _ => rfl⟩)
  | acquire => exact Or.inl ⟨rfl, rfl, fun _ => rfl⟩
  | write => exact Or.inl ⟨rfl, rfl, fun _ => rfl⟩
  | finish w h => exact Or.inr (Or.inl ⟨rfl, rfl, ⟨w, h⟩, sentBy_append rfl⟩)
  | fail => exact Or.inr (Or.inr ⟨rfl, rfl, fun _ => rfl⟩)

/-- A writer that sends its first message still has it to send, until the send is over. -/
theorem Send.accounted {s s' : Wire τ text} {t : τ} {m : μ} {last : Bool}
    {given pending pending' : τ → List μ} {rest : List μ} (hstep : Send s t m last s')
    (hwhole : s.Whole) (h : s.Accounted given pending) (hfirst : pending t = m :: rest)
    (hnext : pending' t = if last = true then rest else m :: rest)
    (hother : ∀ u, u ≠ t → pending' u = pending u) : s'.Accounted given pending' := by
  intro u
  rcases h u with ⟨lost, hgiven, hlost⟩
  rcases hstep.outcome with ⟨rfl, hclosed, hsent⟩ | ⟨rfl, hclosed, ⟨w, hw⟩, hsent⟩ |
    ⟨rfl, hclosed, hsent⟩
  · -- the message is still to be sent
    have hsame : pending' u = pending u := by
      by_cases hu : u = t
      · rw [hu, hnext, if_neg Bool.false_ne_true, hfirst]
      · exact hother u hu
    refine ⟨lost, ?_, fun hopen => hlost (hclosed ▸ hopen)⟩
    rw [hsent, hsame, hgiven]
  · -- it has gone out, and nothing was lost before it
    have hopen := (hwhole.writing (by rw [hw]; rfl)).1
    have hnil := hlost hopen
    refine ⟨[], ?_, fun _ => rfl⟩
    rw [hsent, hgiven, hnil]
    by_cases hu : u = t
    · rw [hu, if_pos rfl, hnext, if_pos rfl, hfirst, List.append_nil, List.append_nil,
        List.append_assoc, List.singleton_append]
    · rw [if_neg (Ne.symm hu), hother u hu, List.append_nil, List.append_nil]
  · -- it is lost, and the wire is closed
    by_cases hu : u = t
    · refine ⟨lost ++ [m], ?_, fun hopen =>
        absurd (hclosed.symm.trans hopen) Bool.false_ne_true.symm⟩
      rw [hsent, hgiven, hu, hnext, if_pos rfl, hfirst]
      simp only [List.append_assoc, List.singleton_append]
    · refine ⟨lost, ?_, fun hopen => absurd (hclosed.symm.trans hopen) Bool.false_ne_true.symm⟩
      rw [hsent, hgiven, hother u hu]

theorem Close.accounted {s s' : Wire τ text} {given pending : τ → List μ}
    (hstep : Close s s') (h : s.Accounted given pending) : s'.Accounted given pending := by
  cases hstep with
  | again => exact h
  | mark =>
      intro t
      rcases h t with ⟨lost, hgiven, -⟩
      exact ⟨lost, hgiven, fun hopen => absurd hopen Bool.false_ne_true.symm⟩

omit [DecidableEq τ] in
/-- More to send is given, and still to be sent. -/
theorem Accounted.give [DecidableEq τ] {s : Wire τ text}
    {given pending given' pending' : τ → List μ} (h : s.Accounted given pending)
    (hmore : ∀ t, ∃ more, given' t = given t ++ more ∧ pending' t = pending t ++ more) :
    s.Accounted given' pending' := by
  intro t
  rcases h t with ⟨lost, hgiven, hlost⟩
  rcases hmore t with ⟨more, hgiven', hpending'⟩
  refine ⟨lost, ?_, hlost⟩
  rw [hgiven', hpending', hgiven, List.append_assoc (s.sentBy t ++ lost)]

end Accounts

end Wire

end Smbpal.Lib
