import Mathlib.Data.List.Infix

/-!
# Scanning a String of C

The functions of `string.h` that look for something in a string, as loops that read one byte at a
time. A string is its bytes and a zero behind them, and a position in it is a number; reading
further than the zero is reading memory that is not the string's, and has no value (`peek`).

A scan has a number of turns. It has a value when the turns are enough and every byte it reads is
the string's, and its spec lemma says so along with what the value is.

## Main definitions

* `peek`: A read.
* `strchr`, `memchr`, `startsAt`, `strstr`: The functions.

## Theorems

* `piece_unique`: A piece up to an element is determined.
* `memchr_eq_some_none`, `memchr_eq_some_some`: `memchr` in a piece of the string.
* `startsAt_eq`: Comparing with a text that has no zero.
* `strchr_spec`, `strstr_spec`: What is found is the first one.
-/

namespace Smbpal.Lib

variable {α : Type} [DecidableEq α] [Zero α] {s lit : List α} {c : α} {i n : Nat}

/-- A read: a byte of the string, or the zero behind it. -/
def peek (s : List α) (i : Nat) : Option α :=
  (s ++ [0])[i]?

/-- `strchr(s + i, c)`. -/
def strchr (s : List α) (c : α) : Nat → Nat → Option (Option Nat)
  | 0, _ => none
  | turns + 1, i => do
      let b ← peek s i
      if b = c then pure (some i) else if b = 0 then pure none else strchr s c turns (i + 1)

/-- `memchr(s + i, c, n)`. -/
def memchr (s : List α) (c : α) : Nat → Nat → Option (Option Nat)
  | _, 0 => some none
  | i, n + 1 => do
      let b ← peek s i
      if b = c then pure (some i) else memchr s c (i + 1) n

/-- `strncmp(s + i, lit, strlen(lit)) == 0`. -/
def startsAt (s : List α) : Nat → List α → Option Bool
  | _, [] => some true
  | i, c :: lit => do
      let b ← peek s i
      if b = c then startsAt s (i + 1) lit else pure false

/-- `strstr(s + i, lit)`. -/
def strstr (s lit : List α) : Nat → Nat → Option (Option Nat)
  | 0, _ => none
  | turns + 1, i => do
      let found ← startsAt s i lit
      if found then pure (some i)
      else
        let b ← peek s i
        if b = 0 then pure none else strstr s lit turns (i + 1)

omit [DecidableEq α] in
theorem peek_of_lt (h : i < s.length) : peek s i = some s[i] := by
  unfold peek
  rw [List.getElem?_append_left h, List.getElem?_eq_getElem h]

omit [DecidableEq α] in
theorem peek_length : peek s s.length = some 0 := by
  unfold peek
  rw [List.getElem?_append_right (Nat.le_refl _), Nat.sub_self]
  rfl

omit [DecidableEq α] in
theorem peek_at (a b : List α) : peek (a ++ c :: b) a.length = some c := by
  have hlt : a.length < (a ++ c :: b).length := by
    rw [List.length_append, List.length_cons]
    omega
  rw [peek_of_lt hlt, List.getElem_append_right (Nat.le_refl _)]
  simp only [Nat.sub_self, List.getElem_cons_zero]

omit [DecidableEq α] [Zero α] in
/-- Two pieces without an element, with it behind them, are one. -/
theorem piece_unique {a b x y : List α} (ha : c ∉ a) (hx : c ∉ x)
    (h : a ++ c :: b = x ++ c :: y) : a = x ∧ b = y := by
  rcases List.append_eq_append_iff.mp h with ⟨l, hl, hrest⟩ | ⟨l, hl, hrest⟩
  · cases l with
    | nil => exact ⟨by rw [hl, List.append_nil], (List.cons.inj hrest).2⟩
    | cons d l =>
        refine absurd ?_ hx
        rw [hl, (List.cons.inj hrest).1]
        exact List.mem_append_right a List.mem_cons_self
  · cases l with
    | nil => exact ⟨by rw [hl, List.append_nil], (List.cons.inj hrest).2.symm⟩
    | cons d l =>
        refine absurd ?_ ha
        rw [hl, (List.cons.inj hrest).1]
        exact List.mem_append_right x List.mem_cons_self

/-- In a piece without the byte there is none. -/
theorem memchr_eq_some_none {a piece b : List α} (h : c ∉ piece) :
    memchr (a ++ (piece ++ b)) c a.length piece.length = some none := by
  induction piece generalizing a with
  | nil => rfl
  | cons d piece ih =>
      rw [List.mem_cons, not_or] at h
      have hnext := @ih (a ++ [d]) h.2
      rw [List.append_assoc, List.singleton_append, List.length_append, List.length_singleton]
        at hnext
      rw [List.cons_append, List.length_cons, memchr, peek_at]
      exact (if_neg (Ne.symm h.1)).trans hnext

/-- In a piece with the byte it is found behind those that are others. -/
theorem memchr_eq_some_some {a piece b : List α} (h : c ∉ piece) (rest : Nat) :
    memchr (a ++ (piece ++ c :: b)) c a.length (piece.length + (rest + 1)) =
      some (some (a.length + piece.length)) := by
  induction piece generalizing a with
  | nil =>
      rw [List.nil_append, List.length_nil, Nat.zero_add, memchr, peek_at]
      exact if_pos rfl
  | cons d piece ih =>
      rw [List.mem_cons, not_or] at h
      have hnext := @ih (a ++ [d]) h.2
      rw [List.append_assoc, List.singleton_append, List.length_append, List.length_singleton]
        at hnext
      have hlen : (d :: piece).length + (rest + 1) = (piece.length + (rest + 1)) + 1 := by
        rw [List.length_cons]
        omega
      have hsum : a.length + (d :: piece).length = a.length + 1 + piece.length := by
        rw [List.length_cons]
        omega
      rw [hlen, hsum, List.cons_append, memchr, peek_at]
      exact (if_neg (Ne.symm h.1)).trans hnext

/-- A text without a zero is compared within the string. -/
theorem startsAt_eq (hzero : (0 : α) ∉ lit) (hi : i ≤ s.length) :
    startsAt s i lit = some (decide (lit <+: s.drop i)) := by
  induction lit generalizing i with
  | nil => rw [startsAt, decide_eq_true List.nil_prefix]
  | cons c lit ih =>
      rw [List.mem_cons, not_or] at hzero
      rw [startsAt]
      rcases Nat.lt_or_ge i s.length with hlt | hge
      · rw [peek_of_lt hlt, List.drop_eq_getElem_cons hlt]
        by_cases heq : s[i] = c
        · have hsame : c :: lit <+: s[i] :: s.drop (i + 1) ↔ lit <+: s.drop (i + 1) := by
            rw [List.cons_prefix_cons]
            exact and_iff_right heq.symm
          rw [decide_eq_decide.mpr hsame, ← ih hzero.2 (by omega)]
          exact if_pos heq
        · have hnot : ¬c :: lit <+: s[i] :: s.drop (i + 1) := fun h =>
            heq (List.cons_prefix_cons.mp h).1.symm
          rw [decide_eq_false hnot]
          exact if_neg heq
      · -- The zero ends the comparison.
        have hend : i = s.length := by omega
        have hnot : ¬c :: lit <+: s.drop i := by
          rw [List.drop_eq_nil_of_le hge, List.prefix_nil]
          exact List.cons_ne_nil c lit
        rw [decide_eq_false hnot, hend, peek_length]
        exact if_neg hzero.1

/-- A byte that is not zero is found at its first place, or nowhere in the string. -/
theorem strchr_spec {a b : List α} (hc : c ≠ 0) (hb : (0 : α) ∉ b) {turns : Nat}
    (hturns : b.length < turns) :
    (c ∉ b ∧ strchr (a ++ b) c turns a.length = some none) ∨
      ∃ piece rest, b = piece ++ c :: rest ∧ c ∉ piece ∧
        strchr (a ++ b) c turns a.length = some (some (a.length + piece.length)) := by
  induction b generalizing a turns with
  | nil =>
      refine Or.inl ⟨List.not_mem_nil, ?_⟩
      cases turns with
      | zero => omega
      | succ turns =>
          rw [List.append_nil, strchr, peek_length]
          exact (if_neg (Ne.symm hc)).trans (if_pos rfl)
  | cons d b ih =>
      rw [List.mem_cons, not_or] at hb
      rw [List.length_cons] at hturns
      cases turns with
      | zero => omega
      | succ turns =>
          rw [strchr, peek_at]
          by_cases heq : d = c
          · refine Or.inr ⟨[], b, by rw [heq, List.nil_append], List.not_mem_nil, ?_⟩
            exact if_pos heq
          · -- Neither the character nor the end: the next turn looks one further.
            have hstep : (some d >>= fun x => if x = c then pure (some a.length)
                else if x = 0 then pure none else strchr (a ++ d :: b) c turns (a.length + 1)) =
                  strchr (a ++ d :: b) c turns (a.length + 1) :=
              (if_neg heq).trans (if_neg (Ne.symm hb.1))
            have hnext := @ih (a ++ [d]) hb.2 turns (by omega)
            rw [List.append_assoc, List.singleton_append, List.length_append,
              List.length_singleton] at hnext
            rw [hstep]
            rcases hnext with ⟨hnone, hfound⟩ | ⟨piece, rest, hsplit, hpiece, hfound⟩
            · refine Or.inl ⟨?_, hfound⟩
              rw [List.mem_cons, not_or]
              exact ⟨Ne.symm heq, hnone⟩
            · refine Or.inr ⟨d :: piece, rest, by rw [hsplit, List.cons_append], ?_, ?_⟩
              · rw [List.mem_cons, not_or]
                exact ⟨Ne.symm heq, hpiece⟩
              · rw [hfound, List.length_cons]
                congr 2
                omega

/-- A text that is not empty and has no zero is found at its first place, or nowhere. -/
theorem strstr_spec (hlit : lit ≠ []) (hzero : (0 : α) ∉ lit) (hs : (0 : α) ∉ s) {turns : Nat}
    (hi : i ≤ s.length) (hturns : s.length - i < turns) :
    (strstr s lit turns i = some none ∧ ∀ k, i ≤ k → ¬lit <+: s.drop k) ∨
      ∃ j, strstr s lit turns i = some (some j) ∧ i ≤ j ∧ lit <+: s.drop j ∧
        ∀ k, i ≤ k → k < j → ¬lit <+: s.drop k := by
  induction turns generalizing i with
  | zero => omega
  | succ turns ih =>
      rw [strstr, startsAt_eq hzero hi]
      by_cases hhere : lit <+: s.drop i
      · refine Or.inr ⟨i, ?_, Nat.le_refl i, hhere, fun k hik hki => by omega⟩
        rw [decide_eq_true hhere]
        rfl
      · rw [decide_eq_false hhere]
        rcases Nat.lt_or_ge i s.length with hlt | hge
        · have hstep : (some false >>= fun found : Bool => if found then pure (some i)
              else peek s i >>= fun b => if b = 0 then pure none
                else strstr s lit turns (i + 1)) = strstr s lit turns (i + 1) := by
            have hb : s[i] ≠ 0 := fun h => hs (h ▸ List.getElem_mem hlt)
            rw [peek_of_lt hlt]
            exact if_neg hb
          have hother : ∀ k, i ≤ k → k ≠ i → i + 1 ≤ k := fun k hik hne => by omega
          -- It does not start here, so what the turns behind find is what there is.
          rcases @ih (i + 1) hlt (by omega) with ⟨hnone, hnot⟩ | ⟨j, hj, hij, hfound, hnot⟩
          · refine Or.inl ⟨hstep.trans hnone, fun k hik => ?_⟩
            by_cases hk : k = i
            · rw [hk]
              exact hhere
            · exact hnot k (hother k hik hk)
          · refine Or.inr ⟨j, hstep.trans hj, by omega, hfound, fun k hik hkj => ?_⟩
            by_cases hk : k = i
            · rw [hk]
              exact hhere
            · exact hnot k (hother k hik hk) hkj
        · -- At the end only the empty one starts.
          have hend : i = s.length := by omega
          refine Or.inl ⟨?_, fun k hik h => ?_⟩
          · rw [hend, peek_length]
            exact if_pos rfl
          · rw [List.drop_eq_nil_of_le (by omega), List.prefix_nil] at h
            exact hlit h

end Smbpal.Lib
