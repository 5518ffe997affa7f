import Smbpal.Python.Spelled

/-!
# What Was Read Can Be Read Again

A value that `json.loads` made of a text with a UTF-8 can be written and read back: the scanner
puts the two halves of a character together wherever they stand side by side, the last of two
members with one key takes the place of the first, and a number that is too long, or a text
that is nested too deeply, is refused. So `json.loads` after `json.dumps` is the identity on
everything the program gets over its socket or from a file, in whichever layout it is written.

## Main definitions

* `SafeNext`: A text that does not go on with an escaped second half.

## Theorems

* `scanString_unpaired`: A string that was read can be read again.
* `jsonScan_rereadable`: A value that was read can be.
* `reread`: What was read is read again from any text of it.
-/

namespace Smbpal

section Hex

theorem hexValue_lt {c : PyChar} {d : Nat} (h : hexValue c = some d) : d < 16 := by
  unfold hexValue at h
  dsimp only at h
  split at h
  · rw [Option.some.injEq] at h
    omega
  · split at h
    · rw [Option.some.injEq] at h
      omega
    · split at h
      · rw [Option.some.injEq] at h
        omega
      · cases h

/-- Four digits, and that they are behind one another. -/
theorem hexFour_eq_some {text after : Str} {n : Nat} (h : hexFour text = some (n, after)) :
    n < 65536 ∧ after <:+ text := by
  unfold hexFour at h
  split at h
  · rename_i a b c d rest
    simp only [bind, Option.bind_eq_some_iff, pure, Option.some.injEq, Prod.mk.injEq] at h
    rcases h with ⟨i, hi, j, hj, k, hk, l, hl, rfl, rfl⟩
    have hi := hexValue_lt hi
    have hj := hexValue_lt hj
    have hk := hexValue_lt hk
    have hl := hexValue_lt hl
    exact ⟨by omega, [a, b, c, d], rfl⟩
  · cases h

/-- The code point of a character made from a number. -/
theorem ord_pyChr {n : Nat} (h : n < 0x110000) : ord (pyChr n) = n := by
  unfold pyChr
  by_cases hsurrogate : 0xD800 ≤ n ∧ n < 0xE000
  · rw [dif_pos hsurrogate]
    exact Nat.add_sub_cancel' hsurrogate.1
  · have hvalid : n.isValidChar := by
      unfold Nat.isValidChar
      omega
    rw [dif_neg hsurrogate]
    change (Char.ofNat n).toNat = n
    rw [Char.ofNat, dif_pos hvalid]
    rfl

theorem not_lowHalf_of_high {n : Nat} (h : isHighHalf n = true) : isLowHalf n = false := by
  have hrange := of_decide_eq_true h
  exact decide_eq_false (by omega)

end Hex

section Strings

/-- What a step of the scanner went on with. -/
theorem scan_bind_eq_ok {α β : Type} {x : Except ScanError α} {f : α → Except ScanError β}
    {b : β} : (x >>= f) = .ok b ↔ ∃ a, x = .ok a ∧ f a = .ok b := by
  cases x with
  | ok a => exact ⟨fun h => ⟨a, rfl, h⟩, fun ⟨_, ha, h⟩ => Except.ok.inj ha ▸ h⟩
  | error e =>
      constructor
      · intro h
        cases h
      · rintro ⟨_, ha, -⟩
        cases ha

/-- The text does not go on with an escaped second half. -/
def SafeNext (text : Str) : Prop :=
  ∀ rest, text = chr '\\' :: chr 'u' :: rest → 5 ≤ rest.length →
    ∀ low after, hexFour rest = some (low, after) → isLowHalf low = false

/-- A first half is left alone, where no second one follows, or completed. -/
theorem scanLowHalf_ok {high : Nat} {text after : Str} {c : PyChar}
    (hhigh : isHighHalf high = true) (h : scanLowHalf high text = .ok (c, after)) :
    after <:+ text ∧ isLowHalf (ord c) = false ∧ (isHighHalf (ord c) = true → SafeNext after) := by
  have hord : ord (pyChr high) = high := ord_pyChr (by
    have hrange := of_decide_eq_true hhigh
    omega)
  -- A half that is read alone is kept, where what follows cannot pair with it.
  have hlone : SafeNext text → pyChr high = c ∧ text = after → after <:+ text ∧
      isLowHalf (ord c) = false ∧ (isHighHalf (ord c) = true → SafeNext after) := by
    rintro hsafe ⟨rfl, rfl⟩
    rw [hord]
    exact ⟨List.suffix_refl _, not_lowHalf_of_high hhigh, fun _ => hsafe⟩
  unfold scanLowHalf at h
  split at h
  · rename_i b u rest
    split at h
    · rename_i hescape
      rcases hescape with ⟨rfl, rfl, -⟩
      cases hfour : hexFour rest with
      | none =>
          rw [hfour] at h
          cases h
      | some r =>
          rcases r with ⟨low, behind⟩
          rw [hfour] at h
          dsimp only at h
          by_cases hlow : isLowHalf low = true
          · -- A low half: the two are one character, which is no half.
            rw [if_pos hlow] at h
            have hhighRange := of_decide_eq_true hhigh
            have hlowRange := of_decide_eq_true hlow
            have hwhole := ord_pyChr (n := 65536 + (high - 0xD800) * 1024 + (low - 0xDC00))
              (by omega)
            rcases Prod.mk.inj (Except.ok.inj h) with ⟨rfl, rfl⟩
            refine ⟨((hexFour_eq_some hfour).2.trans (List.suffix_cons _ _)).trans
              (List.suffix_cons _ _), decide_eq_false ?_, fun hhigh => ?_⟩
            · rw [hwhole]
              omega
            · have hrange := of_decide_eq_true hhigh
              rw [hwhole] at hrange
              omega
          · -- A unit behind it that is no low half.
            rw [if_neg hlow] at h
            refine hlone (fun rest' heq _ low' after' hread => ?_) (Prod.mk.inj (Except.ok.inj h))
            rw [← (List.cons.inj (List.cons.inj heq).2).2, hfour] at hread
            rw [← (Prod.mk.inj (Option.some.inj hread)).1]
            exact eq_false_of_ne_true hlow
    · -- No unit behind it, or too little text for one.
      rename_i hnot
      refine hlone (fun rest' heq hlength => absurd ?_ hnot) (Prod.mk.inj (Except.ok.inj h))
      rcases List.cons.inj heq with ⟨hb, htail⟩
      rcases List.cons.inj htail with ⟨hu, hrest⟩
      exact ⟨hb, hu, hrest ▸ hlength⟩
  · rename_i hshort
    exact hlone (fun rest' heq _ => absurd heq (hshort _ _ _)) (Prod.mk.inj (Except.ok.inj h))

/-- What an escape in hexadecimal stands for: a second half only where the text says so, and a
    first one only where no second one follows. -/
theorem scanUnicode_ok {text after : Str} {c : PyChar} (h : scanUnicode text = .ok (c, after)) :
    5 ≤ (text.drop 1).length ∧ after <:+ text ∧
      (isLowHalf (ord c) = true →
        ∃ low rest, hexFour (text.drop 1) = some (low, rest) ∧ isLowHalf low = true) ∧
      (isHighHalf (ord c) = true → SafeNext after) := by
  unfold scanUnicode at h
  by_cases hshort : (text.drop 1).length < 5
  · rw [if_pos hshort] at h
    cases h
  rw [if_neg hshort] at h
  refine ⟨Nat.le_of_not_lt hshort, ?_⟩
  have hdrop : text.drop 1 <:+ text := List.drop_suffix 1 text
  cases hfour : hexFour (text.drop 1) with
  | none =>
      rw [hfour] at h
      cases h
  | some r =>
      rcases r with ⟨n, rest⟩
      rw [hfour] at h
      dsimp only at h
      rcases hexFour_eq_some hfour with ⟨hn, hrest⟩
      -- A high half is read with what follows it.
      by_cases hhigh : isHighHalf n = true
      · rw [if_pos hhigh] at h
        rcases scanLowHalf_ok hhigh h with ⟨hafter, hlow, hsafe⟩
        refine ⟨hafter.trans (hrest.trans hdrop), fun hc => ?_, hsafe⟩
        exact absurd (hlow.symm.trans hc) Bool.false_ne_true
      · -- A unit that stands for its own character.
        rw [if_neg hhigh] at h
        rcases Prod.mk.inj (Except.ok.inj h) with ⟨rfl, rfl⟩
        rw [ord_pyChr (by omega)]
        exact ⟨hrest.trans hdrop, fun hlow => ⟨n, _, rfl, hlow⟩, fun hc => absurd hc hhigh⟩

/-- What a backslash and a letter stand for is ASCII. -/
theorem unescaped_ascii {e c : PyChar} (h : unescaped e = some c) : ord c < 128 := by
  unfold unescaped at h
  repeat' split at h
  all_goals first
    | cases h
      decide
    | cases h

/-- One character of a string, where a second half may not be. -/
theorem scanChar_ok {begin rest after : Str} {c d : PyChar} (hplain : IsPlain (c :: rest))
    (h : scanChar begin c rest = .ok (d, after)) :
    after <:+ rest ∧ (SafeNext (c :: rest) → isLowHalf (ord d) = false) ∧
      (isHighHalf (ord d) = true → SafeNext after) := by
  have hascii : ord d < 128 → after <:+ rest → after <:+ rest ∧
      (SafeNext (c :: rest) → isLowHalf (ord d) = false) ∧
      (isHighHalf (ord d) = true → SafeNext after) := by
    intro hlt hafter
    refine ⟨hafter, fun _ => decide_eq_false (by omega), fun hhigh => ?_⟩
    have hrange := of_decide_eq_true hhigh
    omega
  unfold scanChar at h
  by_cases hbackslash : c = chr '\\'
  · rw [if_pos hbackslash] at h
    unfold scanEscape at h
    split at h
    · cases h
    · rename_i e behind
      by_cases hu : e = chr 'u'
      · rw [if_pos hu] at h
        rcases scanUnicode_ok h with ⟨hlength, hafter, hlow, hsafe⟩
        refine ⟨hafter, fun hnext => eq_false_of_ne_true fun hd => ?_, hsafe⟩
        rcases hlow hd with ⟨low, rest, hfour, hlow⟩
        rw [hbackslash, hu] at hnext
        rw [hnext behind rfl hlength low rest hfour] at hlow
        exact Bool.false_ne_true hlow
      · rw [if_neg hu] at h
        cases hshort : unescaped e with
        | none =>
            rw [hshort] at h
            cases h
        | some f =>
            rw [hshort] at h
            rcases Prod.mk.inj (Except.ok.inj h) with ⟨rfl, rfl⟩
            exact hascii (unescaped_ascii hshort) (List.suffix_cons _ _)
  · rw [if_neg hbackslash] at h
    by_cases hcontrol : ord c ≤ 0x1f
    · rw [if_pos hcontrol] at h
      cases h
    · rw [if_neg hcontrol] at h
      rcases Prod.mk.inj (Except.ok.inj h) with ⟨rfl, rfl⟩
      -- A character that stands for itself is a scalar value: the text has a UTF-8.
      rcases hplain c List.mem_cons_self with ⟨d, rfl⟩
      have hvalid : d.toNat < 0xD800 ∨ 0xDFFF < d.toNat ∧ d.toNat < 0x110000 := d.valid
      have hord : ord (.scalar d) = d.toNat := rfl
      refine ⟨List.suffix_refl _, fun _ => decide_eq_false (by omega), fun hhigh => ?_⟩
      have hrange := of_decide_eq_true hhigh
      omega

theorem IsPlain.suffix {s t : Str} (h : IsPlain t) (hs : s <:+ t) : IsPlain s :=
  fun c hc => h c (hs.mem hc)

/-- A string that was read can be read again. -/
theorem scanString_unpaired {begin : Str} {turns : Nat} {text s rest : Str}
    (hplain : IsPlain text) (h : scanString begin turns text = .ok (s, rest)) :
    Unpaired s ∧ rest <:+ text ∧
      (SafeNext text → ∀ c ∈ s.head?, isLowHalf (ord c) = false) := by
  induction turns generalizing text s with
  | zero => cases h
  | succ turns ih =>
      cases text with
      | nil => cases h
      | cons c after =>
          rw [scanString] at h
          by_cases hquote : c = chr '"'
          · rw [if_pos hquote] at h
            rcases Prod.mk.inj (Except.ok.inj h) with ⟨rfl, rfl⟩
            exact ⟨List.isChain_nil, List.suffix_cons _ _, fun _ d hd => by cases hd⟩
          rw [if_neg hquote] at h
          rcases scan_bind_eq_ok.mp h with ⟨⟨d, behind⟩, hchar, h⟩
          rcases scan_bind_eq_ok.mp h with ⟨⟨t, rest'⟩, hstring, h⟩
          rcases Prod.mk.inj (Except.ok.inj h) with ⟨rfl, rfl⟩
          rcases scanChar_ok hplain hchar with ⟨hbehind, hlow, hsafe⟩
          -- What is read behind this character is part of the same text.
          have hafter : behind <:+ c :: after := hbehind.trans (List.suffix_cons _ _)
          rcases ih (hplain.suffix hafter) hstring with ⟨hunpaired, hrest, hhead⟩
          refine ⟨List.isChain_cons.mpr ⟨fun e he hboth => ?_, hunpaired⟩, hrest.trans hafter,
            fun hnext e he => ?_⟩
          · -- A high half is followed by no low one, or they would have been one character.
            rw [hhead (hsafe hboth.1) e he] at hboth
            exact Bool.false_ne_true hboth.2
          · rw [← Option.some.inj he]
            exact hlow hnext

end Strings

section Numbers

theorem digit_lt {c : PyChar} (h : isDigit c = true) : ord c - 48 < 10 := by
  cases c with
  | surrogate n => exact absurd h Bool.false_ne_true
  | scalar d =>
      rw [isDigit, Bool.and_eq_true, decide_eq_true_eq, decide_eq_true_eq] at h
      exact show d.toNat - 48 < 10 by omega

/-- Another digit behind a number. -/
theorem length_digits_step (n : Nat) {d : Nat} (hd : d < 10) :
    (digits (10 * n + d)).length ≤ (digits n).length + 1 := by
  have htens : (10 * n + d) / 10 = n := by omega
  rw [digits, digits, List.length_map, List.length_map, Nat.toDigits_eq_if (by decide)]
  by_cases hsmall : 10 * n + d < 10
  · rw [if_pos hsmall]
    exact Nat.le_add_left 1 _
  · rw [if_neg hsmall, htens, List.length_append]
    exact Nat.le_refl _

/-- A number has no more digits than it was read from. -/
theorem length_digits_decimalOf {whole : Str} (hne : whole ≠ [])
    (hdigits : whole.all isDigit = true) :
    (digits (decimalOf whole)).length ≤ whole.length := by
  -- Each digit read makes the number at most one digit longer.
  have hfold : ∀ (ds : Str) (n : Nat), ds.all isDigit = true →
      (digits (ds.foldl (fun n c => 10 * n + (ord c - 48)) n)).length ≤
        (digits n).length + ds.length := by
    intro ds
    induction ds with
    | nil => exact fun n _ => Nat.le_refl _
    | cons d ds ih =>
        intro n hds
        rw [List.all_cons, Bool.and_eq_true] at hds
        have hstep := length_digits_step n (digit_lt hds.1)
        have hrest := ih (10 * n + (ord d - 48)) hds.2
        rw [List.foldl_cons, List.length_cons]
        omega
  cases whole with
  | nil => exact absurd rfl hne
  | cons d ds =>
      rw [List.all_cons, Bool.and_eq_true] at hdigits
      have hd := digit_lt hdigits.1
      have hone : (digits (10 * 0 + (ord d - 48))).length = 1 := by
        rw [digits, List.length_map, Nat.toDigits_of_lt_base (by omega)]
        rfl
      have hrest := hfold ds (10 * 0 + (ord d - 48)) hdigits.2
      rw [decimalOf, List.foldl_cons, List.length_cons]
      omega

theorem all_takeWhile_digits (s : Str) : (s.takeWhile isDigit).all isDigit = true :=
  List.all_takeWhile

theorem scanWhole_eq_some {text whole after : Str} (h : scanWhole text = some (whole, after)) :
    whole ≠ [] ∧ whole.all isDigit = true ∧ after <:+ text := by
  unfold scanWhole at h
  split at h
  · rename_i c rest
    by_cases hzero : c = chr '0'
    · rw [if_pos hzero, Option.some.injEq, Prod.mk.injEq] at h
      rcases h with ⟨rfl, rfl⟩
      exact ⟨List.cons_ne_nil _ _, by rw [hzero]; rfl, List.suffix_cons _ _⟩
    rw [if_neg hzero] at h
    by_cases hdigit : isDigit c = true
    · rw [if_pos hdigit, Option.some.injEq, Prod.mk.injEq] at h
      rcases h with ⟨rfl, rfl⟩
      refine ⟨List.cons_ne_nil _ _, ?_, (List.dropWhile_suffix _).trans (List.suffix_cons _ _)⟩
      rw [List.all_cons, hdigit, all_takeWhile_digits]
      rfl
    · rw [if_neg hdigit] at h
      cases h
  · cases h

theorem scanFraction_suffix (text : Str) : (scanFraction text).2 <:+ text := by
  unfold scanFraction
  split
  · rename_i p d rest
    split
    · exact (List.dropWhile_suffix _).trans
        ((List.suffix_cons _ _).trans (List.suffix_cons _ _))
    · exact List.suffix_refl _
  · exact List.suffix_refl _

theorem scanSign_suffix (text : Str) : (scanSign text).2 <:+ text := by
  unfold scanSign
  split
  · split
    · exact List.suffix_cons _ _
    · exact List.suffix_refl _
  · exact List.suffix_refl _

theorem scanExponent_suffix (text : Str) : (scanExponent text).2 <:+ text := by
  unfold scanExponent
  split
  · rename_i e rest
    split
    · exact (List.dropWhile_suffix _).trans ((scanSign_suffix rest).trans (List.suffix_cons _ _))
    · exact List.suffix_refl _
  · exact List.suffix_refl _

variable [FloatRead]

/-- A number that was read can be read again. -/
theorem scanUnsigned_rereadable {text sign body rest : Str} {v : Json}
    (h : scanUnsigned text sign body = .ok (v, rest)) (levels : Nat) :
    Rereadable levels v ∧ rest <:+ body := by
  unfold scanUnsigned at h
  cases hwhole : scanWhole body with
  | none =>
      rw [hwhole] at h
      cases h
  | some r =>
      rcases r with ⟨whole, after⟩
      rcases scanWhole_eq_some hwhole with ⟨hne, hdigits, hafter⟩
      have hsuffix : (scanExponent (scanFraction after).2).2 <:+ body :=
        (scanExponent_suffix _).trans ((scanFraction_suffix _).trans hafter)
      rw [hwhole] at h
      dsimp only at h
      -- With neither fraction nor exponent it is a whole number, of limited length.
      by_cases hnothing : (scanFraction after).1 = [] ∧
          (scanExponent (scanFraction after).2).1 = []
      · rw [if_pos hnothing] at h
        by_cases hlong : maxStrDigits < whole.length
        · rw [if_pos hlong] at h
          cases h
        · rw [if_neg hlong] at h
          rcases Prod.mk.inj (Except.ok.inj h) with ⟨rfl, rfl⟩
          refine ⟨?_, hsuffix⟩
          have hlength := length_digits_decimalOf hne hdigits
          -- The sign changes nothing of the length.
          have habs : (if sign = [] then (decimalOf whole : Int)
              else -(decimalOf whole : Int)).natAbs = decimalOf whole := by
            by_cases hsign : sign = []
            · rw [if_pos hsign, Int.natAbs_natCast]
            · rw [if_neg hsign, Int.natAbs_neg, Int.natAbs_natCast]
          rw [Rereadable, habs]
          omega
      · rw [if_neg hnothing] at h
        rcases Prod.mk.inj (Except.ok.inj h) with ⟨rfl, rfl⟩
        refine ⟨?_, hsuffix⟩
        rw [Rereadable]
        exact fun q hq => floatBack _ q hq

theorem scanNumber_rereadable {text rest : Str} {v : Json} (h : scanNumber text = .ok (v, rest))
    (levels : Nat) : Rereadable levels v ∧ rest <:+ text := by
  unfold scanNumber at h
  split at h
  · rename_i c body
    by_cases hminus : c = chr '-'
    · rw [if_pos hminus] at h
      rcases scanUnsigned_rereadable h levels with ⟨hv, hrest⟩
      exact ⟨hv, hrest.trans (List.suffix_cons _ _)⟩
    · rw [if_neg hminus] at h
      exact scanUnsigned_rereadable h levels
  · exact scanUnsigned_rereadable h levels

theorem scanWord_rereadable {text rest : Str} {v : Json} (h : scanWord text = some (v, rest))
    (levels : Nat) : Rereadable levels v ∧ rest <:+ text := by
  -- A word is read off the front, whichever it is.
  have hword : ∀ (w : Json) (n : Nat), Rereadable levels w →
      some (w, text.drop n) = some (v, rest) → Rereadable levels v ∧ rest <:+ text := by
    intro w n hw heq
    rcases Prod.mk.inj (Option.some.inj heq) with ⟨rfl, rfl⟩
    exact ⟨hw, List.drop_suffix n text⟩
  have hfloat : ∀ x : PyFloat, (∀ q, x ≠ .finite q) → Rereadable levels (.float x) := by
    intro x hx
    rw [Rereadable]
    exact fun q hq => absurd hq (hx q)
  unfold scanWord at h
  split at h
  · exact hword _ _ (by rw [Rereadable]; trivial) h
  split at h
  · exact hword _ _ (by rw [Rereadable]; trivial) h
  split at h
  · exact hword _ _ (by rw [Rereadable]; trivial) h
  split at h
  · exact hword _ _ (hfloat _ fun _ h => by cases h) h
  split at h
  · exact hword _ _ (hfloat _ fun _ h => by cases h) h
  split at h
  · exact hword _ _ (hfloat _ fun _ h => by cases h) h
  · cases h

end Numbers

section Values

variable [FloatRead] {levels turns : Nat}

theorem rereadableItems_iff {items : List Json} :
    RereadableItems levels items ↔ ∀ v ∈ items, Rereadable levels v := by
  induction items with
  | nil => exact iff_of_true trivial fun _ h => absurd h List.not_mem_nil
  | cons v vs ih => rw [RereadableItems, ih, List.forall_mem_cons]

theorem rereadableMembers_iff {members : List (Str × Json)} :
    RereadableMembers levels members ↔ ∀ m ∈ members, Unpaired m.1 ∧ Rereadable levels m.2 := by
  induction members with
  | nil => exact iff_of_true trivial fun _ h => absurd h List.not_mem_nil
  | cons m ms ih => rw [RereadableMembers, ih, List.forall_mem_cons, and_assoc]

/-- Members that can be read back. -/
def GoodMembers (levels : Nat) (members : List (Str × Json)) : Prop :=
  (members.map Prod.fst).Nodup ∧ RereadableMembers levels members

/-- A later member takes the place of an earlier one of the same key. -/
theorem goodMembers_set {members : List (Str × Json)} {k : Str} {v : Json}
    (h : GoodMembers levels members) (hk : Unpaired k) (hv : Rereadable levels v) :
    GoodMembers levels (setMember members k v) := by
  rcases h with ⟨hkeys, hmembers⟩
  rw [rereadableMembers_iff] at hmembers
  unfold setMember
  by_cases hmem : k ∈ members.map Prod.fst
  · rw [if_pos hmem]
    -- The key is there already, and keeps its place.
    constructor
    · have hsame : (members.map fun m => if m.1 = k then (k, v) else m).map Prod.fst =
          members.map Prod.fst := by
        rw [List.map_map]
        refine List.map_congr_left fun m _ => ?_
        by_cases hm : m.1 = k
        · rw [Function.comp_apply, if_pos hm, hm]
        · rw [Function.comp_apply, if_neg hm]
      rw [hsame]
      exact hkeys
    · rw [rereadableMembers_iff]
      intro m hm
      rcases List.mem_map.mp hm with ⟨m', hm', rfl⟩
      by_cases hsame : m'.1 = k
      · rw [if_pos hsame]
        exact ⟨hk, hv⟩
      · rw [if_neg hsame]
        exact hmembers m' hm'
  · rw [if_neg hmem]
    -- The key is new, and goes behind the others.
    constructor
    · rw [List.map_append]
      refine List.nodup_append.mpr ⟨hkeys, List.pairwise_singleton _ _, fun a ha b hb hab => ?_⟩
      rw [List.map_singleton, List.mem_singleton] at hb
      rw [hab, hb] at ha
      exact hmem ha
    · rw [rereadableMembers_iff, List.forall_mem_append]
      exact ⟨hmembers, List.forall_mem_singleton.mpr ⟨hk, hv⟩⟩

/-- A value that is read in so many turns can be read again. -/
def ReadsValues (turns : Nat) : Prop :=
  ∀ levels text v rest, IsPlain text → scanValue levels turns text = .ok (v, rest) →
    Rereadable levels v ∧ rest <:+ text

/-- Items can, behind those that can. -/
def ReadsItems (turns : Nat) : Prop :=
  ∀ levels text done v rest, IsPlain text → RereadableItems levels done →
    scanItems levels turns text done = .ok (v, rest) →
    (∃ items, v = .array items ∧ RereadableItems levels items) ∧ rest <:+ text

/-- Members can, behind those that can. -/
def ReadsMembers (turns : Nat) : Prop :=
  ∀ levels text done v rest, IsPlain text → GoodMembers levels done →
    scanMembers levels turns text done = .ok (v, rest) →
    (∃ members, v = .object members ∧ GoodMembers levels members) ∧ rest <:+ text

omit [FloatRead] in
theorem skipBlanks_suffix (text : Str) : skipBlanks text <:+ text :=
  List.dropWhile_suffix _

theorem readsItems_succ (hvalue : ReadsValues turns) (hitems : ReadsItems turns) :
    ReadsItems (turns + 1) := by
  intro levels text done v rest hplain hdone h
  rw [scanItems] at h
  rcases scan_bind_eq_ok.mp h with ⟨⟨item, behind⟩, hitem, h⟩
  rcases hvalue levels text item behind hplain hitem with ⟨hrereadable, hbehind⟩
  -- The items read so far, with this one.
  have hnow : RereadableItems levels (done ++ [item]) := by
    rw [rereadableItems_iff] at hdone ⊢
    rw [List.forall_mem_append]
    exact ⟨hdone, List.forall_mem_singleton.mpr hrereadable⟩
  have hskip : skipBlanks behind <:+ text := (skipBlanks_suffix behind).trans hbehind
  dsimp only at h
  cases htext : skipBlanks behind with
  | nil =>
      rw [htext] at h
      cases h
  | cons c after =>
      rw [htext] at h hskip
      dsimp only at h
      have hafter : after <:+ text := (List.suffix_cons c after).trans hskip
      -- The list ends here, or a comma says that there is more.
      by_cases hclose : c = chr ']'
      · rw [if_pos hclose] at h
        rcases Prod.mk.inj (Except.ok.inj h) with ⟨rfl, rfl⟩
        exact ⟨⟨_, rfl, hnow⟩, hafter⟩
      rw [if_neg hclose] at h
      by_cases hcomma : c = chr ','
      · rw [if_pos hcomma] at h
        have hnext : skipBlanks after <:+ text := (skipBlanks_suffix after).trans hafter
        rcases hitems levels _ _ v rest (hplain.suffix hnext) hnow h with ⟨hread, hrest⟩
        exact ⟨hread, hrest.trans hnext⟩
      · rw [if_neg hcomma] at h
        cases h

theorem readsMembers_succ (hvalue : ReadsValues turns) (hmembers : ReadsMembers turns) :
    ReadsMembers (turns + 1) := by
  intro levels text done v rest hplain hdone h
  cases text with
  | nil =>
      rw [scanMembers] at h
      cases h
  | cons q text =>
      rw [scanMembers] at h
      by_cases hquote : q = chr '"'
      swap
      · rw [if_neg hquote] at h
        cases h
      rw [if_pos hquote] at h
      -- A key, a colon and a value, with blanks between.
      have htext : text <:+ q :: text := List.suffix_cons q text
      rcases scan_bind_eq_ok.mp h with ⟨⟨k, between⟩, hkey, h⟩
      rcases scanString_unpaired (hplain.suffix htext) hkey with ⟨hunpaired, hbetween, -⟩
      have hskip : skipBlanks between <:+ q :: text :=
        (skipBlanks_suffix between).trans (hbetween.trans htext)
      dsimp only at h
      cases hcolon : skipBlanks between with
      | nil =>
          rw [hcolon] at h
          cases h
      | cons c value =>
          rw [hcolon] at h hskip
          dsimp only at h
          by_cases hc : c = chr ':'
          swap
          · rw [if_neg hc] at h
            cases h
          rw [if_pos hc] at h
          have hstart : skipBlanks value <:+ q :: text :=
            (skipBlanks_suffix value).trans ((List.suffix_cons c value).trans hskip)
          rcases scan_bind_eq_ok.mp h with ⟨⟨w, behind⟩, hw, h⟩
          rcases hvalue levels _ w behind (hplain.suffix hstart) hw with ⟨hrereadable, hbehind⟩
          have hnow := goodMembers_set hdone hunpaired hrereadable
          have hskip : skipBlanks behind <:+ q :: text :=
            (skipBlanks_suffix behind).trans (hbehind.trans hstart)
          dsimp only at h
          cases hend : skipBlanks behind with
          | nil =>
              rw [hend] at h
              cases h
          | cons e after =>
              rw [hend] at h hskip
              dsimp only at h
              have hafter : after <:+ q :: text := (List.suffix_cons e after).trans hskip
              -- The object ends here, or a comma says that there is more.
              by_cases hclose : e = chr '\x7d'
              · rw [if_pos hclose] at h
                rcases Prod.mk.inj (Except.ok.inj h) with ⟨rfl, rfl⟩
                exact ⟨⟨_, rfl, hnow⟩, hafter⟩
              rw [if_neg hclose] at h
              by_cases hcomma : e = chr ','
              · rw [if_pos hcomma] at h
                have hnext : skipBlanks after <:+ q :: text :=
                  (skipBlanks_suffix after).trans hafter
                rcases hmembers levels _ _ v rest (hplain.suffix hnext) hnow h with
                  ⟨hread, hrest⟩
                exact ⟨hread, hrest.trans hnext⟩
              · rw [if_neg hcomma] at h
                cases h

theorem readsValues_succ (hitems : ReadsItems turns) (hmembers : ReadsMembers turns) :
    ReadsValues (turns + 1) := by
  intro levels text v rest hplain h
  cases text with
  | nil =>
      rw [scanValue] at h
      cases h
  | cons c text =>
      rw [scanValue] at h
      have htext : text <:+ c :: text := List.suffix_cons c text
      have hskip : skipBlanks text <:+ c :: text := (skipBlanks_suffix text).trans htext
      have htail : (skipBlanks text).tail <:+ c :: text := (List.tail_suffix _).trans hskip
      -- The first character says what kind of value it is.
      by_cases hquote : c = chr '"'
      · rw [if_pos hquote] at h
        rcases scan_bind_eq_ok.mp h with ⟨⟨s, after⟩, hstring, h⟩
        rcases Prod.mk.inj (Except.ok.inj h) with ⟨rfl, rfl⟩
        rcases scanString_unpaired (hplain.suffix htext) hstring with ⟨hunpaired, hafter, -⟩
        exact ⟨by rw [Rereadable]; exact hunpaired, hafter.trans htext⟩
      rw [if_neg hquote] at h
      by_cases hbracket : c = chr '['
      · rw [if_pos hbracket] at h
        by_cases hlevel : levels = 0
        · rw [if_pos hlevel] at h
          cases h
        rw [if_neg hlevel] at h
        -- One level deeper is allowed, so the value within is within the levels.
        have hpos : 0 < levels := Nat.pos_of_ne_zero hlevel
        by_cases hempty : (skipBlanks text).head? = some (chr ']')
        · rw [if_pos hempty] at h
          rcases Prod.mk.inj (Except.ok.inj h) with ⟨rfl, rfl⟩
          exact ⟨⟨hpos, trivial⟩, htail⟩
        · rw [if_neg hempty] at h
          rcases hitems _ _ _ v rest (hplain.suffix hskip) (by rw [RereadableItems]; trivial) h with
            ⟨⟨items, rfl, hread⟩, hrest⟩
          exact ⟨⟨hpos, hread⟩, hrest.trans hskip⟩
      rw [if_neg hbracket] at h
      by_cases hbrace : c = chr '\x7b'
      · rw [if_pos hbrace] at h
        by_cases hlevel : levels = 0
        · rw [if_pos hlevel] at h
          cases h
        rw [if_neg hlevel] at h
        have hpos : 0 < levels := Nat.pos_of_ne_zero hlevel
        by_cases hempty : (skipBlanks text).head? = some (chr '\x7d')
        · rw [if_pos hempty] at h
          rcases Prod.mk.inj (Except.ok.inj h) with ⟨rfl, rfl⟩
          exact ⟨⟨hpos, List.nodup_nil, trivial⟩, htail⟩
        · rw [if_neg hempty] at h
          rcases hmembers _ _ [] v rest (hplain.suffix hskip)
              ⟨List.nodup_nil, by rw [RereadableMembers]; trivial⟩ h with
            ⟨⟨members, rfl, hread⟩, hrest⟩
          exact ⟨⟨hpos, hread⟩, hrest.trans hskip⟩
      rw [if_neg hbrace] at h
      cases hword : scanWord (c :: text) with
      | some r =>
          rw [hword] at h
          obtain rfl := Except.ok.inj h
          exact scanWord_rereadable hword levels
      | none =>
          rw [hword] at h
          exact scanNumber_rereadable h levels

/-- Whatever is read can be read again. -/
theorem reads (turns : Nat) : ReadsValues turns ∧ ReadsItems turns ∧ ReadsMembers turns := by
  induction turns with
  | zero =>
      refine ⟨fun levels text v rest _ h => ?_, fun levels text done v rest _ _ h => ?_,
        fun levels text done v rest _ _ h => ?_⟩
      · rw [scanValue] at h
        cases h
      · rw [scanItems] at h
        cases h
      · rw [scanMembers] at h
        cases h
  | succ turns ih =>
      rcases ih with ⟨hvalue, hitems, hmembers⟩
      exact ⟨readsValues_succ hitems hmembers, readsItems_succ hvalue hitems,
        readsMembers_succ hvalue hmembers⟩

/-- A value that was read can be read again. -/
theorem jsonScan_rereadable {text : Str} {v : Json} (hplain : IsPlain text)
    (h : jsonScan levels text = .ok v) : Rereadable levels v := by
  unfold jsonScan at h
  split at h
  · cases h
  rcases scan_bind_eq_ok.mp h with ⟨⟨w, rest⟩, hread, h⟩
  rcases (reads _).1 levels _ w rest (hplain.suffix (skipBlanks_suffix text)) hread with
    ⟨hrereadable, -⟩
  dsimp only at h
  split at h
  · rw [← Except.ok.inj h]
    exact hrereadable
  · cases h

theorem pyLoads_eq_ok {text : Str} {v : Json} :
    pyLoads levels text = .ok v ↔ jsonScan levels text = .ok v := by
  unfold pyLoads
  cases jsonScan levels text with
  | ok w => exact ⟨fun h => congrArg _ (Except.ok.inj h), fun h => congrArg _ (Except.ok.inj h)⟩
  | error e =>
      cases e with
      | fault message rest => exact iff_of_false (fun h => by cases h) fun h => by cases h
      | other => exact iff_of_false (fun h => by cases h) fun h => by cases h

/-- What was read is read again, from what `json.dumps` writes and from any other text of
    it. -/
theorem reread {text : Str} {v : Json} (hplain : IsPlain text)
    (hread : pyLoads levels text = .ok v) :
    pyLoads levels (dumps v) = .ok v ∧
      ∀ again a b, Spells v again → Blank a → Blank b →
        pyLoads levels (a ++ (again ++ b)) = .ok v := by
  have hrereadable := jsonScan_rereadable hplain (pyLoads_eq_ok.mp hread)
  refine ⟨?_, fun again a b hspells ha hb => pyLoads_spelled hspells hrereadable ha hb⟩
  have h := pyLoads_spelled (a := []) (b := []) (spells_dumps v) hrereadable rfl rfl
  rw [List.append_nil, List.nil_append] at h
  exact h

end Values

section Spaced

attribute [local instance] FloatRead.none

/-- A list in an object, with blanks between the parts, is read from the text without them. -/
theorem reread_spaced :
    pyLoads 2 (str "\x7b \"a\": [\"b\" ]\x7d") =
        .ok (.object [(str "a", .array [.string (str "b")])]) ∧
      pyLoads 2 (dumps (.object [(str "a", .array [.string (str "b")])])) =
        .ok (.object [(str "a", .array [.string (str "b")])]) := by
  have hitem : SpellsItems [.string (str "b")] (str "\"b\" ]") :=
    .last (v := .string (str "b")) (str " ") (.atom rfl) rfl
  have hspells : Spells (.object [(str "a", .array [.string (str "b")])])
      (str "\x7b \"a\": [\"b\" ]\x7d") :=
    .object (str " ") rfl
      (.last (k := str "a") [] (str " ") [] rfl rfl (.array [] rfl hitem) rfl)
  have hunpaired : Unpaired (str "a") ∧ Unpaired (str "b") := by
    unfold Unpaired
    decide
  have hrereadable : Rereadable 2 (.object [(str "a", .array [.string (str "b")])]) :=
    ⟨by decide, List.pairwise_singleton _ _, hunpaired.1, ⟨by decide, hunpaired.2, trivial⟩,
      trivial⟩
  have hread := pyLoads_spelled (a := []) (b := []) hspells hrereadable rfl rfl
  rw [List.append_nil, List.nil_append] at hread
  exact ⟨hread, (reread (isPlain_str _) hread).1⟩

end Spaced

end Smbpal
