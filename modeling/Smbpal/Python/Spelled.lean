import Smbpal.Python.Loads

/-!
# Reading Back What Was Written

`json.loads` reads a value back from any text of it. How the text is laid out does not matter:
`Spells` lets any blanks stand between the parts, and both layouts the program writes, the one
line of `dumps` and the indented lines of the config file, are such texts.

What can be read back at all is `Rereadable`. It asks nothing of a value that itself was read
from a text with a UTF-8 (`Smbpal.Python.Reread`).

## Main definitions

* `Spells`: A text of a value.
* `Rereadable`: A value that can be read back.

## Theorems

* `scanValue_spelled`: A value is read back, whatever follows it.
* `jsonScan_spelled`: A text of a value is read as it.
* `spells_dumps`: What `dumps` writes spells the value.
-/

namespace Smbpal

/-- Nothing but blanks. -/
def Blank (b : Str) : Prop :=
  b.all isJsonBlank = true

/-- A value that has no parts. -/
def Json.isAtom : Json → Bool
  | .array _ => false
  | .object _ => false
  | _ => true

section Layout

variable [FloatText]

mutual

/-- A text of a value, with any blanks between its parts. -/
inductive Spells : Json → Str → Prop where
  | atom {v : Json} (hv : v.isAtom = true) : Spells v (dumps v)
  | emptyArray (b : Str) (hb : Blank b) : Spells (.array []) (chr '[' :: (b ++ [chr ']']))
  | array {l : List Json} {s : Str} (b : Str) (hb : Blank b) (hs : SpellsItems l s) :
      Spells (.array l) (chr '[' :: (b ++ s))
  | emptyObject (b : Str) (hb : Blank b) :
      Spells (.object []) (chr '\x7b' :: (b ++ [chr '\x7d']))
  | object {l : List (Str × Json)} {s : Str} (b : Str) (hb : Blank b) (hs : SpellsMembers l s) :
      Spells (.object l) (chr '\x7b' :: (b ++ s))

/-- The items of an array, with the bracket that ends it. -/
inductive SpellsItems : List Json → Str → Prop where
  | last {v : Json} {t : Str} (b : Str) (hv : Spells v t) (hb : Blank b) :
      SpellsItems [v] (t ++ (b ++ [chr ']']))
  | more {v : Json} {l : List Json} {t s : Str} (b c : Str) (hv : Spells v t) (hb : Blank b)
      (hc : Blank c) (hs : SpellsItems l s) :
      SpellsItems (v :: l) (t ++ (b ++ chr ',' :: (c ++ s)))

/-- The members of an object, with the brace that ends it. -/
inductive SpellsMembers : List (Str × Json) → Str → Prop where
  | last {k : Str} {v : Json} {t : Str} (b c d : Str) (hb : Blank b) (hc : Blank c)
      (hv : Spells v t) (hd : Blank d) :
      SpellsMembers [(k, v)]
        (dumpsString k ++ (b ++ chr ':' :: (c ++ (t ++ (d ++ [chr '\x7d'])))))
  | more {k : Str} {v : Json} {l : List (Str × Json)} {t s : Str} (b c d e : Str)
      (hb : Blank b) (hc : Blank c) (hv : Spells v t) (hd : Blank d) (he : Blank e)
      (hs : SpellsMembers l s) :
      SpellsMembers ((k, v) :: l)
        (dumpsString k ++ (b ++ chr ':' :: (c ++ (t ++ (d ++ chr ',' :: (e ++ s))))))

end

end Layout

section Written

variable [FloatRead]

mutual

/-- A value that can be read back, with so many levels left: no string holds the two halves of
    a character side by side, no key comes twice, and no number is too long. -/
def Rereadable : Nat → Json → Prop
  | _, .null => True
  | _, .bool _ => True
  | _, .int n => (digits n.natAbs).length ≤ maxStrDigits
  | _, .float x => ∀ q, x = .finite q → FloatBack floatOf q (floatRepr q)
  | _, .string s => Unpaired s
  | levels, .array items => 0 < levels ∧ RereadableItems (levels - 1) items
  | levels, .object members =>
      0 < levels ∧ (members.map Prod.fst).Nodup ∧ RereadableMembers (levels - 1) members

/-- The items of an array. -/
def RereadableItems : Nat → List Json → Prop
  | _, [] => True
  | levels, v :: vs => Rereadable levels v ∧ RereadableItems levels vs

/-- The members of an object. -/
def RereadableMembers : Nat → List (Str × Json) → Prop
  | _, [] => True
  | levels, (k, v) :: ms => Unpaired k ∧ Rereadable levels v ∧ RereadableMembers levels ms

end

end Written

section Blanks

theorem skipBlanks_append {b : Str} (h : Blank b) (t : Str) : skipBlanks (b ++ t) = skipBlanks t :=
  List.dropWhile_append_of_pos (List.all_eq_true.mp h)

theorem skipBlanks_cons {c : PyChar} (h : isJsonBlank c = false) (t : Str) :
    skipBlanks (c :: t) = c :: t :=
  List.dropWhile_cons_of_neg (ne_true_of_eq_false h)

theorem skipBlanks_blank {b : Str} (h : Blank b) : skipBlanks b = [] := by
  rw [← List.append_nil b, skipBlanks_append h]
  rfl

/-- Over blanks, to what ends or separates. -/
theorem skipBlanks_to {b : Str} (hb : Blank b) {c : PyChar} (hc : isJsonBlank c = false)
    (t : Str) : skipBlanks (b ++ c :: t) = c :: t := by
  rw [skipBlanks_append hb, skipBlanks_cons hc]

/-- A blank cannot belong to a number. -/
theorem endsNumber_blank {b : Str} (hb : Blank b) {t : Str} (ht : EndsNumber t) :
    EndsNumber (b ++ t) := by
  cases b with
  | nil => exact ht
  | cons c b =>
      intro d hd
      obtain rfl : c = d := Option.some.inj hd
      have hblank : isJsonBlank c = true := List.all_eq_true.mp hb c List.mem_cons_self
      have hall : ∀ c ∈ str " \t\n\r",
          isDigit c = false ∧ c ≠ chr '.' ∧ c ≠ chr 'e' ∧ c ≠ chr 'E' := by decide
      exact hall c (of_decide_eq_true hblank)

theorem endsNumber_cons {c : PyChar} (hdigit : isDigit c = false) (hpoint : c ≠ chr '.')
    (he : c ≠ chr 'e') (hE : c ≠ chr 'E') (t : Str) : EndsNumber (c :: t) := by
  intro d hd
  obtain rfl : c = d := Option.some.inj hd
  exact ⟨hdigit, hpoint, he, hE⟩

end Blanks

section Atoms

/-- What a value's text begins with. -/
def BeginsValue (c : PyChar) : Prop :=
  32 < ord c ∧ ord c ≤ 126 ∧ c ≠ chr ']'

theorem BeginsValue.notBlank {c : PyChar} (h : BeginsValue c) : isJsonBlank c = false := by
  refine eq_false_of_ne_true fun hblank => ?_
  have hall : ∀ c ∈ str " \t\n\r", ¬32 < ord c := by decide
  exact hall c (of_decide_eq_true hblank) h.1

theorem beginsValue_digit {c : PyChar} (h : isDigit c = true) : BeginsValue c := by
  cases c with
  | surrogate n => exact absurd h Bool.false_ne_true
  | scalar d =>
      rw [isDigit, Bool.and_eq_true, decide_eq_true_eq, decide_eq_true_eq] at h
      refine ⟨show 32 < d.toNat by omega, show d.toNat ≤ 126 by omega, ?_⟩
      rintro heq
      obtain rfl := PyChar.scalar.inj heq
      exact absurd h (by decide)

/-- A number's text: a sign, perhaps, and a digit. -/
def BeginsNumber (t : Str) : Prop :=
  ∃ sign d ds, (sign = [] ∨ sign = [chr '-']) ∧ isDigit d = true ∧ t = sign ++ d :: ds

theorem beginsNumber_int (n : Int) : BeginsNumber (dumpsInt n) := by
  rcases isWhole_digits n.natAbs with ⟨d, ds, htext, hdigits, -⟩
  rw [htext, List.all_cons, Bool.and_eq_true] at hdigits
  unfold dumpsInt
  by_cases hn : n < 0
  · rw [if_pos hn]
    exact ⟨[chr '-'], d, ds, Or.inr rfl, hdigits.1, by rw [htext]; rfl⟩
  · rw [if_neg hn]
    exact ⟨[], d, ds, Or.inl rfl, hdigits.1, htext⟩

variable [FloatRead]

theorem beginsNumber_float {q : Rat} (h : FloatBack floatOf q (floatRepr q)) :
    BeginsNumber (floatRepr q) := by
  rcases h with ⟨sign, whole, fraction, exponent, hshape, htext, -⟩
  rcases hshape.leads with ⟨d, ds, rfl, hdigits, -⟩
  rw [List.all_cons, Bool.and_eq_true] at hdigits
  exact ⟨sign, d, ds ++ (fraction ++ exponent), hshape.signed, hdigits.1, htext⟩

omit [FloatRead] in
/-- A text is told from a word by one character. -/
theorem isPrefixOf_cons_ne {c d : PyChar} (h : c ≠ d) (p s : Str) :
    (c :: p).isPrefixOf (d :: s) = false := by
  rw [List.isPrefixOf_cons_cons, beq_false_of_ne h, Bool.false_and]

omit [FloatRead] in
/-- A number is no word. -/
theorem scanWord_number {sign : Str} {d : PyChar} (hsign : sign = [] ∨ sign = [chr '-'])
    (hd : isDigit d = true) (ds : Str) : scanWord (sign ++ d :: ds) = none := by
  have hne : ∀ c, isDigit c = false → c ≠ d := fun c hc heq =>
    Bool.false_ne_true (hc.symm.trans (heq ▸ hd))
  have hno : ∀ s : Str, startsWith s "null" = false → startsWith s "true" = false →
      startsWith s "false" = false → startsWith s "NaN" = false →
      startsWith s "Infinity" = false → startsWith s "-Infinity" = false →
      scanWord s = none := by
    intro s h₁ h₂ h₃ h₄ h₅ h₆
    rw [scanWord, h₁, h₂, h₃, h₄, h₅, h₆]
    rfl
  -- A digit begins none of the words, and behind a minus only one word could stand.
  rcases hsign with rfl | rfl
  · exact hno _ (isPrefixOf_cons_ne (hne _ rfl) _ _) (isPrefixOf_cons_ne (hne _ rfl) _ _)
      (isPrefixOf_cons_ne (hne _ rfl) _ _) (isPrefixOf_cons_ne (hne _ rfl) _ _)
      (isPrefixOf_cons_ne (hne _ rfl) _ _) (isPrefixOf_cons_ne (hne _ rfl) _ _)
  · have hminus : startsWith (chr '-' :: d :: ds) "-Infinity" = false := by
      change (chr '-' :: str "Infinity").isPrefixOf (chr '-' :: d :: ds) = false
      rw [List.isPrefixOf_cons_cons]
      exact (Bool.and_eq_false_iff).mpr (Or.inr (isPrefixOf_cons_ne (hne _ rfl) _ _))
    exact hno _ (isPrefixOf_cons_ne (by decide) _ _) (isPrefixOf_cons_ne (by decide) _ _)
      (isPrefixOf_cons_ne (by decide) _ _) (isPrefixOf_cons_ne (by decide) _ _)
      (isPrefixOf_cons_ne (by decide) _ _) hminus

/-- Nor is it a string, an array or an object. -/
theorem scanValue_number {t : Str} (h : BeginsNumber t) (rest : Str) (levels turns : Nat) :
    scanValue levels (turns + 1) (t ++ rest) = scanNumber (t ++ rest) := by
  rcases h with ⟨sign, d, ds, hsign, hd, rfl⟩
  have hword := scanWord_number hsign hd (ds ++ rest)
  have hne : ∀ c, isDigit c = false → d ≠ c := fun c hc heq =>
    Bool.false_ne_true (hc.symm.trans (heq ▸ hd))
  rw [List.append_assoc, List.cons_append]
  rcases hsign with rfl | rfl
  · rw [List.nil_append] at hword ⊢
    rw [scanValue, if_neg (hne _ rfl), if_neg (hne _ rfl), if_neg (hne _ rfl), hword]
  · rw [List.cons_append, List.nil_append] at hword ⊢
    rw [scanValue, if_neg (by decide), if_neg (by decide), if_neg (by decide), hword]

omit [FloatRead] in
/-- A string's text is not shorter than the string. -/
theorem length_le_escaped (s : Str) : s.length ≤ (s.flatMap escapeChar).length := by
  induction s with
  | nil => exact Nat.le_refl 0
  | cons c s ih =>
      have hpos := List.length_pos_of_ne_nil (escaped_escapeChar c).ne_nil
      rw [List.flatMap_cons, List.length_append, List.length_cons]
      omega

omit [FloatRead] in
/-- A string is read back from behind its quote. -/
theorem scanString_dumps {s : Str} (h : Unpaired s) (rest : Str) :
    ∃ body, dumpsString s ++ rest = chr '"' :: body ∧
      scanString (chr '"' :: body) (body.length + 1) body = .ok (s, rest) := by
  refine ⟨s.flatMap escapeChar ++ chr '"' :: rest, ?_, scanString_written h _ rest ?_⟩
  · rw [dumpsString, List.cons_append, List.cons_append, List.append_assoc, List.cons_append,
      List.nil_append]
  · have hlength := length_le_escaped s
    rw [List.length_append]
    omega

/-- A value without parts is read back. -/
theorem scanValue_atom {v : Json} (hv : v.isAtom = true) {levels : Nat}
    (hrereadable : Rereadable levels v) (turns : Nat) {rest : Str} (hrest : EndsNumber rest) :
    scanValue levels (turns + 1) (dumps v ++ rest) = .ok (v, rest) := by
  -- An atom is read by its first character.
  cases v with
  | null => rfl
  | bool b => cases b <;> rfl
  | int n =>
      rw [dumps, scanValue_number (beginsNumber_int n), scanNumber_int hrereadable hrest]
  | float x =>
      cases x with
      | finite q =>
          rw [dumps, dumpsFloat, scanValue_number (beginsNumber_float (hrereadable q rfl)),
            scanNumber_float (hrereadable q rfl) hrest]
      | infinity => rfl
      | minusInfinity => rfl
      | nan => rfl
  | string s =>
      rcases scanString_dumps hrereadable rest with ⟨body, htext, hread⟩
      rw [dumps, htext, scanValue, if_pos rfl, hread]
      rfl
  | array items => exact absurd hv Bool.false_ne_true
  | object members => exact absurd hv Bool.false_ne_true

/-- What a value's text begins with: nothing that would end an array, and no blank. -/
theorem Spells.begins {v : Json} {t : Str} (h : Spells v t) {levels : Nat}
    (hrereadable : Rereadable levels v) : ∃ c s, t = c :: s ∧ BeginsValue c := by
  -- A number begins with a digit, or with a sign and a digit.
  have hnumber : ∀ t, BeginsNumber t → ∃ c s, t = c :: s ∧ BeginsValue c := by
    rintro t ⟨sign, d, ds, rfl | rfl, hd, rfl⟩
    · exact ⟨d, ds, rfl, beginsValue_digit hd⟩
    · exact ⟨chr '-', d :: ds, rfl, by decide, by decide, by decide⟩
  cases h with
  | atom hv =>
      cases v with
      | null => exact ⟨chr 'n', _, rfl, by decide, by decide, by decide⟩
      | bool b => cases b <;> exact ⟨_, _, rfl, by decide, by decide, by decide⟩
      | int n =>
          rw [dumps]
          exact hnumber _ (beginsNumber_int n)
      | float x =>
          cases x with
          | finite q =>
              rw [dumps]
              exact hnumber _ (beginsNumber_float (hrereadable q rfl))
          | infinity => exact ⟨chr 'I', _, rfl, by decide, by decide, by decide⟩
          | minusInfinity => exact ⟨chr '-', _, rfl, by decide, by decide, by decide⟩
          | nan => exact ⟨chr 'N', _, rfl, by decide, by decide, by decide⟩
      | string s => exact ⟨chr '"', _, by rw [dumps]; rfl, by decide, by decide, by decide⟩
      | array items => exact absurd hv Bool.false_ne_true
      | object members => exact absurd hv Bool.false_ne_true
  | emptyArray b hb => exact ⟨chr '[', _, rfl, by decide, by decide, by decide⟩
  | array b hb hs => exact ⟨chr '[', _, rfl, by decide, by decide, by decide⟩
  | emptyObject b hb => exact ⟨chr '\x7b', _, rfl, by decide, by decide, by decide⟩
  | object b hb hs => exact ⟨chr '\x7b', _, rfl, by decide, by decide, by decide⟩

end Atoms

section Parts

variable [FloatRead]

/-- The items of an array begin as a value does. -/
theorem SpellsItems.begins {items : List Json} {body : Str} (h : SpellsItems items body)
    {levels : Nat} (hrereadable : RereadableItems levels items) :
    ∃ c s, body = c :: s ∧ BeginsValue c := by
  cases h with
  | last b hv hb =>
      rcases hv.begins hrereadable.1 with ⟨d, u, rfl, hd⟩
      exact ⟨d, _, rfl, hd⟩
  | more b c hv hb hc hs =>
      rcases hv.begins hrereadable.1 with ⟨d, u, rfl, hd⟩
      exact ⟨d, _, rfl, hd⟩

/-- The members of an object begin with a quote. -/
theorem SpellsMembers.begins {members : List (Str × Json)} {body : Str}
    (h : SpellsMembers members body) : ∃ s, body = chr '"' :: s := by
  cases h with
  | last b c d hb hc hv hd => exact ⟨_, rfl⟩
  | more b c d e hb hc hv hd he hs => exact ⟨_, rfl⟩

omit [FloatRead] in
/-- A new key's member comes last. -/
theorem setMember_new {done : List (Str × Json)} {k : Str} (h : k ∉ done.map Prod.fst)
    (v : Json) : setMember done k v = done ++ [(k, v)] :=
  if_neg h

omit [FloatRead] in
theorem key_new {done ms : List (Str × Json)} {k : Str} {v : Json}
    (h : ((done ++ (k, v) :: ms).map Prod.fst).Nodup) : k ∉ done.map Prod.fst := by
  rw [List.map_append, List.nodup_append] at h
  exact fun hk => h.2.2 k hk k List.mem_cons_self rfl

omit [FloatRead] in
/-- What ends or separates cannot belong to a number, nor can the blanks in front of it. -/
theorem endsNumber_to {b : Str} (hb : Blank b) {c : PyChar} (h : c ∈ str ",]\x7d") (t : Str) :
    EndsNumber (b ++ c :: t) := by
  have hall : ∀ c ∈ str ",]\x7d", isDigit c = false ∧ c ≠ chr '.' ∧ c ≠ chr 'e' ∧ c ≠ chr 'E' := by
    decide
  rcases hall c h with ⟨hdigit, hpoint, he, hE⟩
  exact endsNumber_blank hb (endsNumber_cons hdigit hpoint he hE t)

variable {levels turns : Nat}

/-- The last item. -/
theorem scanItems_last {text rest after : Str} {v : Json}
    (hread : scanValue levels turns text = .ok (v, rest))
    (hskip : skipBlanks rest = chr ']' :: after) (done : List Json) :
    scanItems levels (turns + 1) text done = .ok (.array (done ++ [v]), after) := by
  rw [scanItems, hread]
  dsimp only [bind, Except.bind]
  rw [hskip]
  exact if_pos rfl

/-- An item with another behind it. -/
theorem scanItems_more {text rest after : Str} {v : Json}
    (hread : scanValue levels turns text = .ok (v, rest))
    (hskip : skipBlanks rest = chr ',' :: after) (done : List Json) :
    scanItems levels (turns + 1) text done =
      scanItems levels turns (skipBlanks after) (done ++ [v]) := by
  rw [scanItems, hread]
  dsimp only [bind, Except.bind]
  rw [hskip]
  exact (if_neg (by decide)).trans (if_pos rfl)

/-- The last member. -/
theorem scanMembers_last {k body between value rest after : Str} {v : Json}
    (hkey : scanString (chr '"' :: body) (body.length + 1) body = .ok (k, between))
    (hcolon : skipBlanks between = chr ':' :: value)
    (hread : scanValue levels turns (skipBlanks value) = .ok (v, rest))
    (hskip : skipBlanks rest = chr '\x7d' :: after) (done : List (Str × Json)) :
    scanMembers levels (turns + 1) (chr '"' :: body) done =
      .ok (.object (setMember done k v), after) := by
  rw [scanMembers, if_pos rfl, hkey]
  dsimp only [bind, Except.bind]
  rw [hcolon]
  dsimp only
  rw [if_pos rfl, hread]
  dsimp only
  rw [hskip]
  exact if_pos rfl

/-- A member with another behind it. -/
theorem scanMembers_more {k body between value rest after : Str} {v : Json}
    (hkey : scanString (chr '"' :: body) (body.length + 1) body = .ok (k, between))
    (hcolon : skipBlanks between = chr ':' :: value)
    (hread : scanValue levels turns (skipBlanks value) = .ok (v, rest))
    (hskip : skipBlanks rest = chr ',' :: after) (done : List (Str × Json)) :
    scanMembers levels (turns + 1) (chr '"' :: body) done =
      scanMembers levels turns (skipBlanks after) (setMember done k v) := by
  rw [scanMembers, if_pos rfl, hkey]
  dsimp only [bind, Except.bind]
  rw [hcolon]
  dsimp only
  rw [if_pos rfl, hread]
  dsimp only
  rw [hskip]
  exact (if_neg (by decide)).trans (if_pos rfl)

mutual

/-- A value is read back, whatever follows it. -/
theorem scanValue_spelled : {v : Json} → {t : Str} → Spells v t → {levels turns : Nat} →
    {rest : Str} → Rereadable levels v → t.length ≤ turns → EndsNumber rest →
    scanValue levels turns (t ++ rest) = .ok (v, rest)
  | _, _, .atom hv, levels, turns, rest, hrereadable, hturns, hrest => by
      rcases (Spells.atom hv).begins hrereadable with ⟨c, s, htext, -⟩
      cases turns with
      | zero =>
          rw [htext, List.length_cons] at hturns
          omega
      | succ turns => exact scanValue_atom hv hrereadable turns hrest
  | _, _, .emptyArray b hb, levels, turns, rest, hrereadable, hturns, hrest => by
      cases turns with
      | zero => exact absurd hturns (Nat.not_succ_le_zero _)
      | succ turns =>
          have hskip : skipBlanks (b ++ [chr ']'] ++ rest) = chr ']' :: rest := by
            rw [List.append_assoc]
            exact skipBlanks_to hb rfl rest
          rw [List.cons_append, scanValue, if_neg (by decide), if_pos rfl,
            if_neg (Nat.ne_of_gt hrereadable.1), hskip, List.head?_cons, if_pos rfl,
            List.tail_cons]
  | _, _, .array (s := s) b hb hs, levels, turns, rest, hrereadable, hturns, hrest => by
      cases turns with
      | zero => exact absurd hturns (Nat.not_succ_le_zero _)
      | succ turns =>
          -- The items begin with no blank and no bracket, so blanks are gone over once.
          rcases hs.begins hrereadable.2 with ⟨c, u, htext, hc⟩
          have hskip : skipBlanks (b ++ s ++ rest) = s ++ rest := by
            rw [List.append_assoc, htext, List.cons_append]
            exact skipBlanks_to hb hc.notBlank _
          have hhead : (s ++ rest).head? ≠ some (chr ']') := by
            rw [htext]
            exact fun h => hc.2.2 (Option.some.inj h)
          have hlength : s.length ≤ turns := by
            rw [List.length_cons, List.length_append] at hturns
            omega
          rw [List.cons_append, scanValue, if_neg (by decide), if_pos rfl,
            if_neg (Nat.ne_of_gt hrereadable.1), hskip, if_neg hhead]
          exact scanItems_spelled hs hrereadable.2 hlength []
  | _, _, .emptyObject b hb, levels, turns, rest, hrereadable, hturns, hrest => by
      cases turns with
      | zero => exact absurd hturns (Nat.not_succ_le_zero _)
      | succ turns =>
          have hskip : skipBlanks (b ++ [chr '\x7d'] ++ rest) = chr '\x7d' :: rest := by
            rw [List.append_assoc]
            exact skipBlanks_to hb rfl rest
          rw [List.cons_append, scanValue, if_neg (by decide), if_neg (by decide), if_pos rfl,
            if_neg (Nat.ne_of_gt hrereadable.1), hskip, List.head?_cons, if_pos rfl,
            List.tail_cons]
  | _, _, .object (s := s) b hb hs, levels, turns, rest, hrereadable, hturns, hrest => by
      cases turns with
      | zero => exact absurd hturns (Nat.not_succ_le_zero _)
      | succ turns =>
          rcases hs.begins with ⟨u, htext⟩
          have hskip : skipBlanks (b ++ s ++ rest) = s ++ rest := by
            rw [List.append_assoc, htext, List.cons_append]
            exact skipBlanks_to hb rfl _
          have hhead : (s ++ rest).head? ≠ some (chr '\x7d') := by
            rw [htext]
            exact fun h => absurd (Option.some.inj h) (by decide)
          have hlength : s.length ≤ turns := by
            rw [List.length_cons, List.length_append] at hturns
            omega
          rw [List.cons_append, scanValue, if_neg (by decide), if_neg (by decide), if_pos rfl,
            if_neg (Nat.ne_of_gt hrereadable.1), hskip, if_neg hhead]
          exact scanMembers_spelled hs hrereadable.2.2 hlength [] hrereadable.2.1

/-- The items of an array are, behind those already read. -/
theorem scanItems_spelled : {items : List Json} → {body : Str} → SpellsItems items body →
    {levels turns : Nat} → {rest : Str} → RereadableItems levels items →
    body.length ≤ turns → (done : List Json) →
    scanItems levels turns (body ++ rest) done = .ok (.array (done ++ items), rest)
  | _, _, .last (v := v) (t := t) b hv hb, levels, turns, rest, hrereadable, hturns, done => by
      rw [List.length_append, List.length_append, List.length_singleton] at hturns
      cases turns with
      | zero => omega
      | succ turns =>
          -- The last item: the bracket ends it.
          have hread : scanValue levels turns (t ++ (b ++ chr ']' :: rest)) =
              .ok (v, b ++ chr ']' :: rest) :=
            scanValue_spelled hv hrereadable.1 (by omega) (endsNumber_to hb (by decide) rest)
          rw [List.append_assoc, List.append_assoc]
          exact scanItems_last hread (skipBlanks_to hb rfl rest) done
  | _, _, .more (v := v) (t := t) (s := s) b c hv hb hc hs, levels, turns, rest, hrereadable,
      hturns, done => by
      simp only [List.length_append, List.length_cons] at hturns
      cases turns with
      | zero => omega
      | succ turns =>
          have hread : scanValue levels turns (t ++ (b ++ chr ',' :: (c ++ s ++ rest))) =
              .ok (v, b ++ chr ',' :: (c ++ s ++ rest)) :=
            scanValue_spelled hv hrereadable.1 (by omega) (endsNumber_to hb (by decide) _)
          -- The next item begins where the blanks behind the comma end.
          have hnext : skipBlanks (c ++ s ++ rest) = s ++ rest := by
            rcases hs.begins hrereadable.2 with ⟨d, u, htext, hd⟩
            rw [List.append_assoc, htext, List.cons_append]
            exact skipBlanks_to hc hd.notBlank _
          rw [List.append_assoc, List.append_assoc, List.cons_append,
            scanItems_more hread (skipBlanks_to hb rfl _) done, hnext,
            scanItems_spelled hs hrereadable.2 (by omega), List.append_assoc]
          rfl

/-- The members of an object are, behind those already read. -/
theorem scanMembers_spelled : {members : List (Str × Json)} → {body : Str} →
    SpellsMembers members body → {levels turns : Nat} → {rest : Str} →
    RereadableMembers levels members → body.length ≤ turns → (done : List (Str × Json)) →
    ((done ++ members).map Prod.fst).Nodup →
    scanMembers levels turns (body ++ rest) done = .ok (.object (done ++ members), rest)
  | _, _, .last (v := v) (t := t) b c d hb hc hv hd, levels, turns, rest, hrereadable, hturns,
      done, hkeys => by
      simp only [List.length_append, List.length_cons] at hturns
      cases turns with
      | zero => omega
      | succ turns =>
          have hread : scanValue levels turns (t ++ (d ++ chr '\x7d' :: rest)) =
              .ok (v, d ++ chr '\x7d' :: rest) :=
            scanValue_spelled hv hrereadable.2.1 (by omega) (endsNumber_to hd (by decide) rest)
          -- The key is read first, and then the value behind the colon.
          rcases scanString_dumps hrereadable.1
            (b ++ chr ':' :: (c ++ (t ++ (d ++ chr '\x7d' :: rest)))) with ⟨u, htext, hkey⟩
          have hvalue : skipBlanks (c ++ (t ++ (d ++ chr '\x7d' :: rest))) =
              t ++ (d ++ chr '\x7d' :: rest) := by
            rcases hv.begins hrereadable.2.1 with ⟨e, u, htext, he⟩
            rw [htext, List.cons_append]
            exact skipBlanks_to hc he.notBlank _
          simp only [List.append_assoc, List.cons_append, List.nil_append]
          rw [htext, scanMembers_last hkey (skipBlanks_to hb rfl _) (hvalue.symm ▸ hread)
            (skipBlanks_to hd rfl rest) done, setMember_new (key_new hkeys)]
  | _, _, .more (k := k) (v := v) (l := l) (t := t) (s := s) b c d e hb hc hv hd he hs, levels,
      turns, rest, hrereadable, hturns, done, hkeys => by
      simp only [List.length_append, List.length_cons] at hturns
      cases turns with
      | zero => omega
      | succ turns =>
          have hread : scanValue levels turns (t ++ (d ++ chr ',' :: (e ++ (s ++ rest)))) =
              .ok (v, d ++ chr ',' :: (e ++ (s ++ rest))) :=
            scanValue_spelled hv hrereadable.2.1 (by omega) (endsNumber_to hd (by decide) _)
          rcases scanString_dumps hrereadable.1
            (b ++ chr ':' :: (c ++ (t ++ (d ++ chr ',' :: (e ++ (s ++ rest)))))) with
            ⟨u, htext, hkey⟩
          have hvalue : skipBlanks (c ++ (t ++ (d ++ chr ',' :: (e ++ (s ++ rest))))) =
              t ++ (d ++ chr ',' :: (e ++ (s ++ rest))) := by
            rcases hv.begins hrereadable.2.1 with ⟨f, u, htext, hf⟩
            rw [htext, List.cons_append]
            exact skipBlanks_to hc hf.notBlank _
          -- The next key begins where the blanks behind the comma end.
          have hnext : skipBlanks (e ++ (s ++ rest)) = s ++ rest := by
            rcases hs.begins with ⟨u, htext⟩
            rw [htext, List.cons_append]
            exact skipBlanks_to he rfl _
          -- No key comes twice, so none replaces another.
          have hrest : ((done ++ [(k, v)] ++ l).map Prod.fst).Nodup := by
            rw [List.append_assoc]
            exact hkeys
          simp only [List.append_assoc, List.cons_append]
          rw [htext, scanMembers_more hkey (skipBlanks_to hb rfl _) (hvalue.symm ▸ hread)
            (skipBlanks_to hd rfl _) done, setMember_new (key_new hkeys), hnext,
            scanMembers_spelled hs hrereadable.2.2 (by omega) _ hrest, List.append_assoc]
          rfl

end

end Parts

section Whole

variable [FloatRead]

/-- A text of a value is read as it, with any blanks around it. -/
theorem jsonScan_spelled {v : Json} {t a b : Str} (h : Spells v t) {levels : Nat}
    (hrereadable : Rereadable levels v) (ha : Blank a) (hb : Blank b) :
    jsonScan levels (a ++ (t ++ b)) = .ok v := by
  rcases h.begins hrereadable with ⟨c, s, htext, hc⟩
  -- The text does not begin with a mark of its encoding.
  have hmark : (a ++ (t ++ b)).head? ≠ some (.scalar '\ufeff') := by
    intro hhead
    cases a with
    | nil =>
        rw [htext] at hhead
        rw [Option.some.inj hhead] at hc
        exact absurd hc.2.1 (by decide)
    | cons d a =>
        have hblank : isJsonBlank d = true := List.all_eq_true.mp ha d List.mem_cons_self
        rw [Option.some.inj hhead] at hblank
        exact absurd hblank (by decide)
  have hskip : skipBlanks (a ++ (t ++ b)) = t ++ b := by
    rw [htext, List.cons_append]
    exact skipBlanks_to ha hc.notBlank _
  -- Blanks end a number, and so does the end of the text.
  have hends : EndsNumber b := by
    have h := endsNumber_blank hb (t := []) fun c hc => absurd hc (by simp)
    rw [List.append_nil] at h
    exact h
  have hturns : t.length ≤ (a ++ (t ++ b)).length + 1 := by
    rw [List.length_append, List.length_append]
    omega
  rw [jsonScan, if_neg hmark, hskip, scanValue_spelled h hrereadable hturns hends]
  exact if_pos (skipBlanks_blank hb)

/-- `json.loads` is. -/
theorem pyLoads_spelled {v : Json} {t a b : Str} (h : Spells v t) {levels : Nat}
    (hrereadable : Rereadable levels v) (ha : Blank a) (hb : Blank b) :
    pyLoads levels (a ++ (t ++ b)) = .ok v := by
  rw [pyLoads, jsonScan_spelled h hrereadable ha hb]

end Whole

section Dumped

theorem blank_nil : Blank [] :=
  rfl

variable [FloatText]

mutual

/-- What `dumps` writes spells the value. -/
theorem spells_dumps : (v : Json) → Spells v (dumps v)
  | .null => .atom rfl
  | .bool _ => .atom rfl
  | .int _ => .atom rfl
  | .float _ => .atom rfl
  | .string _ => .atom rfl
  | .array [] => by
      rw [dumps, dumpsItems]
      exact .emptyArray [] blank_nil
  | .array (v :: vs) => by
      rw [dumps, List.cons_append]
      exact .array [] blank_nil (spellsItems_dumps (v :: vs) (List.cons_ne_nil v vs))
  | .object [] => by
      rw [dumps, dumpsMembers]
      exact .emptyObject [] blank_nil
  | .object (m :: ms) => by
      rw [dumps, List.cons_append]
      exact .object [] blank_nil (spellsMembers_dumps (m :: ms) (List.cons_ne_nil m ms))

theorem spellsItems_dumps : (items : List Json) → items ≠ [] →
    SpellsItems items (dumpsItems items ++ [chr ']'])
  | [], h => absurd rfl h
  | [v], _ => by
      rw [dumpsItems]
      exact .last [] (spells_dumps v) blank_nil
  | v :: w :: vs, _ => by
      rw [dumpsItems, List.append_assoc]
      exact .more [] [] (spells_dumps v) blank_nil blank_nil
        (spellsItems_dumps (w :: vs) (List.cons_ne_nil w vs))

theorem spellsMembers_dumps : (members : List (Str × Json)) → members ≠ [] →
    SpellsMembers members (dumpsMembers members ++ [chr '\x7d'])
  | [], h => absurd rfl h
  | [(k, v)], _ => by
      rw [dumpsMembers, List.append_assoc]
      exact .last [] [] [] blank_nil blank_nil (spells_dumps v) blank_nil
  | (k, v) :: m :: ms, _ => by
      rw [dumpsMembers, List.append_assoc, List.append_assoc]
      exact .more [] [] [] [] blank_nil blank_nil
        (spells_dumps v) blank_nil blank_nil
        (spellsMembers_dumps (m :: ms) (List.cons_ne_nil m ms))

end

end Dumped

end Smbpal
