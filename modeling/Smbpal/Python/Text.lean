import Smbpal.Lib.PrefixCode
import Mathlib.Data.List.Basic
import Mathlib.Data.List.DropRight
import Mathlib.Data.List.Infix

/-!
# Python Strings

What the program takes from Python's `str`, on the sequences Python's strings
are: code points, the lone surrogates among them. A surrogate is not a Unicode
scalar value, so no text Lean knows holds one, but `json.loads` makes one out
of an escape and `str.encode` is where it stops.

`lower`, `casefold` and `repr` are tables of the Unicode version Python was
built with. They are a parameter here (`Unicode`), and every theorem that
mentions one holds whatever they are; `Unicode.ascii` is the part of them that
plain ASCII text needs, for evaluating examples.

## Main definitions

* `PyChar`, `Str`: A code point, and a string of them.
* `str`: A literal.
* `Unicode`: The case tables and `repr`.
* `encode`: `s.encode("utf-8")`, which a lone surrogate fails.
* `splitChar`, `strip`, `stripChar`, `replaceRuns`, `join`: The methods the program uses.
* `normpath`: `os.path.normpath`.
* `IsPlain`: A string that has a UTF-8.

## Theorems

* `splitChar_append`: Splitting at a separator.
* `utf8EncodeChar_prefixCode`: UTF-8 is a prefix code.
* `encode_injective`: A string can be read back from its UTF-8.
* `strLe_total`, `strLe_trans`, `strLe_antisymm`: The order is one.
-/

namespace Smbpal

/-- A code point of a Python string. -/
inductive PyChar where
  | scalar (c : Char)
  | surrogate (n : Fin 2048)
  deriving DecidableEq

/-- A Python string. -/
abbrev Str := List PyChar

instance : LawfulBEq (List PyChar) :=
  inferInstance

instance : LawfulBEq (Option (List PyChar)) :=
  inferInstance

/-- A string literal. -/
def str (s : String) : Str :=
  s.toList.map .scalar

/-- A character literal. -/
def chr (c : Char) : PyChar :=
  .scalar c

/-- `ord`. -/
def ord : PyChar → Nat
  | .scalar c => c.toNat
  | .surrogate n => 0xD800 + n.val

/-- What Python takes from its Unicode database. -/
class Unicode where
  lower : Str → Str
  casefold : Str → Str
  repr : Str → Str

export Unicode (lower casefold repr)

/-- Upper-case ASCII letters to lower case, everything else as it is. -/
def asciiLower : PyChar → PyChar
  | .scalar c => .scalar c.toLower
  | c => c

/-- The tables on plain ASCII text without quotes or backslashes. -/
@[reducible] def Unicode.ascii : Unicode where
  lower := fun s => s.map asciiLower
  casefold := fun s => s.map asciiLower
  repr := fun s => str "'" ++ s ++ str "'"

/-- `str(n)` for a number that is not negative. -/
def digits (n : Nat) : Str :=
  (Nat.toDigits 10 n).map .scalar

/-- Whether a character is one of a literal's. -/
def oneOf (s : String) (c : PyChar) : Bool :=
  decide (c ∈ str s)

/-- `[a-z]`. -/
def isLowerLetter : PyChar → Bool
  | .scalar c => decide (97 ≤ c.toNat) && decide (c.toNat ≤ 122)
  | .surrogate _ => false

/-- `[A-Z]`. -/
def isUpperLetter : PyChar → Bool
  | .scalar c => decide (65 ≤ c.toNat) && decide (c.toNat ≤ 90)
  | .surrogate _ => false

/-- `[0-9]`. -/
def isDigit : PyChar → Bool
  | .scalar c => decide (48 ≤ c.toNat) && decide (c.toNat ≤ 57)
  | .surrogate _ => false

/-- The value of a hexadecimal digit. -/
def hexValue (c : PyChar) : Option Nat :=
  let n := ord c
  if 48 ≤ n ∧ n ≤ 57 then some (n - 48)
  else if 65 ≤ n ∧ n ≤ 70 then some (n - 55)
  else if 97 ≤ n ∧ n ≤ 102 then some (n - 87)
  else none

/-- What `str.strip()` strips. -/
def isSpace (c : PyChar) : Bool :=
  let n := ord c
  decide (9 ≤ n ∧ n ≤ 13 ∨ 28 ≤ n ∧ n ≤ 32 ∨ n = 0x85 ∨ n = 0xA0 ∨ n = 0x1680 ∨
    0x2000 ≤ n ∧ n ≤ 0x200A ∨ n = 0x2028 ∨ n = 0x2029 ∨ n = 0x202F ∨ n = 0x205F ∨ n = 0x3000)

/-- Strip what satisfies `p` from both ends. -/
def stripWhile (p : PyChar → Bool) (s : Str) : Str :=
  (s.dropWhile p).rdropWhile p

/-- `s.strip()`. -/
def strip (s : Str) : Str :=
  stripWhile isSpace s

/-- `s.strip(c)` for one character. -/
def stripChar (c : Char) (s : Str) : Str :=
  stripWhile (fun d => decide (d = chr c)) s

/-- `s.split(c)` for one character. -/
def splitChar (c : Char) : Str → List Str
  | [] => [[]]
  | d :: s =>
      if d = chr c then
        [] :: splitChar c s
      else
        match splitChar c s with
        | [] => [[d]]
        | part :: parts => (d :: part) :: parts

/-- `re.sub` of a run of characters that satisfy `p` by one `c`; `inRun` says
    whether the run before this point is still going. -/
def replaceRuns (p : PyChar → Bool) (c : PyChar) : Bool → Str → Str
  | _, [] => []
  | inRun, d :: s =>
      if p d then
        if inRun then replaceRuns p c true s else c :: replaceRuns p c true s
      else
        d :: replaceRuns p c false s

/-- Whether `s` starts with the literal. -/
def startsWith (s : Str) (p : String) : Bool :=
  (str p).isPrefixOf s

/-- Put the separator between the parts. -/
def join (sep : Str) : List Str → Str
  | [] => []
  | [part] => part
  | part :: parts => part ++ sep ++ join sep parts

/-- Whether `s` ends with the literal. -/
def endsWith (s : Str) (p : String) : Bool :=
  (str p).isSuffixOf s

/-- `part in s`. -/
def contains (part s : Str) : Bool :=
  decide (part <:+: s)

/-- One component of the loop in `os.path.normpath`, on the components kept so
    far, last one first. -/
def normStep (absolute : Bool) (kept : List Str) (comp : Str) : List Str :=
  if comp = [] ∨ comp = str "." then kept
  else if comp = str ".." then
    match kept with
    | [] => if absolute then [] else [comp]
    | top :: rest => if top = str ".." then comp :: kept else rest
  else comp :: kept

/-- `os.path.normpath`. Two slashes in front are kept, three are not. -/
def normpath (path : Str) : Str :=
  let slashes :=
    if startsWith path "//" && !startsWith path "///" then str "//"
    else if startsWith path "/" then str "/"
    else []
  let comps := ((splitChar '/' path).foldl (normStep (decide (slashes ≠ []))) []).reverse
  let result := slashes ++ join (str "/") comps
  if result = [] then str "." else result

/-- The order of strings: by code points. -/
def strLe : Str → Str → Bool
  | [], _ => true
  | _ :: _, [] => false
  | a :: s, b :: t => decide (ord a < ord b) || decide (ord a = ord b) && strLe s t

/-- No two code points have a number. -/
theorem ord_injective {c d : PyChar} (h : ord c = ord d) : c = d := by
  cases c with
  | scalar a =>
      have hval : a.val.toNat = a.toNat := rfl
      cases d with
      | scalar b => exact congrArg PyChar.scalar (Char.toNat_inj.mp h)
      | surrogate n =>
          -- The surrogates are a range that no scalar is in.
          have hord : a.toNat = 0xD800 + n.val := h
          rcases a.valid with hlow | hhigh
          · omega
          · omega
  | surrogate m =>
      cases d with
      | scalar b =>
          have hval : b.val.toNat = b.toNat := rfl
          have hord : 0xD800 + m.val = b.toNat := h
          rcases b.valid with hlow | hhigh
          · omega
          · omega
      | surrogate n =>
          have hord : 0xD800 + m.val = 0xD800 + n.val := h
          exact congrArg PyChar.surrogate (Fin.ext (by omega))

theorem strLe_cons_iff {c d : PyChar} {s t : Str} : strLe (c :: s) (d :: t) = true ↔
    ord c < ord d ∨ ord c = ord d ∧ strLe s t = true := by
  rw [strLe, Bool.or_eq_true, Bool.and_eq_true, decide_eq_true_eq, decide_eq_true_eq]

theorem strLe_total (s t : Str) : strLe s t = true ∨ strLe t s = true := by
  induction s generalizing t with
  | nil => exact Or.inl rfl
  | cons c s ih =>
      cases t with
      | nil => exact Or.inr rfl
      | cons d t =>
          rw [strLe_cons_iff, strLe_cons_iff]
          rcases Nat.lt_trichotomy (ord c) (ord d) with hlt | heq | hgt
          · exact Or.inl (Or.inl hlt)
          · exact (ih t).imp (fun h => Or.inr ⟨heq, h⟩) fun h => Or.inr ⟨heq.symm, h⟩
          · exact Or.inr (Or.inl hgt)

theorem strLe_trans {s t u : Str} (hst : strLe s t = true) (htu : strLe t u = true) :
    strLe s u = true := by
  induction s generalizing t u with
  | nil => rfl
  | cons c s ih =>
      cases t with
      | nil => exact absurd hst Bool.false_ne_true
      | cons d t =>
          cases u with
          | nil => exact absurd htu Bool.false_ne_true
          | cons e u =>
              rw [strLe_cons_iff] at hst htu ⊢
              rcases hst with hlt | ⟨heq, hst⟩
              · omega
              · rcases htu with hlt | ⟨heq', htu⟩
                · omega
                · exact Or.inr ⟨heq.trans heq', ih hst htu⟩

theorem strLe_antisymm {s t : Str} (hst : strLe s t = true) (hts : strLe t s = true) : s = t := by
  induction s generalizing t with
  | nil =>
      cases t with
      | nil => rfl
      | cons d t => exact absurd hts Bool.false_ne_true
  | cons c s ih =>
      cases t with
      | nil => exact absurd hst Bool.false_ne_true
      | cons d t =>
          rw [strLe_cons_iff] at hst hts
          have heq : ord c = ord d := by omega
          rw [ord_injective heq, ih (hst.resolve_left (by omega)).2 (hts.resolve_left (by omega)).2]

theorem digits_ne_nil (n : Nat) : digits n ≠ [] := by
  intro h
  exact Nat.toDigits_ne_nil (List.map_eq_nil_iff.mp h)

theorem isDigit_of_mem_digits {n : Nat} {c : PyChar} (h : c ∈ digits n) : isDigit c = true := by
  rcases List.mem_map.mp h with ⟨d, hd, rfl⟩
  exact Nat.isDigit_of_mem_toDigits (by omega) (by omega) hd

theorem asciiLower_of_not_upper {c : PyChar} (h : ¬(65 ≤ ord c ∧ ord c ≤ 90)) :
    asciiLower c = c := by
  cases c with
  | surrogate n => rfl
  | scalar d => exact congrArg PyChar.scalar (dif_neg h)

theorem rdropWhile_parts (p : PyChar → Bool) (s : Str) :
    ∃ b, s = s.rdropWhile p ++ b ∧ ∀ c ∈ b, p c = true := by
  refine ⟨(s.reverse.takeWhile p).reverse, ?_, fun c hc => ?_⟩
  · rw [List.rdropWhile, ← List.reverse_append, List.takeWhile_append_dropWhile,
      List.reverse_reverse]
  · exact List.all_eq_true.mp List.all_takeWhile c (List.mem_reverse.mp hc)

/-- What was stripped stands on both sides of what is left. -/
theorem stripWhile_parts (p : PyChar → Bool) (s : Str) :
    ∃ a b, s = a ++ stripWhile p s ++ b ∧ (∀ c ∈ a, p c = true) ∧ (∀ c ∈ b, p c = true) := by
  rcases rdropWhile_parts p (s.dropWhile p) with ⟨b, hb, hall⟩
  refine ⟨s.takeWhile p, b, ?_, fun c hc => List.all_eq_true.mp List.all_takeWhile c hc, hall⟩
  rw [stripWhile, List.append_assoc, ← hb, List.takeWhile_append_dropWhile]

/-- What is left after stripping does not start with what was stripped. -/
theorem stripWhile_head {p : PyChar → Bool} {s t : Str} {c : PyChar}
    (h : stripWhile p s = c :: t) : p c = false := by
  rcases List.rdropWhile_prefix p (s.dropWhile p) with ⟨rest, hrest⟩
  unfold stripWhile at h
  rw [h, List.cons_append] at hrest
  have hhead := List.head?_dropWhile_not p s
  rw [← hrest, List.head?_cons] at hhead
  exact Bool.not_eq_true _ |>.mp (by simpa using hhead)

/-- What is not stripped stays. -/
theorem mem_stripWhile {p : PyChar → Bool} {s : Str} {c : PyChar} (hc : p c = false) :
    c ∈ stripWhile p s ↔ c ∈ s := by
  rcases stripWhile_parts p s with ⟨a, b, hs, ha, hb⟩
  have hnot : ∀ {t : Str}, (∀ d ∈ t, p d = true) → c ∉ t := fun ht hmem =>
    Bool.false_ne_true (hc.symm.trans (ht c hmem))
  conv_rhs => rw [hs]
  simp only [List.mem_append, hnot ha, hnot hb, false_or, or_false]

/-- Where nothing is stripped, everything stays. -/
theorem stripWhile_of_not {p : PyChar → Bool} {s : Str} (h : ∀ c ∈ s, p c = false) :
    stripWhile p s = s := by
  have hdrop : s.dropWhile p = s := by
    cases s with
    | nil => rfl
    | cons c s => exact List.dropWhile_cons_of_neg (by rw [h c List.mem_cons_self]; decide)
  unfold stripWhile
  rw [hdrop]
  refine List.rdropWhile_eq_self_iff.mpr fun hne hlast => ?_
  exact Bool.false_ne_true ((h _ (List.getLast_mem hne)).symm.trans hlast)

/-- Without blanks there is nothing to strip. -/
theorem strip_of_not_space {s : Str} (h : ∀ c ∈ s, isSpace c = false) : strip s = s :=
  stripWhile_of_not h

/-- What is not in a run stays. -/
theorem mem_replaceRuns {p : PyChar → Bool} {c d : PyChar} (hd : p d = false) (hne : d ≠ c)
    (inRun : Bool) (s : Str) : d ∈ replaceRuns p c inRun s ↔ d ∈ s := by
  induction s generalizing inRun with
  | nil => rfl
  | cons e s ih =>
      rw [replaceRuns]
      by_cases he : p e = true
      · have hde : d ≠ e := fun h => Bool.false_ne_true ((h ▸ hd).symm.trans he)
        rw [if_pos he]
        cases inRun with
        | true => simp [ih, hde]
        | false => simp [ih, hde, hne]
      · rw [if_neg he, List.mem_cons, List.mem_cons, ih]

theorem splitChar_ne_nil (c : Char) (s : Str) : splitChar c s ≠ [] := by
  cases s with
  | nil => exact List.cons_ne_nil _ _
  | cons d s =>
      unfold splitChar
      by_cases hd : d = chr c
      · rw [if_pos hd]
        exact List.cons_ne_nil _ _
      · rw [if_neg hd]
        cases splitChar c s with
        | nil => exact List.cons_ne_nil _ _
        | cons part parts => exact List.cons_ne_nil _ _

/-- Splitting at a separator splits both sides of it. -/
theorem splitChar_append (c : Char) (a b : Str) :
    splitChar c (a ++ chr c :: b) = splitChar c a ++ splitChar c b := by
  induction a with
  | nil =>
      change splitChar c (chr c :: b) = [] :: splitChar c b
      exact if_pos rfl
  | cons d a ih =>
      rw [List.cons_append, splitChar, splitChar]
      by_cases hd : d = chr c
      · rw [if_pos hd, if_pos hd, ih, List.cons_append]
      · rw [if_neg hd, if_neg hd, ih]
        cases hsplit : splitChar c a with
        | nil => exact absurd hsplit (splitChar_ne_nil c a)
        | cons part parts => rfl

/-- Without the separator there is nothing to split. -/
theorem splitChar_of_not_mem {c : Char} {s : Str} (h : chr c ∉ s) : splitChar c s = [s] := by
  induction s with
  | nil => rfl
  | cons d s ih =>
      have hd : d ≠ chr c := fun heq => h (heq ▸ List.mem_cons_self)
      rw [splitChar, if_neg hd, ih fun hmem => h (List.mem_cons_of_mem d hmem)]

/-- The scalar values of a string, when it has no lone surrogate. -/
def scalars : Str → Option (List Char)
  | [] => some []
  | .scalar c :: s => (scalars s).map (c :: ·)
  | .surrogate _ :: _ => none

/-- `s.encode("utf-8")`: a lone surrogate raises. -/
def encode (s : Str) : Option (List UInt8) :=
  (scalars s).map (·.flatMap String.utf8EncodeChar)

theorem scalars_eq_some {s : Str} {cs : List Char} (h : scalars s = some cs) :
    s = cs.map .scalar := by
  induction s generalizing cs with
  | nil =>
      simp only [scalars, Option.some.injEq] at h
      rw [← h, List.map_nil]
  | cons c s ih =>
      cases c with
      | surrogate n => exact absurd h (by simp only [scalars, reduceCtorEq, not_false_eq_true])
      | scalar c =>
          simp only [scalars, Option.map_eq_some_iff] at h
          rcases h with ⟨rest, hrest, rfl⟩
          rw [List.map_cons, ← ih hrest]

/-- UTF-8 is a prefix code. -/
theorem utf8EncodeChar_prefixCode : Lib.PrefixCode String.utf8EncodeChar where
  nonempty := by
    intro c hc
    have hlen := String.length_utf8EncodeChar c
    rw [hc, List.length_nil] at hlen
    exact absurd hlen.symm (Nat.ne_of_gt c.utf8Size_pos)
  unique := by
    intro a b r r' heq
    have ha := ByteArray.utf8DecodeChar?_utf8EncodeChar_append (b := r.toByteArray) (c := a)
    have hb := ByteArray.utf8DecodeChar?_utf8EncodeChar_append (b := r'.toByteArray) (c := b)
    rw [← List.toByteArray_append, heq, List.toByteArray_append, hb, Option.some.injEq] at ha
    exact ha.symm

/-- A string can be read back from its UTF-8. -/
theorem encode_injective {s t : Str} {bytes : List UInt8} (hs : encode s = some bytes)
    (ht : encode t = some bytes) : s = t := by
  simp only [encode, Option.map_eq_some_iff] at hs ht
  rcases hs with ⟨cs, hcs, rfl⟩
  rcases ht with ⟨ds, hds, heq⟩
  rw [scalars_eq_some hcs, scalars_eq_some hds,
    utf8EncodeChar_prefixCode.flatMap_injective heq]

/-- A string that has a UTF-8. -/
def IsPlain (s : Str) : Prop :=
  ∀ c ∈ s, ∃ d, c = .scalar d

theorem isPlain_of_scalars {s : Str} (h : (scalars s).isSome = true) : IsPlain s := by
  rcases Option.isSome_iff_exists.mp h with ⟨cs, hcs⟩
  rw [scalars_eq_some hcs]
  intro c hc
  rcases List.mem_map.mp hc with ⟨d, -, rfl⟩
  exact ⟨d, rfl⟩

theorem IsPlain.encodes {s : Str} (h : IsPlain s) : ∃ bytes, encode s = some bytes := by
  have hscalars : ∃ cs, scalars s = some cs := by
    induction s with
    | nil => exact ⟨[], rfl⟩
    | cons c s ih =>
        rcases h c List.mem_cons_self with ⟨d, rfl⟩
        rcases ih fun x hx => h x (List.mem_cons_of_mem _ hx) with ⟨cs, hcs⟩
        exact ⟨d :: cs, by rw [scalars, hcs, Option.map_some]⟩
  rcases hscalars with ⟨cs, hcs⟩
  exact ⟨_, by rw [encode, hcs, Option.map_some]⟩

theorem isPlain_str (s : String) : IsPlain (str s) := by
  intro c hc
  rcases List.mem_map.mp hc with ⟨d, -, rfl⟩
  exact ⟨d, rfl⟩

theorem isPlain_append {s t : Str} : IsPlain (s ++ t) ↔ IsPlain s ∧ IsPlain t :=
  List.forall_mem_append

theorem isPlain_of_encode {s : Str} {bytes : List UInt8} (h : encode s = some bytes) :
    IsPlain s := by
  simp only [encode, Option.map_eq_some_iff] at h
  rcases h with ⟨cs, hcs, -⟩
  exact isPlain_of_scalars (Option.isSome_of_eq_some hcs)

theorem encode_ne_none_iff {s : Str} : encode s ≠ none ↔ IsPlain s := by
  constructor
  · intro h
    rcases Option.ne_none_iff_exists'.mp h with ⟨bytes, hbytes⟩
    exact isPlain_of_encode hbytes
  · intro h
    rcases h.encodes with ⟨bytes, hbytes⟩
    rw [hbytes]
    exact Option.some_ne_none bytes

end Smbpal
