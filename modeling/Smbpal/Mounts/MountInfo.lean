import Smbpal.Python.Dumps
import Smbpal.Python.Files
import Smbpal.Python.Numbers
import Smbpal.Python.Paths
import Smbpal.State.Monitor

/-!
# The Mount Table

`mount_entries` in `mounts/probe.py` on the table as the kernel writes it: a line a mount,
a space between the fields, and in a field a space, a tab, a line feed, a backslash and a
`#` as octal escapes. Everything else the kernel writes as it is, bytes that are no UTF-8
among it.

The file is read as UTF-8 with all of Python's line ends, and cut with all of Python's
blanks. In a table of names that are not empty, have a UTF-8 and no blank but the three that
the kernel escapes, every line is read back.

## Main definitions

* `splitSpace`: `line.split()`.
* `unescape`: `_unescape`.
* `mountEntries`: `mount_entries`.
* `KernelMount`, `mountTable`: The mounts, and the kernel's table of them.
* `TableReadBack`: That the table is read back.

## Theorems

* `splitSpace_join`: Words with blanks between them are found again.
* `unescape_mangle`, `encode_mangle`: An escaped name, read and as bytes.
* `readBack_of_readable`: A table of readable names is read back.
-/

namespace Smbpal

section Reading

/-- `s.split()`, behind the characters of a word that has begun, last one first. -/
def splitSpaceFrom (word : Str) : Str → List Str
  | [] => if word = [] then [] else [word.reverse]
  | c :: s =>
      if isSpace c then
        if word = [] then splitSpaceFrom [] s else word.reverse :: splitSpaceFrom [] s
      else splitSpaceFrom (c :: word) s

/-- `s.split()`. -/
def splitSpace (s : Str) : List Str :=
  splitSpaceFrom [] s

variable [Decimals]

/-- Whether `_OCTAL` matches at a character and what follows it, and the character it stands
    for; `int(…, 8)` raises on an eight and a nine. -/
def octalAt (c : PyChar) (s : Str) : Option (Option PyChar) :=
  if c = chr '\\' then
    match s with
    | x :: y :: z :: _ =>
        match digitValue x, digitValue y, digitValue z with
        | some a, some b, some d =>
            some <| if a < 8 ∧ b < 8 ∧ d < 8 then some (chr (Char.ofNat (64 * a + 8 * b + d)))
              else none
        | _, _, _ => none
    | _ => none
  else none

/-- `_unescape`, so many characters on. -/
def unescapeFrom : Nat → Str → Option Str
  | _, [] => some []
  | skip + 1, _ :: s => unescapeFrom skip s
  | 0, c :: s =>
      match octalAt c s with
      | some none => none
      | some (some d) => (unescapeFrom 3 s).map (d :: ·)
      | none => (unescapeFrom 0 s).map (c :: ·)

/-- `_unescape`; `none` is a `ValueError`. -/
def unescape (value : Str) : Option Str :=
  unescapeFrom 0 value

/-- The row of a line's fields, if they are enough and have a separator. -/
def mountRowOf (fields : List Str) : Except Exc (Option MountRow) :=
  if fields.length < 8 then .ok none
  else
    match (fields.drop 6).findIdx? (fun field => decide (field = str "-")) with
    | none => .ok none
    | some index =>
        let separator := 6 + index
        if fields.length < separator + 3 then .ok none
        else
          match unescape (fields.getD 4 []), unescape (fields.getD (separator + 2) []) with
          | some mountpoint, some source =>
              .ok <| some
                { mountpoint := mountpoint
                  fstype := fields.getD (separator + 1) []
                  source := source
                  options := fields.getD 5 [] }
          | _, _ => .error .exception

/-- The rows of some lines. -/
def mountRows : List Str → Except Exc (List MountRow)
  | [] => .ok []
  | line :: lines => do
      let row ← mountRowOf (splitSpace line)
      let rows ← mountRows lines
      pure (row.toList ++ rows)

/-- `mount_entries`, of a file that is there or cannot be read. -/
def mountEntries (file : Option (List UInt8)) : Except Exc MountTable :=
  match file with
  | none => .ok none
  | some bytes =>
      match readText bytes with
      | none => .error .exception
      | some text => do
          let rows ← mountRows ((splitlines text).map lineText)
          pure (some rows)

end Reading

section Kernel

/-- A byte the kernel escapes in a field: a space, a tab, a line feed, a backslash, a `#`. -/
def isMangled (b : UInt8) : Bool :=
  decide (b ∈ [32, 9, 10, 92, 35])

/-- A byte of a field. -/
def mangleByte (b : UInt8) : List UInt8 :=
  if isMangled b then [92, 48 + b / 64, 48 + b / 8 % 8, 48 + b % 8] else [b]

/-- A field as the kernel writes it. -/
def mangle (name : List UInt8) : List UInt8 :=
  name.flatMap mangleByte

/-- A name that is not empty and has no blank but those the kernel escapes. -/
def ReadableText (s : Str) : Prop :=
  s ≠ [] ∧ ∀ c ∈ s, isSpace c = true → c = chr ' ' ∨ c = chr '\t' ∨ c = chr '\n'

instance (s : Str) : Decidable (ReadableText s) :=
  inferInstanceAs (Decidable (_ ∧ _))

/-- The bytes of such a name. -/
def ReadableName (name : List UInt8) : Prop :=
  ∃ s, decodeUtf8 name = some s ∧ ReadableText s

/-- A word of the kernel's own: printable ASCII with nothing to escape in it. -/
structure KernelWord where
  text : Str
  nonempty : text ≠ []
  printable : Printable text
  plain : chr ' ' ∉ text ∧ chr '\\' ∉ text ∧ chr '#' ∉ text

/-- A name that the kernel writes beside the two that are anybody's. -/
structure KernelName where
  text : Str
  scalar : IsPlain text
  readable : ReadableText text

/-- The tags of a mount. -/
inductive MountTag where
  | shared (group : Nat)
  | master (group : Nat)
  | propagateFrom (group : Nat)
  | unbindable

/-- The text of a tag. -/
def MountTag.text : MountTag → Str
  | .shared group => str "shared:" ++ digits group
  | .master group => str "master:" ++ digits group
  | .propagateFrom group => str "propagate_from:" ++ digits group
  | .unbindable => str "unbindable"

/-- A mount: where, of what kind and from where, with the numbers, the root, the options and
    the tags that stand around that. -/
structure KernelMount where
  id : Nat
  parent : Nat
  major : Nat
  minor : Nat
  root : KernelName
  mountpoint : List UInt8
  options : KernelWord
  tags : List MountTag
  fstype : KernelWord
  source : List UInt8
  superOptions : KernelName

/-- The fields of a mount's line. -/
def KernelMount.fields (m : KernelMount) : List (List UInt8) :=
  [utf8 (digits m.id), utf8 (digits m.parent),
    utf8 (digits m.major ++ str ":" ++ digits m.minor), mangle (utf8 m.root.text),
    mangle m.mountpoint, utf8 m.options.text] ++
  (m.tags.map fun tag => utf8 tag.text) ++
  [[45], utf8 m.fstype.text, mangle m.source, mangle (utf8 m.superOptions.text)]

/-- The line of a mount. -/
def KernelMount.line (m : KernelMount) : List UInt8 :=
  [32].intercalate m.fields ++ [10]

/-- The table of some mounts. -/
def mountTable (mounts : List KernelMount) : List UInt8 :=
  mounts.flatMap KernelMount.line

/-- The bytes of a name that was decoded reversibly (`os.fsencode`). -/
def fsEncode : Str → Option (List UInt8)
  | [] => some []
  | .scalar c :: s => (fsEncode s).map (String.utf8EncodeChar c ++ ·)
  | .surrogate n :: s =>
      if 0x480 ≤ n.val ∧ n.val < 0x500 then (fsEncode s).map (UInt8.ofNat (n.val - 0x400) :: ·)
      else none

/-- A row is a mount's. -/
structure RowReads (m : KernelMount) (row : MountRow) : Prop where
  mountpoint : fsEncode row.mountpoint = some m.mountpoint
  source : fsEncode row.source = some m.source
  fstype : row.fstype = m.fstype.text
  options : row.options = m.options.text

/-- The table is read back: a row for each mount, in order. -/
def TableReadBack [Decimals] (mounts : List KernelMount) : Prop :=
  ∃ rows, mountEntries (some (mountTable mounts)) = .ok (some rows) ∧
    List.Forall₂ RowReads mounts rows

end Kernel

section Blanks

theorem splitSpaceFrom_word {w : Str} (hw : ∀ c ∈ w, isSpace c = false) (word t : Str) :
    splitSpaceFrom word (w ++ t) = splitSpaceFrom (w.reverse ++ word) t := by
  induction w generalizing word with
  | nil => rfl
  | cons c w ih =>
      rw [List.forall_mem_cons] at hw
      rw [List.cons_append, splitSpaceFrom, hw.1, if_neg Bool.false_ne_true, ih hw.2,
        List.reverse_cons, List.append_assoc, List.singleton_append]

/-- A word is a word of what it stands in front of. -/
theorem splitSpace_cons {w t : Str} (hne : w ≠ []) (hw : ∀ c ∈ w, isSpace c = false) {c : PyChar}
    (hc : isSpace c = true) : splitSpace (w ++ c :: t) = w :: splitSpace t := by
  have hrev : w.reverse ++ [] ≠ [] := fun h => hne (List.reverse_eq_nil_iff.mp
    (List.append_eq_nil_iff.mp h).1)
  rw [splitSpace, splitSpaceFrom_word hw, splitSpaceFrom, if_pos hc, if_neg hrev, List.append_nil,
    List.reverse_reverse, splitSpace]

theorem splitSpace_singleton {w : Str} (hne : w ≠ []) (hw : ∀ c ∈ w, isSpace c = false) :
    splitSpace w = [w] := by
  have hrev : w.reverse ++ [] ≠ [] := fun h => hne (List.reverse_eq_nil_iff.mp
    (List.append_eq_nil_iff.mp h).1)
  have h := splitSpaceFrom_word hw [] []
  rw [List.append_nil, splitSpaceFrom, if_neg hrev, List.append_nil, List.reverse_reverse] at h
  exact h

/-- A word of blanks' cutting. -/
def IsWord (w : Str) : Prop :=
  w ≠ [] ∧ ∀ c ∈ w, isSpace c = false

/-- Words with blanks between them are found again. -/
theorem splitSpace_join {words : List Str} (h : ∀ w ∈ words, IsWord w) :
    splitSpace (join (str " ") words) = words := by
  induction words with
  | nil => rfl
  | cons w words ih =>
      rw [List.forall_mem_cons] at h
      cases words with
      | nil => exact splitSpace_singleton h.1.1 h.1.2
      | cons v words =>
          rw [join_cons (List.cons_ne_nil v words), List.append_assoc]
          exact (splitSpace_cons h.1.1 h.1.2 (by decide)).trans (congrArg (w :: ·) (ih h.2))

/-- Whatever is cut off is a word, and stands there. -/
theorem mem_splitSpaceFrom {w s word : Str} (hword : ∀ c ∈ word, isSpace c = false)
    (h : w ∈ splitSpaceFrom word s) : IsWord w ∧ w <:+: word.reverse ++ s := by
  induction s generalizing word with
  | nil =>
      rw [splitSpaceFrom] at h
      by_cases hnil : word = []
      · rw [if_pos hnil] at h
        exact absurd h List.not_mem_nil
      · rw [if_neg hnil, List.mem_singleton] at h
        rw [h, List.append_nil]
        exact ⟨⟨fun hrev => hnil (List.reverse_eq_nil_iff.mp hrev), fun c hc => hword c
          (List.mem_reverse.mp hc)⟩, List.infix_rfl⟩
  | cons c s ih =>
      rw [splitSpaceFrom] at h
      -- A word of the rest is one of the whole.
      have hlater : w ∈ splitSpaceFrom [] s → IsWord w ∧ w <:+: word.reverse ++ c :: s := by
        intro hmem
        have hin := ih (fun _ hc => absurd hc List.not_mem_nil) hmem
        exact ⟨hin.1, hin.2.trans ⟨word.reverse ++ [c], [], by simp⟩⟩
      by_cases hc : isSpace c = true
      · rw [if_pos hc] at h
        by_cases hnil : word = []
        · rw [if_pos hnil] at h
          exact hlater h
        · rw [if_neg hnil, List.mem_cons] at h
          rcases h with rfl | h
          · -- The word that was being read ends here.
            exact ⟨⟨fun hrev => hnil (List.reverse_eq_nil_iff.mp hrev), fun c hc => hword c
              (List.mem_reverse.mp hc)⟩, (List.prefix_append _ _).isInfix⟩
          · exact hlater h
      · rw [if_neg hc] at h
        have hin := ih (List.forall_mem_cons.mpr ⟨eq_false_of_ne_true hc, hword⟩) h
        rw [List.reverse_cons, List.append_assoc] at hin
        exact hin

end Blanks

section Escapes

/-- A character of a field as the kernel writes it. -/
def mangleChar (c : PyChar) : Str :=
  if c = chr ' ' then str "\\040"
  else if c = chr '\t' then str "\\011"
  else if c = chr '\n' then str "\\012"
  else if c = chr '\\' then str "\\134"
  else if c = chr '#' then str "\\043"
  else [c]

/-- A character the kernel escapes. -/
def IsMangled (c : PyChar) : Prop :=
  c = chr ' ' ∨ c = chr '\t' ∨ c = chr '\n' ∨ c = chr '\\' ∨ c = chr '#'

theorem mangleChar_of_not {c : PyChar} (h : ¬IsMangled c) : mangleChar c = [c] := by
  simp only [IsMangled, not_or] at h
  rw [mangleChar, if_neg h.1, if_neg h.2.1, if_neg h.2.2.1, if_neg h.2.2.2.1, if_neg h.2.2.2.2]

variable [Decimals]

theorem octalAt_of_ne {c : PyChar} (h : c ≠ chr '\\') (s : Str) : octalAt c s = none :=
  if_neg h

/-- A character's escape is read as the character. -/
theorem unescapeFrom_mangleChar (c : PyChar) (t : Str) :
    unescapeFrom 0 (mangleChar c ++ t) = (unescapeFrom 0 t).map (c :: ·) := by
  by_cases hc : IsMangled c
  · rcases hc with rfl | rfl | rfl | rfl | rfl
    · rfl
    · rfl
    · rfl
    · rfl
    · rfl
  · have hslash : c ≠ chr '\\' := fun h => hc (Or.inr (Or.inr (Or.inr (Or.inl h))))
    rw [mangleChar_of_not hc, List.singleton_append, unescapeFrom, octalAt_of_ne hslash]

/-- A field is read as what the kernel wrote. -/
theorem unescape_mangle (s : Str) : unescape (s.flatMap mangleChar) = some s := by
  induction s with
  | nil => rfl
  | cons c s ih =>
      rw [unescape, List.flatMap_cons, unescapeFrom_mangleChar]
      exact congrArg (Option.map (c :: ·)) ih

end Escapes

section Bytes

/-- The first character's bytes, and the others'. -/
theorem encode_cons {c : PyChar} {s : Str} {bytes : List UInt8} (h : encode (c :: s) = some bytes) :
    ∃ d rest, c = .scalar d ∧ encode s = some rest ∧ bytes = String.utf8EncodeChar d ++ rest := by
  simp only [encode, Option.map_eq_some_iff] at h
  rcases h with ⟨cs, hcs, rfl⟩
  cases c with
  | surrogate n => exact absurd hcs (by simp only [scalars, reduceCtorEq, not_false_eq_true])
  | scalar d =>
      simp only [scalars, Option.map_eq_some_iff] at hcs
      rcases hcs with ⟨rest, hrest, rfl⟩
      exact ⟨d, rest.flatMap String.utf8EncodeChar, rfl, by rw [encode, hrest, Option.map_some],
        List.flatMap_cons⟩

/-- A byte the kernel escapes is a character it escapes. -/
theorem isMangled_byte {d : Char} {b : UInt8} (hb : b ∈ String.utf8EncodeChar d)
    (h : isMangled b = true) : IsMangled (.scalar d) := by
  have hbyte := of_decide_eq_true h
  -- A byte above 127 is never one of the five, which are all ASCII.
  by_cases hd : d.toNat < 128
  · rw [utf8EncodeChar_of_ascii hd, List.mem_singleton] at hb
    have hval : b.toNat = d.toNat := by
      rw [hb, UInt8.toNat_ofNat']
      omega
    have hchar : ∀ e : Char, d.toNat = e.toNat → PyChar.scalar d = chr e := fun e he =>
      congrArg PyChar.scalar (Char.ext (UInt32.toNat_inj.mp he))
    simp only [List.mem_cons, List.not_mem_nil, or_false] at hbyte
    rcases hbyte with rfl | rfl | rfl | rfl | rfl
    · exact Or.inl (hchar ' ' hval.symm)
    · exact Or.inr (Or.inl (hchar '\t' hval.symm))
    · exact Or.inr (Or.inr (Or.inl (hchar '\n' hval.symm)))
    · exact Or.inr (Or.inr (Or.inr (Or.inl (hchar '\\' hval.symm))))
    · exact Or.inr (Or.inr (Or.inr (Or.inr (hchar '#' hval.symm))))
  · have hhigh := utf8EncodeChar_high (Nat.le_of_not_lt hd) hb
    simp only [List.mem_cons, List.not_mem_nil, or_false] at hbyte
    rcases hbyte with rfl | rfl | rfl | rfl | rfl
    all_goals exact absurd hhigh (by decide)

theorem encode_mangleChar (d : Char) :
    encode (mangleChar (.scalar d)) = some (mangle (String.utf8EncodeChar d)) := by
  by_cases hd : IsMangled (.scalar d)
  · rcases hd with hd | hd | hd | hd | hd
    all_goals
      obtain rfl := PyChar.scalar.inj hd
      decide +kernel
  · have hplain : mangle (String.utf8EncodeChar d) = String.utf8EncodeChar d := by
      refine (List.flatMap_congr fun b hb => ?_).trans (List.flatMap_singleton' _)
      rw [mangleByte, if_neg fun hmangled => hd (isMangled_byte hb hmangled)]
    rw [mangleChar_of_not hd, hplain, encode, scalars, scalars, Option.map_some, Option.map_some,
      List.flatMap_singleton]

/-- The bytes of an escaped name are the kernel's field. -/
theorem encode_mangle {s : Str} {bytes : List UInt8} (h : encode s = some bytes) :
    encode (s.flatMap mangleChar) = some (mangle bytes) := by
  induction s generalizing bytes with
  | nil =>
      rw [← Option.some.inj h]
      rfl
  | cons c s ih =>
      rcases encode_cons h with ⟨d, rest, rfl, hrest, rfl⟩
      rw [List.flatMap_cons, mangle, List.flatMap_append]
      exact encode_append (encode_mangleChar d) (ih hrest)

theorem mangleChar_ne_nil (c : PyChar) : mangleChar c ≠ [] := by
  unfold mangleChar
  split_ifs <;> exact List.cons_ne_nil _ _

/-- A readable name's field is a word. -/
theorem isWord_mangle {s : Str} (h : ReadableText s) : IsWord (s.flatMap mangleChar) := by
  constructor
  · rcases List.exists_cons_of_ne_nil h.1 with ⟨c, rest, rfl⟩
    rw [List.flatMap_cons]
    exact fun hnil => mangleChar_ne_nil c (List.append_eq_nil_iff.mp hnil).1
  · intro d hd
    rcases List.mem_flatMap.mp hd with ⟨c, hc, hd⟩
    by_cases hmangled : IsMangled c
    · have hcodes : ∀ code ∈ [str "\\040", str "\\011", str "\\012", str "\\134", str "\\043"],
          ∀ d ∈ code, isSpace d = false := by decide
      refine hcodes (mangleChar c) ?_ d hd
      rcases hmangled with rfl | rfl | rfl | rfl | rfl <;> decide
    · rw [mangleChar_of_not hmangled, List.mem_singleton] at hd
      rw [hd]
      refine eq_false_of_ne_true fun hspace => hmangled ?_
      rcases h.2 c hc hspace with hc | hc | hc
      · exact Or.inl hc
      · exact Or.inr (Or.inl hc)
      · exact Or.inr (Or.inr (Or.inl hc))

theorem isWord_of_printable {s : Str} (hne : s ≠ []) (h : Printable s) (hspace : chr ' ' ∉ s) :
    IsWord s := by
  refine ⟨hne, fun c hc => decide_eq_false ?_⟩
  have hrange : 32 ≤ ord c ∧ ord c ≤ 126 := of_decide_eq_true (List.all_eq_true.mp h c hc)
  have h32 : ord c ≠ 32 := by
    intro hord
    cases c with
    | surrogate n =>
        have hlow : 0xD800 + n.val = 32 := hord
        omega
    | scalar d =>
        refine hspace ?_
        have hd : d = ' ' := Char.ext (UInt32.toNat_inj.mp hord)
        rw [← hd]
        exact hc
  omega

end Bytes

section Render

/-- The fields of a mount's line as text, once its names are. -/
def KernelMount.textFields (m : KernelMount) (mountpoint source : Str) : List Str :=
  [digits m.id, digits m.parent, digits m.major ++ str ":" ++ digits m.minor,
    m.root.text.flatMap mangleChar, mountpoint.flatMap mangleChar, m.options.text] ++
  m.tags.map MountTag.text ++
  [str "-", m.fstype.text, source.flatMap mangleChar, m.superOptions.text.flatMap mangleChar]

theorem printable_tag (tag : MountTag) : Printable tag.text := by
  cases tag with
  | shared group => exact printable_append.mpr ⟨by decide, printable_digits group⟩
  | master group => exact printable_append.mpr ⟨by decide, printable_digits group⟩
  | propagateFrom group => exact printable_append.mpr ⟨by decide, printable_digits group⟩
  | unbindable => decide

theorem encode_printable {s : Str} (h : Printable s) : encode s = some (utf8 s) :=
  (isPlain_of_printable h).encode_eq

theorem printable_device (m : KernelMount) :
    Printable (digits m.major ++ str ":" ++ digits m.minor) :=
  printable_append.mpr ⟨printable_append.mpr ⟨printable_digits _, by decide⟩, printable_digits _⟩

/-- The text of the fields is the kernel's bytes. -/
theorem encode_textFields {m : KernelMount} {mountpoint source : Str}
    (hmountpoint : encode mountpoint = some m.mountpoint)
    (hsource : encode source = some m.source) :
    (m.textFields mountpoint source).map encode = m.fields.map some := by
  have htags : (m.tags.map MountTag.text).map encode =
      (m.tags.map fun tag => utf8 tag.text).map some := by
    rw [List.map_map, List.map_map]
    exact List.map_congr_left fun tag _ => encode_printable (printable_tag tag)
  have hdash : encode (str "-") = some [45] := by decide
  rw [KernelMount.textFields, KernelMount.fields, List.map_append, List.map_append, htags,
    List.map_append, List.map_append]
  simp only [List.map_cons, List.map_nil, encode_mangle hmountpoint, encode_mangle hsource,
    encode_mangle m.root.scalar.encode_eq, encode_mangle m.superOptions.scalar.encode_eq,
    encode_printable (printable_digits _), encode_printable (printable_device m),
    encode_printable m.options.printable, encode_printable m.fstype.printable, hdash]

/-- Fields with spaces between them, as text and as bytes. -/
theorem encode_join_fields {texts : List Str} {fields : List (List UInt8)}
    (h : texts.map encode = fields.map some) :
    encode (join (str " ") texts) = some ([32].intercalate fields) := by
  induction texts generalizing fields with
  | nil =>
      cases fields with
      | nil => rfl
      | cons field fields => cases h
  | cons text texts ih =>
      cases fields with
      | nil => cases h
      | cons field fields =>
          -- Either both lists go on or neither does.
          rw [List.map_cons, List.map_cons, List.cons.injEq] at h
          have hrest := ih h.2
          cases texts with
          | nil =>
              cases fields with
              | nil => exact h.1.trans (by simp [List.intercalate])
              | cons next fields => cases h.2
          | cons next texts =>
              cases fields with
              | nil => cases h.2
              | cons nextField fields =>
                  have hspace : encode (str " ") = some [32] := by decide
                  rw [join_cons (List.cons_ne_nil next texts), List.append_assoc]
                  have hjoin := encode_append h.1 (encode_append hspace hrest)
                  exact hjoin

/-- The fields of readable names are words. -/
theorem isWord_textFields {m : KernelMount} {mountpoint source : Str}
    (hmountpoint : ReadableText mountpoint) (hsource : ReadableText source) :
    ∀ field ∈ m.textFields mountpoint source, IsWord field := by
  have hdigits : ∀ n, IsWord (digits n) := by
    intro n
    refine isWord_of_printable (digits_ne_nil n) (printable_digits n) fun hspace => ?_
    exact absurd (isDigit_of_mem_digits hspace) (by decide)
  have hword : ∀ w : KernelWord, IsWord w.text := fun w =>
    isWord_of_printable w.nonempty w.printable w.plain.1
  -- The device is two numbers with a colon.
  have hdevice : IsWord (digits m.major ++ str ":" ++ digits m.minor) := by
    refine ⟨fun hnil => digits_ne_nil m.minor (List.append_eq_nil_iff.mp hnil).2, fun c hc => ?_⟩
    rcases List.mem_append.mp hc with hc | hc
    · rcases List.mem_append.mp hc with hc | hc
      · exact (hdigits _).2 c hc
      · rw [List.mem_singleton.mp hc]
        decide
    · exact (hdigits _).2 c hc
  -- A tag is a literal, with a number behind it but for one.
  have htag : ∀ tag : MountTag, IsWord tag.text := by
    have hliteral : ∀ (s : String) (n : Nat), (str s).all (fun c => !isSpace c) = true →
        IsWord (str s ++ digits n) := by
      intro s n hs
      refine ⟨fun hnil => digits_ne_nil n (List.append_eq_nil_iff.mp hnil).2, fun c hc => ?_⟩
      rcases List.mem_append.mp hc with hc | hc
      · exact Bool.not_eq_true' _ |>.mp (List.all_eq_true.mp hs c hc)
      · exact (hdigits n).2 c hc
    intro tag
    cases tag with
    | shared group => exact hliteral "shared:" group (by decide)
    | master group => exact hliteral "master:" group (by decide)
    | propagateFrom group => exact hliteral "propagate_from:" group (by decide)
    | unbindable => exact ⟨by decide, by decide⟩
  have hdash : IsWord (str "-") := ⟨by decide, by decide⟩
  -- Every field, in the order of the kernel's line.
  intro field hfield
  simp only [KernelMount.textFields, List.mem_append, List.mem_cons, List.not_mem_nil, or_false,
    List.mem_map] at hfield
  rcases hfield with ((rfl | rfl | rfl | rfl | rfl | rfl) | ⟨tag, -, rfl⟩) | rfl | rfl | rfl | rfl
  · exact hdigits _
  · exact hdigits _
  · exact hdevice
  · exact isWord_mangle m.root.readable
  · exact isWord_mangle hmountpoint
  · exact hword _
  · exact htag tag
  · exact hdash
  · exact hword _
  · exact isWord_mangle hsource
  · exact isWord_mangle m.superOptions.readable

variable [Decimals]

/-- The row of fields with a separator behind the tags. -/
theorem mountRowOf_fields {id parent device root mountpoint options fstype source super : Str}
    {tags : List Str} (htags : ∀ tag ∈ tags, tag ≠ str "-") {path origin : Str}
    (hpath : unescape mountpoint = some path) (horigin : unescape source = some origin) :
    mountRowOf ([id, parent, device, root, mountpoint, options] ++ tags ++
      [str "-", fstype, source, super]) =
        .ok (some
          { mountpoint := path, fstype := fstype, source := origin, options := options }) := by
  have hlength : ([id, parent, device, root, mountpoint, options] ++ tags ++
      [str "-", fstype, source, super]).length = tags.length + 10 := by
    simp only [List.length_append, List.length_cons, List.length_nil]
    omega
  -- The first dash behind the tags is the separator, for no tag is one.
  have hfind : (([id, parent, device, root, mountpoint, options] ++ tags ++
      [str "-", fstype, source, super]).drop 6).findIdx? (fun field => decide (field = str "-")) =
        some tags.length := by
    have hnone : tags.findIdx? (fun field => decide (field = str "-")) = none :=
      List.findIdx?_eq_none_iff.mpr fun tag htag => decide_eq_false (htags tag htag)
    rw [List.append_assoc]
    change (tags ++ [str "-", fstype, source, super]).findIdx? _ = _
    have hdash : [str "-", fstype, source, super].findIdx?
        (fun field => decide (field = str "-")) = some 0 := by
      rw [List.findIdx?_cons, if_pos (decide_eq_true rfl)]
    rw [List.findIdx?_append, hnone, hdash]
    simp
  -- What is behind the dash is counted from there.
  have hget : ∀ n, ([id, parent, device, root, mountpoint, options] ++ tags ++
      [str "-", fstype, source, super]).getD (6 + tags.length + n) [] =
        [str "-", fstype, source, super].getD n [] := by
    intro n
    rw [List.getD_eq_getElem?_getD, List.getElem?_append_right (by simp; omega),
      List.getD_eq_getElem?_getD]
    refine congrArg (fun k => ([str "-", fstype, source, super][k]?).getD []) ?_
    simp only [List.length_append, List.length_cons, List.length_nil]
    omega
  have hpathField : ([id, parent, device, root, mountpoint, options] ++ tags ++
      [str "-", fstype, source, super]).getD 4 [] = mountpoint := by
    rw [List.append_assoc]
    rfl
  have hoptions : ([id, parent, device, root, mountpoint, options] ++ tags ++
      [str "-", fstype, source, super]).getD 5 [] = options := by
    rw [List.append_assoc]
    rfl
  have hsource : [str "-", fstype, source, super].getD 2 [] = source := rfl
  unfold mountRowOf
  rw [if_neg (by omega), hfind]
  dsimp only
  rw [if_neg (by omega), hget 1, hget 2, hpathField, hoptions, hsource, hpath, horigin]
  rfl

end Render

section ReadBack

theorem isSpace_of_boundary {c : PyChar} (h : isLineBoundary c = true) : isSpace c = true := by
  have hrange := of_decide_eq_true h
  refine decide_eq_true ?_
  omega

/-- A line of words has no end of a line in it. -/
theorem join_oneLine {words : List Str} (h : ∀ w ∈ words, IsWord w) :
    ∀ c ∈ join (str " ") words, isLineBoundary c = false := by
  intro c hc
  refine eq_false_of_ne_true fun hboundary => ?_
  rcases mem_of_mem_join hc with hc | ⟨w, hw, hc⟩
  · rw [List.mem_singleton.mp hc] at hboundary
    exact absurd hboundary (by decide)
  · exact ne_true_of_eq_false ((h w hw).2 c hc) (isSpace_of_boundary hboundary)

/-- What has a UTF-8 is decoded reversibly. -/
theorem fsEncode_of_encode {s : Str} {bytes : List UInt8} (h : encode s = some bytes) :
    fsEncode s = some bytes := by
  induction s generalizing bytes with
  | nil => exact h
  | cons c s ih =>
      rcases encode_cons h with ⟨d, rest, rfl, hrest, rfl⟩
      rw [fsEncode, ih hrest, Option.map_some]

variable [Decimals]

/-- A line of readable names is read back. -/
theorem mountRowOf_render {m : KernelMount} {mountpoint source : Str}
    (hmountpoint : encode mountpoint = some m.mountpoint)
    (hsource : encode source = some m.source) :
    ∃ row, mountRowOf (m.textFields mountpoint source) = .ok (some row) ∧ RowReads m row := by
  have htags : ∀ tag ∈ m.tags.map MountTag.text, tag ≠ str "-" := by
    intro text htext
    rcases List.mem_map.mp htext with ⟨tag, -, rfl⟩
    cases tag with
    | shared group => exact fun h => absurd (List.cons.inj h).1 (by decide)
    | master group => exact fun h => absurd (List.cons.inj h).1 (by decide)
    | propagateFrom group => exact fun h => absurd (List.cons.inj h).1 (by decide)
    | unbindable => decide
  exact ⟨_, mountRowOf_fields htags (unescape_mangle mountpoint) (unescape_mangle source),
    fsEncode_of_encode hmountpoint, fsEncode_of_encode hsource, rfl, rfl⟩

/-- A table of readable names is read back. -/
theorem readBack_of_readable {mounts : List KernelMount}
    (h : ∀ m ∈ mounts, ReadableName m.mountpoint ∧ ReadableName m.source) :
    ∃ text rows, encode text = some (mountTable mounts) ∧ chr '\r' ∉ text ∧
      mountRows ((splitlines text).map lineText) = .ok rows ∧
        List.Forall₂ RowReads mounts rows := by
  induction mounts with
  | nil => exact ⟨[], [], rfl, List.not_mem_nil, rfl, List.Forall₂.nil⟩
  | cons m mounts ih =>
      rw [List.forall_mem_cons] at h
      rcases h.1 with ⟨⟨mountpoint, hmountpoint, hpath⟩, ⟨source, hsource, horigin⟩⟩
      rcases ih h.2 with ⟨text, rows, htext, hcr, hrows, hreads⟩
      -- The names can be read, so they are written and read back as texts.
      have hencPath := encode_of_decodeUtf8 hmountpoint
      have hencSource := encode_of_decodeUtf8 hsource
      have hwords : ∀ w ∈ m.textFields mountpoint source, IsWord w :=
        isWord_textFields hpath horigin
      have hline := encode_join_fields (encode_textFields hencPath hencSource)
      have hone := join_oneLine hwords
      rcases mountRowOf_render hencPath hencSource with ⟨row, hrow, hread⟩
      have hend : encode (str "\n") = some [10] := by decide
      refine ⟨join (str " ") (m.textFields mountpoint source) ++ str "\n" ++ text, row :: rows,
        encode_append (encode_append hline hend) htext, ?_, ?_, List.Forall₂.cons hread hreads⟩
      · -- No word has a carriage return, so reading changes no line end.
        intro hmem
        rcases List.mem_append.mp hmem with hmem | hmem
        · rcases List.mem_append.mp hmem with hmem | hmem
          · exact absurd (hone _ hmem) (by decide)
          · exact absurd hmem (by decide)
        · exact hcr hmem
      · -- The line is cut off whole, and its words are the fields.
        have hcut := splitlines_line hone (Or.inl rfl) text
        have hends : ∀ c ∈ str "\n", isLineBoundary c = true := by decide
        have hbare := lineText_append hone hends
        rw [hcut, List.map_cons, hbare, mountRows, splitSpace_join hwords, hrow, hrows]
        rfl

end ReadBack

end Smbpal
