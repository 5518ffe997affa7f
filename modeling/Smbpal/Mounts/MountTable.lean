import Smbpal.Mounts.MountInfo

/-!
# The Mount Table Read Back

Which tables of the kernel's `mount_entries` reads back: those of names that are not empty,
have a UTF-8 and no blank but the three the kernel escapes. Nothing else can come out of a
table. Behind every backslash in it stands one of the kernel's codes, so whatever is read of
a field is of a word without blanks, or one of the five characters that are escaped. The
reading fails as a whole where a name has no UTF-8, and a name with another blank comes
apart (`no_break_space_lost`).

## Main definitions

* `CodeBytes`, `CodesIn`: That behind a backslash there is a code of the kernel's.

## Theorems

* `codeBytes_mountTable`: It is so in a table.
* `mountEntries_readable`: What of any table is read has readable names.
* `mountTable_readBack_iff`: When a table is read back.
-/

namespace Smbpal

section Codes

/-- What the kernel writes behind a backslash. -/
def octalCodes : List (List Char) :=
  ["040".toList, "011".toList, "012".toList, "134".toList, "043".toList]

/-- The byte of an ASCII character. -/
def asciiByte (c : Char) : UInt8 :=
  UInt8.ofNat c.toNat

/-- Behind a backslash there is a code. -/
def CodeBytes (bytes : List UInt8) : Prop :=
  ∀ rest, (92 :: rest) <:+ bytes → ∃ code ∈ octalCodes, code.map asciiByte <+: rest

/-- Bytes that leave it so in front of others. -/
def CodePiece (piece : List UInt8) : Prop :=
  ∀ rest, CodeBytes rest → CodeBytes (piece ++ rest)

theorem codeBytes_nil : CodeBytes [] := fun _ h => by cases List.suffix_nil.mp h

theorem CodeBytes.cons {b : UInt8} {bytes : List UInt8} (h : CodeBytes bytes) (hb : b ≠ 92) :
    CodeBytes (b :: bytes) := by
  intro rest hrest
  rcases List.suffix_cons_iff.mp hrest with heq | hrest
  · exact absurd (List.cons.inj heq).1.symm hb
  · exact h rest hrest

theorem codePiece_append {a b : List UInt8} (ha : CodePiece a) (hb : CodePiece b) :
    CodePiece (a ++ b) := by
  intro rest hrest
  rw [List.append_assoc]
  exact ha _ (hb rest hrest)

theorem codePiece_of_not_mem {piece : List UInt8} (h : 92 ∉ piece) : CodePiece piece := by
  induction piece with
  | nil => exact fun _ hrest => hrest
  | cons b piece ih =>
      rw [List.mem_cons, not_or] at h
      exact fun rest hrest => (ih h.2 rest hrest).cons (Ne.symm h.1)

theorem codePiece_mangleByte (b : UInt8) : CodePiece (mangleByte b) := by
  rw [mangleByte]
  by_cases hb : isMangled b = true
  · rw [if_pos hb]
    intro rest hrest
    have hbyte := of_decide_eq_true hb
    simp only [List.mem_cons, List.not_mem_nil, or_false] at hbyte
    have hcode : [48 + b / 64, 48 + b / 8 % 8, 48 + b % 8] ∈ octalCodes.map (·.map asciiByte) ∧
        (92 : UInt8) ∉ [48 + b / 64, 48 + b / 8 % 8, 48 + b % 8] := by
      rcases hbyte with rfl | rfl | rfl | rfl | rfl <;> decide
    rcases List.mem_map.mp hcode.1 with ⟨code, hmem, heq⟩
    intro after hafter
    rcases List.suffix_cons_iff.mp hafter with hsame | hlater
    · rw [(List.cons.inj hsame).2]
      exact ⟨code, hmem, heq ▸ List.prefix_append _ rest⟩
    · exact codePiece_of_not_mem hcode.2 rest hrest after hlater
  · rw [if_neg hb]
    refine codePiece_of_not_mem fun hmem => hb ?_
    rw [← List.mem_singleton.mp hmem]
    decide

theorem codePiece_flatMap {α : Type} {f : α → List UInt8} {xs : List α}
    (h : ∀ x ∈ xs, CodePiece (f x)) : CodePiece (xs.flatMap f) := by
  induction xs with
  | nil => exact fun _ hrest => hrest
  | cons x xs ih =>
      rw [List.forall_mem_cons] at h
      rw [List.flatMap_cons]
      exact codePiece_append h.1 (ih h.2)

theorem codePiece_mangle (name : List UInt8) : CodePiece (mangle name) :=
  codePiece_flatMap fun b _ => codePiece_mangleByte b

theorem codePiece_intercalate {fields : List (List UInt8)} (h : ∀ field ∈ fields, CodePiece field) :
    CodePiece ([32].intercalate fields) := by
  induction fields with
  | nil => exact fun _ hrest => hrest
  | cons field fields ih =>
      rw [List.forall_mem_cons] at h
      cases fields with
      | nil =>
          simp only [List.intercalate, List.intersperse, List.flatten_cons, List.flatten_nil,
            List.append_nil]
          exact h.1
      | cons next fields =>
          have hspace : CodePiece [32] := codePiece_of_not_mem (by decide)
          exact codePiece_append h.1 (codePiece_append hspace (ih h.2))

/-- No ASCII text without a backslash has the byte of one. -/
theorem codePiece_printable {s : Str} (h : Printable s) (hslash : chr '\\' ∉ s) :
    CodePiece (utf8 s) := by
  refine codePiece_of_not_mem fun hmem => hslash ?_
  exact mem_of_mem_encode (encode_printable h) hmem (by decide)

theorem slash_not_mem_tag (tag : MountTag) : chr '\\' ∉ tag.text := by
  have hliteral : ∀ (s : String) (n : Nat), chr '\\' ∉ str s → chr '\\' ∉ str s ++ digits n := by
    intro s n hs h
    rcases List.mem_append.mp h with h | h
    · exact hs h
    · exact absurd (isDigit_of_mem_digits h) (by decide)
  cases tag with
  | shared group => exact hliteral "shared:" group (by decide)
  | master group => exact hliteral "master:" group (by decide)
  | propagateFrom group => exact hliteral "propagate_from:" group (by decide)
  | unbindable => decide

/-- Everything in the kernel's table is of such bytes. -/
theorem codeBytes_mountTable (mounts : List KernelMount) : CodeBytes (mountTable mounts) := by
  have hdigits : ∀ n, CodePiece (utf8 (digits n)) := fun n =>
    codePiece_printable (printable_digits n) fun h => absurd (isDigit_of_mem_digits h) (by decide)
  -- A field is written by the kernel, with what it cannot hold as an octal code.
  have hfield : ∀ m : KernelMount, ∀ field ∈ m.fields, CodePiece field := by
    intro m field hfield
    simp only [KernelMount.fields, List.mem_append, List.mem_cons, List.not_mem_nil, or_false,
      List.mem_map] at hfield
    rcases hfield with ((rfl | rfl | rfl | rfl | rfl | rfl) | ⟨tag, -, rfl⟩) | rfl | rfl | rfl | rfl
    · exact hdigits _
    · exact hdigits _
    · refine codePiece_printable (printable_device m) fun h => ?_
      rcases List.mem_append.mp h with h | h
      · rcases List.mem_append.mp h with h | h
        · exact absurd (isDigit_of_mem_digits h) (by decide)
        · exact absurd h (by decide)
      · exact absurd (isDigit_of_mem_digits h) (by decide)
    · exact codePiece_mangle _
    · exact codePiece_mangle _
    · exact codePiece_printable m.options.printable m.options.plain.2.1
    · exact codePiece_printable (printable_tag tag) (slash_not_mem_tag tag)
    · exact codePiece_of_not_mem (by decide)
    · exact codePiece_printable m.fstype.printable m.fstype.plain.2.1
    · exact codePiece_mangle _
    · exact codePiece_mangle _
  have hline : ∀ m ∈ mounts, CodePiece m.line := by
    intro m _
    exact codePiece_append (codePiece_intercalate (hfield m)) (codePiece_of_not_mem (by decide))
  have htable := codePiece_flatMap hline [] codeBytes_nil
  rw [List.append_nil] at htable
  exact htable

/-- An ASCII code at the head of a text's bytes is at the head of the text. -/
theorem prefix_of_encode {code : List Char} (hascii : ∀ c ∈ code, c.toNat < 128) {s : Str}
    {bytes : List UInt8} (h : encode s = some bytes) (hcode : code.map asciiByte <+: bytes) :
    code.map chr <+: s := by
  induction code generalizing s bytes with
  | nil => exact List.nil_prefix
  | cons d code ih =>
      rw [List.forall_mem_cons] at hascii
      rcases hcode with ⟨after, rfl⟩
      cases s with
      | nil => cases Option.some.inj h
      | cons c s =>
          rcases encode_cons h with ⟨e, rest, rfl, hrest, heq⟩
          have hbyte : String.utf8EncodeChar d = [asciiByte d] := utf8EncodeChar_of_ascii hascii.1
          have hsame : String.utf8EncodeChar d ++ (code.map asciiByte ++ after) =
              String.utf8EncodeChar e ++ rest := by
            rw [hbyte]
            exact heq
          obtain rfl := utf8EncodeChar_prefixCode.unique _ _ _ _ hsame
          rw [List.map_cons, show chr d = .scalar d from rfl, List.prefix_cons_inj]
          exact ih hascii.2 hrest ⟨after, List.append_cancel_left hsame⟩

theorem octalCodes_ascii : ∀ code ∈ octalCodes, ∀ c ∈ code, c.toNat < 128 := by
  intro code hcode c hc
  have hall : (octalCodes.all fun code => code.all fun c => decide (c.toNat < 128)) = true := by
    decide
  exact decide_eq_true_eq.mp (List.all_eq_true.mp (List.all_eq_true.mp hall code hcode) c hc)

variable [Decimals]

/-- Three digits behind a backslash are one of the kernel's codes. -/
def CodesIn (s : Str) : Prop :=
  ∀ x y z, (digitValue x).isSome = true → (digitValue y).isSome = true →
    (digitValue z).isSome = true → [chr '\\', x, y, z] <:+: s →
      [x, y, z] ∈ octalCodes.map (·.map chr)

theorem CodesIn.of_infix {s t : Str} (h : CodesIn s) (hinside : t <:+: s) : CodesIn t :=
  fun x y z hx hy hz hin => h x y z hx hy hz (hin.trans hinside)

/-- A text whose bytes are such bytes. -/
theorem codesIn_of_encode {s : Str} {bytes : List UInt8} (h : encode s = some bytes)
    (hcodes : CodeBytes bytes) : CodesIn s := by
  intro x y z _ _ _ hin
  rcases hin with ⟨before, after, rfl⟩
  have hplain := isPlain_of_encode h
  rw [List.append_assoc, isPlain_append] at hplain
  have hbytes := encode_append hplain.1.encode_eq hplain.2.encode_eq
  rw [← List.append_assoc, h, Option.some.injEq] at hbytes
  have htail := hplain.2.encode_eq
  rcases encode_cons htail with ⟨d, rest, hd, hrest, heq⟩
  obtain rfl := PyChar.scalar.inj hd
  have hslash : String.utf8EncodeChar '\\' = [92] := by decide
  rw [heq, hslash] at hbytes
  rcases hcodes rest ⟨utf8 before, hbytes.symm⟩ with ⟨code, hcode, hstart⟩
  have hchars := prefix_of_encode (octalCodes_ascii code hcode) hrest hstart
  have hlength : ∀ code ∈ octalCodes, (code.map chr).length = 3 := by decide
  refine List.mem_map.mpr ⟨code, hcode, ?_⟩
  have htake := List.prefix_iff_eq_take.mp hchars
  rw [hlength code hcode] at htake
  exact htake

theorem digitValue_newline : digitValue (chr '\n') = none :=
  (if_neg (by decide)).trans Decimals.newline

omit [Decimals] in
/-- Reading in text mode makes nothing but line feeds. -/
theorem prefix_of_universalNewlines {w s : Str} (hw : chr '\n' ∉ w)
    (h : w <+: universalNewlines s) : w <+: s := by
  induction s generalizing w with
  | nil => exact h
  | cons c s ih =>
      cases w with
      | nil => exact List.nil_prefix
      | cons d w =>
          rw [List.mem_cons, not_or] at hw
          rw [universalNewlines] at h
          by_cases hc : c = chr '\r'
          · -- A carriage return is read as a newline, which the word has none of.
            have hnewline : ∃ rest, (if c = chr '\r' then
                if s.head? = some (chr '\n') then universalNewlines s
                else chr '\n' :: universalNewlines s
              else c :: universalNewlines s) = chr '\n' :: rest := by
              rw [if_pos hc]
              by_cases hs : s.head? = some (chr '\n')
              · rcases List.head?_eq_some_iff.mp hs with ⟨rest, rfl⟩
                rw [if_pos hs, universalNewlines, if_neg (by decide)]
                exact ⟨_, rfl⟩
              · rw [if_neg hs]
                exact ⟨_, rfl⟩
            rcases hnewline with ⟨rest, hrest⟩
            rw [hrest, List.cons_prefix_cons] at h
            exact absurd h.1.symm hw.1
          · rw [if_neg hc, List.cons_prefix_cons] at h
            rw [h.1, List.prefix_cons_inj]
            exact ih hw.2 h.2

omit [Decimals] in
theorem infix_of_universalNewlines {w s : Str} (hne : w ≠ []) (hw : chr '\n' ∉ w)
    (h : w <:+: universalNewlines s) : w <:+: s := by
  induction s with
  | nil => exact h
  | cons c s ih =>
      -- What is in the rest is in the whole.
      have hlater : w <:+: universalNewlines s → w <:+: c :: s := fun hin =>
        (ih hin).trans (List.suffix_cons c s).isInfix
      rw [universalNewlines] at h
      by_cases hc : c = chr '\r'
      · rw [if_pos hc] at h
        by_cases hs : s.head? = some (chr '\n')
        · rw [if_pos hs] at h
          exact hlater h
        · -- It could only start at the newline, and the word has none.
          rw [if_neg hs, List.infix_cons_iff] at h
          rcases h with h | h
          · rcases List.exists_cons_of_ne_nil hne with ⟨d, rest, rfl⟩
            rw [List.cons_prefix_cons] at h
            exact absurd (List.mem_cons.mpr (Or.inl h.1.symm)) hw
          · exact hlater h
      · rw [if_neg hc, List.infix_cons_iff] at h
        -- It starts here, or further on.
        rcases h with h | h
        · rcases List.exists_cons_of_ne_nil hne with ⟨d, rest, rfl⟩
          rw [List.cons_prefix_cons] at h
          rw [List.mem_cons, not_or] at hw
          rw [h.1]
          exact (List.prefix_cons_inj c |>.mpr (prefix_of_universalNewlines hw.2 h.2)).isInfix
        · exact hlater h

theorem CodesIn.universalNewlines {s : Str} (h : CodesIn s) : CodesIn (universalNewlines s) := by
  intro x y z hx hy hz hin
  refine h x y z hx hy hz (infix_of_universalNewlines (List.cons_ne_nil _ _) ?_ hin)
  have hdigit : ∀ d, (digitValue d).isSome = true → chr '\n' ≠ d := by
    rintro d hd rfl
    rw [digitValue_newline] at hd
    exact Bool.false_ne_true hd
  simp only [List.mem_cons, List.not_mem_nil, or_false, not_or]
  exact ⟨by decide, hdigit x hx, hdigit y hy, hdigit z hz⟩

end Codes

section Readable

variable [Decimals]

/-- A match of `_OCTAL` is a backslash and three digits. -/
theorem octalAt_eq_some {c : PyChar} {s : Str} {read : Option PyChar}
    (h : octalAt c s = some read) : ∃ x y z t, c = chr '\\' ∧ s = x :: y :: z :: t ∧
      (digitValue x).isSome = true ∧ (digitValue y).isSome = true ∧
        (digitValue z).isSome = true := by
  unfold octalAt at h
  by_cases hc : c = chr '\\'
  · rw [if_pos hc] at h
    split at h
    · rename_i x y z t
      split at h
      · rename_i a b e hx hy hz
        exact ⟨x, y, z, t, hc, rfl, by rw [hx]; rfl, by rw [hy]; rfl, by rw [hz]; rfl⟩
      · cases h
    · cases h
  · rw [if_neg hc] at h
    cases h

/-- In such a text it is a character the kernel escapes. -/
theorem octalAt_of_codesIn {c : PyChar} {s : Str} {read : Option PyChar} (hcodes : CodesIn (c :: s))
    (h : octalAt c s = some read) : ∃ d, read = some d ∧ IsMangled d := by
  rcases octalAt_eq_some h with ⟨x, y, z, t, rfl, rfl, hx, hy, hz⟩
  have hcode := hcodes x y z hx hy hz ⟨[], t, rfl⟩
  have hread : ∀ d, octalAt (chr '\\') (x :: y :: z :: t) = some (some d) → read = some d :=
    fun d hd => Option.some.inj (h.symm.trans hd)
  have hcases : [x, y, z] = str "040" ∨ [x, y, z] = str "011" ∨ [x, y, z] = str "012" ∨
      [x, y, z] = str "134" ∨ [x, y, z] = str "043" := by
    simp only [octalCodes, List.map_cons, List.map_nil, List.mem_cons, List.not_mem_nil,
      or_false] at hcode
    exact hcode
  rcases hcases with heq | heq | heq | heq | heq <;> cases heq
  · exact ⟨chr ' ', hread _ rfl, Or.inl rfl⟩
  · exact ⟨chr '\t', hread _ rfl, Or.inr (Or.inl rfl)⟩
  · exact ⟨chr '\n', hread _ rfl, Or.inr (Or.inr (Or.inl rfl))⟩
  · exact ⟨chr '\\', hread _ rfl, Or.inr (Or.inr (Or.inr (Or.inl rfl)))⟩
  · exact ⟨chr '#', hread _ rfl, Or.inr (Or.inr (Or.inr (Or.inr rfl)))⟩

/-- What is read of such a text is of it, or a character the kernel escapes. -/
theorem mem_unescapeFrom {s g : Str} {skip : Nat} (hcodes : CodesIn s)
    (h : unescapeFrom skip s = some g) : ∀ c ∈ g, c ∈ s ∨ IsMangled c := by
  induction s generalizing skip g with
  | nil =>
      cases skip with
      | zero =>
          rw [← Option.some.inj h]
          exact fun c hc => absurd hc List.not_mem_nil
      | succ skip =>
          rw [← Option.some.inj h]
          exact fun c hc => absurd hc List.not_mem_nil
  | cons d s ih =>
      have hrest : CodesIn s := hcodes.of_infix (List.suffix_cons d s).isInfix
      have hlater : ∀ {skip : Nat} {g : Str}, unescapeFrom skip s = some g → ∀ c ∈ g,
          c ∈ d :: s ∨ IsMangled c := fun hread c hc =>
        (ih hrest hread c hc).imp_left (List.mem_cons_of_mem d)
      cases skip with
      | succ skip => exact hlater h
      | zero =>
          rw [unescapeFrom] at h
          cases hoctal : octalAt d s with
          -- No code here: the character stands for itself.
          | none =>
              rw [hoctal, Option.map_eq_some_iff] at h
              rcases h with ⟨rest, hrest, rfl⟩
              intro c hc
              rcases List.mem_cons.mp hc with rfl | hc
              · exact Or.inl List.mem_cons_self
              · exact hlater hrest c hc
          | some read =>
              -- A code here, and the text has only those the kernel writes.
              rcases octalAt_of_codesIn hcodes hoctal with ⟨e, rfl, he⟩
              rw [hoctal, Option.map_eq_some_iff] at h
              rcases h with ⟨rest, hrest, rfl⟩
              intro c hc
              rcases List.mem_cons.mp hc with rfl | hc
              · exact Or.inr he
              · exact hlater hrest c hc

theorem unescape_ne_nil {s g : Str} (h : unescape s = some g) (hne : s ≠ []) : g ≠ [] := by
  rcases List.exists_cons_of_ne_nil hne with ⟨c, rest, rfl⟩
  rw [unescape, unescapeFrom] at h
  split at h
  · cases h
  · rcases Option.map_eq_some_iff.mp h with ⟨_, _, rfl⟩
    exact List.cons_ne_nil _ _
  · rcases Option.map_eq_some_iff.mp h with ⟨_, _, rfl⟩
    exact List.cons_ne_nil _ _

/-- The name read from a word of such a text is readable. -/
theorem readable_of_unescape {text field name : Str} (hcodes : CodesIn text)
    (hplain : IsPlain text) (hin : field <:+: text) (hword : IsWord field)
    (h : unescape field = some name) : ReadableText name ∧ IsPlain name := by
  have hmem := mem_unescapeFrom (hcodes.of_infix hin) h
  refine ⟨⟨unescape_ne_nil h hword.1, fun c hc hspace => ?_⟩, fun c hc => ?_⟩
  · rcases hmem c hc with hfield | hfield | hfield | hfield | rfl | rfl
    · exact absurd hspace (ne_true_of_eq_false (hword.2 c hfield))
    · exact Or.inl hfield
    · exact Or.inr (Or.inl hfield)
    · exact Or.inr (Or.inr hfield)
    · exact absurd hspace (by decide)
    · exact absurd hspace (by decide)
  · rcases hmem c hc with hfield | hfield | hfield | hfield | hfield | hfield
    · exact hplain c (hin.subset hfield)
    · exact ⟨_, hfield⟩
    · exact ⟨_, hfield⟩
    · exact ⟨_, hfield⟩
    · exact ⟨_, hfield⟩
    · exact ⟨_, hfield⟩

/-- A row is of two of its fields. -/
theorem mountRowOf_eq_some {fields : List Str} {row : MountRow}
    (h : mountRowOf fields = .ok (some row)) :
    ∃ mountpoint ∈ fields, ∃ source ∈ fields,
      unescape mountpoint = some row.mountpoint ∧ unescape source = some row.source := by
  -- The fields looked up are within the line.
  have hmem : ∀ n, n < fields.length → fields.getD n [] ∈ fields := by
    intro n hn
    rw [List.getD_eq_getElem?_getD, List.getElem?_eq_getElem hn, Option.getD_some]
    exact List.getElem_mem hn
  unfold mountRowOf at h
  by_cases hshort : fields.length < 8
  · rw [if_pos hshort] at h
    cases h
  rw [if_neg hshort] at h
  split at h
  · cases h
  · rename_i index hindex
    dsimp only at h
    by_cases hend : fields.length < 6 + index + 3
    · rw [if_pos hend] at h
      cases h
    · rw [if_neg hend] at h
      split at h
      · rename_i mountpoint source hmountpoint hsource
        cases h
        exact ⟨_, hmem 4 (by omega), _, hmem (6 + index + 2) (by omega), hmountpoint, hsource⟩
      · cases h

theorem mem_mountRows {lines : List Str} {rows : List MountRow} (h : mountRows lines = .ok rows)
    {row : MountRow} (hrow : row ∈ rows) :
    ∃ line ∈ lines, mountRowOf (splitSpace line) = .ok (some row) := by
  induction lines generalizing rows with
  | nil =>
      cases h
      exact absurd hrow List.not_mem_nil
  | cons line lines ih =>
      rcases except_bind_eq_ok.mp h with ⟨first, hfirst, h⟩
      rcases except_bind_eq_ok.mp h with ⟨rest, hrest, h⟩
      cases h
      rcases List.mem_append.mp hrow with hrow | hrow
      · refine ⟨line, List.mem_cons_self, ?_⟩
        rw [hfirst, Option.mem_toList.mp hrow]
      · rcases ih hrest hrow with ⟨other, hother, hread⟩
        exact ⟨other, List.mem_cons_of_mem line hother, hread⟩

/-- What is read of any table of the kernel's has readable names. -/
theorem mountEntries_readable {mounts : List KernelMount} {rows : List MountRow}
    (h : mountEntries (some (mountTable mounts)) = .ok (some rows)) {row : MountRow}
    (hrow : row ∈ rows) :
    (ReadableText row.mountpoint ∧ IsPlain row.mountpoint) ∧
      ReadableText row.source ∧ IsPlain row.source := by
  unfold mountEntries at h
  dsimp only at h
  cases hread : readText (mountTable mounts) with
  | none =>
      rw [hread] at h
      cases h
  | some text =>
      rw [hread] at h
      rcases except_bind_eq_ok.mp h with ⟨found, hfound, h⟩
      obtain rfl : found = rows := Option.some.inj (Except.ok.inj h)
      rcases Option.map_eq_some_iff.mp hread with ⟨raw, hraw, rfl⟩
      have hencode := encode_of_decodeUtf8 hraw
      have hcodes := (codesIn_of_encode hencode (codeBytes_mountTable mounts)).universalNewlines
      -- The text came out of bytes, so it has no half of a pair.
      have hplain : IsPlain (universalNewlines raw) := by
        intro c hc
        rcases mem_universalNewlines hc with hc | rfl
        · exact isPlain_of_encode hencode c hc
        · exact ⟨'\n', rfl⟩
      rcases mem_mountRows hfound hrow with ⟨line, hline, hof⟩
      rcases List.mem_map.mp hline with ⟨whole, hwhole, rfl⟩
      -- The line is part of the text, and its words are parts of the line.
      have hin : lineText whole <:+: universalNewlines raw := by
        have hstart : lineText whole <+: whole := List.rdropWhile_prefix isLineBoundary whole
        have hinside : whole <:+: (splitlines (universalNewlines raw)).flatten :=
          List.infix_of_mem_flatten hwhole
        rw [show (splitlines (universalNewlines raw)).flatten = _ from lineEnds.flatten_cut _]
          at hinside
        exact hstart.isInfix.trans hinside
      have hfield : ∀ field ∈ splitSpace (lineText whole),
          IsWord field ∧ field <:+: universalNewlines raw := by
        intro field hfield
        have hword := mem_splitSpaceFrom (fun _ hc => absurd hc List.not_mem_nil) hfield
        exact ⟨hword.1, hword.2.trans hin⟩
      rcases mountRowOf_eq_some hof with ⟨mountpoint, hmountpoint, source, hsource, hpath, horigin⟩
      have hfirst := hfield mountpoint hmountpoint
      have hsecond := hfield source hsource
      exact ⟨readable_of_unescape hcodes hplain hfirst.2 hfirst.1 hpath,
        readable_of_unescape hcodes hplain hsecond.2 hsecond.1 horigin⟩

omit [Decimals] in
/-- A row for every mount. -/
theorem exists_row {mounts : List KernelMount} {rows : List MountRow}
    (h : List.Forall₂ RowReads mounts rows) {m : KernelMount} (hm : m ∈ mounts) :
    ∃ row ∈ rows, RowReads m row := by
  induction h with
  | nil => exact absurd hm List.not_mem_nil
  | cons hread _ ih =>
      rcases List.mem_cons.mp hm with rfl | hm
      · exact ⟨_, List.mem_cons_self, hread⟩
      · rcases ih hm with ⟨row, hrow, hread⟩
        exact ⟨row, List.mem_cons_of_mem _ hrow, hread⟩

omit [Decimals] in
theorem readableName_of_reads {name : Str} {bytes : List UInt8}
    (h : ReadableText name ∧ IsPlain name) (hreads : fsEncode name = some bytes) :
    ReadableName bytes := by
  have hencode := h.2.encode_eq
  have hsame : utf8 name = bytes :=
    Option.some.inj ((fsEncode_of_encode hencode).symm.trans hreads)
  exact ⟨name, decodeUtf8_of_encode (hsame ▸ hencode), h.1⟩

/-- A table is read back exactly when no mountpoint and no source in it is empty, all have a
    UTF-8, and none has a blank that the kernel does not escape. -/
theorem mountTable_readBack_iff (mounts : List KernelMount) : TableReadBack mounts ↔
    ∀ m ∈ mounts, ReadableName m.mountpoint ∧ ReadableName m.source := by
  constructor
  · rintro ⟨rows, hrows, hreads⟩ m hm
    rcases exists_row hreads hm with ⟨row, hrow, hread⟩
    have hnames := mountEntries_readable hrows hrow
    exact ⟨readableName_of_reads hnames.1 hread.mountpoint,
      readableName_of_reads hnames.2 hread.source⟩
  · intro h
    rcases readBack_of_readable h with ⟨text, rows, htext, hcr, hrows, hreads⟩
    refine ⟨rows, ?_, hreads⟩
    unfold mountEntries
    dsimp only
    rw [readText_writeText htext hcr]
    dsimp only
    rw [hrows]
    rfl

end Readable

section Lost

attribute [local instance] Decimals.ascii

/-- A mount as a desktop leaves it, from and at two names. -/
def mountOf (mountpoint source : List UInt8) : KernelMount where
  id := 36
  parent := 25
  major := 0
  minor := 51
  root := { text := str "/", scalar := isPlain_str "/", readable := by decide }
  mountpoint := mountpoint
  options := { text := str "rw,relatime", nonempty := by decide, printable := by decide
               plain := by decide }
  tags := [.shared 20]
  fstype := { text := str "vfat", nonempty := by decide, printable := by decide
              plain := by decide }
  source := source
  superOptions := { text := str "rw", scalar := isPlain_str "rw", readable := by decide }

/-- A stick whose label has a no-break space: its mount is not read back. -/
theorem no_break_space_lost :
    ¬TableReadBack [mountOf (utf8 (str "/media/ann/My\u00a0Stick")) (utf8 (str "/dev/sda1"))] := by
  have hread : mountEntries (some (mountTable
      [mountOf (utf8 (str "/media/ann/My\u00a0Stick")) (utf8 (str "/dev/sda1"))])) =
        .ok (some [{ mountpoint := str "/media/ann/My", fstype := str "vfat",
                     source := str "/dev/sda1", options := str "Stick" }]) := by
    rfl
  rintro ⟨rows, hrows, hreads⟩
  rw [hread] at hrows
  obtain rfl := Option.some.inj (Except.ok.inj hrows)
  rcases exists_row hreads List.mem_cons_self with ⟨row, hrow, hreads⟩
  rw [List.mem_singleton.mp hrow] at hreads
  exact absurd hreads.options (by decide)

/-- A name in Latin-1, and nothing of the table is read. -/
example : mountEntries (some (mountTable [mountOf [47, 0xE9] (utf8 (str "/dev/sda1"))])) =
    .error .exception := by
  rfl

end Lost

end Smbpal
