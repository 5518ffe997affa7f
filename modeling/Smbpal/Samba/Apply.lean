import Smbpal.Samba.Include

/-!
# Giving `smb.conf` Back

`samba/apply.py`, the part of it that edits somebody else's file: `_ensure_include`
puts the marked block in, `teardown` takes it out again.

Both read the file as text and write it as text. `Smbpal.Samba.Include` has the two
transforms undo each other for any line ends, `\r\n` among them, and the files do
not: reading has turned every `\r\n` into `\n` before the transform sees it, and
writing does not turn it back. `smb_conf_given_back` is exactly when the bytes come
back.

## Main definitions

* `SambaFiles`: The two files.
* `SambaApplier.ensureInclude`, `SambaApplier.teardown`: The two edits.
* `SambaApplier.GivesBack`: One after the other leaves the bytes of `smb.conf`.
* `SmbConf`: The bytes of a file, with what they say.

## Theorems

* `insertInclude_plain`: The text that is written can be written, and read back.
* `givesBack_of_hasInclude`, `givesBack_iff`: The two cases.
* `smb_conf_given_back`: Exactly when `smb.conf` is given back byte for byte.
-/

namespace Smbpal

/-- The files an applier writes. -/
structure SambaFiles where
  smbConf : Option (List UInt8)
  smbpalConf : Option (List UInt8)
  deriving DecidableEq

/-- `Applier`, its two paths. -/
structure SambaApplier where
  smbConf : Str
  smbpalConf : PathLine

/-- `self.include_line`. -/
def SambaApplier.includeLine (a : SambaApplier) : Str :=
  includeLineOf a.smbpalConf

/-- `_write` on `smb.conf`. -/
def SambaFiles.putSmbConf (files : SambaFiles) (text : Str) : Except Exc SambaFiles :=
  match writeText text with
  | some bytes => .ok { files with smbConf := some bytes }
  | none => .error .exception

/-- `_ensure_include`. -/
def SambaApplier.ensureInclude (a : SambaApplier) (files : SambaFiles) : Except Exc SambaFiles :=
  match files.smbConf with
  | none =>
      .error <| .detailed .applyFailed (a.smbConf ++ str " does not exist")
        (str "Samba does not appear to be installed.")
  | some bytes =>
      match readText bytes with
      | none => .error .exception
      | some original => do
          let updated ← insertInclude original a.includeLine
          if updated = original then pure files else files.putSmbConf updated

/-- What `teardown` says it changed. -/
structure TeardownReport where
  smbConf : Str
  includeRemoved : Bool
  smbpalConfRemoved : Bool
  deriving DecidableEq

/-- The first half of `teardown`: `smb.conf` without the block, and whether that
    changed it. -/
def SambaApplier.stripInclude (a : SambaApplier) (files : SambaFiles) :
    Except Exc (SambaFiles × Bool) :=
  match files.smbConf with
  | none => .ok (files, false)
  | some bytes =>
      match readText bytes with
      | none => .error .exception
      | some original => do
          let stripped ← removeInclude original a.includeLine
          if stripped = original then pure (files, false)
          else (·, true) <$> files.putSmbConf stripped

/-- `teardown`. -/
def SambaApplier.teardown (a : SambaApplier) (files : SambaFiles) :
    Except Exc (SambaFiles × TeardownReport) := do
  let stripped ← a.stripInclude files
  pure ({ stripped.1 with smbpalConf := none },
    { smbConf := a.smbConf
      includeRemoved := stripped.2
      smbpalConfRemoved := files.smbpalConf.isSome })

/-- Putting the block in and tearing it down leaves the bytes of `smb.conf`. -/
def SambaApplier.GivesBack (a : SambaApplier) (files : SambaFiles) : Prop :=
  ∃ inserted final, a.ensureInclude files = .ok inserted ∧ a.teardown inserted = .ok final ∧
    final.1.smbConf = files.smbConf

theorem isPlain_of_decodeUtf8 {bytes : List UInt8} {text : Str}
    (h : decodeUtf8 bytes = some text) : IsPlain text := by
  simp only [decodeUtf8, Option.map_eq_some_iff] at h
  rcases h with ⟨s, -, rfl⟩
  exact isPlain_str s

/-- What every character of the text, of the path and of the markers satisfies,
    every character of the text with the block in it does. -/
theorem forall_insertInclude {P : PyChar → Prop} {path : PathLine} {text inserted : Str}
    (h : insertInclude text (includeLineOf path) = .ok inserted) (htext : ∀ c ∈ text, P c)
    (hpath : ∀ c ∈ path.text, P c)
    (hliteral : ∀ c ∈ beginMarker ++ endMarker ++ str "include = " ++ str "\n", P c) :
    ∀ c ∈ inserted, P c := by
  rcases insertInclude_eq_ok h with ⟨-, rfl⟩ | ⟨-, pre, line, post, hlines, -, -, rfl⟩
  · exact htext
  have hflat := lineEnds.flatten_cut text
  change (splitlines text).flatten = text at hflat
  rw [hlines, List.flatten_append, List.flatten_cons] at hflat
  have hold : ∀ c ∈ pre.flatten ++ (line ++ post.flatten), P c := hflat ▸ htext
  simp only [List.mem_append, or_imp, forall_and] at hold hliteral
  -- A `\r` in the block's line ends is one the header's line has as well.
  have hending : ∀ c ∈ lineEnding line, P c := by
    unfold lineEnding
    by_cases hcrlf : endsWith line "\r\n" = true
    · rw [if_pos hcrlf]
      rcases List.isSuffixOf_iff_suffix.mp hcrlf with ⟨init, hinit⟩
      exact fun c hc => hold.2.1 c (hinit ▸ List.mem_append_right init hc)
    · rw [if_neg hcrlf]
      exact hliteral.2
  intro c hc
  simp only [includeBlock, includeLineOf, List.flatten_cons, List.flatten_nil, List.append_nil,
    List.mem_append] at hc
  rcases hc with hc | hc | (((hc | hc) | ((hc | hc) | hc) | hc | hc) | hc)
  · exact hold.1 c hc
  · exact hold.2.1 c hc
  · exact hliteral.1.1.1 c hc
  · exact hending c hc
  · exact hliteral.1.2 c hc
  · exact hpath c hc
  · exact hending c hc
  · exact hliteral.1.1.2 c hc
  · exact hending c hc
  · exact hold.2.2 c hc

theorem sweep_subset (includeLine : Str) (inside : Bool) (lines : List Str) :
    (sweep includeLine inside lines).1 ⊆ lines := by
  induction lines generalizing inside with
  | nil => exact List.Subset.refl _
  | cons line lines ih =>
      unfold sweep
      split_ifs
      · exact List.subset_cons_of_subset line (ih true)
      · exact List.subset_cons_of_subset line (ih _)
      · exact List.subset_cons_of_subset line (ih false)
      · exact List.cons_subset_cons line (ih false)

theorem forall_removeInclude {P : PyChar → Prop} {text includeLine result : Str}
    (h : removeInclude text includeLine = .ok result) (htext : ∀ c ∈ text, P c) :
    ∀ c ∈ result, P c := by
  unfold removeInclude at h
  dsimp only at h
  split at h
  · exact nomatch h
  · rw [Except.ok.injEq] at h
    intro c hc
    rw [← h] at hc
    rcases List.mem_flatten.mp hc with ⟨line, hline, hc⟩
    have hflat := lineEnds.flatten_cut text
    refine htext c ?_
    rw [← hflat]
    exact List.mem_flatten_of_mem (sweep_subset includeLine false _ hline) hc

/-- The bytes of an `smb.conf`, with what they say and what the code reads. -/
structure SmbConf where
  bytes : List UInt8
  text : Str
  decodes : decodeUtf8 bytes = some text

/-- What `read_text` makes of the file. -/
def SmbConf.read (f : SmbConf) : Str :=
  universalNewlines f.text

theorem SmbConf.readText_bytes (f : SmbConf) : readText f.bytes = some f.read := by
  rw [readText, f.decodes, Option.map_some]
  rfl

theorem SmbConf.isPlain_read (f : SmbConf) : IsPlain f.read := by
  intro c hc
  rcases mem_universalNewlines hc with hc | rfl
  · exact isPlain_of_decodeUtf8 f.decodes c hc
  · exact ⟨_, rfl⟩

theorem SmbConf.no_cr (f : SmbConf) : ∀ c ∈ f.read, c ≠ chr '\r' := by
  rintro c hc rfl
  exact cr_not_mem_universalNewlines f.text hc

theorem ensureInclude_eq (a : SambaApplier) (f : SmbConf) {files : SambaFiles}
    (hfiles : files.smbConf = some f.bytes) :
    a.ensureInclude files = (do
      let updated ← insertInclude f.read a.includeLine
      if updated = f.read then pure files else files.putSmbConf updated) := by
  unfold SambaApplier.ensureInclude
  rw [hfiles]
  dsimp only
  rw [f.readText_bytes]

/-- The text with the block is written, and read back as it is. -/
theorem insertInclude_plain (path : PathLine) (f : SmbConf) {inserted : Str}
    (h : insertInclude f.read (includeLineOf path) = .ok inserted) :
    (∀ c ∈ inserted, c ≠ chr '\r') ∧
      ∃ bytes, writeText inserted = some bytes ∧ readText bytes = some inserted := by
  have hplain : IsPlain inserted := by
    refine forall_insertInclude h f.isPlain_read (isPlain_of_scalars path.scalar) fun c hc => ?_
    simp only [List.mem_append] at hc
    rcases hc with ((hc | hc) | hc) | hc
    all_goals exact isPlain_str _ c hc
  have hcr : ∀ c ∈ inserted, c ≠ chr '\r' := by
    refine forall_insertInclude h f.no_cr (fun c hc => ?_) (by decide)
    rintro rfl
    exact absurd (path.oneLine _ hc) (by decide)
  rcases hplain.encodes with ⟨bytes, hbytes⟩
  exact ⟨hcr, bytes, hbytes, readText_writeText hbytes fun hmem => hcr _ hmem rfl⟩

section

variable (a : SambaApplier) (f : SmbConf) {files : SambaFiles}

theorem stripInclude_eq {text : Str} {bytes : List UInt8} (hfiles : files.smbConf = some bytes)
    (hread : readText bytes = some text) :
    a.stripInclude files = (do
      let stripped ← removeInclude text a.includeLine
      if stripped = text then pure (files, false)
      else (·, true) <$> files.putSmbConf stripped) := by
  unfold SambaApplier.stripInclude
  rw [hfiles]
  dsimp only
  rw [hread]

/-- A tear-down ends where taking the include out ends. -/
theorem teardown_smbConf {inserted : SambaFiles} {final : SambaFiles × TeardownReport}
    (h : a.teardown inserted = .ok final) :
    ∃ stripped, a.stripInclude inserted = .ok stripped ∧
      final.1.smbConf = stripped.1.smbConf := by
  unfold SambaApplier.teardown at h
  rcases hstrip : a.stripInclude inserted with e | stripped
  · rw [hstrip] at h
    exact nomatch h
  · rw [hstrip] at h
    obtain rfl := Except.ok.inj h
    exact ⟨stripped, rfl, rfl⟩

theorem teardown_of_stripInclude {inserted : SambaFiles} {stripped : SambaFiles × Bool}
    (h : a.stripInclude inserted = .ok stripped) :
    ∃ final, a.teardown inserted = .ok final ∧ final.1.smbConf = stripped.1.smbConf := by
  unfold SambaApplier.teardown
  rw [h]
  exact ⟨_, rfl, rfl⟩

/-- A file that mentions the marker somewhere is never written. -/
theorem givesBack_of_hasInclude (hfiles : files.smbConf = some f.bytes)
    (hforeign : ∀ line ∈ splitlines f.read, IsForeign a.includeLine line)
    (hinc : hasInclude f.read = true) : a.GivesBack files := by
  have hinsert : a.ensureInclude files = .ok files := by
    rw [ensureInclude_eq a f hfiles, insertInclude, if_pos hinc]
    exact if_pos rfl
  have hstrip : a.stripInclude files = .ok (files, false) := by
    rw [stripInclude_eq a hfiles f.readText_bytes, removeInclude_foreign hforeign]
    exact if_pos rfl
  rcases teardown_of_stripInclude a hstrip with ⟨final, hfinal, hconf⟩
  exact ⟨files, final, hinsert, hfinal, hconf⟩

/-- A file without the marker is written, and comes back when nothing was lost in
    reading it and the header's line has an end. -/
theorem givesBack_iff (hfiles : files.smbConf = some f.bytes)
    (hforeign : ∀ line ∈ splitlines f.read, IsForeign a.includeLine line)
    (hinc : hasInclude f.read = false) {line : Str}
    (hfind : (splitlines f.read).find? isGlobalHeader = some line) :
    a.GivesBack files ↔ chr '\r' ∉ f.text ∧ lineTerminated line = true := by
  have hany : (splitlines f.read).any isGlobalHeader = true := by
    rw [List.any_eq_true]
    exact ⟨line, List.mem_of_find?_eq_some hfind, List.find?_some hfind⟩
  rcases Option.isSome_iff_exists.mp
    ((insertAfterHeader_isSome a.includeLine (splitlines f.read)).trans hany) with ⟨lines, hlines⟩
  have hinsert : insertInclude f.read a.includeLine = .ok lines.flatten := by
    rw [insertInclude, hinc, if_neg Bool.false_ne_true, hlines]
  have hne := insertInclude_ne hinc hinsert
  rcases insertInclude_plain a.smbpalConf f hinsert with
    ⟨hclean, bytes, hwrite, hread⟩
  have hensure : a.ensureInclude files = .ok { files with smbConf := some bytes } := by
    rw [ensureInclude_eq a f hfiles, hinsert]
    change (if lines.flatten = f.read then _ else _) = _
    rw [if_neg hne, SambaFiles.putSmbConf, hwrite]
  have hconf : ({ files with smbConf := some bytes } : SambaFiles).smbConf = some bytes := rfl
  have hstrip := stripInclude_eq a hconf hread
  constructor
  · rintro ⟨inserted, final, hfirst, hsecond, hback⟩
    obtain rfl := Except.ok.inj (hensure.symm.trans hfirst)
    rcases teardown_smbConf a hsecond with ⟨stripped, hstripped, hconf⟩
    rw [hconf, hfiles] at hback
    rw [hstrip] at hstripped
    rcases hremove : removeInclude lines.flatten a.includeLine with e | result
    · rw [hremove] at hstripped
      exact nomatch hstripped
    rw [hremove] at hstripped
    change (if result = lines.flatten then _ else _) = _ at hstripped
    by_cases hsame : result = lines.flatten
    · -- Nothing was taken out: the file would say what it said with the block in it.
      rw [if_pos hsame] at hstripped
      obtain rfl := Except.ok.inj hstripped
      rw [Option.some.inj hback, f.readText_bytes] at hread
      exact absurd (Option.some.inj hread).symm hne
    · rw [if_neg hsame] at hstripped
      have htext : result = f.text := by
        unfold SambaFiles.putSmbConf at hstripped
        rcases hbytes : writeText result with _ | written
        · rw [hbytes] at hstripped
          exact nomatch hstripped
        · rw [hbytes] at hstripped
          obtain rfl := Except.ok.inj hstripped
          rw [Option.some.inj hback] at hbytes
          exact encode_injective hbytes (encode_of_decodeUtf8 f.decodes)
      have hcr : chr '\r' ∉ f.text := fun hmem =>
        forall_removeInclude hremove hclean _ (htext ▸ hmem) rfl
      refine ⟨hcr, ?_⟩
      by_contra hend
      refine removeInclude_glued a.smbpalConf hforeign hinc hinsert hfind
        (Bool.not_eq_true _ |>.mp hend) hremove ?_
      rw [htext]
      exact ((universalNewlines_eq_self_iff f.text).mpr hcr).symm
  · rintro ⟨hcr, hend⟩
    have hremove := removeInclude_insertInclude a.smbpalConf hforeign hinsert hfind hend
    have hsame : f.read = f.text := (universalNewlines_eq_self_iff f.text).mpr hcr
    have hbytes : writeText f.read = some f.bytes := by
      rw [hsame]
      exact encode_of_decodeUtf8 f.decodes
    have hdone : a.stripInclude { files with smbConf := some bytes } = .ok (files, true) := by
      rw [hstrip]
      change (removeInclude lines.flatten (includeLineOf a.smbpalConf) >>= _) = _
      rw [hremove]
      change (if f.read = lines.flatten then _ else _) = _
      rw [if_neg hne.symm, SambaFiles.putSmbConf, hbytes]
      change Except.ok (SambaFiles.mk (some f.bytes) files.smbpalConf, true) = _
      rw [← hfiles]
    rcases teardown_of_stripInclude a hdone with ⟨final, hfinal, hconf⟩
    exact ⟨_, final, hensure, hfinal, hconf⟩

/-- The line of the header has an end. -/
def HeaderEnds (text : Str) : Prop :=
  ∃ line, (splitlines text).find? isGlobalHeader = some line ∧ lineTerminated line = true

/-- `smb.conf` is given back byte for byte exactly when it has no carriage return
    and its header's line ends, or when it mentions the marker and is left alone. -/
theorem smb_conf_given_back (hfiles : files.smbConf = some f.bytes)
    (hforeign : ∀ line ∈ splitlines f.read, IsForeign a.includeLine line)
    (hglobal : (splitlines f.read).any isGlobalHeader = true) :
    a.GivesBack files ↔
      hasInclude f.read = true ∨ chr '\r' ∉ f.text ∧ HeaderEnds f.read := by
  rcases hfind : (splitlines f.read).find? isGlobalHeader with _ | line
  · rw [List.find?_eq_none] at hfind
    rcases List.any_eq_true.mp hglobal with ⟨line, hline, hheader⟩
    exact absurd hheader (hfind line hline)
  by_cases hinc : hasInclude f.read = true
  · exact ⟨fun _ => Or.inl hinc, fun _ => givesBack_of_hasInclude a f hfiles hforeign hinc⟩
  rw [givesBack_iff a f hfiles hforeign (Bool.not_eq_true _ |>.mp hinc) hfind]
  constructor
  · exact fun h => Or.inr ⟨h.1, line, hfind, h.2⟩
  · rintro (h | ⟨hcr, line', hfind', hend⟩)
    · exact absurd h hinc
    · obtain rfl : line = line' := Option.some.inj (hfind.symm.trans hfind')
      exact ⟨hcr, hend⟩

end

/-- The applier on its default paths. -/
def defaultApplier : SambaApplier where
  smbConf := str "/etc/samba/smb.conf"
  smbpalConf :=
    { text := str "/etc/samba/smbpal.conf"
      scalar := by decide
      oneLine := by decide }

/-- The file that says `s`. -/
def smbConfOf (s : String) : SmbConf where
  bytes := s.toList.flatMap String.utf8EncodeChar
  text := str s
  decodes := decodeUtf8_of_encode (encode_str s)

/-- A small file of the distribution's. -/
def stockConf : SmbConf :=
  smbConfOf "[global]\n   server role = standalone\n"

/-- The same file, saved with `\r\n`. -/
def crlfConf : SmbConf :=
  smbConfOf "[global]\r\n   server role = standalone\r\n"

set_option maxRecDepth 10000 in
theorem smb_conf_given_back_stock :
    defaultApplier.GivesBack { smbConf := some stockConf.bytes, smbpalConf := none } := by
  refine (smb_conf_given_back defaultApplier stockConf rfl ?_ ?_).mpr
    (Or.inr ⟨?_, str "[global]\n", ?_, ?_⟩)
  all_goals decide +kernel

set_option maxRecDepth 10000 in
/-- A file saved with `\r\n` comes back with `\n`. -/
theorem crlf_not_given_back :
    (∀ line ∈ splitlines crlfConf.read, IsForeign defaultApplier.includeLine line) ∧
      (splitlines crlfConf.read).any isGlobalHeader = true ∧
      ¬defaultApplier.GivesBack { smbConf := some crlfConf.bytes, smbpalConf := none } := by
  have hforeign : ∀ line ∈ splitlines crlfConf.read, IsForeign defaultApplier.includeLine line := by
    decide +kernel
  have hfind : (splitlines crlfConf.read).find? isGlobalHeader = some (str "[global]\n") := by
    decide +kernel
  have hinc : hasInclude crlfConf.read = false := by decide +kernel
  refine ⟨hforeign, by decide +kernel, fun hback => ?_⟩
  have hcr := ((givesBack_iff defaultApplier crlfConf rfl hforeign hinc hfind).mp hback).1
  exact hcr (by decide +kernel)

end Smbpal
