import Smbpal.Config.Schema

/-!
# Unit Names and Texts

`mounts/units.py`: the systemd units of a connection.

`escape_path` drops empty components before it escapes, so it does not tell
every path from every other. `escapePath_eq_iff` is exactly how far it goes: two
paths it can escape get one name when they are the same after `collapse`, and
only then. The rest of the escaping is a prefix code on bytes, and so is UTF-8
under it, which is the whole of the proof.

## Main definitions

* `collapse`: A path without empty components.
* `escapePath`: What `systemd-escape -p` produces.
* `unitNames`: The mount unit and the automount unit of a mountpoint.
* `mountUnit`, `automountUnit`: Their texts.

## Theorems

* `escapeByte_prefixCode`: Escaped bytes can be told apart.
* `escapePath_eq_iff`: The kernel of the escaping.
* `mount_ne_automount`: A mount unit is never named as an automount unit.
* `unitNames_eq_iff`: The kernel of the unit names.
* `unitNames_isSome_iff`: A mountpoint has unit names when it has a UTF-8.
-/

namespace Smbpal

/-- A path with its slashes collapsed and stripped. -/
def collapse (path : Str) : Str :=
  stripChar '/' (replaceRuns (fun c => decide (c = chr '/')) (chr '/') false path)

/-- `_ALLOWED`, as bytes. -/
def isAllowedByte (b : UInt8) : Bool :=
  let n := b.toNat
  decide (97 ≤ n ∧ n ≤ 122 ∨ 65 ≤ n ∧ n ≤ 90 ∨ 48 ≤ n ∧ n ≤ 57 ∨ n = 58 ∨ n = 95 ∨ n = 46)

/-- A byte as `\xNN`. -/
def hexEscape (b : UInt8) : Str :=
  [chr '\\', chr 'x', chr (Nat.digitChar (b.toNat / 16)), chr (Nat.digitChar (b.toNat % 16))]

/-- One byte of the path. -/
def escapeByte (b : UInt8) : Str :=
  if b = 47 then [chr '-']
  else if isAllowedByte b then [chr (Char.ofNat b.toNat)]
  else hexEscape b

/-- The first byte of the path, where a dot would make a hidden file. -/
def escapeFirstByte (b : UInt8) : Str :=
  if b = 46 then hexEscape b else escapeByte b

/-- `escape_path`. It raises on a path that has no UTF-8. -/
def escapePath (path : Str) : Option Str :=
  match collapse path with
  | [] => some [chr '-']
  | c :: s =>
      match encode (c :: s) with
      | none => none
      | some [] => some []
      | some (b :: bytes) => some (escapeFirstByte b ++ bytes.flatMap escapeByte)

/-- `unit_names`. -/
def unitNames (mountpoint : Str) : Option (Str × Str) :=
  (escapePath mountpoint).map fun escaped => (escaped ++ str ".mount", escaped ++ str ".automount")

/-- `mount_source`. -/
def mountSource (c : Connection) : Str :=
  str "//" ++ pyStr c.host ++ str "/" ++ pyStr c.share

/-- The account a connection's files appear as. -/
structure OwnerIds where
  uid : Nat
  gid : Nat
  deriving DecidableEq

/-- `mount_options`. -/
def mountOptions (ids : Option OwnerIds) (credentialsPath : Option Str) : Str :=
  join (str ",") <|
    [str "soft", str "_netdev", str "iocharset=utf8", str "file_mode=0755", str "dir_mode=0755"] ++
      (match credentialsPath with
        | some path => [str "credentials=" ++ path]
        | none => [str "guest"]) ++
      (match ids with
        | some ids =>
            [str "uid=" ++ digits ids.uid, str "forceuid", str "gid=" ++ digits ids.gid,
              str "forcegid"]
        | none => [])

/-- The first line of every unit SMBPal writes starts with it. -/
def marker : Str :=
  str "# Generated by SMBPal for connection "

/-- The text of a file, from its lines. -/
def unitText (lines : List Str) : Str :=
  lines.flatMap fun line => line ++ [chr '\n']

/-- `mount_unit`. -/
def mountUnit (c : Connection) (ids : Option OwnerIds) (credentialsPath : Option Str) : Str :=
  unitText
    [ marker ++ pyStr c.id ++ str ". Do not edit.",
      str "[Unit]",
      str "Description=SMBPal mount of " ++ mountSource c,
      str "# The remote is on the network but the automount means nothing waits for it:",
      str "# the mount happens on first access, not during boot (M0 §4).",
      str "After=network-online.target",
      str "Wants=network-online.target",
      [],
      str "[Mount]",
      str "What=" ++ mountSource c,
      str "Where=" ++ pyStr c.mountpoint,
      str "Type=cifs",
      str "Options=" ++ mountOptions ids credentialsPath ]

/-- `automount_unit`. -/
def automountUnit (c : Connection) : Str :=
  unitText
    [ marker ++ pyStr c.id ++ str ". Do not edit.",
      str "[Unit]",
      str "Description=SMBPal automount for " ++ pyStr c.mountpoint,
      [],
      str "[Automount]",
      str "Where=" ++ pyStr c.mountpoint,
      str "# TimeoutIdleSec is deliberately unset. M0 §4 watched a background desktop",
      str "# process re-trigger the automount 80 s after boot without the user touching",
      str "# anything, so idle unmounting cannot be relied on to happen at all.",
      [],
      str "[Install]",
      str "WantedBy=multi-user.target" ]

theorem digitChar_injective {m n : Nat} (hm : m < 16) (hn : n < 16)
    (h : Nat.digitChar m = Nat.digitChar n) : m = n := by
  have hall : ∀ a b : Fin 16, Nat.digitChar a = Nat.digitChar b → a = b := by decide
  exact congrArg Fin.val (hall ⟨m, hm⟩ ⟨n, hn⟩ h)

theorem hexEscape_injective {a b : UInt8} {r r' : Str} (h : hexEscape a ++ r = hexEscape b ++ r') :
    a = b := by
  simp only [hexEscape, List.cons_append, List.nil_append, List.cons.injEq, chr,
    PyChar.scalar.injEq, true_and] at h
  have ha := a.toNat_lt
  have hb := b.toNat_lt
  have hhigh := digitChar_injective (by omega) (by omega) h.1
  have hlow := digitChar_injective (by omega) (by omega) h.2.1
  apply UInt8.toNat_inj.mp
  omega

theorem toNat_ofNat_of_lt {n : Nat} (h : n < 0xD800) : (Char.ofNat n).toNat = n := by
  unfold Char.ofNat
  rw [dif_pos (Or.inl h)]
  rfl

theorem allowedByte_range {b : UInt8} (h : isAllowedByte b = true) :
    b.toNat < 0xD800 ∧ b.toNat ≠ 45 ∧ b.toNat ≠ 92 := by
  unfold isAllowedByte at h
  have := of_decide_eq_true h
  omega

/-- What the first letter of an escaped byte says about the byte. -/
theorem escapeByte_head {b : UInt8} {c : PyChar} {s r : Str} (h : escapeByte b ++ r = c :: s) :
    (c = chr '-' ∧ b = 47 ∧ r = s) ∨
    (c = chr '\\' ∧ escapeByte b = hexEscape b) ∨
    (c = chr (Char.ofNat b.toNat) ∧ isAllowedByte b = true) := by
  unfold escapeByte at h ⊢
  by_cases h47 : b = 47
  · rw [if_pos h47, List.cons_append, List.nil_append, List.cons.injEq] at h
    exact Or.inl ⟨h.1.symm, h47, h.2⟩
  · rw [if_neg h47] at h ⊢
    cases hb : isAllowedByte b with
    | true =>
        rw [hb, if_pos rfl, List.cons_append, List.nil_append, List.cons.injEq] at h
        exact Or.inr (Or.inr ⟨h.1.symm, rfl⟩)
    | false =>
        rw [hb, if_neg Bool.false_ne_true, hexEscape, List.cons_append, List.cons.injEq] at h
        exact Or.inr (Or.inl ⟨h.1.symm, if_neg Bool.false_ne_true⟩)

theorem escapeByte_ne_nil (b : UInt8) : escapeByte b ≠ [] := by
  unfold escapeByte hexEscape
  split_ifs <;> exact List.cons_ne_nil _ _

theorem chr_ofNat_ne {b : UInt8} (h : isAllowedByte b = true) :
    chr (Char.ofNat b.toNat) ≠ chr '-' ∧ chr (Char.ofNat b.toNat) ≠ chr '\\' := by
  rcases allowedByte_range h with ⟨hlt, h45, h92⟩
  refine ⟨fun heq => h45 ?_, fun heq => h92 ?_⟩ <;>
  · simp only [chr, PyChar.scalar.injEq] at heq
    rw [← toNat_ofNat_of_lt hlt, heq]
    rfl

/-- Escaped bytes can be told apart: by the first letter, and for two hex
    escapes by the digits. -/
theorem escapeByte_prefixCode : Lib.PrefixCode escapeByte where
  nonempty := escapeByte_ne_nil
  unique := by
    intro a b r r' heq
    rcases hcons : escapeByte a ++ r with _ | ⟨c, s⟩
    · exact absurd (List.append_eq_nil_iff.mp hcons).1 (escapeByte_ne_nil a)
    have ha := escapeByte_head hcons
    have hb := escapeByte_head (heq ▸ hcons)
    -- The first character says how the byte was written, and then which it was.
    rcases ha with ⟨hc, ha, -⟩ | ⟨hc, ha⟩ | ⟨hc, ha⟩
    · rcases hb with ⟨-, hb, -⟩ | ⟨hc', -⟩ | ⟨hc', hb⟩
      · rw [ha, hb]
      · rw [hc] at hc'
        exact absurd hc' (by decide)
      · exact absurd (hc'.symm.trans hc) (chr_ofNat_ne hb).1
    · rcases hb with ⟨hc', -, -⟩ | ⟨-, hb⟩ | ⟨hc', hb⟩
      · rw [hc] at hc'
        exact absurd hc' (by decide)
      · rw [ha, hb] at heq
        exact hexEscape_injective heq
      · exact absurd (hc'.symm.trans hc) (chr_ofNat_ne hb).2
    · rcases hb with ⟨hc', -, -⟩ | ⟨hc', -⟩ | ⟨hc', hb⟩
      · exact absurd (hc.symm.trans hc') (chr_ofNat_ne ha).1
      · exact absurd (hc.symm.trans hc') (chr_ofNat_ne ha).2
      · have hchar := hc.symm.trans hc'
        simp only [chr, PyChar.scalar.injEq] at hchar
        apply UInt8.toNat_inj.mp
        rw [← toNat_ofNat_of_lt (allowedByte_range ha).1,
          ← toNat_ofNat_of_lt (allowedByte_range hb).1, hchar]

/-- A dot in front is the hex escape, which no other byte in front is. -/
theorem escapeFirstByte_prefixCode : Lib.PrefixCode escapeFirstByte where
  nonempty := by
    intro b
    unfold escapeFirstByte hexEscape
    split_ifs
    · exact List.cons_ne_nil _ _
    · exact escapeByte_ne_nil b
  unique := by
    -- A dot in front is written in hex, and no other byte is written as that.
    have hdot : ∀ b r r', b ≠ 46 → hexEscape 46 ++ r ≠ escapeByte b ++ r' := by
      intro b r r' hb heq
      rcases escapeByte_head heq.symm with ⟨hc, -, -⟩ | ⟨-, hhex⟩ | ⟨hc, hb'⟩
      · exact absurd hc (by decide)
      · rw [hhex] at heq
        exact hb (hexEscape_injective heq).symm
      · exact (chr_ofNat_ne hb').2 hc.symm
    intro a b r r' heq
    unfold escapeFirstByte at heq
    by_cases ha : a = 46
    · by_cases hb : b = 46
      · rw [ha, hb]
      · rw [if_pos ha, if_neg hb, ha] at heq
        exact absurd heq (hdot b r r' hb)
    · by_cases hb : b = 46
      · rw [if_neg ha, if_pos hb, hb] at heq
        exact absurd heq.symm (hdot a r' r ha)
      · rw [if_neg ha, if_neg hb] at heq
        exact escapeByte_prefixCode.unique a b r r' heq

theorem collapse_head {path s : Str} {c : PyChar} (h : collapse path = c :: s) : c ≠ chr '/' :=
  of_decide_eq_false (stripWhile_head h)

/-- The first byte of a path that does not start with a slash is no slash. -/
theorem encode_head {s : Str} {c : PyChar} {b : UInt8} {bytes : List UInt8}
    (h : encode (c :: s) = some (b :: bytes)) (hc : c ≠ chr '/') : b ≠ 47 := by
  rintro rfl
  simp only [encode, Option.map_eq_some_iff] at h
  rcases h with ⟨cs, hcs, hbytes⟩
  cases c with
  | surrogate n => exact absurd hcs (by simp only [scalars, reduceCtorEq, not_false_eq_true])
  | scalar c =>
      simp only [scalars, Option.map_eq_some_iff] at hcs
      rcases hcs with ⟨rest, -, rfl⟩
      refine hc (congrArg PyChar.scalar ?_)
      refine utf8EncodeChar_prefixCode.unique c '/' (rest.flatMap String.utf8EncodeChar) bytes ?_
      rw [List.flatMap_cons] at hbytes
      rw [hbytes]
      rfl

theorem encode_cons_ne_nil {s : Str} {c : PyChar} : encode (c :: s) ≠ some [] := by
  intro h
  have hnil : encode [] = some [] := rfl
  exact List.cons_ne_nil _ _ (encode_injective h hnil)

/-- The escape of a path that is not empty. -/
theorem escapePath_cons {path s e : Str} {c : PyChar} (hpath : collapse path = c :: s)
    (h : escapePath path = some e) :
    ∃ b bytes, encode (collapse path) = some (b :: bytes) ∧ b ≠ 47 ∧
      e = escapeFirstByte b ++ bytes.flatMap escapeByte := by
  unfold escapePath at h
  rw [hpath] at h
  dsimp only at h
  split at h
  · exact nomatch h
  · rename_i hnil
    exact absurd hnil encode_cons_ne_nil
  · rename_i b bytes henc
    rw [Option.some.injEq] at h
    exact ⟨b, bytes, hpath ▸ henc, encode_head henc (collapse_head hpath), h.symm⟩

theorem escapePath_nil {path : Str} (hpath : collapse path = []) :
    escapePath path = some [chr '-'] := by
  unfold escapePath
  rw [hpath]

/-- Only the empty path escapes to a single dash. -/
theorem escapePath_cons_ne {path s e : Str} {c : PyChar} (hpath : collapse path = c :: s)
    (h : escapePath path = some e) : e ≠ [chr '-'] := by
  rintro rfl
  rcases escapePath_cons hpath h with ⟨b, bytes, -, hb, he⟩
  have hslash : escapeFirstByte 47 = [chr '-'] := by decide
  refine hb (escapeFirstByte_prefixCode.unique b 47 (bytes.flatMap escapeByte) [] ?_)
  rw [← he, hslash]
  rfl

/-- The kernel of the escaping: two paths that can be escaped get one name
    exactly when they are the same after `collapse`. -/
theorem escapePath_eq_iff {p q e e' : Str} (hp : escapePath p = some e)
    (hq : escapePath q = some e') : e = e' ↔ collapse p = collapse q := by
  constructor
  · rintro rfl
    rcases hcp : collapse p with _ | ⟨c, s⟩
    · rcases hcq : collapse q with _ | ⟨d, t⟩
      · rfl
      · rw [escapePath_nil hcp, Option.some.injEq] at hp
        exact absurd hp.symm (escapePath_cons_ne hcq hq)
    · rcases hcq : collapse q with _ | ⟨d, t⟩
      · rw [escapePath_nil hcq, Option.some.injEq] at hq
        exact absurd hq.symm (escapePath_cons_ne hcp hp)
      · -- The escapes are a prefix code, so the bytes behind them are the same.
        rcases escapePath_cons hcp hp with ⟨a, as, hencp, -, hep⟩
        rcases escapePath_cons hcq hq with ⟨b, bs, hencq, -, heq⟩
        rcases escapeFirstByte_prefixCode.flatMap_cons_injective escapeByte_prefixCode
          (hep.symm.trans heq) with ⟨rfl, rfl⟩
        rw [← hcp, ← hcq]
        exact encode_injective hencp hencq
  · intro h
    unfold escapePath at hp hq
    rw [h, hq, Option.some.injEq] at hp
    exact hp.symm

/-- A path has a UTF-8 exactly when it has one with its slashes collapsed. -/
theorem isPlain_collapse (path : Str) : IsPlain (collapse path) ↔ IsPlain path := by
  refine forall_congr' fun c => ?_
  cases c with
  | scalar d => exact iff_of_true (fun _ => ⟨d, rfl⟩) fun _ => ⟨d, rfl⟩
  | surrogate n =>
      have hslash : decide (PyChar.surrogate n = chr '/') = false := rfl
      have hne : PyChar.surrogate n ≠ chr '/' := fun h => nomatch h
      rw [collapse, stripChar, mem_stripWhile hslash, mem_replaceRuns hslash hne]

/-- A mountpoint has unit names exactly when it has a UTF-8. -/
theorem unitNames_isSome_iff (mountpoint : Str) :
    (unitNames mountpoint).isSome = true ↔ IsPlain mountpoint := by
  rw [unitNames, Option.isSome_map, ← isPlain_collapse]
  rcases hpath : collapse mountpoint with _ | ⟨c, s⟩
  · rw [escapePath_nil hpath]
    exact iff_of_true rfl fun c hc => absurd hc List.not_mem_nil
  · constructor
    · intro h
      rcases Option.isSome_iff_exists.mp h with ⟨e, he⟩
      rcases escapePath_cons hpath he with ⟨b, bytes, henc, -⟩
      exact isPlain_of_encode (hpath ▸ henc)
    · intro h
      rcases h.encodes with ⟨bytes, henc⟩
      unfold escapePath
      rw [hpath]
      dsimp only
      rw [henc]
      cases bytes with
      | nil => rfl
      | cons b bytes => rfl

/-- A mount unit is never named as an automount unit. -/
theorem mount_ne_automount (e e' : Str) : e ++ str ".mount" ≠ e' ++ str ".automount" := by
  intro h
  have hsplit : str ".automount" = str ".aut" ++ str "omount" := by decide
  rw [hsplit, ← List.append_assoc] at h
  exact absurd (List.append_inj_right' h (by decide)) (by decide)

/-- Two mountpoints share a unit exactly when they are the same after
    `collapse`, and then they share both. -/
theorem unitNames_eq_iff {p q : Str} {n m : Str × Str} (hp : unitNames p = some n)
    (hq : unitNames q = some m) :
    (n = m ↔ collapse p = collapse q) ∧ (n.1 = m.1 ↔ n = m) ∧ (n.2 = m.2 ↔ n = m) ∧
      n.1 ≠ m.2 ∧ n.2 ≠ m.1 := by
  simp only [unitNames, Option.map_eq_some_iff] at hp hq
  rcases hp with ⟨e, he, rfl⟩
  rcases hq with ⟨e', he', rfl⟩
  simp only [Prod.mk.injEq, List.append_cancel_right_eq, escapePath_eq_iff he he', and_self]
  exact ⟨trivial, trivial, trivial, mount_ne_automount e e', (mount_ne_automount e' e).symm⟩

end Smbpal
