import Smbpal.Helper.Inspect
import Smbpal.Lib.CScan

/-!
# The Hash List of an Account

`hashlist_has_smb_nt` in `helper/smbpal-helper.c`: whether `SMB-NT` is in the list of hashes that
the directory service's text has for an account. The text is anything; the list is what stands
between the first `HASHLIST:<` and the `>` after it, and its items stand between commas.

The pointers are positions in the text. The answer is there for every text, so nothing behind the
zero at its end is read and the loop ends (`hashlist_has_smb_nt_iff`).

## Main definitions

* `hashlistHasSmbNt`: `hashlist_has_smb_nt`.
* `ListsSmbNt`: That the first list of a text has the item.

## Theorems

* `itemsFrom_spec`: The loop over the items of a list.
* `hashlist_has_smb_nt_iff`: What the answer is.
-/

namespace Smbpal

open Lib

section HashList

/-- The zero at the end of a text of bytes. -/
@[reducible] def nulByte : Zero UInt8 :=
  ⟨0⟩

attribute [local instance] nulByte

/-- `"HASHLIST:<"`. -/
def hashlistMarker : List UInt8 :=
  cBytes "HASHLIST:<"

/-- `"SMB-NT"`. -/
def smbNt : List UInt8 :=
  cBytes "SMB-NT"

/-- `(size_t)(stop - item) == strlen("SMB-NT") &&
    strncmp(item, "SMB-NT", strlen("SMB-NT")) == 0`. -/
def isSmbNt (text : List UInt8) (item stop : Nat) : Option Bool :=
  if stop - item = smbNt.length then startsAt text item smbNt else pure false

/-- The loop of `hashlist_has_smb_nt`, with so many turns. -/
def itemsFrom (text : List UInt8) (ends : Nat) : Nat → Nat → Option Nat
  | 0, _ => none
  | turns + 1, item =>
      if item < ends then do
        let comma ← memchr text 44 item (ends - item)
        let stop := comma.getD ends
        let same ← isSmbNt text item stop
        if same then pure 1 else itemsFrom text ends turns (stop + 1)
      else pure 0

/-- What `hashlist_has_smb_nt` does with a list and the end it found. -/
def answerFrom (text : List UInt8) (list : Nat) : Option Nat → Option Nat
  | none => pure 0
  | some ends => itemsFrom text ends (text.length + 1) (list + hashlistMarker.length)

/-- What it does with the list it found. -/
def listFrom (text : List UInt8) : Option Nat → Option Nat
  | none => pure 0
  | some list => do
      let ends ← strchr text 62 (text.length + 1) list
      answerFrom text list ends

/-- `hashlist_has_smb_nt`. No value is a read past the end of the text, or a loop that goes on. -/
def hashlistHasSmbNt (text : List UInt8) : Option Nat := do
  let list ← strstr text hashlistMarker (text.length + 1) 0
  listFrom text list

/-- The text has a list, and the first one has `SMB-NT` among its items. -/
def ListsSmbNt (text : List UInt8) : Prop :=
  ∃ before list after, text = before ++ (hashlistMarker ++ (list ++ 62 :: after)) ∧
    (∀ k < before.length, ¬hashlistMarker <+: text.drop k) ∧ 62 ∉ list ∧
      smbNt ∈ list.splitOn 44

variable {text a piece b : List UInt8}

/-- An item is compared as a whole. -/
theorem isSmbNt_item (htext : text = a ++ (piece ++ b)) :
    isSmbNt text a.length (a.length + piece.length) = some (decide (piece = smbNt)) := by
  have hlen : a.length + piece.length - a.length = piece.length := by omega
  unfold isSmbNt
  rw [hlen]
  -- The length is compared first, so the bytes that are compared are all there.
  by_cases hsize : piece.length = smbNt.length
  · have hin : a.length ≤ text.length := by
      rw [htext, List.length_append]
      omega
    have hdrop : text.drop a.length = piece ++ b := by
      rw [htext, List.drop_left]
    rw [if_pos hsize, startsAt_eq (by decide) hin, hdrop]
    refine congrArg some (decide_eq_decide.mpr ⟨fun h => ?_, fun h => ?_⟩)
    · have hstarts := List.prefix_of_prefix_length_le h (List.prefix_append piece b)
        (Nat.le_of_eq hsize.symm)
      exact (hstarts.eq_of_length hsize.symm).symm
    · rw [h]
      exact List.prefix_append smbNt b
  · have hne : piece ≠ smbNt := fun h => hsize (h ▸ rfl)
    rw [if_neg hsize, decide_eq_false hne]
    rfl

/-- The loop says whether the item is among those of what is left of the list. -/
theorem itemsFrom_spec {list after : List UInt8} {turns : Nat}
    (htext : text = a ++ (list ++ 62 :: after)) (hturns : list.length < turns) :
    itemsFrom text (a.length + list.length) turns a.length =
      some (if smbNt ∈ list.splitOn 44 then 1 else 0) := by
  induction turns generalizing a list with
  | zero => omega
  | succ turns ih =>
      rw [itemsFrom]
      by_cases hnil : list = []
      · subst hnil
        rw [if_neg (by simp only [List.length_nil]; omega)]
        rfl
      · have hpos : 0 < list.length := List.length_pos_of_ne_nil hnil
        have hleft : a.length + list.length - a.length = list.length := by omega
        rw [if_pos (by omega), hleft]
        by_cases hcomma : (44 : UInt8) ∈ list
        · -- The item ends at a comma, and the others stand behind it.
          rcases List.eq_append_cons_of_mem hcomma with ⟨piece, rest, rfl, hpiece⟩
          have htext' : text = a ++ (piece ++ 44 :: (rest ++ 62 :: after)) := by
            rw [htext, List.append_assoc, List.cons_append]
          have hlen : (piece ++ 44 :: rest).length = piece.length + (rest.length + 1) := by
            rw [List.length_append, List.length_cons]
          have hfound : memchr text 44 a.length (piece ++ 44 :: rest).length =
              some (some (a.length + piece.length)) := by
            rw [hlen, htext']
            exact memchr_eq_some_some hpiece rest.length
          have hsplit : (piece ++ 44 :: rest).splitOn 44 = piece :: rest.splitOn 44 :=
            List.splitOn_append_cons_self_of_not_mem hpiece rest
          have hrest : text = (a ++ (piece ++ [44])) ++ (rest ++ 62 :: after) := by
            rw [htext']
            simp only [List.append_assoc, List.singleton_append]
          have hsize : (a ++ (piece ++ [44])).length = a.length + piece.length + 1 := by
            simp only [List.length_append, List.length_singleton]
            omega
          have hnext := ih hrest (by omega)
          rw [hsize] at hnext
          have hends : a.length + (piece ++ 44 :: rest).length =
              a.length + piece.length + 1 + rest.length := by
            omega
          rw [hfound, hsplit]
          change (isSmbNt text a.length (a.length + piece.length) >>= _) = _
          rw [isSmbNt_item htext', hends]
          by_cases hsame : piece = smbNt
          · rw [decide_eq_true hsame, if_pos (hsame ▸ List.mem_cons_self)]
            rfl
          · have hmem : smbNt ∈ piece :: rest.splitOn 44 ↔ smbNt ∈ rest.splitOn 44 := by
              rw [List.mem_cons]
              exact or_iff_right (Ne.symm hsame)
            rw [decide_eq_false hsame, if_congr hmem rfl rfl]
            exact hnext
        · -- It is the last one.
          have hfound : memchr text 44 a.length list.length = some none := by
            rw [htext]
            exact memchr_eq_some_none hcomma
          have hsplit : list.splitOn 44 = [list] := List.splitOn_eq_singleton hcomma
          rw [hfound, hsplit]
          change (isSmbNt text a.length (a.length + list.length) >>= _) = _
          rw [isSmbNt_item htext]
          by_cases hsame : list = smbNt
          · rw [decide_eq_true hsame, if_pos (hsame ▸ List.mem_cons_self)]
            rfl
          · have hnot : smbNt ∉ [list] := fun h => hsame (List.mem_singleton.mp h).symm
            rw [decide_eq_false hsame, if_neg hnot]
            cases turns with
            | zero => omega
            | succ turns =>
                change itemsFrom text (a.length + list.length) (turns + 1)
                  (a.length + list.length + 1) = some 0
                rw [itemsFrom, if_neg (by omega)]
                rfl

/-- There is one first marker. -/
theorem first_unique {before before' rest rest' : List UInt8}
    (htext : text = before ++ (hashlistMarker ++ rest))
    (htext' : text = before' ++ (hashlistMarker ++ rest'))
    (hfirst : ∀ k < before.length, ¬hashlistMarker <+: text.drop k)
    (hfirst' : ∀ k < before'.length, ¬hashlistMarker <+: text.drop k) : rest = rest' := by
  have hhere : hashlistMarker <+: text.drop before.length := by
    rw [htext, List.drop_left]
    exact List.prefix_append _ _
  have hthere : hashlistMarker <+: text.drop before'.length := by
    rw [htext', List.drop_left]
    exact List.prefix_append _ _
  have hsame : before.length = before'.length := by
    rcases Nat.lt_trichotomy before.length before'.length with hlt | heq | hgt
    · exact absurd hhere (hfirst' _ hlt)
    · exact heq
    · exact absurd hthere (hfirst _ hgt)
  exact List.append_cancel_left (List.append_inj (htext.symm.trans htext') hsame).2

/-- Where the first list of a text stands, its items are the ones that count. -/
theorem listsSmbNt_iff {before list after : List UInt8}
    (htext : text = before ++ (hashlistMarker ++ (list ++ 62 :: after)))
    (hfirst : ∀ k < before.length, ¬hashlistMarker <+: text.drop k) (hlist : 62 ∉ list) :
    ListsSmbNt text ↔ smbNt ∈ list.splitOn 44 := by
  constructor
  · rintro ⟨before', list', after', htext', hfirst', hlist', hmem⟩
    have hrest := first_unique htext htext' hfirst hfirst'
    rw [(piece_unique hlist hlist' hrest).1]
    exact hmem
  · intro hmem
    exact ⟨before, list, after, htext, hfirst, hlist, hmem⟩

/-- The answer is one when the first list of the text has the item, and else zero; there is one for
    every text. -/
theorem hashlist_has_smb_nt_iff (text : CString) : ∃ answer,
    hashlistHasSmbNt text.bytes = some answer ∧ (answer = 1 ∨ answer = 0) ∧
      (answer = 1 ↔ ListsSmbNt text.bytes) := by
  have hnul := text.no_nul
  generalize text.bytes = text at hnul
  have hmarker : (0 : UInt8) ∉ hashlistMarker := by decide
  have hne : hashlistMarker ≠ [] := by decide
  unfold hashlistHasSmbNt
  rcases strstr_spec hne hmarker hnul (Nat.zero_le _) (Nat.lt_succ_self text.length) with
    ⟨hnone, hnot⟩ | ⟨j, hj, -, hhere, hfirst⟩
  · -- There is no list.
    refine ⟨0, by rw [hnone]; rfl, Or.inr rfl, iff_of_false (by decide) ?_⟩
    rintro ⟨before, list, after, htext, -, -, -⟩
    refine hnot before.length (Nat.zero_le _) ?_
    rw [htext, List.drop_left]
    exact List.prefix_append _ _
  · rw [hj]
    rcases hhere with ⟨rest, hrest⟩
    have htext : text = text.take j ++ (hashlistMarker ++ rest) := by
      rw [hrest, List.take_append_drop]
    have hlen : (text.take j).length = j := by
      rw [List.length_take]
      refine Nat.min_eq_left (Nat.le_of_lt ?_)
      by_contra hout
      rw [List.drop_eq_nil_of_le (by omega)] at hrest
      exact hne (List.append_eq_nil_iff.mp hrest).1
    generalize text.take j = before at htext hlen
    subst hlen
    have hfirst' : ∀ k < before.length, ¬hashlistMarker <+: text.drop k := fun k hk =>
      hfirst k (Nat.zero_le _) hk
    have hturns : (hashlistMarker ++ rest).length < text.length + 1 := by
      have hsize := congrArg List.length htext
      rw [List.length_append] at hsize
      omega
    have hzero : (0 : UInt8) ∉ hashlistMarker ++ rest := fun h =>
      hnul (htext ▸ List.mem_append_right before h)
    change ∃ answer, (strchr text 62 (text.length + 1) before.length >>=
      answerFrom text before.length) = some answer ∧ _
    have hends := @strchr_spec UInt8 _ _ 62 before _ (by decide) hzero _ hturns
    rw [← htext] at hends
    rcases hends with ⟨hopen, hfound⟩ | ⟨piece, after, hsplit, hpiece, hfound⟩
    · -- The list has no end.
      refine ⟨0, by rw [hfound]; rfl, Or.inr rfl, iff_of_false (by decide) ?_⟩
      rintro ⟨before', list, after, htext', hfirst'', -, -⟩
      have hsame := first_unique htext htext' hfirst' hfirst''
      refine hopen (List.mem_append_right _ ?_)
      rw [hsame]
      exact List.mem_append_right list List.mem_cons_self
    · have hstart : hashlistMarker <+: piece := by
        rcases List.append_eq_append_iff.mp hsplit with ⟨l, hl, -⟩ | ⟨l, hl, hafter⟩
        · exact ⟨l, hl.symm⟩
        · cases l with
          | nil => exact ⟨[], by rw [List.append_nil, hl, List.append_nil]⟩
          | cons d l =>
              have hmem : (62 : UInt8) ∈ hashlistMarker := by
                rw [hl, (List.cons.inj hafter).1]
                exact List.mem_append_right piece List.mem_cons_self
              exact absurd hmem (by decide)
      rcases hstart with ⟨list, rfl⟩
      rw [List.append_assoc] at hsplit
      have hrest := List.append_cancel_left hsplit
      subst hrest
      have hlist : (62 : UInt8) ∉ list := fun h => hpiece (List.mem_append_right _ h)
      have hitems : text = (before ++ hashlistMarker) ++ (list ++ 62 :: after) := by
        rw [htext, List.append_assoc]
      have hlong : list.length < text.length + 1 := by
        have hsize := congrArg List.length hitems
        simp only [List.length_append] at hsize
        omega
      have hloop := itemsFrom_spec hitems hlong
      rw [List.length_append] at hloop
      have hends : before.length + (hashlistMarker ++ list).length =
          before.length + hashlistMarker.length + list.length := by
        rw [List.length_append]
        omega
      rw [listsSmbNt_iff htext hfirst' hlist, hfound]
      change ∃ answer, itemsFrom text (before.length + (hashlistMarker ++ list).length)
        (text.length + 1) (before.length + hashlistMarker.length) = some answer ∧ _
      rw [hends, hloop]
      by_cases hmem : smbNt ∈ list.splitOn 44
      · exact ⟨1, by rw [if_pos hmem], Or.inl rfl, iff_of_true rfl hmem⟩
      · exact ⟨0, by rw [if_neg hmem], Or.inr rfl, iff_of_false (by decide) hmem⟩

/-- An item that only starts so, and a list without an end. -/
example : hashlistHasSmbNt (cBytes ";ShadowHash;HASHLIST:<SMB-NTLMv2,SMB>") = some 0 ∧
    hashlistHasSmbNt (cBytes ";ShadowHash;HASHLIST:<SMB-NT") = some 0 := by
  decide +kernel

end HashList

end Smbpal
