import Mathlib.Data.Fintype.EquivFin

/-!
# Permission Classes

Who may do something to a file that has an owner, a group and three settings: the owner by
the first, the members of the group by the second, everybody else by the third, and one
user always. The first class a user is in decides, also where a later one allows more.

Giving the file to another owner and group moves users between the classes. Whether
somebody gains by it depends on the three settings and the two groups alone.

## Main definitions

* `Permissions`: An owner, a group and the three settings.
* `Permissions.allows`: Whether they let a user do it.
* `Permissions.handTo`: Another owner and group.
* `Permissions.widen`: The owner may do it.

## Theorems

* `allows_widen_of_ne`: Widening gives nobody but the owner anything.
* `handTo_iff`: When handing over gives nobody but the new owner anything.
-/

namespace Smbpal.Lib

/-- An owner, a group, and what the owner, its members and the others may do. -/
structure Permissions (υ γ : Type) where
  owner : υ
  group : γ
  ownerMay : Bool
  groupMay : Bool
  othersMay : Bool

namespace Permissions

variable {υ γ : Type}

/-- Another owner and group. -/
def handTo (p : Permissions υ γ) (owner : υ) (group : γ) : Permissions υ γ :=
  { p with
    owner := owner
    group := group }

/-- The owner may do it. -/
def widen (p : Permissions υ γ) : Permissions υ γ :=
  { p with ownerMay := true }

variable [DecidableEq υ] [DecidableEq γ]

/-- Whether a user of these groups may do it. -/
def allows (root : υ) (p : Permissions υ γ) (user : υ) (groups : List γ) : Bool :=
  if user = root then true
  else if p.owner = user then p.ownerMay
  else if p.group ∈ groups then p.groupMay
  else p.othersMay

variable {root user owner : υ} {group : γ} {groups : List γ} {p : Permissions υ γ}

theorem allows_root : p.allows root root groups = true :=
  if_pos rfl

theorem allows_owner (hroot : p.owner ≠ root) : p.allows root p.owner groups = p.ownerMay := by
  rw [allows, if_neg hroot, if_pos rfl]

/-- Who is neither root nor the owner has what the groups decide. -/
theorem allows_of_ne (hroot : user ≠ root) (howner : p.owner ≠ user) :
    p.allows root user groups = if p.group ∈ groups then p.groupMay else p.othersMay := by
  rw [allows, if_neg hroot, if_neg howner]

theorem allows_handTo (hroot : user ≠ root) (howner : user ≠ owner) :
    (p.handTo owner group).allows root user groups =
      if group ∈ groups then p.groupMay else p.othersMay :=
  allows_of_ne (p := p.handTo owner group) hroot (Ne.symm howner)

/-- The owner may do it after a widening. -/
theorem allows_widen_owner : p.widen.allows root p.owner groups = true := by
  by_cases hroot : p.owner = root
  · rw [hroot]
    exact allows_root
  · exact allows_owner (p := p.widen) hroot

/-- Nobody else gains anything by it. -/
theorem allows_widen_of_ne (h : p.owner ≠ user) :
    p.widen.allows root user groups = p.allows root user groups := by
  unfold allows
  rw [if_neg h, if_neg (show p.widen.owner ≠ user from h)]
  rfl

/-- Handing over gives nobody but the new owner anything exactly where the old owner has
    what the others have, or is root, and the groups are one or weigh nothing. -/
theorem handTo_iff [Infinite υ] (howner : p.owner ≠ owner) :
    (∀ user groups, user ≠ owner → (p.handTo owner group).allows root user groups = true →
      p.allows root user groups = true) ↔
      (p.owner = root ∨ p.ownerMay = true ∨ p.groupMay = false ∧ p.othersMay = false) ∧
        (p.group = group ∨ p.groupMay = p.othersMay) := by
  constructor
  · intro h
    constructor
    · by_cases hroot : p.owner = root
      · exact Or.inl hroot
      refine Or.inr ?_
      by_cases hmay : p.ownerMay = true
      · exact Or.inl hmay
      -- what the old owner lacks, no class may have that it can fall into
      have hnot : ∀ groups : List γ,
          ¬(if group ∈ groups then p.groupMay else p.othersMay) = true := by
        intro groups hallows
        rw [← allows_handTo hroot howner] at hallows
        have hbefore := h p.owner groups howner hallows
        rw [allows_owner hroot] at hbefore
        exact hmay hbefore
      have hmember := hnot [group]
      have hothers := hnot []
      rw [if_pos List.mem_cons_self] at hmember
      rw [if_neg List.not_mem_nil] at hothers
      exact Or.inr ⟨eq_false_of_ne_true hmember, eq_false_of_ne_true hothers⟩
    · by_cases hgroup : p.group = group
      · exact Or.inl hgroup
      refine Or.inr (Bool.eq_iff_iff.mpr ?_)
      -- somebody who is none of the three, and a member of one of the groups only
      rcases Infinite.exists_notMem_finset {root, p.owner, owner} with ⟨user, huser⟩
      rw [Finset.mem_insert, Finset.mem_insert, Finset.mem_singleton, not_or, not_or] at huser
      rcases huser with ⟨hroot, hbefore, hafter⟩
      have hgain : ∀ groups : List γ, (if group ∈ groups then p.groupMay else p.othersMay) = true →
          (if p.group ∈ groups then p.groupMay else p.othersMay) = true := by
        intro groups hallows
        rw [← allows_handTo hroot hafter] at hallows
        rw [← allows_of_ne hroot (Ne.symm hbefore)]
        exact h user groups hafter hallows
      have hnew := hgain [group]
      have hold := hgain [p.group]
      rw [if_pos List.mem_cons_self, if_neg (fun h => hgroup (List.mem_singleton.mp h))] at hnew
      rw [if_neg (fun h => hgroup (List.mem_singleton.mp h).symm),
        if_pos List.mem_cons_self] at hold
      exact ⟨hnew, hold⟩
  · rintro ⟨hold, hgroups⟩ user groups huser hallows
    by_cases hroot : user = root
    · rw [hroot]
      exact allows_root
    rw [allows_handTo hroot huser] at hallows
    by_cases hbefore : p.owner = user
    · subst hbefore
      rw [allows_owner hroot]
      rcases hold with h | h | ⟨hgroup, hothers⟩
      · exact absurd h hroot
      · exact h
      · rw [hgroup, hothers, ite_self] at hallows
        exact nomatch hallows
    · rw [allows_of_ne hroot hbefore]
      rcases hgroups with h | h
      · rw [h]
        exact hallows
      · rw [h, ite_self] at hallows ⊢
        exact hallows

end Permissions

end Smbpal.Lib
