import Mathlib.Data.List.Sort
import Smbpal.Daemon.Authoriser
import Smbpal.Lib.Permissions

/-!
# Who May Write to a Directory

`shares/ownership.py`: whether the account that a share is served as can write to its
directory, and `make_writable`, which gives the directory to that account and to the lowest
of its groups and sets the owner's bits.

The bits of the group and of the others stay, but not the people they are for: the
directory changes its group as well as its owner. Who was in the old group falls among the
others, who is in the new one comes out of them, and the old owner falls into one of the
two. Where the bits of these differ, somebody gains (`group_gains`).

## Main definitions

* `writableBy`: `_writable_by`.
* `makeWritable`: `make_writable`.
* `WritableForOne`: That the account can write, and nobody gains.
* `NobodyMoved`: When nobody does.

## Theorems

* `writableBy_eq`: `_writable_by` goes by the permission classes.
* `makeWritable_ok`: The directory after `make_writable`.
* `makeWritable_only_iff`: When it gives nobody else write access.
-/

namespace Smbpal

open Lib

section Inspect

/-- `stat.S_IRWXU` and the bits of the three classes. -/
def sIRWXU : Nat := 0o700
def sIWUSR : Nat := 0o200
def sIXUSR : Nat := 0o100
def sIWGRP : Nat := 0o020
def sIXGRP : Nat := 0o010
def sIWOTH : Nat := 0o002
def sIXOTH : Nat := 0o001

/-- `stat.S_IMODE`. -/
def sIMODE (mode : Nat) : Nat :=
  mode &&& 0o7777

/-- `stat.S_ISDIR`. -/
def sISDIR (mode : Nat) : Bool :=
  decide (mode &&& 0o170000 = 0o040000)

/-- `bool(mode & bit)`. -/
def hasBit (mode bit : Nat) : Bool :=
  decide (mode &&& bit ≠ 0)

/-- `os.stat_result`: whose it is, and its mode. -/
structure Stat where
  uid : Nat
  gid : Nat
  mode : Nat

/-- `_writable_by`. -/
def writableBy (uid gid mode : Nat) (identity : ServingIdentity) : Bool :=
  if identity.uid = 0 then true
  else if uid = identity.uid then hasBit mode sIWUSR && hasBit mode sIXUSR
  else if gid ∈ identity.gids then hasBit mode sIWGRP && hasBit mode sIXGRP
  else hasBit mode sIWOTH && hasBit mode sIXOTH

/-- `DirectoryStatus`. -/
structure DirectoryStatus where
  path : Str
  exists_ : Bool
  isDir : Bool
  ownerUid : Option Nat
  ownerGid : Option Nat
  mode : Option Nat
  writable : Option Bool
  ownerName : Option Str
  whyNotWritable : Option Str
  fixable : Bool

/-- `{mode:04o}`. -/
def octal (mode : Nat) : Str :=
  ((Nat.toDigits 8 mode).leftpad 4 '0').map .scalar

/-- `_why_not`. -/
def whyNot (path : Str) (ownerUid mode : Nat) (identity : ServingIdentity)
    (ownerName : Option Str) : Str :=
  let mode := sIMODE mode
  if ownerUid ≠ identity.uid then
    path ++ str " belongs to " ++ pyStr ownerName ++ str ", not to " ++ identity.username ++
      str ", and its mode (" ++ octal mode ++ str ") does not grant " ++ identity.username ++
      str " write access"
  else
    path ++ str " belongs to " ++ identity.username ++ str " but its mode (" ++ octal mode ++
      str ") does not include write permission for the owner"

/-- What the helper says of an access entry for an account. -/
inductive AclAccess where
  | allow
  | deny
  | nothing
  deriving DecidableEq

/-- Whether it is writable, and the reason an access entry gives. -/
def writableWhy (path : Str) (uid gid mode : Nat) (identity : Option ServingIdentity)
    (hasAcl : Bool) (access : Option AclAccess) : Option Bool × Option Str :=
  match identity with
  | none => (none, none)
  | some identity =>
      match access with
      | some .allow => (some true, none)
      | some .deny =>
          (some false, some (path ++ str " has an access entry that denies " ++
            identity.username ++ str " — somebody set it on purpose, so SMBPal leaves it alone"))
      | some .nothing => (some (writableBy uid gid mode identity), none)
      | none =>
          if hasAcl then (none, none) else (some (writableBy uid gid mode identity), none)

/-- `describe`. -/
def describeDirectory (path : Str) (uid gid mode : Nat) (ownerName : Option Str)
    (identity : Option ServingIdentity) (hasAcl : Bool) (access : Option AclAccess) :
    DirectoryStatus :=
  let writable := (writableWhy path uid gid mode identity hasAcl access).1
  let why := (writableWhy path uid gid mode identity hasAcl access).2
  { path := path
    exists_ := true
    isDir := sISDIR mode
    ownerUid := some uid
    ownerGid := some gid
    mode := some (sIMODE mode)
    writable := writable
    ownerName := ownerName
    whyNotWritable :=
      match why, identity, writable with
      | some why, _, _ => some why
      | none, some identity, some false => some (whyNot path uid mode identity ownerName)
      | _, _, _ => none
    fixable := decide (access ≠ some .deny) }

/-- What a call of the system raises. -/
inductive SystemFailure where
  | permission (detail : Str)
  | os (detail : Str)
  | other

/-- What the system answers. -/
structure OwnershipEnv where
  /-- The readings of the directory, one after another. -/
  stat : Nat → Option SystemFailure
  /-- `pwd.getpwuid`. -/
  userName : Nat → Option Str
  chown : Option SystemFailure
  chmod : Option SystemFailure

/-- What these functions raise. -/
inductive OwnershipFailure where
  /-- `NotFound`. -/
  | notFound (message : Str) (detail : Option Str)
  /-- `OwnershipError`. -/
  | ownership (message : Str) (detail : Option Str)
  /-- An exception of Python's. -/
  | other

/-- `serving_identity`, with the accounts and their groups, and the groups and their members. -/
def servingIdentityOf [Unicode] (passwd : Str → Option (Nat × Nat)) (groups : List (Nat × List Str))
    (username : Str) : Except OwnershipFailure ServingIdentity :=
  match passwd username with
  | none =>
      .error (.notFound (str "there is no system account called " ++ repr username)
        (some (str "Phase 1 serves as an existing user (§3b).")))
  | some (uid, gid) =>
      let others := groups.filter fun group => decide (username ∈ group.2)
      .ok { username := username, uid := uid, gids := (gid :: others.map Prod.fst).dedup }

/-- The name of the owner, or the number. -/
def ownerNameOf (env : OwnershipEnv) (uid : Nat) : Str :=
  match env.userName uid with
  | some name => name
  | none => digits uid

/-- `inspect_directory`, for the reading of this number. -/
def inspectDirectory (env : OwnershipEnv) (reading : Nat) (path : Str) (dir : Option Stat)
    (identity : Option ServingIdentity) : Except OwnershipFailure DirectoryStatus :=
  match dir with
  | none => .ok
      { path := path, exists_ := false, isDir := false, ownerUid := none, ownerGid := none,
        mode := none, writable := none, ownerName := none, whyNotWritable := none,
        fixable := true }
  | some info =>
      match env.stat reading with
      | some (.permission detail) | some (.os detail) =>
          .error (.ownership (str "cannot inspect " ++ path) (some detail))
      | some .other => .error .other
      | none =>
          .ok (describeDirectory path info.uid info.gid info.mode
            (some (ownerNameOf env info.uid)) identity false none)

end Inspect

section MakeWritable

/-- `next(iter(sorted(identity.gids)))`. -/
def lowestGid (identity : ServingIdentity) : Option Nat :=
  (identity.gids.insertionSort (· ≤ ·)).head?

/-- `os.chown`. Of a directory it leaves the mode. -/
def Stat.chown (info : Stat) (uid gid : Nat) : Stat :=
  { info with
    uid := uid
    gid := gid }

/-- `os.chmod`. It leaves what kind of file it is. -/
def Stat.chmod (info : Stat) (mode : Nat) : Stat :=
  { info with mode := info.mode >>> 12 <<< 12 ||| sIMODE mode }

/-- What `make_writable` makes of a failure. -/
def cannotChange (path : Str) : SystemFailure → OwnershipFailure
  | .permission detail => .ownership (str "not permitted to change " ++ path) (some detail)
  | .os detail => .ownership (str "cannot change " ++ path) (some detail)
  | .other => .other

/-- The directory is given to the account. -/
def giveTo (env : OwnershipEnv) (path : Str) (info : Stat) (identity : ServingIdentity) :
    Except OwnershipFailure Stat :=
  if info.uid ≠ identity.uid then
    match lowestGid identity, env.chown with
    | none, _ => .error .other
    | some _, some failure => .error (cannotChange path failure)
    | some gid, none => .ok (info.chown identity.uid gid)
  else .ok info

/-- The owner's bits are set. -/
def widenOwner (env : OwnershipEnv) (path : Str) (info : Stat) : Except OwnershipFailure Stat :=
  let wanted := sIMODE info.mode ||| sIRWXU
  if wanted ≠ sIMODE info.mode then
    match env.chmod with
    | some failure => .error (cannotChange path failure)
    | none => .ok (info.chmod wanted)
  else .ok info

/-- The last look. -/
def lookAgain (env : OwnershipEnv) (path : Str) (info : Stat) (identity : ServingIdentity) :
    Except OwnershipFailure DirectoryStatus :=
  match inspectDirectory env 1 path (some info) (some identity) with
  | .error e => .error e
  | .ok result =>
      if result.writable = some false then
        .error (.ownership (path ++ str " is still not writable by " ++ identity.username)
          result.whyNotWritable)
      else .ok result

/-- `make_writable`, and the directory after it. -/
def makeWritable (env : OwnershipEnv) (path : Str) (dir : Option Stat)
    (identity : ServingIdentity) : Except OwnershipFailure DirectoryStatus × Option Stat :=
  match inspectDirectory env 0 path dir (some identity) with
  | .error e => (.error e, dir)
  | .ok status =>
      match dir with
      | none => (.error (.notFound (path ++ str " does not exist") none), dir)
      | some info =>
          if status.isDir = false then
            (.error (.ownership (path ++ str " is not a directory") none), dir)
          else
            match giveTo env path info identity with
            | .error e => (.error e, dir)
            | .ok given =>
                match widenOwner env path given with
                | .error e => (.error e, some given)
                | .ok widened => (lookAgain env path widened identity, some widened)

end MakeWritable

section Spec

/-- What `make_writable` is to do: the account can write to the directory, whoever else can
    could before, and only the owner's bits are other than they were. -/
structure WritableForOne (before after : Stat) (identity : ServingIdentity) : Prop where
  account : writableBy after.uid after.gid after.mode identity = true
  others : ∀ other : ServingIdentity, other.uid ≠ identity.uid →
    writableBy after.uid after.gid after.mode other = true →
      writableBy before.uid before.gid before.mode other = true
  bits : after.mode ||| sIRWXU = before.mode ||| sIRWXU

/-- The three settings of a directory: who may write to it and enter it. -/
def permissionsOf (info : Stat) : Permissions Nat Nat where
  owner := info.uid
  group := info.gid
  ownerMay := hasBit info.mode sIWUSR && hasBit info.mode sIXUSR
  groupMay := hasBit info.mode sIWGRP && hasBit info.mode sIXGRP
  othersMay := hasBit info.mode sIWOTH && hasBit info.mode sIXOTH

/-- It is the account's already; or the old owner is root, can write itself, or neither the
    group nor the others can, and the group is the lowest of the account's or can write
    exactly where the others can. -/
def NobodyMoved (before : Stat) (identity : ServingIdentity) : Prop :=
  before.uid = identity.uid ∨
    (before.uid = 0 ∨ (permissionsOf before).ownerMay = true ∨
      (permissionsOf before).groupMay = false ∧ (permissionsOf before).othersMay = false) ∧
    (some before.gid = lowestGid identity ∨
      (permissionsOf before).groupMay = (permissionsOf before).othersMay)

/-- `_writable_by` goes by the permission classes. -/
theorem writableBy_eq (info : Stat) (identity : ServingIdentity) :
    writableBy info.uid info.gid info.mode identity =
      (permissionsOf info).allows 0 identity.uid identity.gids :=
  rfl

end Spec

section Bits

variable {mode wanted : Nat}

theorem sIMODE_eq : sIMODE mode = mode % 4096 :=
  Nat.and_two_pow_sub_one_eq_mod mode 12

theorem testBit_sIMODE (k : Nat) :
    (sIMODE mode).testBit k = (decide (k < 12) && mode.testBit k) := by
  rw [sIMODE_eq]
  exact Nat.testBit_mod_two_pow mode 12 k

/-- The kind of the file and its mode. -/
theorem testBit_chmod (k : Nat) : (mode >>> 12 <<< 12 ||| sIMODE wanted).testBit k =
    if k < 12 then wanted.testBit k else mode.testBit k := by
  rw [Nat.testBit_or, Nat.testBit_shiftLeft, Nat.testBit_shiftRight, testBit_sIMODE]
  by_cases h : k < 12
  · rw [if_pos h, decide_eq_false (by omega), decide_eq_true h]
    rfl
  · rw [if_neg h, decide_eq_true (by omega), decide_eq_false h, Bool.true_and, Bool.false_and,
      Bool.or_false, Nat.add_sub_cancel' (by omega)]

/-- Where the wanted bits are set, whether there was a call or not. -/
theorem chmod_widened :
    mode >>> 12 <<< 12 ||| sIMODE (sIMODE mode ||| sIRWXU) = mode ||| sIRWXU := by
  refine Nat.eq_of_testBit_eq fun k => ?_
  rw [testBit_chmod, Nat.testBit_or, Nat.testBit_or, testBit_sIMODE]
  by_cases h : k < 12
  · rw [if_pos h, decide_eq_true h, Bool.true_and]
  · rw [if_neg h]
    have hlow : sIRWXU.testBit k = false := by
      refine Nat.testBit_lt_two_pow (Nat.lt_of_lt_of_le (show sIRWXU < 2 ^ 12 by decide) ?_)
      exact Nat.pow_le_pow_right (by decide) (by omega)
    rw [hlow, Bool.or_false]

theorem widened_of_set (h : sIMODE mode ||| sIRWXU = sIMODE mode) : mode ||| sIRWXU = mode := by
  rw [← chmod_widened, h]
  refine Nat.eq_of_testBit_eq fun k => ?_
  rw [testBit_chmod, testBit_sIMODE]
  by_cases hk : k < 12
  · rw [if_pos hk, decide_eq_true hk, Bool.true_and]
  · rw [if_neg hk]

theorem hasBit_widened {bit : Nat} (h : sIRWXU &&& bit = 0) :
    hasBit (mode ||| sIRWXU) bit = hasBit mode bit := by
  rw [hasBit, Nat.and_or_distrib_right, h, Nat.or_zero, hasBit]

theorem hasBit_owner {bit : Nat} (h : sIRWXU &&& bit ≠ 0) :
    hasBit (mode ||| sIRWXU) bit = true := by
  rw [hasBit, decide_eq_true_eq, Nat.and_or_distrib_right]
  intro hzero
  exact h (Nat.or_eq_zero_iff.mp hzero).2

end Bits

section Results

variable {env : OwnershipEnv} {path : Str} {before given after : Stat}
  {identity : ServingIdentity} {status : DirectoryStatus}

/-- The directory with the owner's bits set. -/
def Stat.widened (info : Stat) : Stat :=
  { info with mode := info.mode ||| sIRWXU }

theorem permissionsOf_widened (info : Stat) :
    permissionsOf info.widened = (permissionsOf info).widen := by
  unfold permissionsOf Stat.widened Permissions.widen
  rw [hasBit_owner (by decide), hasBit_owner (by decide), hasBit_widened (by decide),
    hasBit_widened (by decide), hasBit_widened (by decide), hasBit_widened (by decide)]
  rfl

theorem permissionsOf_chown (info : Stat) (uid gid : Nat) :
    permissionsOf (info.chown uid gid) = (permissionsOf info).handTo uid gid :=
  rfl

/-- It is given away only where it is not the account's. -/
theorem giveTo_ok (h : giveTo env path before identity = .ok given) :
    before.uid = identity.uid ∧ given = before ∨
      before.uid ≠ identity.uid ∧ ∃ gid, lowestGid identity = some gid ∧
        given = before.chown identity.uid gid := by
  unfold giveTo at h
  -- Another owner is changed first, together with the group.
  by_cases howner : before.uid ≠ identity.uid
  · rw [if_pos howner] at h
    cases hgid : lowestGid identity with
    | none =>
        rw [hgid] at h
        exact nomatch h
    | some gid =>
        rw [hgid] at h
        cases hchown : env.chown with
        | some failure =>
            rw [hchown] at h
            exact nomatch h
        | none =>
            rw [hchown] at h
            exact Or.inr ⟨howner, gid, rfl, (Except.ok.inj h).symm⟩
  · rw [if_neg howner] at h
    exact Or.inl ⟨not_not.mp howner, (Except.ok.inj h).symm⟩

/-- The owner's bits are set after it. -/
theorem widenOwner_ok (h : widenOwner env path given = .ok after) : after = given.widened := by
  unfold widenOwner at h
  dsimp only at h
  by_cases hset : sIMODE given.mode ||| sIRWXU = sIMODE given.mode
  · rw [if_neg (not_not.mpr hset)] at h
    rw [← Except.ok.inj h, Stat.widened, widened_of_set hset]
  · rw [if_pos hset] at h
    cases hchmod : env.chmod with
    | some failure =>
        rw [hchmod] at h
        exact nomatch h
    | none =>
        rw [hchmod] at h
        rw [← Except.ok.inj h, Stat.chmod, chmod_widened, Stat.widened]

/-- Where `make_writable` succeeds, the directory is the account's, and its bits are set. -/
theorem makeWritable_ok
    (h : makeWritable env path (some before) identity = (.ok status, some after)) :
    before.uid = identity.uid ∧ after = before.widened ∨
      before.uid ≠ identity.uid ∧ ∃ gid, lowestGid identity = some gid ∧
        after = (before.chown identity.uid gid).widened := by
  unfold makeWritable at h
  -- Each step is one of the source's, and the first that fails ends the call.
  cases hlook : inspectDirectory env 0 path (some before) (some identity) with
  | error e =>
      rw [hlook] at h
      cases h
  | ok first =>
      rw [hlook] at h
      dsimp only at h
      by_cases hdir : first.isDir = false
      · rw [if_pos hdir] at h
        cases h
      rw [if_neg hdir] at h
      cases hgiven : giveTo env path before identity with
      | error e =>
          rw [hgiven] at h
          cases h
      | ok given =>
          rw [hgiven] at h
          dsimp only at h
          cases hwidened : widenOwner env path given with
          | error e =>
              rw [hwidened] at h
              cases h
          | ok widened =>
              rw [hwidened] at h
              have hafter : widened = after := Option.some.inj (congrArg Prod.snd h)
              rw [← hafter, widenOwner_ok hwidened]
              rcases giveTo_ok hgiven with ⟨howner, rfl⟩ | ⟨howner, gid, hgid, rfl⟩
              · exact Or.inl ⟨howner, rfl⟩
              · exact Or.inr ⟨howner, gid, hgid, rfl⟩

/-- The account can write, and only the owner's bits are other than they were. -/
theorem writable_after
    (h : makeWritable env path (some before) identity = (.ok status, some after)) :
    writableBy after.uid after.gid after.mode identity = true ∧
      after.mode ||| sIRWXU = before.mode ||| sIRWXU := by
  rw [writableBy_eq]
  rcases makeWritable_ok h with ⟨howner, rfl⟩ | ⟨-, gid, -, rfl⟩
  · refine ⟨?_, Nat.or_assoc .. |>.trans (by rw [Nat.or_self])⟩
    rw [permissionsOf_widened, ← howner]
    exact Permissions.allows_widen_owner
  · refine ⟨?_, Nat.or_assoc .. |>.trans (by rw [Nat.or_self]; rfl)⟩
    rw [permissionsOf_widened, permissionsOf_chown]
    exact Permissions.allows_widen_owner (p := (permissionsOf before).handTo identity.uid gid)

/-- `make_writable` gives nobody else write access exactly where nobody is moved to a class
    that has more. -/
theorem makeWritable_only_iff
    (h : makeWritable env path (some before) identity = (.ok status, some after)) :
    WritableForOne before after identity ↔ NobodyMoved before identity := by
  rcases writable_after h with ⟨haccount, hbits⟩
  rcases makeWritable_ok h with ⟨howner, rfl⟩ | ⟨howner, gid, hgid, rfl⟩
  · refine ⟨fun _ => Or.inl howner, fun _ => ⟨haccount, fun other hother hallows => ?_, hbits⟩⟩
    rw [writableBy_eq, permissionsOf_widened, Permissions.allows_widen_of_ne] at hallows
    · exact hallows
    · exact howner.trans_ne (Ne.symm hother)
  · -- the owner is another: what the three classes have stays, and the people move
    have hothers : (∀ other : ServingIdentity, other.uid ≠ identity.uid →
        writableBy (before.chown identity.uid gid).widened.uid
          (before.chown identity.uid gid).widened.gid
          (before.chown identity.uid gid).widened.mode other = true →
        writableBy before.uid before.gid before.mode other = true) ↔
        ∀ (user : Nat) (groups : List Nat), user ≠ identity.uid →
          ((permissionsOf before).handTo identity.uid gid).allows 0 user groups = true →
            (permissionsOf before).allows 0 user groups = true := by
      constructor
      · intro h user groups huser hallows
        refine h ⟨[], user, groups⟩ huser ?_
        rw [writableBy_eq, permissionsOf_widened, Permissions.allows_widen_of_ne huser.symm]
        exact hallows
      · intro h other hother hallows
        rw [writableBy_eq, permissionsOf_widened,
          Permissions.allows_widen_of_ne hother.symm] at hallows
        exact h other.uid other.gids hother hallows
    have hmoved := hothers.trans (Permissions.handTo_iff howner)
    constructor
    · intro h
      rw [NobodyMoved, hgid, Option.some.injEq]
      exact Or.inr (hmoved.mp h.others)
    · intro h
      rw [NobodyMoved, hgid, Option.some.injEq] at h
      exact ⟨haccount, hmoved.mpr (h.resolve_left howner), hbits⟩

end Results

section Examples

/-- The account a share is served as, in the group of the users and one of its own. -/
def servingPi : ServingIdentity := ⟨str "pi", 1001, [1001, 100]⟩

/-- Another of the users. -/
def userBob : ServingIdentity := ⟨str "bob", 1002, [1002, 100]⟩

/-- A system where every call is done. -/
def allDone : OwnershipEnv where
  stat := fun _ => none
  userName := fun _ => none
  chown := none
  chmod := none

/-- A directory of root's that nobody else can write to. -/
theorem makeWritable_only_of_root :
    WritableForOne ⟨0, 0, 0o40755⟩ ⟨1001, 100, 0o40755⟩ servingPi := by
  have hrun : ∃ status, makeWritable allDone (str "/srv/media") (some ⟨0, 0, 0o40755⟩)
      servingPi = (.ok status, some ⟨1001, 100, 0o40755⟩) := ⟨_, rfl⟩
  rcases hrun with ⟨status, hrun⟩
  refine (makeWritable_only_iff hrun).mpr ?_
  exact Or.inr ⟨Or.inl rfl, Or.inr (by decide)⟩

/-- A directory that a group can write to is given to the group of the users. -/
theorem group_gains :
    ∃ status, makeWritable allDone (str "/srv/media") (some ⟨0, 44, 0o40775⟩) servingPi =
        (.ok status, some ⟨1001, 100, 0o40775⟩) ∧
      writableBy 0 44 0o40775 userBob = false ∧ writableBy 1001 100 0o40775 userBob = true ∧
        ¬WritableForOne ⟨0, 44, 0o40775⟩ ⟨1001, 100, 0o40775⟩ servingPi := by
  refine ⟨_, rfl, by decide, by decide, fun h => ?_⟩
  exact absurd (h.others userBob (by decide) (by decide)) (by decide)

end Examples

end Smbpal
