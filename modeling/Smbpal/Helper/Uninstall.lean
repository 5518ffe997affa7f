import Smbpal.Helper.PathPolicy

/-!
# What an Uninstall Leaves

`uninstall` in `helper/smbpal-helper.c`: the sharepoints, the access entries and the
identities that the helper's three lists name.

Each list is there so that what would not go can be tried again. The list of sharepoints is
kept if one of them would not go. The list of entries is kept if one of them is seen not to
go; but of a folder that cannot be found nothing is seen, and on a volume that is not mounted
the entry is still there; and an entry that stays beside one that denies the same account
counts as gone. The list of identities goes whatever happened
(`identity_left_unrecorded`).

So each thing that could not be removed is still recorded exactly if no recorded identity
is refused, and either the removal of some entry is seen to fail or each entry goes
(`uninstall_repeatable_iff`). That nothing goes that was not recorded holds always.

What the system refuses to remove is refused whenever it is tried. `dscl` says whether there
is a record. An entry of an access list is known by the account's UUID, which a gone account
leaves behind, where `ace_for` compares the uids that UUIDs map to; and each path leads to a
folder of its own.

## Main definitions

* `aceFor`, `chmodRemove`: What an access list says of an account, and taking a grant back.
* `Installed`, `Refuses`: The machine, and what it refuses to remove.
* `uninstall`: The removals.
* `Repeatable`, `OnlyRecorded`: What is to be shown of them.
* `SeenToFail`, `Goes`: The condition.

## Theorems

* `uninstallGrants_spec`: What the removals make of the access lists.
* `stuck_iff`: When a removal is seen to fail.
* `uninstall_repeatable_iff`: When an uninstall can be repeated.
* `identity_left_unrecorded`: One that cannot.
-/

namespace Smbpal

open Lib Program

section AccessLists

/-- What an entry of an access list is about. -/
inductive AclRight where
  | list
  | addFile
  | search
  | delete
  | addSubdirectory
  | fileInherit
  | directoryInherit
  | other (number : Nat)
  deriving DecidableEq

/-- An entry of an access list. -/
structure Ace where
  who : Nat
  deny : Bool
  rights : List AclRight
  deriving DecidableEq

/-- `GRANT_PERMS`, as macOS stores it. -/
def grantRights : List AclRight :=
  [.list, .addFile, .search, .delete, .addSubdirectory, .fileInherit, .directoryInherit]

/-- The entry allows the account at least what the helper grants. -/
def Ace.grants (who : Nat) (a : Ace) : Bool :=
  decide (a.who = who) && !a.deny && grantRights.all fun right => decide (right ∈ a.rights)

/-- The entry allows the account to make files and folders. -/
def Ace.allows (who : Nat) (a : Ace) : Bool :=
  decide (a.who = who) && !a.deny &&
    (decide (AclRight.addFile ∈ a.rights) && decide (AclRight.addSubdirectory ∈ a.rights))

/-- The entry denies the account something. -/
def Ace.denies (who : Nat) (a : Ace) : Bool :=
  decide (a.who = who) && a.deny

/-- `ace_for`, of a list that can be read. -/
def aceFor (acl : List Ace) (who : Nat) : AccessState :=
  if acl.any (Ace.denies who) then .deny
  else if acl.any (Ace.allows who) then .allow
  else .none

/-- What `chmod -a` leaves of an entry, given the text of a grant. -/
def Ace.without (who : Nat) (a : Ace) : Option Ace :=
  if a.grants who then
    let rest := a.rights.filter fun right => decide (right ∉ grantRights)
    if rest = [] then none else some { a with rights := rest }
  else
    some a

/-- `chmod -a`, of the grant of an account. -/
def chmodRemove (acl : List Ace) (who : Nat) : List Ace :=
  acl.filterMap (Ace.without who)

/-- The grant of an account is in the list. -/
def HasGrant (acl : List Ace) (who : Nat) : Prop :=
  ∃ a ∈ acl, a.grants who = true

theorem grants_who {who : Nat} {a : Ace} (h : a.grants who = true) :
    a.who = who ∧ a.deny = false := by
  unfold Ace.grants at h
  rw [Bool.and_eq_true, Bool.and_eq_true, decide_eq_true_eq, Bool.not_eq_true'] at h
  exact h.1

theorem grants_right {who : Nat} {a : Ace} (h : a.grants who = true) {right : AclRight}
    (hright : right ∈ grantRights) : right ∈ a.rights := by
  unfold Ace.grants at h
  rw [Bool.and_eq_true] at h
  exact of_decide_eq_true (List.all_eq_true.mp h.2 right hright)

theorem allows_who {who : Nat} {a : Ace} (h : a.allows who = true) : a.who = who := by
  unfold Ace.allows at h
  rw [Bool.and_eq_true, Bool.and_eq_true, decide_eq_true_eq] at h
  exact h.1.1

theorem denies_who {who : Nat} {a : Ace} (h : a.denies who = true) : a.who = who := by
  unfold Ace.denies at h
  rw [Bool.and_eq_true, decide_eq_true_eq] at h
  exact h.1

/-- An entry that is left is as it was, or a lessened one of the same account. -/
theorem without_some {who : Nat} {a b : Ace} (h : a.without who = some b) :
    b = a ∧ a.grants who = false ∨ b.who = who ∧ a.who = who ∧ b.grants who = false := by
  unfold Ace.without at h
  by_cases hgrants : a.grants who = true
  · rw [if_pos hgrants] at h
    dsimp only at h
    split at h
    · cases h
    · cases h
      rcases grants_who hgrants with ⟨hwho, -⟩
      refine Or.inr ⟨hwho, hwho, Bool.eq_false_iff.mpr fun hleft => ?_⟩
      -- A right that the helper grants is no longer in it.
      have hin := grants_right hleft (show AclRight.list ∈ grantRights by decide)
      exact of_decide_eq_true (List.mem_filter.mp hin).2 (by decide)
  · rw [if_neg hgrants, Option.some.injEq] at h
    exact Or.inl ⟨h.symm, Bool.not_eq_true _ ▸ hgrants⟩

theorem without_of_not {who : Nat} {a : Ace} (h : a.grants who = false) :
    a.without who = some a := by
  unfold Ace.without
  rw [h]
  exact if_neg Bool.false_ne_true

/-- The entries of an account. -/
def entriesOf (acl : List Ace) (who : Nat) : List Ace :=
  acl.filter fun a => decide (a.who = who)

theorem entriesOf_cons_of_eq {a : Ace} {who : Nat} (h : a.who = who) (acl : List Ace) :
    entriesOf (a :: acl) who = a :: entriesOf acl who :=
  List.filter_cons_of_pos (decide_eq_true h)

theorem entriesOf_cons_of_ne {a : Ace} {who : Nat} (h : a.who ≠ who) (acl : List Ace) :
    entriesOf (a :: acl) who = entriesOf acl who :=
  List.filter_cons_of_neg (by rwa [decide_eq_true_eq])

theorem chmodRemove_cons_none {a : Ace} {who : Nat} (h : a.without who = none) (acl : List Ace) :
    chmodRemove (a :: acl) who = chmodRemove acl who :=
  List.filterMap_cons_none h

theorem chmodRemove_cons_some {a b : Ace} {who : Nat} (h : a.without who = some b)
    (acl : List Ace) : chmodRemove (a :: acl) who = b :: chmodRemove acl who :=
  List.filterMap_cons_some h

/-- An entry of another account stays as it is. -/
theorem without_of_ne {a : Ace} {who : Nat} (h : a.who ≠ who) : a.without who = some a :=
  without_of_not (Bool.eq_false_iff.mpr fun hgrants => h (grants_who hgrants).1)

/-- Taking a grant back leaves the entries of another account. -/
theorem entriesOf_chmodRemove_of_ne {who other : Nat} (h : other ≠ who) (acl : List Ace) :
    entriesOf (chmodRemove acl who) other = entriesOf acl other := by
  induction acl with
  | nil => rfl
  | cons a acl ih =>
      by_cases hother : a.who = other
      · have hne : a.who ≠ who := fun heq => h (hother.symm.trans heq)
        rw [chmodRemove_cons_some (without_of_ne hne), entriesOf_cons_of_eq hother,
          entriesOf_cons_of_eq hother, ih]
      · rw [entriesOf_cons_of_ne hother]
        cases hleft : a.without who with
        | none => rw [chmodRemove_cons_none hleft, ih]
        | some b =>
            have hb : b.who ≠ other := by
              rcases without_some hleft with ⟨hsame, -⟩ | ⟨hwho, -, -⟩
              · rwa [hsame]
              · exact fun heq => h (heq.symm.trans hwho)
            rw [chmodRemove_cons_some hleft, entriesOf_cons_of_ne hb, ih]

/-- What is left of an account's entries depends on these alone. -/
theorem entriesOf_chmodRemove (acl : List Ace) (who : Nat) :
    entriesOf (chmodRemove acl who) who = chmodRemove (entriesOf acl who) who := by
  induction acl with
  | nil => rfl
  | cons a acl ih =>
      by_cases hwho : a.who = who
      · rw [entriesOf_cons_of_eq hwho]
        cases hleft : a.without who with
        | none => rw [chmodRemove_cons_none hleft, chmodRemove_cons_none hleft, ih]
        | some b =>
            have hb : b.who = who := by
              rcases without_some hleft with ⟨hsame, -⟩ | ⟨hb, -, -⟩
              · rwa [hsame]
              · exact hb
            rw [chmodRemove_cons_some hleft, chmodRemove_cons_some hleft,
              entriesOf_cons_of_eq hb, ih]
      · rw [entriesOf_cons_of_ne hwho, chmodRemove_cons_some (without_of_ne hwho),
          entriesOf_cons_of_ne hwho, ih]

/-- What holds of some entry of an account holds of some entry of its own. -/
theorem any_entriesOf {who : Nat} {p : Ace → Bool} (hp : ∀ a, p a = true → a.who = who)
    (acl : List Ace) : (entriesOf acl who).any p = acl.any p := by
  unfold entriesOf
  rw [List.any_filter]
  refine congrArg _ (funext fun a => ?_)
  cases ha : p a with
  | true => rw [decide_eq_true (hp a ha), Bool.and_self]
  | false => exact Bool.and_false _

theorem aceFor_entriesOf (acl : List Ace) (who : Nat) :
    aceFor (entriesOf acl who) who = aceFor acl who := by
  unfold aceFor
  rw [any_entriesOf fun a => denies_who, any_entriesOf fun a => allows_who]

/-- Lists with the same entries of an account say the same of it. -/
theorem aceFor_congr {who : Nat} {acl acl' : List Ace}
    (h : entriesOf acl who = entriesOf acl' who) : aceFor acl who = aceFor acl' who := by
  rw [← aceFor_entriesOf, h, aceFor_entriesOf]

theorem hasGrant_iff (acl : List Ace) (who : Nat) :
    HasGrant acl who ↔ acl.any (Ace.grants who) = true :=
  List.any_eq_true.symm

/-- Lists with the same entries of an account have its grant or not. -/
theorem hasGrant_congr {who : Nat} {acl acl' : List Ace}
    (h : entriesOf acl who = entriesOf acl' who) : HasGrant acl who ↔ HasGrant acl' who := by
  have hwho : ∀ a : Ace, a.grants who = true → a.who = who := fun a ha => (grants_who ha).1
  rw [hasGrant_iff, hasGrant_iff, ← any_entriesOf hwho acl, h, any_entriesOf hwho]

/-- A grant that is taken back is gone. -/
theorem not_hasGrant_chmodRemove (acl : List Ace) (who : Nat) :
    ¬HasGrant (chmodRemove acl who) who := by
  rintro ⟨b, hb, hgrants⟩
  rcases List.mem_filterMap.mp hb with ⟨a, -, hleft⟩
  rcases without_some hleft with ⟨hsame, hnot⟩ | ⟨-, -, hnot⟩
  · rw [hsame, hnot] at hgrants
    cases hgrants
  · rw [hnot] at hgrants
    cases hgrants

/-- Taking it back once more does nothing. -/
theorem chmodRemove_twice (acl : List Ace) (who : Nat) :
    chmodRemove (chmodRemove acl who) who = chmodRemove acl who := by
  have hnot := not_hasGrant_chmodRemove acl who
  generalize chmodRemove acl who = acl at hnot
  unfold chmodRemove
  rw [List.filterMap_congr (g := some), List.filterMap_some]
  intro a ha
  exact without_of_not (Bool.eq_false_iff.mpr fun hgrants => hnot ⟨a, ha, hgrants⟩)

/-- What the list says of an account once its grant is taken back, after another removal. -/
theorem aceFor_chmodRemove_chmodRemove (acl : List Ace) (other who : Nat) :
    aceFor (chmodRemove (chmodRemove acl other) who) who = aceFor (chmodRemove acl who) who := by
  by_cases h : who = other
  · rw [h, chmodRemove_twice]
  · refine aceFor_congr ?_
    rw [entriesOf_chmodRemove, entriesOf_chmodRemove, entriesOf_chmodRemove_of_ne h]

/-- Of several grants that are taken back none is left, and all others are. -/
theorem hasGrant_foldl (whos : List Nat) (acl : List Ace) (who : Nat) :
    HasGrant (whos.foldl chmodRemove acl) who ↔ HasGrant acl who ∧ who ∉ whos := by
  induction whos generalizing acl with
  | nil => exact ⟨fun h => ⟨h, List.not_mem_nil⟩, And.left⟩
  | cons w whos ih =>
      rw [List.foldl_cons, ih, List.mem_cons, not_or]
      by_cases h : who = w
      · rw [h]
        exact ⟨fun h => absurd h.1 (not_hasGrant_chmodRemove acl w), fun h => absurd rfl h.2.1⟩
      · rw [hasGrant_congr (entriesOf_chmodRemove_of_ne h acl)]
        exact ⟨fun hboth => ⟨hboth.1, h, hboth.2⟩, fun hall => ⟨hall.1, hall.2.2⟩⟩

/-- An entry that is not a grant of the account stays. -/
theorem mem_chmodRemove {acl : List Ace} {who : Nat} {a : Ace} (ha : a ∈ acl)
    (hnot : a.grants who = false) : a ∈ chmodRemove acl who :=
  List.mem_filterMap.mpr ⟨a, ha, without_of_not hnot⟩

/-- An entry that goes is one of the grants that are taken back. -/
theorem grants_of_gone {whos : List Nat} {acl : List Ace} {a : Ace} (ha : a ∈ acl)
    (hgone : a ∉ whos.foldl chmodRemove acl) : ∃ who ∈ whos, a.grants who = true := by
  induction whos generalizing acl with
  | nil => exact absurd ha hgone
  | cons w whos ih =>
      cases hgrants : a.grants w with
      | true => exact ⟨w, List.mem_cons_self, hgrants⟩
      | false =>
          rcases ih (mem_chmodRemove ha hgrants) hgone with ⟨who, hwho, h⟩
          exact ⟨who, List.mem_cons_of_mem _ hwho, h⟩

end AccessLists

section Uninstalls

/-- What `lstat` says of a path. -/
inductive FolderSeen where
  | here
  /-- `ENOENT`. -/
  | noEntry
  /-- Anything else: the access list cannot be read either. -/
  | unreadable
  deriving DecidableEq

/-- A folder, which may be on a volume that is not mounted, and its access list. -/
structure Folder where
  seen : FolderSeen
  acl : List Ace

/-- What uninstalling uses of `struct passwd`, and the account's UUID. -/
structure Account where
  uid : Nat
  uuid : Nat
  deriving DecidableEq

/-- A line of `GRANTS_FILE`, and the UUID of the account that was granted access. -/
structure Grant where
  user : List UInt8
  path : List UInt8
  uuid : Nat
  deriving DecidableEq

/-- A record `dscl` is asked to delete: `/Users/NAME` or `/Groups/NAME`. -/
structure Identity where
  isUser : Bool
  name : List UInt8
  deriving DecidableEq

/-- A line of `CREATED_FILE`. -/
structure Created where
  kind : List UInt8
  name : List UInt8
  deriving DecidableEq

/-- Whether a line is about a user: any other is taken for a group. -/
def Created.isUser (c : Created) : Bool :=
  decide (c.kind = cBytes "user")

/-- What is deleted for a line. -/
def Created.identity (c : Created) : Identity :=
  { isUser := c.isUser, name := c.name }

/-- The machine, and the helper's lists. -/
structure Installed where
  sharepoints : Sharepoints
  folders : List UInt8 → Folder
  accounts : List UInt8 → Option Account
  granted : List Grant
  identities : Identity → Bool
  created : List Created

/-- What the machine refuses to remove. -/
structure Refuses where
  sharepoint : List UInt8 → Bool
  access : Nat → List UInt8 → Bool
  identity : Identity → Bool

/-- `USER_NAME_MAX`. -/
def userNameMax : Nat := 64

/-- A character of a user's name. -/
def userNameByte (b : UInt8) : Bool :=
  decide (97 ≤ b ∧ b ≤ 122) || decide (65 ≤ b ∧ b ≤ 90) || decide (48 ≤ b ∧ b ≤ 57) ||
    decide (b = 95) || decide (b = 46) || decide (b = 45)

/-- `user_name_ok`. -/
def userNameOk (name : List UInt8) : Bool :=
  decide (name.length ≠ 0 ∧ name.length ≤ userNameMax) && name.all userNameByte

namespace Installed

variable (r : Refuses)

/-- `person`. -/
def person (s : Installed) (name : List UInt8) : Option Account :=
  if userNameOk name then
    (s.accounts name).filter fun who => decide (Helper.firstPersonUid ≤ who.uid)
  else none

/-- `ace_for`, which says nothing of a list that cannot be read. -/
def access (s : Installed) (path : List UInt8) (who : Nat) : AccessState :=
  match (s.folders path).seen with
  | .here => aceFor (s.folders path).acl who
  | _ => .none

/-- Change a folder. -/
def setFolder (s : Installed) (path : List UInt8) (folder : Folder) : Installed :=
  { s with folders := Function.update s.folders path folder }

/-- `ace_remove`. -/
def aceRemove (s : Installed) (path : List UInt8) (who : Nat) : Installed :=
  if (s.folders path).seen = .here ∧ r.access who path = false then
    s.setFolder path { s.folders path with acl := chmodRemove (s.folders path).acl who }
  else s

/-- One line of the list of grants, and whether its removal is seen to fail. -/
def removeGrant (s : Installed) (g : Grant) : Installed × Bool :=
  if (s.folders g.path).seen = .noEntry then (s, false)
  else
    match s.person g.user with
    | none => (s, true)
    | some who =>
        (s.aceRemove r g.path who.uuid,
          decide ((s.aceRemove r g.path who.uuid).access g.path who.uuid = .allow))

/-- The loop over the list of grants: whether one is stuck. -/
def removeGrants : List Grant → Installed → Installed × Bool
  | [], s => (s, false)
  | g :: gs, s =>
      ((removeGrants gs (s.removeGrant r g).1).1,
        (s.removeGrant r g).2 || (removeGrants gs (s.removeGrant r g).1).2)

/-- The grants of `uninstall`. -/
def uninstallGrants (s : Installed) : Installed :=
  if (removeGrants r s.granted s).2 then (removeGrants r s.granted s).1
  else { (removeGrants r s.granted s).1 with granted := [] }

/-- What `sharing` and `dscl` answer, and what becomes of the list of sharepoints. -/
def sharingAnswer : (op : SharepointOp) → Sharepoints → op.Value × Sharepoints
  | .sharingRemove name, s => if r.sharepoint name then ((), s) else ((), s.setRecord name none)
  | op, s => sharepointAnswer op s

/-- The sharepoints of `uninstall`. -/
def removeSharepoints (s : Installed) : Installed :=
  { s with sharepoints := (uninstallSharepoints.run (sharingAnswer r) s.sharepoints).2 }

/-- `dscl . -delete`. -/
def deleteIdentity (s : Installed) (i : Identity) : Installed :=
  if r.identity i then s else { s with identities := Function.update s.identities i false }

/-- One pass over the list of identities. -/
def identityPass (wantUser : Bool) (s : Installed) : Installed :=
  (s.created.filter fun c => c.isUser == wantUser).foldl
    (fun s c => s.deleteIdentity r c.identity) s

/-- The identities of `uninstall`: users before groups. -/
def uninstallIdentities (s : Installed) : Installed :=
  { (s.identityPass r true).identityPass r false with created := [] }

/-- `uninstall`. -/
def uninstall (s : Installed) : Installed :=
  ((s.removeSharepoints r).uninstallGrants r).uninstallIdentities r

/-- What could not be removed is still recorded. -/
structure Repeatable (s s' : Installed) : Prop where
  sharepoints : ∀ name ∈ s.sharepoints.ledger, shareNameOk name = true →
    (s'.sharepoints.records name).isSome = true → name ∈ s'.sharepoints.ledger
  granted : ∀ g ∈ s.granted, HasGrant (s'.folders g.path).acl g.uuid → g ∈ s'.granted
  created : ∀ c ∈ s.created, s'.identities c.identity = true → c ∈ s'.created

/-- Nothing that was not recorded is removed: no sharepoint of another name, no entry that
    is not a grant of a recorded account on a recorded folder, and no other identity. -/
structure OnlyRecorded (s s' : Installed) : Prop where
  sharepoints : ∀ name, s'.sharepoints.records name ≠ s.sharepoints.records name →
    name ∈ s.sharepoints.ledger
  granted : ∀ path, ∀ a ∈ (s.folders path).acl, a ∉ (s'.folders path).acl →
    ∃ g ∈ s.granted, g.path = path ∧
      ∃ who, s.accounts g.user = some who ∧ a.grants who.uuid = true
  created : ∀ i, s'.identities i ≠ s.identities i → ∃ c ∈ s.created, c.identity = i

/-- The removal of a grant is seen to fail: the folder is found, and the account is gone, or
    what the removal leaves of the folder's access list allows it access. -/
def SeenToFail (s : Installed) (g : Grant) : Prop :=
  (s.folders g.path).seen ≠ .noEntry ∧
    (s.person g.user = none ∨
      ∃ who, s.person g.user = some who ∧ (s.folders g.path).seen = .here ∧
        aceFor (if r.access who.uuid g.path then (s.folders g.path).acl
          else chmodRemove (s.folders g.path).acl who.uuid) who.uuid = .allow)

/-- A grant goes: its folder can be read, taking it back is not refused, and its account is
    the one a line names for the folder. -/
def Goes (s : Installed) (path : List UInt8) (uuid : Nat) : Prop :=
  (s.folders path).seen = .here ∧ r.access uuid path = false ∧
    ∃ g ∈ s.granted, g.path = path ∧ ∃ who, s.person g.user = some who ∧ who.uuid = uuid

/-- The condition: no recorded identity is refused, and the removal of a grant is seen to
    fail or each grant that is there goes. -/
structure Complete (s : Installed) : Prop where
  created : ∀ c ∈ s.created, s.identities c.identity = true → r.identity c.identity = false
  granted : (∃ g ∈ s.granted, s.SeenToFail r g) ∨
    ∀ g ∈ s.granted, HasGrant (s.folders g.path).acl g.uuid → s.Goes r g.path g.uuid

/-! ### Identities -/

/-- A deletion changes identities and nothing else. -/
theorem deleteIdentity_eq (s : Installed) (i : Identity) :
    s.deleteIdentity r i = { s with identities := (s.deleteIdentity r i).identities } := by
  unfold deleteIdentity
  split
  · rfl
  · rfl

/-- The identity that is deleted goes, if it is not refused. -/
theorem deleteIdentity_identities (s : Installed) (i j : Identity) :
    (s.deleteIdentity r i).identities j = true ↔
      s.identities j = true ∧ (i = j → r.identity j = true) := by
  unfold deleteIdentity
  by_cases hrefused : r.identity i = true
  · rw [if_pos hrefused]
    exact ⟨fun h => ⟨h, fun heq => heq ▸ hrefused⟩, And.left⟩
  · rw [if_neg hrefused]
    change Function.update s.identities i false j = true ↔ _
    by_cases heq : j = i
    · rw [heq, Function.update_self]
      exact ⟨fun h => absurd h Bool.false_ne_true, fun h => absurd (h.2 rfl) hrefused⟩
    · rw [Function.update_of_ne heq]
      exact ⟨fun h => ⟨h, fun h' => absurd h'.symm heq⟩, And.left⟩

/-- Deletions change identities and nothing else, and what is refused stays. -/
theorem foldl_deleteIdentity (cs : List Created) (s : Installed) :
    ∃ identities, cs.foldl (fun s c => s.deleteIdentity r c.identity) s =
      { s with identities := identities } ∧
        ∀ i, identities i = true ↔ s.identities i = true ∧
          ∀ c ∈ cs, c.identity = i → r.identity i = true := by
  induction cs generalizing s with
  | nil => exact ⟨s.identities, rfl, fun i => ⟨fun h => ⟨h, fun c hc => absurd hc List.not_mem_nil⟩,
      And.left⟩⟩
  | cons c cs ih =>
      rcases ih (s.deleteIdentity r c.identity) with ⟨identities, hfold, hiff⟩
      refine ⟨identities, ?_, fun i => ?_⟩
      · rw [List.foldl_cons, hfold, deleteIdentity_eq]
      · rw [hiff i, deleteIdentity_identities, and_assoc]
        refine and_congr_right fun _ => ⟨fun h c' hc' heq => ?_, fun h => ?_⟩
        · rcases List.mem_cons.mp hc' with hhead | hmem
          · exact h.1 (hhead ▸ heq)
          · exact h.2 c' hmem heq
        · exact ⟨h c List.mem_cons_self, fun c' hc' => h c' (List.mem_cons_of_mem _ hc')⟩

/-- What the two passes leave of the identities. -/
theorem uninstallIdentities_spec (s : Installed) :
    ∃ identities, s.uninstallIdentities r = { s with identities := identities, created := [] } ∧
      ∀ i, identities i = true ↔ s.identities i = true ∧
        ∀ c ∈ s.created, c.identity = i → r.identity i = true := by
  rcases foldl_deleteIdentity r (s.created.filter fun c => c.isUser == true) s with
    ⟨users, husers, hiusers⟩
  rcases foldl_deleteIdentity r (s.created.filter fun c => c.isUser == false)
    { s with identities := users } with ⟨identities, hgroups, higroups⟩
  refine ⟨identities, ?_, fun i => ?_⟩
  · unfold uninstallIdentities identityPass
    rw [husers]
    dsimp only
    rw [hgroups]
  · rw [higroups i, hiusers i, and_assoc]
    refine and_congr_right fun _ => ⟨fun h c hc heq => ?_, fun h => ⟨?_, ?_⟩⟩
    · -- Each line is looked at in one of the passes.
      cases huser : c.isUser with
      | true => exact h.1 c (List.mem_filter.mpr ⟨hc, by rw [huser]; rfl⟩) heq
      | false => exact h.2 c (List.mem_filter.mpr ⟨hc, by rw [huser]; rfl⟩) heq
    · exact fun c hc => h c (List.mem_filter.mp hc).1
    · exact fun c hc => h c (List.mem_filter.mp hc).1

/-! ### Grants -/

/-- What a line of the list takes away: the account's grant on the folder, if the folder can
    be read and nothing is refused. -/
def takes (s : Installed) (g : Grant) : Option Nat :=
  if (s.folders g.path).seen = .here then
    ((s.person g.user).filter fun who => !r.access who.uuid g.path).map Account.uuid
  else none

/-- The accounts whose grants on a folder go. -/
def takenAt (s : Installed) (path : List UInt8) (gs : List Grant) : List Nat :=
  gs.filterMap fun g => if g.path = path then s.takes r g else none

theorem mem_takenAt {s : Installed} {path : List UInt8} {gs : List Grant} {uuid : Nat} :
    uuid ∈ s.takenAt r path gs ↔
      (s.folders path).seen = .here ∧ r.access uuid path = false ∧
        ∃ g ∈ gs, g.path = path ∧ ∃ who, s.person g.user = some who ∧ who.uuid = uuid := by
  unfold takenAt takes
  rw [List.mem_filterMap]
  constructor
  · -- A grant takes only from its own folder, and only while that is there.
    rintro ⟨g, hg, htakes⟩
    by_cases hpath : g.path = path
    · rw [if_pos hpath, hpath] at htakes
      by_cases hhere : (s.folders path).seen = .here
      · rw [if_pos hhere, Option.map_eq_some_iff] at htakes
        rcases htakes with ⟨who, hwho, rfl⟩
        rcases Option.filter_eq_some_iff.mp hwho with ⟨hperson, hallowed⟩
        rw [Bool.not_eq_true'] at hallowed
        exact ⟨hhere, hallowed, g, hg, hpath, who, hperson, rfl⟩
      · rw [if_neg hhere] at htakes
        cases htakes
    · rw [if_neg hpath] at htakes
      cases htakes
  · rintro ⟨hhere, hallowed, g, hg, rfl, who, hperson, rfl⟩
    refine ⟨g, hg, ?_⟩
    rw [if_pos rfl, if_pos hhere, hperson, Option.filter_some, hallowed]
    rfl

/-- Removing a line's grant changes the folder's access list and nothing else. -/
theorem removeGrant_eq (s : Installed) (g : Grant) :
    (s.removeGrant r g).1 = s ∧ s.takes r g = none ∨
      ∃ uuid, s.takes r g = some uuid ∧
        (s.removeGrant r g).1 = s.setFolder g.path
          { s.folders g.path with acl := chmodRemove (s.folders g.path).acl uuid } := by
  unfold removeGrant takes
  -- A folder that is gone has no access to take.
  by_cases hnone : (s.folders g.path).seen = .noEntry
  · rw [if_pos hnone, hnone, if_neg (by decide)]
    exact Or.inl ⟨rfl, rfl⟩
  · rw [if_neg hnone]
    cases hperson : s.person g.user with
    | none =>
        refine Or.inl ⟨rfl, ?_⟩
        split
        · rfl
        · rfl
    | some who =>
        unfold aceRemove
        -- The access goes where the folder is there and the removal not refused.
        by_cases heffect : (s.folders g.path).seen = .here ∧ r.access who.uuid g.path = false
        · refine Or.inr ⟨who.uuid, ?_, if_pos heffect⟩
          rw [if_pos heffect.1, Option.filter_some, heffect.2]
          rfl
        · refine Or.inl ⟨if_neg heffect, ?_⟩
          by_cases hhere : (s.folders g.path).seen = .here
          · have hrefused : r.access who.uuid g.path = true := by
              by_contra hnot
              exact heffect ⟨hhere, Bool.not_eq_true _ ▸ hnot⟩
            rw [if_pos hhere, Option.filter_some, hrefused]
            rfl
          · exact if_neg hhere

/-- What a line takes is not refused. -/
theorem takes_allowed {s : Installed} {g : Grant} {uuid : Nat} (h : s.takes r g = some uuid) :
    r.access uuid g.path = false := by
  have hmem : uuid ∈ s.takenAt r g.path [g] :=
    List.mem_filterMap.mpr ⟨g, List.mem_singleton_self g, by rw [if_pos rfl, h]⟩
  exact ((mem_takenAt r).mp hmem).2.1

/-- What one line leaves: the folders, and of each that was there something to be seen. -/
theorem removeGrant_folders (s : Installed) (g : Grant) :
    ∃ folders, (s.removeGrant r g).1 = { s with folders := folders } ∧ ∀ path,
      (folders path).seen = (s.folders path).seen ∧
        (folders path).acl = (s.takenAt r path [g]).foldl chmodRemove (s.folders path).acl := by
  have htaken : ∀ path, s.takenAt r path [g] =
      (if g.path = path then s.takes r g else none).toList := by
    intro path
    unfold takenAt
    rw [List.filterMap_cons, List.filterMap_nil]
    cases (if g.path = path then s.takes r g else none) with
    | none => rfl
    | some uuid => rfl
  -- Either nothing is taken, or one entry from the grant's folder.
  rcases removeGrant_eq r s g with ⟨hsame, htakes⟩ | ⟨uuid, htakes, hset⟩
  · refine ⟨s.folders, hsame, fun path => ⟨rfl, ?_⟩⟩
    rw [htaken, htakes]
    split
    · rfl
    · rfl
  · refine ⟨_, hset, fun path => ?_⟩
    rw [htaken, htakes]
    by_cases hpath : path = g.path
    · rw [hpath, if_pos rfl, Function.update_self]
      exact ⟨rfl, rfl⟩
    · rw [if_neg (Ne.symm hpath), Function.update_of_ne hpath]
      exact ⟨rfl, rfl⟩

/-- What the removals make of an access list: the grants that a line takes are taken back. -/
theorem removeGrants_folders (gs : List Grant) (s : Installed) :
    ∃ folders, (removeGrants r gs s).1 = { s with folders := folders } ∧ ∀ path,
      (folders path).seen = (s.folders path).seen ∧
        (folders path).acl = (s.takenAt r path gs).foldl chmodRemove (s.folders path).acl := by
  induction gs generalizing s with
  | nil => exact ⟨s.folders, rfl, fun path => ⟨rfl, rfl⟩⟩
  | cons g gs ih =>
      rcases removeGrant_folders r s g with ⟨between, hbetween, hfirst⟩
      rcases ih { s with folders := between } with ⟨folders, hfolders, hrest⟩
      -- A line takes the same wherever the folders are seen the same.
      have htakes : ∀ g', takes r { s with folders := between } g' = s.takes r g' := by
        intro g'
        unfold takes
        rw [show ({ s with folders := between } : Installed).folders g'.path = between g'.path from
          rfl, (hfirst g'.path).1]
        rfl
      refine ⟨folders, ?_, fun path => ⟨(hrest path).1.trans (hfirst path).1, ?_⟩⟩
      · unfold removeGrants
        rw [hbetween, hfolders]
      · rw [(hrest path).2]
        unfold takenAt at hfirst ⊢
        rw [show gs.filterMap (fun g => if g.path = path then
          takes r { s with folders := between } g
          else none) = gs.filterMap (fun g => if g.path = path then s.takes r g else none) from
            congrArg (fun f => gs.filterMap f) (funext fun g => by rw [htakes g])]
        change List.foldl chmodRemove (between path).acl _ = _
        rw [(hfirst path).2, ← List.foldl_append, ← List.filterMap_append]
        rfl

/-- What the folder says of an account when its grant has been taken back, or refused. -/
theorem access_aceRemove (s : Installed) (path : List UInt8) (who : Nat) :
    (s.aceRemove r path who).access path who = .allow ↔
      (s.folders path).seen = .here ∧
        aceFor (if r.access who path then (s.folders path).acl
          else chmodRemove (s.folders path).acl who) who = .allow := by
  unfold aceRemove access
  cases hseen : (s.folders path).seen with
  -- A folder that is here, with the removal refused or not.
  | here =>
      cases hrefused : r.access who path with
      | true =>
          rw [if_neg fun h => absurd h.2 Bool.true_eq_false.mp, hseen, if_pos rfl]
          exact ⟨fun h => ⟨rfl, h⟩, And.right⟩
      | false =>
          rw [if_pos ⟨rfl, rfl⟩, if_neg Bool.false_ne_true]
          unfold setFolder
          dsimp only
          rw [Function.update_self]
          dsimp only
          rw [hseen]
          exact ⟨fun h => ⟨rfl, h⟩, And.right⟩
  -- Of any other folder no access is read.
  | noEntry =>
      rw [if_neg fun h => absurd h.1 (by decide), hseen]
      exact ⟨fun h => (by cases h), fun h => absurd h.1 (by decide)⟩
  | unreadable =>
      rw [if_neg fun h => absurd h.1 (by decide), hseen]
      exact ⟨fun h => (by cases h), fun h => absurd h.1 (by decide)⟩

/-- The removal of one line is seen to fail. -/
theorem removeGrant_stuck (s : Installed) (g : Grant) :
    (s.removeGrant r g).2 = true ↔ s.SeenToFail r g := by
  unfold removeGrant SeenToFail
  by_cases hnone : (s.folders g.path).seen = .noEntry
  · rw [if_pos hnone]
    exact ⟨fun h => absurd h Bool.false_ne_true, fun h => absurd hnone h.1⟩
  · rw [if_neg hnone]
    cases hperson : s.person g.user with
    | none => exact ⟨fun _ => ⟨hnone, Or.inl rfl⟩, fun _ => rfl⟩
    | some who =>
        rw [decide_eq_true_eq, access_aceRemove]
        constructor
        · rintro ⟨hhere, hallow⟩
          exact ⟨hnone, Or.inr ⟨who, rfl, hhere, hallow⟩⟩
        · rintro ⟨-, habsurd | ⟨who', hwho, hhere, hallow⟩⟩
          · cases habsurd
          · cases hwho
            exact ⟨hhere, hallow⟩

/-- Whether a removal is seen to fail does not depend on the lines before. -/
theorem seenToFail_later (s : Installed) (g g' : Grant) :
    (s.removeGrant r g).1.SeenToFail r g' ↔ s.SeenToFail r g' := by
  rcases removeGrant_eq r s g with ⟨hsame, -⟩ | ⟨uuid, htakes, hset⟩
  · rw [hsame]
  · rw [hset]
    unfold SeenToFail
    by_cases hpath : g'.path = g.path
    · have hleft : ∀ who, aceFor (if r.access who g.path
          then chmodRemove (s.folders g.path).acl uuid
          else chmodRemove (chmodRemove (s.folders g.path).acl uuid) who) who =
            aceFor (if r.access who g.path then (s.folders g.path).acl
              else chmodRemove (s.folders g.path).acl who) who := by
        intro who
        cases hrefused : r.access who g.path with
        | true =>
            -- What was taken was not refused, so it was another account's.
            have hne : who ≠ uuid := by
              rintro rfl
              rw [takes_allowed r htakes] at hrefused
              cases hrefused
            exact aceFor_congr (entriesOf_chmodRemove_of_ne hne _)
        | false => exact aceFor_chmodRemove_chmodRemove _ _ _
      unfold setFolder person
      rw [hpath]
      dsimp only
      rw [Function.update_self]
      dsimp only
      simp only [hleft]
    · unfold setFolder person
      dsimp only
      rw [Function.update_of_ne hpath]

/-- The list is kept if the removal of one line is seen to fail. -/
theorem stuck_iff (gs : List Grant) (s : Installed) :
    (removeGrants r gs s).2 = true ↔ ∃ g ∈ gs, s.SeenToFail r g := by
  induction gs generalizing s with
  | nil =>
      exact ⟨fun h => absurd h Bool.false_ne_true, fun ⟨g, hg, _⟩ => absurd hg List.not_mem_nil⟩
  | cons g gs ih =>
      unfold removeGrants
      rw [Bool.or_eq_true, removeGrant_stuck, ih]
      constructor
      · rintro (hfirst | ⟨g', hg', hlater⟩)
        · exact ⟨g, List.mem_cons_self, hfirst⟩
        · exact ⟨g', List.mem_cons_of_mem _ hg', (seenToFail_later r s g g').mp hlater⟩
      · rintro ⟨g', hg', hfails⟩
        rcases List.mem_cons.mp hg' with hhead | hmem
        · exact Or.inl (hhead ▸ hfails)
        · exact Or.inr ⟨g', hmem, (seenToFail_later r s g g').mpr hfails⟩

/-- What the grants of an uninstall leave. -/
theorem uninstallGrants_spec (s : Installed) :
    ∃ folders granted, s.uninstallGrants r = { s with folders := folders, granted := granted } ∧
      (∀ path, (folders path).acl =
        (s.takenAt r path s.granted).foldl chmodRemove (s.folders path).acl) ∧
        (granted = s.granted ∧ (∃ g ∈ s.granted, s.SeenToFail r g) ∨
          granted = [] ∧ ¬∃ g ∈ s.granted, s.SeenToFail r g) := by
  rcases removeGrants_folders r s.granted s with ⟨folders, hfolders, hacl⟩
  unfold uninstallGrants
  by_cases hstuck : (removeGrants r s.granted s).2 = true
  · rw [if_pos hstuck, hfolders]
    exact ⟨folders, s.granted, rfl, fun path => (hacl path).2,
      Or.inl ⟨rfl, (stuck_iff r _ s).mp hstuck⟩⟩
  · rw [if_neg hstuck, hfolders]
    exact ⟨folders, [], rfl, fun path => (hacl path).2,
      Or.inr ⟨rfl, fun h => hstuck ((stuck_iff r _ s).mpr h)⟩⟩

/-! ### Sharepoints -/

/-- What asking for a sharepoint leaves. -/
theorem sharepointExists_answer (sp : Sharepoints) (name : List UInt8) :
    (sharingAnswer r (.sharepointExists name) sp).1 = (sp.records name).isSome ∧
      (sharingAnswer r (.sharepointExists name) sp).2.records = sp.records ∧
        (sharingAnswer r (.sharepointExists name) sp).2.ledger = sp.ledger := by
  have hanswer : sharingAnswer r (.sharepointExists name) sp =
      ((sp.records name).isSome,
        if (sp.records name).isSome then sp else { sp with free := name :: sp.free }) := rfl
  rw [hanswer]
  dsimp only
  split
  · exact ⟨rfl, rfl, rfl⟩
  · exact ⟨rfl, rfl, rfl⟩

/-- What `sharing -r` leaves. -/
theorem sharingRemove_answer (sp : Sharepoints) (name : List UInt8) :
    (sharingAnswer r (.sharingRemove name) sp).2.ledger = sp.ledger ∧
      ∀ other, (sharingAnswer r (.sharingRemove name) sp).2.records other = sp.records other ∨
        (sharingAnswer r (.sharingRemove name) sp).2.records other = none ∧ other = name := by
  have hanswer : sharingAnswer r (.sharingRemove name) sp =
      if r.sharepoint name then ((), sp) else ((), sp.setRecord name none) := rfl
  rw [hanswer]
  by_cases hrefused : r.sharepoint name = true
  · rw [if_pos hrefused]
    exact ⟨rfl, fun other => Or.inl rfl⟩
  · rw [if_neg hrefused]
    refine ⟨rfl, fun other => ?_⟩
    change Function.update sp.records name none other = _ ∨
      Function.update sp.records name none other = none ∧ _
    by_cases heq : other = name
    · exact Or.inr ⟨by rw [heq, Function.update_self], heq⟩
    · exact Or.inl (Function.update_of_ne heq _ _)

/-- Removing a sharepoint: whether it is gone is what is answered. -/
theorem sharepointRemove_run (sp : Sharepoints) (name : List UInt8) :
    ∃ sp', (sharepointRemove name).run (sharingAnswer r) sp =
        (.ok (!(sp'.records name).isSome), sp') ∧ sp'.ledger = sp.ledger ∧
      ∀ other, sp'.records other = sp.records other ∨
        sp'.records other = none ∧ other = name := by
  rcases sharingRemove_answer r sp name with ⟨hledger, hrecords⟩
  rcases sharepointExists_answer r (sharingAnswer r (.sharingRemove name) sp).2 name with
    ⟨hfound, hsame, hkept⟩
  refine ⟨(sharingAnswer r (.sharepointExists name)
    (sharingAnswer r (.sharingRemove name) sp).2).2, ?_, hkept.trans hledger, ?_⟩
  · rw [hsame, ← hfound]
    rfl
  · rw [hsame]
    exact hrecords

/-- Over the list: a record is only removed if it is listed, and if none is stuck each that
    the helper may have published is gone. -/
theorem uninstallLines_run (lines : List (List UInt8)) (sp : Sharepoints) :
    ∃ stuck sp', (uninstallLines lines).run (sharingAnswer r) sp = (.ok stuck, sp') ∧
      sp'.ledger = sp.ledger ∧
        (∀ name, sp'.records name = sp.records name ∨
          sp'.records name = none ∧ name ∈ lines) ∧
          (stuck = false → ∀ name ∈ lines, shareNameOk name = true → sp'.records name = none) := by
  induction lines generalizing sp with
  | nil => exact ⟨false, sp, rfl, rfl, fun name => Or.inl rfl,
      fun _ name hname => absurd hname List.not_mem_nil⟩
  | cons line lines ih =>
      by_cases hok : shareNameOk line = true
      · rcases sharepointRemove_run r sp line with ⟨sp₁, hfirst, hledger₁, hrecords₁⟩
        rcases ih sp₁ with ⟨stuck, sp', hrest, hledger, hrecords, hgone⟩
        refine ⟨(sp₁.records line).isSome || stuck, sp', ?_, hledger.trans hledger₁, ?_, ?_⟩
        · unfold uninstallLines
          rw [if_pos hok, run_bind_ok hfirst, run_bind_ok hrest, Bool.not_not]
          rfl
        · -- A record is as it was, or gone and its name among the lines.
          intro name
          rcases hrecords name with hsame | ⟨hnone, hmem⟩
          · rcases hrecords₁ name with hsame₁ | ⟨hnone₁, heq⟩
            · exact Or.inl (hsame.trans hsame₁)
            · exact Or.inr ⟨hsame.trans hnone₁, heq ▸ List.mem_cons_self⟩
          · exact Or.inr ⟨hnone, List.mem_cons_of_mem _ hmem⟩
        · -- Nothing was stuck, so this record is gone, and no later line brings it back.
          intro hstuck name hname hnameok
          rcases Bool.or_eq_false_iff.mp hstuck with ⟨hline, hlater⟩
          rcases List.mem_cons.mp hname with heq | hmem
          · have hnone : sp₁.records line = none := Option.not_isSome_iff_eq_none.mp
              (Bool.eq_false_iff.mp hline)
            rw [heq]
            rcases hrecords line with hsame | ⟨hgone', -⟩
            · exact hsame.trans hnone
            · exact hgone'
          · exact hgone hlater name hmem hnameok
      · -- A line that is no name is passed over.
        rcases ih sp with ⟨stuck, sp', hrest, hledger, hrecords, hgone⟩
        refine ⟨stuck, sp', ?_, hledger, ?_, ?_⟩
        · unfold uninstallLines
          rw [if_neg hok]
          exact hrest
        · intro name
          rcases hrecords name with hsame | ⟨hnone, hmem⟩
          · exact Or.inl hsame
          · exact Or.inr ⟨hnone, List.mem_cons_of_mem _ hmem⟩
        · intro hstuck name hname hnameok
          rcases List.mem_cons.mp hname with heq | hmem
          · exact absurd (heq ▸ hnameok) hok
          · exact hgone hstuck name hmem hnameok

/-- What the sharepoints of an uninstall leave. -/
theorem removeSharepoints_spec (s : Installed) :
    ∃ sp, s.removeSharepoints r = { s with sharepoints := sp } ∧
      (∀ name, sp.records name ≠ s.sharepoints.records name → name ∈ s.sharepoints.ledger) ∧
        ∀ name ∈ s.sharepoints.ledger, shareNameOk name = true →
          (sp.records name).isSome = true → name ∈ sp.ledger := by
  rcases uninstallLines_run r s.sharepoints.ledger s.sharepoints with
    ⟨stuck, sp, hrun, hledger, hrecords, hgone⟩
  -- Only a name of the ledger loses its record.
  have honly : ∀ name, sp.records name ≠ s.sharepoints.records name →
      name ∈ s.sharepoints.ledger := by
    intro name hne
    rcases hrecords name with hsame | ⟨-, hmem⟩
    · exact absurd hsame hne
    · exact hmem
  have hread : uninstallSharepoints.run (sharingAnswer r) s.sharepoints =
      ((if stuck then pure () else sharepointCall .unlinkLedger) : SharepointM Unit).run
        (sharingAnswer r) sp := by
    change ((uninstallLines s.sharepoints.ledger) >>= _).run (sharingAnswer r) s.sharepoints = _
    exact run_bind_ok hrun
  unfold removeSharepoints
  rw [hread]
  -- The ledger stays while a record of it is stuck.
  cases stuck with
  | true => exact ⟨sp, rfl, honly, fun name hname _ _ => hledger ▸ hname⟩
  | false =>
      refine ⟨_, rfl, honly, fun name hname hok hthere => ?_⟩
      have hnone := hgone rfl name hname hok
      change (sp.records name).isSome = true at hthere
      rw [hnone] at hthere
      cases hthere

/-! ### The whole -/

/-- What an uninstall leaves. -/
structure Leaves (s s' : Installed) : Prop where
  created : s'.created = []
  identities : ∀ i, s'.identities i = true ↔ s.identities i = true ∧
    ∀ c ∈ s.created, c.identity = i → r.identity i = true
  acl : ∀ path, (s'.folders path).acl =
    (s.takenAt r path s.granted).foldl chmodRemove (s.folders path).acl
  granted : s'.granted = s.granted ∧ (∃ g ∈ s.granted, s.SeenToFail r g) ∨
    s'.granted = [] ∧ ¬∃ g ∈ s.granted, s.SeenToFail r g
  records : ∀ name, s'.sharepoints.records name ≠ s.sharepoints.records name →
    name ∈ s.sharepoints.ledger
  ledger : ∀ name ∈ s.sharepoints.ledger, shareNameOk name = true →
    (s'.sharepoints.records name).isSome = true → name ∈ s'.sharepoints.ledger

theorem uninstall_leaves (s : Installed) : Leaves r s (s.uninstall r) := by
  rcases removeSharepoints_spec r s with ⟨sp, hsp, hrecords, hledger⟩
  rcases uninstallGrants_spec r { s with sharepoints := sp } with
    ⟨folders, granted, hgrants, hacl, hgranted⟩
  rcases uninstallIdentities_spec r
    { s with sharepoints := sp, folders := folders, granted := granted } with
      ⟨identities, hidentities, hleft⟩
  unfold uninstall
  rw [hsp, hgrants]
  dsimp only
  rw [hidentities]
  exact ⟨rfl, hleft, hacl, hgranted, hrecords, hledger⟩

variable {r} {s s' : Installed}

/-- Nothing goes that was not recorded. -/
theorem Leaves.onlyRecorded (h : Leaves r s s') : s.OnlyRecorded s' := by
  refine ⟨h.records, fun path a ha hgone => ?_, fun i hne => ?_⟩
  · rw [h.acl path] at hgone
    rcases grants_of_gone ha hgone with ⟨uuid, huuid, hgrants⟩
    rcases ((mem_takenAt r).mp huuid).2.2 with ⟨g, hg, hpath, who, hperson, rfl⟩
    refine ⟨g, hg, hpath, who, ?_, hgrants⟩
    unfold person at hperson
    split at hperson
    · exact (Option.filter_eq_some_iff.mp hperson).1
    · cases hperson
  · by_contra hnone
    refine hne (Bool.eq_iff_iff.mpr ⟨fun hleft => ((h.identities i).mp hleft).1, fun hthere => ?_⟩)
    exact (h.identities i).mpr ⟨hthere, fun c hc heq => absurd ⟨c, hc, heq⟩ hnone⟩

/-- A recorded identity stays exactly if its removal is refused. -/
theorem Leaves.identity_iff (h : Leaves r s s') {c : Created} (hc : c ∈ s.created) :
    s'.identities c.identity = true ↔
      s.identities c.identity = true ∧ r.identity c.identity = true := by
  rw [h.identities]
  exact and_congr_right fun _ => ⟨fun hall => hall c hc rfl, fun hrefused _ _ _ => hrefused⟩

/-- A grant stays exactly if it is there and does not go. -/
theorem Leaves.grant_iff (h : Leaves r s s') (path : List UInt8) (uuid : Nat) :
    HasGrant (s'.folders path).acl uuid ↔
      HasGrant (s.folders path).acl uuid ∧ ¬s.Goes r path uuid := by
  rw [h.acl, hasGrant_foldl, mem_takenAt]
  rfl

/-- An uninstall can be repeated until it is complete, and removes nothing that was not
    recorded, exactly if no recorded identity is refused, and the removal of some grant is
    seen to fail or each grant that is there goes. -/
theorem uninstall_repeatable_iff (r : Refuses) (s : Installed) :
    s.Repeatable (s.uninstall r) ∧ s.OnlyRecorded (s.uninstall r) ↔ s.Complete r := by
  have h := uninstall_leaves r s
  constructor
  · rintro ⟨hrepeatable, -⟩
    -- An identity that stays would have to be in a list that is gone.
    refine ⟨fun c hc hthere => Bool.eq_false_iff.mpr fun hrefused => ?_, ?_⟩
    · have hin := hrepeatable.created c hc ((h.identity_iff hc).mpr ⟨hthere, hrefused⟩)
      rw [h.created] at hin
      cases hin
    · -- The list of grants stays with what is stuck, or goes with all of it.
      rcases h.granted with ⟨-, hstuck⟩ | ⟨hempty, -⟩
      · exact Or.inl hstuck
      · refine Or.inr fun g hg hgrant => ?_
        by_contra hstays
        have hin := hrepeatable.granted g hg ((h.grant_iff _ _).mpr ⟨hgrant, hstays⟩)
        rw [hempty] at hin
        cases hin
  · intro hcomplete
    refine ⟨⟨h.ledger, fun g hg hgrant => ?_, fun c hc hthere => ?_⟩, h.onlyRecorded⟩
    · rcases h.granted with ⟨hsame, -⟩ | ⟨-, hnone⟩
      · exact hsame ▸ hg
      · rcases hcomplete.granted with hstuck | hgoes
        · exact absurd hstuck hnone
        · rcases (h.grant_iff _ _).mp hgrant with ⟨hbefore, hstays⟩
          exact absurd (hgoes g hg hbefore) hstays
    · rcases (h.identity_iff hc).mp hthere with ⟨hbefore, hrefused⟩
      rw [hcomplete.created c hc hbefore] at hrefused
      cases hrefused

end Installed

section Examples

/-- The group that an install creates. -/
def createdGroup : Created :=
  { kind := cBytes "group", name := cBytes "smbpal" }

/-- A machine with nothing of the helper's on it but its group. -/
def groupInstalled : Installed :=
  { sharepoints := .init fun _ => none
    folders := fun _ => { seen := .noEntry, acl := [] }
    accounts := fun _ => none
    granted := []
    identities := fun i => decide (i = createdGroup.identity)
    created := [createdGroup] }

/-- A machine that refuses to delete it. -/
def groupRefused : Refuses :=
  { sharepoint := fun _ => false
    access := fun _ _ => false
    identity := fun i => decide (i = createdGroup.identity) }

/-- The group could not be deleted, and nothing says any more that an install created it. -/
theorem identity_left_unrecorded :
    (groupInstalled.uninstall groupRefused).identities createdGroup.identity = true ∧
      (groupInstalled.uninstall groupRefused).created = [] ∧
        ¬groupInstalled.Repeatable (groupInstalled.uninstall groupRefused) := by
  have hleft : (groupInstalled.uninstall groupRefused).identities createdGroup.identity = true := by
    decide +kernel
  refine ⟨hleft, rfl, fun h => ?_⟩
  have hin := h.created createdGroup (List.mem_singleton_self _) hleft
  cases hin

end Examples

end Uninstalls

end Smbpal
