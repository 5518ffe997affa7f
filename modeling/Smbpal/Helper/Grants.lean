import Smbpal.Helper.Serve

/-!
# Access That Is Given and Taken Back

The access entries over the life of the helper: `share.grant` adds them, `GRANTS_FILE`
remembers them, and `uninstall` takes back what the file says.

The helper serves any number of connections, each with any request and any failure. Whatever
an account is allowed on a folder by then and was not before is in the file, under the name
of a person (`grants_accounted`). Nobody's deny has been overridden, and nobody else has
gained or lost anything. So an uninstall that is not refused anything gives every folder its
answers back (`grants_given_back`).

Three things can go amiss, and the state remembers it. A line may be written in part, which
also spoils the line after it. A line may name what the reader cannot make out: a folder
whose resolved path has a line feed, to which a link can lead, or an account whose own name
is not one the helper accepts. And taking back an entry that could not be recorded may fail.

`chmod +a` puts its entry anywhere among the others, or combines it with one of the same
account. Reading an access list back is taken not to fail. An entry is known by the account's
UUID, where `ace_for` compares the uids that UUIDs map to, and each path leads to a folder of
its own.

## Main definitions

* `HelperDisk`, `serveMachine`: What the helper works on, and what its operations do to it.
* `fgetsLines`, `grantsRead`: The file as `uninstall` reads it.
* `GrantsKept`: What holds between two requests; `GrantMidway`: between an entry and its line.

## Theorems

* `grantsRead_lines`: Lines are read back.
* `OnlyGrants.chmodRemove`, `ChmodAdds.onlyGrants`: Adding an entry and taking it back.
* `always_grantAce`, `always_serveOne`: One entry, and one request.
* `grants_accounted`: Any number of requests.
* `grants_given_back`: And an uninstall.
-/

namespace Smbpal

open Lib Program

section AddingEntries

/-- `<user> allow GRANT_PERMS`. -/
def grantEntry (who : Nat) : Ace :=
  { who := who, deny := false, rights := grantRights }

/-- What `chmod +a` may make of a list. -/
def ChmodAdds (acl : List Ace) (who : Nat) (acl' : List Ace) : Prop :=
  (∃ before after, acl = before ++ after ∧ acl' = before ++ grantEntry who :: after) ∨
    ∃ before a after, acl = before ++ a :: after ∧ a.who = who ∧ a.deny = false ∧
      acl' = before ++ { a with rights := a.rights ++ grantRights } :: after

/-- Nothing denies the account anything, and what allows it to write is a grant. -/
structure OnlyGrants (acl : List Ace) (who : Nat) : Prop where
  noDeny : ∀ a ∈ acl, a.denies who = false
  grants : ∀ a ∈ acl, a.allows who = true → a.grants who = true

theorem mem_entriesOf {acl : List Ace} {who : Nat} {a : Ace} :
    a ∈ entriesOf acl who ↔ a ∈ acl ∧ a.who = who := by
  unfold entriesOf
  rw [List.mem_filter, decide_eq_true_eq]

/-- It is about the account's own entries. -/
theorem OnlyGrants.congr {acl acl' : List Ace} {who : Nat} (h : OnlyGrants acl who)
    (hsame : entriesOf acl' who = entriesOf acl who) : OnlyGrants acl' who := by
  have hmem : ∀ a ∈ acl', a.who = who → a ∈ acl := fun a ha hwho =>
    (mem_entriesOf.mp (hsame ▸ mem_entriesOf.mpr ⟨ha, hwho⟩)).1
  refine ⟨fun a ha => Bool.eq_false_iff.mpr fun hdenies => ?_, fun a ha hallows => ?_⟩
  · have hno := h.noDeny a (hmem a ha (denies_who hdenies))
    rw [hno] at hdenies
    exact Bool.false_ne_true hdenies
  · exact h.grants a (hmem a ha (allows_who hallows)) hallows

/-- Where nothing is said of the account, nothing denies or allows it anything. -/
theorem aceFor_none_iff {acl : List Ace} {who : Nat} :
    aceFor acl who = .none ↔
      (∀ a ∈ acl, a.denies who = false) ∧ ∀ a ∈ acl, a.allows who = false := by
  have hany : ∀ p : Ace → Bool, (∀ a ∈ acl, p a = false) ↔ acl.any p = false := fun p => by
    rw [List.any_eq_false]
    exact forall₂_congr fun a _ => (Bool.not_eq_true _).symm ▸ Iff.rfl
  rw [hany, hany]
  unfold aceFor
  cases acl.any (Ace.denies who) <;> cases acl.any (Ace.allows who) <;> decide

theorem onlyGrants_of_none {acl : List Ace} {who : Nat} (h : aceFor acl who = .none) :
    OnlyGrants acl who := by
  rcases aceFor_none_iff.mp h with ⟨hdeny, hallow⟩
  exact ⟨hdeny, fun a ha hallows => absurd ((hallow a ha).symm.trans hallows) Bool.false_ne_true⟩

/-- Without denials an account is allowed, or nothing is said of it. -/
theorem OnlyGrants.aceFor_ne_deny {acl : List Ace} {who : Nat} (h : OnlyGrants acl who) :
    aceFor acl who ≠ .deny := by
  unfold aceFor
  rw [if_neg]
  · split <;> exact fun heq => nomatch heq
  · rw [List.any_eq_true]
    rintro ⟨a, ha, hdenies⟩
    exact Bool.false_ne_true ((h.noDeny a ha).symm.trans hdenies)

/-- Adding an entry leaves those of another account. -/
theorem ChmodAdds.entriesOf_ne {acl acl' : List Ace} {who other : Nat} (h : ChmodAdds acl who acl')
    (hne : other ≠ who) : entriesOf acl' other = entriesOf acl other := by
  have happend : ∀ acl₁ acl₂, entriesOf (acl₁ ++ acl₂) other =
      entriesOf acl₁ other ++ entriesOf acl₂ other := fun acl₁ acl₂ => List.filter_append acl₁ acl₂
  rcases h with ⟨before, after, rfl, rfl⟩ | ⟨before, a, after, rfl, hwho, -, rfl⟩
  · rw [happend, happend, entriesOf_cons_of_ne]
    exact Ne.symm hne
  · have hwho' : a.who ≠ other := fun heq => hne (heq.symm.trans hwho)
    rw [happend, happend, entriesOf_cons_of_ne hwho', entriesOf_cons_of_ne]
    exact hwho'

/-- An entry that is added where nothing was said is all that allows anything. -/
theorem ChmodAdds.onlyGrants {acl acl' : List Ace} {who : Nat} (h : ChmodAdds acl who acl')
    (hnone : aceFor acl who = .none) : OnlyGrants acl' who := by
  have hold := onlyGrants_of_none hnone
  have hnew : ∀ b : Ace, b.who = who → b.deny = false → grantRights ⊆ b.rights →
      b.denies who = false ∧ b.grants who = true := by
    intro b hwho hdeny hrights
    unfold Ace.denies Ace.grants
    rw [hdeny, decide_eq_true hwho, Bool.and_false, Bool.not_false, Bool.true_and, Bool.true_and,
      List.all_eq_true]
    exact ⟨rfl, fun right hright => decide_eq_true (hrights hright)⟩
  -- the entries beside it are old ones
  have hsplit : ∃ b, (b.denies who = false ∧ b.grants who = true) ∧
      ∀ a ∈ acl', a = b ∨ a ∈ acl := by
    rcases h with ⟨before, after, rfl, rfl⟩ | ⟨before, a, after, rfl, hwho, hdeny, rfl⟩
    · refine ⟨grantEntry who, hnew _ rfl rfl (List.Subset.refl _), fun c hc => ?_⟩
      rw [List.mem_append, List.mem_cons] at hc
      rw [List.mem_append]
      rcases hc with hc | rfl | hc
      · exact Or.inr (Or.inl hc)
      · exact Or.inl rfl
      · exact Or.inr (Or.inr hc)
    · refine ⟨{ a with rights := a.rights ++ grantRights },
        hnew _ hwho hdeny (List.subset_append_right _ _), fun c hc => ?_⟩
      rw [List.mem_append, List.mem_cons] at hc
      rw [List.mem_append, List.mem_cons]
      rcases hc with hc | rfl | hc
      · exact Or.inr (Or.inl hc)
      · exact Or.inl rfl
      · exact Or.inr (Or.inr (Or.inr hc))
  rcases hsplit with ⟨b, ⟨hdenies, hgrants⟩, hmem⟩
  refine ⟨fun a ha => ?_, fun a ha hallows => ?_⟩
  · rcases hmem a ha with hb | hmem
    · exact hb ▸ hdenies
    · exact hold.noDeny a hmem
  · rcases hmem a ha with hb | hmem
    · exact hb ▸ hgrants
    · exact hold.grants a hmem hallows

/-- Taking the grant back leaves nothing that allows anything. -/
theorem OnlyGrants.aceFor_chmodRemove {acl : List Ace} {who : Nat} (h : OnlyGrants acl who) :
    aceFor (chmodRemove acl who) who = .none := by
  rw [aceFor_none_iff]
  have hleft : ∀ b ∈ chmodRemove acl who, b.denies who = false ∧ b.allows who = false := by
    intro b hb
    rcases List.mem_filterMap.mp hb with ⟨a, ha, hwithout⟩
    cases hgrants : a.grants who with
    | false =>
        rw [without_of_not hgrants] at hwithout
        rw [← Option.some.inj hwithout]
        refine ⟨h.noDeny a ha, Bool.eq_false_iff.mpr fun hallows => ?_⟩
        rw [h.grants a ha hallows] at hgrants
        exact Bool.false_ne_true hgrants.symm
    | true =>
        -- a lessened entry has none of the rights
        unfold Ace.without at hwithout
        rw [if_pos hgrants] at hwithout
        dsimp only at hwithout
        split at hwithout
        · exact nomatch hwithout
        · cases hwithout
          refine ⟨h.noDeny a ha, Bool.eq_false_iff.mpr fun hallows => ?_⟩
          unfold Ace.allows at hallows
          rw [Bool.and_eq_true, Bool.and_eq_true _ (decide _), decide_eq_true_eq,
            decide_eq_true_eq] at hallows
          have hfile := (List.mem_filter.mp hallows.2.1).2
          rw [decide_eq_true_eq] at hfile
          exact hfile (by decide)
  exact ⟨fun b hb => (hleft b hb).1, fun b hb => (hleft b hb).2⟩

/-- Over a list of removals it stays so, and one of the account's leaves nothing of it. -/
theorem OnlyGrants.foldl {acl : List Ace} {who : Nat} (h : OnlyGrants acl who) (whos : List Nat) :
    OnlyGrants (whos.foldl chmodRemove acl) who ∧
      (who ∈ whos ∨ aceFor acl who = .none → aceFor (whos.foldl chmodRemove acl) who = .none) := by
  induction whos generalizing acl with
  | nil => exact ⟨h, fun hor => hor.resolve_left List.not_mem_nil⟩
  | cons w whos ih =>
      rw [List.foldl_cons]
      by_cases hw : who = w
      · subst hw
        have hnone := h.aceFor_chmodRemove
        rcases ih (onlyGrants_of_none hnone) with ⟨honly, hgone⟩
        exact ⟨honly, fun _ => hgone (Or.inr hnone)⟩
      · have hsame := entriesOf_chmodRemove_of_ne hw acl
        rcases ih (h.congr hsame) with ⟨honly, hgone⟩
        refine ⟨honly, fun hor => hgone (hor.imp (fun hmem => ?_) fun hnone => ?_)⟩
        · exact (List.mem_cons.mp hmem).resolve_left hw
        · exact (aceFor_congr hsame).trans hnone

/-- Removals of others leave an account's entries. -/
theorem entriesOf_foldl {who : Nat} {whos : List Nat} (h : who ∉ whos) (acl : List Ace) :
    entriesOf (whos.foldl chmodRemove acl) who = entriesOf acl who := by
  induction whos generalizing acl with
  | nil => rfl
  | cons w whos ih =>
      rw [List.mem_cons, not_or] at h
      rw [List.foldl_cons, ih h.2, entriesOf_chmodRemove_of_ne h.1]

end AddingEntries

section GrantsFile

/-- `sizeof line` where `uninstall` reads the file. -/
def grantLineMax : Nat :=
  userNameMax + pathMax + 4

/-- What `fgets` gives, one call after another, when `line` has been read already. -/
def fgetsLines (cap : Nat) : List UInt8 → List UInt8 → List (List UInt8)
  | [], line => if line = [] then [] else [line]
  | b :: file, line =>
      if b = 10 ∨ line.length + 2 = cap then (line ++ [b]) :: fgetsLines cap file []
      else fgetsLines cap file (line ++ [b])

/-- The account and the path in a line. -/
def grantOf (line : List UInt8) : Option (List UInt8 × List UInt8) :=
  let text := line.takeWhile fun b => b != 10
  if 9 ∈ text then
    some (text.takeWhile fun b => b != 9, (text.dropWhile fun b => b != 9).drop 1)
  else none

/-- What `uninstall` finds in the file. -/
def grantsRead (file : List UInt8) : List (List UInt8 × List UInt8) :=
  (fgetsLines grantLineMax file []).filterMap grantOf

/-- What `grants_add` writes. -/
def grantLine (entry : List UInt8 × List UInt8) : List UInt8 :=
  entry.1 ++ 9 :: entry.2 ++ [10]

/-- An account and a path that can be read back. -/
structure RecordableGrant (entry : List UInt8 × List UInt8) : Prop where
  user : userNameOk entry.1 = true
  oneLine : 10 ∉ entry.2
  fits : entry.2.length < pathMax

theorem fgetsLines_line {cap : Nat} {line : List UInt8} (h : 10 ∉ line)
    (file already : List UInt8) (hfits : already.length + line.length + 2 ≤ cap) :
    fgetsLines cap (line ++ 10 :: file) already =
      (already ++ line ++ [10]) :: fgetsLines cap file [] := by
  induction line generalizing already with
  | nil =>
      rw [List.nil_append, fgetsLines, if_pos (Or.inl rfl), List.append_nil]
  | cons b line ih =>
      rw [List.mem_cons, not_or] at h
      rw [List.length_cons] at hfits
      rw [List.cons_append, fgetsLines, if_neg, ih h.2, List.append_assoc already [b] line]
      · rfl
      · rw [List.length_append, List.length_singleton]
        omega
      · rintro (heq | hfull)
        · exact h.1 heq.symm
        · omega

/-- A name has no tab and no line feed, and is not too long. -/
theorem userName_plain {name : List UInt8} (h : userNameOk name = true) :
    9 ∉ name ∧ 10 ∉ name ∧ name.length ≤ userNameMax := by
  unfold userNameOk at h
  rw [Bool.and_eq_true, decide_eq_true_eq, List.all_eq_true] at h
  refine ⟨fun hmem => ?_, fun hmem => ?_, h.1.2⟩
  · exact absurd (h.2 9 hmem) (by decide)
  · exact absurd (h.2 10 hmem) (by decide)

theorem grantOf_line {entry : List UInt8 × List UInt8} (h : RecordableGrant entry) :
    grantOf (grantLine entry) = some entry := by
  rcases userName_plain h.user with ⟨htab, hfeed, -⟩
  have hcut : ∀ (c : UInt8) (text rest : List UInt8), c ∉ text →
      (text ++ c :: rest).takeWhile (fun b => b != c) = text ∧
        (text ++ c :: rest).dropWhile (fun b => b != c) = c :: rest := by
    intro c text rest hc
    have hall : ∀ b ∈ text, (b != c) = true := fun b hb =>
      bne_iff_ne.mpr fun heq => hc (heq ▸ hb)
    rw [List.takeWhile_append_of_pos hall, List.dropWhile_append_of_pos hall]
    simp
  have hline : grantLine entry = (entry.1 ++ 9 :: entry.2) ++ 10 :: [] := rfl
  -- The name has no tab and the line no feed but its last, so the cuts are these.
  have hno : 10 ∉ entry.1 ++ 9 :: entry.2 := by
    rw [List.mem_append, List.mem_cons]
    rintro (hmem | heq | hmem)
    · exact hfeed hmem
    · exact absurd heq (by decide)
    · exact h.oneLine hmem
  unfold grantOf
  rw [hline, (hcut 10 _ [] hno).1]
  dsimp only
  rw [if_pos (List.mem_append_right _ List.mem_cons_self), (hcut 9 _ _ htab).1, (hcut 9 _ _ htab).2]
  rfl

/-- What is recorded is read back. -/
theorem grantsRead_lines {entries : List (List UInt8 × List UInt8)}
    (h : ∀ entry ∈ entries, RecordableGrant entry) :
    grantsRead (entries.flatMap grantLine) = entries := by
  unfold grantsRead
  induction entries with
  | nil => rfl
  | cons entry entries ih =>
      rw [List.forall_mem_cons] at h
      rcases userName_plain h.1.user with ⟨-, hfeed, hshort⟩
      have hline : grantLine entry = entry.1 ++ 9 :: entry.2 ++ [10] := rfl
      -- Neither the name nor the path has a line feed, so the line is read as one.
      have hno : 10 ∉ entry.1 ++ 9 :: entry.2 := by
        rw [List.mem_append, List.mem_cons]
        rintro (hmem | heq | hmem)
        · exact hfeed hmem
        · exact absurd heq (by decide)
        · exact h.1.oneLine hmem
      have hfits : ([] : List UInt8).length +
          (entry.1 ++ 9 :: entry.2).length + 2 ≤ grantLineMax := by
        have hpath := h.1.fits
        rw [List.length_nil, List.length_append, List.length_cons]
        unfold grantLineMax
        omega
      have hread := fgetsLines_line hno (entries.flatMap grantLine) [] hfits
      rw [List.flatMap_cons, hline, List.append_assoc, List.singleton_append, hread,
        List.nil_append,
        ← hline, List.filterMap_cons_some (grantOf_line h.1), ih h.2]

end GrantsFile

section Disk

/-- What the helper works on, and whether something went amiss that it cannot make good. -/
structure HelperDisk where
  sharepoints : Sharepoints
  folders : List UInt8 → Folder
  accounts : List UInt8 → Option Account
  grants : List UInt8
  amiss : Bool

/-- What an entry that can be read says. -/
def Folder.access (f : Folder) (who : Nat) : AccessState :=
  if f.seen = .here then aceFor f.acl who else .none

/-- Change a folder's access list. -/
def HelperDisk.setAcl (s : HelperDisk) (path : List UInt8) (acl : List Ace) : HelperDisk :=
  { s with folders := Function.update s.folders path { s.folders path with acl := acl } }

/-- Append to the file. -/
def HelperDisk.append (s : HelperDisk) (text : List UInt8) : HelperDisk :=
  { s with grants := s.grants ++ text }

/-- Something goes amiss. -/
def HelperDisk.spoil (s : HelperDisk) : HelperDisk :=
  { s with amiss := true }

/-- What the operations do, each of which may also fail. -/
def serveMachine : Machine serveSig HelperDisk
  -- What only looks changes nothing, whatever it says.
  | .verifyForm _ _, s, _, s' => s' = s
  | .inspectPath _, s, found, s' =>
      (∀ report, found = some report → report.resolved.bytes.length < pathMax) ∧ s' = s
  | .sharepoint op, s, answer, s' =>
      ∃ sp, sharepointMachine op s.sharepoints answer sp ∧ s' = { s with sharepoints := sp }
  | .listSharing, s, _, s' => s' = s
  | .getpwnam _, s, found, s' =>
      (∀ who, found = some who → s.accounts who.name = some who.account) ∧ s' = s
  | .getpwuid _, s, found, s' =>
      (∀ who, found = some who → s.accounts who.name = some who.account) ∧ s' = s
  | .authenticationAuthority _, s, _, s' => s' = s
  | .aceFor path who, s, state, s' => state = (s.folders path).access who.uuid ∧ s' = s
  | .aceAdd who path, s, _, s' =>
      s' = s ∨ (s.folders path).seen = .here ∧ ∃ acl,
        ChmodAdds (s.folders path).acl who.account.uuid acl ∧ s' = s.setAcl path acl
  | .aceRemove who path, s, _, s' =>
      s' = s.spoil ∨ (s.folders path).seen = .here ∧
        s' = s.setAcl path (chmodRemove (s.folders path).acl who.account.uuid)
  | .grantsAdd user path, s, written, s' =>
      s' = (if userNameOk user = true ∧ 10 ∉ path then s else s.spoil).append
          (grantLine (user, path)) ∨
        written = false ∧ (s' = s ∨ ∃ part, part <+: grantLine (user, path) ∧
          s' = s.spoil.append part)

theorem setAcl_folder (s : HelperDisk) (path : List UInt8) (acl : List Ace) :
    (s.setAcl path acl).folders path = { s.folders path with acl := acl } :=
  Function.update_self _ _ _

theorem setAcl_folder_ne {path other : List UInt8} (h : other ≠ path) (s : HelperDisk)
    (acl : List Ace) : (s.setAcl path acl).folders other = s.folders other :=
  Function.update_of_ne h _ _

theorem setAcl_seen (s : HelperDisk) (path other : List UInt8) (acl : List Ace) :
    ((s.setAcl path acl).folders other).seen = (s.folders other).seen := by
  by_cases h : other = path
  · rw [h, setAcl_folder]
  · rw [setAcl_folder_ne h]

theorem setAcl_acl (s : HelperDisk) (path : List UInt8) (acl : List Ace) :
    ((s.setAcl path acl).folders path).acl = acl := by
  rw [setAcl_folder]

theorem setAcl_acl_ne {path other : List UInt8} (h : other ≠ path) (s : HelperDisk)
    (acl : List Ace) : ((s.setAcl path acl).folders other).acl = (s.folders other).acl := by
  rw [setAcl_folder_ne h]

/-- What has gone amiss stays so. -/
theorem amiss_stays {α : Type} (p : ServeM α) {s : HelperDisk} (h : s.amiss = true) :
    Always serveMachine p (fun _ s' => s'.amiss = true) s := by
  refine always_keeps (footprint_any p fun _ => trivial) (fun op s answer s' _ hs hstep => ?_) h
  -- Only a step that changes grants or lists can go amiss, and none takes it back.
  cases op with
  | verifyForm right form => exact hstep ▸ hs
  | inspectPath path => exact hstep.2 ▸ hs
  | sharepoint op =>
      rcases hstep with ⟨sp, -, rfl⟩
      exact hs
  | listSharing => exact hstep ▸ hs
  | getpwnam name => exact hstep.2 ▸ hs
  | getpwuid uid => exact hstep.2 ▸ hs
  | authenticationAuthority name => exact hstep ▸ hs
  | aceFor path who => exact hstep.2 ▸ hs
  | aceAdd who path =>
      rcases hstep with rfl | ⟨-, acl, -, rfl⟩
      · exact hs
      · exact hs
  | aceRemove who path =>
      rcases hstep with rfl | ⟨-, rfl⟩
      · rfl
      · exact hs
  | grantsAdd user path =>
      rcases hstep with rfl | ⟨-, rfl | ⟨part, -, rfl⟩⟩
      · split
        · exact hs
        · rfl
      · exact hs
      · rfl

end Disk

section Keeping

/-- A line of the file is about a person, and a folder that said nothing of them. -/
structure GrantListed (s₀ : HelperDisk) (entry : List UInt8 × List UInt8) : Prop extends
    RecordableGrant entry where
  here : (s₀.folders entry.2).seen = .here
  somebody : ∃ account, s₀.accounts entry.1 = some account ∧
    Helper.firstPersonUid ≤ account.uid ∧ aceFor (s₀.folders entry.2).acl account.uuid = .none

/-- What stays the same, and what is in the file. -/
structure GrantsBasis (s₀ s : HelperDisk) : Prop where
  seen : ∀ path, (s.folders path).seen = (s₀.folders path).seen
  accounts : s.accounts = s₀.accounts
  listed : ∃ entries : List (List UInt8 × List UInt8), s.grants = entries.flatMap grantLine ∧
    ∀ entry ∈ entries, GrantListed s₀ entry

/-- The entries of an account on a folder are as they were. -/
def AccessUntouched (s₀ s : HelperDisk) (path : List UInt8) (who : Nat) : Prop :=
  entriesOf (s.folders path).acl who = entriesOf (s₀.folders path).acl who

/-- Nothing was said of an account, and all that allows it anything now is a grant. -/
structure AccessGiven (s₀ s : HelperDisk) (path : List UInt8) (who : Nat) : Prop where
  before : aceFor (s₀.folders path).acl who = .none
  now : OnlyGrants (s.folders path).acl who

/-- The file names the account and the folder. -/
def AccessRecorded (s : HelperDisk) (path : List UInt8) (who : Nat) : Prop :=
  ∃ user account, (user, path) ∈ grantsRead s.grants ∧ s.accounts user = some account ∧
    Helper.firstPersonUid ≤ account.uid ∧ account.uuid = who

/-- What is said of an account is as it was, or what was given is on record. -/
def AccessExplained (s₀ s : HelperDisk) (path : List UInt8) (who : Nat) : Prop :=
  AccessUntouched s₀ s path who ∨
    AccessGiven s₀ s path who ∧ (aceFor (s.folders path).acl who = .none ∨
    AccessRecorded s path who)

/-- What holds between two requests. -/
structure GrantsKept (s₀ s : HelperDisk) : Prop extends GrantsBasis s₀ s where
  explained : ∀ path who, AccessExplained s₀ s path who

/-- What holds while an entry is there that may not be on record. -/
structure GrantMidway (s₀ s : HelperDisk) (path : List UInt8) (who : Nat) : Prop extends
    GrantsBasis s₀ s where
  explained : ∀ p w, (p, w) ≠ (path, who) → AccessExplained s₀ s p w
  given : AccessGiven s₀ s path who

variable {s₀ s : HelperDisk} {path : List UInt8} {who : Nat}

theorem kept_start (h : s.grants = []) : GrantsKept s s where
  seen := fun _ => rfl
  accounts := rfl
  listed := ⟨[], h, fun _ hmem => absurd hmem List.not_mem_nil⟩
  explained := fun _ _ => Or.inl rfl

/-- An entry that is gone or on record is explained. -/
theorem GrantMidway.kept (h : GrantMidway s₀ s path who)
    (hend : aceFor (s.folders path).acl who = .none ∨ AccessRecorded s path who) :
    GrantsKept s₀ s where
  toGrantsBasis := h.toGrantsBasis
  explained := fun p w => by
    by_cases heq : (p, w) = (path, who)
    · cases heq
      exact Or.inr ⟨h.given, hend⟩
    · exact h.explained p w heq

/-- What a folder says of an account when nothing is said of it now, nor is it denied. -/
theorem GrantsKept.before_none (h : GrantsKept s₀ s)
    (hnone : aceFor (s.folders path).acl who = .none) :
    aceFor (s₀.folders path).acl who = .none := by
  rcases h.explained path who with hsame | ⟨hgiven, -⟩
  · rw [← aceFor_congr hsame, hnone]
  · exact hgiven.before

/-- An entry is added for an account of which nothing was said. -/
theorem GrantsKept.add (h : GrantsKept s₀ s) {acl : List Ace}
    (hnone : aceFor (s.folders path).acl who = .none)
    (hadds : ChmodAdds (s.folders path).acl who acl) :
    GrantMidway s₀ (s.setAcl path acl) path who where
  seen := fun p => (setAcl_seen s path p acl).trans (h.seen p)
  accounts := h.accounts
  listed := h.listed
  explained := fun p w hne => by
    have hsame : entriesOf ((s.setAcl path acl).folders p).acl w =
        entriesOf (s.folders p).acl w := by
      by_cases hp : p = path
      · subst hp
        rw [setAcl_acl, hadds.entriesOf_ne fun hw => hne (by rw [hw])]
      · rw [setAcl_acl_ne hp]
    rcases h.explained p w with huntouched | ⟨hgiven, hend⟩
    · exact Or.inl (hsame.trans huntouched)
    · exact Or.inr ⟨⟨hgiven.before, hgiven.now.congr hsame⟩,
        hend.imp_left fun hnone => (aceFor_congr hsame).trans hnone⟩
  given := ⟨h.before_none hnone, by rw [setAcl_acl]; exact hadds.onlyGrants hnone⟩

/-- Taking the entry back. -/
theorem GrantMidway.remove (h : GrantMidway s₀ s path who) :
    GrantMidway s₀ (s.setAcl path (chmodRemove (s.folders path).acl who)) path who where
  seen := fun p => (setAcl_seen s path p _).trans (h.seen p)
  accounts := h.accounts
  listed := h.listed
  explained := fun p w hne => by
    have hsame : entriesOf ((s.setAcl path
      (chmodRemove (s.folders path).acl who)).folders p).acl w =
        entriesOf (s.folders p).acl w := by
      by_cases hp : p = path
      · subst hp
        rw [setAcl_acl, entriesOf_chmodRemove_of_ne fun hw => hne (by rw [hw])]
      · rw [setAcl_acl_ne hp]
    rcases h.explained p w hne with huntouched | ⟨hgiven, hend⟩
    · exact Or.inl (hsame.trans huntouched)
    · exact Or.inr ⟨⟨hgiven.before, hgiven.now.congr hsame⟩,
        hend.imp_left fun hnone => (aceFor_congr hsame).trans hnone⟩
  given := ⟨h.given.before, by
    rw [setAcl_acl]
    exact onlyGrants_of_none h.given.now.aceFor_chmodRemove⟩

/-- What is in the file stays in it. -/
theorem grantsRead_append {entries : List (List UInt8 × List UInt8)}
    (h : ∀ entry ∈ entries, GrantListed s₀ entry) (hs : s.grants = entries.flatMap grantLine)
    {entry : List UInt8 × List UInt8} (hentry : GrantListed s₀ entry) :
    grantsRead (s.append (grantLine entry)).grants = grantsRead s.grants ++ [entry] ∧
      (s.append (grantLine entry)).grants = (entries ++ [entry]).flatMap grantLine := by
  have hfile : (s.append (grantLine entry)).grants = (entries ++ [entry]).flatMap grantLine := by
    unfold HelperDisk.append
    rw [hs, List.flatMap_append, List.flatMap_singleton]
  have hall : ∀ e ∈ entries ++ [entry], RecordableGrant e := by
    intro e he
    rcases List.mem_append.mp he with hold | hnew
    · exact (h e hold).toRecordableGrant
    · rw [List.mem_singleton.mp hnew]
      exact hentry.toRecordableGrant
  rw [hfile, hs, grantsRead_lines hall, grantsRead_lines fun e he => (h e he).toRecordableGrant]
  exact ⟨rfl, rfl⟩

/-- Recording the entry. -/
theorem GrantMidway.record (h : GrantMidway s₀ s path who) {user : List UInt8} {account : Account}
    (haccount : s.accounts user = some account) (huid : Helper.firstPersonUid ≤ account.uid)
    (huuid : account.uuid = who) (hrecordable : RecordableGrant (user, path))
    (hhere : (s.folders path).seen = .here) :
    GrantMidway s₀ (s.append (grantLine (user, path))) path who ∧
      AccessRecorded (s.append (grantLine (user, path))) path who := by
  rcases h.listed with ⟨entries, hfile, hlisted⟩
  have hnew : GrantListed s₀ (user, path) :=
    { toRecordableGrant := hrecordable
      here := (h.seen path).symm.trans hhere
      somebody := ⟨account, h.accounts ▸ haccount, huid, huuid ▸ h.given.before⟩ }
  -- The line is read back as the entry, and the lines before it as they were.
  rcases grantsRead_append hlisted hfile hnew with ⟨hread, hlines⟩
  -- What was recorded before is still in the longer list.
  have hmore : ∀ p w, AccessRecorded s p w →
      AccessRecorded (s.append (grantLine (user, path))) p w := by
    rintro p w ⟨u, a, hmem, hrest⟩
    exact ⟨u, a, hread ▸ List.mem_append_left _ hmem, hrest⟩
  refine ⟨?_, user, account, hread ▸ List.mem_append_right _ (List.mem_singleton_self _), haccount,
    huid, huuid⟩
  exact
    { seen := h.seen
      accounts := h.accounts
      listed := ⟨entries ++ [(user, path)], hlines, fun e he => by
        rcases List.mem_append.mp he with hold | hlast
        · exact hlisted e hold
        · rw [List.mem_singleton.mp hlast]
          exact hnew⟩
      explained := fun p w hne => (h.explained p w hne).imp_right fun hright =>
        ⟨⟨hright.1.before, hright.1.now⟩, hright.2.imp_right (hmore p w)⟩
      given := ⟨h.given.before, h.given.now⟩ }

/-- Unless something went amiss, what holds between two requests holds. -/
abbrev GrantsSound (s₀ s : HelperDisk) : Prop :=
  s.amiss = true ∨ GrantsKept s₀ s

variable {α : Type} {Q : Except Empty α → HelperDisk → Prop}

/-- One operation, and what follows. -/
theorem always_serveCall {op : ServeOp} {f : op.Value → ServeM α}
    (h : ∀ answer s', serveMachine op s answer s' → Always serveMachine (f answer) Q s') :
    Always serveMachine (serveCall op >>= f) Q s :=
  h

/-- After something went amiss. -/
theorem always_spoiled (p : ServeM α) (h : s.amiss = true) :
    Always serveMachine p (fun _ s' => GrantsSound s₀ s') s :=
  always_mono (amiss_stays p h) fun _ _ hs => Or.inl hs

/-- The entry is taken back, or that fails. -/
theorem always_takeBack {who : PasswdEntry} {f : Unit → ServeM α}
    (hmid : GrantMidway s₀ s path who.account.uuid) (hf : ∀ u s', GrantsKept s₀ s' →
      Always serveMachine (f u) (fun _ s' => GrantsSound s₀ s') s') :
    Always serveMachine (serveCall (.aceRemove who path) >>= f)
    (fun _ s' => GrantsSound s₀ s') s := by
  refine always_serveCall fun u s' hM => ?_
  rcases hM with rfl | ⟨-, rfl⟩
  · exact always_spoiled (f u) rfl
  · refine hf u _ (hmid.remove.kept (Or.inl ?_))
    rw [setAcl_acl]
    exact hmid.given.now.aceFor_chmodRemove

/-- `grant_ace`, for an account that is not denied. -/
theorem always_grantAce {who : PasswdEntry} (h : GrantsKept s₀ s)
    (hnot : (s.folders path).access who.account.uuid ≠ .deny)
    (haccount : s.accounts who.name = some who.account)
    (huid : Helper.firstPersonUid ≤ who.account.uid) (hlen : path.length < pathMax) :
    Always serveMachine (grantAce who path) (fun _ s' => GrantsSound s₀ s') s := by
  unfold grantAce
  refine always_serveCall fun state t hM => ?_
  rcases hM with ⟨rfl, rfl⟩
  by_cases hallowed : (t.folders path).access who.account.uuid = .allow
  · rw [if_pos hallowed]
    exact Or.inr h
  rw [if_neg hallowed]
  refine always_serveCall fun _ t' hM => ?_
  rcases hM with rfl | ⟨hhere, acl, hadds, rfl⟩
  · -- the entry was not added, and is not seen
    refine always_serveCall fun state u hM => ?_
    rcases hM with ⟨rfl, rfl⟩
    rw [if_neg hallowed]
    exact Or.inr h
  have hnone : aceFor (t.folders path).acl who.account.uuid = .none := by
    unfold Folder.access at hallowed hnot
    rw [if_pos hhere] at hallowed hnot
    cases hsays : aceFor (t.folders path).acl who.account.uuid with
    | none => rfl
    | allow => exact absurd hsays hallowed
    | deny => exact absurd hsays hnot
  have hmid := h.add hnone hadds
  have hhere' : ((t.setAcl path acl).folders path).seen = .here :=
    (setAcl_seen t path path acl).trans hhere
  refine always_serveCall fun state u hM => ?_
  rcases hM with ⟨rfl, rfl⟩
  by_cases htaken : ((t.setAcl path acl).folders path).access who.account.uuid = .allow
  · rw [if_pos htaken]
    refine always_serveCall fun written v hM => ?_
    rcases hM with rfl | ⟨rfl, rfl | ⟨part, -, rfl⟩⟩
    · by_cases hok : userNameOk who.name = true ∧ 10 ∉ path
      · rw [if_pos hok]
        rcases hmid.record haccount huid rfl ⟨hok.1, hok.2, hlen⟩ hhere' with ⟨hmid', hrecorded⟩
        cases written with
        | true => exact Or.inr (hmid'.kept (Or.inr hrecorded))
        | false => exact always_takeBack hmid' fun _ _ hkept => Or.inr hkept
      · rw [if_neg hok]
        exact always_spoiled _ rfl
    · exact always_takeBack hmid fun _ _ hkept => Or.inr hkept
    · exact always_spoiled _ rfl
  · rw [if_neg htaken]
    -- what is not seen to allow anything says nothing
    refine Or.inr (hmid.kept (Or.inl ?_))
    unfold Folder.access at htaken
    rw [if_pos hhere'] at htaken
    cases hsays : aceFor ((t.setAcl path acl).folders path).acl who.account.uuid with
    | none => rfl
    | allow => exact absurd hsays htaken
    | deny => exact absurd hsays hmid.given.now.aceFor_ne_deny

/-- `person` finds an account there is, a person's. -/
theorem always_personNamed (name : List UInt8) :
    Always serveMachine (personNamed name) (fun r s' => s' = s ∧ ∀ who, r = .ok (some who) →
      s.accounts who.name = some who.account ∧ Helper.firstPersonUid ≤ who.account.uid) s := by
  unfold personNamed
  by_cases hname : userNameOk name = true
  · rw [if_pos hname]
    refine always_serveCall fun found t hM => ?_
    rcases hM with ⟨hknown, rfl⟩
    refine ⟨rfl, fun who h => ?_⟩
    rcases Option.filter_eq_some_iff.mp (Except.ok.inj h) with ⟨hsome, huid⟩
    exact ⟨hknown who hsome, of_decide_eq_true huid⟩
  · rw [if_neg hname]
    exact ⟨rfl, fun who h => nomatch h⟩

/-- Sequencing, when something may go amiss in the first part. -/
theorem always_soundThen {β : Type} {p : ServeM β} {f : β → ServeM α}
    (h : Always serveMachine p (fun _ s' => GrantsSound s₀ s') s)
    (hf : ∀ b s', GrantsKept s₀ s' → Always serveMachine (f b) (fun _ s' => GrantsSound s₀ s') s') :
    Always serveMachine (p >>= f) (fun _ s' => GrantsSound s₀ s') s := by
  rw [always_bind]
  refine always_mono h fun r s' hsound => ?_
  cases r with
  | error e => exact nomatch e
  | ok b =>
      rcases hsound with hamiss | hkept
      · exact always_spoiled (f b) hamiss
      · exact hf b s' hkept

/-- The owner's part of `share.grant`. -/
theorem always_grantOwner (owner : PasswdEntry) (h : GrantsKept s₀ s)
    (hlen : path.length < pathMax) :
    Always serveMachine (grantOwner owner path) (fun _ s' => GrantsSound s₀ s') s := by
  unfold grantOwner
  rw [always_bind]
  refine always_mono (always_personNamed owner.name) ?_
  rintro r s' ⟨rfl, hperson⟩
  cases r with
  | error e => exact nomatch e
  | ok found =>
      cases found with
      | none => exact Or.inr h
      | some who =>
          rcases hperson who rfl with ⟨haccount, huid⟩
          refine always_serveCall fun state t hM => ?_
          rcases hM with ⟨rfl, rfl⟩
          -- Who was denied before is given nothing.
          by_cases hdenied : (t.folders path).access who.account.uuid = .deny
          · rw [if_pos hdenied]
            exact Or.inr h
          · rw [if_neg hdenied]
            refine always_soundThen (always_grantAce h hdenied haccount huid hlen)
              fun granted u hkept => ?_
            cases granted <;> exact Or.inr hkept

/-- The rest of `share.grant`. -/
theorem always_grantRest (who : PasswdEntry) {report : InspectReport} (h : GrantsKept s₀ s)
    (hlen : report.resolved.bytes.length < pathMax) :
    Always serveMachine (grantRest who report) (fun _ s' => GrantsSound s₀ s') s := by
  unfold grantRest
  refine always_serveCall fun entry v hM => ?_
  rcases hM with ⟨-, rfl⟩
  cases entry with
  | none => exact Or.inr h
  | some owner =>
      dsimp only
      split
      · exact Or.inr h
      · exact always_grantOwner owner h hlen

/-- `share.grant` of a folder that may be shared. -/
theorem always_grantFolder (user : List UInt8) {report : InspectReport} (h : GrantsKept s₀ s)
    (hlen : report.resolved.bytes.length < pathMax) :
    Always serveMachine (grantFolder user report) (fun _ s' => GrantsSound s₀ s') s := by
  unfold grantFolder
  rw [always_bind]
  refine always_mono (always_personNamed user) ?_
  rintro r s' ⟨rfl, hperson⟩
  -- Who the user is, as the user database says.
  cases r with
  | error e => exact nomatch e
  | ok found =>
      cases found with
      | none => exact Or.inr h
      | some who =>
          rcases hperson who rfl with ⟨haccount, huid⟩
          refine always_serveCall fun state t hM => ?_
          rcases hM with ⟨rfl, rfl⟩
          -- A denial that stands is not overruled.
          by_cases hdenied : (t.folders report.resolved.bytes).access who.account.uuid = .deny
          · rw [if_pos hdenied]
            exact Or.inr h
          · rw [if_neg hdenied]
            refine always_soundThen (always_grantAce h hdenied haccount huid hlen)
              fun granted u hkept => ?_
            -- Only where the access is there now is the rest done.
            cases granted with
            | added => exact always_grantRest who hkept hlen
            | already => exact always_grantRest who hkept hlen
            | chmod => exact Or.inr hkept
            | ledger => exact Or.inr hkept

/-- `share.grant`. -/
theorem always_shareGrant (req : HelperRequest) (h : GrantsKept s₀ s) :
    Always serveMachine (shareGrant req) (fun _ s' => GrantsSound s₀ s') s := by
  unfold shareGrant
  split
  · split
    · refine always_serveCall fun verified t hM => ?_
      rcases hM with rfl
      cases verified with
      | false => exact Or.inr h
      | true =>
          refine always_serveCall fun found u hM => ?_
          rcases hM with ⟨hlen, rfl⟩
          cases found with
          | none => exact Or.inr h
          | some report =>
              dsimp only
              split
              · exact always_grantFolder _ h (hlen report rfl)
              · exact Or.inr h
    · exact Or.inr h
  · exact Or.inr h

/-- Whether an operation is one of `grant_ace`. -/
def ServeOp.grants : ServeOp → Bool
  | .aceAdd _ _ => true
  | .aceRemove _ _ => true
  | .grantsAdd _ _ => true
  | _ => false

/-- Programs that grant nothing. -/
theorem always_ungranting {p : ServeM α}
    (hp : Performs (S := serveSig) (fun op => ServeOp.grants op = false) p) (h : GrantsKept s₀ s) :
    Always serveMachine p (fun _ s' => GrantsSound s₀ s') s := by
  refine always_mono (always_keeps hp (I := GrantsKept s₀)
    (fun op t answer t' hop hkept hstep => ?_) h)
    fun _ _ hkept => Or.inr hkept
  -- Nothing of a folder or of the list of grants is touched.
  cases op with
  | verifyForm right form => exact hstep ▸ hkept
  | inspectPath path => exact hstep.2 ▸ hkept
  | sharepoint op =>
      rcases hstep with ⟨sp, -, rfl⟩
      exact ⟨⟨hkept.seen, hkept.accounts, hkept.listed⟩, fun p w =>
        (hkept.explained p w).imp_right fun h => ⟨⟨h.1.before, h.1.now⟩, h.2⟩⟩
  | listSharing => exact hstep ▸ hkept
  | getpwnam name => exact hstep.2 ▸ hkept
  | getpwuid uid => exact hstep.2 ▸ hkept
  | authenticationAuthority name => exact hstep ▸ hkept
  | aceFor path who => exact hstep.2 ▸ hkept
  | aceAdd who path => exact nomatch hop
  | aceRemove who path => exact nomatch hop
  | grantsAdd user path => exact nomatch hop

/-- What only reads grants nothing. -/
theorem Reads.ungranting {p : ServeM α} (hp : Reads p) :
    Performs (S := serveSig) (fun op => ServeOp.grants op = false) p :=
  footprint_mono hp (fun op hop => by cases op <;> first | rfl | exact nomatch hop)
    fun _ _ => trivial

/-- Nor do the sharepoint verbs. -/
theorem withSharepoints_ungranting (p : SharepointM α) :
    Performs (S := serveSig) (fun op => ServeOp.grants op = false) (withSharepoints p) :=
  footprint_translate (footprint_mono (footprint_any p fun _ => trivial)
    (fun op _ => by cases op <;> rfl) fun _ _ => trivial)

/-- Nor does `auth.check`. -/
theorem authCheck_ungranting (req : HelperRequest) :
    Performs (S := serveSig) (fun op => ServeOp.grants op = false) (authCheck req) := by
  unfold authCheck
  split
  · split
    · exact ⟨rfl, fun _ => trivial⟩
    · trivial
  · trivial

/-- One connection. -/
theorem always_serveOne (expectedPeer : Nat) (conn : Connecting) (h : GrantsKept s₀ s) :
    Always serveMachine (serveOne expectedPeer conn) (fun _ s' => GrantsSound s₀ s') s := by
  unfold serveOne
  -- Who asks, and whether the request can be read.
  split
  · exact Or.inr h
  split
  · exact Or.inr h
  split
  · exact Or.inr h
  rename_i req _
  unfold serveVerb
  -- The verbs in the order of the source; one of them gives access.
  split
  · exact always_ungranting (reads_shareList req).ungranting h
  split
  · exact always_ungranting (authCheck_ungranting req) h
  split
  · exact always_ungranting (reads_pathInspect req).ungranting h
  split
  · exact always_ungranting (reads_accountSmb req).ungranting h
  split
  · exact always_shareGrant req h
  split
  · exact always_ungranting (reads_shareOwned req).ungranting h
  split
  · exact always_ungranting (performs_bind (withSharepoints_ungranting _) fun _ => trivial) h
  split
  · exact always_ungranting (performs_bind (withSharepoints_ungranting _) fun _ => trivial) h
  · exact Or.inr h

end Keeping

section Runs

/-- The helper serves one connection, to its end. -/
def Serves (expectedPeer : Nat) (s : HelperDisk) (conn : Connecting) (s' : HelperDisk) : Prop :=
  ∃ r, Exec serveMachine (serveOne expectedPeer conn) s r s'

/-- The helper has served any number of connections. -/
abbrev HelperServed (expectedPeer : Nat) (s₀ s : HelperDisk) : Prop :=
  GuardedRun (Serves expectedPeer) (fun _ _ => True) s₀ s

variable {expectedPeer : Nat} {s₀ s : HelperDisk}

theorem served_sound (h : s₀.grants = []) (hrun : HelperServed expectedPeer s₀ s) :
    GrantsSound s₀ s := by
  refine GuardedRun.invariant (GrantsSound s₀) (Or.inr (kept_start h))
    (fun t conn t' hsound _ hstep => ?_)
    hrun
  rcases hstep with ⟨r, hx⟩
  rcases hsound with hamiss | hkept
  · exact Or.inl (always_exec (amiss_stays _ hamiss) hx)
  · exact always_exec (always_serveOne expectedPeer conn hkept) hx

/-- Whatever the helper has been asked: unless something went amiss, an account is allowed or
    denied on a folder what it was, or it was said nothing of, is allowed to write now, and is
    on record as a person's. -/
theorem grants_accounted (expectedPeer : Nat) (s₀ s : HelperDisk) (path : List UInt8) (who : Nat)
    (hempty : s₀.grants = []) (hrun : HelperServed expectedPeer s₀ s) (hwell : s.amiss = false) :
    aceFor (s.folders path).acl who = aceFor (s₀.folders path).acl who ∨
      aceFor (s₀.folders path).acl who = .none ∧ aceFor (s.folders path).acl who = .allow ∧
        AccessRecorded s path who := by
  rcases served_sound hempty hrun with hamiss | hkept
  · rw [hwell] at hamiss
    exact nomatch hamiss
  rcases hkept.explained path who with hsame | ⟨hgiven, hnone | hrecorded⟩
  · exact Or.inl (aceFor_congr hsame)
  · exact Or.inl (hnone.trans hgiven.before.symm)
  · cases hsays : aceFor (s.folders path).acl who with
    | none => exact Or.inl hgiven.before.symm
    | allow => exact Or.inr ⟨hgiven.before, rfl, hrecorded⟩
    | deny => exact absurd hsays hgiven.now.aceFor_ne_deny

/-! ### A request for Bob -/

/-- A machine that answers: it finds one folder, and nothing fails. -/
def serveAnswer (report : InspectReport) : (op : ServeOp) → HelperDisk → op.Value × HelperDisk
  | .verifyForm _ _, s => (true, s)
  | .inspectPath _, s => (some report, s)
  | .sharepoint op, s =>
      ((sharepointAnswer op s.sharepoints).1,
        { s with sharepoints := (sharepointAnswer op s.sharepoints).2 })
  | .listSharing, s => (none, s)
  | .getpwnam name, s => ((s.accounts name).map fun account => ⟨name, account⟩, s)
  | .getpwuid _, s => (none, s)
  | .authenticationAuthority _, s => (none, s)
  | .aceFor path who, s => ((s.folders path).access who.uuid, s)
  | .aceAdd who path, s =>
      ((), if (s.folders path).seen = .here then
        s.setAcl path (grantEntry who.account.uuid :: (s.folders path).acl) else s)
  | .aceRemove who path, s =>
      ((), if (s.folders path).seen = .here then
        s.setAcl path (chmodRemove (s.folders path).acl who.account.uuid) else s.spoil)
  | .grantsAdd user path, s =>
      (true, (if userNameOk user = true ∧ 10 ∉ path then s else s.spoil).append
        (grantLine (user, path)))

theorem serveAnswer_machine {report : InspectReport}
    (h : report.resolved.bytes.length < pathMax) (op : ServeOp) (s : HelperDisk) :
    serveMachine op s (serveAnswer report op s).1 (serveAnswer report op s).2 := by
  cases op with
  | verifyForm right form => rfl
  | inspectPath path => exact ⟨fun r hr => Option.some.inj hr ▸ h, rfl⟩
  | sharepoint op => exact ⟨_, sharepointAnswer_machine op s.sharepoints, rfl⟩
  | listSharing => rfl
  | getpwnam name =>
      refine ⟨fun who hwho => ?_, rfl⟩
      rcases Option.map_eq_some_iff.mp hwho with ⟨account, haccount, rfl⟩
      exact haccount
  | getpwuid uid => exact ⟨(fun who hwho => nomatch hwho), rfl⟩
  | authenticationAuthority name => rfl
  | aceFor path who => exact ⟨rfl, rfl⟩
  | aceAdd who path =>
      by_cases hhere : (s.folders path).seen = .here
      · exact Or.inr ⟨hhere, _, Or.inl ⟨[], _, rfl, rfl⟩, if_pos hhere⟩
      · exact Or.inl (if_neg hhere)
  | aceRemove who path =>
      by_cases hhere : (s.folders path).seen = .here
      · exact Or.inr ⟨hhere, if_pos hhere⟩
      · exact Or.inl (if_neg hhere)
  | grantsAdd user path => exact Or.inl rfl

theorem annsPath_noNul : 0 ∉ utf8 (str "/Users/ann/Music") := by
  decide

theorem annsName_noNul : 0 ∉ utf8 (str "ann") := by
  decide

/-- `/Users/ann/Music`. -/
def annsFolder : InspectReport where
  verdict := .ok
  resolved := cString "/Users/ann/Music" annsPath_noNul
  uid := 502
  gid := 20
  mode := 16877
  owner := cString "ann" annsName_noNul
  hasAcl := false
  access := none

/-- Bob is a person, and no folder has an access list. -/
def bobsDisk : HelperDisk where
  sharepoints := .init fun _ => none
  folders := fun _ => { seen := .here, acl := [] }
  accounts := fun name => if name = cBytes "bob" then some { uid := 501, uuid := 7 } else none
  grants := []
  amiss := false

/-- The daemon asks for Bob to be let in. -/
def bobsRequest : HelperRequest where
  verb := cBytes "share.grant"
  auth := some (List.replicate authFormBytes 7)
  args := [cBytes "/Users/ann/Music", cBytes "bob"]

/-- The connection it comes over. -/
def bobsConn : Connecting where
  peer := some 201
  parts := [⟨cBytes ("VERB share.grant\nAUTH " ++
    String.ofList (List.replicate 32 ['0', '7']).flatten ++
    "\nARG /Users/ann/Music\nARG bob\nEND\n"), by decide +kernel⟩]
  ending := .closed

/-- What it leaves. -/
def bobLetIn : HelperDisk :=
  ((serveVerb bobsRequest).run (serveAnswer annsFolder) bobsDisk).2

theorem served_bob : HelperServed 201 bobsDisk bobLetIn := by
  refine .next bobsConn .start trivial
    ⟨((serveVerb bobsRequest).run (serveAnswer annsFolder) bobsDisk).1, ?_⟩
  have haccept : acceptFrame bobsConn.parts bobsConn.ending = some bobsRequest := by decide +kernel
  rw [serveOne_request rfl haccept]
  exact exec_run (serveAnswer_machine (by decide)) _ _

/-- Bob may write there now, and is on record. -/
theorem grants_accounted_bob :
    aceFor (bobLetIn.folders annsFolder.resolved.bytes).acl 7 = .allow ∧
      (aceFor (bobLetIn.folders annsFolder.resolved.bytes).acl 7 =
          aceFor (bobsDisk.folders annsFolder.resolved.bytes).acl 7 ∨
        aceFor (bobsDisk.folders annsFolder.resolved.bytes).acl 7 = .none ∧
          aceFor (bobLetIn.folders annsFolder.resolved.bytes).acl 7 = .allow ∧
            AccessRecorded bobLetIn annsFolder.resolved.bytes 7) :=
  ⟨by decide +kernel,
    grants_accounted 201 bobsDisk bobLetIn annsFolder.resolved.bytes 7 rfl served_bob
      (by decide +kernel)⟩

/-! ### Uninstalling -/

/-- What uninstalling finds. -/
def HelperDisk.installed (s : HelperDisk) (identities : Identity → Bool) (created : List Created) :
    Installed where
  sharepoints := s.sharepoints
  folders := s.folders
  accounts := s.accounts
  granted := (grantsRead s.grants).map fun entry =>
    { user := entry.1, path := entry.2, uuid := ((s.accounts entry.1).map Account.uuid).getD 0 }
  identities := identities
  created := created

/-- An uninstall that is refused nothing takes back what is on record. -/
theorem GrantsKept.takes_iff (h : GrantsKept s₀ s) (identities : Identity → Bool)
    (created : List Created)
    {r : Refuses} (hallowed : ∀ w p, r.access w p = false) (path : List UInt8) (who : Nat) :
    who ∈ (s.installed identities created).takenAt r path
      (s.installed identities created).granted ↔ AccessRecorded s path who := by
  rcases h.listed with ⟨entries, hfile, hlisted⟩
  have hread : grantsRead s.grants = entries := by
    rw [hfile, grantsRead_lines fun e he => (hlisted e he).toRecordableGrant]
  rw [Installed.mem_takenAt]
  constructor
  · rintro ⟨-, -, g, hg, hpath, account, hperson, huuid⟩
    rcases List.mem_map.mp hg with ⟨⟨user, p⟩, hentry, rfl⟩
    dsimp only at hpath
    subst hpath
    unfold Installed.person at hperson
    -- The account is looked up by the name in the line, whose uid must still be that.
    split at hperson
    · rcases Option.filter_eq_some_iff.mp hperson with ⟨haccount, huid⟩
      exact ⟨user, account, hentry, haccount, of_decide_eq_true huid, huuid⟩
    · exact nomatch hperson
  · rintro ⟨user, account, hentry, haccount, huid, huuid⟩
    have hline := hlisted (user, path) (hread ▸ hentry)
    refine ⟨(h.seen path).trans hline.here, hallowed who path, _, List.mem_map_of_mem hentry, rfl,
      account, ?_, huuid⟩
    unfold Installed.person
    rw [if_pos hline.user]
    exact Option.filter_eq_some_iff.mpr ⟨haccount, decide_eq_true huid⟩

/-- After any number of requests and an uninstall that is not refused to take an entry back,
    every folder says of every account what it did at the beginning, unless something went
    amiss. -/
theorem grants_given_back (expectedPeer : Nat) (s₀ s : HelperDisk) (identities : Identity → Bool)
    (created : List Created) (r : Refuses) (path : List UInt8) (who : Nat)
    (hempty : s₀.grants = []) (hrun : HelperServed expectedPeer s₀ s) (hwell : s.amiss = false)
    (hallowed : ∀ w p, r.access w p = false) :
    aceFor (((s.installed identities created).uninstall r).folders path).acl who =
      aceFor (s₀.folders path).acl who := by
  rcases served_sound hempty hrun with hamiss | hkept
  · rw [hwell] at hamiss
    exact nomatch hamiss
  rw [(Installed.uninstall_leaves r (s.installed identities created)).acl path]
  have htaken := hkept.takes_iff identities created hallowed path who
  generalize (s.installed identities created).takenAt r path
    (s.installed identities created).granted = whos at htaken
  change aceFor (List.foldl chmodRemove (s.folders path).acl whos) who = _
  by_cases hrecorded : AccessRecorded s path who
  · -- what is on record was not said at the beginning
    have hbefore : aceFor (s₀.folders path).acl who = .none := by
      rcases hkept.listed with ⟨entries, hfile, hlisted⟩
      rcases hrecorded with ⟨user, account, hentry, haccount, -, rfl⟩
      rw [hfile, grantsRead_lines fun e he => (hlisted e he).toRecordableGrant] at hentry
      rcases (hlisted _ hentry).somebody with ⟨account', haccount', -, hnone⟩
      rw [hkept.accounts, haccount'] at haccount
      rw [← Option.some.inj haccount]
      exact hnone
    have honly : OnlyGrants (s.folders path).acl who := by
      rcases hkept.explained path who with hsame | ⟨hgiven, -⟩
      · exact onlyGrants_of_none ((aceFor_congr hsame).trans hbefore)
      · exact hgiven.now
    rw [hbefore, (honly.foldl whos).2 (Or.inl (htaken.mpr hrecorded))]
  · rw [aceFor_congr (entriesOf_foldl (fun hmem => hrecorded (htaken.mp hmem)) _)]
    rcases hkept.explained path who with hsame | ⟨hgiven, hnone | hrec⟩
    · exact aceFor_congr hsame
    · exact hnone.trans hgiven.before.symm
    · exact absurd hrec hrecorded

/-- Bob was let in, and is not after an uninstall. -/
theorem grants_given_back_bob :
    aceFor (((bobLetIn.installed (fun _ => false) []).uninstall
        { sharepoint := fun _ => false, access := fun _ _ => false,
          identity := fun _ => false }).folders annsFolder.resolved.bytes).acl 7 =
      aceFor (bobsDisk.folders annsFolder.resolved.bytes).acl 7 :=
  grants_given_back 201 bobsDisk bobLetIn (fun _ => false) [] _ annsFolder.resolved.bytes 7 rfl
    served_bob (by decide +kernel) fun _ _ => rfl

end Runs

end Smbpal
