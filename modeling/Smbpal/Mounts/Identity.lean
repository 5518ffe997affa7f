import Smbpal.Config.Schema
import Smbpal.Mounts.Volumes
import Smbpal.Python.Urls

/-!
# One Identity per Share

`volumes.key_for_url` and `volumes.parse_from_name`: the key of a share, read out
of the URL that `netfs.smb_url` builds and out of the name the kernel has for a
mount. The agent finds a connection's mount by its key, so all three have to
agree on every host and share that the schema accepts.

They do where the host says nothing to a reader of URLs: the schema keeps a
slash, a bracket and a percent sign out of a host, and leaves `@`, `?`, `#`
and `:` in (`share_identity_iff`).

## Main definitions

* `keyForUrl`, `parseFromName`: `key_for_url` and `parse_from_name`.
* `kernelName`: The kernel's name of a mounted share.
* `HostStays`, `AccountStays`: A host and an account that a reader takes as they
  are.
* `LawfulLower`: What is known of the lower case of a text.

## Theorems

* `urlAgrees_iff`: When the key of a share is the key of its URL.
* `nameAgrees_iff`: When it is the key of what the kernel calls it.
* `share_identity_iff`: When a share has one identity.
-/

namespace Smbpal

section Readers

variable [Unicode]

/-- `key_for_url`. -/
def keyForUrl (nfkc : Str → Str) (url : Str) : Except Exc MountKey := do
  let parts ← urlsplit nfkc url
  let path := parts.path.dropWhile fun c => decide (c = chr '/')
  return mountKey (parts.hostname.getD []) (unquote (beforeChar '/' path))

omit [Unicode] in
/-- `parse_from_name`. -/
def parseFromName (source : Str) : Option (Str × Str) :=
  let rest := source.drop 2
  let path := behindChar '/' rest
  let host := behindLastChar '@' (beforeChar '/' rest)
  let share := unquote (beforeChar '/' path)
  if startsWith source "//" = false ∨ chr '/' ∉ rest ∨ path = [] then none
  else if host = [] ∨ share = [] then none
  else some (host, share)

/-- The key of the mount the kernel has this name for. -/
def keyForName (source : Str) : Option MountKey :=
  (parseFromName source).map fun name => mountKey name.1 name.2

end Readers

section Names

/-- The host as it stands in a URL. -/
def urlHost (host : Str) : Str :=
  if chr ':' ∈ host ∧ startsWith host "[" = false then str "[" ++ host ++ str "]" else host

/-- The kernel's name of a share mounted for an account. -/
def kernelName (account host share : Str) : Str :=
  str "//" ++ (account ++ chr '@' :: (host ++ chr '/' :: share))

/-- The host in the kernel's name, which may have brackets around it. -/
def KernelHost (host written : Str) : Prop :=
  written = host ∨ written = chr '[' :: (host ++ [chr ']'])

/-- A host that a reader of URLs takes as it is. -/
structure HostStays (nfkc : Str → Str) (host : Str) : Prop where
  /-- It neither ends an address nor stands for a user in front of it. -/
  plain : ∀ c ∈ str "@?#", c ∉ host
  /-- With a colon it is an address that has to stand in brackets. -/
  literal : chr ':' ∈ host → checkBracketedHost host = true
  /-- It brings in none of them where its characters are normalised. -/
  normal : checkNetloc nfkc (urlHost host) = true

variable [Unicode]

/-- What an account with a slash says to a reader that stops at the slash, and it happens to be the
    share. -/
structure NamesItself (account host share written : Str) : Prop where
  host_ne_nil : behindLastChar '@' (beforeChar '/' account) ≠ []
  host_eq : lower (stripBrackets (behindLastChar '@' (beforeChar '/' account))) = lower host
  share_ne_nil : unquote (beforeChar '/' (behindChar '/' account ++ chr '@' :: written)) ≠ []
  share_eq : lower (unquote (beforeChar '/' (behindChar '/' account ++ chr '@' :: written))) =
    lower share

/-- An account behind which the rest of the kernel's name is read as it is. -/
def AccountStays (account host share : Str) : Prop :=
  chr '/' ∉ account ∨ ∀ written, KernelHost host written → NamesItself account host share written

/-- The key of a share is that of its URL, and nothing raises. -/
def UrlAgrees (nfkc : Str → Str) (host share : Str) : Prop :=
  ∃ url, netfsSmbUrl host share = .ok url ∧ keyForUrl nfkc url = .ok (mountKey host share)

/-- The key of a share is that of the mount the kernel has a name for, however it writes the
    share. -/
def NameAgrees (account host share : Str) : Prop :=
  ∀ bytes text written, encode share = some bytes → PercentEncoded bytes text →
    KernelHost host written →
      keyForName (kernelName account written text) = some (mountKey host share)

/-- What is known of the lower case of a text: it is its own, and every ASCII character that is not
    a letter stands for itself alone. -/
structure LawfulLower : Prop where
  idempotent : ∀ s, lower (lower s) = lower s
  keeps : ∀ c s, ord c < 128 → isLowerLetter c = false → isUpperLetter c = false →
    (c ∈ lower s ↔ c ∈ s)

end Names

section Quoting

theorem isUnreserved_bounds {b : UInt8} (h : isUnreserved b = true) :
    b.toNat < 128 ∧ oneOf "\t\r\n?#/%" (chr (Char.ofNat b.toNat)) = false := by
  have hranges : 48 ≤ b.toNat ∧ b.toNat ≤ 57 ∨ 65 ≤ b.toNat ∧ b.toNat ≤ 90 ∨
      97 ≤ b.toNat ∧ b.toNat ≤ 122 ∨ b.toNat = 45 ∨ b.toNat = 46 ∨ b.toNat = 95 ∨
        b.toNat = 126 := by
    simp only [isUnreserved, Bool.or_eq_true, decide_eq_true_eq, UInt8.le_iff_toNat_le,
      ← UInt8.toNat_inj, UInt8.reduceToNat] at h
    omega
  have hlow : b.toNat < 128 := by omega
  refine ⟨hlow, decide_eq_false fun hmem => ?_⟩
  have hords : ∀ c ∈ str "\t\r\n?#/%", ord c ∈ [9, 13, 10, 63, 35, 47, 37] := by decide
  have hord := hords _ hmem
  rw [ord_chr_byte hlow] at hord
  simp only [List.mem_cons, List.not_mem_nil, or_false] at hord
  omega

theorem hexDigit_spec {n : Nat} (h : n < 16) :
    hexValue (hexDigit n) = some n ∧ oneOf "\t\r\n?#/" (hexDigit n) = false := by
  have hall : ∀ n < 16,
      hexValue (hexDigit n) = some n ∧ oneOf "\t\r\n?#/" (hexDigit n) = false := by decide
  exact hall n h

theorem oneOf_mono {s t : String} {c : PyChar} (hsub : str s ⊆ str t) (h : oneOf t c = false) :
    oneOf s c = false :=
  decide_eq_false fun hc => of_decide_eq_false h (hsub hc)

/-- `quote` writes a byte in one of the ways there are, and with nothing that a reader of URLs
    looks for. -/
theorem quoteByte_spec (b : UInt8) :
    EncodedByte b (quoteByte b) ∧ ∀ c ∈ quoteByte b, oneOf "\t\r\n?#/" c = false := by
  have hb := b.toNat_lt
  unfold quoteByte
  by_cases hplain : isUnreserved b = true
  · rcases isUnreserved_bounds hplain with ⟨hlow, hnone⟩
    -- An unreserved byte is written as itself, and is neither of these.
    have hne : ∀ c ∈ str "/%", chr (Char.ofNat b.toNat) ≠ c := by
      intro c hc heq
      rw [heq] at hnone
      have hsub : str "/%" ⊆ str "\t\r\n?#/%" := by decide
      exact of_decide_eq_false hnone (hsub hc)
    rw [if_pos hplain]
    refine ⟨.raw hlow (fun heq => ?_) fun heq => ?_, fun c hc => ?_⟩
    · exact hne (chr '%') (by decide) (by rw [heq]; rfl)
    · exact hne (chr '/') (by decide) (by rw [heq]; rfl)
    · rw [List.mem_singleton.mp hc]
      exact oneOf_mono (by decide) hnone
  · -- Any other is written as a percent sign and two digits.
    rcases hexDigit_spec (n := b.toNat / 16) (by omega) with ⟨hhigh, hhighNone⟩
    rcases hexDigit_spec (Nat.mod_lt b.toNat (by omega : 16 > 0)) with ⟨hlow, hlowNone⟩
    rw [if_neg hplain]
    refine ⟨.escaped hhigh hlow, fun c hc => ?_⟩
    simp only [List.mem_cons, List.not_mem_nil, or_false] at hc
    rcases hc with rfl | rfl | rfl
    · decide
    · exact hhighNone
    · exact hlowNone

/-- What `quote` writes is read back, and has nothing that a reader of URLs looks for. -/
theorem quote_spec (bytes : List UInt8) : PercentEncoded bytes (bytes.flatMap quoteByte) ∧
    ∀ c ∈ bytes.flatMap quoteByte, oneOf "\t\r\n?#/" c = false := by
  induction bytes with
  | nil => exact ⟨.nil, fun _ hc => absurd hc List.not_mem_nil⟩
  | cons b bytes ih =>
      rw [List.flatMap_cons]
      exact ⟨.cons (quoteByte_spec b).1 ih.1,
        List.forall_mem_append.mpr ⟨(quoteByte_spec b).2, ih.2⟩⟩

/-- The URL of a share, when it has one. -/
theorem netfsSmbUrl_eq {host share : Str} {bytes : List UInt8} (h : encode share = some bytes) :
    netfsSmbUrl host share =
      .ok (str "smb://" ++ (urlHost host ++ chr '/' :: bytes.flatMap quoteByte)) := by
  have hslash : ∀ a b : Str, a ++ str "/" ++ b = a ++ chr '/' :: b := fun a b => by
    rw [List.append_assoc]
    rfl
  simp only [netfsSmbUrl, quote, h, Option.map_some]
  rw [hslash, List.append_assoc]
  rfl

end Quoting

section Hosts

variable {host : Str}

/-- What the schema keeps out of a host. -/
theorem IsName.host_clean (h : IsName 253 hostForbidden host) :
    ∀ c ∈ str "\t\r\n/[]%", c ∉ host := by
  have hsub : str "\t\r\n/[]%" ⊆ str hostForbidden := by decide
  exact fun c hc => h.not_mem (hsub hc)

theorem urlHost_of_colon (hbracket : chr '[' ∉ host) (h : chr ':' ∈ host) :
    urlHost host = chr '[' :: (host ++ [chr ']']) := by
  have hstart : startsWith host "[" = false := by
    cases host with
    | nil => rfl
    | cons c host =>
        rw [List.mem_cons, not_or] at hbracket
        have hne : (chr '[' == c) = false := beq_eq_false_iff_ne.mpr hbracket.1
        change (chr '[' == c && _) = false
        rw [hne, Bool.false_and]
  rw [urlHost, if_pos ⟨h, hstart⟩]
  rfl

theorem urlHost_of_not_colon (h : chr ':' ∉ host) : urlHost host = host :=
  if_neg fun hboth => h hboth.1

/-- A host in a URL has the characters it has, and perhaps brackets around them. -/
theorem mem_urlHost {c : PyChar} (h : c ∈ urlHost host) :
    c ∈ host ∨ c = chr '[' ∨ c = chr ']' := by
  unfold urlHost at h
  split at h
  · simp only [List.mem_append] at h
    rcases h with (h | h) | h
    · exact Or.inr (Or.inl (List.mem_singleton.mp h))
    · exact Or.inl h
    · exact Or.inr (Or.inr (List.mem_singleton.mp h))
  · exact Or.inl h

theorem stripBrackets_of_not_mem (hopen : chr '[' ∉ host) (hclose : chr ']' ∉ host) :
    stripBrackets host = host := by
  refine stripWhile_of_not fun c hc => decide_eq_false ?_
  rintro (rfl | rfl)
  · exact hopen hc
  · exact hclose hc

/-- Around a host without brackets, one pair is stripped. -/
theorem stripBrackets_written {written : Str} (hopen : chr '[' ∉ host) (hclose : chr ']' ∉ host)
    (h : KernelHost host written) : stripBrackets written = host := by
  rcases h with rfl | rfl
  · exact stripBrackets_of_not_mem hopen hclose
  · have hstays := stripBrackets_of_not_mem hopen hclose
    unfold stripBrackets stripWhile at hstays ⊢
    rw [List.dropWhile_cons_of_pos (by decide)]
    cases host with
    | nil => rfl
    | cons c host =>
        have hc : decide (c = chr '[' ∨ c = chr ']') = false := by
          refine decide_eq_false ?_
          rintro (rfl | rfl)
          · exact hopen List.mem_cons_self
          · exact hclose List.mem_cons_self
        rw [List.dropWhile_cons_of_neg (by rw [hc]; decide)] at hstays
        rw [List.cons_append, List.dropWhile_cons_of_neg (by rw [hc]; decide), ← List.cons_append,
          List.rdropWhile_concat_pos _ _ _ (by decide)]
        exact hstays

end Hosts

section Urls

variable [Unicode] {nfkc : Str → Str} {host share : Str} {c : PyChar}

/-- What a character has to be for `lower` to leave it alone. -/
def isFixed (c : PyChar) : Bool :=
  decide (ord c < 128) && !isLowerLetter c && !isUpperLetter c

omit [Unicode] in
theorem fixed_facts (h : isFixed c = true) :
    ord c < 128 ∧ isLowerLetter c = false ∧ isUpperLetter c = false := by
  unfold isFixed at h
  simp only [Bool.and_eq_true, decide_eq_true_eq, Bool.not_eq_true'] at h
  exact ⟨h.1.1, h.1.2, h.2⟩

theorem LawfulLower.mem_lower (hlower : LawfulLower) (h : isFixed c = true) (s : Str) :
    c ∈ lower s ↔ c ∈ s :=
  hlower.keeps c s (fixed_facts h).1 (fixed_facts h).2.1 (fixed_facts h).2.2

omit [Unicode] in
theorem mem_hostText {parts : SplitResult} (h : c ∈ parts.hostText) :
    c ∈ behindLastChar '@' parts.netloc := by
  unfold SplitResult.hostText at h
  dsimp only at h
  split at h
  · exact mem_of_mem_behindChar (mem_of_mem_beforeChar h)
  · exact mem_of_mem_beforeChar h

/-- A character that `lower` leaves alone is in a host only where it is behind the last `@`. -/
theorem mem_hostname (hlower : LawfulLower) (hfixed : isFixed c = true) {parts : SplitResult}
    (h : c ∈ parts.hostname.getD []) : c ∈ behindLastChar '@' parts.netloc := by
  unfold SplitResult.hostname at h
  dsimp only at h
  split at h
  · exact absurd h List.not_mem_nil
  · rw [Option.getD_some, List.mem_append] at h
    rcases h with h | h
    · exact mem_hostText (mem_of_mem_beforeChar ((hlower.mem_lower hfixed _).mp h))
    · exact mem_hostText (List.dropWhile_subset _ h)

/-- A host that stays is the host of its URL. -/
theorem hostname_urlHost (hname : IsName 253 hostForbidden host) (h : HostStays nfkc host)
    {parts : SplitResult} (hnetloc : parts.netloc = urlHost host) :
    parts.hostname = some (lower host) := by
  have hclean := hname.host_clean
  have htext : parts.hostText = host := by
    have hat : chr '@' ∉ urlHost host := by
      intro hmem
      rcases mem_urlHost hmem with hmem | heq | heq
      · exact h.plain _ (by decide) hmem
      · exact absurd heq (by decide)
      · exact absurd heq (by decide)
    unfold SplitResult.hostText
    rw [hnetloc, behindLastChar_of_not_mem hat]
    -- A host with a colon stands in brackets, which the reading takes away.
    by_cases hcolon : chr ':' ∈ host
    · rw [urlHost_of_colon (hclean _ (by decide)) hcolon, if_pos List.mem_cons_self]
      have hbehind : behindChar '[' (chr '[' :: (host ++ [chr ']'])) = host ++ [chr ']'] :=
        behindChar_append (a := []) List.not_mem_nil
      rw [hbehind, beforeChar_append (hclean _ (by decide))]
    · rw [urlHost_of_not_colon hcolon, if_neg (hclean _ (by decide)), beforeChar_of_not_mem hcolon]
  have hpercent : host.dropWhile (fun c => decide (c ≠ chr '%')) = [] :=
    List.dropWhile_eq_nil_iff.mpr (ne_of_not_mem (hclean _ (by decide)))
  unfold SplitResult.hostname
  rw [htext, if_neg hname.nonempty, beforeChar_of_not_mem (hclean _ (by decide)), hpercent,
    List.append_nil]

omit [Unicode] in
theorem oneOf_urlHost (hname : IsName 253 hostForbidden host) (hplain : ∀ c ∈ str "@?#", c ∉ host) :
    ∀ c ∈ urlHost host, oneOf "/?#" c = false := by
  intro c hc
  refine decide_eq_false fun hmem => ?_
  rcases mem_urlHost hc with hhost | rfl | rfl
  · have hsplit : str "/?#" ⊆ str "/" ++ str "@?#" := by decide
    rcases List.mem_append.mp (hsplit hmem) with hslash | hother
    · rw [List.mem_singleton.mp hslash] at hhost
      exact hname.host_clean _ (by decide) hhost
    · exact hplain c hother hhost
  · exact absurd hmem (by decide)
  · exact absurd hmem (by decide)

omit [Unicode] in
theorem oneOf_address {bytes : List UInt8} (hname : IsName 253 hostForbidden host) :
    ∀ c ∈ urlHost host ++ chr '/' :: bytes.flatMap quoteByte, oneOf "\t\r\n" c = false := by
  intro c hc
  rw [List.mem_append, List.mem_cons] at hc
  rcases hc with hc | rfl | hc
  · refine decide_eq_false fun hmem => ?_
    rcases mem_urlHost hc with hhost | rfl | rfl
    · have hsub : str "\t\r\n" ⊆ str "\t\r\n/[]%" := by decide
      exact hname.host_clean c (hsub hmem) hhost
    · exact absurd hmem (by decide)
    · exact absurd hmem (by decide)
  · decide
  · exact oneOf_mono (by decide) ((quote_spec bytes).2 c hc)

omit [Unicode] in
/-- The brackets of a host that stays are right. -/
theorem checkBrackets_urlHost (hname : IsName 253 hostForbidden host) :
    checkBrackets (urlHost host) = true ↔ (chr ':' ∈ host → checkBracketedHost host = true) := by
  have hopen : chr '[' ∉ host := hname.host_clean _ (by decide)
  have hclose : chr ']' ∉ host := hname.host_clean _ (by decide)
  unfold checkBrackets
  by_cases hcolon : chr ':' ∈ host
  · have hbehind : behindChar '[' (chr '[' :: (host ++ [chr ']'])) = host ++ [chr ']'] :=
      behindChar_append (a := []) List.not_mem_nil
    have hin : chr ']' ∈ chr '[' :: (host ++ [chr ']']) :=
      List.mem_cons_of_mem _ (List.mem_append_right _ (List.mem_singleton_self _))
    rw [urlHost_of_colon hopen hcolon, if_pos ⟨List.mem_cons_self, hin⟩, hbehind,
      beforeChar_append hclose]
    exact ⟨fun h _ => h, fun h => h hcolon⟩
  · rw [urlHost_of_not_colon hcolon, if_neg fun h => hopen h.1]
    exact ⟨fun _ h => absurd h hcolon, fun _ => decide_eq_true ⟨hopen, hclose⟩⟩

/-- The host of a key is the host in lower case. -/
theorem mountKey_host (hname : IsName 253 hostForbidden host) :
    mountKey host share = (lower host, lower share) := by
  rw [mountKey, stripBrackets_of_not_mem (hname.host_clean _ (by decide))
    (hname.host_clean _ (by decide))]

/-- A character that marks something in a URL is lost with what it marks. -/
theorem mark_not_mem (hlower : LawfulLower) {parts : SplitResult}
    (hhost : lower (stripBrackets (parts.hostname.getD [])) = lower host)
    (hc : c ∈ str "@?#") (hlost : c ∉ behindLastChar '@' parts.netloc) : c ∉ host := by
  have hfixed : isFixed c = true ∧ decide (c = chr '[' ∨ c = chr ']') = false := by
    have hall : ∀ c ∈ str "@?#",
        isFixed c = true ∧ decide (c = chr '[' ∨ c = chr ']') = false := by decide
    exact hall c hc
  intro hmem
  refine hlost (mem_hostname hlower hfixed.1 ?_)
  have hlow := (hlower.mem_lower hfixed.1 host).mpr hmem
  rw [← hhost] at hlow
  exact (mem_stripWhile hfixed.2).mp ((hlower.mem_lower hfixed.1 _).mp hlow)

/-- The key of a share is the key of its URL exactly when its host stays and its name has a
    UTF-8. -/
theorem urlAgrees_iff (hlower : LawfulLower) (hname : IsName 253 hostForbidden host) :
    UrlAgrees nfkc host share ↔ HostStays nfkc host ∧ IsPlain share := by
  constructor
  · rintro ⟨url, hurl, hkey⟩
    have hplain : IsPlain share := by
      rcases hencode : encode share with _ | bytes
      · have hnone := (netfsSmbUrl_ok_iff host share).mp ⟨url, hurl⟩
        exact absurd hencode hnone
      · exact isPlain_of_encode hencode
    rcases hplain.encodes with ⟨bytes, hbytes⟩
    rw [netfsSmbUrl_eq hbytes, Except.ok.injEq] at hurl
    rw [← hurl, keyForUrl, urlsplit_smb (oneOf_address hname)] at hkey
    by_cases hbad : checkBrackets (netlocOf (urlHost host ++ chr '/' :: bytes.flatMap quoteByte)) =
        false ∨ checkNetloc nfkc (netlocOf (urlHost host ++ chr '/' :: bytes.flatMap quoteByte)) =
          false
    · rw [if_pos hbad] at hkey
      cases hkey
    rw [if_neg hbad, mountKey_host hname] at hkey
    have hhost := congrArg Prod.fst (Except.ok.inj hkey)
    -- With none of the marks in it, all of the host is in front of the first slash.
    have hmarks : ∀ c ∈ str "@?#", c ∉ host := by
      intro c hc
      refine mark_not_mem hlower hhost hc fun hmem => ?_
      have hcases : c = chr '@' ∨ oneOf "/?#" c = true := by
        have hall : ∀ c ∈ str "@?#", c = chr '@' ∨ oneOf "/?#" c = true := by decide
        exact hall c hc
      rcases hcases with rfl | hsplit
      · exact not_mem_behindLastChar hmem
      · have hnone := oneOf_of_mem_netlocOf (mem_of_mem_behindLastChar hmem)
        rw [hnone] at hsplit
        exact Bool.false_ne_true hsplit
    rw [netlocOf_append (oneOf_urlHost hname hmarks), not_or, Bool.not_eq_false,
      Bool.not_eq_false] at hbad
    exact ⟨⟨hmarks, (checkBrackets_urlHost hname).mp hbad.1, hbad.2⟩, hplain⟩
  · rintro ⟨hhost, hplain⟩
    rcases hplain.encodes with ⟨bytes, hbytes⟩
    have hgood : ¬(checkBrackets (urlHost host) = false ∨
        checkNetloc nfkc (urlHost host) = false) := by
      rw [(checkBrackets_urlHost hname).mpr hhost.literal, hhost.normal]
      decide
    have hnone := (quote_spec bytes).2
    have hchar : ∀ c ∈ str "?#/", c ∉ bytes.flatMap quoteByte := by
      intro c hc hmem
      have hsub : str "?#/" ⊆ str "\t\r\n?#/" := by decide
      exact of_decide_eq_false (hnone c hmem) (hsub hc)
    have hsplit := oneOf_urlHost hname hhost.plain
    rcases smbParts_append hsplit (hchar _ (by decide)) (hchar _ (by decide)) with ⟨hnetloc, hpath⟩
    have hslash : chr '/' ∉ bytes.flatMap quoteByte := hchar _ (by decide)
    have hstrip : (chr '/' :: bytes.flatMap quoteByte).dropWhile (fun c => decide (c = chr '/')) =
        bytes.flatMap quoteByte := by
      rw [List.dropWhile_cons_of_pos (by decide)]
      cases hquoted : bytes.flatMap quoteByte with
      | nil => rfl
      | cons c rest =>
          rw [hquoted, List.mem_cons, not_or] at hslash
          exact List.dropWhile_cons_of_neg (by rw [decide_eq_true_eq]; exact Ne.symm hslash.1)
    have hopen : chr '[' ∉ lower host := fun h =>
      hname.host_clean _ (by decide) ((hlower.mem_lower (by decide) host).mp h)
    have hclose : chr ']' ∉ lower host := fun h =>
      hname.host_clean _ (by decide) ((hlower.mem_lower (by decide) host).mp h)
    refine ⟨_, netfsSmbUrl_eq hbytes, ?_⟩
    rw [keyForUrl, urlsplit_smb (oneOf_address hname), netlocOf_append hsplit, if_neg hgood]
    change Except.ok (mountKey ((smbParts _).hostname.getD [])
      (unquote (beforeChar '/' ((smbParts _).path.dropWhile _)))) = _
    rw [hostname_urlHost hname hhost hnetloc, hpath, hstrip, beforeChar_of_not_mem hslash,
      unquote_percentEncoded (quote_spec bytes).1 hbytes, Option.getD_some, mountKey_host hname,
      mountKey, stripBrackets_of_not_mem hopen hclose, hlower.idempotent]

end Urls

section KernelNames

variable [Unicode] {account host share written text : Str}

omit [Unicode] in
theorem slash_not_mem_written (hname : IsName 253 hostForbidden host)
    (h : KernelHost host written) : chr '/' ∉ written := by
  have hslash : chr '/' ∉ host := hname.host_clean _ (by decide)
  rcases h with rfl | rfl
  · exact hslash
  · rw [List.mem_cons, List.mem_append, List.mem_singleton]
    rintro (heq | hmem | heq)
    · exact absurd heq (by decide)
    · exact hslash hmem
    · exact absurd heq (by decide)

omit [Unicode] in
theorem at_not_mem_written (hat : chr '@' ∉ host) (h : KernelHost host written) :
    chr '@' ∉ written := by
  rcases h with rfl | rfl
  · exact hat
  · rw [List.mem_cons, List.mem_append, List.mem_singleton]
    rintro (heq | hmem | heq)
    · exact absurd heq (by decide)
    · exact hat hmem
    · exact absurd heq (by decide)

/-- Behind an account without a slash, the host and the share are read as they are. -/
theorem keyForName_plain {bytes : List UInt8} (haccount : chr '/' ∉ account)
    (hname : IsName 253 hostForbidden host) (hshare : share ≠ []) (hat : chr '@' ∉ host)
    (hencode : encode share = some bytes) (htext : PercentEncoded bytes text)
    (hwritten : KernelHost host written) :
    keyForName (kernelName account written text) = some (mountKey host share) := by
  have hslash := slash_not_mem_written hname hwritten
  have hclean := hname.host_clean
  -- No slash is before the share's, so the first one cuts there.
  have hplain : chr '/' ∉ account ++ chr '@' :: written := by
    rw [List.mem_append, List.mem_cons, not_or, not_or]
    exact ⟨haccount, by decide, hslash⟩
  have hrest : (kernelName account written text).drop 2 =
      (account ++ chr '@' :: written) ++ chr '/' :: text := by
    rw [List.append_assoc]
    rfl
  have hbytes : bytes ≠ [] := by
    rintro rfl
    exact hshare (encode_injective hencode rfl)
  have hne : text ≠ [] := htext.spec.2.1 hbytes
  have htextSlash : chr '/' ∉ text := fun h => (htext.spec.1 _ h).2 rfl
  have hwrittenNe : written ≠ [] := by
    rcases hwritten with rfl | rfl
    · exact hname.nonempty
    · exact List.cons_ne_nil _ _
  -- The name is one that can be taken apart.
  have hstart : ¬(startsWith (kernelName account written text) "//" = false ∨
      chr '/' ∉ (kernelName account written text).drop 2 ∨
        behindChar '/' ((kernelName account written text).drop 2) = []) := by
    rw [hrest, behindChar_append hplain]
    rintro (h | h | h)
    · exact Bool.false_ne_true h.symm
    · exact h (List.mem_append_right _ List.mem_cons_self)
    · exact hne h
  unfold keyForName parseFromName
  rw [if_neg hstart, hrest, behindChar_append hplain, beforeChar_append hplain,
    behindLastChar_append (at_not_mem_written hat hwritten), beforeChar_of_not_mem htextSlash,
    unquote_percentEncoded htext hencode, if_neg (not_or.mpr ⟨hwrittenNe, hshare⟩), Option.map_some,
    mountKey, stripBrackets_written (hclean _ (by decide)) (hclean _ (by decide)) hwritten,
    mountKey_host hname]

/-- Behind an account with a slash, the account is read in place of the host and the share. -/
theorem keyForName_slash (haccount : chr '/' ∈ account) (hname : IsName 253 hostForbidden host) :
    keyForName (kernelName account written text) = some (mountKey host share) ↔
      NamesItself account host share written := by
  have hrest : (kernelName account written text).drop 2 =
      account ++ chr '@' :: (written ++ chr '/' :: text) := rfl
  -- The first slash is the account's, so the cut is inside it.
  have hbehind : behindChar '/' ((kernelName account written text).drop 2) =
      (behindChar '/' account ++ chr '@' :: written) ++ chr '/' :: text := by
    rw [hrest, behindChar_append_left haccount, List.append_assoc, List.cons_append]
  have hstart : ¬(startsWith (kernelName account written text) "//" = false ∨
      chr '/' ∉ (kernelName account written text).drop 2 ∨
        behindChar '/' ((kernelName account written text).drop 2) = []) := by
    rintro (h | h | h)
    · exact Bool.false_ne_true h.symm
    · rw [hrest] at h
      exact h (List.mem_append_left _ haccount)
    · rw [hbehind] at h
      exact List.cons_ne_nil _ _ (List.append_eq_nil_iff.mp h).2
  unfold keyForName parseFromName
  rw [if_neg hstart, hbehind, beforeChar_cut, hrest, beforeChar_append_left haccount,
    mountKey_host hname]
  constructor
  · intro h
    by_cases hnone : behindLastChar '@' (beforeChar '/' account) = [] ∨
        unquote (beforeChar '/' (behindChar '/' account ++ chr '@' :: written)) = []
    · rw [if_pos hnone] at h
      cases h
    · rw [if_neg hnone, Option.map_some, Option.some.injEq, mountKey, Prod.mk.injEq] at h
      rw [not_or] at hnone
      exact ⟨hnone.1, h.1, hnone.2, h.2⟩
  · intro h
    rw [if_neg (not_or.mpr ⟨h.host_ne_nil, h.share_ne_nil⟩), Option.map_some, mountKey, h.host_eq,
      h.share_eq]

/-- The key of a share is that of the mount the kernel has a name for exactly when the account in
    the name stays. -/
theorem nameAgrees_iff (hname : IsName 253 hostForbidden host) (hshare : share ≠ [])
    (hat : chr '@' ∉ host) (hplain : IsPlain share) :
    NameAgrees account host share ↔ AccountStays account host share := by
  unfold NameAgrees AccountStays
  by_cases haccount : chr '/' ∈ account
  · constructor
    · intro h
      rcases hplain.encodes with ⟨bytes, hbytes⟩
      exact Or.inr fun written hwritten => (keyForName_slash haccount hname).mp
        (h bytes _ written hbytes (quote_spec bytes).1 hwritten)
    · intro h bytes text written _ _ hwritten
      exact (keyForName_slash haccount hname).mpr
        (h.resolve_left (fun hnot => hnot haccount) written hwritten)
  · refine ⟨fun _ => Or.inl haccount, fun _ bytes text written hencode htext hwritten => ?_⟩
    exact keyForName_plain haccount hname hshare hat hencode htext hwritten

/-- A share has one identity, in the config, in its URL and in the kernel's name of its mount,
    exactly when its host, its name and the account stay as they are. The keys of two shares are
    never equal but for the case of their letters. -/
theorem share_identity_iff (hlower : LawfulLower) (nfkc : Str → Str) :
    (∀ host share account, IsName 253 hostForbidden host →
      IsName 80 remoteShareNameForbidden share →
        (UrlAgrees nfkc host share ∧ NameAgrees account host share ↔
          HostStays nfkc host ∧ IsPlain share ∧ AccountStays account host share)) ∧
    ∀ host share host' share', IsName 253 hostForbidden host → IsName 253 hostForbidden host' →
      mountKey host share = mountKey host' share' →
        lower host = lower host' ∧ lower share = lower share' := by
  -- The URL and the kernel's name agree on their own conditions.
  constructor
  · intro host share account hname hshare
    rw [urlAgrees_iff hlower hname]
    constructor
    · rintro ⟨⟨hhost, hplain⟩, hagrees⟩
      exact ⟨hhost, hplain, (nameAgrees_iff hname hshare.nonempty (hhost.plain _ (by decide))
        hplain).mp hagrees⟩
    · rintro ⟨hhost, hplain, haccount⟩
      exact ⟨⟨hhost, hplain⟩, (nameAgrees_iff hname hshare.nonempty (hhost.plain _ (by decide))
        hplain).mpr haccount⟩
  · intro host share host' share' hname hname' hkey
    rw [mountKey_host hname, mountKey_host hname', Prod.mk.injEq] at hkey
    exact hkey

end KernelNames

section Examples

/-- The tables on plain ASCII text do what is known of all tables. -/
theorem lawfulLower_ascii : @LawfulLower Unicode.ascii := by
  have hupper : ∀ n < 91, 65 ≤ n → isLowerLetter (asciiLower (chr (Char.ofNat n))) = true := by
    decide
  -- A letter is lowered to one that is lower, and all else stays.
  have hcases : ∀ c, asciiLower c = c ∨ isLowerLetter (asciiLower c) = true := by
    intro c
    by_cases hc : 65 ≤ ord c ∧ ord c ≤ 90
    · have hchar : chr (Char.ofNat (ord c)) = c := by
        cases c with
        | surrogate n =>
            have hsmall : 0xD800 + n.val ≤ 90 := hc.2
            omega
        | scalar d => exact congrArg PyChar.scalar (Char.ofNat_toNat d)
      have hlow := hupper (ord c) (by omega) hc.1
      rw [hchar] at hlow
      exact Or.inr hlow
    · exact Or.inl (asciiLower_of_not_upper hc)
  have hbounds : ∀ c, isLowerLetter c = true → ¬(65 ≤ ord c ∧ ord c ≤ 90) := by
    intro c hc
    cases c with
    | surrogate n => exact absurd hc Bool.false_ne_true
    | scalar d =>
        simp only [isLowerLetter, Bool.and_eq_true, decide_eq_true_eq] at hc
        change ¬(65 ≤ d.toNat ∧ d.toNat ≤ 90)
        omega
  -- Lowering twice is lowering once, for what it makes is no capital.
  refine @LawfulLower.mk Unicode.ascii ?_ ?_
  · intro s
    change (s.map asciiLower).map asciiLower = s.map asciiLower
    rw [List.map_map]
    refine List.map_congr_left fun c _ => ?_
    rcases hcases c with heq | hlow
    · rw [Function.comp_apply, heq, heq]
    · exact asciiLower_of_not_upper (hbounds _ hlow)
  · intro c s _ hlower hupper
    change c ∈ s.map asciiLower ↔ c ∈ s
    rw [List.mem_map]
    constructor
    · rintro ⟨d, hd, rfl⟩
      rcases hcases d with heq | hlow
      · rw [heq]
        exact hd
      · rw [hlow] at hlower
        cases hlower
    · -- A character with a case is a letter, and this one is no capital.
      intro hc
      refine ⟨c, hc, asciiLower_of_not_upper fun hbetween => ?_⟩
      cases c with
      | surrogate n =>
          have hsmall : 0xD800 + n.val ≤ 90 := hbetween.2
          omega
      | scalar d =>
          have hrange : 65 ≤ d.toNat ∧ d.toNat ≤ 90 := hbetween
          simp only [isUpperLetter, decide_eq_true hrange.1, decide_eq_true hrange.2] at hupper
          cases hupper

attribute [local instance] Unicode.ascii

/-- A share with a blank in its name has one identity. -/
theorem spaced_share_agrees : UrlAgrees id (str "nas.local") (str "My Share") ∧
    NameAgrees (str "WORK;alice") (str "nas.local") (str "My Share") :=
  ((share_identity_iff lawfulLower_ascii id).1 (str "nas.local") (str "My Share")
    (str "WORK;alice") ⟨by decide, by decide, by decide⟩ ⟨by decide, by decide, by decide⟩).mpr
    ⟨⟨by decide, by decide, by decide⟩, isPlain_str _, Or.inl (by decide)⟩

/-- A host that the schema accepts with its port: the URL of a share there has none that can be
    read. -/
theorem port_in_host_raises :
    (IsName 253 hostForbidden (str "nas.local:445") ∧
      IsName 80 remoteShareNameForbidden (str "Media")) ∧
    netfsSmbUrl (str "nas.local:445") (str "Media") = .ok (str "smb://[nas.local:445]/Media") ∧
    keyForUrl id (str "smb://[nas.local:445]/Media") = .error .exception ∧
    ¬UrlAgrees id (str "nas.local:445") (str "Media") := by
  have hurl : netfsSmbUrl (str "nas.local:445") (str "Media") =
      .ok (str "smb://[nas.local:445]/Media") := by
    decide +kernel
  have hkey : keyForUrl id (str "smb://[nas.local:445]/Media") = .error .exception := by
    decide +kernel
  refine ⟨⟨⟨by decide, by decide, by decide⟩, by decide, by decide, by decide⟩, hurl, hkey, ?_⟩
  rintro ⟨url, hurl', hkey'⟩
  rw [hurl, Except.ok.injEq] at hurl'
  rw [← hurl', hkey] at hkey'
  cases hkey'

end Examples

end Smbpal
