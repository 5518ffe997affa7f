import Smbpal.Python.Dumps
import Smbpal.Python.Files
import Smbpal.Errors

/-!
# URLs

What the program takes from `urllib.parse`: `urlsplit` with the host of what it
returns, and `unquote`. A host in brackets has to be an address that
`ipaddress` reads, or one of a kind that is still to come.

`nfkc` is a table of the Unicode version Python was built with, and a parameter
here.

## Main definitions

* `beforeChar`, `behindChar`, `behindLastChar`: `s.partition(c)` and
  `s.rpartition(c)`.
* `isIPv6Address`: What `ipaddress.IPv6Address` reads.
* `urlsplit`, `SplitResult.hostname`: A URL, and the host in it.
* `unquote`: `unquote`.
* `PercentEncoded`: The ways some bytes may be written in a URL.

## Theorems

* `urlsplit_smb`: What an address of the scheme `smb` comes to.
* `mem_hostname`: Where the characters of a host come from.
* `unquote_percentEncoded`: What was written is read back.
-/

namespace Smbpal

section Parts

/-- `s.partition(c)[0]`. -/
def beforeChar (c : Char) (s : Str) : Str :=
  s.takeWhile fun d => decide (d ≠ chr c)

/-- `s.partition(c)[2]`. -/
def behindChar (c : Char) (s : Str) : Str :=
  (s.dropWhile fun d => decide (d ≠ chr c)).tail

/-- `s.rpartition(c)[2]`. -/
def behindLastChar (c : Char) (s : Str) : Str :=
  s.rtakeWhile fun d => decide (d ≠ chr c)

end Parts

section Addresses

/-- `IPv4Address._parse_octet`. -/
def ipv4Octet (octet : Str) : Option Nat :=
  if octet ≠ [] ∧ octet.all isDigit ∧ octet.length ≤ 3 ∧
      (octet = str "0" ∨ octet.head? ≠ some (chr '0')) then
    let n := octet.foldl (fun n c => 10 * n + (ord c - 48)) 0
    if n ≤ 255 then some n else none
  else none

/-- The number of an `IPv4Address`; none is an `AddressValueError`. -/
def ipv4Address (address : Str) : Option Nat :=
  if chr '/' ∈ address then none
  else
    match (splitChar '.' address).map ipv4Octet with
    | [some a, some b, some c, some d] => some (((a * 256 + b) * 256 + c) * 256 + d)
    | _ => none

/-- `'%x' % n` of a number with at most four digits. -/
def hexText (n : Nat) : Str :=
  (Nat.toDigits 16 n).map .scalar

/-- `IPv6Address._parse_hextet`, by whether it reads one. -/
def isHextet (hextet : Str) : Bool :=
  decide (hextet ≠ []) && hextet.all (fun c => (hexValue c).isSome) && decide (hextet.length ≤ 4)

/-- The parts of an address between its colons, an IPv4 address at its end as two of them. -/
def ipv6Parts (text : Str) : Option (List Str) :=
  let parts := splitChar ':' text
  let last := parts.getLast?.getD []
  if parts.length < 3 then none
  else if chr '.' ∈ last then
    (ipv4Address last).map fun n =>
      parts.dropLast ++ [hexText (n / 65536 % 65536), hexText (n % 65536)]
  else some parts

/-- Whether the parts are those of an address: eight, or fewer around one that is empty. -/
def isIPv6 (parts : List Str) : Bool :=
  let inner := parts.tail.dropLast
  let first := parts.head?.getD []
  let last := parts.getLast?.getD []
  if parts.length > 9 then false
  else
    match inner.count [] with
    | 0 =>
        decide (parts.length = 8 ∧ first ≠ [] ∧ last ≠ []) && parts.all isHextet
    | 1 =>
        let skip := inner.idxOf [] + 1
        let high := if first = [] then skip - 1 else skip
        let low := if last = [] then parts.length - skip - 2 else parts.length - skip - 1
        decide (first = [] → high = 0) && decide (last = [] → low = 0) &&
          decide (high + low ≤ 7) && (parts.take high).all isHextet &&
          (parts.drop (parts.length - low)).all isHextet
    | _ => false

/-- What `ipaddress.IPv6Address` reads. -/
def isIPv6Address (address : Str) : Bool :=
  let zone := behindChar '%' address
  let zoneFits := chr '%' ∉ address ∨ zone ≠ [] ∧ chr '%' ∉ zone
  decide (chr '/' ∉ address) && decide zoneFits &&
    match ipv6Parts (beforeChar '%' address) with
    | some parts => isIPv6 parts
    | none => false

/-- `re.match(r"\Av[a-fA-F0-9]+\..+\Z", hostname)`. -/
def isIPvFuture (hostname : Str) : Bool :=
  let digits := hostname.tail.takeWhile fun c => (hexValue c).isSome
  let rest := hostname.tail.dropWhile fun c => (hexValue c).isSome
  startsWith hostname "v" && decide (digits ≠ []) && startsWith rest "." &&
    decide (rest.tail ≠ []) && decide (chr '\n' ∉ rest.tail)

/-- `_check_bracketed_host`, by whether it raises nothing. -/
def checkBracketedHost (hostname : Str) : Bool :=
  if startsWith hostname "v" then isIPvFuture hostname
  else decide (ipv4Address hostname = none) && isIPv6Address hostname

end Addresses

section Splitting

/-- `SplitResult`. -/
structure SplitResult where
  scheme : Str
  netloc : Str
  path : Str
  query : Str
  fragment : Str
  deriving DecidableEq

/-- `s.isascii()`. -/
def isAscii (s : Str) : Bool :=
  s.all fun c => decide (ord c < 128)

/-- `_checknetloc`, by whether it raises nothing. -/
def checkNetloc (nfkc : Str → Str) (netloc : Str) : Bool :=
  let plain := netloc.filter fun c => !oneOf "@:#?" c
  isAscii netloc || decide (nfkc plain = plain) || (nfkc plain).all fun c => !oneOf "/?#@:" c

/-- The brackets of a netloc, by whether they raise nothing. -/
def checkBrackets (netloc : Str) : Bool :=
  if chr '[' ∈ netloc ∧ chr ']' ∈ netloc then
    checkBracketedHost (beforeChar ']' (behindChar '[' netloc))
  else decide (chr '[' ∉ netloc ∧ chr ']' ∉ netloc)

/-- `scheme_chars`. -/
def isSchemeChar (c : PyChar) : Bool :=
  isLowerLetter c || isUpperLetter c || isDigit c || oneOf "+-." c

/-- Whether the characters before the first `:` are a scheme. -/
def hasScheme (url : Str) : Bool :=
  let scheme := beforeChar ':' url
  decide (chr ':' ∈ url ∧ scheme ≠ []) &&
    scheme.head?.any (fun c => isLowerLetter c || isUpperLetter c) && scheme.all isSchemeChar

/-- What `urlsplit` takes away first. -/
def cleanUrl (url : Str) : Str :=
  (url.dropWhile fun c => decide (ord c ≤ 32)).filter fun c => !oneOf "\t\r\n" c

/-- What stands in front of the first `/`, `?` or `#`. -/
def netlocOf (rest : Str) : Str :=
  rest.takeWhile fun c => !oneOf "/?#" c

variable [Unicode]

/-- `urlsplit`. -/
def urlsplit (nfkc : Str → Str) (url : Str) : Except Exc SplitResult := do
  let url := cleanUrl url
  let scheme := if hasScheme url then lower (beforeChar ':' url) else []
  let url := if hasScheme url then behindChar ':' url else url
  let netloc := if startsWith url "//" then netlocOf (url.drop 2) else []
  let url := if startsWith url "//" then (url.drop 2).drop netloc.length else url
  if checkBrackets netloc = false then throw .exception
  let fragment := behindChar '#' url
  let url := beforeChar '#' url
  let query := behindChar '?' url
  let url := beforeChar '?' url
  if checkNetloc nfkc netloc = false then throw .exception
  return ⟨scheme, netloc, url, query, fragment⟩

/-- `SplitResult._hostinfo[0]`. -/
def SplitResult.hostText (parts : SplitResult) : Str :=
  let hostinfo := behindLastChar '@' parts.netloc
  if chr '[' ∈ hostinfo then beforeChar ']' (behindChar '[' hostinfo)
  else beforeChar ':' hostinfo

/-- `SplitResult.hostname`. A zone behind `%` stays as it is. -/
def SplitResult.hostname (parts : SplitResult) : Option Str :=
  let hostname := parts.hostText
  if hostname = [] then none
  else some (lower (beforeChar '%' hostname) ++ hostname.dropWhile fun c => decide (c ≠ chr '%'))

end Splitting

section Unquote

/-- `unquote_to_bytes`. -/
def unquoteBytes : List UInt8 → List UInt8
  | [] => []
  | [b] => [b]
  | [b, c] => [b, c]
  | b :: c :: d :: bytes =>
      if b = 37 then
        match hexValue (chr (Char.ofNat c.toNat)), hexValue (chr (Char.ofNat d.toNat)) with
        | some high, some low => UInt8.ofNat (high * 16 + low) :: unquoteBytes bytes
        | _, _ => b :: unquoteBytes (c :: d :: bytes)
      else b :: unquoteBytes (c :: d :: bytes)

/-- The rest of an `unquote`, with the ASCII characters read before it. -/
def unquoteFrom (run : List UInt8) : Str → Str
  | [] => decodeReplace (unquoteBytes run)
  | c :: s =>
      if ord c < 128 then unquoteFrom (run ++ [UInt8.ofNat (ord c)]) s
      else decodeReplace (unquoteBytes run) ++ c :: unquoteFrom [] s

/-- `unquote`. -/
def unquote (string : Str) : Str :=
  if chr '%' ∈ string then unquoteFrom [] string else string

/-- The ways a byte may be written in a path. -/
inductive EncodedByte : UInt8 → Str → Prop
  | raw {b : UInt8} (hascii : b.toNat < 128) (hpercent : b ≠ 37) (hslash : b ≠ 47) :
      EncodedByte b [chr (Char.ofNat b.toNat)]
  | escaped {b : UInt8} {high low : PyChar} (hhigh : hexValue high = some (b.toNat / 16))
      (hlow : hexValue low = some (b.toNat % 16)) : EncodedByte b [chr '%', high, low]

/-- The ways some bytes may be written in a path. -/
inductive PercentEncoded : List UInt8 → Str → Prop
  | nil : PercentEncoded [] []
  | cons {b : UInt8} {bytes : List UInt8} {w text : Str} (hbyte : EncodedByte b w)
      (hrest : PercentEncoded bytes text) : PercentEncoded (b :: bytes) (w ++ text)

end Unquote

section Parts

variable {c d : Char} {s a b : Str}

theorem ne_of_not_mem (h : chr c ∉ a) : ∀ x ∈ a, decide (x ≠ chr c) = true :=
  fun _ hx => decide_eq_true (ne_of_mem_of_not_mem hx h)

theorem beforeChar_of_not_mem (h : chr c ∉ s) : beforeChar c s = s :=
  List.takeWhile_eq_self_iff.mpr (ne_of_not_mem h)

theorem beforeChar_append (h : chr c ∉ a) : beforeChar c (a ++ chr c :: b) = a := by
  rw [beforeChar, List.takeWhile_append_of_pos (ne_of_not_mem h),
    List.takeWhile_cons_of_neg (by simp), List.append_nil]

theorem behindChar_append (h : chr c ∉ a) : behindChar c (a ++ chr c :: b) = b := by
  rw [behindChar, List.dropWhile_append_of_pos (ne_of_not_mem h),
    List.dropWhile_cons_of_neg (by simp), List.tail_cons]

/-- What stands in front of the first one is there without the rest. -/
theorem beforeChar_append_left (h : chr c ∈ a) : beforeChar c (a ++ b) = beforeChar c a := by
  rcases List.append_of_mem h with ⟨l, r, rfl⟩
  induction l with
  | nil =>
      rw [List.nil_append, List.cons_append, beforeChar, beforeChar,
        List.takeWhile_cons_of_neg (by simp), List.takeWhile_cons_of_neg (by simp)]
  | cons d l ih =>
      by_cases hd : d = chr c
      · rw [List.cons_append, List.cons_append, beforeChar, beforeChar,
          List.takeWhile_cons_of_neg (by simp [hd]), List.takeWhile_cons_of_neg (by simp [hd])]
      · have hmem : chr c ∈ l ++ chr c :: r := List.mem_append_right _ List.mem_cons_self
        have hrest := ih hmem
        unfold beforeChar at hrest ⊢
        rw [List.cons_append, List.cons_append, List.takeWhile_cons_of_pos (by simp [hd]),
          List.takeWhile_cons_of_pos (by simp [hd]), hrest]

theorem behindChar_append_left (h : chr c ∈ a) : behindChar c (a ++ b) = behindChar c a ++ b := by
  rcases List.append_of_mem h with ⟨l, r, rfl⟩
  induction l with
  | nil =>
      rw [List.nil_append, List.cons_append, behindChar, behindChar,
        List.dropWhile_cons_of_neg (by simp), List.dropWhile_cons_of_neg (by simp), List.tail_cons,
        List.tail_cons]
  | cons d l ih =>
      by_cases hd : d = chr c
      · rw [List.cons_append, List.cons_append, behindChar, behindChar,
          List.dropWhile_cons_of_neg (by simp [hd]), List.dropWhile_cons_of_neg (by simp [hd]),
          List.tail_cons, List.tail_cons]
      · have hmem : chr c ∈ l ++ chr c :: r := List.mem_append_right _ List.mem_cons_self
        have hrest := ih hmem
        unfold behindChar at hrest ⊢
        rw [List.cons_append, List.cons_append, List.dropWhile_cons_of_pos (by simp [hd]),
          List.dropWhile_cons_of_pos (by simp [hd]), hrest]

/-- What stands behind one is no matter for what stands in front of the first. -/
theorem beforeChar_cut : beforeChar c (a ++ chr c :: b) = beforeChar c a := by
  by_cases h : chr c ∈ a
  · exact beforeChar_append_left h
  · rw [beforeChar_append h, beforeChar_of_not_mem h]

theorem behindLastChar_of_not_mem (h : chr c ∉ s) : behindLastChar c s = s :=
  List.rtakeWhile_eq_self_iff.mpr (ne_of_not_mem h)

theorem behindLastChar_append (h : chr c ∉ b) : behindLastChar c (a ++ chr c :: b) = b := by
  have hall : ∀ x ∈ b.reverse, decide (x ≠ chr c) = true := fun x hx =>
    ne_of_not_mem h x (List.mem_reverse.mp hx)
  rw [behindLastChar, List.rtakeWhile, List.reverse_append, List.reverse_cons, List.append_assoc,
    List.takeWhile_append_of_pos hall, List.singleton_append,
    List.takeWhile_cons_of_neg (by simp), List.append_nil, List.reverse_reverse]

theorem not_mem_behindLastChar : chr c ∉ behindLastChar c s := by
  intro h
  have hne := List.mem_rtakeWhile_imp h
  exact of_decide_eq_true hne rfl

theorem mem_of_mem_beforeChar {x : PyChar} (h : x ∈ beforeChar c s) : x ∈ s :=
  List.takeWhile_subset _ h

theorem mem_of_mem_behindChar {x : PyChar} (h : x ∈ behindChar c s) : x ∈ s :=
  List.dropWhile_subset _ (List.mem_of_mem_tail h)

theorem mem_of_mem_behindLastChar {x : PyChar} (h : x ∈ behindLastChar c s) : x ∈ s :=
  (List.rtakeWhile_suffix _ s).subset h

end Parts

section Splitting

variable [Unicode] {nfkc : Str → Str}

/-- What an address of the scheme `smb` is cut into. -/
def smbParts (rest : Str) : SplitResult :=
  let path := rest.drop (netlocOf rest).length
  { scheme := lower (str "smb")
    netloc := netlocOf rest
    path := beforeChar '?' (beforeChar '#' path)
    query := behindChar '?' (beforeChar '#' path)
    fragment := behindChar '#' path }

/-- What an address of the scheme `smb` comes to. -/
theorem urlsplit_smb {rest : Str} (hclean : ∀ c ∈ rest, oneOf "\t\r\n" c = false) :
    urlsplit nfkc (str "smb://" ++ rest) =
      if checkBrackets (netlocOf rest) = false ∨ checkNetloc nfkc (netlocOf rest) = false then
        .error .exception
      else .ok (smbParts rest) := by
  -- Nothing in it is taken out before it is cut.
  have hfilter : rest.filter (fun c => !oneOf "\t\r\n" c) = rest :=
    List.filter_eq_self.mpr fun c hc => by rw [hclean c hc]; rfl
  have hurl : cleanUrl (str "smb://" ++ rest) = str "smb" ++ chr ':' :: (str "//" ++ rest) := by
    have hhead : (str "smb://" ++ rest).dropWhile (fun c => decide (ord c ≤ 32)) =
        str "smb://" ++ rest := rfl
    rw [cleanUrl, hhead, List.filter_append, hfilter]
    rfl
  have hcolon : chr ':' ∉ str "smb" := by decide
  -- The first colon is the scheme's.
  have hbefore : beforeChar ':' (cleanUrl (str "smb://" ++ rest)) = str "smb" := by
    rw [hurl, beforeChar_append hcolon]
  have hscheme : hasScheme (cleanUrl (str "smb://" ++ rest)) = true := by
    have hmem : chr ':' ∈ cleanUrl (str "smb://" ++ rest) := by
      rw [hurl]
      exact List.mem_append_right _ List.mem_cons_self
    rw [hasScheme, hbefore]
    simp only [hmem, true_and]
    decide
  have hbehind : behindChar ':' (cleanUrl (str "smb://" ++ rest)) = str "//" ++ rest := by
    rw [hurl, behindChar_append hcolon]
  have hslashes : startsWith (str "//" ++ rest) "//" = true := rfl
  have hdrop : (str "//" ++ rest).drop 2 = rest := rfl
  unfold urlsplit
  simp only [hscheme, if_true, hbefore, hbehind, hslashes, hdrop]
  -- Only the two checks of the host can raise.
  by_cases hbrackets : checkBrackets (netlocOf rest) = false
  · rw [if_pos hbrackets, if_pos (Or.inl hbrackets)]
    rfl
  · by_cases hnetloc : checkNetloc nfkc (netlocOf rest) = false
    · rw [if_neg hbrackets, if_pos (Or.inr hnetloc)]
      simp only [hnetloc, if_true]
      rfl
    · rw [if_neg hbrackets, if_neg (not_or.mpr ⟨hbrackets, hnetloc⟩)]
      simp only [hnetloc]
      rfl

omit [Unicode] in
theorem oneOf_of_mem_netlocOf {rest : Str} {c : PyChar} (h : c ∈ netlocOf rest) :
    oneOf "/?#" c = false := by
  have hkept := List.mem_takeWhile_imp h
  exact Bool.not_eq_true' _ |>.mp hkept

omit [Unicode] in
theorem netlocOf_append {authority path : Str} (h : ∀ c ∈ authority, oneOf "/?#" c = false) :
    netlocOf (authority ++ chr '/' :: path) = authority := by
  have hkept : ∀ c ∈ authority, (!oneOf "/?#" c) = true := fun c hc => by rw [h c hc]; rfl
  rw [netlocOf, List.takeWhile_append_of_pos hkept, List.takeWhile_cons_of_neg (by decide),
    List.append_nil]

/-- The parts of an address with a path that has neither a query nor a fragment. -/
theorem smbParts_append {authority path : Str} (h : ∀ c ∈ authority, oneOf "/?#" c = false)
    (hquery : chr '?' ∉ path) (hfragment : chr '#' ∉ path) :
    (smbParts (authority ++ chr '/' :: path)).netloc = authority ∧
      (smbParts (authority ++ chr '/' :: path)).path = chr '/' :: path := by
  have hfragment' : chr '#' ∉ chr '/' :: path := by
    rw [List.mem_cons, not_or]
    exact ⟨by decide, hfragment⟩
  have hquery' : chr '?' ∉ chr '/' :: path := by
    rw [List.mem_cons, not_or]
    exact ⟨by decide, hquery⟩
  refine ⟨netlocOf_append h, ?_⟩
  simp only [smbParts, netlocOf_append h, List.drop_left, beforeChar_of_not_mem hfragment',
    beforeChar_of_not_mem hquery']

end Splitting

section Unquote

variable {bytes run : List UInt8} {text s : Str}

theorem unquoteBytes_cons {b : UInt8} (hb : b ≠ 37) (bytes : List UInt8) :
    unquoteBytes (b :: bytes) = b :: unquoteBytes bytes := by
  rcases bytes with _ | ⟨c, _ | ⟨d, bytes⟩⟩
  · rfl
  · rfl
  · rw [unquoteBytes, if_neg hb]

theorem ord_lt_of_hexValue {c : PyChar} {n : Nat} (h : hexValue c = some n) : ord c < 128 := by
  unfold hexValue at h
  by_contra hord
  rw [if_neg (by omega), if_neg (by omega), if_neg (by omega)] at h
  cases h

/-- An ASCII character is known by its byte. -/
theorem chr_of_ascii {c : PyChar} (h : ord c < 128) :
    chr (Char.ofNat (UInt8.ofNat (ord c)).toNat) = c := by
  have hbyte : (UInt8.ofNat (ord c)).toNat = ord c := by
    rw [UInt8.toNat_ofNat']
    omega
  rw [hbyte]
  cases c with
  | surrogate n =>
      have hsmall : 0xD800 + n.val < 128 := h
      omega
  | scalar d => exact congrArg PyChar.scalar (Char.ofNat_toNat d)

/-- An escape is read as its byte. -/
theorem unquoteBytes_escape {b : UInt8} {high low : PyChar}
    (hhigh : hexValue high = some (b.toNat / 16)) (hlow : hexValue low = some (b.toNat % 16)) :
    unquoteBytes (37 :: UInt8.ofNat (ord high) :: UInt8.ofNat (ord low) :: bytes) =
      b :: unquoteBytes bytes := by
  have hvalue : UInt8.ofNat (b.toNat / 16 * 16 + b.toNat % 16) = b := by
    rw [Nat.div_add_mod', UInt8.ofNat_toNat]
  rw [unquoteBytes, if_pos rfl, chr_of_ascii (ord_lt_of_hexValue hhigh),
    chr_of_ascii (ord_lt_of_hexValue hlow), hhigh, hlow]
  exact congrArg (· :: unquoteBytes bytes) hvalue

theorem ord_chr_byte {b : UInt8} (h : b.toNat < 128) :
    ord (chr (Char.ofNat b.toNat)) = b.toNat := by
  have hvalid : b.toNat.isValidChar := Or.inl (by omega)
  have hchar : Char.ofNat b.toNat = Char.ofNatAux b.toNat hvalid := dif_pos hvalid
  rw [hchar]
  rfl

/-- What a byte is written as is ASCII without a slash, and is read as the byte. -/
theorem EncodedByte.spec {b : UInt8} {w : Str} (h : EncodedByte b w) :
    (∀ c ∈ w, ord c < 128 ∧ c ≠ chr '/') ∧ w ≠ [] ∧ ∀ bytes,
      unquoteBytes ((w.map fun c => UInt8.ofNat (ord c)) ++ bytes) = b :: unquoteBytes bytes := by
  cases h with
  | raw hascii hpercent hslash =>
      refine ⟨fun c hc => ?_, List.cons_ne_nil _ _, fun bytes => ?_⟩
      · rw [List.mem_singleton] at hc
        rw [hc, ord_chr_byte hascii]
        refine ⟨hascii, fun heq => hslash ?_⟩
        have hord := congrArg ord heq
        rw [ord_chr_byte hascii] at hord
        exact UInt8.toNat_inj.mp hord
      · rw [List.map_singleton, ord_chr_byte hascii, UInt8.ofNat_toNat, List.singleton_append,
          unquoteBytes_cons hpercent]
  | @escaped high low hhigh hlow =>
      -- A slash is no digit, so neither of the two is one.
      have hslash : hexValue (chr '/') = none := by decide
      refine ⟨fun c hc => ?_, List.cons_ne_nil _ _, fun bytes => unquoteBytes_escape hhigh hlow⟩
      simp only [List.mem_cons, List.not_mem_nil, or_false] at hc
      rcases hc with rfl | rfl | rfl
      · decide
      · refine ⟨ord_lt_of_hexValue hhigh, fun heq => ?_⟩
        rw [heq, hslash] at hhigh
        cases hhigh
      · refine ⟨ord_lt_of_hexValue hlow, fun heq => ?_⟩
        rw [heq, hslash] at hlow
        cases hlow

/-- What some bytes are written as is ASCII without a slash, and is read as the bytes. -/
theorem PercentEncoded.spec (h : PercentEncoded bytes text) :
    (∀ c ∈ text, ord c < 128 ∧ c ≠ chr '/') ∧ (bytes ≠ [] → text ≠ []) ∧
      unquoteBytes (text.map fun c => UInt8.ofNat (ord c)) = bytes := by
  induction h with
  | nil => exact ⟨fun _ hc => absurd hc List.not_mem_nil, fun h => absurd rfl h, rfl⟩
  | cons hbyte hrest ih =>
      rcases hbyte.spec with ⟨hchars, hne, hread⟩
      refine ⟨List.forall_mem_append.mpr ⟨hchars, ih.1⟩,
        fun _ => List.append_ne_nil_of_left_ne_nil hne _, ?_⟩
      rw [List.map_append, hread, ih.2.2]

/-- ASCII is read as one run. -/
theorem unquoteFrom_ascii (h : ∀ c ∈ text, ord c < 128) :
    unquoteFrom run text =
      decodeReplace (unquoteBytes (run ++ text.map fun c => UInt8.ofNat (ord c))) := by
  induction text generalizing run with
  | nil => rw [unquoteFrom, List.map_nil, List.append_nil]
  | cons c text ih =>
      rw [List.forall_mem_cons] at h
      rw [unquoteFrom, if_pos h.1, ih h.2, List.map_cons, List.append_assoc, List.singleton_append]

/-- Without a `%` there is nothing to read. -/
theorem unquoteBytes_of_not_mem (h : 37 ∉ bytes) : unquoteBytes bytes = bytes := by
  induction bytes with
  | nil => rfl
  | cons b bytes ih =>
      rw [List.mem_cons, not_or] at h
      rw [unquoteBytes_cons (Ne.symm h.1), ih h.2]

/-- What was written is read back. -/
theorem unquote_percentEncoded (h : PercentEncoded bytes text) (hs : encode s = some bytes) :
    unquote text = s := by
  rcases h.spec with ⟨hchars, -, hread⟩
  have hascii : ∀ c ∈ text, ord c < 128 := fun c hc => (hchars c hc).1
  unfold unquote
  by_cases hpercent : chr '%' ∈ text
  · rw [if_pos hpercent, unquoteFrom_ascii hascii, List.nil_append, hread,
      decodeReplace_of_encode hs]
  · have hnone : 37 ∉ text.map fun c => UInt8.ofNat (ord c) := by
      rw [List.mem_map]
      rintro ⟨c, hc, hbyte⟩
      refine hpercent (?_ : chr '%' ∈ text)
      rw [← chr_of_ascii (hascii c hc), hbyte] at hc
      exact hc
    rw [unquoteBytes_of_not_mem hnone] at hread
    have htext := encode_of_ascii hascii
    rw [hread] at htext
    rw [if_neg hpercent, encode_injective htext hs]

end Unquote

end Smbpal
