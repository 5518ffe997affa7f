import Smbpal.Lib.Framing
import Smbpal.Python.Files
import Smbpal.System.Stores

/-!
# Secrets in Lines

`CredentialsStore.write` and `username_for` in `mounts/credentials.py`, and `set_password` in
`samba/passwd.py`: a secret put into a line of text for somebody else to read.

Three readers end a line in three ways. `mount.cifs` ends one at a line feed, and so does each
prompt of `smbpasswd`; `username_for` ends one wherever Python's `splitlines` does. The store
refuses the line feed, the carriage return and NUL, which is all that matters to `mount.cifs`;
`set_password` refuses nothing but an empty password.

## Main definitions

* `directives`, `prompts`: What `mount.cifs` and `smbpasswd` read.
* `usernameFor`: `username_for`.
* `setPassword`: `set_password`, with the runs of `smbpasswd` it makes.
* `FileExact`, `UsernameExact`, `SetExactly`: Whatever is accepted is what is read.

## Theorems

* `directives_of_encode`: A line for each value is read as the values.
* `usernameFor_written_iff`: When the username is read back.
* `prompts_input_iff`: When both prompts read the password.
* `secrets_exact_iff`: When each of the two is exact.
-/

namespace Smbpal

open Lib

section Readers

/-- The lines of a file, which end at a line feed and nowhere else. -/
def cifsLines (bytes : List UInt8) : List (List UInt8) :=
  let cut := framed 10 bytes
  if cut.2 = [] then cut.1 else cut.1 ++ [cut.2]

/-- A key, and what is behind the first `=`. -/
def directiveOf (line : List UInt8) : List UInt8 × Option (List UInt8) :=
  if 61 ∈ line then
    (line.takeWhile fun b => decide (b ≠ 61), some ((line.dropWhile fun b => decide (b ≠ 61)).tail))
  else
    (line, none)

/-- What `mount.cifs` reads of a credentials file. -/
def directives (bytes : List UInt8) : List (List UInt8 × Option (List UInt8)) :=
  (cifsLines bytes).map directiveOf

/-- What the two prompts of `smbpasswd` read. -/
def prompts (stdin : List UInt8) : List (List UInt8) :=
  (framed 10 stdin).1.take 2

/-- What is behind the first `=` of a line, which has one. -/
def afterEquals (line : Str) : Str :=
  (line.dropWhile fun c => decide (c ≠ chr '=')).tail

/-- The loop of `username_for`. -/
def usernameIn (text : Str) : Option Str :=
  ((splitlines text).map lineText).findSome? fun line =>
    if startsWith line "username=" then some (afterEquals line) else none

variable [Unicode]

/-- `CredentialsStore.username_for`. -/
def usernameFor (ref : Str) (dir : Directory) : Except Exc (Option Str) :=
  match pathFor ref with
  | .error e => .error e
  | .ok _ =>
      match dir ref with
      | none => .ok none
      | some file =>
          match readText file.bytes with
          | none => .error .exception
          | some text => .ok (usernameIn text)

end Readers

section Passwd

/-- A command that is run, and what it is given to read. -/
structure CommandRun where
  argv : List Str
  stdin : List UInt8
  deriving DecidableEq

/-- `CommandResult`. -/
structure CommandResult where
  returncode : Int
  stdout : Str
  stderr : Str

/-- The accounts there are, and what a command comes to. -/
structure SambaHost where
  posixUserExists : Str → Bool
  execute : CommandRun → Except Exc CommandResult

/-- `run` with an `input`, and the runs in which it was all written. -/
def SambaHost.run (host : SambaHost) (argv : List Str) (input : Str) :
    Except Exc CommandResult × List CommandRun :=
  match encode input with
  | none => (.error .exception, [])
  | some stdin => (host.execute ⟨argv, stdin⟩, [⟨argv, stdin⟩])

/-- `str` of an exit status. -/
def statusText (status : Int) : Str :=
  if status < 0 then str "-" ++ digits status.natAbs else digits status.natAbs

variable [Unicode]

/-- `require_posix_user`. -/
def requirePosixUser (host : SambaHost) (username : Str) : Except Exc Unit :=
  if isOwner username = false then
    .error <| .detailed .invalidParams (repr username ++ str " is not a valid POSIX user name")
      (str ("Lower-case letters, digits, '-' and '_', starting with a " ++
        "letter or underscore."))
  else if host.posixUserExists username = false then
    .error <| .detailed .notFound (str "there is no system account called " ++ repr username)
      (str ("Samba attaches an SMB password to an existing POSIX account; " ++
        "it cannot create one. Phase 1 shares as an existing user (§3b), so " ++
        "pick an account that already exists."))
  else
    .ok ()

/-- `set_password`, with the runs of `smbpasswd` it makes. -/
def setPassword (host : SambaHost) (username password : Str) :
    Except Exc Unit × List CommandRun :=
  match requirePosixUser host username with
  | .error e => (.error e, [])
  | .ok () =>
      if password = [] then
        (.error <| .of .invalidParams (str "the password must not be empty"), [])
      else
        match host.run [str "smbpasswd", str "-a", str "-s", username]
            (password ++ str "\n" ++ password ++ str "\n") with
        | (.error e, runs) => (.error e, runs)
        | (.ok result, runs) =>
            if result.returncode = 0 then
              (.ok (), runs)
            else
              let said := strip (if result.stderr = [] then result.stdout else result.stderr)
              let detail :=
                if said = [] then str "smbpasswd exited " ++ statusText result.returncode else said
              (.error <| .detailed .credential
                (str "could not set the SMB password for " ++ repr username) detail, runs)

end Passwd

section Exact

/-- The values a credentials file is to hold, each under its key. -/
def secretValues (username password : Str) (domain : Option Str) : List (Str × Str) :=
  [(str "username", username), (str "password", password)] ++
    ((domainOf domain).map fun d => (str "domain", d)).toList

/-- A directive says a value when it is its UTF-8, under the key. -/
def SaysValue (directive : List UInt8 × Option (List UInt8)) (value : Str × Str) : Prop :=
  encode value.1 = some directive.1 ∧ directive.2.isSome = true ∧ encode value.2 = directive.2

variable [Unicode]

/-- What `mount.cifs` reads of a file is the values and nothing else. -/
def FileExact (username password : Str) (domain : Option Str) : Prop :=
  ∀ (faults : Faults) (ref : Str) (dir : Directory),
    (CredentialsStore.write faults ref username password domain dir).1 = .ok () →
      ∃ file, (CredentialsStore.write faults ref username password domain dir).2 ref = some file ∧
        List.Forall₂ SaysValue (directives file.bytes) (secretValues username password domain)

/-- What `username_for` reads of it is the username. -/
def UsernameExact (username password : Str) (domain : Option Str) : Prop :=
  ∀ (faults : Faults) (ref : Str) (dir : Directory),
    (CredentialsStore.write faults ref username password domain dir).1 = .ok () →
      usernameFor ref (CredentialsStore.write faults ref username password domain dir).2 =
        .ok (some username)

/-- What `smbpasswd` reads, when it is run, is the password and the password. -/
def SetExactly (account password : Str) : Prop :=
  ∀ (host : SambaHost), ∀ run ∈ (setPassword host account password).2,
    ∃ bytes, encode password = some bytes ∧ prompts run.stdin = [bytes, bytes]

end Exact

section Files

theorem cifsLines_line {line : List UInt8} (h : 10 ∉ line) (bytes : List UInt8) :
    cifsLines (line ++ 10 :: bytes) = line :: cifsLines bytes := by
  unfold cifsLines
  rw [framed_piece h]
  dsimp only
  split
  · rfl
  · rfl

theorem directiveOf_append {key : List UInt8} (h : 61 ∉ key) (value : List UInt8) :
    directiveOf (key ++ 61 :: value) = (key, some value) := by
  have hkey : ∀ b ∈ key, decide (b ≠ 61) = true := fun b hb =>
    decide_eq_true fun heq => h (heq ▸ hb)
  have htake : ((61 :: value).takeWhile fun b => decide (b ≠ 61)) = [] := rfl
  have hdrop : ((61 :: value).dropWhile fun b => decide (b ≠ 61)) = 61 :: value := rfl
  have hmem : (61 : UInt8) ∈ key ++ 61 :: value := List.mem_append_right _ List.mem_cons_self
  rw [directiveOf, if_pos hmem, List.takeWhile_append_of_pos hkey,
    List.dropWhile_append_of_pos hkey, htake, hdrop, List.append_nil, List.tail_cons]

/-- The line of a value. -/
def valueLine (value : Str × Str) : Str :=
  value.1 ++ str "=" ++ value.2 ++ str "\n"

/-- A key and a value that a line can hold. -/
def LineHolds (value : Str × Str) : Prop :=
  IsPlain value.1 ∧ IsPlain value.2 ∧ chr '=' ∉ value.1 ∧ chr '\n' ∉ value.1 ∧
    chr '\n' ∉ value.2

theorem lineFeed_not_mem {s : Str} {bytes : List UInt8} (h : encode s = some bytes)
    (hs : chr '\n' ∉ s) : 10 ∉ bytes :=
  fun hmem => hs (mem_of_mem_encode h hmem (by decide))

theorem equals_not_mem {s : Str} {bytes : List UInt8} (h : encode s = some bytes)
    (hs : chr '=' ∉ s) : 61 ∉ bytes :=
  fun hmem => hs (mem_of_mem_encode h hmem (by decide))

/-- A line for each value is read as the values, and as nothing else. -/
theorem directives_of_encode {values : List (Str × Str)} (h : ∀ v ∈ values, LineHolds v)
    {bytes : List UInt8} (hbytes : encode (values.flatMap valueLine) = some bytes) :
    List.Forall₂ SaysValue (directives bytes) values := by
  induction values generalizing bytes with
  | nil =>
      rw [← Option.some.inj hbytes]
      exact List.Forall₂.nil
  | cons v values ih =>
      rw [List.forall_mem_cons] at h
      obtain ⟨⟨hkey, hvalue, hequals, hfeed, hfeed'⟩, hrest⟩ := h
      rcases hkey.encodes with ⟨key, hkey⟩
      rcases hvalue.encodes with ⟨value, hvalue⟩
      -- What is behind the first line can be encoded too.
      have hplain : IsPlain (values.flatMap valueLine) := by
        have hall := isPlain_of_encode hbytes
        rw [List.flatMap_cons] at hall
        exact (isPlain_append.mp hall).2
      rcases hplain.encodes with ⟨more, hmore⟩
      have hline : encode (valueLine v) = some (key ++ [61] ++ value ++ [10]) :=
        encode_append (encode_append (encode_append hkey rfl) hvalue) rfl
      have hall : bytes = (key ++ 61 :: value) ++ 10 :: more := by
        have happend := encode_append hline hmore
        rw [List.flatMap_cons, happend] at hbytes
        rw [← Option.some.inj hbytes]
        simp only [List.append_assoc, List.cons_append, List.nil_append]
      -- Neither part has a line feed, so the line ends where it should.
      have hpiece : 10 ∉ key ++ 61 :: value := by
        rw [List.mem_append, List.mem_cons, not_or, not_or]
        exact ⟨lineFeed_not_mem hkey hfeed, by decide, lineFeed_not_mem hvalue hfeed'⟩
      rw [hall, directives, cifsLines_line hpiece, List.map_cons,
        directiveOf_append (equals_not_mem hkey hequals)]
      exact List.Forall₂.cons ⟨hkey, rfl, hvalue⟩ (ih hrest hmore)

theorem credentialsText_eq (username password : Str) (domain : Option Str) :
    credentialsText username password domain =
      (secretValues username password domain).flatMap valueLine := by
  unfold credentialsText secretValues valueLine
  cases domainOf domain with
  | none =>
      simp only [Option.map_none, Option.toList_none, List.append_nil, List.flatMap_cons,
        List.flatMap_nil, List.append_assoc]
      rfl
  | some d =>
      simp only [Option.map_some, Option.toList_some, List.flatMap_cons, List.flatMap_nil,
        List.append_assoc, List.cons_append, List.nil_append, List.append_nil]
      rfl

theorem FitsLine.not_mem {value : Str} (h : FitsLine value) : chr '\n' ∉ value := by
  intro hmem
  exact List.any_eq_false.mp h (chr '\n') hmem (by decide)

theorem FitsLine.cr_not_mem {value : Str} (h : FitsLine value) : chr '\r' ∉ value := by
  intro hmem
  exact List.any_eq_false.mp h (chr '\r') hmem (by decide)

/-- The values of a credentials file fit their lines. -/
theorem lineHolds_secretValues {username password : Str} {domain : Option Str}
    (h : Fits username password domain)
    (hplain : IsPlain (credentialsText username password domain)) :
    ∀ v ∈ secretValues username password domain, LineHolds v := by
  have hkeys : ∀ key ∈ ["username", "password", "domain"],
      chr '=' ∉ str key ∧ chr '\n' ∉ str key := by decide
  simp only [List.forall_mem_cons] at hkeys
  obtain ⟨husername, hpassword, hdomain, -⟩ := hkeys
  rw [isPlain_credentialsText] at hplain
  intro v hv
  rcases List.mem_append.mp hv with hv | hv
  · simp only [List.mem_cons, List.not_mem_nil, or_false] at hv
    rcases hv with rfl | rfl
    · exact ⟨isPlain_str _, hplain.1, husername.1, husername.2, h.1.2.not_mem⟩
    · exact ⟨isPlain_str _, hplain.2.1, hpassword.1, hpassword.2, h.2.1.2.not_mem⟩
  · rcases Option.map_eq_some_iff.mp (Option.mem_toList.mp hv) with ⟨d, hd, rfl⟩
    exact ⟨isPlain_str _, hplain.2.2 d hd, hdomain.1, hdomain.2, (h.2.2 d hd).not_mem⟩

variable [Unicode]

/-- What is accepted fits, and its file is there. -/
theorem write_returned {faults : Faults} {ref username password : Str} {domain : Option Str}
    {dir : Directory}
    (h : (CredentialsStore.write faults ref username password domain dir).1 = .ok ()) :
    Fits username password domain ∧ isId ref = true ∧
      ∃ bytes, encode (credentialsText username password domain) = some bytes ∧
        (CredentialsStore.write faults ref username password domain dir).2 =
          Function.update dir ref (some { bytes := bytes, mode := 384 }) := by
  unfold CredentialsStore.write at h ⊢
  cases hbody : credentialsBody username password domain with
  | error e =>
      rw [hbody] at h
      cases h
  | ok body =>
      -- A body is made only of values that fit.
      rcases credentialsBody_eq_ok_iff.mp hbody with ⟨hfits, rfl⟩
      rw [hbody] at h
      unfold pathFor at h ⊢
      by_cases href : isId ref = true
      · -- The file is written whole, or the write raised.
        rw [if_pos href] at h ⊢
        dsimp only at h ⊢
        have hreturned := @writeText_returned faults true ref
          (credentialsText username password domain) 384 dir
        rcases hended : Atomic.writeText faults true ref
          (credentialsText username password domain) 384 dir with ⟨result, left⟩
        rw [hended] at h hreturned
        cases result with
        | error e => cases h
        | ok u => exact ⟨hfits, href, hreturned rfl⟩
      · rw [if_neg href] at h
        cases h

/-- `mount.cifs` reads the values and nothing else, whatever they are. -/
theorem fileExact (username password : Str) (domain : Option Str) :
    FileExact username password domain := by
  intro faults ref dir hok
  rcases write_returned hok with ⟨hfits, -, bytes, hbytes, hfile⟩
  refine ⟨{ bytes := bytes, mode := 384 }, ?_, ?_⟩
  · rw [hfile, Function.update_self]
  · have hholds := lineHolds_secretValues hfits (isPlain_of_encode hbytes)
    rw [credentialsText_eq] at hbytes
    exact directives_of_encode hholds hbytes

end Files

section Username

/-- The line of a domain, where one is given. -/
def domainLine (domain : Option Str) : Str :=
  ((domainOf domain).map fun d => str "domain=" ++ d ++ str "\n").getD []

theorem credentialsText_domainLine (username password : Str) (domain : Option Str) :
    credentialsText username password domain =
      str "username=" ++ username ++ str "\npassword=" ++ password ++ str "\n" ++
        domainLine domain := by
  unfold credentialsText domainLine
  cases domainOf domain <;> rfl

/-- The text of a credentials file has no carriage return. -/
theorem cr_not_mem_credentialsText {username password : Str} {domain : Option Str}
    (h : Fits username password domain) : chr '\r' ∉ credentialsText username password domain := by
  have hkeys : ∀ key ∈ ["username=", "\npassword=", "\n", "domain="], chr '\r' ∉ str key := by
    decide
  simp only [List.forall_mem_cons] at hkeys
  obtain ⟨husername, hpassword, hend, hdomain, -⟩ := hkeys
  have htail : chr '\r' ∉ domainLine domain := by
    unfold domainLine
    cases hd : domainOf domain with
    | none => exact List.not_mem_nil
    | some d =>
        simp only [Option.map_some, Option.getD_some, List.mem_append, not_or]
        exact ⟨⟨hdomain, (h.2.2 d hd).cr_not_mem⟩, hend⟩
  rw [credentialsText_domainLine]
  simp only [List.mem_append, not_or]
  exact ⟨⟨⟨⟨⟨husername, h.1.2.cr_not_mem⟩, hpassword⟩, h.2.1.2.cr_not_mem⟩, hend⟩, htail⟩

/-- What a line says has no end of a line in it. -/
theorem usernameIn_oneLine {text username : Str} (h : usernameIn text = some username) :
    ∀ c ∈ username, isLineBoundary c = false := by
  rcases List.exists_of_findSome?_eq_some h with ⟨line, hline, hsome⟩
  rcases List.mem_map.mp hline with ⟨whole, hwhole, rfl⟩
  split at hsome
  · rw [← Option.some.inj hsome]
    intro c hc
    exact lineText_oneLine hwhole c
      ((List.dropWhile_sublist _).subset (List.mem_of_mem_tail hc))
  · cases hsome

theorem usernameIn_credentialsText {username password : Str} {domain : Option Str}
    (h : ∀ c ∈ username, isLineBoundary c = false) :
    usernameIn (credentialsText username password domain) = some username := by
  have hkey : ∀ c ∈ str "username=", isLineBoundary c = false := by decide
  have hends : ∀ c ∈ str "\n", isLineBoundary c = true := by decide
  have hline := List.forall_mem_append.mpr ⟨hkey, h⟩
  have htext : ∃ rest, credentialsText username password domain =
      str "username=" ++ username ++ str "\n" ++ rest := by
    refine ⟨str "password=" ++ password ++ str "\n" ++ domainLine domain, ?_⟩
    rw [credentialsText_domainLine]
    simp only [List.append_assoc]
    rfl
  rcases htext with ⟨rest, htext⟩
  rw [htext, usernameIn, splitlines_line hline (Or.inl rfl), List.map_cons,
    lineText_append hline hends]
  rfl

variable [Unicode]

/-- An accepted username is read back exactly when it has no end of a line. -/
theorem usernameFor_written_iff {faults : Faults} {ref username password : Str}
    {domain : Option Str} {dir : Directory}
    (h : (CredentialsStore.write faults ref username password domain dir).1 = .ok ()) :
    usernameFor ref (CredentialsStore.write faults ref username password domain dir).2 =
      .ok (some username) ↔ ∀ c ∈ username, isLineBoundary c = false := by
  rcases write_returned h with ⟨hfits, href, bytes, hbytes, hfile⟩
  have hread : readText bytes = some (credentialsText username password domain) :=
    readText_writeText hbytes (cr_not_mem_credentialsText hfits)
  have hfor : usernameFor ref (CredentialsStore.write faults ref username password domain dir).2 =
      .ok (usernameIn (credentialsText username password domain)) := by
    rw [usernameFor, pathFor, if_pos href, hfile, Function.update_self]
    dsimp only
    rw [hread]
  rw [hfor]
  constructor
  · intro hok
    exact usernameIn_oneLine (Except.ok.inj hok)
  · intro hone
    rw [usernameIn_credentialsText hone]

/-- What the store does not refuse. -/
def StoreAccepts (username password : Str) (domain : Option Str) : Prop :=
  Fits username password domain ∧ IsPlain (credentialsText username password domain)

/-- Where the system refuses nothing, what the store does not refuse is written. -/
theorem write_accepted {username password : Str} {domain : Option Str}
    (h : StoreAccepts username password domain) :
    (CredentialsStore.write yielding (str "nas") username password domain fun _ => none).1 =
      .ok () := by
  have hfree : freeName yielding (str "nas") (fun _ => none) = some (str ".nas-x7k2_q9a") := by
    decide
  have hfaults : ∀ step, yielding.fails step = false := fun _ => rfl
  have hwrite := @writeText_unrefused yielding true _ _ _ 384 _ hfaults hfree h.2
  have href : isId (str "nas") = true := by decide
  rw [CredentialsStore.write, credentialsBody_eq_ok_iff.mpr ⟨h.1, rfl⟩]
  dsimp only
  rw [pathFor, if_pos href]
  dsimp only
  rcases hended : Atomic.writeText yielding true (str "nas")
    (credentialsText username password domain) 384 (fun _ => none) with ⟨result, left⟩
  rw [hended] at hwrite
  obtain rfl : result = .ok () := hwrite
  rfl

/-- The username is read back, whenever it is accepted, exactly when it has no end of a
    line. -/
theorem usernameExact_iff (username password : Str) (domain : Option Str) :
    UsernameExact username password domain ↔
      (StoreAccepts username password domain → ∀ c ∈ username, isLineBoundary c = false) := by
  constructor
  · intro hexact haccepted
    have hok := write_accepted haccepted
    exact (usernameFor_written_iff hok).mp (hexact _ _ _ hok)
  · intro hone faults ref dir hok
    rcases write_returned hok with ⟨hfits, -, bytes, hbytes, -⟩
    exact (usernameFor_written_iff hok).mpr (hone ⟨hfits, isPlain_of_encode hbytes⟩)

end Username

section Prompts

/-- Both prompts read the password exactly when no line ends in it. -/
theorem prompts_input_iff (password : List UInt8) :
    prompts (password ++ 10 :: (password ++ [10])) = [password, password] ↔ 10 ∉ password := by
  unfold prompts
  constructor
  · intro h
    have hmem : password ∈ (framed 10 (password ++ 10 :: (password ++ [10]))).1.take 2 := by
      rw [h]
      exact List.mem_cons_self
    exact not_mem_of_mem_framed (List.mem_of_mem_take hmem)
  · intro h
    rw [framed_piece h, framed_piece h]
    rfl

/-- What is written to `smbpasswd`, as bytes. -/
theorem encode_input {password : Str} {stdin : List UInt8}
    (h : encode (password ++ str "\n" ++ password ++ str "\n") = some stdin) :
    ∃ bytes, encode password = some bytes ∧ stdin = bytes ++ 10 :: (bytes ++ [10]) := by
  have hplain := isPlain_of_encode h
  rw [isPlain_append, isPlain_append, isPlain_append] at hplain
  rcases hplain.1.1.1.encodes with ⟨bytes, hbytes⟩
  have hend : encode (str "\n") = some [10] := rfl
  have hinput := encode_append (encode_append (encode_append hbytes hend) hbytes) hend
  rw [h] at hinput
  refine ⟨bytes, hbytes, ?_⟩
  rw [Option.some.inj hinput]
  simp only [List.append_assoc, List.cons_append, List.nil_append]

variable [Unicode]

/-- `smbpasswd` is given the password, twice, or nothing at all. -/
theorem setPassword_runs {host : SambaHost} {account password : Str} {run : CommandRun}
    (h : run ∈ (setPassword host account password).2) :
    isOwner account = true ∧ ∃ bytes, encode password = some bytes ∧
      run.stdin = bytes ++ 10 :: (bytes ++ [10]) := by
  -- Each check refuses before anything is run.
  unfold setPassword requirePosixUser at h
  by_cases howner : isOwner account = false
  · rw [if_pos howner] at h
    exact absurd h List.not_mem_nil
  rw [if_neg howner] at h
  refine ⟨eq_true_of_ne_false howner, ?_⟩
  by_cases huser : host.posixUserExists account = false
  · rw [if_pos huser] at h
    exact absurd h List.not_mem_nil
  rw [if_neg huser] at h
  dsimp only at h
  by_cases hempty : password = []
  · rw [if_pos hempty] at h
    exact absurd h List.not_mem_nil
  rw [if_neg hempty] at h
  unfold SambaHost.run at h
  cases hinput : encode (password ++ str "\n" ++ password ++ str "\n") with
  | none =>
      rw [hinput] at h
      exact absurd h List.not_mem_nil
  | some stdin =>
      rw [hinput] at h
      dsimp only at h
      -- However it ends, there is one run, with the password twice on its input.
      have hrun : run = ⟨[str "smbpasswd", str "-a", str "-s", account], stdin⟩ := by
        cases hresult : host.execute ⟨[str "smbpasswd", str "-a", str "-s", account], stdin⟩ with
        | error e =>
            rw [hresult] at h
            exact List.mem_singleton.mp h
        | ok result =>
            rw [hresult] at h
            dsimp only at h
            split at h
            · exact List.mem_singleton.mp h
            · exact List.mem_singleton.mp h
      rw [hrun]
      exact encode_input hinput

/-- A machine that has every account, and on which every command works. -/
def willing : SambaHost where
  posixUserExists := fun _ => true
  execute := fun _ => .ok { returncode := 0, stdout := [], stderr := [] }

/-- There `smbpasswd` is run for any account that can be one. -/
theorem setPassword_willing {account password : Str} (haccount : isOwner account = true)
    (hne : password ≠ []) {bytes : List UInt8} (hbytes : encode password = some bytes) :
    ∃ run ∈ (setPassword willing account password).2,
      run.stdin = bytes ++ 10 :: (bytes ++ [10]) := by
  have hnot : ¬isOwner account = false := ne_false_of_eq_true haccount
  have huser : ¬willing.posixUserExists account = false := ne_false_of_eq_true rfl
  have hplain : IsPlain (password ++ str "\n" ++ password ++ str "\n") := by
    rw [isPlain_append, isPlain_append, isPlain_append]
    exact ⟨⟨⟨isPlain_of_encode hbytes, isPlain_str _⟩, isPlain_of_encode hbytes⟩, isPlain_str _⟩
  rcases hplain.encodes with ⟨stdin, hstdin⟩
  rcases encode_input hstdin with ⟨bytes', hbytes', hinput⟩
  rw [hbytes] at hbytes'
  obtain rfl := Option.some.inj hbytes'
  refine ⟨⟨[str "smbpasswd", str "-a", str "-s", account], stdin⟩, ?_, hinput⟩
  unfold setPassword requirePosixUser SambaHost.run
  rw [if_neg hnot, if_neg huser]
  dsimp only
  rw [if_neg hne, hstdin]
  exact List.mem_singleton_self _

/-- `smbpasswd` reads the password, whenever it is run, exactly when no line ends in it. -/
theorem setExactly_iff (account password : Str) :
    SetExactly account password ↔
      (isOwner account = true → IsPlain password → chr '\n' ∉ password) := by
  constructor
  · intro hexact haccount hplain hmem
    rcases hplain.encodes with ⟨bytes, hbytes⟩
    rcases setPassword_willing haccount (List.ne_nil_of_mem hmem) hbytes with ⟨run, hrun, hstdin⟩
    rcases hexact willing run hrun with ⟨bytes', hbytes', hprompts⟩
    rw [hbytes] at hbytes'
    obtain rfl := Option.some.inj hbytes'
    rw [hstdin, prompts_input_iff] at hprompts
    exact hprompts (mem_encode_of_mem hbytes hmem (by decide))
  · intro hfeed host run hrun
    rcases setPassword_runs hrun with ⟨haccount, bytes, hbytes, hstdin⟩
    have hnot := lineFeed_not_mem hbytes (hfeed haccount (isPlain_of_encode hbytes))
    exact ⟨bytes, hbytes, by rw [hstdin, prompts_input_iff]; exact hnot⟩

/-- **When a secret is stored exactly.** What `mount.cifs` reads of an accepted username,
    password and domain is always the three and nothing else. What `username_for` reads of it is
    the username exactly when no Python line ends in an accepted one, and what `smbpasswd` reads
    is the password, twice, exactly when no line feed is in one it is run with. -/
theorem secrets_exact_iff :
    (∀ username password domain, FileExact username password domain) ∧
    (∀ username password domain, UsernameExact username password domain ↔
      (StoreAccepts username password domain → ∀ c ∈ username, isLineBoundary c = false)) ∧
    ∀ account password, SetExactly account password ↔
      (isOwner account = true → IsPlain password → chr '\n' ∉ password) :=
  ⟨fileExact, usernameExact_iff, setExactly_iff⟩

end Prompts

section Shortened

attribute [local instance] Unicode.ascii

/-- A form feed in a username is accepted, and the username is read back short; a line feed in
    a password makes both prompts read what is in front of it, and the store answers success. -/
theorem shortened_with_success :
    ¬(∀ username password domain, UsernameExact username password domain) ∧
    ¬(∀ account password, SetExactly account password) ∧
    (setPassword willing (str "ann") (str "a\na")).1 = .ok () ∧
    (setPassword willing (str "ann") (str "a\na")).2.map (fun run => prompts run.stdin) =
      [[[97], [97]]] := by
  refine ⟨fun h => ?_, fun h => ?_, by decide +kernel, by decide +kernel⟩
  · have hread := h (str "an\x0cn") (str "s") none yielding (str "nas") (fun _ => none)
      (by decide +kernel)
    exact absurd hread (by decide +kernel)
  · rcases h (str "ann") (str "a\na") willing
      ⟨[str "smbpasswd", str "-a", str "-s", str "ann"], [97, 10, 97, 10, 97, 10, 97, 10]⟩
      (by decide +kernel) with ⟨bytes, hbytes, hprompts⟩
    have hread : prompts [97, 10, 97, 10, 97, 10, 97, 10] = [[97], [97]] := by decide +kernel
    rw [hread, List.cons.injEq] at hprompts
    rw [← hprompts.1] at hbytes
    exact absurd hbytes (by decide +kernel)

end Shortened

end Smbpal
