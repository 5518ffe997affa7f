import Smbpal.Config.Document
import Smbpal.Mounts.Apply
import Smbpal.Python.Dumps
import Smbpal.System.Atomic

/-!
# What the Stores Write

`ConfigStore.save` and `CredentialsStore.write`: a text made from what they are given, and
`write_text`.

The config's text is ASCII whatever the document says, so saving it is all or nothing. The
text of a credentials file holds the username, the password and the domain as they came,
and what a client's JSON can say has not always a UTF-8.

## Main definitions

* `dumpsPretty`: `json.dumps(doc, indent=2, sort_keys=True)`.
* `ConfigStore.save`, `CredentialsStore.write`: The two.

## Theorems

* `isPlain_dumpsPretty`: A document's text has a UTF-8.
* `credentialsBody_eq_ok_iff`: What a credentials file may hold.
* `writes_all_or_nothing_iff`: When a write is all or nothing.
-/

namespace Smbpal

section Pretty

mutual

/-- A value with the keys of every object in order. -/
def sortKeys : Json → Json
  | .array items => .array (sortItems items)
  | .object members => .object ((sortMembers members).mergeSort fun m n => strLe m.1 n.1)
  | v => v

/-- The items of an array. -/
def sortItems : List Json → List Json
  | [] => []
  | v :: vs => sortKeys v :: sortItems vs

/-- The members of an object. -/
def sortMembers : Members → Members
  | [] => []
  | (k, v) :: ms => (k, sortKeys v) :: sortMembers ms

end

/-- A new line at a level. -/
def lineAt (level : Nat) : Str :=
  chr '\n' :: List.replicate (2 * level) (chr ' ')

variable [FloatText]

mutual

/-- A value at a level. -/
def prettyValue (level : Nat) : Json → Str
  | .array [] => str "[]"
  | .array (v :: vs) =>
      chr '[' :: lineAt (level + 1) ++ prettyItems (level + 1) (v :: vs) ++ lineAt level ++
        [chr ']']
  | .object [] => str "\x7b\x7d"
  | .object (m :: ms) =>
      chr '\x7b' :: lineAt (level + 1) ++ prettyMembers (level + 1) (m :: ms) ++ lineAt level ++
        [chr '\x7d']
  | .null => dumps .null
  | .bool b => dumps (.bool b)
  | .int n => dumps (.int n)
  | .float x => dumps (.float x)
  | .string s => dumps (.string s)

/-- The items of an array, a line each. -/
def prettyItems (level : Nat) : List Json → Str
  | [] => []
  | [v] => prettyValue level v
  | v :: w :: vs => prettyValue level v ++ chr ',' :: lineAt level ++ prettyItems level (w :: vs)

/-- The members of an object, a line each. -/
def prettyMembers (level : Nat) : Members → Str
  | [] => []
  | [(k, v)] => dumpsString k ++ str ": " ++ prettyValue level v
  | (k, v) :: m :: ms =>
      dumpsString k ++ str ": " ++ prettyValue level v ++ chr ',' :: lineAt level ++
        prettyMembers level (m :: ms)

end

/-- `json.dumps(doc, indent=2, sort_keys=True)`. -/
def dumpsPretty (doc : Json) : Str :=
  prettyValue 0 (sortKeys doc)

end Pretty

section Stores

/-- `except OSError`, where the store raises an error of its own. -/
def wrapOS (code : ErrorCode) (message : Str) : Exc → Exc
  | .os detail => .detailed code message detail
  | e => e

/-- `write_text` with that around it. -/
def raiseFrom (code : ErrorCode) (message : Str) :
    Except Exc Unit × Directory → Except Exc Unit × Directory
  | (.error e, dir) => (.error (wrapOS code message e), dir)
  | (.ok (), dir) => (.ok (), dir)

/-- What `validate_or_raise` raises. -/
def invalidDocument (source : Str) (problems : List Problem) : Exc :=
  .detailed .configInvalid source <|
    digits problems.length ++ str " problem" ++
      (if problems.length = 1 then [] else str "s") ++ str ":\n" ++
      join (str "\n") (problems.map fun p => str "  - " ++ p.location ++ str ": " ++ p.message)

variable [Unicode]

/-- `ConfigStore.save`, of the file with this name and path. -/
def ConfigStore.save [JsonText] [FloatText] (faults : Faults) (path name : Str) (doc : Json)
    (dir : Directory) : Except Exc Unit × Directory :=
  match validateDocument doc with
  | .error e => (.error e, dir)
  | .ok problems =>
      if problems = [] then
        raiseFrom ErrorCode.configIO (str "cannot write " ++ path)
          (Atomic.writeText faults true name (dumpsPretty doc ++ str "\n") 384 dir)
      else
        (.error (invalidDocument (str "the new config") problems), dir)

/-- `CredentialsStore.write`. -/
def CredentialsStore.write (faults : Faults) (ref username password : Str)
    (domain : Option Str) (dir : Directory) : Except Exc Unit × Directory :=
  match credentialsBody username password domain with
  | .error e => (.error e, dir)
  | .ok body =>
      match pathFor ref with
      | .error e => (.error e, dir)
      | .ok path =>
          raiseFrom .credentials (str "cannot write " ++ path)
            (Atomic.writeText faults true ref body 384 dir)

end Stores

section Plain

theorem isPlain_lineAt (level : Nat) : IsPlain (lineAt level) := by
  intro c hc
  rcases List.mem_cons.mp hc with rfl | hc
  · exact ⟨'\n', rfl⟩
  · exact ⟨' ', List.eq_of_mem_replicate hc⟩

theorem isPlain_cons {c : Char} {s : Str} (h : IsPlain s) : IsPlain (chr c :: s) :=
  List.forall_mem_cons.mpr ⟨⟨c, rfl⟩, h⟩

variable [FloatText]

theorem isPlain_member {level : Nat} {k : Str} {v : Json} (h : IsPlain (prettyValue level v)) :
    IsPlain (dumpsString k ++ str ": " ++ prettyValue level v) :=
  isPlain_append.mpr ⟨isPlain_append.mpr
    ⟨isPlain_of_printable (printable_dumpsString k), isPlain_str ": "⟩, h⟩

mutual

/-- A value's text has a UTF-8 at every level. -/
theorem isPlain_prettyValue (level : Nat) : (v : Json) → IsPlain (prettyValue level v)
  | .array [] => by rw [prettyValue]; exact isPlain_str "[]"
  | .array (v :: vs) => by
      rw [prettyValue]
      refine isPlain_append.mpr ⟨isPlain_append.mpr ⟨isPlain_cons (isPlain_append.mpr ⟨?_, ?_⟩),
        isPlain_lineAt level⟩, isPlain_str "]"⟩
      · exact isPlain_lineAt (level + 1)
      · exact isPlain_prettyItems (level + 1) (v :: vs)
  | .object [] => by rw [prettyValue]; exact isPlain_str "\x7b\x7d"
  | .object (m :: ms) => by
      rw [prettyValue]
      refine isPlain_append.mpr ⟨isPlain_append.mpr ⟨isPlain_cons (isPlain_append.mpr ⟨?_, ?_⟩),
        isPlain_lineAt level⟩, isPlain_str "\x7d"⟩
      · exact isPlain_lineAt (level + 1)
      · exact isPlain_prettyMembers (level + 1) (m :: ms)
  | .null => by rw [prettyValue]; exact isPlain_of_printable (dumps_printable _)
  | .bool b => by rw [prettyValue]; exact isPlain_of_printable (dumps_printable _)
  | .int n => by rw [prettyValue]; exact isPlain_of_printable (dumps_printable _)
  | .float x => by rw [prettyValue]; exact isPlain_of_printable (dumps_printable _)
  | .string s => by rw [prettyValue]; exact isPlain_of_printable (dumps_printable _)

theorem isPlain_prettyItems (level : Nat) : (items : List Json) → IsPlain (prettyItems level items)
  | [] => by rw [prettyItems]; exact fun _ h => absurd h List.not_mem_nil
  | [v] => by rw [prettyItems]; exact isPlain_prettyValue level v
  | v :: w :: vs => by
      rw [prettyItems]
      exact isPlain_append.mpr ⟨isPlain_append.mpr ⟨isPlain_prettyValue level v,
        isPlain_cons (isPlain_lineAt level)⟩, isPlain_prettyItems level (w :: vs)⟩

theorem isPlain_prettyMembers (level : Nat) : (members : Members) →
    IsPlain (prettyMembers level members)
  | [] => by rw [prettyMembers]; exact fun _ h => absurd h List.not_mem_nil
  | [(k, v)] => by rw [prettyMembers]; exact isPlain_member (isPlain_prettyValue level v)
  | (k, v) :: m :: ms => by
      rw [prettyMembers]
      exact isPlain_append.mpr ⟨isPlain_append.mpr ⟨isPlain_member (isPlain_prettyValue level v),
        isPlain_cons (isPlain_lineAt level)⟩, isPlain_prettyMembers level (m :: ms)⟩

end

/-- A document's text has a UTF-8, whatever is in it. -/
theorem isPlain_dumpsPretty (doc : Json) : IsPlain (dumpsPretty doc) :=
  isPlain_prettyValue 0 (sortKeys doc)

end Plain

section Values

/-- A value a line of the credentials file can hold. -/
def FitsLine (value : Str) : Prop :=
  value.any endsLine = false

theorem checkCredential_eq_ok_iff (label value : Str) :
    checkCredential label value = .ok () ↔ value ≠ [] ∧ FitsLine value := by
  unfold checkCredential FitsLine
  by_cases hempty : value = []
  · rw [if_pos hempty]
    exact iff_of_false (fun h => by cases h) fun h => h.1 hempty
  rw [if_neg hempty]
  by_cases hline : value.any endsLine = true
  · rw [if_pos hline, hline]
    exact iff_of_false (fun h => by cases h) fun h => Bool.false_ne_true h.2.symm
  · rw [if_neg hline]
    exact iff_of_true rfl ⟨hempty, eq_false_of_ne_true hline⟩

/-- A username, a password and a domain that `CredentialsStore.write` does not refuse. -/
def Fits (username password : Str) (domain : Option Str) : Prop :=
  (username ≠ [] ∧ FitsLine username) ∧ (password ≠ [] ∧ FitsLine password) ∧
    ∀ d ∈ domainOf domain, FitsLine d

/-- The text of a credentials file. -/
def credentialsText (username password : Str) (domain : Option Str) : Str :=
  str "username=" ++ username ++ str "\npassword=" ++ password ++ str "\n" ++
    match domainOf domain with
    | some d => str "domain=" ++ d ++ str "\n"
    | none => []

/-- What a credentials file may hold, and what it says. -/
theorem credentialsBody_eq_ok_iff {username password body : Str} {domain : Option Str} :
    credentialsBody username password domain = .ok body ↔
      Fits username password domain ∧ body = credentialsText username password domain := by
  unfold credentialsBody Fits
  constructor
  · intro h
    rcases except_bind_eq_ok.mp h with ⟨_, husername, h⟩
    rcases except_bind_eq_ok.mp h with ⟨_, hpassword, h⟩
    rcases except_bind_eq_ok.mp h with ⟨_, hdomain, h⟩
    rw [refuseIf_eq_ok, Option.filter_eq_none_iff] at hdomain
    refine ⟨⟨(checkCredential_eq_ok_iff _ _).mp husername,
      (checkCredential_eq_ok_iff _ _).mp hpassword, fun d hd => ?_⟩, (Except.ok.inj h).symm⟩
    exact eq_false_of_ne_true (hdomain d hd)
  · rintro ⟨⟨husername, hpassword, hdomain⟩, rfl⟩
    refine except_bind_eq_ok.mpr ⟨(), (checkCredential_eq_ok_iff _ _).mpr husername, ?_⟩
    refine except_bind_eq_ok.mpr ⟨(), (checkCredential_eq_ok_iff _ _).mpr hpassword, ?_⟩
    refine except_bind_eq_ok.mpr ⟨(), ?_, rfl⟩
    rw [refuseIf_eq_ok, Option.filter_eq_none_iff]
    exact fun d hd => ne_true_of_eq_false (hdomain d hd)

/-- The text has a UTF-8 when the three have one. -/
theorem isPlain_credentialsText {username password : Str} {domain : Option Str} :
    IsPlain (credentialsText username password domain) ↔
      IsPlain username ∧ IsPlain password ∧ ∀ d ∈ domainOf domain, IsPlain d := by
  unfold credentialsText
  rw [isPlain_append, isPlain_append, isPlain_append, isPlain_append, isPlain_append]
  -- A domain that is empty is left out of the text.
  have hdomain : IsPlain (match domainOf domain with
      | some d => str "domain=" ++ d ++ str "\n"
      | none => []) ↔ ∀ d ∈ domainOf domain, IsPlain d := by
    cases domainOf domain with
    | none => exact iff_of_true (fun _ h => absurd h List.not_mem_nil) fun _ h => by cases h
    | some d =>
        rw [isPlain_append, isPlain_append]
        constructor
        · rintro ⟨⟨-, h⟩, -⟩ d' hd'
          rw [← Option.some.inj hd']
          exact h
        · exact fun h => ⟨⟨isPlain_str _, h d rfl⟩, isPlain_str _⟩
  rw [hdomain]
  have hkey := isPlain_str "username="
  have hnext := isPlain_str "\npassword="
  have hend := isPlain_str "\n"
  tauto

end Values

section AllOrNothing

/-- A store's own error is raised where `write_text` raised. -/
theorem allOrNothing_raiseFrom {name text : Str} {mode : Nat} {dir : Directory}
    {ended : Except Exc Unit × Directory} (code : ErrorCode) (message : Str) :
    AllOrNothing name text mode dir (raiseFrom code message ended) ↔
      AllOrNothing name text mode dir ended := by
  rcases ended with ⟨result, left⟩
  cases result with
  | ok u => exact Iff.rfl
  | error e =>
      constructor
      · exact fun h => ⟨fun _ _ => h.raised _ rfl, fun h => by cases h⟩
      · exact fun h => ⟨fun _ _ => h.raised _ rfl, fun h => by cases h⟩

/-- What is refused before anything is written is nothing. -/
theorem allOrNothing_refused {name text : Str} {mode : Nat} {dir : Directory} (e : Exc) :
    AllOrNothing name text mode dir (.error e, dir) :=
  ⟨fun _ _ => rfl, fun h => by cases h⟩

variable [Unicode]

/-- Saving a config is all or nothing. -/
theorem save_allOrNothing [JsonText] [FloatText] (faults : Faults) (path name : Str) (doc : Json)
    (dir : Directory) : AllOrNothing name (dumpsPretty doc ++ str "\n") 384 dir
      (ConfigStore.save faults path name doc dir) := by
  unfold ConfigStore.save
  cases validateDocument doc with
  | error e => exact allOrNothing_refused e
  | ok problems =>
      dsimp only
      by_cases hproblems : problems = []
      · rw [if_pos hproblems, allOrNothing_raiseFrom, writeText_allOrNothing_iff]
        exact Or.inl (isPlain_append.mpr ⟨isPlain_dumpsPretty doc, isPlain_str _⟩)
      · rw [if_neg hproblems]
        exact allOrNothing_refused _

/-- Writing credentials is all or nothing exactly when they have a UTF-8, or are refused, or
    the temporary file is. -/
theorem write_allOrNothing_iff (faults : Faults) (ref username password : Str)
    (domain : Option Str) (dir : Directory) :
    AllOrNothing ref (credentialsText username password domain) 384 dir
      (CredentialsStore.write faults ref username password domain dir) ↔
    (IsPlain username ∧ IsPlain password ∧ ∀ d ∈ domainOf domain, IsPlain d) ∨
      ¬(Fits username password domain ∧ isId ref = true) ∨ Refused faults true ref dir := by
  unfold CredentialsStore.write
  cases hbody : credentialsBody username password domain with
  | error e =>
      -- A text that does not fit is refused before the path is made.
      refine iff_of_true (allOrNothing_refused e) (Or.inr (Or.inl fun h => ?_))
      have hok := credentialsBody_eq_ok_iff.mpr ⟨h.1, rfl⟩
      rw [hbody] at hok
      cases hok
  | ok body =>
      rcases credentialsBody_eq_ok_iff.mp hbody with ⟨hfits, rfl⟩
      dsimp only
      unfold pathFor
      by_cases href : isId ref = true
      · rw [if_pos href, allOrNothing_raiseFrom, writeText_allOrNothing_iff,
          isPlain_credentialsText]
        refine or_congr_right ⟨Or.inr, fun h => h.resolve_left fun hnot => hnot ⟨hfits, href⟩⟩
      · rw [if_neg href]
        exact iff_of_true (allOrNothing_refused _) (Or.inr (Or.inl fun h => href h.2))

/-- A write is all or nothing exactly when its text has a UTF-8, or the temporary file is
    refused. A config's always is. A credentials file's is when the values have a UTF-8, or are
    refused, or the temporary file is. -/
theorem writes_all_or_nothing_iff [JsonText] [FloatText] :
    (∀ (faults : Faults) (makeParents : Bool) (name text : Str) (mode : Nat) (dir : Directory),
      AllOrNothing name text mode dir (Atomic.writeText faults makeParents name text mode dir) ↔
        IsPlain text ∨ Refused faults makeParents name dir) ∧
    (∀ (faults : Faults) (path name : Str) (doc : Json) (dir : Directory),
      AllOrNothing name (dumpsPretty doc ++ str "\n") 384 dir
        (ConfigStore.save faults path name doc dir)) ∧
    (∀ (faults : Faults) (ref username password : Str) (domain : Option Str) (dir : Directory),
      AllOrNothing ref (credentialsText username password domain) 384 dir
        (CredentialsStore.write faults ref username password domain dir) ↔
      (IsPlain username ∧ IsPlain password ∧ ∀ d ∈ domainOf domain, IsPlain d) ∨
        ¬(Fits username password domain ∧ isId ref = true) ∨ Refused faults true ref dir) :=
  ⟨writeText_allOrNothing_iff, save_allOrNothing, write_allOrNothing_iff⟩

end AllOrNothing

section Surrogate

attribute [local instance] Unicode.ascii

/-- A system that refuses nothing. -/
def yielding : Faults where
  fails := fun _ => false
  randoms := [str "x7k2_q9a"]
  written := 0

/-- A password with a lone surrogate: writing it raises, and leaves an empty file behind. -/
theorem surrogate_leaves_temporary :
    let ended := CredentialsStore.write yielding (str "nas") (str "ann") [.surrogate 0] none
      fun _ => none
    ended.1 = .error .exception ∧
      ended.2 (str ".nas-x7k2_q9a") = some { bytes := [], mode := 384 } ∧
      ¬AllOrNothing (str "nas") (credentialsText (str "ann") [.surrogate 0] none) 384
        (fun _ => none) ended := by
  intro ended
  have hleft : ended.2 (str ".nas-x7k2_q9a") = some { bytes := [], mode := 384 } := by
    decide +kernel
  have hraised : ended.1 = .error .exception := by decide +kernel
  refine ⟨hraised, hleft, fun h => ?_⟩
  rw [h.raised _ hraised] at hleft
  cases hleft

end Surrogate

end Smbpal
