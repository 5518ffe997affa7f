import Mathlib.Logic.Function.Basic
import Smbpal.Daemon.Edits

/-!
# The Credentials File of a Failed Request

On Linux a password is written to a file before the config that names it is
saved, so a request that fails afterwards has a file to undo.

`connection.add` undoes it by deleting the file, which is the same thing only
when there was none: a reference that names a file already in use loses it.
`connection.set_credentials` does not undo it at all. `writtenFile` is the file
a request gets as far as writing, as a function of the request and the config,
and `failure_restores_iff` says exactly when every way to fail leaves the config
and all the files as they were.

Failing is anything raised by a check, by writing the file, by the save or by
applying, where what undoes it works: once a save has been tried, the next one
is not refused, and a file can be deleted.

## Main definitions

* `Linux`, `linuxMachine`: The stored config and the credentials files.
* `writtenFile`: What a request gets as far as writing.
* `Restorable`: When there is nothing to undo, or undoing is enough.

## Theorems

* `failure_restores`: Then every failure leaves everything as it was.
* `failing_save_harms`: Otherwise a failed save does not.
* `failure_restores_iff`: Both.
* `deletes_credentials`: An add that loses a file in use.
-/

namespace Smbpal

open Lib Program

/-- The stored config, the credentials files by their reference, and whether a
    save has been tried. -/
structure Linux where
  config : Config
  credentials : Str → Option Str
  saving : Bool

/-- The same with one file replaced. -/
def Linux.withFile (s : Linux) (ref : Str) (content : Option Str) : Linux :=
  { s with credentials := Function.update s.credentials ref content }

section Credentials

variable [Unicode]

/-- The operations as the stored config and the credentials files see them. A
    file is replaced in one step or not at all, and never by text that has no
    UTF-8. -/
def linuxMachine : Machine daemonSig Linux
  | .load, s, ans, s' => storeLoad s.config ans ∧ s' = s
  | .save doc, s, ans, s' => storeSave doc s.config ans s'.config ∧
      s'.credentials = s.credentials ∧ s'.saving = true ∧
        (s.saving = true → doc.Valid → ans = .ok ())
  | .credentialsWrite ref body, s, ans, s' =>
      (ans = .ok () ∧ encode body ≠ none ∧ s' = s.withFile ref (some body)) ∨
        ((∃ e, ans = .error e) ∧ s' = s)
  | .credentialsUnlink ref, s, ans, s' => ans = .ok () ∧ s' = s.withFile ref none
  | .monitorForget _, s, ans, s' => ans = .ok () ∧ s' = s
  | _, s, _, s' => s' = s

theorem linuxMachine_quiet {op : DaemonOp} {s s' : Linux} {ans : Except Exc op.Value}
    (hop : isQuiet op = true) (h : linuxMachine op s ans s') : s' = s := by
  cases op
  case load => exact absurd hop Bool.false_ne_true
  case save => exact absurd hop Bool.false_ne_true
  case credentialsWrite => exact absurd hop Bool.false_ne_true
  case credentialsUnlink => exact absurd hop Bool.false_ne_true
  case monitorForget => exact h.2
  all_goals exact h

theorem linuxView : StoreView linuxMachine Linux.config fun s => s.credentials where
  onLoad := fun _ _ _ h => ⟨h.2, h.1⟩
  onSave := fun _ _ _ _ h => ⟨h.2.1, h.1⟩
  onQuiet := fun _ _ _ _ hop h => by rw [linuxMachine_quiet hop h]; exact ⟨rfl, rfl⟩

/-- The text of a request's credentials file, for a reference it can have. -/
def fileFor (params : Params) (c : Connection) (username password : Str) :
    Except Exc (Str × Str) := do
  let ref ← referenceOf c
  let domain ← optionalStr params "domain"
  let body ← credentialsBody username password domain
  let _ ← pathFor ref
  pure (ref, body)

/-- The credentials file a request gets as far as writing, by a daemon that has
    somewhere to write one. -/
def writtenFile (d : Dispatcher) (env : Surroundings) (c : Config) (r : Request) :
    Except Exc (Str × Str) :=
  if d.mounter = false then .error .exception
  else match r.method with
  | .connectionAdd => do
      let args ← newConnectionIn d env r.uid r.params
      let added ← addConnection c args
      let username ← optionalStr r.params "username"
      let credential ← passwordFor r.params username
      match credential with
      | some (username, password) => fileFor r.params added.2 username password
      | none => .error .exception
  | .connectionSetCredentials => do
      let ref ← requireStr r.params "ref"
      let username ← requireStr r.params "username"
      let password ← requirePassword r.params
      let found ← findConnection c ref
      fileFor r.params found username password
  | _ => .error .exception

/-- What a file must hold for a failure to leave it as it is: nothing before an
    add, which deletes it again, and the very text before setting
    credentials, which does not undo it. -/
def contentBefore (r : Request) (body : Str) : Option Str :=
  if r.method = .connectionAdd then none else some body

/-- The request gets as far as no file, or the file can bear it. -/
def Restorable (d : Dispatcher) (env : Surroundings) (r : Request) (s : Linux) : Prop :=
  s.config.Valid → ∀ file, writtenFile d env s.config r = .ok file → encode file.2 ≠ none →
    s.credentials file.1 = contentBefore r file.2

/-- Nothing the request could have harmed is harmed. -/
def Unharmed (s s' : Linux) : Prop :=
  s'.config = s.config ∧ s'.credentials = s.credentials

/-- A failure leaves everything as it was in `s`. -/
def FailsSafe {α : Type} (s : Linux) (r : Except Exc α) (s' : Linux) : Prop :=
  (∃ e, r = .error e) → Unharmed s s'

section Safe

variable {d : Dispatcher} {env : Surroundings} {s s₁ : Linux} {α β : Type}

omit [Unicode] in
theorem failsSafe_here (r : Except Exc α) : FailsSafe s r s :=
  fun _ => ⟨rfl, rfl⟩

/-- A commit leaves the files alone; it stores the new document, or fails and
    leaves the old one. -/
theorem always_linuxCommit (hvalid : s.config.Valid) (updated : Config) :
    Always linuxMachine (commit d s.config updated)
      (fun r s' => s'.credentials = s.credentials ∧ ((∃ e, r = .error e) → s'.config = s.config) ∧
        (r = .ok () → s'.config = updated)) s := by
  unfold commit
  rw [always_bind]
  refine (always_call (.save updated) _).mpr ?_
  rintro ans s₁ ⟨hsave, hfiles, hsaving, -⟩
  rcases storeSave_cases hsave with ⟨rfl, -, hconfig⟩ | ⟨⟨e, rfl⟩, hconfig⟩
  · rw [andThen_ok]
    split
    · exact ⟨hfiles, fun ⟨e, he⟩ => (nomatch he), fun _ => hconfig⟩
    · rw [always_tryCatch]
      refine always_frame (quiet_applyAll _ _ _ _) (fun _ _ _ _ => linuxMachine_quiet) fun r => ?_
      cases r with
      | ok u => exact ⟨hfiles, fun ⟨e, he⟩ => (nomatch he), fun _ => hconfig⟩
      | error e =>
          rw [orElse_error]
          unfold rollBack
          rw [always_bind]
          refine (always_call (.save s.config) _).mpr ?_
          rintro ans s₂ ⟨hsave₂, hfiles₂, -, hworks⟩
          -- The undo is a save of a document that was loaded, after another save.
          have hans : ans = .ok () := hworks hsaving hvalid
          subst hans
          rcases storeSave_cases hsave₂ with ⟨-, -, hconfig₂⟩ | ⟨⟨e, he⟩, -⟩
          · rw [andThen_ok, always_bind]
            refine always_frame (footprint_catching (quiet_applyAll _ _ _ _)
              fun _ => (footprint_pure _).mpr trivial) (fun _ _ _ _ => linuxMachine_quiet)
              fun r => ?_
            cases r with
            | ok u => exact ⟨hfiles₂.trans hfiles, fun _ => hconfig₂, fun h => nomatch h⟩
            | error e' => exact ⟨hfiles₂.trans hfiles, fun _ => hconfig₂, fun h => nomatch h⟩
          · exact nomatch he
  · exact ⟨hfiles, fun _ => hconfig, fun h => nomatch h⟩

theorem linux_forgetState {Q : Except Exc Unit → Linux → Prop} {id : Option Str}
    (h : Q (.ok ()) s) : Always linuxMachine (forgetState d id) Q s := by
  unfold forgetState onlyIf
  split
  · refine (always_call (.monitorForget id) _).mpr ?_
    rintro ans s' ⟨rfl, rfl⟩
    exact h
  · exact h

/-- The files once a reference that was written is taken back. -/
def takenBack (files : Str → Option Str) : Option Str → Str → Option Str
  | some ref => Function.update files ref none
  | none => files

/-- The end of an add, when taking the file back restores the files. -/
theorem linux_finishAdd {updated : Config} {connection : Connection} {stored : Option Stored}
    {writtenRef : Option Str} (hvalid : s₁.config.Valid) (hsame : s₁.config = s.config)
    (hpath : ∀ ref, writtenRef = some ref → ∃ path, pathFor ref = .ok path)
    (hback : takenBack s₁.credentials writtenRef = s.credentials) :
    Always linuxMachine (finishAdd d s₁.config updated connection stored writtenRef)
      (FailsSafe s) s₁ := by
  unfold finishAdd
  rw [always_bind, always_tryCatch]
  refine always_mono (always_linuxCommit hvalid updated) ?_
  rintro r s₂ ⟨hfiles, hconfig, -⟩
  cases r with
  | ok u =>
      rw [orElse_ok, andThen_ok, always_bind]
      exact linux_forgetState fun ⟨e, he⟩ => nomatch he
  -- The document was put back, so the file has to be taken back too.
  | error e =>
      have hconfig := (hconfig ⟨e, rfl⟩).trans hsame
      rw [orElse_error, always_bind]
      cases writtenRef with
      | none => exact fun _ => ⟨hconfig, hfiles.trans hback⟩
      | some ref =>
          rcases hpath ref rfl with ⟨path, hpath⟩
          change Always linuxMachine (forgetCredentials ref) _ s₂
          unfold forgetCredentials
          rw [always_bind, always_fromExcept, hpath, andThen_ok, always_catching]
          refine (always_call (.credentialsUnlink ref) _).mpr ?_
          rintro ans s₃ ⟨rfl, rfl⟩
          refine fun _ => ⟨hconfig, ?_⟩
          rw [← hback]
          unfold Linux.withFile takenBack
          rw [hfiles]

/-- Writing the file comes first: it is written, or nothing is harmed. -/
theorem linux_write_then {ref username password : Str} {domain : Option Str}
    {f : Unit → DaemonM β}
    (hf : ∀ body path, credentialsBody username password domain = .ok body →
      pathFor ref = .ok path → encode body ≠ none →
        Always linuxMachine (f ()) (FailsSafe s) (s.withFile ref (some body))) :
    Always linuxMachine (writeCredentials ref username password domain >>= f) (FailsSafe s) s := by
  unfold writeCredentials
  rw [always_bind]
  refine always_check (fun e => failsSafe_here (α := β) _) fun body hbody => ?_
  refine always_check (fun e => failsSafe_here (α := β) _) fun path hpath => ?_
  rw [always_catching]
  refine (always_call (.credentialsWrite ref body) _).mpr ?_
  rintro ans s' (⟨rfl, hencode, rfl⟩ | ⟨⟨e, rfl⟩, rfl⟩)
  · exact hf body path hbody hpath hencode
  · rw [orCatch_error]
    split
    · exact failsSafe_here (α := β) _
    · exact failsSafe_here (α := β) _

omit [Unicode] in
theorem update_update_none {files : Str → Option Str} {ref : Str} {content : Option Str}
    (h : files ref = none) : Function.update (Function.update files ref content) ref none =
    files := by
  rw [Function.update_idem, ← h, Function.update_eq_self]

/-- An add that gets as far as writing a file that was not there. -/
theorem linux_added {r : Request} {args : NewConnection} (hmethod : r.method = .connectionAdd)
    (hl : d.agents = false) (hargs : newConnectionIn d env r.uid r.params = .ok args)
    (hvalid : s.config.Valid) (h : Restorable d env r s) :
    Always linuxMachine (addFrom d r.uid r.params s.config args) (FailsSafe s) s := by
  -- Until a file is written, whatever refuses leaves all as it was.
  have hcheck : ∀ e, FailsSafe (α := AddedConnection) s (.error e) s := fun _ => failsSafe_here _
  refine always_check hcheck fun added hadded => always_check hcheck fun username husername => ?_
  refine always_check hcheck fun credential hcredential => ?_
  cases credential with
  | none => exact linux_finishAdd hvalid rfl (fun _ href => nomatch href) rfl
  | some pair =>
      rcases pair with ⟨username, password⟩
      dsimp only
      rw [hl, if_neg Bool.false_ne_true]
      unfold addWithFile
      split
      · rename_i hmounter
        refine always_check hcheck fun ref href => always_check hcheck fun domain hdomain => ?_
        refine linux_write_then fun body path hbody hpath hencode => ?_
        -- The file is the one the request was to write.
        have hfile : writtenFile d env s.config r = .ok (ref, body) := by
          unfold writtenFile
          rw [hmounter, if_neg (by decide), hmethod]
          refine except_bind_eq_ok.mpr ⟨args, hargs, except_bind_eq_ok.mpr ⟨added, hadded, ?_⟩⟩
          refine except_bind_eq_ok.mpr ⟨_, husername, except_bind_eq_ok.mpr ⟨_, hcredential, ?_⟩⟩
          exact except_bind_eq_ok.mpr ⟨ref, href, except_bind_eq_ok.mpr ⟨domain, hdomain,
            except_bind_eq_ok.mpr ⟨body, hbody, except_bind_eq_ok.mpr ⟨path, hpath, rfl⟩⟩⟩⟩
        -- There was no such file, so taking it back restores what was.
        have hnone : s.credentials ref = none := by
          have hbefore := h hvalid _ hfile hencode
          unfold contentBefore at hbefore
          rw [if_pos hmethod] at hbefore
          exact hbefore
        refine linux_finishAdd hvalid rfl ?_ ?_
        · rintro ref' ⟨⟩
          exact ⟨path, hpath⟩
        · exact update_update_none hnone
      · exact hcheck _

/-- Setting credentials to what the file says already. -/
theorem linux_connectionSetCredentials {r : Request}
    (hmethod : r.method = .connectionSetCredentials)
    (hl : d.agents = false) (h : Restorable d env r s) :
    Always linuxMachine (connectionSetCredentials d r.uid r.params) (FailsSafe s) s := by
  -- Until the file is written, whatever refuses leaves all as it was.
  have hcheck : ∀ e, FailsSafe (α := StoredCredentials) s (.error e) s := fun _ => failsSafe_here _
  refine always_check hcheck fun ref href => always_check hcheck fun username husername => ?_
  refine always_check hcheck fun password hpassword => ?_
  rw [hl, if_neg Bool.false_ne_true]
  split
  · rename_i hmounter
    unfold setCredentialsFile
    rw [always_bind]
    refine linuxView.always_load (fun e => hcheck e) fun hvalid => ?_
    refine always_check hcheck fun found hfound => always_check hcheck fun cref hcref => ?_
    refine always_check hcheck fun domain hdomain => ?_
    refine linux_write_then fun body path hbody hpath hencode => ?_
    have hfile : writtenFile d env s.config r = .ok (cref, body) := by
      unfold writtenFile
      rw [hmounter, if_neg (by decide), hmethod]
      refine except_bind_eq_ok.mpr ⟨ref, href, except_bind_eq_ok.mpr ⟨username, husername, ?_⟩⟩
      refine except_bind_eq_ok.mpr ⟨password, hpassword, except_bind_eq_ok.mpr ⟨found, hfound, ?_⟩⟩
      exact except_bind_eq_ok.mpr ⟨cref, hcref, except_bind_eq_ok.mpr ⟨domain, hdomain,
        except_bind_eq_ok.mpr ⟨body, hbody, except_bind_eq_ok.mpr ⟨path, hpath, rfl⟩⟩⟩⟩
    -- The file held that body already: nothing takes back what is written here.
    have hsame : s.withFile cref (some body) = s := by
      have hbefore := h hvalid _ hfile hencode
      unfold contentBefore at hbefore
      rw [if_neg (by rw [hmethod]; decide)] at hbefore
      unfold Linux.withFile
      rw [← hbefore, Function.update_eq_self]
    rw [hsame, always_bind]
    refine always_mono (always_linuxCommit hvalid _) ?_
    rintro result s' ⟨hfiles, hconfig, -⟩
    cases result with
    | ok u =>
        rw [andThen_ok, always_bind]
        exact linux_forgetState fun ⟨e, he⟩ => nomatch he
    | error e => exact fun _ => ⟨hconfig ⟨e, rfl⟩, hfiles⟩
  · exact hcheck _

omit [Unicode] in
theorem linux_acknowledge {M : Machine daemonSig Linux} {handler : DaemonM α}
    (h : Always M handler (FailsSafe s) s) : Always M (acknowledge handler) (FailsSafe s) s := by
  unfold acknowledge
  rw [always_bind]
  refine always_mono h fun r s' hs => ?_
  cases r with
  | ok a => exact fun ⟨e, he⟩ => nomatch he
  | error e => exact fun _ => hs ⟨e, rfl⟩

/-- The requests that write a credentials file. -/
def writesCredentials (r : Request) : Prop :=
  r.method = .connectionAdd ∨ r.method = .connectionSetCredentials

/-- Where there is nothing to undo, or undoing is enough, every failure leaves
    everything as it was. -/
theorem failure_restores {r : Request} (hr : writesCredentials r) (hl : d.agents = false)
    (h : Restorable d env r s) :
    Always (within env linuxMachine) (r.program d) (FailsSafe s) s := by
  rcases r with ⟨method, uid, params⟩
  rcases hr with hmethod | hmethod
  · cases hmethod
    refine linux_acknowledge ?_
    change Always _ (connectionAdd d uid params) _ s
    unfold connectionAdd
    rw [always_bind]
    refine (linuxView.within env).always_load (fun e => failsSafe_here (α := AddedConnection) _) ?_
    intro hvalid
    rw [andThen_ok, always_bind]
    -- What is read before the add changes neither the document nor the files.
    have hsame : ∀ {s' : Linux}, s'.config = s.config → s'.credentials = s.credentials →
        ∀ {β : Type} (result : Except Exc β) (t : Linux), FailsSafe s' result t →
        FailsSafe s result t :=
      fun hconfig hfiles _ _ _ hsafe he =>
        ⟨(hsafe he).1.trans hconfig, (hsafe he).2.trans hfiles⟩
    refine linuxView.always_newConnection (fun e s' hconfig hfiles => ?_) ?_
    · exact hsame hconfig hfiles (β := AddedConnection) _ _ (failsSafe_here _)
    · intro args s' hargs hconfig hfiles
      have hrestorable : Restorable d env ⟨.connectionAdd, uid, params⟩ s' := by
        unfold Restorable
        rw [hconfig, hfiles]
        exact h
      rw [andThen_ok, ← hconfig]
      exact always_mono (always_within env (linux_added rfl hl hargs
        (hconfig ▸ hvalid) hrestorable))
        (hsame hconfig hfiles)
  · cases hmethod
    exact linux_acknowledge (always_within env (linux_connectionSetCredentials rfl hl h))

end Safe

section Harm

variable {d : Dispatcher} {s : Linux} {α β : Type}

/-- What a save raises when the disk is full. -/
def saveError (doc : Config) : Exc :=
  match validateOrRaise doc (str "the new config") id with
  | .error e => e
  | .ok _ => .os (str "no space left on device")

theorem storeSave_saveError (doc stored : Config) :
    storeSave doc stored (.error (saveError doc)) stored := by
  unfold storeSave saveError
  cases validateOrRaise doc (str "the new config") id with
  | error e => exact ⟨rfl, rfl⟩
  | ok doc' => exact Or.inr ⟨⟨_, rfl⟩, rfl⟩

/-- A system whose first save fails, and which does everything else it is
    asked. -/
def stubborn (env : Surroundings) : (op : DaemonOp) → Linux → Except Exc op.Value × Linux
  | .load, s => (loadFrom s.config, s)
  | .save doc, s =>
      if s.saving then
        ((saveOver doc s.config).1, { s with config := (saveOver doc s.config).2 })
      else (.error (saveError doc), { s with saving := true })
  | .credentialsWrite ref body, s =>
      if encode body = none then (.error .exception, s)
      else (.ok (), s.withFile ref (some body))
  | .credentialsUnlink ref, s => (.ok (), s.withFile ref none)
  | .getpwuid _, s => (.ok env.owner, s)
  | .occupiedMountpoints, s => (.ok env.taken, s)
  | op, s => ((obliging op s.config).1, s)

theorem within_stubborn (env : Surroundings) (op : DaemonOp) (s : Linux) :
    within env linuxMachine op s (stubborn env op s).1 (stubborn env op s).2 := by
  cases op
  case load => exact ⟨⟨storeLoad_loadFrom s.config, rfl⟩, trivial⟩
  case save doc =>
    refine ⟨?_, trivial⟩
    unfold stubborn
    -- A document is saved, or the disk refuses it.
    by_cases hsaving : s.saving = true
    · simp only [if_pos hsaving]
      refine ⟨storeSave_saveOver doc s.config, rfl, hsaving, fun _ hvalid => ?_⟩
      exact congrArg Prod.fst (saveOver_valid hvalid s.config)
    · simp only [if_neg hsaving]
      exact ⟨storeSave_saveError doc s.config, rfl, rfl, fun h => absurd h hsaving⟩
  case credentialsWrite ref body =>
    refine ⟨?_, trivial⟩
    unfold stubborn
    by_cases hencode : encode body = none
    · simp only [if_pos hencode]
      exact Or.inr ⟨⟨_, rfl⟩, rfl⟩
    · simp only [if_neg hencode]
      exact Or.inl ⟨rfl, hencode, rfl⟩
  case credentialsUnlink ref => exact ⟨⟨rfl, rfl⟩, trivial⟩
  case monitorForget id => exact ⟨⟨rfl, rfl⟩, trivial⟩
  case getpwuid uid => exact ⟨rfl, fun owner h => (Except.ok.inj h).symm⟩
  case occupiedMountpoints => exact ⟨rfl, fun taken h => (Except.ok.inj h).symm⟩
  all_goals exact ⟨rfl, trivial⟩

variable {env : Surroundings}

theorem run_newConnection {uid : Nat} {params : Params} {args : NewConnection}
    (h : newConnectionIn d env uid params = .ok args) :
    runWith (stubborn env) (newConnection d uid params) s = (.ok args, s) := by
  -- The owner is asked of the surroundings only where the request names none.
  have howner : ∀ asked, runWith (stubborn env) (chooseOwner asked uid) s =
      (.ok (ownerIn env uid asked), s) := by
    intro asked
    unfold chooseOwner ownerIn ownerFrom
    cases truthy asked with
    | some owner => rfl
    | none =>
        dsimp only
        split
        · rfl
        · rfl
  have htaken : runWith (stubborn env) (inUse d) s =
      (.ok (if d.mounter then some env.taken else none), s) := by
    unfold inUse
    split
    · rfl
    · rfl
  -- The parameters are taken in the order of the source.
  rcases except_bind_eq_ok.mp h with ⟨host, hhost, h⟩
  rcases except_bind_eq_ok.mp h with ⟨share, hshare, h⟩
  rcases except_bind_eq_ok.mp h with ⟨mountpoint, hmountpoint, h⟩
  rcases except_bind_eq_ok.mp h with ⟨id, hid, h⟩
  rcases except_bind_eq_ok.mp h with ⟨ref, href, h⟩
  rcases except_bind_eq_ok.mp h with ⟨auto, hauto, h⟩
  rcases except_bind_eq_ok.mp h with ⟨asked, hasked, h⟩
  rcases except_bind_eq_ok.mp h with ⟨fallback, hfallback, h⟩
  cases h
  unfold newConnection
  rw [runWith_check hhost, runWith_check hshare, runWith_check hmountpoint,
    runWith_check hid, runWith_check href,
    runWith_check hauto, runWith_check hasked, runWith_ok (howner asked), runWith_check hfallback,
    runWith_ok htaken]
  rfl

/-- The file is written. -/
theorem run_writeCredentials {ref username password body path : Str} {domain : Option Str}
    (hbody : credentialsBody username password domain = .ok body) (hpath : pathFor ref = .ok path)
    (hencode : encode body ≠ none) :
    runWith (stubborn env) (writeCredentials ref username password domain) s =
      (.ok (), s.withFile ref (some body)) := by
  unfold writeCredentials
  rw [runWith_check hbody, runWith_check hpath]
  refine runWith_catching ?_
  rw [runWith_call]
  exact if_neg hencode

/-- The commit fails at its save. -/
theorem run_commit {previous updated : Config} (hs : s.saving = false) :
    runWith (stubborn env) (commit d previous updated) s =
      (.error (saveError updated), { s with saving := true }) := by
  unfold commit
  refine runWith_error ?_
  unfold save
  rw [runWith_call]
  exact if_neg (by rw [hs]; exact Bool.false_ne_true)

variable {file : Str × Str}

theorem run_load (hvalid : s.config.Valid) : runWith (stubborn env) load s = (.ok s.config, s) := by
  unfold load
  rw [runWith_call]
  exact congrArg (fun loaded => (loaded, s)) (loadFrom_valid hvalid)

/-- The end of an add whose save fails: the file is deleted, not put back. -/
theorem run_finishAdd {previous updated : Config} {connection : Connection} {stored : Option Stored}
    {ref path : Str} (hs : s.saving = false) (hpath : pathFor ref = .ok path) :
    runWith (stubborn env) (finishAdd d previous updated connection stored (some ref)) s =
      (.error (saveError updated), { s with saving := true }.withFile ref none) := by
  have htake : runWith (stubborn env) (takeBack (some ref)) { s with saving := true } =
      (.ok (), { s with saving := true }.withFile ref none) := by
    unfold takeBack forgetCredentials
    dsimp only
    rw [runWith_check hpath]
    refine runWith_catching ?_
    rw [runWith_call]
    rfl
  have hundo := runWith_ok (f := fun _ => (throw (saveError updated) : DaemonM Unit)) htake
  unfold finishAdd
  exact runWith_error ((run_tryCatch_error (run_commit hs)).trans hundo)

/-- A failed save after an add's file takes the file away. -/
theorem run_connectionAdd {uid : Nat} {params : Params} (hl : d.agents = false)
    (hs : s.saving = false) (hvalid : s.config.Valid)
    (hfile : writtenFile d env s.config ⟨.connectionAdd, uid, params⟩ = .ok file)
    (hencode : encode file.2 ≠ none) :
    ∃ e s', runWith (stubborn env) (connectionAdd d uid params) s = (.error e, s') ∧
      s'.config = s.config ∧ s'.credentials = Function.update s.credentials file.1 none := by
  -- With no mounter, or no credentials, no file is written.
  unfold writtenFile at hfile
  by_cases hmounter : d.mounter = false
  · rw [if_pos hmounter] at hfile
    exact nomatch hfile
  rw [if_neg hmounter] at hfile
  have hmounter : d.mounter = true := eq_true_of_ne_false hmounter
  rcases except_bind_eq_ok.mp hfile with ⟨args, hargs, hfile⟩
  rcases except_bind_eq_ok.mp hfile with ⟨added, hadded, hfile⟩
  rcases except_bind_eq_ok.mp hfile with ⟨asked, husername, hfile⟩
  rcases except_bind_eq_ok.mp hfile with ⟨credential, hcredential, hfile⟩
  cases credential with
  | none => exact nomatch hfile
  | some pair =>
      rcases pair with ⟨username, password⟩
      rcases except_bind_eq_ok.mp hfile with ⟨ref, href, hfile⟩
      rcases except_bind_eq_ok.mp hfile with ⟨domain, hdomain, hfile⟩
      rcases except_bind_eq_ok.mp hfile with ⟨body, hbody, hfile⟩
      rcases except_bind_eq_ok.mp hfile with ⟨path, hpath, hfile⟩
      cases hfile
      -- The run goes as far as the file, and the save is refused.
      unfold connectionAdd
      rw [runWith_ok (run_load hvalid), runWith_ok (run_newConnection hargs)]
      unfold addFrom
      rw [runWith_check hadded, runWith_check husername, runWith_check hcredential]
      dsimp only
      rw [hl, if_neg Bool.false_ne_true]
      unfold addWithFile
      rw [if_pos hmounter, runWith_check href, runWith_check hdomain,
        runWith_ok (run_writeCredentials hbody hpath hencode)]
      exact ⟨_, _, run_finishAdd hs hpath, rfl, Function.update_idem _ _ _⟩

/-- A failed save after setting credentials leaves the file as it was set. -/
theorem run_connectionSetCredentials {uid : Nat} {params : Params} (hl : d.agents = false)
    (hs : s.saving = false) (hvalid : s.config.Valid)
    (hfile : writtenFile d env s.config ⟨.connectionSetCredentials, uid, params⟩ = .ok file)
    (hencode : encode file.2 ≠ none) :
    ∃ e s', runWith (stubborn env) (connectionSetCredentials d uid params) s = (.error e, s') ∧
      s'.config = s.config ∧ s'.credentials = Function.update s.credentials file.1
      (some file.2) := by
  -- With no mounter no file is written.
  unfold writtenFile at hfile
  by_cases hmounter : d.mounter = false
  · rw [if_pos hmounter] at hfile
    exact nomatch hfile
  rw [if_neg hmounter] at hfile
  have hmounter : d.mounter = true := eq_true_of_ne_false hmounter
  rcases except_bind_eq_ok.mp hfile with ⟨ref, href, hfile⟩
  rcases except_bind_eq_ok.mp hfile with ⟨username, husername, hfile⟩
  rcases except_bind_eq_ok.mp hfile with ⟨password, hpassword, hfile⟩
  rcases except_bind_eq_ok.mp hfile with ⟨found, hfound, hfile⟩
  rcases except_bind_eq_ok.mp hfile with ⟨cref, hcref, hfile⟩
  rcases except_bind_eq_ok.mp hfile with ⟨domain, hdomain, hfile⟩
  rcases except_bind_eq_ok.mp hfile with ⟨body, hbody, hfile⟩
  rcases except_bind_eq_ok.mp hfile with ⟨path, hpath, hfile⟩
  cases hfile
  -- The run goes as far as the file, and the save is refused.
  unfold connectionSetCredentials
  rw [runWith_check href, runWith_check husername, runWith_check hpassword, hl,
    if_neg Bool.false_ne_true, if_pos hmounter]
  unfold setCredentialsFile
  rw [runWith_ok (run_load hvalid), runWith_check hfound, runWith_check hcref,
    runWith_check hdomain, runWith_ok (run_writeCredentials hbody hpath hencode)]
  exact ⟨_, _, runWith_error (run_commit hs), rfl, rfl⟩

/-- A save that fails leaves the file gone after an add, and as it was set after
    setting credentials. -/
theorem failing_save_harms {r : Request} (hr : writesCredentials r) (hl : d.agents = false)
    (hs : s.saving = false) (hvalid : s.config.Valid)
    (hfile : writtenFile d env s.config r = .ok file) (hencode : encode file.2 ≠ none) :
    ∃ e s', Exec (within env linuxMachine) (r.program d) s (.error e) s' ∧
      s'.config = s.config ∧
        s'.credentials = Function.update s.credentials file.1 (contentBefore r file.2) := by
  -- The two requests that write a file fail in the same way.
  have hrun : ∃ e s', runWith (stubborn env) (r.program d) s = (.error e, s') ∧
      s'.config = s.config ∧ s'.credentials = Function.update s.credentials file.1
      (contentBefore r file.2) := by
    rcases r with ⟨method, uid, params⟩
    rcases hr with hmethod | hmethod
    · cases hmethod
      rcases run_connectionAdd hl hs hvalid hfile hencode with ⟨e, s', hrun, hfiles⟩
      exact ⟨e, s', runWith_error hrun, hfiles⟩
    · cases hmethod
      rcases run_connectionSetCredentials hl hs hvalid hfile hencode with ⟨e, s', hrun, hfiles⟩
      exact ⟨e, s', runWith_error hrun, hfiles⟩
  rcases hrun with ⟨e, s', hrun, hfiles⟩
  have hexec := exec_runWith (within_stubborn env) (r.program d) s
  rw [hrun] at hexec
  exact ⟨e, s', hexec, hfiles⟩

end Harm

/-- Every way a request can fail leaves the config and the files as they were
    exactly when there is nothing to undo, or undoing is enough. -/
theorem failure_restores_iff (d : Dispatcher) (env : Surroundings) {r : Request} {s : Linux}
    (hr : writesCredentials r) (hl : d.agents = false) (hs : s.saving = false) :
    (∀ e s', Exec (within env linuxMachine) (r.program d) s (.error e) s' → Unharmed s s') ↔
      Restorable d env r s := by
  constructor
  · intro hsafe hvalid file hfile hencode
    rcases failing_save_harms hr hl hs hvalid hfile hencode with ⟨e, s', hexec, -, hfiles⟩
    have hsame : Function.update s.credentials file.1 (contentBefore r file.2) = s.credentials := by
      rw [← hfiles]
      exact (hsafe e s' hexec).2
    -- The file the failed save leaves is the one there was.
    have hat := congrFun hsame file.1
    rw [Function.update_self] at hat
    exact hat.symm
  · intro hrestorable e s' hexec
    exact always_exec (failure_restores hr hl hrestorable) hexec ⟨e, rfl⟩

end Credentials

section Passwords

attribute [local instance] Unicode.ascii

set_option maxRecDepth 10000

/-- Add a share with a password, in the file of a reference. -/
def addWithFileAt (ref : String) : Request :=
  { method := .connectionAdd
    uid := 0
    params := fun key =>
      if key = "host" then .string (str "nas")
      else if key = "share" then .string (str "Music")
      else if key = "mountpoint" then .string (str "/media/music")
      else if key = "credential_ref" then .string (str ref)
      else if key = "username" then .string (str "ann")
      else if key = "password" then .string (str "new")
      else .null }

/-- Nothing is stored but the credentials file of `work`. -/
def workFile : Linux :=
  { config := emptyConfig
    credentials := fun ref =>
      if ref = str "work" then some (str "username=ann
password=old
") else none
    saving := false }

/-- An add that fails takes back the file it wrote, which was not there. -/
theorem failure_restores_iff_newFile :
    (addWithFileAt "home").method = .connectionAdd ∧
      ∀ e s', Exec (within bareSurroundings linuxMachine)
        ((addWithFileAt "home").program linuxDaemon) workFile (.error e) s' →
          Unharmed workFile s' := by
  refine ⟨rfl, (failure_restores_iff linuxDaemon bareSurroundings (Or.inl rfl) rfl rfl).mpr ?_⟩
  intro _ file hfile _
  have hname : file.1 = str "home" := by
    cases hfile
    decide
  rw [hname]
  rfl

/-- An add whose save fails takes away the credentials file that was there. -/
theorem deletes_credentials :
    ∃ e s', Exec (within bareSurroundings linuxMachine)
      ((addWithFileAt "work").program linuxDaemon) workFile (.error e) s' ∧
        workFile.credentials (str "work") ≠ none ∧ s'.credentials (str "work") = none := by
  have hfile : writtenFile linuxDaemon bareSurroundings workFile.config (addWithFileAt "work") =
      .ok (str "work", str "username=ann
password=new
") := rfl
  rcases failing_save_harms (s := workFile) (Or.inl rfl) rfl rfl (by decide +kernel) hfile
    (by decide +kernel) with ⟨e, s', hexec, -, hfiles⟩
  refine ⟨e, s', hexec, by decide, ?_⟩
  rw [hfiles]
  exact Function.update_self _ _ _

end Passwords

end Smbpal
