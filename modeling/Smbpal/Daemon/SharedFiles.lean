import Smbpal.Daemon.Credentials

/-!
# Credentials Files that Connections Share

On Linux a connection names its credentials file by a reference, and nothing
keeps two of them from naming one file. A request about one connection writes,
takes back or deletes the file of that connection, and whether somebody else
names it too is not asked. And the reference that is stored when credentials are
set is stored by id, so that a record with no id gives it to every other one.

On macOS the same question is asked before a Keychain item is deleted. Here
`Spares` says when it would have made no difference: the file a request writes,
or deletes, was not there, or holds what it is made to hold, or nobody else
names it or comes to. `others_kept_iff` is that these are exactly the requests
that leave the files of the other connections alone, however they end.

## Main definitions

* `IsSubject`: The place of the connection a request is about.
* `OthersKept`: What every other connection may expect.
* `IsTwin`: A record that is given the reference of another one.
* `forgottenFile`: The file a removal gets as far as deleting.
* `Spares`: When the others are kept.

## Theorems

* `always_added`, `always_setCredentials`, `always_removed`: What a request may
  leave, however it ends.
* `removal_forgets`: A removal can get as far as deleting the file.
* `setting_retargets`: Setting credentials can get as far as storing the
  reference.
* `others_kept_iff`: The others are kept exactly when they are spared.
* `takes_shared_file`: Removing one of two connections with one file.
-/

namespace Smbpal

open Lib Program

section SharedFiles

variable [Unicode]

/-- The connection at a place is the one a request adds, or the first one that
    the request to set credentials finds. What a removal leaves are all others. -/
def IsSubject (c : Config) (r : Request) (i : Nat) : Prop :=
  match r.method with
  | .connectionAdd => i = c.connections.length
  | .connectionSetCredentials => ∃ ref found, requireStr r.params "ref" = .ok ref ∧
      findConnection c ref = .ok found ∧ i = c.connections.idxOf found
  | _ => False

/-- The connection at a place names a credentials file afterwards, or did
    before. A removal moves places, but changes no reference. -/
def NamesFile (r : Request) (c c' : Config) (i : Nat) (ref : Str) : Prop :=
  (∃ o ∈ c'.connections[i]?, o.credentialRef = some ref) ∨
    r.method ≠ .connectionRemove ∧ ∃ o ∈ c.connections[i]?, o.credentialRef = some ref

/-- What is in the credentials file of a connection. -/
def Linux.fileOf (s : Linux) (o : Connection) : Option Str :=
  o.credentialRef.bind s.credentials

/-- Every other connection that is configured afterwards has a credentials file
    with the content that was in the one it names now, or named before, if there
    was one. -/
def OthersKept (r : Request) (s s' : Linux) : Prop :=
  ∀ i o, s'.config.connections[i]? = some o → ¬ IsSubject s.config r i →
    ∀ ref content, NamesFile r s.config s'.config i ref → s.credentials ref = some content →
      s'.fileOf o = some content

/-- A record with the id of the one whose credentials are set, which is given
    its reference, as every connection has unit names and the new config can be
    applied. -/
def IsTwin (c : Config) (r : Request) (o : Connection) : Prop :=
  r.method = .connectionSetCredentials ∧
    (∃ ref found, requireStr r.params "ref" = .ok ref ∧ findConnection c ref = .ok found ∧
      o.id = found.id) ∧
    c.connections.all (fun c => (namesOf c).isOk) = true

/-- Writing the file of a request bears on what is in the file of this
    reference, for another connection: it names the file itself, or is given its
    reference in place of its own. -/
def BearsOn (c : Config) (r : Request) (o : Connection) (file ref : Str) : Prop :=
  o.credentialRef = some file ∧ ref = file ∨
    IsTwin c r o ∧ (ref = file ∨ o.credentialRef = some ref)

/-- The credentials file a removal gets as far as deleting, by a daemon that has
    any, and the connections it leaves: those must have unit names, or it fails
    to apply. -/
def forgottenFile (d : Dispatcher) (c : Config) (r : Request) :
    Except Exc (Str × List Connection) :=
  match r.method with
  | .connectionRemove => do
      let ref ← requireStr r.params "ref"
      let removed ← removeConnection c ref
      let left := (moveMark removed.1 removed.2).connections
      match truthy removed.2.credentialRef with
      | some file =>
          if d.mounter && left.all fun c => (namesOf c).isOk then .ok (file, left)
          else .error .exception
      | none => .error .exception
  | _ => .error .exception

/-- A request writes over nobody else's file, and deletes nobody else's. -/
structure Spares (d : Dispatcher) (env : Surroundings) (r : Request) (s : Linux) : Prop where
  written : s.config.Valid → ∀ file, writtenFile d env s.config r = .ok file →
    encode file.2 ≠ none → ∀ i o, s.config.connections[i]? = some o → ¬ IsSubject s.config r i →
      ∀ ref, BearsOn s.config r o file.1 ref →
        s.credentials ref = none ∨ s.credentials ref = contentBefore r file.2
  forgotten : s.config.Valid → ∀ gone, forgottenFile d s.config r = .ok gone →
    (∃ o ∈ gone.2, o.credentialRef = some gone.1) → s.credentials gone.1 = none

section Kept

variable {d : Dispatcher} {env : Surroundings} {r : Request} {s s₁ : Linux} {α : Type}

/-- Every other connection was there before, at its place, as it is. -/
def Stays (r : Request) (s s' : Linux) : Prop :=
  ∀ i o, s'.config.connections[i]? = some o → ¬ IsSubject s.config r i →
    s.config.connections[i]? = some o

/-- Every other connection was there before, at its place, and is as it was or
    has been given this reference. -/
def Retargets (r : Request) (file : Str) (s s' : Linux) : Prop :=
  ∀ i o', s'.config.connections[i]? = some o' → ¬ IsSubject s.config r i →
    ∃ o, s.config.connections[i]? = some o ∧
      (o' = o ∨ IsTwin s.config r o ∧ o'.credentialRef = some file)

/-- What a request that writes a file may leave: the files and the other
    connections as they were, or the file written or taken back. Only where it
    is written may others have been given its reference. -/
def Wrote (d : Dispatcher) (env : Surroundings) (r : Request) (s s' : Linux) : Prop :=
  s'.credentials = s.credentials ∧ Stays r s s' ∨
    ∃ file content, writtenFile d env s.config r = .ok file ∧ encode file.2 ≠ none ∧
      s'.credentials = Function.update s.credentials file.1 content ∧
        (content = some file.2 ∧ Retargets r file.1 s s' ∨
          content = contentBefore r file.2 ∧ Stays r s s')

/-- What a removal may leave: every file, or every file but one. -/
def Forgot (d : Dispatcher) (r : Request) (s s' : Linux) : Prop :=
  s'.credentials = s.credentials ∨
    ∃ gone, forgottenFile d s.config r = .ok gone ∧ s'.config.connections = gone.2 ∧
      s'.credentials = Function.update s.credentials gone.1 none

theorem Stays.refl : Stays r s s :=
  fun _ _ ho _ => ho

theorem Wrote.refl : Wrote d env r s s :=
  Or.inl ⟨rfl, Stays.refl⟩

omit [Unicode] in
/-- A connection at its place names what it named. -/
theorem credentialRef_of_names {c c' : Config} {i : Nat} {o : Connection} {ref : Str}
    (ho : c.connections[i]? = some o) (ho' : c'.connections[i]? = some o)
    (h : NamesFile r c c' i ref) : o.credentialRef = some ref := by
  rcases h with ⟨x, hx, href⟩ | ⟨-, x, hx, href⟩
  · rw [ho'] at hx
    exact Option.some.inj hx ▸ href
  · rw [ho] at hx
    exact Option.some.inj hx ▸ href

theorem othersKept_of_stays {s' : Linux} (hsame : s'.credentials = s.credentials)
    (hstays : Stays r s s') : OthersKept r s s' := by
  intro i o ho hother ref content hnames hcontent
  unfold Linux.fileOf
  rw [credentialRef_of_names (hstays i o ho hother) ho hnames, Option.bind_some, hsame]
  exact hcontent

omit [Unicode] in
/-- What was found where a file is written is what is written, if it may stay. -/
theorem content_of_spared {body content : Str} {found : Option Str}
    (h : found = none ∨ found = contentBefore r body) (hfound : found = some content) :
    content = body ∧ contentBefore r body = some body := by
  rw [hfound] at h
  rcases h with h | h
  · cases h
  · unfold contentBefore at h ⊢
    split at h
    · cases h
    · rename_i hadd
      exact ⟨Option.some.inj h, if_neg hadd⟩

theorem othersKept_of_wrote (hvalid : s.config.Valid) (hspares : Spares d env r s) {s' : Linux}
    (h : Wrote d env r s s') : OthersKept r s s' := by
  rcases h with ⟨hsame, hstays⟩ | ⟨file, written, hfile, hencode, hfiles, hwritten⟩
  · exact othersKept_of_stays hsame hstays
  have hretargets : Retargets r file.1 s s' := by
    rcases hwritten with ⟨-, hretargets⟩ | ⟨-, hstays⟩
    · exact hretargets
    · exact fun i o ho hother => ⟨o, hstays i o ho hother, Or.inl rfl⟩
  intro i o' ho' hother ref content hnames hcontent
  rcases hretargets i o' ho' hother with ⟨o, ho, hkept | ⟨htwin, htarget⟩⟩
  · -- It names one file, before and afterwards.
    subst hkept
    have href := credentialRef_of_names ho ho' hnames
    unfold Linux.fileOf
    rw [href, Option.bind_some, hfiles]
    by_cases hsame : ref = file.1
    · subst hsame
      rw [Function.update_self]
      rcases content_of_spared (hspares.written hvalid file hfile hencode i o' ho hother file.1
        (Or.inl ⟨href, rfl⟩)) hcontent with ⟨rfl, hbefore⟩
      rcases hwritten with ⟨rfl, -⟩ | ⟨rfl, -⟩
      · rfl
      · exact hbefore
    · rw [Function.update_of_ne hsame]
      exact hcontent
  · -- It names the file that is written now, and what it named held the same.
    have hbears : BearsOn s.config r o file.1 ref := by
      refine Or.inr ⟨htwin, ?_⟩
      rcases hnames with ⟨x, hx, href⟩ | ⟨-, x, hx, href⟩
      · rw [ho'] at hx
        rw [← Option.some.inj hx, htarget] at href
        exact Or.inl (Option.some.inj href).symm
      · rw [ho] at hx
        exact Or.inr (Option.some.inj hx ▸ href)
    rcases content_of_spared (hspares.written hvalid file hfile hencode i o ho hother ref hbears)
      hcontent with ⟨rfl, hbefore⟩
    unfold Linux.fileOf
    rw [htarget, Option.bind_some, hfiles, Function.update_self]
    rcases hwritten with ⟨rfl, -⟩ | ⟨rfl, -⟩
    · rfl
    · exact hbefore

theorem othersKept_of_forgot (hr : r.method = .connectionRemove) (hvalid : s.config.Valid)
    (hspares : Spares d env r s) {s' : Linux} (h : Forgot d r s s') : OthersKept r s s' := by
  intro i o ho _ ref content hnames hcontent
  have href : o.credentialRef = some ref := by
    rcases hnames with ⟨x, hx, href⟩ | ⟨hnot, -⟩
    · rw [ho] at hx
      exact Option.some.inj hx ▸ href
    · exact absurd hr hnot
  unfold Linux.fileOf
  rw [href, Option.bind_some]
  -- Either no file went, or the removed one's did.
  rcases h with hsame | ⟨gone, hgone, hleft, hfiles⟩
  · rw [hsame]
    exact hcontent
  · rw [hfiles]
    by_cases hsame : ref = gone.1
    · subst hsame
      have hmember : o ∈ gone.2 := hleft ▸ List.mem_of_getElem? ho
      rw [hspares.forgotten hvalid gone hgone ⟨o, hmember, href⟩] at hcontent
      exact nomatch hcontent
    · rw [Function.update_of_ne hsame]
      exact hcontent

/-- The end of an add: the config is the new one or the old one, and the file is
    as it was written or taken back. -/
theorem always_finishAdd {updated : Config} {connection : Connection} {stored : Option Stored}
    {writtenRef : Option Str} (hvalid : s₁.config.Valid) :
    Always linuxMachine (finishAdd d s₁.config updated connection stored writtenRef)
      (fun _ s' => (s'.config = updated ∨ s'.config = s₁.config) ∧
        (s'.credentials = s₁.credentials ∨ s'.credentials =
        takenBack s₁.credentials writtenRef)) s₁ := by
  unfold finishAdd
  rw [always_bind, always_tryCatch]
  refine always_mono (always_linuxCommit hvalid updated) ?_
  rintro result s₂ ⟨hfiles, herror, hok⟩
  cases result with
  | ok u =>
      rw [orElse_ok, andThen_ok, always_bind]
      exact linux_forgetState ⟨Or.inl (hok rfl), Or.inl hfiles⟩
  -- The document is as before, and the file is taken back if one was written.
  | error e =>
      have hconfig := Or.inr (a := s₂.config = updated) (herror ⟨e, rfl⟩)
      rw [orElse_error, always_bind]
      cases writtenRef with
      | none => exact ⟨hconfig, Or.inl hfiles⟩
      | some ref =>
          change Always linuxMachine (forgetCredentials ref) _ s₂
          unfold forgetCredentials
          refine always_check (fun e' => ?_) fun path _ => ?_
          · exact ⟨hconfig, Or.inl hfiles⟩
          · rw [always_catching]
            refine (always_call (.credentialsUnlink ref) _).mpr ?_
            rintro ans s₃ ⟨rfl, rfl⟩
            refine ⟨hconfig, Or.inr ?_⟩
            unfold Linux.withFile takenBack
            rw [hfiles]

/-- A file is written, or nothing happened. -/
theorem always_write_then {ref username password : Str} {domain : Option Str} {β : Type}
    {f : Unit → DaemonM β} {Q : Except Exc β → Linux → Prop} (hraise : ∀ e, Q (.error e) s)
    (hf : ∀ body path, credentialsBody username password domain = .ok body →
      pathFor ref = .ok path → encode body ≠ none →
        Always linuxMachine (f ()) Q (s.withFile ref (some body))) :
    Always linuxMachine (writeCredentials ref username password domain >>= f) Q s := by
  unfold writeCredentials
  rw [always_bind]
  refine always_check hraise fun body hbody => always_check hraise fun path hpath => ?_
  rw [always_catching]
  refine (always_call (.credentialsWrite ref body) _).mpr ?_
  rintro ans s' (⟨rfl, hencode, rfl⟩ | ⟨⟨e, rfl⟩, rfl⟩)
  · exact hf body path hbody hpath hencode
  · rw [orCatch_error]
    split
    · exact hraise _
    · exact hraise _

/-- What an add leaves of the connections that were there: all, at their
    places. -/
theorem stays_added {uid : Nat} {params : Params} {s' : Linux} {named : Connection}
    (h : s'.config.connections = s.config.connections ++ [named]) :
    Stays ⟨.connectionAdd, uid, params⟩ s s' := by
  intro i o ho hother
  rw [h] at ho
  have hlt : i < s.config.connections.length := by
    have hne : i ≠ s.config.connections.length := hother
    have hbound := (List.getElem?_eq_some_iff.mp ho).1
    rw [List.length_append, List.length_singleton] at hbound
    omega
  rw [List.getElem?_append_left hlt] at ho
  exact ho

/-- What an add may leave. -/
theorem always_added {uid : Nat} {params : Params} {args : NewConnection} (hl : d.agents = false)
    (hargs : newConnectionIn d env uid params = .ok args) (hvalid : s.config.Valid) :
    Always linuxMachine (addFrom d uid params s.config args)
      (fun _ s' => Wrote d env ⟨.connectionAdd, uid, params⟩ s s') s := by
  refine always_check (fun e => Wrote.refl) fun added hadded => ?_
  -- The other connections are there in either document.
  have hstays : ∀ {s' : Linux} {named : Connection},
      (s'.config.connections = s.config.connections ++ [named] ∨ s'.config = s.config) →
        Stays ⟨.connectionAdd, uid, params⟩ s s' := by
    rintro s' named (h | h)
    · exact stays_added h
    · intro i o ho _
      rw [h] at ho
      exact ho
  refine always_check (fun e => Wrote.refl) fun username husername => ?_
  refine always_check (fun e => Wrote.refl) fun credential hcredential => ?_
  cases credential with
  -- No credentials were given, so no file is touched.
  | none =>
      refine always_mono (always_finishAdd hvalid) ?_
      rintro result s' ⟨hconfig, hfiles⟩
      refine Or.inl ⟨hfiles.elim id id, @hstays s' added.2 (hconfig.imp_left fun h => ?_)⟩
      rw [h, (addConnection_ok hadded).result]
  | some pair =>
      rcases pair with ⟨username, password⟩
      dsimp only
      rw [hl, if_neg Bool.false_ne_true]
      unfold addWithFile
      split
      · rename_i hmounter
        refine always_check (fun e => Wrote.refl) fun ref href => ?_
        refine always_check (fun e => Wrote.refl) fun domain hdomain => ?_
        refine always_write_then (fun e => Wrote.refl) fun body path hbody hpath hencode => ?_
        -- The file is the one the request was to write.
        have hfile : writtenFile d env s.config ⟨.connectionAdd, uid, params⟩ =
            .ok (ref, body) := by
          unfold writtenFile
          rw [hmounter, if_neg (by decide)]
          refine except_bind_eq_ok.mpr ⟨args, hargs, except_bind_eq_ok.mpr ⟨added, hadded, ?_⟩⟩
          refine except_bind_eq_ok.mpr ⟨_, husername, except_bind_eq_ok.mpr ⟨_, hcredential, ?_⟩⟩
          exact except_bind_eq_ok.mpr ⟨ref, href, except_bind_eq_ok.mpr ⟨domain, hdomain,
            except_bind_eq_ok.mpr ⟨body, hbody, except_bind_eq_ok.mpr ⟨path, hpath, rfl⟩⟩⟩⟩
        have hvalid₁ : (s.withFile ref (some body)).config.Valid := hvalid
        refine always_mono (always_finishAdd hvalid₁) ?_
        rintro result s' ⟨hconfig, hfiles⟩
        have hkept : Stays ⟨.connectionAdd, uid, params⟩ s s' :=
          hstays (hconfig.imp_left fun h => by
            rw [h]
            exact updateWhere_added (addConnection_ok hadded) _)
        -- The file stays written, or is taken back.
        rcases hfiles with hfiles | hfiles
        · refine Or.inr ⟨(ref, body), _, hfile, hencode, hfiles, Or.inl ⟨rfl, ?_⟩⟩
          exact fun i o ho hother => ⟨o, hkept i o ho hother, Or.inl rfl⟩
        · refine Or.inr ⟨(ref, body), none, hfile, hencode, ?_, Or.inr ⟨rfl, hkept⟩⟩
          rw [hfiles]
          exact Function.update_idem _ _ _
      · exact Wrote.refl

/-- A config whose units can be prepared has unit names throughout. -/
theorem footprint_named (todo : List Connection) :
    Footprint (S := daemonSig) (fun _ => True)
      (fun _ => todo.all (fun c => (namesOf c).isOk) = true) (prepareUnits todo) := by
  induction todo with
  | nil => exact (footprint_pure _).mpr rfl
  | cons c todo ih =>
      have hcons : ∀ {names : Str × Str}, namesOf c = .ok names →
          todo.all (fun c => (namesOf c).isOk) = true →
            (c :: todo).all (fun c => (namesOf c).isOk) = true := by
        intro names hnames htodo
        rw [List.all_cons, hnames, htodo]
        rfl
      -- A connection without unit names ends the preparation, blocked or not.
      unfold prepareUnits
      refine footprint_bind (R := fun names => namesOf c = .ok names)
        ((footprint_fromExcept _).mpr fun _ h => h) fun names hnames => ?_
      refine performs_bind (footprint_any _ fun _ => trivial) fun intruder => ?_
      cases intruder with
      | some entry =>
          exact footprint_bind ih fun rest hrest => (footprint_pure _).mpr (hcons hnames hrest)
      | none =>
          refine performs_bind (footprint_any _ fun _ => trivial) fun _ => ?_
          exact footprint_bind ih fun rest hrest => (footprint_pure _).mpr (hcons hnames hrest)

/-- A commit that succeeds has prepared the units. -/
theorem footprint_commit {previous updated : Config} (hm : d.mounter = true) :
    Footprint (S := daemonSig) (fun _ => True)
      (fun _ => updated.connections.all (fun c => (namesOf c).isOk) = true)
      (commit d previous updated) := by
  unfold commit
  refine performs_bind (footprint_any _ fun _ => trivial) fun _ => ?_
  rw [if_neg fun h => Bool.false_ne_true (h.2.symm.trans hm)]
  refine footprint_tryCatch ?_ fun e => ?_
  · unfold applyAll onlyIf
    rw [hm, if_pos rfl]
    refine performs_bind (footprint_any _ fun _ => trivial) fun _ => ?_
    refine footprint_bind (R := fun _ => updated.connections.all
      (fun c => (namesOf c).isOk) = true) ?_
      fun _ h => (footprint_pure _).mpr h
    unfold mounterApply
    exact footprint_bind (footprint_named _) fun _ h => footprint_any _ fun _ => h
  · unfold rollBack
    refine performs_bind (footprint_any _ fun _ => trivial) fun _ => ?_
    exact performs_bind (footprint_any _ fun _ => trivial) fun _ => footprint_throw e

omit [Unicode] in
/-- A reference has no part in the names of units. -/
theorem named_updateWhere (c : Config) (id : Option Str) (ref : Str) :
    (updateWhere c id fun o => { o with credentialRef := some ref }).connections.all
      (fun o => (namesOf o).isOk) = c.connections.all fun o => (namesOf o).isOk := by
  unfold updateWhere
  dsimp only
  rw [List.all_map]
  refine congrArg (c.connections.all ·) (funext fun o => ?_)
  rw [Function.comp_apply]
  split
  · rfl
  · rfl

/-- What setting credentials may leave. -/
theorem always_setCredentials {uid : Nat} {params : Params} (hl : d.agents = false) :
    Always linuxMachine (connectionSetCredentials d uid params)
      (fun _ s' => Unharmed s s' ∨
        s.config.Valid ∧ Wrote d env ⟨.connectionSetCredentials, uid, params⟩ s s') s := by
  -- Until the file is written, nothing is touched.
  have hnone : Unharmed s s ∨ s.config.Valid ∧
      Wrote d env ⟨.connectionSetCredentials, uid, params⟩ s s := Or.inl ⟨rfl, rfl⟩
  refine always_check (fun e => hnone) fun ref href => ?_
  refine always_check (fun e => hnone) fun username husername => ?_
  refine always_check (fun e => hnone) fun password hpassword => ?_
  rw [hl, if_neg Bool.false_ne_true]
  split
  · rename_i hmounter
    unfold setCredentialsFile
    rw [always_bind]
    refine linuxView.always_load (fun e => hnone) fun hvalid => ?_
    refine always_check (fun e => hnone) fun found hfound => ?_
    refine always_check (fun e => hnone) fun cref hcref => ?_
    refine always_check (fun e => hnone) fun domain hdomain => ?_
    refine always_write_then (fun e => hnone) fun body path hbody hpath hencode => ?_
    have hfile : writtenFile d env s.config ⟨.connectionSetCredentials, uid, params⟩ =
        .ok (cref, body) := by
      unfold writtenFile
      rw [hmounter, if_neg (by decide)]
      refine except_bind_eq_ok.mpr ⟨ref, href, except_bind_eq_ok.mpr ⟨username, husername, ?_⟩⟩
      refine except_bind_eq_ok.mpr ⟨password, hpassword, except_bind_eq_ok.mpr ⟨found, hfound, ?_⟩⟩
      exact except_bind_eq_ok.mpr ⟨cref, hcref, except_bind_eq_ok.mpr ⟨domain, hdomain,
        except_bind_eq_ok.mpr ⟨body, hbody, except_bind_eq_ok.mpr ⟨path, hpath, rfl⟩⟩⟩⟩
    rw [always_bind]
    refine always_mono (always_footprint (footprint_mono (footprint_commit hmounter)
      (fun _ h => h) fun _ h => h)
        (always_linuxCommit (s := s.withFile cref (some body)) hvalid _)) ?_
    rintro result s' ⟨⟨hfiles, herror, hok⟩, hnamed⟩
    have hwritten : s'.credentials = Function.update s.credentials cref (some body) := hfiles
    cases result with
    | ok u =>
        rw [andThen_ok, always_bind]
        refine linux_forgetState (Or.inr ⟨hvalid, Or.inr ⟨_, _, hfile, hencode, hwritten,
          Or.inl ⟨rfl, fun i o' ho' _ => ?_⟩⟩⟩)
        -- The mounter ran through, so every connection has names.
        have hall : s.config.connections.all (fun o => (namesOf o).isOk) = true :=
          (named_updateWhere s.config found.id cref).symm.trans (hnamed u rfl)
        rw [hok rfl] at ho'
        change (s.config.connections.map _)[i]? = some o' at ho'
        rw [List.getElem?_map, Option.map_eq_some_iff] at ho'
        rcases ho' with ⟨o, ho, rfl⟩
        refine ⟨o, ho, ?_⟩
        -- Records with the same id are all given the reference.
        by_cases hid : o.id = found.id
        · rw [if_pos hid]
          exact Or.inr ⟨⟨rfl, ⟨ref, found, href, hfound, hid⟩, hall⟩, rfl⟩
        · rw [if_neg hid]
          exact Or.inl rfl
    -- Taken back is the document only; the file stays written.
    | error e =>
        refine Or.inr ⟨hvalid, Or.inr ⟨_, _, hfile, hencode, hwritten,
          Or.inr ⟨rfl, fun i o ho _ => ?_⟩⟩⟩
        have hsame : s'.config = s.config := herror ⟨e, rfl⟩
        rw [hsame] at ho
        exact ho
  · exact hnone

theorem linux_takeItem {uid : Nat} {updated : Config} {c : Connection}
    {Q : Except Exc Unit → Linux → Prop} (hl : d.agents = false) (h : Q (.ok ()) s) :
    Always linuxMachine (takeItem d uid updated c) Q s := by
  unfold takeItem
  rw [hl]
  split
  · exact h
  · exact h

/-- What a removal may leave. -/
theorem always_removed {uid : Nat} {params : Params} (hl : d.agents = false) :
    Always linuxMachine (connectionRemove d uid params)
      (fun _ s' => s'.credentials = s.credentials ∨
        (s.config.Valid ∧ Forgot d ⟨.connectionRemove, uid, params⟩ s s')) s := by
  refine always_check (fun e => Or.inl rfl) fun ref href => ?_
  rw [always_bind]
  refine linuxView.always_load (fun e => Or.inl rfl) fun hvalid => ?_
  refine always_check (fun e => Or.inl rfl) fun removed hremoved => ?_
  rw [always_bind]
  -- What comes after the commit, the file apart, touches no file.
  have hfinish : ∀ {s' : Linux} {α : Type} {p : DaemonM α},
      Performs (S := daemonSig) (fun op => isQuiet op = true) p →
      (s'.credentials = s.credentials ∨
        (s.config.Valid ∧ Forgot d ⟨.connectionRemove, uid, params⟩ s s')) →
      Always linuxMachine p (fun _ s' => s'.credentials = s.credentials ∨
        (s.config.Valid ∧ Forgot d ⟨.connectionRemove, uid, params⟩ s s')) s' := by
    intro s' α p hp h
    exact always_frame hp (fun _ _ _ _ => linuxMachine_quiet) fun _ => h
  have hrest : ∀ {s' : Linux}, (s'.credentials = s.credentials ∨
      (s.config.Valid ∧ Forgot d ⟨.connectionRemove, uid, params⟩ s s')) →
      Always linuxMachine (do
          takeItem d uid removed.1 removed.2
          forgetState d removed.2.id
          finishRemove d uid removed.2)
        (fun _ s' => s'.credentials = s.credentials ∨
          (s.config.Valid ∧ Forgot d ⟨.connectionRemove, uid, params⟩ s s')) s' := by
    intro s' h
    rw [always_bind]
    refine linux_takeItem hl ?_
    rw [andThen_ok, always_bind]
    refine linux_forgetState ?_
    rw [andThen_ok]
    exact hfinish (quiet_finishRemove d uid removed.2) h
  cases hmounter : d.mounter with
  -- Without a mounter there is no file to take away.
  | false =>
      refine always_mono (always_linuxCommit hvalid _) ?_
      rintro result s₁ ⟨hfiles, -, -⟩
      cases result with
      | error e => exact Or.inl hfiles
      | ok u =>
          rw [andThen_ok]
          unfold takeFile
          rw [hmounter]
          exact hrest (Or.inl hfiles)
  | true =>
      refine always_mono (always_footprint (footprint_mono (footprint_commit hmounter)
        (fun _ h => h) fun _ h => h) (always_linuxCommit hvalid _)) ?_
      rintro result s₁ ⟨⟨hfiles, -, hconfig⟩, hnamed⟩
      cases result with
      | error e => exact Or.inl hfiles
      | ok u =>
          rw [andThen_ok]
          unfold takeFile
          rw [hmounter, always_bind]
          unfold onlyIf
          rw [if_pos rfl]
          cases hfile : truthy removed.2.credentialRef with
          | none => exact hrest (Or.inl hfiles)
          -- Whether somebody else names the file is not asked.
          | some file =>
              change Always linuxMachine (forgetCredentials file) _ s₁
              unfold forgetCredentials
              refine always_check (fun e => Or.inl hfiles) fun path _ => ?_
              rw [always_catching]
              refine (always_call (.credentialsUnlink file) _).mpr ?_
              rintro ans s₂ ⟨rfl, rfl⟩
              refine hrest (Or.inr ⟨hvalid, Or.inr
                ⟨(file, (moveMark removed.1 removed.2).connections),
                ?_, ?_, ?_⟩⟩)
              · unfold forgottenFile
                refine except_bind_eq_ok.mpr ⟨ref, href,
                  except_bind_eq_ok.mpr ⟨removed, hremoved, ?_⟩⟩
                dsimp only
                rw [hfile, hmounter, hnamed u rfl]
                rfl
              · exact congrArg Config.connections (hconfig rfl)
              · unfold Linux.withFile
                rw [hfiles]

end Kept

section Lost

variable {d : Dispatcher} {env : Surroundings} {s : Linux}

theorem moveMark_valid {doc : Config} {c : Connection} (h : doc.Valid) :
    (moveMark doc c).Valid := by
  unfold moveMark
  split
  · refine h.mapConnections (fun o => ?_) fun o ho => ?_
    · split
      · rfl
      · rfl
    · have hwf := h.sound.connections o ho
      split
      · exact ⟨hwf.id, hwf.host, hwf.share, hwf.mountpoint, hwf.credentialRef, hwf.owner,
          hwf.fallbackHost, hwf.credentialAccount, hwf.autoConnect⟩
      · exact hwf
  · exact h

/-- Every mountpoint is held by something else, so there is nothing to write. -/
theorem exec_prepareBlocked {todo : List Connection}
    (hnames : todo.all (fun c => (namesOf c).isOk) = true) :
    ∃ wanted, Exec (within env linuxMachine) (prepareUnits todo) s
      (.ok (wanted, todo.map Connection.id)) s := by
  induction todo with
  | nil => exact ⟨[], Exec.ret _ s⟩
  | cons c todo ih =>
      rw [List.all_cons, Bool.and_eq_true] at hnames
      rcases ih hnames.2 with ⟨wanted, hx⟩
      cases hn : namesOf c with
      | error e =>
          rw [hn] at hnames
          exact absurd hnames.1 Bool.false_ne_true
      | ok names =>
          rcases mountpointOf_of_namesOf hn with ⟨mountpoint, -, hm⟩
          -- Something else is mounted there, so every one of them is blocked.
          have hheld : foreignMount (some ⟨[], []⟩) c = some ⟨[], []⟩ := by
            unfold foreignMount
            exact if_pos (by decide)
          have hocc : Exec (within env linuxMachine) (foreignOccupant c) s
              (.ok (some ⟨[], []⟩)) s := by
            refine exec_check hm (exec_bind (a := some ⟨[], []⟩) (exec_call ⟨rfl, trivial⟩) ?_)
            rw [hheld]
            exact Exec.ret _ s
          exact ⟨_, exec_check hn (exec_bind hocc (exec_bind hx (Exec.ret _ s)))⟩

/-- Applying can succeed whenever the connections have unit names. -/
theorem exec_mounterApply {config : Config} {previous : Option Config} (hvalid : config.Valid)
    (hnames : config.connections.all (fun c => (namesOf c).isOk) = true) :
    ∃ v, Exec (within env linuxMachine) (mounterApply config previous) s (.ok v) s := by
  rcases exec_prepareBlocked (s := s) hnames with ⟨wanted, hprepare⟩
  have hreload : ∀ condition : Bool, Exec (within env linuxMachine)
      (onlyIf condition (call (.systemctl .daemonReload))) s (.ok ()) s := by
    intro condition
    cases condition with
    | true => exact exec_call ⟨rfl, trivial⟩
    | false => exact Exec.ret () s
  -- Every connection of the document is blocked, so none is armed.
  have harm : ∀ todo : List Connection, (∀ c ∈ todo, c.id ∈ config.connections.map Connection.id) →
      armUnits (config.connections.map Connection.id) todo = pure () := by
    intro todo htodo
    induction todo with
    | nil => rfl
    | cons c todo ih =>
        unfold armUnits
        rw [if_pos (htodo c List.mem_cons_self)]
        exact ih fun c' hc' => htodo c' (List.mem_cons_of_mem _ hc')
  -- The plan is read off, and nothing in it refuses.
  have hplan : ∀ todo : List Connection, (∀ c ∈ todo, c ∈ config.connections) →
      ∃ v, Exec (within env linuxMachine) (plan todo) s (.ok v) s := by
    intro todo htodo
    induction todo with
    | nil => exact ⟨[], Exec.ret _ s⟩
    | cons c todo ih =>
        have hc := htodo c List.mem_cons_self
        rcases ih fun c' hc' => htodo c' (List.mem_cons_of_mem _ hc') with ⟨rest, hrest⟩
        have hnamed := List.all_eq_true.mp hnames c hc
        cases hn : namesOf c with
        | error e =>
            rw [hn] at hnamed
            exact absurd hnamed Bool.false_ne_true
        | ok names =>
            rcases mountpointOf_of_namesOf hn with ⟨mountpoint, -, hm⟩
            have hpresent : Exec (within env linuxMachine) (hasCredentials c) s (.ok false) s := by
              unfold hasCredentials
              cases href : truthy c.credentialRef with
              | none => exact Exec.ret _ s
              | some ref =>
                  exact exec_check (if_pos (truthy_wellFormed (hvalid.sound.connections c hc) href))
                    (exec_call ⟨rfl, trivial⟩)
            have hocc : Exec (within env linuxMachine) (foreignOccupant c) s (.ok none) s :=
              exec_check hm (exec_bind (a := none) (exec_call ⟨rfl, trivial⟩) (Exec.ret _ s))
            have hone : ∃ v, Exec (within env linuxMachine) (planOne c) s (.ok v) s :=
              ⟨_, exec_check hn (exec_bind hpresent (exec_check hm (exec_bind (a := [])
                (exec_call ⟨rfl, trivial⟩) (exec_bind hocc (Exec.ret _ s)))))⟩
            rcases hone with ⟨v, hone⟩
            exact ⟨_, exec_bind hone (exec_bind hrest (Exec.ret _ s))⟩
  rcases hplan config.connections fun _ hc => hc with ⟨v, hplan⟩
  refine ⟨v, exec_bind hprepare ?_⟩
  refine exec_bind (exec_bind (a := []) (exec_call ⟨rfl, trivial⟩) (Exec.ret _ s)) ?_
  refine exec_bind (hreload _) ?_
  rw [harm config.connections fun c hc => List.mem_map_of_mem hc]
  exact exec_bind (Exec.ret () s) hplan

/-- A commit can succeed whenever the new config is valid and its connections
    have unit names. -/
theorem exec_commit {previous updated : Config} (hmounter : d.mounter = true)
    (hvalid : updated.Valid)
    (hnames : updated.connections.all (fun c => (namesOf c).isOk) = true) :
    ∃ s₁, Exec (within env linuxMachine) (commit d previous updated) s (.ok ()) s₁ ∧
      s₁.config = updated ∧ s₁.credentials = s.credentials := by
  let s₁ : Linux := { s with config := updated, saving := true }
  have hsave : Exec (within env linuxMachine) (save updated) s (.ok ()) s₁ := by
    refine exec_call ⟨⟨?_, rfl, rfl, fun _ _ => rfl⟩, trivial⟩
    have hover := storeSave_saveOver updated s.config
    rw [saveOver_valid hvalid] at hover
    exact hover
  rcases exec_mounterApply (s := s₁) hvalid hnames with ⟨v, hmount⟩
  -- The save comes first, then Samba where it is concerned, then the units.
  refine ⟨s₁, exec_bind hsave ?_, rfl, rfl⟩
  rw [if_neg fun hnone => Bool.false_ne_true (hnone.2.symm.trans hmounter)]
  refine exec_tryCatch_iff.mpr (Or.inl ⟨(), ?_, rfl⟩)
  have hsamba : Exec (within env linuxMachine)
      (onlyIf (d.applies previous updated) (call (.applierApply updated))) s₁ (.ok ()) s₁ := by
    cases d.applies previous updated with
    | true => exact exec_call ⟨rfl, trivial⟩
    | false => exact Exec.ret () s₁
  refine exec_bind hsamba ?_
  rw [hmounter]
  exact exec_bind hmount (Exec.ret () s₁)

theorem exec_load (hvalid : s.config.Valid) :
    Exec (within env linuxMachine) load s (.ok s.config) s :=
  exec_call ⟨⟨Or.inr ⟨hvalid, rfl⟩, rfl⟩, trivial⟩

theorem exec_forgetState (id : Option Str) :
    Exec (within env linuxMachine) (forgetState d id) s (.ok ()) s := by
  unfold forgetState onlyIf
  split
  · exact exec_call ⟨⟨rfl, rfl⟩, trivial⟩
  · exact Exec.ret () _

/-- A removal can get as far as deleting the file, and succeed. -/
theorem removal_forgets {uid : Nat} {params : Params} {gone : Str × List Connection}
    (hl : d.agents = false) (hvalid : s.config.Valid)
    (h : forgottenFile d s.config ⟨.connectionRemove, uid, params⟩ = .ok gone) :
    ∃ s', Exec (within env linuxMachine) ((⟨.connectionRemove, uid, params⟩ : Request).program d) s
      (.ok ()) s' ∧ s'.config.connections = gone.2 ∧
        s'.credentials = Function.update s.credentials gone.1 none := by
  rcases except_bind_eq_ok.mp h with ⟨ref, href, h⟩
  rcases except_bind_eq_ok.mp h with ⟨removed, hremoved, h⟩
  dsimp only at h
  cases hfile : truthy removed.2.credentialRef with
  | none =>
      rw [hfile] at h
      exact nomatch h
  | some file =>
      rw [hfile] at h
      dsimp only at h
      split at h
      · rename_i hboth
        cases h
        -- The run commits, takes the file away and has nothing left to refuse.
        rw [Bool.and_eq_true] at hboth
        rcases removed with ⟨doc, c⟩
        rcases removeConnection_ok hremoved with ⟨before, after, hsplit, hdoc, hdocvalid⟩
        have hstored := moveMark_valid (c := c) hdocvalid
        have hc : c ∈ s.config.connections := hsplit ▸ List.mem_append_right _ List.mem_cons_self
        have hpath : pathFor file = .ok (str "/etc/smbpal/credentials/" ++ file) :=
          if_pos (truthy_wellFormed (hvalid.sound.connections c hc) hfile)
        rcases @exec_commit _ d env s s.config _ hboth.1 hstored hboth.2
          with ⟨s₁, hcommit, hconfig, hfiles⟩
        have htake : Exec (within env linuxMachine) (takeFile d c) s₁ (.ok ())
            (s₁.withFile file none) := by
          unfold takeFile onlyIf
          rw [hboth.1, if_pos rfl, hfile]
          exact exec_check hpath (exec_catching_ok (exec_call ⟨⟨rfl, rfl⟩, trivial⟩))
        have hitem : takeItem d uid doc c = pure () := by
          unfold takeItem
          rw [hl]
          split
          · rfl
          · rfl
        have hfinish : finishRemove d uid c =
            pure { connection := c, unmounted := [], notes := [] } := by
          unfold finishRemove
          rw [hl]
          rfl
        refine ⟨s₁.withFile file none, ?_, congrArg Config.connections hconfig, ?_⟩
        · refine exec_bind (a := { connection := c, unmounted := [], notes := [] }) (exec_check href
            (exec_bind (exec_load hvalid) (exec_check hremoved
              (exec_bind hcommit (exec_bind htake ?_)))))
              (Exec.ret () _)
          rw [hitem, hfinish]
          exact exec_bind (Exec.ret () _) (exec_bind (exec_forgetState c.id) (Exec.ret _ _))
        · unfold Linux.withFile
          rw [hfiles]
      · exact nomatch h

/-- Setting credentials can get as far as storing the reference, and succeed. -/
theorem setting_retargets {uid : Nat} {params : Params} {file : Str × Str} {ref : Str}
    {found : Connection} (hl : d.agents = false) (hvalid : s.config.Valid)
    (hfile : writtenFile d env s.config ⟨.connectionSetCredentials, uid, params⟩ = .ok file)
    (hencode : encode file.2 ≠ none) (href : requireStr params "ref" = .ok ref)
    (hfound : findConnection s.config ref = .ok found)
    (hnames : s.config.connections.all (fun c => (namesOf c).isOk) = true) :
    ∃ s', Exec (within env linuxMachine)
        ((⟨.connectionSetCredentials, uid, params⟩ : Request).program d) s (.ok ()) s' ∧
      s'.config = updateWhere s.config found.id
        (fun o => { o with credentialRef := some file.1 }) ∧
      s'.credentials = Function.update s.credentials file.1 (some file.2) := by
  -- With no mounter no file is written.
  unfold writtenFile at hfile
  by_cases hmounter : d.mounter = false
  · rw [if_pos hmounter] at hfile
    exact nomatch hfile
  rw [if_neg hmounter] at hfile
  have hmounter : d.mounter = true := eq_true_of_ne_false hmounter
  rcases except_bind_eq_ok.mp hfile with ⟨ref', href', hfile⟩
  rcases except_bind_eq_ok.mp hfile with ⟨username, husername, hfile⟩
  rcases except_bind_eq_ok.mp hfile with ⟨password, hpassword, hfile⟩
  rcases except_bind_eq_ok.mp hfile with ⟨found', hfound', hfile⟩
  have hsame : ref' = ref := Except.ok.inj (href'.symm.trans href)
  subst hsame
  have hsame : found' = found := Except.ok.inj (hfound'.symm.trans hfound)
  subst hsame
  rcases except_bind_eq_ok.mp hfile with ⟨cref, hcref, hfile⟩
  rcases except_bind_eq_ok.mp hfile with ⟨domain, hdomain, hfile⟩
  rcases except_bind_eq_ok.mp hfile with ⟨body, hbody, hfile⟩
  rcases except_bind_eq_ok.mp hfile with ⟨path, hpath, hfile⟩
  cases hfile
  let updated := updateWhere s.config found'.id fun o => { o with credentialRef := some cref }
  -- The document with the new reference still has the schema.
  have hstored : updated.Valid := by
    refine hvalid.mapConnections (fun o => ?_) fun o ho => ?_
    · split
      · rfl
      · rfl
    · have hwf := hvalid.sound.connections o ho
      split
      · refine { hwf with credentialRef := ?_ }
        rintro v ⟨⟩
        unfold pathFor at hpath
        split at hpath
        · rename_i hid
          exact hid
        · exact nomatch hpath
      · exact hwf
  -- The file can be written.
  have hwrite : Exec (within env linuxMachine) (writeCredentials cref username password domain) s
      (.ok ()) (s.withFile cref (some body)) := by
    refine exec_check hbody (exec_check hpath (exec_catching_ok (exec_call ⟨?_, trivial⟩)))
    exact Or.inl ⟨rfl, hencode, rfl⟩
  have hnames' := (named_updateWhere s.config found'.id cref).trans hnames
  rcases @exec_commit _ d env (s.withFile cref (some body)) s.config _ hmounter hstored hnames' with
    ⟨s₁, hcommit, hconfig, hfiles⟩
  refine ⟨s₁, ?_, hconfig, hfiles⟩
  have hset : Exec (within env linuxMachine) (connectionSetCredentials d uid params) s
      (.ok { id := found'.id, stored := { username := username, keychain := none } }) s₁ := by
    refine exec_check href (exec_check husername (exec_check hpassword ?_))
    rw [hl, if_neg Bool.false_ne_true, if_pos hmounter]
    refine exec_bind (exec_load hvalid) (exec_check hfound (exec_check hcref
      (exec_check hdomain (exec_bind hwrite (exec_bind hcommit ?_)))))
    exact exec_bind (exec_forgetState found'.id) (Exec.ret _ _)
  exact exec_bind hset (Exec.ret () _)

end Lost

/-- The requests that use credentials files. -/
def usesCredentials (r : Request) : Prop :=
  writesCredentials r ∨ r.method = .connectionRemove

section Exact

variable {d : Dispatcher} {env : Surroundings} {r : Request} {s : Linux}

/-- Where every end of a request leaves the others their files, what it writes
    spares them: the save can fail, and where it does not, all behind it can
    succeed. -/
theorem written_of_kept (hr : usesCredentials r) (hl : d.agents = false) (hs : s.saving = false)
    (hkept : ∀ result s', Exec (within env linuxMachine) (r.program d) s result s' →
      OthersKept r s s')
    (hvalid : s.config.Valid) {file : Str × Str} (hfile : writtenFile d env s.config r = .ok file)
    (hencode : encode file.2 ≠ none) {i : Nat} {o : Connection}
    (ho : s.config.connections[i]? = some o) (hother : ¬ IsSubject s.config r i) {ref : Str}
    (hbears : BearsOn s.config r o file.1 ref) :
    s.credentials ref = none ∨ s.credentials ref = contentBefore r file.2 := by
  cases hbefore : s.credentials ref with
  | none => exact Or.inl rfl
  | some content =>
      refine Or.inr ?_
      rcases hbears with ⟨href, rfl⟩ | ⟨⟨hset, ⟨sought, found, hsought, hfound, hid⟩,
        hnames⟩, hbears⟩
      · -- The save fails.
        have hwrites : writesCredentials r := by
          rcases hr with hr | hr
          · exact hr
          · unfold writtenFile at hfile
            rw [hr] at hfile
            split at hfile
            · exact nomatch hfile
            · exact nomatch hfile
        rcases failing_save_harms hwrites hl hs hvalid hfile hencode with
          ⟨e, s', hexec, hconfig, hfiles⟩
        have ho' : s'.config.connections[i]? = some o := hconfig ▸ ho
        have hafter := hkept _ s' hexec i o ho' hother _ content
          (Or.inl ⟨o, ho', href⟩) hbefore
        unfold Linux.fileOf at hafter
        rw [href, Option.bind_some, hfiles, Function.update_self] at hafter
        exact hafter.symm
      · -- It succeeds, and so does everything behind it.
        rcases r with ⟨method, uid, params⟩
        cases hset
        rcases setting_retargets hl hvalid hfile hencode hsought hfound hnames with
          ⟨s', hexec, hconfig, hfiles⟩
        have ho' : s'.config.connections[i]? = some { o with credentialRef := some file.1 } := by
          rw [hconfig]
          change (s.config.connections.map _)[i]? = _
          rw [List.getElem?_map, ho, Option.map_some, if_pos hid]
        have hnamed : NamesFile ⟨.connectionSetCredentials, uid, params⟩ s.config s'.config i
            ref := by
          rcases hbears with rfl | href
          · exact Or.inl ⟨_, ho', rfl⟩
          · exact Or.inr ⟨(nomatch ·), o, ho, href⟩
        have hafter := hkept _ s' hexec i _ ho' hother _ content hnamed hbefore
        unfold Linux.fileOf at hafter
        rw [Option.bind_some, hfiles, Function.update_self] at hafter
        exact hafter.symm

/-- Where every end of a removal leaves the others their files, the one it can
    get as far as deleting is nobody else's, or was not there. -/
theorem forgotten_of_kept (hl : d.agents = false)
    (hkept : ∀ result s', Exec (within env linuxMachine) (r.program d) s result s' →
      OthersKept r s s')
    (hvalid : s.config.Valid) {gone : Str × List Connection}
    (hgone : forgottenFile d s.config r = .ok gone)
    (hnamed : ∃ o ∈ gone.2, o.credentialRef = some gone.1) : s.credentials gone.1 = none := by
  rcases hnamed with ⟨o, ho, href⟩
  rcases r with ⟨method, uid, params⟩
  cases method
  case connectionRemove =>
    rcases removal_forgets hl hvalid hgone with ⟨s', hexec, hleft, hfiles⟩
    -- The file was there and is named by one that is left, whose file it was.
    cases hbefore : s.credentials gone.1 with
    | none => rfl
    | some content =>
        rcases List.mem_iff_getElem?.mp (hleft ▸ ho) with ⟨i, hi⟩
        have hafter := hkept _ s' hexec i o hi (fun h => h) _ content
          (Or.inl ⟨o, hi, href⟩) hbefore
        unfold Linux.fileOf at hafter
        rw [href, Option.bind_some, hfiles, Function.update_self] at hafter
        exact nomatch hafter
  all_goals exact nomatch hgone

/-- What adding a connection may leave: all as it was, or the file written. -/
theorem always_adds {uid : Nat} {params : Params} (hl : d.agents = false) :
    Always (within env linuxMachine) (connectionAdd d uid params)
      (fun _ s' => Unharmed s s' ∨
        s.config.Valid ∧ Wrote d env ⟨.connectionAdd, uid, params⟩ s s') s := by
  unfold connectionAdd
  rw [always_bind]
  refine (linuxView.within env).always_load (fun e => Or.inl ⟨rfl, rfl⟩) fun hvalid => ?_
  rw [andThen_ok, always_bind]
  refine linuxView.always_newConnection (fun e s₁ hconfig hfiles => Or.inl ⟨hconfig, hfiles⟩) ?_
  intro args s₁ hargs hconfig hfiles
  -- the document and the files are as they were, so what is written is what was to be
  have hload : addFrom d uid params s.config args = addFrom d uid params s₁.config args := by
    rw [hconfig]
  rw [andThen_ok, hload]
  refine always_mono (always_within env (always_added hl hargs (hconfig ▸ hvalid))) ?_
  intro r s' h
  refine Or.inr ⟨hvalid, ?_⟩
  unfold Wrote Stays Retargets at h ⊢
  rw [hconfig, hfiles] at h
  exact h

theorem othersKept_of_unharmed {s' : Linux} (h : Unharmed s s') : OthersKept r s s' := by
  rcases h with ⟨hconfig, hfiles⟩
  refine othersKept_of_stays hfiles fun i o ho _ => ?_
  rw [hconfig] at ho
  exact ho

/-- A removal that deletes no file leaves the others theirs. -/
theorem othersKept_of_sameFiles {s' : Linux} (hr : r.method = .connectionRemove)
    (hfiles : s'.credentials = s.credentials) : OthersKept r s s' := by
  intro i o ho _ ref content hnames hcontent
  rcases hnames with ⟨x, hx, href⟩ | ⟨hnot, -⟩
  · rw [ho] at hx
    unfold Linux.fileOf
    rw [Option.some.inj hx, href, Option.bind_some, hfiles]
    exact hcontent
  · exact absurd hr hnot

/-- However a request ends, every other connection keeps its credentials file,
    exactly when it spares them. -/
theorem others_kept_iff (d : Dispatcher) (env : Surroundings) {r : Request} {s : Linux}
    (hr : usesCredentials r) (hl : d.agents = false) (hs : s.saving = false) :
    (∀ result s', Exec (within env linuxMachine) (r.program d) s result s' →
      OthersKept r s s') ↔ Spares d env r s := by
  constructor
  · intro hkept
    exact ⟨fun hvalid file hfile hencode i o ho hother ref hbears =>
        written_of_kept hr hl hs hkept hvalid hfile hencode ho hother hbears,
      fun hvalid gone hgone hnamed => forgotten_of_kept hl hkept hvalid hgone hnamed⟩
  · intro hspares result s' hexec
    -- Each kind of request, by what it may leave.
    rcases r with ⟨method, uid, params⟩
    rcases hr with (hr | hr) | hr
    · cases hr
      rcases always_exec (always_acknowledge (always_adds hl)) hexec with h | ⟨hvalid, h⟩
      · exact othersKept_of_unharmed h
      · exact othersKept_of_wrote hvalid hspares h
    · cases hr
      rcases always_exec (always_acknowledge (always_within env (always_setCredentials hl))) hexec
        with h | ⟨hvalid, h⟩
      · exact othersKept_of_unharmed h
      · exact othersKept_of_wrote hvalid hspares h
    · cases hr
      rcases always_exec (always_acknowledge (always_within env (always_removed hl))) hexec
        with h | ⟨hvalid, h⟩
      · exact othersKept_of_sameFiles rfl h
      · exact othersKept_of_forgot rfl hvalid hspares h

end Exact

end SharedFiles

section OneFile

attribute [local instance] Unicode.ascii

set_option maxRecDepth 10000

/-- A share of the host, with the credentials file of a reference. -/
def shareWithFile (id share ref : String) : Connection :=
  { id := some (str id)
    host := some (str "nas")
    share := some (str share)
    mountpoint := some (str "/mnt/" ++ str id)
    credentialRef := some (str ref)
    autoConnect := none
    owner := none
    fallbackHost := none
    credentialAccount := none
    keychainCredential := none
    disconnected := none }

/-- Two shares of one host, and the credentials file of `nas`. -/
def twoShares (ref : String) : Linux :=
  { config := { emptyConfig with
      connections := [shareWithFile "music" "Music" "nas", shareWithFile "video" "Video" ref] }
    credentials := fun ref =>
      if ref = str "nas" then some (str "username=ann\npassword=old\n") else none
    saving := false }

/-- Remove the first of them. -/
def removeMusic : Request :=
  { method := .connectionRemove
    uid := 0
    params := fun key => if key = "ref" then .string (str "music") else .null }

/-- The other connection has a file of its own. -/
theorem others_kept_iff_ownFile :
    removeMusic.method = .connectionRemove ∧
      ∀ result s', Exec (within bareSurroundings linuxMachine) (removeMusic.program linuxDaemon)
        (twoShares "video") result s' →
          OthersKept removeMusic (twoShares "video") s' := by
  refine ⟨rfl, (others_kept_iff linuxDaemon bareSurroundings (Or.inr rfl) rfl rfl).mpr
    ⟨fun _ file hfile _ _ => (nomatch hfile), fun _ gone hgone ⟨o, ho, href⟩ => ?_⟩⟩
  have hgone : gone = (str "nas", [shareWithFile "video" "Video" "video"]) := by
    have heq : forgottenFile linuxDaemon (twoShares "video").config removeMusic =
        .ok (str "nas", [shareWithFile "video" "Video" "video"]) := by
      decide +kernel
    rw [heq] at hgone
    exact (Except.ok.inj hgone).symm
  subst hgone
  rw [List.mem_singleton.mp ho] at href
  exact absurd href (by decide)

/-- The other connection names the same file, and loses it. -/
theorem takes_shared_file :
    ∃ s', Exec (within bareSurroundings linuxMachine) (removeMusic.program linuxDaemon)
      (twoShares "nas") (.ok ()) s' ∧
        (twoShares "nas").config.Valid ∧
          ¬ OthersKept removeMusic (twoShares "nas") s' := by
  have hvalid : (twoShares "nas").config.Valid := by decide +kernel
  have hgone : forgottenFile linuxDaemon (twoShares "nas").config removeMusic =
      .ok (str "nas", [shareWithFile "video" "Video" "nas"]) := by
    decide +kernel
  rcases removal_forgets (s := twoShares "nas") rfl hvalid hgone with
    ⟨s', hexec, hleft, hfiles⟩
  refine ⟨s', hexec, hvalid, fun hkept => ?_⟩
  -- The connection that is left names the file the removal took.
  have ho : s'.config.connections[0]? = some (shareWithFile "video" "Video" "nas") := by
    rw [hleft]
    rfl
  have hbefore : (twoShares "nas").credentials (str "nas") =
      some (str "username=ann\npassword=old\n") := by
    decide
  have hlost := hkept 0 _ ho (fun h => h) (str "nas") _ (Or.inl ⟨_, ho, rfl⟩) hbefore
  change s'.credentials (str "nas") = _ at hlost
  rw [hfiles, Function.update_self] at hlost
  exact nomatch hlost

/-- The same shares without ids, each with a file of its own. -/
def namelessShares : Linux :=
  { config := { emptyConfig with
      connections := [{ shareWithFile "music" "Music" "nas" with id := none },
        { shareWithFile "video" "Video" "video" with id := none }] }
    credentials := fun ref => if ref = str "video" then some (str "username=ann\n") else none
    saving := false }

/-- Set the credentials of the first of them. -/
def setMusic : Request :=
  { method := .connectionSetCredentials
    uid := 0
    params := fun key =>
      if key = "ref" then .string (str "/mnt/music")
      else if key = "username" then .string (str "ann")
      else if key = "password" then .string (str "new")
      else .null }

/-- The other one is given its reference, in place of its own. -/
example : ∃ s', Exec (within bareSurroundings linuxMachine) (setMusic.program linuxDaemon)
    namelessShares (.ok ()) s' ∧ namelessShares.config.Valid ∧
      ¬ OthersKept setMusic namelessShares s' := by
  have hvalid : namelessShares.config.Valid := by decide +kernel
  have hfile : writtenFile linuxDaemon bareSurroundings namelessShares.config setMusic =
      .ok (str "nas", str "username=ann\npassword=new\n") := by
    decide +kernel
  have hmusic : findConnection namelessShares.config (str "/mnt/music") =
      .ok { shareWithFile "music" "Music" "nas" with id := none } := by
    decide
  rcases @setting_retargets _ linuxDaemon bareSurroundings namelessShares _ _ _
      (str "/mnt/music") _ rfl hvalid hfile (by decide +kernel) (by decide) hmusic
      (by decide +kernel) with
    ⟨s', hexec, hconfig, hfiles⟩
  refine ⟨s', hexec, hvalid, fun hkept => ?_⟩
  have ho : s'.config.connections[1]? =
      some { shareWithFile "video" "Video" "nas" with id := none } := by
    rw [hconfig]
    rfl
  have hother : ¬ IsSubject namelessShares.config setMusic 1 := by
    rintro ⟨ref, found, href, hfound, hplace⟩
    have hfirst : requireStr setMusic.params "ref" = .ok (str "/mnt/music") := by decide
    rw [Except.ok.inj (href.symm.trans hfirst)] at hfound
    rw [Except.ok.inj (hfound.symm.trans hmusic)] at hplace
    exact absurd hplace (by decide)
  have hlost := hkept 1 _ ho hother (str "video") (str "username=ann\n")
    (Or.inr ⟨(nomatch ·), _, rfl, rfl⟩) (by decide)
  change s'.credentials (str "nas") = _ at hlost
  rw [hfiles, Function.update_self] at hlost
  exact absurd hlost (by decide)

end OneFile

end Smbpal
