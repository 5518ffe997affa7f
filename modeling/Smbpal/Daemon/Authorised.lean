import Smbpal.Daemon.Dispatch

/-!
# Nothing Changes Without Authorisation

Whatever a frame holds and whoever sends it, what answering it changes comes
after a permission: the peer is root, or the checker was asked about the action
or the right of the request's method and allowed it, or the right is one that is
not asked for. And it comes after every other check, so that a request that is
refused on the way changes nothing.

The argument has two parts. No handler of a method that needs no permission
changes anything, which is a statement about one table against another
(`readOnly_quiet`). And every other handler runs after `check` returned, which
it does only with a permission that is written down (`check_authorised`).

## Main definitions

* `Accepted`: Every check before the permission passed.
* `Authorised`: The permission.

## Theorems

* `readOnly_quiet`: The methods that need no permission change nothing.
* `check_authorised`: `check` returns only with a permission.
* `effects_authorised`: Every effect of a frame comes after both.
-/

namespace Smbpal

open Lib Program

/-- A log of what a request asked for and was answered. -/
abbrev HandleLog := List (Logged handleSig)

/-- An operation was answered with this. -/
def Answered (log : HandleLog) (op : HandleOp) (value : op.Value) : Prop :=
  (⟨op, .ok value⟩ : Logged handleSig) ∈ log

/-- There is a permission for the request: root needs none, and anyone else that
    of the policy. -/
def Authorised (policy : Policy) (peer : Peer) (request : WireRequest) (log : HandleLog) : Prop :=
  peer.uid = 0 ∨
    match policy with
    | .group => True
    | .root => False
    | .polkit => ∃ action, actions.lookup request.method = some action ∧
        Answered log (.polkitCheck peer action) true
    | .helper => ∃ action right, actions.lookup request.method = some action ∧
        macosRights.lookup action = some right ∧
        (right ∈ unprompted ∨
          ∃ auth, request.auth = some auth ∧ Answered log (.checkGrant right auth) true)

section Accepted

variable [Unicode]

/-- The account a share is to be served as is there, if one is given. -/
def AccountKnown (request : WireRequest) (log : HandleLog) : Prop :=
  ∃ user, optionalStr (paramsOf request) "credential_ref" = .ok user ∧
    ∀ name, truthy user = some name →
      ∃ ids, Answered log (.daemon (.getpwnam name)) (some ids)

/-- The request is for a method there is, that the platform supports, and that
    its own check lets through. -/
structure Accepted (d : FullDispatcher) (request : WireRequest) (log : HandleLog) : Prop where
  notLink : request.method ∉ linkMethods
  known : ∃ handler, (request.method, handler) ∈ methods
  supported : checkSupported d request.method = .ok ()
  prechecked : request.method = str "share.add" → AccountKnown request log

end Accepted

/-- The program changes nothing. -/
abbrev Quiet {α : Type} (p : HandleM α) : Prop :=
  Performs (S := handleSig) (fun op => ¬op.Mutates) p

section Quiet

variable {α : Type}

theorem quiet_invoke {op : HandleOp} (h : ¬op.Mutates) : Quiet (invoke op) :=
  footprint_ask h fun _ _ _ => trivial

theorem quiet_fromExcept (r : Except Exc α) : Quiet (fromExcept r) :=
  (footprint_fromExcept r).mpr fun _ _ => trivial

theorem quiet_lift {p : DaemonM α}
    (h : Performs (S := daemonSig) (fun op => op.looks = true) p) : Quiet (lift p) := by
  refine footprint_translate (footprint_mono h (fun op hop hmutates => ?_) fun _ _ => trivial)
  exact Bool.false_ne_true (hmutates.symm.trans hop)

theorem quiet_catchSmbpal {p handler : HandleM α} (hp : Quiet p) (hh : Quiet handler) :
    Quiet (catchSmbpal p handler) := by
  refine footprint_tryCatch hp fun e => ?_
  by_cases he : e.isSmbpal = true
  · rw [if_pos he]
    exact hh
  · rw [if_neg he]
    exact footprint_throw e

theorem quiet_doIf {condition : Bool} {p : HandleM Unit} (hp : Quiet p) :
    Quiet (doIf condition p) := by
  cases condition with
  | true => exact hp
  | false => trivial

theorem quiet_forEach {β : Type} {f : β → HandleM Unit} (hf : ∀ b, Quiet (f b)) (bs : List β) :
    Quiet (forEach f bs) := by
  induction bs with
  | nil => trivial
  | cons b bs ih => exact performs_bind (hf b) fun _ => ih

theorem quiet_refuseUnless (allowed : Bool) (refused : Exc) :
    Quiet (refuseUnless allowed refused) := by
  cases allowed with
  | true => trivial
  | false => exact footprint_throw refused

end Quiet

theorem looks_call {op : DaemonOp} (h : op.looks = true) :
    Performs (S := daemonSig) (ε := Exc) (fun op => op.looks = true) (call op) :=
  footprint_call h fun _ => trivial

section Readers

variable [Unicode]

theorem looks_plan (todo : List Connection) :
    Performs (S := daemonSig) (fun op => op.looks = true) (plan todo) := by
  have hpresent : ∀ c,
      Performs (S := daemonSig) (fun op => op.looks = true) (hasCredentials c) := by
    intro c
    unfold hasCredentials
    split
    · trivial
    · exact performs_bind ((footprint_fromExcept _).mpr fun _ _ => trivial) fun _ => looks_call rfl
  have hone : ∀ c, Performs (S := daemonSig) (fun op => op.looks = true) (planOne c) := by
    intro c
    refine performs_bind ((footprint_fromExcept _).mpr fun _ _ => trivial) fun names => ?_
    refine performs_bind (hpresent c) fun present => ?_
    refine performs_bind ((footprint_fromExcept _).mpr fun _ _ => trivial) fun mountpoint => ?_
    refine performs_bind (looks_call rfl) fun state => ?_
    refine performs_bind ?_ fun intruder => trivial
    refine performs_bind ((footprint_fromExcept _).mpr fun _ _ => trivial) fun mountpoint => ?_
    exact performs_bind (looks_call rfl) fun _ => trivial
  induction todo with
  | nil => trivial
  | cons c todo ih => exact performs_bind (hone c) fun _ => performs_bind ih fun _ => trivial

omit [Unicode] in
theorem quiet_loadConfig : Quiet loadConfig :=
  quiet_lift (looks_call rfl)

omit [Unicode] in
theorem quiet_ownerUid (c : Connection) : Quiet (ownerUid c) := by
  unfold ownerUid
  split
  · trivial
  · exact performs_bind (quiet_invoke fun h => nomatch h) fun _ => trivial

omit [Unicode] in
theorem quiet_agentRows (d : FullDispatcher) (config : Config) : Quiet (agentRows d config) := by
  refine quiet_forEach (fun c => ?_) _
  refine performs_bind (quiet_ownerUid c) fun uid => ?_
  split
  · trivial
  · dsimp only
    split
    · exact performs_bind (quiet_invoke id) fun _ =>
        quiet_doIf (performs_bind (quiet_invoke id) fun _ => trivial)
    · exact performs_bind (footprint_pure false |>.mpr trivial) fun _ =>
        quiet_doIf (performs_bind (quiet_invoke id) fun _ => trivial)

omit [Unicode] in
theorem quiet_unaccounted (d : FullDispatcher) (config : Config) : Quiet (unaccounted d config) :=
  quiet_doIf (quiet_invoke id)

theorem quiet_connectionStates (d : FullDispatcher) (config : Config) :
    Quiet (connectionStates d config) := by
  unfold connectionStates
  split
  · exact performs_bind (quiet_lift (looks_plan _)) fun planned =>
      quiet_doIf (quiet_forEach (fun _ => quiet_invoke id) planned)
  · exact quiet_doIf (quiet_agentRows d config)

omit [Unicode] in
theorem quiet_shareStates (d : FullDispatcher) (config : Config) :
    Quiet (shareStates d config) := by
  unfold shareStates
  split
  · trivial
  · refine performs_bind (quiet_catchSmbpal (performs_bind (quiet_invoke id) fun _ => trivial)
      trivial) fun effective => ?_
    refine performs_bind (quiet_doIf (quiet_catchSmbpal (quiet_invoke id) trivial)) fun _ => ?_
    refine performs_bind (quiet_invoke id) fun planned => ?_
    refine performs_bind (quiet_doIf (quiet_forEach (fun _ => quiet_invoke id) _)) fun _ => ?_
    exact quiet_doIf (performs_bind (quiet_lift (looks_call rfl)) fun _ => trivial)

theorem quiet_status (d : FullDispatcher) : Quiet (status d) := by
  refine performs_bind quiet_loadConfig fun config => ?_
  refine performs_bind (quiet_invoke id) fun _ => ?_
  refine performs_bind (quiet_shareStates d config) fun _ => ?_
  have hsamba : Quiet (sambaState d) := by
    unfold sambaState
    split
    · trivial
    · exact quiet_catchSmbpal (quiet_invoke id) trivial
  refine performs_bind hsamba fun _ => ?_
  refine performs_bind (quiet_forEach (fun _ => quiet_invoke id) _) fun _ => ?_
  refine performs_bind (quiet_connectionStates d config) fun _ => ?_
  exact quiet_unaccounted d config

omit [Unicode] in
theorem quiet_readConfig : Quiet readConfig :=
  performs_bind quiet_loadConfig fun _ => trivial

omit [Unicode] in
theorem quiet_connectionWatch (d : FullDispatcher) : Quiet (connectionWatch d) := by
  unfold connectionWatch
  split
  · exact quiet_invoke id
  · split
    · exact performs_bind quiet_loadConfig fun config => quiet_agentRows d config
    · exact footprint_throw _

omit [Unicode] in
theorem quiet_browse (request : WireRequest) : Quiet (browse request) :=
  performs_bind (quiet_fromExcept _) fun _ => quiet_invoke id

omit [Unicode] in
theorem quiet_serverShares (request : WireRequest) : Quiet (serverShares request) :=
  performs_bind (quiet_fromExcept _) fun _ => performs_bind (quiet_fromExcept _) fun _ =>
    performs_bind (quiet_fromExcept _) fun _ => performs_bind (quiet_fromExcept _) fun _ =>
      performs_bind (quiet_fromExcept _) fun _ => quiet_invoke id

/-- A handler that changes nothing, if its method needs no permission. -/
def QuietIfReadOnly (entry : Str × Handler) : Prop :=
  entry.1 ∈ readOnlyMethods → ∀ d peer request, Quiet (entry.2 d peer request)

/-- The methods that need no permission change nothing. -/
theorem readOnly_quiet : ∀ entry ∈ methods, QuietIfReadOnly entry := by
  have hreader : ∀ (name : Str) (handler : Handler),
      (∀ d peer request, Quiet (handler d peer request)) → QuietIfReadOnly (name, handler) :=
    fun _ _ h _ => h
  -- A method that is not read-only has nothing to show.
  have hother : ∀ (name : Str) (handler : Handler), name ∉ readOnlyMethods →
      QuietIfReadOnly (name, handler) := fun _ _ h hname => absurd hname h
  unfold methods
  simp only [List.forall_mem_cons]
  refine ⟨hreader _ _ fun _ _ _ => trivial, hreader _ _ fun _ _ _ => trivial,
    hreader _ _ fun d _ _ => quiet_status d, hreader _ _ fun _ _ _ => quiet_readConfig,
    hreader _ _ fun _ _ _ => quiet_readConfig, hother _ _ (by decide +kernel),
    hother _ _ (by decide +kernel), hother _ _ (by decide +kernel), hother _ _ (by decide +kernel),
    hother _ _ (by decide +kernel), hreader _ _ fun _ _ _ => quiet_invoke id,
    hother _ _ (by decide +kernel), hother _ _ (by decide +kernel),
    hreader _ _ fun _ _ _ => quiet_readConfig, hother _ _ (by decide +kernel),
    hother _ _ (by decide +kernel), hother _ _ (by decide +kernel), hother _ _ (by decide +kernel),
    hother _ _ (by decide +kernel), hother _ _ (by decide +kernel),
    hreader _ _ fun d _ _ => performs_bind quiet_loadConfig
    fun config => quiet_unaccounted d config,
    hreader _ _ fun d _ _ => quiet_connectionWatch d, hreader _ _ fun _ _ r => quiet_browse r,
    hreader _ _ fun _ _ r => quiet_serverShares r, fun _ h => nomatch h⟩

omit [Unicode] in
/-- An agent's own link changes nothing. -/
theorem quiet_agentLink (d : FullDispatcher) (peer : Peer) (request : WireRequest) :
    Quiet (agentLink d peer request) := by
  have howned : ∀ cs, Quiet (ownedBy peer.uid cs) := by
    intro cs
    induction cs with
    | nil => trivial
    | cons c cs ih =>
        exact performs_bind (quiet_ownerUid c) fun _ => performs_bind ih fun _ => trivial
  unfold agentLink
  split
  · exact footprint_throw _
  · -- A report is checked and kept; no config is written.
    split
    · exact quiet_invoke id
    · split
      · refine performs_bind (quiet_invoke id) fun registered => ?_
        refine performs_bind (quiet_refuseUnless _ _) fun _ => ?_
        refine performs_bind (quiet_fromExcept _) fun rows => ?_
        refine performs_bind quiet_loadConfig fun config => ?_
        refine performs_bind (howned _) fun owned => ?_
        refine performs_bind (quiet_invoke id) fun changed => ?_
        exact quiet_forEach (fun _ => quiet_invoke id) _
      · exact quiet_invoke id

end Readers

/-! ### What is written down before a handler runs -/

section Check

variable {log : HandleLog} {peer : Peer} {request : WireRequest}

theorem always_invoke {op : HandleOp} {Q : Except Exc op.Value → HandleLog → Prop}
    (h : ∀ ans, Q ans (log ++ [⟨op, ans⟩])) : Always logMachine (invoke op) Q log := by
  refine (always_ask (S := handleSig) op fun ans => ans).mpr ?_
  rintro ans s' rfl
  exact h ans

/-- A refusal that depends on an answer lets only that answer through. -/
theorem always_refuseUnless {allowed : Bool} {refused : Exc}
    {Q : Except Exc Unit → HandleLog → Prop} (hraise : Q (.error refused) log)
    (hok : allowed = true → Q (.ok ()) log) :
    Always logMachine (refuseUnless allowed refused) Q log := by
  cases allowed with
  | true => exact hok rfl
  | false => exact hraise

theorem answered_last (log : HandleLog) (op : HandleOp) (value : op.Value) :
    Answered (log ++ [⟨op, .ok value⟩]) op value :=
  List.mem_append_right log (List.mem_singleton_self _)

/-- The policy `helper` lets through what needs no prompt, or what the helper
    allowed. -/
theorem checkRight_authorised {action : Str}
    (haction : actions.lookup request.method = some action) :
    Always logMachine (checkRight peer request.method action request.auth)
      (fun r log' => r = .ok () → Authorised .helper peer request log') log := by
  unfold checkRight
  cases hright : macosRights.lookup action with
  | none => exact fun h => nomatch h
  | some right =>
      dsimp only
      -- Some rights are given without a prompt, and the helper is not asked.
      by_cases hunprompted : right ∈ unprompted
      · rw [if_pos hunprompted]
        exact fun _ => Or.inr ⟨action, right, haction, hright, Or.inl hunprompted⟩
      · rw [if_neg hunprompted]
        cases hauth : request.auth with
        | none => exact fun h => nomatch h
        | some auth =>
            dsimp only
            rw [always_bind]
            refine always_invoke fun ans => ?_
            cases ans with
            | error e => exact fun h => nomatch h
            | ok allowed =>
                refine always_refuseUnless (fun h => nomatch h) fun hallowed _ => ?_
                refine Or.inr ⟨action, right, haction, hright, Or.inr ⟨auth, hauth, ?_⟩⟩
                -- What was refused otherwise is what the helper just answered.
                rw [hallowed]
                exact answered_last log _ _

/-- `check` returns only for a method that needs no permission, or with one. -/
theorem check_authorised (policy : Policy) :
    Always logMachine (check policy peer request.method request.auth)
      (fun r log' => r = .ok () →
        request.method ∈ readOnlyMethods ∨ Authorised policy peer request log') log := by
  unfold check
  -- In the order of the source: what only reads, then root, then the policy.
  by_cases hreadOnly : request.method ∈ readOnlyMethods
  · rw [if_pos hreadOnly]
    exact fun _ => Or.inl hreadOnly
  · rw [if_neg hreadOnly]
    by_cases hroot : peer.uid = 0
    · rw [if_pos hroot]
      exact fun _ => Or.inr (Or.inl hroot)
    · rw [if_neg hroot]
      -- The group was checked when the socket was opened.
      cases policy with
      | group => exact fun _ => Or.inr (Or.inr trivial)
      | root => exact fun h => nomatch h
      | helper =>
          rw [if_neg (by decide), if_neg (by decide)]
          cases haction : actions.lookup request.method with
          | none => exact fun h => nomatch h
          | some action =>
              dsimp only
              rw [if_pos rfl]
              exact always_mono (checkRight_authorised haction) fun r log' h hr => Or.inr (h hr)
      | polkit =>
          rw [if_neg (by decide), if_neg (by decide)]
          cases haction : actions.lookup request.method with
          | none => exact fun h => nomatch h
          | some action =>
              dsimp only
              rw [if_neg (by decide), always_bind]
              refine always_invoke fun ans => ?_
              cases ans with
              | error e => exact fun h => nomatch h
              | ok allowed =>
                  refine always_refuseUnless (fun h => nomatch h) fun hallowed _ => ?_
                  refine Or.inr (Or.inr ⟨action, haction, ?_⟩)
                  rw [hallowed]
                  exact answered_last log _ _

theorem quiet_check (policy : Policy) (method : Str) (auth : Option (List UInt8)) :
    Quiet (check policy peer method auth) := by
  -- Whatever is asked of the helper changes nothing.
  have hright : ∀ action, Quiet (checkRight peer method action auth) := by
    intro action
    unfold checkRight
    split
    · exact footprint_throw _
    · split
      · trivial
      · split
        · exact footprint_throw _
        · exact performs_bind (quiet_invoke id) fun _ => quiet_refuseUnless _ _
  unfold check
  -- Each branch of the check lets through, refuses, or asks.
  split
  · trivial
  · split
    · trivial
    · split
      · trivial
      · split
        · exact footprint_throw _
        · split
          · exact footprint_throw _
          · split
            · exact hright _
            · exact performs_bind (quiet_invoke id) fun _ => quiet_refuseUnless _ _

variable [Unicode]

theorem quiet_precheck (request : WireRequest) : Quiet (precheck request) := by
  have hrequire : Quiet (requireAccount request) := by
    refine performs_bind (quiet_fromExcept _) fun user => ?_
    split
    · trivial
    · exact performs_bind (quiet_invoke fun h => nomatch h) fun _ => quiet_refuseUnless _ _
  unfold precheck
  split
  · rename_i hcheck
    rcases List.lookup_eq_some_iff.mp hcheck with ⟨before, after, hentries, -⟩
    have hmem : (request.method, _) ∈ prechecks :=
      hentries ▸ List.mem_append_right before List.mem_cons_self
    rw [← (Prod.mk.inj (List.mem_singleton.mp hmem)).2] at hrequire
    exact hrequire
  · trivial

/-- The check of `share.add` lets through only an account there is. -/
theorem precheck_known :
    Always logMachine (precheck request) (fun r log' => r = .ok () →
      request.method = str "share.add" → AccountKnown request log') log := by
  by_cases hmethod : request.method = str "share.add"
  · have hcheck : precheck request = requireAccount request := by
      unfold precheck
      rw [hmethod]
      rfl
    rw [hcheck]
    unfold requireAccount
    rw [always_bind, always_fromExcept]
    -- A share without credentials needs no account.
    cases huser : optionalStr (paramsOf request) "credential_ref" with
    | error e => exact fun h => nomatch h
    | ok user =>
        rw [andThen_ok]
        cases htruthy : truthy user with
        | none => exact fun _ _ => ⟨user, huser, fun name hname => nomatch htruthy.symm.trans hname⟩
        | some account =>
            dsimp only
            rw [always_bind]
            refine always_invoke fun ans => ?_
            cases ans with
            | error e => exact fun h => nomatch h
            | ok ids =>
                refine always_refuseUnless (fun h => nomatch h) fun hsome _ _ => ?_
                refine ⟨user, huser, fun name hname => ?_⟩
                -- The name found is the one the request gives.
                obtain rfl : account = name := Option.some.inj (htruthy.symm.trans hname)
                rcases Option.isSome_iff_exists.mp hsome with ⟨found, rfl⟩
                exact ⟨found, answered_last log _ _⟩
  · exact (always_iff _).mpr fun _ _ _ _ h => absurd h hmethod

end Check

/-! ### A whole frame -/

section Frame

variable [Unicode] {d : FullDispatcher} {peer : Peer} {log : HandleLog}

/-- What every effect of a request has to come after. -/
def Granted (d : FullDispatcher) (peer : Peer) (request : WireRequest) (log : HandleLog) : Prop :=
  Accepted d request log ∧ Authorised d.policy peer request log

omit [Unicode] in
theorem answered_lasting {op : HandleOp} {value : op.Value} (e : Logged handleSig)
    (h : Answered log op value) : Answered (log ++ [e]) op value :=
  List.mem_append_left _ h

omit [Unicode] in
theorem accountKnown_lasting (request : WireRequest) : Lasting (AccountKnown request) := by
  rintro log e ⟨user, huser, hknown⟩
  refine ⟨user, huser, fun name hname => ?_⟩
  rcases hknown name hname with ⟨ids, hids⟩
  exact ⟨ids, answered_lasting e hids⟩

omit [Unicode] in
theorem authorised_lasting (policy : Policy) (peer : Peer) (request : WireRequest) :
    Lasting (Authorised policy peer request) := by
  rintro log e (hroot | hpolicy)
  · exact Or.inl hroot
  · refine Or.inr ?_
    cases policy with
    | group => trivial
    | root => exact hpolicy
    | polkit =>
        rcases hpolicy with ⟨action, haction, hallowed⟩
        exact ⟨action, haction, answered_lasting e hallowed⟩
    | helper =>
        rcases hpolicy with ⟨action, right, haction, hright, h | ⟨auth, hauth, hallowed⟩⟩
        · exact ⟨action, right, haction, hright, Or.inl h⟩
        · exact ⟨action, right, haction, hright, Or.inr ⟨auth, hauth, answered_lasting e hallowed⟩⟩

theorem granted_lasting (d : FullDispatcher) (peer : Peer) (request : WireRequest) :
    Lasting (Granted d peer request) := by
  rintro log e ⟨haccepted, hauthorised⟩
  exact ⟨⟨haccepted.notLink, haccepted.known, haccepted.supported, fun hmethod =>
    accountKnown_lasting request log e (haccepted.prechecked hmethod)⟩,
    authorised_lasting _ _ _ log e hauthorised⟩

theorem methods_of_lookup {method : Str} {handler : Handler}
    (h : methods.lookup method = some handler) : (method, handler) ∈ methods := by
  rcases List.lookup_eq_some_iff.mp h with ⟨before, after, hentries, -⟩
  exact hentries ▸ List.mem_append_right before List.mem_cons_self

/-- Serving a request keeps its log in order. -/
theorem serveRequest_ordered (request : WireRequest)
    (h : PrecededBy HandleOp.Mutates (Granted d peer request) log) :
    Always logMachine (serveRequest d peer request)
      (fun _ log' => PrecededBy HandleOp.Mutates (Granted d peer request) log') log := by
  unfold serveRequest
  -- The agent's own methods change nothing of the host.
  by_cases hlink : request.method ∈ linkMethods
  · rw [if_pos hlink]
    exact always_quiet (quiet_agentLink d peer request) h
  rw [if_neg hlink]
  cases hmethod : methods.lookup request.method with
  | none => exact h
  | some handler =>
      have hentry := methods_of_lookup hmethod
      dsimp only
      rw [always_bind, always_fromExcept]
      cases hsupported : checkSupported d request.method with
      | error e => exact h
      | ok u =>
          rw [andThen_ok, always_bind]
          refine always_mono (always_and (always_quiet (quiet_precheck request) h)
            precheck_known) ?_
          rintro r log₁ ⟨h₁, hknown⟩
          cases r with
          | error e => exact h₁
          | ok u =>
              rw [andThen_ok, always_bind]
              -- An account that was known stays known in a longer log.
              have hlasting : ∀ log e, (request.method = str "share.add" →
                AccountKnown request log) →
                  request.method = str "share.add" → AccountKnown request (log ++ [e]) :=
                fun log e hlog hmethod => accountKnown_lasting request log e (hlog hmethod)
              have hstays := always_lasting (check d.policy peer request.method request.auth)
                hlasting (hknown rfl)
              refine always_mono (always_and (always_and (always_quiet (quiet_check d.policy
                request.method request.auth) h₁) hstays) (check_authorised d.policy)) ?_
              rintro r log₂ ⟨⟨h₂, hknown₂⟩, hauthorised⟩
              cases r with
              | error e => exact h₂
              | ok u =>
                  rw [andThen_ok]
                  -- Past both checks, so the handler may change what it wants.
                  rcases hauthorised rfl with hreadOnly | hauthorised
                  · exact always_quiet (readOnly_quiet _ hentry hreadOnly d peer request) h₂
                  · exact always_granted _ (granted_lasting d peer request) h₂
                      ⟨⟨hlink, ⟨handler, hentry⟩, hsupported, hknown₂⟩, hauthorised⟩

/-- Whatever was asked for and answered while a frame was handled, each effect
    in it came after the frame was parsed as a request, every check of it passed,
    and it was authorised. -/
theorem effects_authorised [JsonText] (d : FullDispatcher) (peer : Peer) (line : List UInt8)
    (r : Except Exc Reply) (log before after : HandleLog) (effect : Logged handleSig)
    (hrun : Exec logMachine (handle d peer line) [] r log)
    (hlog : log = before ++ effect :: after) (heffect : effect.op.Mutates) :
    ∃ request, parseRequest line = .ok request ∧ Accepted d request before ∧
      Authorised d.policy peer request before := by
  unfold handle at hrun
  cases hparse : parseRequest line with
  | error e =>
      rw [hparse] at hrun
      -- an answer that is no request changes nothing
      have hquiet : Quiet (answerFailure none e) := by
        unfold answerFailure
        split
        · trivial
        · exact footprint_throw _
        · trivial
      have hnil : PrecededBy (S := handleSig) HandleOp.Mutates (fun _ => False) [] := precededBy_nil
      have hnone := always_exec (always_quiet hquiet hnil) hrun
      exact (hnone before effect after hlog heffect).elim
  | ok request =>
      rw [hparse] at hrun
      have hordered : Always logMachine (tryCatch (do
            serveRequest d peer request
            pure (Reply.success request.id)) (answerFailure (some request.id)))
          (fun _ log' => PrecededBy HandleOp.Mutates (Granted d peer request) log') [] := by
        rw [always_tryCatch, always_bind]
        refine always_mono (serveRequest_ordered request precededBy_nil) fun r log' hlog' => ?_
        cases r with
        | ok u => exact hlog'
        | error e =>
            rw [andThen_error, orElse_error]
            unfold answerFailure
            split
            · exact hlog'
            · exact hlog'
            · exact hlog'
      rcases always_exec hordered hrun before effect after hlog heffect
        with ⟨haccepted, hauthorised⟩
      exact ⟨request, rfl, haccepted, hauthorised⟩

end Frame

section Removal

attribute [local instance] Unicode.ascii

/-- A request to remove an account's SMB password. -/
def removalText : Str :=
  str "\x7b\"v\":1,\"id\":\"7\",\"method\":\"credential.remove\",\"params\":\x7b\"username\":\"bob\"\x7d\x7d"

/-- What that text holds. -/
def removalObject : List (Str × Json) :=
  [(str "v", .int 1), (str "id", .string (str "7")),
  (str "method", .string (str "credential.remove")),
    (str "params", .object [(str "username", .string (str "bob"))])]

/-- A reader of that text. -/
@[reducible] def removalReader : JsonText where
  loads := fun text => if text = removalText then .ok (.object removalObject) else .error .other
  reprJson := fun _ => []
  reprLevels := 0

attribute [local instance] removalReader

/-- The line it is sent in. -/
def removalLine : List UInt8 :=
  (encode removalText).getD []

/-- The request. -/
def removal : WireRequest :=
  { id := str "7"
    method := str "credential.remove"
    params := [(str "username", .string (str "bob"))]
    auth := none }

/-- A daemon on Linux. -/
def polkitDaemon : FullDispatcher :=
  { applier := some false
    mounter := true
    agents := false
    monitor := true
    style := linuxStyle
    policy := .polkit
    serving := true
    unsupported := []
    unsupportedDetail := []
    linked := false
    signInPerShare := false
    grantsAccess := false }

/-- Who asks. -/
def ann : Peer :=
  { uid := 1000, gid := 1000, pid := some 4242 }

theorem removal_parsed : parseRequest removalLine = .ok removal := by
  have hdecoded : decodeLine removalLine = .ok removalText := by
    have htext : decodeUtf8 removalLine = some removalText := by decide +kernel
    unfold decodeLine
    rw [if_neg (by decide +kernel), htext]
  have hobject : loadObject removalText = .ok removalObject := by
    have hloads : loads removalText = .ok (.object removalObject) := if_pos rfl
    unfold loadObject
    rw [hloads]
  unfold parseRequest
  rw [hdecoded]
  dsimp only [Bind.bind, Except.bind]
  rw [hobject]
  rfl

/-- The account is removed after polkit was asked and allowed it. -/
theorem effects_authorised_removal :
    ∃ request, parseRequest removalLine = .ok request ∧
      Accepted polkitDaemon request [⟨.polkitCheck ann manageShares, .ok true⟩] ∧
      Authorised .polkit ann request [⟨.polkitCheck ann manageShares, .ok true⟩] := by
  refine effects_authorised polkitDaemon ann removalLine (.ok (.success (str "7")))
    [⟨.polkitCheck ann manageShares, .ok true⟩, ⟨.removeUser (str "bob"), .ok ()⟩] _ []
    ⟨.removeUser (str "bob"), .ok ()⟩ ?_ rfl trivial
  unfold handle
  rw [removal_parsed]
  exact Exec.perform (.ok true) rfl (Exec.perform (.ok ()) rfl (Exec.ret _ _))

end Removal

end Smbpal
