import Mathlib.Logic.Function.Basic
import Smbpal.Helper.Frame
import Smbpal.Lib.Interference

/-!
# Sharepoints and the Helper's List

`share.publish`, `share.unpublish` and the sharepoints of `uninstall` in
`helper/smbpal-helper.c`, with the list of names in which the helper remembers what it
published, while the person adds, removes and replaces sharepoints in the Sharing pane at
any moment.

The list holds names and nothing else. A record that the person makes under a name on it,
when they have removed the helper's own, is taken for the helper's and removed
(`persons_record_removed`). As long as the person makes no record under a name that is on
the list, or that the verb at work has just found free, no record of theirs is removed or
overwritten by any operation of any verb, wherever the verbs fail or are stopped.

`sharing` and `dscl` are not the helper's. A `sharing` may do nothing, and what it adds may
be at another path or not be read-only; `dscl` says whether there is a record. A line of
the list is written whole or not at all, though the writing may be reported as failed.
Who made a record is kept here, and so is what a verb has found free; the program has
neither.

## Main definitions

* `Sharepoints`: The records and the list.
* `sharePublish`, `shareUnpublish`, `uninstallSharepoints`: The verbs.
* `sharepointMachine`: What their operations do.
* `HelperStep`: A step of the helper, or of the person.
* `NoClash`: The person makes no record under a name that is covered.

## Theorems

* `vouched_sharePublish`, `vouched_shareUnpublish`, `vouched_uninstall`: Each verb touches
  no record of the person's.
* `persons_records_kept`: No step of the helper does, in every run.
* `persons_record_removed`: A run in which one does.
-/

namespace Smbpal

open Lib Program

section Verbs

/-- Who made a record. -/
inductive Maker where
  | helper
  | person
  deriving DecidableEq

/-- A sharepoint. -/
structure SharepointRecord where
  path : List UInt8
  readOnly : Bool
  maker : Maker
  deriving DecidableEq

/-- `enum path_verdict`. -/
inductive PathVerdict where
  | ok
  | notFound
  | notDirectory
  | outsideRoots
  | homeRoot
  | systemOwned
  deriving DecidableEq

/-- `PATH_VERDICTS`. -/
def PathVerdict.token : PathVerdict → String
  | .ok => "ok"
  | .notFound => "not-found"
  | .notDirectory => "not-directory"
  | .outsideRoots => "outside-roots"
  | .homeRoot => "home-root"
  | .systemOwned => "system-owned"

/-- What the verbs use of `struct path_report`. -/
structure PathReport where
  verdict : PathVerdict
  resolved : List UInt8

/-- What a verb asks of the system. -/
inductive SharepointOp where
  | verifyForm (form : List UInt8)
  | inspectPath (path : List UInt8)
  | sharepointExists (name : List UInt8)
  | sharingAdd (name path : List UInt8) (readOnly : Bool)
  | sharingRemove (name : List UInt8)
  | ledgerContains (name : List UInt8)
  | ledgerAdd (name : List UInt8)
  | ledgerRemove (name : List UInt8)
  | readLedger
  | unlinkLedger

/-- What it is answered. -/
abbrev SharepointOp.Value : SharepointOp → Type
  | .verifyForm _ => Bool
  | .inspectPath _ => Option PathReport
  | .sharepointExists _ => Bool
  | .sharingAdd _ _ _ => Unit
  | .sharingRemove _ => Unit
  | .ledgerContains _ => Bool
  | .ledgerAdd _ => Bool
  | .ledgerRemove _ => Bool
  | .readLedger => Option (List (List UInt8))
  | .unlinkLedger => Unit

/-- The operations and their answers. -/
def sharepointSig : Signature :=
  { Op := SharepointOp, Answer := SharepointOp.Value }

/-- A program of the helper. -/
abbrev SharepointM (α : Type) :=
  Program sharepointSig Empty α

/-- Perform one operation. -/
def sharepointCall (op : SharepointOp) : SharepointM op.Value :=
  .perform (S := sharepointSig) op .ret

/-- What the helper answers: `OK`, or `ERR` and a token. -/
inductive HelperReply where
  | ok
  | err (token : String)
  deriving DecidableEq

/-- `SHARE_NAME_MAX`. -/
def shareNameMax : Nat := 80

/-- `share_name_ok`. -/
def shareNameOk (name : List UInt8) : Bool :=
  decide (name.length ≠ 0 ∧ name.length ≤ shareNameMax) &&
    decide (name.head? ≠ some 32 ∧ name.getLast? ≠ some 32) &&
    !name.any fun b => decide (b ∈ cBytes "\t/\\[]:;\"'`$%")

/-- `sharepoint_remove`: whether the record is gone. -/
def sharepointRemove (name : List UInt8) : SharepointM Bool := do
  let _ ← sharepointCall (.sharingRemove name)
  let found ← sharepointCall (.sharepointExists name)
  pure (!found)

/-- What `share.publish` is given, if it is well formed: the form, the name, the path, and
    whether it is to be read-only. -/
def publishArgs (req : HelperRequest) :
    Option (List UInt8 × List UInt8 × List UInt8 × Bool) :=
  match req.auth, req.args with
  | some form, [name, path] => if shareNameOk name then some (form, name, path, false) else none
  | some form, [name, path, flag] =>
      if flag = cBytes "read-only" ∧ shareNameOk name then some (form, name, path, true) else none
  | _, _ => none

/-- `share.publish`, when the path may be shared. -/
def publishFolder (name resolved : List UInt8) (readOnly : Bool) : SharepointM HelperReply := do
  if ← sharepointCall (.sharepointExists name) then
    let ours ← sharepointCall (.ledgerContains name)
    pure (.err (if ours then "published" else "exists"))
  else
    let _ ← sharepointCall (.sharingAdd name resolved readOnly)
    if ← sharepointCall (.sharepointExists name) then
      if ← sharepointCall (.ledgerAdd name) then
        pure .ok
      else
        let _ ← sharepointRemove name
        pure (.err "ledger")
    else
      pure (.err "sharing")

/-- `share.publish`. -/
def sharePublish (req : HelperRequest) : SharepointM HelperReply :=
  match publishArgs req with
  | none => pure (.err "args")
  | some (form, name, path, readOnly) => do
      if ← sharepointCall (.verifyForm form) then
        match ← sharepointCall (.inspectPath path) with
        | none => pure (.err "args")
        | some report =>
            if report.verdict = .ok then publishFolder name report.resolved readOnly
            else pure (.err report.verdict.token)
      else
        pure (.err "denied")

/-- `share.unpublish`, when the name and the grant are right. -/
def unpublishName (name : List UInt8) : SharepointM HelperReply := do
  if ← sharepointCall (.ledgerContains name) then
    if ← sharepointRemove name then
      if ← sharepointCall (.ledgerRemove name) then
        pure .ok
      else
        pure (.err "ledger")
    else
      pure (.err "sharing")
  else
    pure (.err "not-ours")

/-- `share.unpublish`. -/
def shareUnpublish (req : HelperRequest) : SharepointM HelperReply :=
  match req.auth, req.args with
  | some form, [name] =>
      if shareNameOk name then do
        if ← sharepointCall (.verifyForm form) then
          unpublishName name
        else
          pure (.err "denied")
      else
        pure (.err "args")
  | _, _ => pure (.err "args")

/-- The loop of `uninstall` over the lines of the list: whether a record would not go. -/
def uninstallLines : List (List UInt8) → SharepointM Bool
  | [] => pure false
  | line :: lines =>
      if shareNameOk line then do
        let gone ← sharepointRemove line
        let stuck ← uninstallLines lines
        pure (!gone || stuck)
      else
        uninstallLines lines

/-- The sharepoints of `uninstall`. -/
def uninstallSharepoints : SharepointM Unit := do
  match ← sharepointCall .readLedger with
  | none => pure ()
  | some lines =>
      let stuck ← uninstallLines lines
      if stuck then pure () else sharepointCall .unlinkLedger

end Verbs

section Machine

/-- The records, the list, and what the verb at work has found not to be there. -/
structure Sharepoints where
  records : List UInt8 → Option SharepointRecord
  ledger : List (List UInt8)
  free : List (List UInt8)

/-- The helper is installed. -/
def Sharepoints.init (records : List UInt8 → Option SharepointRecord) : Sharepoints where
  records := records
  ledger := []
  free := []

/-- Change a record. -/
def Sharepoints.setRecord (s : Sharepoints) (name : List UInt8)
    (record : Option SharepointRecord) : Sharepoints :=
  { s with records := Function.update s.records name record }

/-- What the operations do, each of which may also fail. Only looking for a record does not:
    `run_silent` would take a `dscl` that failed itself for a record that is not there. -/
def sharepointMachine : Machine sharepointSig Sharepoints
  | .verifyForm _, s, _, s' => s' = s
  | .inspectPath _, s, _, s' => s' = s
  | .sharepointExists name, s, found, s' =>
      found = (s.records name).isSome ∧
        s' = if (s.records name).isSome then s else { s with free := name :: s.free }
  | .sharingAdd name _ _, s, _, s' =>
      s' = s ∨ ∃ path readOnly, s' = s.setRecord name
        (some { path := path, readOnly := readOnly, maker := .helper })
  | .sharingRemove name, s, _, s' => s' = s ∨ s' = s.setRecord name none
  | .ledgerContains name, s, listed, s' => (listed = true → name ∈ s.ledger) ∧ s' = s
  | .ledgerAdd name, s, written, s' =>
      s' = { s with ledger := s.ledger ++ [name] } ∨ written = false ∧ s' = s
  | .ledgerRemove name, s, written, s' =>
      s' = { s with ledger := s.ledger.filter fun line => decide (line ≠ name) } ∨
        written = false ∧ s' = s
  | .readLedger, s, lines, s' => (∀ names, lines = some names → names = s.ledger) ∧ s' = s
  | .unlinkLedger, s, _, s' => s' = s ∨ s' = { s with ledger := [] }

/-- What the person does in the Sharing pane. -/
inductive PersonEdit where
  | put (name path : List UInt8) (readOnly : Bool)
  | remove (name : List UInt8)

/-- An edit of the person's. -/
def personEdits (s : Sharepoints) : PersonEdit → Sharepoints → Prop
  | .put name path readOnly, s' =>
      s' = s.setRecord name (some { path := path, readOnly := readOnly, maker := .person })
  | .remove name, s' => s' = s.setRecord name none

/-- What the helper runs: one request after another, or its own removal. -/
inductive IsVerb : SharepointM HelperReply → Prop where
  | publish (req : HelperRequest) : IsVerb (sharePublish req)
  | unpublish (req : HelperRequest) : IsVerb (shareUnpublish req)
  | uninstall : IsVerb (uninstallSharepoints >>= fun _ => pure .ok)

/-- A verb has ended, or was stopped. -/
def Sharepoints.settle (s : Sharepoints) : Sharepoints :=
  { s with free := [] }

/-- The helper and the sharepoints. -/
abbrev HelperWorld := Interleaved sharepointSig Empty HelperReply Sharepoints

/-- What happens. -/
abbrev HelperEvent := InterleavedEvent sharepointSig Empty HelperReply PersonEdit

/-- A step of the helper, or of the person. -/
abbrev HelperStep : HelperWorld → HelperEvent → HelperWorld → Prop :=
  InterleavedStep sharepointMachine IsVerb personEdits Sharepoints.settle

/-- A name is on the list, or was just found free. -/
def Sharepoints.Covered (s : Sharepoints) (name : List UInt8) : Prop :=
  name ∈ s.ledger ∨ name ∈ s.free

/-- The person makes no record under a name that is on the list, or that the verb at work
    has found free. -/
def NoClash (w : HelperWorld) : HelperEvent → Prop
  | .outside (.put name _ _) => ¬w.shared.Covered name
  | _ => True

end Machine

section Rely

variable {s t t' : Sharepoints} {name : List UInt8}

/-- The person has a record under the name. -/
def Foreign (s : Sharepoints) (name : List UInt8) : Prop :=
  ∃ record, s.records name = some record ∧ record.maker = .person

/-- The person has no record under a covered name. -/
def Apart (s : Sharepoints) : Prop :=
  ∀ name, s.Covered name → ¬Foreign s name

/-- What the person does changes neither the list nor what a verb has found, and makes no
    record under a covered name. -/
structure PersonRely (s t : Sharepoints) : Prop where
  ledger : t.ledger = s.ledger
  free : t.free = s.free
  foreign : ∀ name, s.Covered name → Foreign t name → Foreign s name

/-- What an operation of the helper keeps to: no record of the person's is removed or
    overwritten, and none comes to be covered. -/
structure HelperGuarantee (s s' : Sharepoints) : Prop where
  kept : ∀ name record, s.records name = some record → record.maker = .person →
    s'.records name = some record
  apart : Apart s'

theorem PersonRely.covered (h : PersonRely s t) : t.Covered name ↔ s.Covered name := by
  rw [Sharepoints.Covered, Sharepoints.Covered, h.ledger, h.free]

theorem PersonRely.apart (h : PersonRely s t) (hs : Apart s) : Apart t :=
  fun name hname hforeign =>
    hs name (h.covered.mp hname) (h.foreign name (h.covered.mp hname) hforeign)

theorem PersonRely.trans {u : Sharepoints} (h : PersonRely s t) (h' : PersonRely t u) :
    PersonRely s u where
  ledger := h'.ledger.trans h.ledger
  free := h'.free.trans h.free
  foreign := fun name hname hforeign =>
    h.foreign name hname (h'.foreign name (h.covered.mpr hname) hforeign)

theorem setRecord_self (s : Sharepoints) (name : List UInt8) (record : Option SharepointRecord) :
    (s.setRecord name record).records name = record := by
  unfold Sharepoints.setRecord
  dsimp only
  rw [Function.update_self]

theorem setRecord_ne {other : List UInt8} (h : other ≠ name) (s : Sharepoints)
    (record : Option SharepointRecord) :
    (s.setRecord name record).records other = s.records other := by
  unfold Sharepoints.setRecord
  dsimp only
  rw [Function.update_of_ne h]

/-- What is not the person's makes no record theirs. -/
theorem not_foreign_setRecord {record : Option SharepointRecord}
    (hrecord : ∀ r, record = some r → r.maker ≠ .person) {other : List UInt8}
    (h : Foreign (s.setRecord name record) other) : Foreign s other := by
  rcases h with ⟨r, hr, hmaker⟩
  by_cases hsame : other = name
  · rw [hsame, setRecord_self] at hr
    exact absurd hmaker (hrecord r hr)
  · rw [setRecord_ne hsame] at hr
    exact ⟨r, hr, hmaker⟩

/-- What the person edits under a name that is not covered keeps to the rely. -/
theorem personRely_of_edit {e : PersonEdit} (he : personEdits s e t)
    (hmet : ∀ name path readOnly, e = .put name path readOnly → ¬s.Covered name) :
    PersonRely s t := by
  cases e with
  | put name path readOnly =>
      subst he
      refine ⟨rfl, rfl, fun other hother hforeign => ?_⟩
      have hne : other ≠ name := fun heq => hmet name path readOnly rfl (heq ▸ hother)
      rcases hforeign with ⟨r, hr, hmaker⟩
      rw [setRecord_ne hne] at hr
      exact ⟨r, hr, hmaker⟩
  | remove name =>
      subst he
      exact ⟨rfl, rfl, fun other _ hforeign =>
        not_foreign_setRecord (fun r hr => absurd hr (Option.some_ne_none r).symm) hforeign⟩

/-- A state that is left as it is. -/
theorem guarantee_refl (ht : Apart t) : HelperGuarantee t t :=
  ⟨fun _ _ hr _ => hr, ht⟩

/-- The record under a covered name may be changed. -/
theorem guarantee_setRecord (ht : Apart t) (hname : t.Covered name)
    {record : Option SharepointRecord} (hrecord : ∀ r, record = some r → r.maker ≠ .person) :
    HelperGuarantee t (t.setRecord name record) where
  kept := fun other r hr hmaker => by
    have hne : other ≠ name := fun heq => ht name hname ⟨r, heq ▸ hr, hmaker⟩
    rw [setRecord_ne hne]
    exact hr
  apart := fun other hother hforeign => ht other hother (not_foreign_setRecord hrecord hforeign)

/-- The list may be changed to one of covered names. -/
theorem guarantee_ledger (ht : Apart t) {ledger : List (List UInt8)}
    (h : ∀ name ∈ ledger, t.Covered name) : HelperGuarantee t { t with ledger := ledger } where
  kept := fun _ _ hr _ => hr
  apart := fun name hname hforeign =>
    ht name (hname.elim (fun hmem => h name hmem) Or.inr) hforeign

/-- Looking for a record: if there is none, the name is covered from then on. -/
theorem guarantee_exists (ht : Apart t) {found : Bool}
    (h : sharepointMachine (.sharepointExists name) t found t') :
    HelperGuarantee t t' ∧ (∀ other, t.Covered other → t'.Covered other) ∧
      (found = false → t'.Covered name) := by
  rcases h with ⟨hfound, hstate⟩
  -- A name that is free is remembered as one this helper may take.
  by_cases hsome : (t.records name).isSome = true
  · rw [if_pos hsome] at hstate
    subst hstate
    exact ⟨guarantee_refl ht, fun _ h => h, fun hno => by
      rw [hno, hsome] at hfound
      exact nomatch hfound⟩
  · rw [if_neg hsome] at hstate
    subst hstate
    refine ⟨⟨fun _ _ hr _ => hr, fun other hother hforeign => ?_⟩,
      fun other hother => hother.imp_right (List.mem_cons_of_mem name),
      fun _ => Or.inr List.mem_cons_self⟩
    rcases hother with hlisted | hfree
    · exact ht other (Or.inl hlisted) hforeign
    · rcases List.mem_cons.mp hfree with rfl | hfree
      · rcases hforeign with ⟨r, hr, -⟩
        exact hsome (Option.isSome_of_eq_some hr)
      · exact ht other (Or.inr hfree) hforeign

end Rely

section Vouching

/-- Each operation of the program keeps to the guarantee. -/
abbrev Vouches {α : Type} (p : SharepointM α) (Q : Except Empty α → Sharepoints → Prop)
    (s : Sharepoints) : Prop :=
  Vouched sharepointMachine PersonRely HelperGuarantee p Q s

variable {α : Type} {s : Sharepoints} {name : List UInt8}
variable {Q : Except Empty α → Sharepoints → Prop}

/-- One operation, and what follows. -/
theorem vouches_call {op : SharepointOp} {f : op.Value → SharepointM α} (hs : Apart s)
    (h : ∀ t ans t', Apart t → PersonRely s t → sharepointMachine op t ans t' →
      HelperGuarantee t t' ∧ Vouches (f ans) Q t') :
    Vouches (sharepointCall op >>= f) Q s := fun t hst ans t' hM =>
  h t ans t' (hst.apart hs) hst hM

/-- A name that is covered before the person's edits is covered after them. -/
theorem PersonRely.still {t : Sharepoints} (h : PersonRely s t) (hname : s.Covered name) :
    t.Covered name :=
  h.covered.mpr hname

/-- An operation that leaves all as it is. -/
theorem vouches_still {op : SharepointOp} {f : op.Value → SharepointM α} (hs : Apart s)
    (hop : ∀ t ans t', sharepointMachine op t ans t' → t' = t)
    (h : ∀ ans t, Apart t → PersonRely s t → Vouches (f ans) Q t) :
    Vouches (sharepointCall op >>= f) Q s := by
  refine vouches_call hs fun t ans t' ht hst hM => ?_
  have hsame := hop t ans t' hM
  subst hsame
  exact ⟨guarantee_refl ht, h ans t' ht hst⟩

/-- Sequencing: nothing is raised. -/
theorem vouches_then {β : Type} {p : SharepointM β} {f : β → SharepointM α}
    {Q' : Except Empty β → Sharepoints → Prop} (h : Vouches p Q' s)
    (hf : ∀ b t, Q' (.ok b) t → Vouches (f b) Q t) : Vouches (p >>= f) Q s :=
  vouched_then h hf fun e => nomatch e

/-- `sharepoint_remove` of a covered name. -/
theorem vouches_sharepointRemove (hs : Apart s) (hname : s.Covered name) :
    Vouches (sharepointRemove name)
      (fun _ t => Apart t ∧ ∀ other, s.Covered other → t.Covered other) s := by
  refine vouches_call hs fun t _ t₁ ht hst hM => ?_
  have hcovered : ∀ other, t.Covered other → t₁.Covered other := by
    rcases hM with rfl | rfl <;> exact fun _ h => h
  have hkept : HelperGuarantee t t₁ := by
    rcases hM with rfl | rfl
    · exact guarantee_refl ht
    · exact guarantee_setRecord ht (hst.still hname) fun r hr => nomatch hr
  refine ⟨hkept, vouches_call hkept.apart fun u found u' hu hst' hM' => ?_⟩
  rcases guarantee_exists hu hM' with ⟨hkept', hcovered', -⟩
  exact ⟨hkept', hkept'.apart, fun other hother =>
    hcovered' other (hst'.still (hcovered other (hst.still hother)))⟩

/-- `share.publish` of a folder. -/
theorem vouches_publishFolder (hs : Apart s) (resolved : List UInt8) (readOnly : Bool) :
    Vouches (publishFolder name resolved readOnly) (fun _ _ => True) s := by
  refine vouches_call hs fun t found t₁ ht hst hM => ?_
  rcases guarantee_exists ht hM with ⟨hkept, -, hfree⟩
  refine ⟨hkept, ?_⟩
  -- The name is taken, and nothing is written.
  cases found with
  | true => exact vouches_still hkept.apart (fun _ _ _ h => h.2) fun _ _ _ _ => trivial
  | false =>
      -- The name was free, so whatever comes under it is this request's.
      have hname := hfree rfl
      refine vouches_call hkept.apart fun u _ u₁ hu hst₁ hM₁ => ?_
      have hcovered : u₁.Covered name := by
        rcases hM₁ with rfl | ⟨_, _, rfl⟩ <;> exact hst₁.still hname
      have hkept₁ : HelperGuarantee u u₁ := by
        rcases hM₁ with rfl | ⟨_, _, rfl⟩
        · exact guarantee_refl hu
        · refine guarantee_setRecord hu (hst₁.still hname) fun r hr => ?_
          cases hr
          exact fun heq => nomatch heq
      refine ⟨hkept₁, vouches_call hkept₁.apart fun v found v₁ hv hst₂ hM₂ => ?_⟩
      rcases guarantee_exists hv hM₂ with ⟨hkept₂, hmore, -⟩
      have hname₂ := hmore name (hst₂.still hcovered)
      -- Whether the record is there is asked again, and the answer decides.
      refine ⟨hkept₂, ?_⟩
      cases found with
      | false => trivial
      | true =>
          refine vouches_call hkept₂.apart fun x written x₁ hx hst₃ hM₃ => ?_
          have hname₃ := hst₃.still hname₂
          have hkept₃ : HelperGuarantee x x₁ := by
            rcases hM₃ with rfl | ⟨-, rfl⟩
            · refine guarantee_ledger hx fun other hother => ?_
              rcases List.mem_append.mp hother with hlisted | hnew
              · exact Or.inl hlisted
              · rw [List.mem_singleton] at hnew
                exact hnew ▸ hname₃
            · exact guarantee_refl hx
          refine ⟨hkept₃, ?_⟩
          cases written with
          | true => trivial
          -- The ledger could not be written, so the record is removed again.
          | false =>
              have hname₄ : x₁.Covered name := by
                rcases hM₃ with rfl | ⟨-, rfl⟩
                · exact hname₃.imp_left (List.mem_append_left _)
                · exact hname₃
              exact vouches_then (vouches_sharepointRemove hkept₃.apart hname₄) fun _ _ _ => trivial

/-- `share.publish` touches no record of the person's. -/
theorem vouched_sharePublish (hs : Apart s) (req : HelperRequest) :
    Vouches (sharePublish req) (fun _ _ => True) s := by
  unfold sharePublish
  cases publishArgs req with
  | none => trivial
  | some args =>
      rcases args with ⟨form, name, path, readOnly⟩
      refine vouches_still hs (fun _ _ _ h => h) fun verified t ht _ => ?_
      cases verified with
      | false => trivial
      | true =>
          refine vouches_still ht (fun _ _ _ h => h) fun report u hu _ => ?_
          cases report with
          | none => trivial
          | some report =>
              by_cases hok : report.verdict = .ok
              · simp only [if_pos hok]
                exact vouches_publishFolder hu report.resolved readOnly
              · simp only [if_neg hok]
                trivial

/-- `share.unpublish` of a name. -/
theorem vouches_unpublishName (hs : Apart s) :
    Vouches (unpublishName name) (fun _ _ => True) s := by
  refine vouches_call hs fun t listed t₁ ht hst hM => ?_
  rcases hM with ⟨hlisted, rfl⟩
  refine ⟨guarantee_refl ht, ?_⟩
  cases listed with
  | false => trivial
  | true =>
      have hname : t₁.Covered name := Or.inl (hlisted rfl)
      refine vouches_then (vouches_sharepointRemove ht hname) fun gone u hu => ?_
      cases gone with
      | false => trivial
      | true =>
          refine vouches_call hu.1 fun v written v₁ hv _ hM => ?_
          have hkept : HelperGuarantee v v₁ := by
            rcases hM with rfl | ⟨-, rfl⟩
            · exact guarantee_ledger hv fun other hother => Or.inl (List.mem_filter.mp hother).1
            · exact guarantee_refl hv
          refine ⟨hkept, ?_⟩
          cases written <;> trivial

/-- `share.unpublish` touches no record of the person's. -/
theorem vouched_shareUnpublish (hs : Apart s) (req : HelperRequest) :
    Vouches (shareUnpublish req) (fun _ _ => True) s := by
  unfold shareUnpublish
  split
  · rename_i form name hform hargs
    by_cases hok : shareNameOk name = true
    · rw [if_pos hok]
      refine vouches_still hs (fun _ _ _ h => h) fun verified t ht _ => ?_
      cases verified with
      | false => trivial
      | true => exact vouches_unpublishName ht
    · rw [if_neg hok]
      trivial
  · trivial

/-- The loop over covered names. -/
theorem vouches_uninstallLines {lines : List (List UInt8)} (hs : Apart s)
    (hlines : ∀ line ∈ lines, s.Covered line) :
    Vouches (uninstallLines lines) (fun _ t => Apart t) s := by
  induction lines generalizing s with
  | nil => exact hs
  | cons line lines ih =>
      rw [List.forall_mem_cons] at hlines
      rw [uninstallLines]
      by_cases hok : shareNameOk line = true
      · rw [if_pos hok]
        refine vouches_then (vouches_sharepointRemove hs hlines.1) fun gone t ht => ?_
        exact vouches_then (ih ht.1 fun other hother => ht.2 other (hlines.2 other hother))
          fun _ _ hu => hu
      · rw [if_neg hok]
        exact ih hs hlines.2

theorem vouches_uninstallSharepoints (hs : Apart s) :
    Vouches uninstallSharepoints (fun _ _ => True) s := by
  refine vouches_call hs fun t lines t₁ ht _ hM => ?_
  rcases hM with ⟨hlines, rfl⟩
  refine ⟨guarantee_refl ht, ?_⟩
  cases lines with
  | none => trivial
  | some lines =>
      have hcovered : ∀ line ∈ lines, t₁.Covered line := fun line hline =>
        Or.inl (hlines lines rfl ▸ hline)
      refine vouches_then (vouches_uninstallLines ht hcovered) fun stuck u hu => ?_
      cases stuck with
      | true => trivial
      | false =>
          refine vouches_call (f := .ret) hu fun v _ v₁ hv _ hM => ⟨?_, trivial⟩
          rcases hM with rfl | rfl
          · exact guarantee_refl hv
          · exact guarantee_ledger hv fun other hother => absurd hother List.not_mem_nil

/-- `uninstall` touches no record of the person's. -/
theorem vouched_uninstall (hs : Apart s) :
    Vouches (uninstallSharepoints >>= fun _ => pure HelperReply.ok) (fun _ _ => True) s :=
  vouches_then (vouches_uninstallSharepoints hs) fun _ _ _ => trivial

end Vouching

section Runs

/-- The verbs and the person, as long as there is no clash. -/
theorem helper_relyGuarantee :
    RelyGuarantee sharepointMachine IsVerb personEdits Sharepoints.settle NoClash Apart PersonRely
      HelperGuarantee where
  refl := fun s => ⟨rfl, rfl, fun _ _ h => h⟩
  trans := fun s t u h h' => h.trans h'
  env := fun s p e s' hs hmet he => by
    have hrely : PersonRely s s' := by
      refine personRely_of_edit he fun name path readOnly heq => ?_
      subst heq
      exact hmet
    exact ⟨hrely, hrely.apart hs⟩
  keeps := fun s s' _ h => h.apart
  settles := fun s hs name hname =>
    hs name (hname.imp_right fun hmem => absurd hmem List.not_mem_nil)
  starts := fun p s hp hs => by
    cases hp with
    | publish req => exact vouched_sharePublish hs req
    | unpublish req => exact vouched_shareUnpublish hs req
    | uninstall => exact vouched_uninstall hs

theorem apart_init (records : List UInt8 → Option SharepointRecord) :
    Apart (.init records) := fun _ hname =>
  absurd hname (not_or.mpr ⟨List.not_mem_nil, List.not_mem_nil⟩)

/-- As long as the person makes no record under a name that is on the list, or that the
    verb at work has found free, no operation of the helper removes or overwrites a record
    of theirs. -/
theorem persons_records_kept {records : List UInt8 → Option SharepointRecord} {w w' : HelperWorld}
    (hrun : GuardedRun HelperStep NoClash ⟨.init records, none⟩ w)
    (hstep : HelperStep w .acts w') {name : List UInt8} {record : SharepointRecord}
    (hrecord : w.shared.records name = some record) (hmaker : record.maker = .person) :
    w'.shared.records name = some record :=
  (helper_relyGuarantee.guarantee (apart_init records) hrun hstep).kept name record hrecord hmaker

/-- The answers when all goes well. -/
def sharepointAnswer : (op : SharepointOp) → Sharepoints → op.Value × Sharepoints
  | .verifyForm _, s => (true, s)
  | .inspectPath path, s => (some { verdict := .ok, resolved := path }, s)
  | .sharepointExists name, s =>
      ((s.records name).isSome,
        if (s.records name).isSome then s else { s with free := name :: s.free })
  | .sharingAdd name path readOnly, s =>
      ((), s.setRecord name (some { path := path, readOnly := readOnly, maker := .helper }))
  | .sharingRemove name, s => ((), s.setRecord name none)
  | .ledgerContains name, s => (decide (name ∈ s.ledger), s)
  | .ledgerAdd name, s => (true, { s with ledger := s.ledger ++ [name] })
  | .ledgerRemove name, s =>
      (true, { s with ledger := s.ledger.filter fun line => decide (line ≠ name) })
  | .readLedger, s => (some s.ledger, s)
  | .unlinkLedger, s => ((), { s with ledger := [] })

theorem sharepointAnswer_machine (op : SharepointOp) (s : Sharepoints) :
    sharepointMachine op s (sharepointAnswer op s).1 (sharepointAnswer op s).2 := by
  cases op with
  | verifyForm form => rfl
  | inspectPath path => rfl
  | sharepointExists name => exact ⟨rfl, rfl⟩
  | sharingAdd name path readOnly => exact Or.inr ⟨path, readOnly, rfl⟩
  | sharingRemove name => exact Or.inr rfl
  | ledgerContains name => exact ⟨of_decide_eq_true, rfl⟩
  | ledgerAdd name => exact Or.inl rfl
  | ledgerRemove name => exact Or.inl rfl
  | readLedger => exact ⟨(fun names h => (Option.some.inj h).symm), rfl⟩
  | unlinkLedger => exact Or.inr rfl

/-- A request to publish a folder. -/
def mediaPublish : HelperRequest where
  verb := cBytes "share.publish"
  auth := some []
  args := [cBytes "Media", cBytes "/Users/a/Media"]

/-- A request to unpublish it. -/
def mediaUnpublish : HelperRequest where
  verb := cBytes "share.unpublish"
  auth := some []
  args := [cBytes "Media"]

/-- A record of the person's. -/
def personsRecord : SharepointRecord where
  path := cBytes "/Users/a/Mine"
  readOnly := true
  maker := .person

/-- The helper publishes a folder beside a record of the person's. -/
theorem persons_records_kept_beside :
    ∃ w w' : HelperWorld, HelperStep w .acts w' ∧ w.shared.ledger = [] ∧
      w.shared.records (cBytes "Media") = none ∧
      (w'.shared.records (cBytes "Media")).isSome = true ∧
      w'.shared.records (cBytes "Mine") = some personsRecord := by
  have hrun : GuardedRun HelperStep NoClash
      ⟨.init (Function.update (fun _ => none) (cBytes "Mine") (some personsRecord)), none⟩ _ :=
    advance_run sharepointAnswer_machine (fun _ => trivial) 3
      (GuardedRun.start.next (.begins (sharePublish mediaPublish)) trivial
        (.begins (.publish mediaPublish)))
  have hstep : HelperStep (advance sharepointAnswer 3 (sharePublish mediaPublish)
      (.init (Function.update (fun _ => none) (cBytes "Mine") (some personsRecord)))) .acts _ :=
    advance_acts sharepointAnswer_machine rfl
  exact ⟨_, _, hstep, rfl, rfl, rfl, persons_records_kept hrun hstep rfl rfl⟩

/-- The person removes the helper's record and makes one of their own under the name; the
    helper, asked to unpublish, removes it. -/
theorem persons_record_removed :
    ∃ w w' : HelperWorld,
      GuardedRun HelperStep (fun _ _ => True) ⟨.init fun _ => none, none⟩ w ∧
        HelperStep w .acts w' ∧ w.shared.records (cBytes "Media") = some personsRecord ∧
          w'.shared.records (cBytes "Media") = none := by
  have hpublished : GuardedRun HelperStep (fun _ _ => True) ⟨.init fun _ => none, none⟩ _ :=
    advance_run sharepointAnswer_machine (fun _ => trivial) 6
      (GuardedRun.start.next (.begins (sharePublish mediaPublish)) trivial
        (.begins (.publish mediaPublish)))
  have hreplaced : GuardedRun HelperStep (fun _ _ => True) ⟨.init fun _ => none, none⟩ _ :=
    (hpublished.next .ends trivial .ends)
    |>.next (.outside (.remove (cBytes "Media"))) trivial (.outside rfl)
    |>.next (.outside (.put (cBytes "Media") personsRecord.path personsRecord.readOnly)) trivial
      (.outside rfl)
  have hlisted : GuardedRun HelperStep (fun _ _ => True) ⟨.init fun _ => none, none⟩ _ :=
    advance_run sharepointAnswer_machine (fun _ => trivial) 2
      (hreplaced.next (.begins (shareUnpublish mediaUnpublish)) trivial
        (.begins (.unpublish mediaUnpublish)))
  exact ⟨_, _, hlisted, advance_acts sharepointAnswer_machine rfl, rfl, rfl⟩

end Runs

end Smbpal
