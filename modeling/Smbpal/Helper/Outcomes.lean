import Smbpal.Helper.Sharepoints

/-!
# What the Sharepoint Verbs Come To

`share.publish` and `share.unpublish` as one step each, when nobody else touches the
sharepoints: a record for the name or none, and the name on the list or not.

Published is a name whose record was made, whatever `sharing` made of it, and which was
written on the list. Refused is anything else, and it can leave a record behind, where
`sharing` made one and the list could not be written, or the name on the list, where the
writing is reported as failed.

## Main definitions

* `PublishOutcome`, `UnpublishOutcome`: What a verb comes to, over any names and records.

## Theorems

* `exec_sharePublish`: The verb comes to such an outcome, and publishes over no record.
* `exec_shareUnpublish`: The same of the other.
-/

namespace Smbpal

open Lib Program

section Outcomes

variable {κ ρ ε : Type}

/-- What publishing comes to. -/
inductive PublishOutcome (ρ ε : Type) where
  | ok (record : ρ)
  | refused (e : ε) (left : Option ρ) (listed : Bool)

/-- What unpublishing comes to. -/
inductive UnpublishOutcome (ε : Type) where
  | ok
  | refused (e : ε) (gone unlisted : Bool)

namespace PublishOutcome

/-- The record it leaves. -/
def left : PublishOutcome ρ ε → Option ρ
  | .ok record => some record
  | .refused _ left _ => left

/-- Whether the name is on the list. -/
def listed : PublishOutcome ρ ε → Bool
  | .ok _ => true
  | .refused _ _ listed => listed

/-- Whether it was done. -/
def isOk : PublishOutcome ρ ε → Bool
  | .ok _ => true
  | .refused _ _ _ => false

variable [DecidableEq κ]

/-- The records after it. -/
def records (o : PublishOutcome ρ ε) (name : κ) (records : κ → Option ρ) : κ → Option ρ :=
  match o.left with
  | none => records
  | some record => Function.update records name (some record)

omit [DecidableEq κ] in
/-- The list after it. -/
def ledger (o : PublishOutcome ρ ε) (name : κ) (ledger : List κ) : List κ :=
  if o.listed then ledger ++ [name] else ledger

omit [DecidableEq κ] in
/-- The same outcome, where records and failures are seen otherwise. -/
def map {ρ' ε' : Type} (shows : ρ → ρ') (raised : ε → ε') :
    PublishOutcome ρ ε → PublishOutcome ρ' ε'
  | .ok record => .ok (shows record)
  | .refused e left listed => .refused (raised e) (left.map shows) listed

end PublishOutcome

namespace UnpublishOutcome

/-- Whether the record is gone. -/
def gone : UnpublishOutcome ε → Bool
  | .ok => true
  | .refused _ gone _ => gone

/-- Whether the name is off the list. -/
def unlisted : UnpublishOutcome ε → Bool
  | .ok => true
  | .refused _ _ unlisted => unlisted

/-- Whether it was done. -/
def isOk : UnpublishOutcome ε → Bool
  | .ok => true
  | .refused _ _ _ => false

/-- The same outcome, where failures are seen otherwise. -/
def map {ε' : Type} (raised : ε → ε') : UnpublishOutcome ε → UnpublishOutcome ε'
  | .ok => .ok
  | .refused e gone unlisted => .refused (raised e) gone unlisted

variable [DecidableEq κ]

/-- The records after it. -/
def records (o : UnpublishOutcome ε) (name : κ) (records : κ → Option ρ) : κ → Option ρ :=
  if o.gone then Function.update records name none else records

/-- The list after it. -/
def ledger (o : UnpublishOutcome ε) (name : κ) (ledger : List κ) : List κ :=
  if o.unlisted then ledger.filter fun line => decide (line ≠ name) else ledger

end UnpublishOutcome

end Outcomes

section Verbs

variable {s s' : Sharepoints} {name : List UInt8} {reply : HelperReply}

/-- A publishing with this outcome, over no record if it is done. -/
structure PublishesAs (s : Sharepoints) (name : List UInt8) (reply : HelperReply)
    (s' : Sharepoints) (o : PublishOutcome SharepointRecord Unit) : Prop where
  reply : o.isOk = true ↔ reply = .ok
  records : s'.records = o.records name s.records
  ledger : s'.ledger = o.ledger name s.ledger
  fresh : o.isOk = true → s.records name = none

/-- An unpublishing with this outcome, of a name that is on the list if it is done. -/
structure UnpublishesAs (s : Sharepoints) (name : List UInt8) (reply : HelperReply)
    (s' : Sharepoints) (o : UnpublishOutcome Unit) : Prop where
  reply : o.isOk = true ↔ reply = .ok
  records : s'.records = o.records name s.records
  ledger : s'.ledger = o.ledger name s.ledger
  listed : o.isOk = true → name ∈ s.ledger

/-- Nothing was done. -/
theorem publishesAs_nothing {token : String} (hrecords : s'.records = s.records)
    (hledger : s'.ledger = s.ledger) :
    ∃ o, PublishesAs s name (.err token) s' o :=
  ⟨.refused () none false, ⟨⟨(fun h => nomatch h), fun h => nomatch h⟩, hrecords, hledger,
    fun h => nomatch h⟩⟩

theorem unpublishesAs_nothing {token : String} (hrecords : s'.records = s.records)
    (hledger : s'.ledger = s.ledger) :
    ∃ o, UnpublishesAs s name (.err token) s' o :=
  ⟨.refused () false false, ⟨⟨(fun h => nomatch h), fun h => nomatch h⟩, hrecords, hledger,
    fun h => nomatch h⟩⟩

/-- Looking for a record changes neither the records nor the list. -/
theorem exists_keeps {found : Bool} (h : sharepointMachine (.sharepointExists name) s found s') :
    found = (s.records name).isSome ∧ s'.records = s.records ∧ s'.ledger = s.ledger := by
  rcases h with ⟨hfound, hstate⟩
  refine ⟨hfound, ?_⟩
  by_cases hsome : (s.records name).isSome = true
  · rw [if_pos hsome] at hstate
    rw [hstate]
    exact ⟨rfl, rfl⟩
  · rw [if_neg hsome] at hstate
    rw [hstate]
    exact ⟨rfl, rfl⟩

/-- A record is made and taken back, or not: the records are as they were, or it is left. -/
theorem taken_back {records : List UInt8 → Option SharepointRecord} {record : SharepointRecord}
    (hfresh : records name = none) :
    Function.update (Function.update records name (some record)) name none = records := by
  rw [Function.update_idem, ← hfresh, Function.update_eq_self]

/-- `share.publish`, when the path may be shared. -/
theorem always_publishFolder (resolved : List UInt8) (readOnly : Bool) :
    Always sharepointMachine (publishFolder name resolved readOnly)
      (fun r s' => ∀ reply, r = .ok reply → ∃ o, PublishesAs s name reply s' o) s := by
  intro found s₁ h₁
  rcases exists_keeps h₁ with ⟨hfound, hrecords₁, hledger₁⟩
  cases found with
  | true =>
      rintro listed s₂ ⟨-, rfl⟩ reply hreply
      cases hreply
      exact publishesAs_nothing hrecords₁ hledger₁
  | false =>
      have hfresh : s.records name = none := by
        rw [← Option.not_isSome_iff_eq_none, ← hfound]
        exact Bool.false_ne_true
      intro _ s₂ h₂ found s₃ h₃
      rcases exists_keeps h₃ with ⟨hfound₃, hrecords₃, hledger₃⟩
      rcases h₂ with rfl | ⟨path, shown, rfl⟩
      · -- nothing was made, and nothing is found
        have hnone : found = false := by
          rw [hfound₃, hrecords₁, hfresh, Option.isSome_none]
        subst hnone
        intro reply hreply
        cases hreply
        exact publishesAs_nothing (hrecords₃.trans hrecords₁) (hledger₃.trans hledger₁)
      · rw [setRecord_self, Option.isSome_some] at hfound₃
        subst hfound₃
        have hmade : s₃.records = Function.update s.records name
            (some { path := path, readOnly := shown, maker := .helper }) := by
          rw [hrecords₃, ← hrecords₁]
          rfl
        have hlist : s₃.ledger = s.ledger := hledger₃.trans hledger₁
        intro written s₄ h₄
        cases written with
        | true =>
            intro reply hreply
            cases hreply
            rcases h₄ with rfl | ⟨hwritten, -⟩
            · refine ⟨.ok { path := path, readOnly := shown, maker := .helper },
                ⟨fun _ => rfl, fun _ => rfl⟩, hmade, ?_, fun _ => hfresh⟩
              rw [hlist]
              rfl
            · exact nomatch hwritten
        | false =>
            have hlisted : ∃ listed : Bool, s₄.records = s₃.records ∧
                s₄.ledger = if listed then s.ledger ++ [name] else s.ledger := by
              rcases h₄ with rfl | ⟨-, rfl⟩
              · exact ⟨true, rfl, by rw [hlist, if_pos rfl]⟩
              · exact ⟨false, rfl, by rw [hlist, if_neg Bool.false_ne_true]⟩
            rcases hlisted with ⟨listed, hrecords₄, hledger₄⟩
            intro _ s₅ h₅ found s₆ h₆ reply hreply
            cases hreply
            rcases exists_keeps h₆ with ⟨-, hrecords₆, hledger₆⟩
            rcases h₅ with rfl | rfl
            · exact ⟨.refused ()
                (some { path := path, readOnly := shown, maker := .helper }) listed,
                ⟨(fun h => nomatch h), fun h => nomatch h⟩,
                hrecords₆.trans (hrecords₄.trans hmade), hledger₆.trans hledger₄,
                fun h => nomatch h⟩
            · refine ⟨.refused () none listed, ⟨(fun h => nomatch h), fun h => nomatch h⟩, ?_,
                hledger₆.trans hledger₄, fun h => nomatch h⟩
              rw [hrecords₆]
              change Function.update s₄.records name none = s.records
              rw [hrecords₄, hmade, taken_back hfresh]

/-- `share.publish` comes to an outcome for the name it is given, or to nothing. -/
theorem exec_sharePublish {req : HelperRequest}
    (h : Exec sharepointMachine (sharePublish req) s (.ok reply) s') :
    (publishArgs req = none ∧ reply = .err "args" ∧ s' = s) ∨
      ∃ form name path readOnly, publishArgs req = some (form, name, path, readOnly) ∧
        ∃ o, PublishesAs s name reply s' o := by
  revert h
  unfold sharePublish
  cases publishArgs req with
  | none =>
      intro h
      cases h
      exact Or.inl ⟨rfl, rfl, rfl⟩
  | some args =>
      rcases args with ⟨form, name, path, readOnly⟩
      intro h
      refine Or.inr ⟨form, name, path, readOnly, rfl, ?_⟩
      -- Whatever the answers, the steps leave one of the outcomes.
      refine always_exec (Q := fun r s' => ∀ reply, r = .ok reply →
        ∃ o, PublishesAs s name reply s' o) ?_ h reply rfl
      rintro verified _ rfl
      cases verified with
      | false =>
          rintro reply ⟨⟩
          exact publishesAs_nothing rfl rfl
      | true =>
          rintro report _ rfl
          cases report with
          | none =>
              rintro reply ⟨⟩
              exact publishesAs_nothing rfl rfl
          | some report =>
              change Always sharepointMachine
                (if report.verdict = .ok then publishFolder name report.resolved readOnly
                  else pure (.err report.verdict.token)) _ _
              -- The folder's verdict decides before anything is written.
              by_cases hok : report.verdict = .ok
              · rw [if_pos hok]
                exact always_publishFolder report.resolved readOnly
              · rw [if_neg hok]
                rintro reply ⟨⟩
                exact publishesAs_nothing rfl rfl

/-- `share.unpublish`, when the name and the grant are right. -/
theorem always_unpublishName :
    Always sharepointMachine (unpublishName name)
      (fun r s' => ∀ reply, r = .ok reply → ∃ o, UnpublishesAs s name reply s' o) s := by
  rintro listed t ⟨hlisted, hsame⟩
  subst t
  cases listed with
  | false =>
      rintro reply ⟨⟩
      exact unpublishesAs_nothing rfl rfl
  | true =>
      intro _ s₁ h₁ found s₂ h₂
      rcases exists_keeps h₂ with ⟨hfound, hrecords₂, hledger₂⟩
      have hgone : ∃ gone : Bool, s₁.ledger = s.ledger ∧
          s₁.records = if gone then Function.update s.records name none else s.records := by
        rcases h₁ with rfl | rfl
        · exact ⟨false, rfl, (if_neg Bool.false_ne_true).symm⟩
        · exact ⟨true, rfl, (if_pos rfl).symm⟩
      rcases hgone with ⟨gone, hledger₁, hrecords₁⟩
      cases found with
      | true =>
          rintro reply ⟨⟩
          exact ⟨.refused () gone false, ⟨(fun h => nomatch h), fun h => nomatch h⟩,
            hrecords₂.trans hrecords₁, hledger₂.trans hledger₁, fun h => nomatch h⟩
      | false =>
          -- nothing is found, so the record is gone, whoever took it away
          have hnone : Function.update s.records name none = s₂.records := by
            have hmissing : s₁.records name = none := by
              rw [← Option.not_isSome_iff_eq_none, ← hfound]
              exact Bool.false_ne_true
            rw [hrecords₂, hrecords₁]
            cases gone with
            | true => rfl
            | false =>
                rw [hrecords₁] at hmissing
                have hsame : s.records name = none := hmissing
                rw [← hsame, Function.update_eq_self]
                rfl
          intro written s₃ h₃
          have hledger₃ : s₂.ledger = s.ledger := hledger₂.trans hledger₁
          cases written with
          | true =>
              rintro reply ⟨⟩
              rcases h₃ with rfl | ⟨hwritten, -⟩
              · refine ⟨.ok, ⟨fun _ => rfl, fun _ => rfl⟩, hnone.symm, ?_, fun _ => hlisted rfl⟩
                rw [hledger₃]
                rfl
              · exact nomatch hwritten
          | false =>
              rintro reply ⟨⟩
              rcases h₃ with rfl | ⟨-, rfl⟩
              · refine ⟨.refused () true true, ⟨(fun h => nomatch h), fun h => nomatch h⟩,
                  hnone.symm, ?_, fun h => nomatch h⟩
                rw [hledger₃]
                rfl
              · exact ⟨.refused () true false, ⟨(fun h => nomatch h), fun h => nomatch h⟩,
                  hnone.symm, hledger₃, fun h => nomatch h⟩

/-- `share.unpublish` comes to an outcome for a name, or to nothing. -/
theorem exec_shareUnpublish {req : HelperRequest}
    (h : Exec sharepointMachine (shareUnpublish req) s (.ok reply) s') :
    (reply = .err "args" ∧ s' = s) ∨ ∃ name, req.args = [name] ∧
      ∃ o, UnpublishesAs s name reply s' o := by
  revert h
  unfold shareUnpublish
  split
  · rename_i form name hform hargs
    by_cases hok : shareNameOk name = true
    · rw [if_pos hok]
      intro h
      refine Or.inr ⟨name, hargs, ?_⟩
      -- Whatever the answers, the steps leave one of the outcomes.
      refine always_exec (Q := fun r s' => ∀ reply, r = .ok reply →
        ∃ o, UnpublishesAs s name reply s' o) ?_ h reply rfl
      rintro verified _ rfl
      cases verified with
      | false =>
          rintro reply ⟨⟩
          exact unpublishesAs_nothing rfl rfl
      | true => exact always_unpublishName
    · rw [if_neg hok]
      intro h
      cases h
      exact Or.inl ⟨rfl, rfl⟩
  · intro h
    cases h
    exact Or.inl ⟨rfl, rfl⟩

end Verbs

end Smbpal
