import Smbpal.Agent.Held
import Smbpal.Mounts.Apply
import Smbpal.Mounts.Identity

/-!
# The Loop's Own Mounts

What `build_reconnector` gives the loop to mount a row with: the URL of the
row's share, and `AgentDispatcher.mount_url`, which answers with a mount that is
there already and otherwise asks the Keychain and NetFS.

The system may answer anything. But a row itself can end its mount with an
exception that is no `SmbpalError`, and that nothing in a pass catches: where its
URL cannot be made, or cannot be read back, and where its host or its account
has no UTF-8 to hand on (`mountRow_raised_iff`).

## Main definitions

* `MountAnswers`: What the system answers while a row is mounted.
* `rowAddress`: The URL of a row, and the key that is read in it.
* `Reconnector.mountRow`: The mount of a row.
* `AgentPass`, `AgentEvent`: What the world does to the agent's loop.
* `RowWritten`, `Reconnector.CanMount`: A row that can be mounted.

## Theorems

* `mountRow_raised_iff`: When the mount of a row raises what is not caught.
-/

namespace Smbpal

open Lib

/-- What a `NetFSError` says. -/
structure NetfsRefusal where
  message : Str
  retryable : Bool
  state : StateWord

/-- What the system answers while a row is mounted. A password the Keychain has
    is taken to be text. -/
structure MountAnswers where
  /-- The mount table, when the share is looked for in it. -/
  table : List SmbMount
  /-- Whether the Keychain has a password, or what a `KeychainError` says. -/
  keychain : Except Str Bool
  /-- Where NetFS mounted the share, or why it did not. -/
  netfs : Except NetfsRefusal Str
  took : Rat

/-- `keychain.get_password`, on a host that is not empty: none when it went
    well. -/
def getPassword (host account : Str) (answers : MountAnswers) : Option MountOutcome :=
  if encode host = none ∨ encode account = none then some .raised
  else
    match answers.keychain with
    | .ok _ => none
    | .error message => some (.smbpal message)

/-- `netfs.mount`: the URL and the account, if there is one, are handed on as
    UTF-8. -/
def netfsMount (url : Str) (account : Option Str) (answers : MountAnswers) : MountOutcome :=
  if encode url = none ∨ encode (account.getD []) = none then .raised
  else
    match answers.netfs with
    | .ok mountpoint => .mounted mountpoint
    | .error refusal => .netfs refusal.message refusal.retryable refusal.state

/-- `_mount_now`, with no password at hand. -/
def mountNow (url host : Str) (account : Option Str) (answers : MountAnswers) : MountOutcome :=
  match account with
  | none => netfsMount url none answers
  | some user =>
      -- the URL of an empty host has no hostname to fall back on
      if host = [] then netfsMount url (some user) answers
      else
        match getPassword host user answers with
        | some outcome => outcome
        | none => netfsMount url (some user) answers

section Own

variable [Unicode]

/-- The URL of a row, and the key `mount_url` reads in it. -/
def rowAddress (nfkc : Str → Str) (c : Connection) : Except Exc (Str × MountKey) := do
  let url ← netfsSmbUrl (pyStr c.host) (pyStr c.share)
  let key ← keyForUrl nfkc url
  return (url, key)

/-- The mount of a share that `mount_url` finds. -/
def Reconnector.alreadyAt (r : Reconnector) (table : List SmbMount) (key : MountKey) :
    Option SmbMount :=
  table.find? fun m => decide (m.ownerUid = r.uid) && decide (m.key = key)

/-- `mount`, as `build_reconnector` has it. -/
def Reconnector.mountRow (r : Reconnector) (nfkc : Str → Str) (c : Connection)
    (answers : MountAnswers) : MountOutcome :=
  match rowAddress nfkc c with
  | .error _ => .raised
  | .ok address =>
      match r.alreadyAt answers.table address.2 with
      | some m => .mounted m.mountpoint
      | none => mountNow address.1 (pyStr c.host) (truthy c.credentialAccount) answers

/-- What the mount of a row comes to, and how long it took. -/
def Reconnector.attempt (r : Reconnector) (nfkc : Str → Str) (c : Connection)
    (answers : MountAnswers) : Attempt :=
  { outcome := r.mountRow nfkc c answers, took := answers.took }

/-- What the world does in one pass of the agent's loop. -/
structure AgentPass where
  volumeTrouble : Bool
  networkChanged : Bool
  wall : Rat
  now : Rat
  listed : Except Exc (List Connection)
  mounts : Except Exc (List SmbMount)
  /-- What is answered while the row at a place of the list is mounted. -/
  answers : Nat → MountAnswers

/-- The pass, where the mounts that are tried come to this. -/
def AgentPass.trying (p : AgentPass) (attempts : Nat → Attempt) : PassInput :=
  { volumeTrouble := p.volumeTrouble
    networkChanged := p.networkChanged
    wall := p.wall
    now := p.now
    listed := p.listed
    mounts := p.mounts
    attempts := attempts }

/-- A mount that is not tried. -/
def Attempt.none : Attempt :=
  { outcome := .raised, took := 0 }

/-- The rows a pass goes over, as far as it gets. -/
def AgentPass.rows (p : AgentPass) (r : Reconnector) (s : Loop) : List Connection :=
  (r.rowsOf s (p.trying fun _ => .none)).getD []

/-- The pass, where each row is mounted as the agent mounts it. -/
def AgentPass.input (p : AgentPass) (r : Reconnector) (nfkc : Str → Str) (s : Loop) : PassInput :=
  p.trying fun place =>
    match (p.rows r s)[place]? with
    | some c => r.attempt nfkc c (p.answers place)
    | none => .none

/-- What happens to the agent's loop. -/
inductive AgentEvent where
  | pass (p : AgentPass)
  | released (mountpoint : Str)
  | connected (key : MountKey) (mountpoint : Str)

/-- What that is to the loop. -/
def AgentEvent.event (r : Reconnector) (nfkc : Str → Str) (s : Loop) : AgentEvent → LoopEvent
  | .pass p => .pass (p.input r nfkc s)
  | .released mountpoint => .released mountpoint
  | .connected key mountpoint => .connected key mountpoint

/-- The agent's loop after an event. -/
def Reconnector.agentStep (r : Reconnector) (nfkc : Str → Str) (s : Loop) (e : AgentEvent) : Loop :=
  r.step s (e.event r nfkc s)

omit [Unicode] in
/-- The host and the account, if there is one, of a row have a UTF-8. -/
def RowWritten (c : Connection) : Prop :=
  IsPlain (pyStr c.host) ∧ IsPlain ((truthy c.credentialAccount).getD [])

/-- A row whose mount raises nothing but what is caught: its URL can be made and
    read, and what is handed on has a UTF-8 unless the share is mounted
    already. -/
def Reconnector.CanMount (r : Reconnector) (nfkc : Str → Str) (c : Connection)
    (table : List SmbMount) : Prop :=
  ∃ address, rowAddress nfkc c = .ok address ∧
    (RowWritten c ∨ (r.alreadyAt table address.2).isSome = true)

omit [Unicode] in
theorem isPlain_quoteByte (b : UInt8) : IsPlain (quoteByte b) := by
  unfold quoteByte
  intro c hc
  split at hc
  · exact ⟨_, List.mem_singleton.mp hc⟩
  · simp only [List.mem_cons, List.not_mem_nil, or_false] at hc
    rcases hc with rfl | rfl | rfl
    · exact ⟨_, rfl⟩
    · exact ⟨_, rfl⟩
    · exact ⟨_, rfl⟩

omit [Unicode] in
/-- The URL of a share has a UTF-8 when the host has one. -/
theorem isPlain_netfsSmbUrl {host share url : Str} (h : netfsSmbUrl host share = .ok url) :
    IsPlain url ↔ IsPlain host := by
  have hencode : encode share ≠ none := (netfsSmbUrl_ok_iff host share).mp ⟨url, h⟩
  rcases Option.ne_none_iff_exists'.mp hencode with ⟨bytes, hbytes⟩
  rw [netfsSmbUrl_eq hbytes] at h
  have hquoted : IsPlain (bytes.flatMap quoteByte) := by
    intro c hc
    rcases List.mem_flatMap.mp hc with ⟨b, -, hb⟩
    exact isPlain_quoteByte b c hb
  have htail : IsPlain (chr '/' :: bytes.flatMap quoteByte) :=
    List.forall_mem_cons.mpr ⟨⟨_, rfl⟩, hquoted⟩
  have hhost : IsPlain (urlHost host) ↔ IsPlain host := by
    unfold urlHost
    split
    · rw [isPlain_append, isPlain_append]
      exact ⟨fun h => h.1.2, fun h => ⟨⟨isPlain_str _, h⟩, isPlain_str _⟩⟩
    · exact Iff.rfl
  rw [← Except.ok.inj h, isPlain_append, isPlain_append, hhost]
  exact ⟨fun h => h.2.1, fun h => ⟨isPlain_str _, h, htail⟩⟩

omit [Unicode] in
theorem unwritten_iff (s t : Str) :
    (encode s = none ∨ encode t = none) ↔ ¬(IsPlain s ∧ IsPlain t) := by
  rw [← encode_ne_none_iff, ← encode_ne_none_iff, not_and_or, not_ne_iff, not_ne_iff]

omit [Unicode] in
theorem netfsMount_raised_iff {url : Str} {account : Option Str} {answers : MountAnswers} :
    netfsMount url account answers = .raised ↔ ¬(IsPlain url ∧ IsPlain (account.getD [])) := by
  rw [← unwritten_iff]
  unfold netfsMount
  split
  · rename_i h
    exact ⟨fun _ => h, fun _ => rfl⟩
  · rename_i h
    refine ⟨fun hraised => ?_, fun hnot => absurd hnot h⟩
    split at hraised
    · cases hraised
    · cases hraised

omit [Unicode] in
/-- A mount that is made raises what is not caught where the host or the account
    has no UTF-8, whatever is answered. -/
theorem mountNow_raised_iff {url host share : Str} {account : Option Str}
    {answers : MountAnswers} (hurl : netfsSmbUrl host share = .ok url) :
    mountNow url host account answers = .raised ↔
      ¬(IsPlain host ∧ IsPlain (account.getD [])) := by
  have hmount := @netfsMount_raised_iff url account answers
  rw [isPlain_netfsSmbUrl hurl] at hmount
  unfold mountNow
  cases account with
  | none => exact hmount
  | some user =>
      dsimp only
      -- Without a host nothing is asked of the Keychain.
      split
      · exact hmount
      · unfold getPassword
        by_cases hnone : encode host = none ∨ encode user = none
        · rw [if_pos hnone]
          exact ⟨fun _ => (unwritten_iff host user).mp hnone, fun _ => rfl⟩
        · rw [if_neg hnone]
          cases answers.keychain with
          | ok found => exact hmount
          | error message =>
              refine ⟨fun h => (by cases h), fun h => ?_⟩
              exact absurd ((unwritten_iff host user).mpr h) hnone

theorem rowAddress_url {nfkc : Str → Str} {c : Connection} {address : Str × MountKey}
    (h : rowAddress nfkc c = .ok address) :
    netfsSmbUrl (pyStr c.host) (pyStr c.share) = .ok address.1 := by
  unfold rowAddress at h
  cases hmade : netfsSmbUrl (pyStr c.host) (pyStr c.share) with
  | error e =>
      rw [hmade] at h
      cases h
  | ok url =>
      rw [hmade] at h
      change (keyForUrl nfkc url >>= fun key => pure (url, key)) = .ok address at h
      cases hkey : keyForUrl nfkc url with
      | error e =>
          rw [hkey] at h
          cases h
      | ok key =>
          rw [hkey] at h
          rw [← Except.ok.inj h]

/-- The mount of a row raises what is not caught exactly when the row cannot be
    mounted. -/
theorem mountRow_raised_iff {r : Reconnector} {nfkc : Str → Str} {c : Connection}
    {answers : MountAnswers} :
    r.mountRow nfkc c answers = .raised ↔ ¬r.CanMount nfkc c answers.table := by
  unfold Reconnector.mountRow Reconnector.CanMount
  -- A URL that cannot be made or read back raises before anything is looked up.
  cases haddress : rowAddress nfkc c with
  | error e =>
      refine ⟨fun _ => ?_, fun _ => rfl⟩
      rintro ⟨address, heq, -⟩
      cases heq
  | ok address =>
      dsimp only
      -- A share that is there already is answered without being written anywhere.
      cases hfound : r.alreadyAt answers.table address.2 with
      | some m =>
          refine ⟨fun h => (by cases h), fun h => absurd ⟨address, rfl, Or.inr ?_⟩ h⟩
          rw [hfound]
          rfl
      | none =>
          dsimp only
          rw [mountNow_raised_iff (rowAddress_url haddress)]
          constructor
          · rintro h ⟨address', heq, hwritten | hsome⟩
            · exact h hwritten
            · rw [← Except.ok.inj heq, hfound] at hsome
              exact Bool.false_ne_true hsome
          · exact fun h hwritten => h ⟨address, rfl, Or.inl hwritten⟩

end Own

end Smbpal
