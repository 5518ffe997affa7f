import Mathlib.Data.List.Nodup
import Smbpal.Lib.Run
import Smbpal.Mounts.Volumes

/-!
# The Agent's Mount Ledger

Which of a user's mounts SMBPal made: `agent/ledger.py`, and the mounting, unmounting and
releasing of `agent/handlers.py` around it.

The ledger knows a mount by the id of its filesystem. It is pruned against the mount table
when a mount is recorded and at no other time, and the mount that an unmount has taken away
is looked for in a table it has left (`disconnected_stays_in_ledger`). So an entry may
outlive its mount, and when the system gives its id to a mount of somebody else's, a release
takes that mount for SMBPal's and unmounts it.

As long as no mount is given an id the ledger holds or put on top of a mount it holds, no
unmount asks for a mount it holds, and no release comes while an entry has lost its mount,
the ledger is true: a release takes away mounts of SMBPal's and no others, what a request
has taken away is forgotten, and whenever the ledger answers or records, each entry is of
a mount that is there and that SMBPal made.

Requests come one after another, and mounts are made and lost in between. The table lists
mounts in the order they were made, so the last at a path is on top. Who made a mount is
kept here; the program does not have it.

## Main definitions

* `MountLedger.record`, `MountLedger.owns`, `MountLedger.forget`: The ledger.
* `AgentMounts`: The mount table and the ledger.
* `AgentMounts.mountUrl`, `AgentMounts.unmountRequest`, `AgentMounts.release`: The requests.
* `AgentMounts.Kept`: What a step must meet.
* `AgentMounts.LedgerTrue`: The ledger is true after a step.

## Theorems

* `sound_step`: The invariant, over one step.
* `unmountRequest_keeps`: What a disconnect takes away stays in the ledger.
* `ledger_stays_true`: The ledger is true after every step of such runs.
* `disconnected_stays_in_ledger`: A run in which it is not.
-/

namespace Smbpal

open Lib

section Ledger

/-- One mount SMBPal made, as the ledger has it. -/
structure LedgerEntry where
  host : Str
  share : Str
  mountpoint : Str
  fsid : Nat × Nat
  deriving DecidableEq

/-- What is written of a mount. -/
def SmbMount.entry (m : SmbMount) : LedgerEntry :=
  { host := m.host
    share := m.share
    mountpoint := m.mountpoint
    fsid := m.fsid }

/-- `MountLedger._entries`. -/
abbrev MountLedger := List LedgerEntry

/-- `MountLedger._prune`, against what is mounted. -/
def MountLedger.prune (l : MountLedger) (mounts : List SmbMount) : MountLedger :=
  l.filter fun e => decide (e.fsid ∈ mounts.map SmbMount.fsid)

/-- `MountLedger.owns`. -/
def MountLedger.owns (l : MountLedger) (m : SmbMount) : Bool :=
  l.any fun e => decide (e.fsid = m.fsid)

/-- `MountLedger.record`. -/
def MountLedger.record (l : MountLedger) (mounts : List SmbMount) (m : SmbMount) : MountLedger :=
  let kept := l.prune mounts
  if kept.owns m then kept else kept ++ [m.entry]

/-- `MountLedger.forget`. -/
def MountLedger.forget (l : MountLedger) (m : SmbMount) : MountLedger :=
  l.filter fun e => decide (e.fsid ≠ m.fsid)

theorem MountLedger.owns_iff {l : MountLedger} {m : SmbMount} :
    l.owns m = true ↔ ∃ e ∈ l, e.fsid = m.fsid := by
  unfold MountLedger.owns
  rw [List.any_eq_true]
  simp only [decide_eq_true_eq]

theorem MountLedger.mem_forget {l : MountLedger} {m : SmbMount} {e : LedgerEntry} :
    e ∈ l.forget m ↔ e ∈ l ∧ e.fsid ≠ m.fsid := by
  unfold MountLedger.forget
  rw [List.mem_filter, decide_eq_true_eq]

theorem MountLedger.mem_prune {l : MountLedger} {mounts : List SmbMount} {e : LedgerEntry} :
    e ∈ l.prune mounts ↔ e ∈ l ∧ ∃ m ∈ mounts, m.fsid = e.fsid := by
  unfold MountLedger.prune
  rw [List.mem_filter, decide_eq_true_eq, List.mem_map]

/-- What the ledger holds when a mount has been recorded. -/
theorem MountLedger.mem_record {l : MountLedger} {mounts : List SmbMount} {m : SmbMount}
    {e : LedgerEntry} (h : e ∈ l.record mounts m) :
    (e ∈ l ∧ ∃ m ∈ mounts, m.fsid = e.fsid) ∨ e = m.entry := by
  unfold MountLedger.record at h
  dsimp only at h
  split at h
  · exact Or.inl (MountLedger.mem_prune.mp h)
  · rcases List.mem_append.mp h with hkept | hnew
    · exact Or.inl (MountLedger.mem_prune.mp hkept)
    · exact Or.inr (List.mem_singleton.mp hnew)

/-- A mount, and whether SMBPal made it. -/
structure Volume where
  mount : SmbMount
  made : Bool
  deriving DecidableEq

/-- The mount is at this path. -/
def Volume.isAt (path : Str) (v : Volume) : Bool :=
  decide (v.mount.mountpoint = path)

/-- The mount that an unmount of this path takes away: the last that was made there. -/
def topAt (path : Str) (table : List Volume) : Option Volume :=
  table.reverse.find? (Volume.isAt path)

/-- The table without it. -/
def withoutTop (path : Str) (table : List Volume) : List Volume :=
  (table.reverse.eraseP (Volume.isAt path)).reverse

theorem topAt_append (path : Str) (table : List Volume) (v : Volume) :
    topAt path (table ++ [v]) = if v.mount.mountpoint = path then some v else topAt path table := by
  unfold topAt
  rw [List.reverse_append, List.reverse_singleton, List.singleton_append, List.find?_cons]
  by_cases h : v.mount.mountpoint = path
  · rw [if_pos h, Volume.isAt, decide_eq_true h]
  · rw [if_neg h, Volume.isAt, decide_eq_false h]

theorem mem_of_topAt {path : Str} {table : List Volume} {v : Volume}
    (h : topAt path table = some v) : v ∈ table ∧ v.mount.mountpoint = path := by
  have hat := List.find?_some h
  exact ⟨List.mem_reverse.mp (List.mem_of_find?_eq_some h), decide_eq_true_eq.mp hat⟩

theorem withoutTop_sublist (path : Str) (table : List Volume) :
    (withoutTop path table).Sublist table := by
  have h : (withoutTop path table).Sublist table.reverse.reverse := List.eraseP_sublist.reverse
  rwa [List.reverse_reverse] at h

theorem mem_withoutTop {path : Str} {table : List Volume} {v : Volume}
    (h : v ∈ withoutTop path table) : v ∈ table :=
  (withoutTop_sublist path table).mem h

/-- The mount on top goes. -/
theorem not_mem_withoutTop {path : Str} {table : List Volume} {v : Volume}
    (hnodup : table.Nodup) (h : topAt path table = some v) : v ∉ withoutTop path table := by
  unfold withoutTop
  unfold topAt at h
  rw [List.mem_reverse]
  -- The topmost of a path is the first from the end, and erasing takes one only.
  have hrev : table.reverse.Nodup := List.nodup_reverse.mpr hnodup
  generalize table.reverse = l at h hrev
  induction l with
  | nil => cases h
  | cons u l ih =>
      rcases List.nodup_cons.mp hrev with ⟨hu, hrest⟩
      rw [List.find?_cons] at h
      rw [List.eraseP_cons]
      by_cases hat : u.isAt path = true
      · rw [hat] at h ⊢
        rw [cond_true]
        cases h
        exact hu
      · have hne : v ≠ u := by
          intro heq
          rw [Bool.not_eq_true] at hat
          rw [hat] at h
          exact Bool.eq_false_iff.mp hat (heq ▸ List.find?_some h)
        rw [Bool.not_eq_true] at hat
        rw [hat] at h ⊢
        rw [cond_false, List.mem_cons, not_or]
        exact ⟨hne, ih h hrest⟩

/-- Only the mount on top goes. -/
theorem mem_withoutTop_or (path : Str) {table : List Volume} {v : Volume} (h : v ∈ table) :
    v ∈ withoutTop path table ∨ topAt path table = some v := by
  unfold withoutTop topAt
  rw [List.mem_reverse]
  have hrev : v ∈ table.reverse := List.mem_reverse.mpr h
  generalize table.reverse = l at hrev
  induction l with
  | nil => cases hrev
  | cons u l ih =>
      rw [List.eraseP_cons, List.find?_cons]
      -- The first match is what goes, and everything else stays.
      by_cases hu : u.isAt path = true
      · rw [hu, cond_true]
        rcases List.mem_cons.mp hrev with heq | hmem
        · exact Or.inr (congrArg some heq.symm)
        · exact Or.inl hmem
      · rw [Bool.not_eq_true] at hu
        rw [hu, cond_false]
        rcases List.mem_cons.mp hrev with heq | hmem
        · exact Or.inl (List.mem_cons.mpr (Or.inl heq))
        · rcases ih hmem with hin | htop
          · exact Or.inl (List.mem_cons_of_mem _ hin)
          · exact Or.inr htop

/-- What is on top elsewhere stays. -/
theorem topAt_withoutTop {path other : Str} (h : other ≠ path) (table : List Volume) :
    topAt other (withoutTop path table) = topAt other table := by
  unfold withoutTop topAt
  rw [List.reverse_reverse]
  generalize table.reverse = l
  induction l with
  | nil => rfl
  | cons u l ih =>
      rw [List.eraseP_cons]
      by_cases hu : u.isAt path = true
      · have hother : u.isAt other = false :=
          decide_eq_false fun heq => h (heq.symm.trans (decide_eq_true_eq.mp hu))
        rw [hu, cond_true, List.find?_cons, hother]
      · rw [Bool.not_eq_true] at hu
        rw [hu, cond_false, List.find?_cons, List.find?_cons, ih]

/-- What is on top stays when another mount goes. -/
theorem topAt_filter {path : Str} {table : List Volume} {v : Volume} {p : Volume → Bool}
    (h : topAt path table = some v) (hv : p v = true) :
    topAt path (table.filter p) = some v := by
  unfold topAt at h ⊢
  rw [← List.filter_reverse]
  generalize table.reverse = l at h
  induction l with
  | nil => cases h
  | cons u l ih =>
      rw [List.find?_cons] at h
      rw [List.filter_cons]
      -- Whatever is filtered out before the match is not at the path.
      by_cases hu : u.isAt path = true
      · rw [hu] at h
        cases h
        rw [if_pos hv, List.find?_cons, hu]
      · rw [Bool.not_eq_true] at hu
        rw [hu] at h
        split
        · rw [List.find?_cons, hu]
          exact ih h
        · exact ih h

/-- The mount table and the ledger, with what the request at work has taken away and the
    table and the ledger at each moment at which the ledger answered or recorded. -/
structure AgentMounts where
  table : List Volume
  ledger : MountLedger
  taken : List Volume
  moments : List (List Volume × MountLedger)
  deriving DecidableEq

/-- What NetFS did: the mount it made, and where it says it is. -/
structure NetfsAnswer where
  mounted : Option SmbMount
  answer : Except Exc Str

/-- What a mount is answered. -/
structure MountReply where
  mountpoint : Str
  already : Bool
  deriving DecidableEq

/-- What an unmount is answered. -/
structure UnmountReply where
  mountpoint : Str
  unmounted : Bool
  mountpoints : List Str
  deriving DecidableEq

/-- Why a release left a mount. -/
inductive LeftReason where
  | notOurs
  | busy (detail : Str)
  deriving DecidableEq

/-- What a release is answered. -/
structure ReleaseReply where
  unmounted : List Str
  left : List (Str × LeftReason)
  deriving DecidableEq

namespace AgentMounts

/-- `self.mounts()`. -/
def mounts (w : AgentMounts) : List SmbMount :=
  w.table.map Volume.mount

/-- The ledger answers. -/
def answering (w : AgentMounts) : AgentMounts :=
  { w with moments := w.moments ++ [(w.table, w.ledger)] }

/-- The ledger records. -/
def record (w : AgentMounts) (m : SmbMount) : AgentMounts :=
  { w with ledger := w.ledger.record w.mounts m }.answering

/-- The ledger forgets. -/
def forget (w : AgentMounts) (m : SmbMount) : AgentMounts :=
  { w with ledger := w.ledger.forget m }

/-- A mount is made. -/
def add (w : AgentMounts) (m : SmbMount) (made : Bool) : AgentMounts :=
  { w with table := w.table ++ [{ mount := m, made := made }] }

/-- `unmount(2)`, where the system does not refuse. -/
def unmount (w : AgentMounts) (path : Str) : AgentMounts :=
  match topAt path w.table with
  | some v => { w with table := withoutTop path w.table, taken := w.taken ++ [v] }
  | none => w

section Requests

variable [Unicode] (uid : Nat)

/-- The mount is this user's, and of this share. -/
def own (key : MountKey) (m : SmbMount) : Bool :=
  decide (m.ownerUid = uid ∧ m.key = key)

/-- The mount of the share that a mount request finds. -/
def existing (w : AgentMounts) (key : MountKey) : Option SmbMount :=
  w.mounts.find? (own uid key)

/-- `_remember`. -/
def remember (w : AgentMounts) (key : MountKey) (path : Str) : AgentMounts :=
  match w.mounts.find? fun m => own uid key m && decide (m.mountpoint = path) with
  | some m => w.record m
  | none => w

/-- `_mount_now`. -/
def mountNow (w : AgentMounts) (key : MountKey) (netfs : NetfsAnswer) :
    AgentMounts × Except Exc MountReply :=
  let w := match netfs.mounted with
    | some m => w.add m true
    | none => w
  match netfs.answer with
  | .error e => (w, .error e)
  | .ok path => (w.remember uid key path, .ok { mountpoint := path, already := false })

/-- `mount_url`. -/
def mountUrl (w : AgentMounts) (key : MountKey) (netfs : NetfsAnswer) :
    AgentMounts × Except Exc MountReply :=
  match w.existing uid key with
  | some m => (w, .ok { mountpoint := m.mountpoint, already := true })
  | none => w.mountNow uid key netfs

/-- The loop of `_release` over what is mounted, with what the system refuses each unmount
    with, if it does. -/
def releaseFrom (key : MountKey) :
    List SmbMount → List (Option SmbpalError) → AgentMounts → ReleaseReply →
      AgentMounts × ReleaseReply
  | [], _, w, reply => (w, reply)
  | m :: ms, refusals, w, reply =>
      if own uid key m = false then releaseFrom key ms refusals w reply
      else if w.ledger.owns m = false then
        releaseFrom key ms refusals w.answering
          { reply with left := reply.left ++ [(m.mountpoint, .notOurs)] }
      else
        match refusals.headD none with
        | some e =>
            releaseFrom key ms refusals.tail w.answering
              { reply with left := reply.left ++ [(m.mountpoint, .busy e.message)] }
        | none =>
            releaseFrom key ms refusals.tail ((w.answering.unmount m.mountpoint).forget m)
              { reply with unmounted := reply.unmounted ++ [m.mountpoint] }

/-- `_release`. -/
def release (w : AgentMounts) (key : MountKey) (refusals : List (Option SmbpalError)) :
    AgentMounts × ReleaseReply :=
  releaseFrom uid key w.mounts refusals w { unmounted := [], left := [] }

/-- What an unmount request tries: the paths of the share it names, or the path it names
    where the share is not mounted. -/
def targets (w : AgentMounts) (mountpoint : Str) (key : Option MountKey) : List Str :=
  let found := match key with
    | some key => (w.mounts.filter (own uid key)).map SmbMount.mountpoint
    | none => []
  if found = [] then [mountpoint] else found

/-- Unmount each, up to the first that is refused, and say where something was mounted. -/
def unmountEach :
    List Str → List (Option SmbpalError) → AgentMounts → List Str →
      AgentMounts × Except Exc (List Str)
  | [], _, w, unmounted => (w, .ok unmounted)
  | path :: paths, refusals, w, unmounted =>
      match refusals.headD none with
      | some e => (w, .error (.smbpal e))
      | none =>
          unmountEach paths refusals.tail (w.unmount path)
            (if (topAt path w.table).isSome then unmounted ++ [path] else unmounted)

/-- `_unmount`. -/
def unmountRequest (w : AgentMounts) (mountpoint : Str) (key : Option MountKey)
    (refusals : List (Option SmbpalError)) : AgentMounts × Except Exc UnmountReply :=
  match unmountEach (w.targets uid mountpoint key) refusals w [] with
  | (w, .error e) => (w, .error e)
  | (w, .ok unmounted) =>
      ((w.mounts.filter fun m => decide (m.mountpoint ∈ unmounted)).foldl forget w,
        .ok
          { mountpoint := unmounted.headD mountpoint
            unmounted := !unmounted.isEmpty
            mountpoints := unmounted })

end Requests

section Runs

variable [Unicode] (uid : Nat)

/-- What happens: a request, or somebody else makes a mount, or a mount is lost. -/
inductive Event where
  | mount (key : MountKey) (netfs : NetfsAnswer)
  | unmount (mountpoint : Str) (key : Option MountKey) (refusals : List (Option SmbpalError))
  | release (key : MountKey) (refusals : List (Option SmbpalError))
  | mountedOutside (m : SmbMount)
  | lost (fsid : Nat × Nat)

/-- What has been taken away and answered counts anew. -/
def turn (w : AgentMounts) : AgentMounts :=
  { w with taken := [], moments := [] }

/-- One step. -/
def step (w : AgentMounts) : Event → AgentMounts
  | .mount key netfs => (w.turn.mountUrl uid key netfs).1
  | .unmount mountpoint key refusals => (w.turn.unmountRequest uid mountpoint key refusals).1
  | .release key refusals => (w.turn.release uid key refusals).1
  | .mountedOutside m => w.turn.add m false
  | .lost fsid =>
      { w.turn with table := w.table.filter fun v => decide (v.mount.fsid ≠ fsid) }

/-- The mounts a step makes. -/
def makes (w : AgentMounts) : Event → Option SmbMount
  | .mount key netfs => if (w.existing uid key).isSome then none else netfs.mounted
  | .mountedOutside m => some m
  | _ => none

/-- No two mounts have one id at one time. -/
def Possible (w : AgentMounts) (e : Event) : Prop :=
  ∀ m, w.makes uid e = some m → ∀ v ∈ w.table, v.mount.fsid ≠ m.fsid

/-- A step the system can take. -/
def Steps (w : AgentMounts) (e : Event) (w' : AgentMounts) : Prop :=
  w.Possible uid e ∧ w' = w.step uid e

/-- The ledger holds the id of this mount. -/
def Holds (w : AgentMounts) (m : SmbMount) : Prop :=
  ∃ e ∈ w.ledger, e.fsid = m.fsid

/-- The paths at which an unmount is tried, up to the first that is refused. -/
def tried : List (Option SmbpalError) → List Str → List Str
  | _, [] => []
  | refusals, path :: paths =>
      match refusals.headD none with
      | some _ => []
      | none => path :: tried refusals.tail paths

/-- No entry has lost its mount. -/
def NoneLost (w : AgentMounts) : Prop :=
  ∀ e ∈ w.ledger, ∃ v ∈ w.table, v.mount.fsid = e.fsid

/-- What a step must meet. -/
def Kept (w : AgentMounts) : Event → Prop
  | .unmount mountpoint key refusals =>
      ∀ v ∈ w.table, w.Holds v.mount →
        v.mount.mountpoint ∉ tried refusals (w.targets uid mountpoint key)
  | .release key _ => (∃ v ∈ w.table, own uid key v.mount = true) → w.NoneLost
  | e =>
      ∀ m, w.makes uid e = some m →
        ¬w.Holds m ∧ ∀ v ∈ w.table, w.Holds v.mount → v.mount.mountpoint ≠ m.mountpoint

/-- An unmount or a release is asked for. -/
def Event.takesAway : Event → Prop
  | .unmount _ _ _ => True
  | .release _ _ => True
  | _ => False

/-- A release is asked for. -/
def Event.releases : Event → Prop
  | .release _ _ => True
  | _ => False

/-- Whenever the ledger has answered or recorded, each entry was of a mount of SMBPal's that
    was there. -/
def Current (w : AgentMounts) : Prop :=
  ∀ moment ∈ w.moments, ∀ e ∈ moment.2, ∃ v ∈ moment.1, v.made = true ∧ v.mount.entry = e

/-- The ledger is true, after a step. -/
structure LedgerTrue (e : Event) (w : AgentMounts) : Prop where
  /-- A release takes away mounts SMBPal made. -/
  own : e.releases → ∀ v ∈ w.taken, v.made = true
  /-- What is taken away of SMBPal's is forgotten. -/
  forgotten : e.takesAway → ∀ v ∈ w.taken, v.made = true → ¬w.Holds v.mount
  /-- No entry has lost its mount when the ledger answers or records. -/
  current : w.Current

/-- Nothing is in the ledger yet. -/
structure Start (w : AgentMounts) : Prop where
  empty : w.ledger = []
  distinct : (w.table.map fun v => v.mount.fsid).Nodup

/-- The invariant: ids are distinct, and a mount that the ledger holds is one that SMBPal
    made, as it was written down, and is on top at its path. -/
structure Sound (w : AgentMounts) : Prop where
  distinct : (w.table.map fun v => v.mount.fsid).Nodup
  held : ∀ v ∈ w.table, ∀ e ∈ w.ledger, e.fsid = v.mount.fsid →
    v.made = true ∧ v.mount.entry = e ∧ topAt v.mount.mountpoint w.table = some v

omit [Unicode] in
@[simp] theorem unmount_ledger (w : AgentMounts) (path : Str) :
    (w.unmount path).ledger = w.ledger := by
  unfold unmount
  split
  · rfl
  · rfl

omit [Unicode] in
@[simp] theorem unmount_moments (w : AgentMounts) (path : Str) :
    (w.unmount path).moments = w.moments := by
  unfold unmount
  split
  · rfl
  · rfl

omit [Unicode] in
theorem mem_unmount_table {w : AgentMounts} {path : Str} {v : Volume}
    (h : v ∈ (w.unmount path).table) : v ∈ w.table := by
  unfold unmount at h
  split at h
  · exact mem_withoutTop h
  · exact h

omit [Unicode] in
/-- Nothing but the mount on top goes. -/
theorem mem_unmount_table_or {w : AgentMounts} (path : Str) {v : Volume} (h : v ∈ w.table) :
    v ∈ (w.unmount path).table ∨ topAt path w.table = some v := by
  unfold unmount
  cases htop : topAt path w.table with
  | none => exact Or.inl h
  | some u =>
      rcases mem_withoutTop_or path h with hin | hout
      · exact Or.inl hin
      · exact Or.inr (htop.symm.trans hout)

omit [Unicode] in
/-- What an unmount has taken away was on top. -/
theorem mem_unmount_taken {w : AgentMounts} {path : Str} {v : Volume}
    (h : v ∈ (w.unmount path).taken) : v ∈ w.taken ∨ topAt path w.table = some v := by
  unfold unmount at h
  cases htop : topAt path w.table with
  | none =>
      rw [htop] at h
      exact Or.inl h
  | some u =>
      rw [htop] at h
      rcases List.mem_append.mp h with hold | hnew
      · exact Or.inl hold
      · exact Or.inr (congrArg some (List.mem_singleton.mp hnew).symm)

omit [Unicode] in
theorem mem_unmount_taken_of_mem {w : AgentMounts} {path : Str} {v : Volume} (h : v ∈ w.taken) :
    v ∈ (w.unmount path).taken := by
  unfold unmount
  split
  · exact List.mem_append_left _ h
  · exact h

omit [Unicode] in
/-- What is on top elsewhere stays there. -/
theorem topAt_unmount {w : AgentMounts} {path other : Str} (h : other ≠ path) :
    topAt other (w.unmount path).table = topAt other w.table := by
  unfold unmount
  split
  · exact topAt_withoutTop h _
  · rfl

namespace Sound

variable {w : AgentMounts}

omit [Unicode] in
/-- An id says which mount it is. -/
theorem same (h : w.Sound) {u v : Volume} (hu : u ∈ w.table) (hv : v ∈ w.table)
    (heq : u.mount.fsid = v.mount.fsid) : u = v :=
  List.inj_on_of_nodup_map h.distinct hu hv heq

omit [Unicode] in
theorem forget (h : w.Sound) (m : SmbMount) : (w.forget m).Sound :=
  { distinct := h.distinct
    held := fun v hv e he => h.held v hv e (MountLedger.mem_forget.mp he).1 }

omit [Unicode] in
theorem foldl_forget (h : w.Sound) (ms : List SmbMount) :
    (ms.foldl AgentMounts.forget w).Sound := by
  induction ms generalizing w with
  | nil => exact h
  | cons m ms ih => exact ih (h.forget m)

omit [Unicode] in
theorem unmount (h : w.Sound) (path : Str) : (w.unmount path).Sound := by
  unfold AgentMounts.unmount
  cases htop : topAt path w.table with
  | none => exact h
  | some u =>
      refine ⟨h.distinct.sublist ((withoutTop_sublist path w.table).map _), ?_⟩
      intro v hv e he heq
      rcases h.held v (mem_withoutTop hv) e he heq with ⟨hmade, hentry, hvtop⟩
      refine ⟨hmade, hentry, ?_⟩
      by_cases hpath : v.mount.mountpoint = path
      · -- Then it was itself on top there, and has gone.
        rw [hpath, htop, Option.some.injEq] at hvtop
        rw [hvtop] at htop
        exact absurd hv (not_mem_withoutTop h.distinct.of_map htop)
      · exact (topAt_withoutTop hpath _).trans hvtop

omit [Unicode] in
theorem lost (h : w.Sound) (fsid : Nat × Nat) :
    { w with table := w.table.filter fun v => decide (v.mount.fsid ≠ fsid) }.Sound := by
  refine ⟨h.distinct.sublist (List.filter_sublist.map _), ?_⟩
  intro v hv e he heq
  rcases List.mem_filter.mp hv with ⟨hin, hother⟩
  rcases h.held v hin e he heq with ⟨hmade, hentry, htop⟩
  exact ⟨hmade, hentry, topAt_filter htop hother⟩

omit [Unicode] in
/-- A mount with an id of its own, that is not on top of one that the ledger holds. -/
theorem add (h : w.Sound) {m : SmbMount} (made : Bool)
    (hfree : ∀ v ∈ w.table, v.mount.fsid ≠ m.fsid) (hnew : ¬w.Holds m)
    (hpath : ∀ v ∈ w.table, w.Holds v.mount → v.mount.mountpoint ≠ m.mountpoint) :
    (w.add m made).Sound := by
  -- The new mount has an id of its own, which the ledger does not hold.
  refine ⟨?_, ?_⟩
  · change ((w.table ++ [_]).map _).Nodup
    rw [List.map_append, List.nodup_append]
    refine ⟨h.distinct, List.nodup_singleton _, ?_⟩
    intro a ha b hb hab
    rcases List.mem_map.mp ha with ⟨v, hv, hva⟩
    rw [List.map_singleton, List.mem_singleton] at hb
    exact hfree v hv (hva.trans (hab.trans hb))
  · intro v hv e he heq
    rcases List.mem_append.mp hv with hold | hlast
    · rcases h.held v hold e he heq with ⟨hmade, hentry, htop⟩
      refine ⟨hmade, hentry, (topAt_append _ _ _).trans ?_⟩
      rw [if_neg (Ne.symm (hpath v hold ⟨e, he, heq⟩))]
      exact htop
    · rw [List.mem_singleton] at hlast
      rw [hlast] at heq
      exact absurd ⟨e, he, heq⟩ hnew

omit [Unicode] in
/-- Recording a mount that SMBPal made and that is on top. -/
theorem record (h : w.Sound) {v : Volume} (hv : v ∈ w.table) (hmade : v.made = true)
    (htop : topAt v.mount.mountpoint w.table = some v) : (w.record v.mount).Sound := by
  refine ⟨h.distinct, ?_⟩
  intro u hu e he heq
  rcases MountLedger.mem_record he with ⟨hold, -⟩ | hnew
  · exact h.held u hu e hold heq
  · have hsame : v = u := h.same hv hu ((congrArg LedgerEntry.fsid hnew).symm.trans heq)
    rw [← hsame]
    exact ⟨hmade, hnew.symm, htop⟩

end Sound

/-- What has been taken away is not in the table. -/
def Gone (w : AgentMounts) : Prop :=
  ∀ v ∈ w.taken, v ∉ w.table

omit [Unicode] in
theorem Gone.unmount {w : AgentMounts} (h : w.Gone) (hsound : w.Sound) (path : Str) :
    (w.unmount path).Gone := by
  intro v hv hin
  rcases mem_unmount_taken hv with hold | htop
  · exact h v hold (mem_unmount_table hin)
  · unfold AgentMounts.unmount at hin
    rw [htop] at hin
    exact not_mem_withoutTop hsound.distinct.of_map htop hin

omit [Unicode] in
/-- No entry has lost its mount when one has been recorded. -/
theorem noneLost_record {w : AgentMounts} {v : Volume} (hv : v ∈ w.table) :
    (w.record v.mount).NoneLost := by
  intro e he
  rcases MountLedger.mem_record he with ⟨-, m, hm, heq⟩ | hnew
  · rcases List.mem_map.mp hm with ⟨u, hu, hum⟩
    exact ⟨u, hu, by rw [hum]; exact heq⟩
  · exact ⟨v, hv, (congrArg LedgerEntry.fsid hnew).symm⟩

omit [Unicode] in
/-- The ledger answers while no entry has lost its mount. -/
theorem Current.answering {w : AgentMounts} (h : w.Current) (hsound : w.Sound)
    (hlost : w.NoneLost) : w.answering.Current := by
  intro moment hmoment e he
  rcases List.mem_append.mp hmoment with hold | hnew
  · exact h moment hold e he
  · rw [List.mem_singleton] at hnew
    rw [hnew] at he ⊢
    rcases hlost e he with ⟨v, hv, heq⟩
    rcases hsound.held v hv e he heq.symm with ⟨hmade, hentry, -⟩
    exact ⟨v, hv, hmade, hentry⟩

section Requests

variable {uid} {w : AgentMounts} {key : MountKey}

/-- A row that `_remember` finds is the one just added, as no other is of the share. -/
theorem remember_added {m : SmbMount} {path : Str} (h : (w.add m true).Sound)
    (hcurrent : w.Current) (hnone : ∀ v ∈ w.table, own uid key v.mount = false) :
    ((w.add m true).remember uid key path).Sound ∧
      ((w.add m true).remember uid key path).Current := by
  unfold remember
  cases hfind : (w.add m true).mounts.find? fun m => own uid key m &&
    decide (m.mountpoint = path) with
  | none => exact ⟨h, hcurrent⟩
  | some found =>
      have hown : own uid key found = true := by
        have := List.find?_some hfind
        exact (Bool.and_eq_true_iff.mp this).1
      rcases List.mem_map.mp (List.mem_of_find?_eq_some hfind) with ⟨v, hv, rfl⟩
      -- Nothing of the user's was there before, so what is found is the mount just added.
      have hlast : v = { mount := m, made := true } := by
        rcases List.mem_append.mp hv with hold | hnew
        · rw [hnone v hold] at hown
          cases hown
        · exact List.mem_singleton.mp hnew
      have htop : topAt v.mount.mountpoint (w.add m true).table = some v := by
        rw [hlast]
        exact (topAt_append _ _ _).trans (if_pos rfl)
      have hsound := h.record hv (congrArg Volume.made hlast) htop
      refine ⟨hsound, ?_⟩
      exact Current.answering (w := { w.add m true with
        ledger := (w.add m true).ledger.record (w.add m true).mounts v.mount }) hcurrent
          ⟨hsound.distinct, hsound.held⟩ (noneLost_record hv)

/-- Where no row is of the share, `_remember` finds none. -/
theorem remember_nothing {path : Str} (hnone : ∀ m ∈ w.mounts, own uid key m = false) :
    w.remember uid key path = w := by
  unfold remember
  have hfind : (w.mounts.find? fun m => own uid key m && decide (m.mountpoint = path)) = none := by
    refine List.find?_eq_none.mpr fun m hm => ?_
    rw [hnone m hm, Bool.false_and]
    exact Bool.false_ne_true
  rw [hfind]

/-- What a mount request leaves. -/
theorem mountUrl_kept {netfs : NetfsAnswer} (h : w.Sound) (hcurrent : w.Current)
    (hadd : ∀ m, (if (w.existing uid key).isSome then none else netfs.mounted) = some m →
      (w.add m true).Sound) :
    (w.mountUrl uid key netfs).1.Sound ∧ (w.mountUrl uid key netfs).1.Current := by
  unfold mountUrl
  cases hfind : w.existing uid key with
  | some m => exact ⟨h, hcurrent⟩
  | none =>
      have hnone : ∀ m ∈ w.mounts, own uid key m = false := by
        intro m hm
        exact Bool.eq_false_iff.mpr (List.find?_eq_none.mp hfind m hm)
      rw [hfind] at hadd
      -- NetFS may mount and refuse, or answer without a mount.
      unfold mountNow
      cases hmounted : netfs.mounted with
      | none =>
          cases netfs.answer with
          | error e => exact ⟨h, hcurrent⟩
          | ok path =>
              dsimp only
              rw [remember_nothing hnone]
              exact ⟨h, hcurrent⟩
      | some m =>
          have hadded := hadd m hmounted
          cases netfs.answer with
          | error e => exact ⟨hadded, hcurrent⟩
          | ok path =>
              exact remember_added hadded hcurrent fun v hv =>
                hnone v.mount (List.mem_map_of_mem hv)

/-- What `_release` has done so far: what it has taken away SMBPal made, and is
    forgotten. -/
structure Released (w : AgentMounts) : Prop where
  sound : w.Sound
  current : w.Current
  taken : ∀ v ∈ w.taken, v.made = true ∧ ¬w.Holds v.mount

omit [Unicode] in
/-- Taking away and forgetting a mount that the ledger holds. -/
theorem Released.takes (h : w.Released) (hlost : w.NoneLost) {v : Volume} (hv : v ∈ w.table)
    (howns : w.ledger.owns v.mount = true) :
    ((w.answering.unmount v.mount.mountpoint).forget v.mount).Released ∧
      ((w.answering.unmount v.mount.mountpoint).forget v.mount).NoneLost ∧
        ∀ u ∈ w.table, u.mount.fsid ≠ v.mount.fsid →
          u ∈ ((w.answering.unmount v.mount.mountpoint).forget v.mount).table := by
  rcases MountLedger.owns_iff.mp howns with ⟨e, he, heq⟩
  rcases h.sound.held v hv e he heq with ⟨hmade, hentry, htop⟩
  -- The unmount takes this very mount, and leaves the others.
  have hothers : ∀ u ∈ w.table, u.mount.fsid ≠ v.mount.fsid →
      u ∈ (w.answering.unmount v.mount.mountpoint).table := by
    intro u hu hne
    rcases mem_unmount_table_or (w := w.answering) v.mount.mountpoint hu with hin | hout
    · exact hin
    · rw [show topAt v.mount.mountpoint w.answering.table = some v from htop,
        Option.some.injEq] at hout
      exact absurd (congrArg (fun v => v.mount.fsid) hout.symm) hne
  refine ⟨⟨?_, ?_, ?_⟩, ?_, hothers⟩
  · have hanswering : w.answering.Sound := ⟨h.sound.distinct, h.sound.held⟩
    exact (hanswering.unmount _).forget _
  · intro moment hmoment
    refine (h.current.answering h.sound hlost) moment ?_
    rwa [show ((w.answering.unmount v.mount.mountpoint).forget v.mount).moments =
      w.answering.moments from unmount_moments _ _] at hmoment
  · intro u hu
    have hforgets : ∀ e ∈ ((w.answering.unmount v.mount.mountpoint).forget v.mount).ledger,
        e ∈ w.ledger ∧ e.fsid ≠ v.mount.fsid := by
      intro e he
      have hmem := MountLedger.mem_forget.mp he
      rwa [unmount_ledger] at hmem
    rcases mem_unmount_taken (w := w.answering) hu with hold | hnew
    · rcases h.taken u hold with ⟨hu, hnot⟩
      exact ⟨hu, fun ⟨e, he, heq⟩ => hnot ⟨e, (hforgets e he).1, heq⟩⟩
    · rw [show topAt v.mount.mountpoint w.answering.table = some v from htop,
        Option.some.injEq] at hnew
      rw [← hnew]
      exact ⟨hmade, fun ⟨e, he, heq⟩ => (hforgets e he).2 heq⟩
  · intro e he
    have hmem := MountLedger.mem_forget.mp he
    rw [unmount_ledger] at hmem
    rcases hlost e hmem.1 with ⟨u, hu, heq⟩
    exact ⟨u, hothers u hu (heq.trans_ne hmem.2), heq⟩

/-- The loop of `_release`. What is still to be looked at is still mounted. -/
theorem releaseFrom_kept (ms : List SmbMount) (refusals : List (Option SmbpalError))
    (reply : ReleaseReply) (h : w.Released)
    (hlost : (∃ m ∈ ms, own uid key m = true) → w.NoneLost)
    (hthere : ∀ m ∈ ms, ∃ v ∈ w.table, v.mount = m) (hnodup : (ms.map SmbMount.fsid).Nodup) :
    (releaseFrom uid key ms refusals w reply).1.Released := by
  induction ms generalizing w refusals reply with
  | nil => exact h
  | cons m ms ih =>
      rcases List.nodup_cons.mp hnodup with ⟨hm, hrest⟩
      have hlater : ∀ m ∈ ms, ∃ v ∈ w.table, v.mount = m :=
        fun m hm => hthere m (List.mem_cons_of_mem _ hm)
      unfold releaseFrom
      by_cases hown : own uid key m = false
      · rw [if_pos hown]
        exact ih refusals reply h (fun ⟨m, hm, ho⟩ => hlost ⟨m, List.mem_cons_of_mem _ hm, ho⟩)
          hlater hrest
      · have hall : w.NoneLost := hlost ⟨m, List.mem_cons_self, Bool.not_eq_false _ ▸ hown⟩
        have hanswered : w.answering.Released :=
          ⟨⟨h.sound.distinct, h.sound.held⟩, h.current.answering h.sound hall, h.taken⟩
        rw [if_neg hown]
        by_cases howns : w.ledger.owns m = false
        · rw [if_pos howns]
          exact ih _ _ hanswered (fun _ => hall) hlater hrest
        · rw [if_neg howns]
          cases refusals.headD none with
          | some e => exact ih _ _ hanswered (fun _ => hall) hlater hrest
          | none =>
              rcases hthere m List.mem_cons_self with ⟨v, hv, rfl⟩
              rw [Bool.not_eq_false] at howns
              rcases h.takes hall hv howns with ⟨hreleased, hnone, hothers⟩
              refine ih _ _ hreleased (fun _ => hnone) ?_ hrest
              -- The rows to come have other ids.
              intro m' hm'
              rcases hlater m' hm' with ⟨u, hu, rfl⟩
              refine ⟨u, hothers u hu ?_, rfl⟩
              exact fun heq => hm (heq ▸ List.mem_map_of_mem hm')

/-- Nothing that the ledger has answered in the loop of `_release` is taken back. -/
theorem mem_releaseFrom_moments (ms : List SmbMount) (refusals : List (Option SmbpalError))
    (reply : ReleaseReply) {moment : List Volume × MountLedger} (h : moment ∈ w.moments) :
    moment ∈ (releaseFrom uid key ms refusals w reply).1.moments := by
  induction ms generalizing w refusals reply with
  | nil => exact h
  | cons m ms ih =>
      have hanswered : moment ∈ w.answering.moments := List.mem_append_left _ h
      unfold releaseFrom
      split
      · exact ih _ _ h
      · split
        · exact ih _ _ hanswered
        · split
          · exact ih _ _ hanswered
          · refine ih _ _ ?_
            rwa [show ((w.answering.unmount m.mountpoint).forget m).moments =
              w.answering.moments from unmount_moments _ _]

/-- Where the share is mounted, `_release` asks the ledger as it finds it. -/
theorem releaseFrom_answers (uid : Nat) (key : MountKey) (ms : List SmbMount)
    (refusals : List (Option SmbpalError))
    (reply : ReleaseReply) (h : ∃ m ∈ ms, own uid key m = true) :
    (w.table, w.ledger) ∈ (releaseFrom uid key ms refusals w reply).1.moments := by
  have hanswered : (w.table, w.ledger) ∈ w.answering.moments :=
    List.mem_append_right _ (List.mem_singleton_self _)
  -- The first of the user's mounts is asked for in the table as it is now.
  induction ms generalizing refusals reply with
  | nil =>
      rcases h with ⟨m, hm, -⟩
      cases hm
  | cons m ms ih =>
      unfold releaseFrom
      split
      · next hnot =>
          refine ih _ _ ?_
          rcases h with ⟨m', hm', hown⟩
          rcases List.mem_cons.mp hm' with heq | hlater
          · rw [← heq, hown] at hnot
            cases hnot
          · exact ⟨m', hlater, hown⟩
      · split
        · exact mem_releaseFrom_moments _ _ _ hanswered
        · split
          · exact mem_releaseFrom_moments _ _ _ hanswered
          · refine mem_releaseFrom_moments _ _ _ ?_
            rwa [show ((w.answering.unmount m.mountpoint).forget m).moments =
              w.answering.moments from unmount_moments _ _]

/-- What `_release` leaves. -/
theorem release_kept (uid : Nat) (key : MountKey) (refusals : List (Option SmbpalError))
    (h : w.Released)
    (hlost : (∃ v ∈ w.table, own uid key v.mount = true) → w.NoneLost) :
    (w.release uid key refusals).1.Released := by
  refine releaseFrom_kept w.mounts refusals _ h ?_ ?_ ?_
  · rintro ⟨m, hm, hown⟩
    rcases List.mem_map.mp hm with ⟨v, hv, rfl⟩
    exact hlost ⟨v, hv, hown⟩
  · intro m hm
    exact List.mem_map.mp hm
  · rw [mounts, List.map_map]
    exact h.sound.distinct

omit [Unicode] in
/-- What is left by unmounting path after path. -/
theorem unmountEach_kept (paths : List Str) (refusals : List (Option SmbpalError))
    (unmounted : List Str) (h : w.Sound) :
    (unmountEach paths refusals w unmounted).1.Sound ∧
      (unmountEach paths refusals w unmounted).1.ledger = w.ledger ∧
        (unmountEach paths refusals w unmounted).1.moments = w.moments ∧
          ∀ v ∈ (unmountEach paths refusals w unmounted).1.taken,
            v ∈ w.taken ∨ v ∈ w.table ∧ v.mount.mountpoint ∈ tried refusals paths := by
  induction paths generalizing w refusals unmounted with
  | nil => exact ⟨h, rfl, rfl, fun v hv => Or.inl hv⟩
  | cons path paths ih =>
      unfold unmountEach tried
      -- A refusal ends the requests, with what was unmounted by then.
      cases refusals.headD none with
      | some e => exact ⟨h, rfl, rfl, fun v hv => Or.inl hv⟩
      | none =>
          rcases ih refusals.tail (if (topAt path w.table).isSome then unmounted ++ [path]
            else unmounted) (h.unmount path) with ⟨hsound, hledger, hmoments, htaken⟩
          refine ⟨hsound, hledger.trans (unmount_ledger w path),
            hmoments.trans (unmount_moments w path), fun v hv => ?_⟩
          rcases htaken v hv with hearlier | ⟨hin, hpath⟩
          · rcases mem_unmount_taken hearlier with hold | htop
            · exact Or.inl hold
            · rcases mem_of_topAt htop with ⟨hmem, hat⟩
              exact Or.inr ⟨hmem, hat ▸ List.mem_cons_self⟩
          · exact Or.inr ⟨mem_unmount_table hin, List.mem_cons_of_mem _ hpath⟩

omit [Unicode] in
/-- What has been taken away stays away, and is not in the table. -/
theorem unmountEach_gone (paths : List Str) (refusals : List (Option SmbpalError))
    (unmounted : List Str) (h : w.Sound) (hgone : w.Gone) :
    (∀ v ∈ w.taken, v ∈ (unmountEach paths refusals w unmounted).1.taken) ∧
      (unmountEach paths refusals w unmounted).1.Gone ∧
        ∀ v ∈ (unmountEach paths refusals w unmounted).1.table, v ∈ w.table := by
  induction paths generalizing w refusals unmounted with
  | nil => exact ⟨fun v hv => hv, hgone, fun v hv => hv⟩
  | cons path paths ih =>
      unfold unmountEach
      cases refusals.headD none with
      | some e => exact ⟨fun v hv => hv, hgone, fun v hv => hv⟩
      | none =>
          rcases ih refusals.tail (if (topAt path w.table).isSome then unmounted ++ [path]
            else unmounted) (h.unmount path) (hgone.unmount h path) with ⟨hstay, hout, hsub⟩
          exact ⟨fun v hv => hstay v (mem_unmount_taken_of_mem hv), hout,
            fun v hv => mem_unmount_table (hsub v hv)⟩

omit [Unicode] in
/-- A mount on top at a path that is tried is taken away. -/
theorem unmountEach_takes {v : Volume} (paths : List Str) (refusals : List (Option SmbpalError))
    (unmounted : List Str) (h : w.Sound) (hgone : w.Gone)
    (htop : topAt v.mount.mountpoint w.table = some v)
    (htried : v.mount.mountpoint ∈ tried refusals paths) :
    v ∈ (unmountEach paths refusals w unmounted).1.taken := by
  induction paths generalizing w refusals unmounted with
  | nil => cases htried
  | cons path paths ih =>
      unfold tried at htried
      unfold unmountEach
      cases hrefused : refusals.headD none with
      | some e =>
          rw [hrefused] at htried
          cases htried
      | none =>
          rw [hrefused] at htried
          -- What is on top of the path goes now; of another path nothing changes.
          by_cases hpath : v.mount.mountpoint = path
          · refine (unmountEach_gone paths _ _ (h.unmount path) (hgone.unmount h path)).1 v ?_
            rw [hpath] at htop
            unfold unmount
            rw [htop]
            exact List.mem_append_right _ (List.mem_singleton_self v)
          · refine ih _ _ (h.unmount path) (hgone.unmount h path)
              ((topAt_unmount hpath).trans htop) ?_
            rcases List.mem_cons.mp htried with heq | hlater
            · exact absurd heq hpath
            · exact hlater

omit [Unicode] in
/-- Forgetting mounts changes nothing but the ledger, which shrinks. -/
theorem foldl_forget (ms : List SmbMount) :
    (ms.foldl forget w).taken = w.taken ∧ (ms.foldl forget w).moments = w.moments ∧
      ∀ e ∈ (ms.foldl forget w).ledger, e ∈ w.ledger := by
  induction ms generalizing w with
  | nil => exact ⟨rfl, rfl, fun e he => he⟩
  | cons m ms ih =>
      rcases ih (w := w.forget m) with ⟨htaken, hmoments, hledger⟩
      exact ⟨htaken, hmoments, fun e he => (MountLedger.mem_forget.mp (hledger e he)).1⟩

omit [Unicode] in
/-- An entry stays when mounts with other ids are forgotten. -/
theorem mem_foldl_forget {ms : List SmbMount} {e : LedgerEntry} (he : e ∈ w.ledger)
    (hother : ∀ m ∈ ms, e.fsid ≠ m.fsid) : e ∈ (ms.foldl forget w).ledger := by
  induction ms generalizing w with
  | nil => exact he
  | cons m ms ih =>
      refine ih (w := w.forget m) ?_ fun m hm => hother m (List.mem_cons_of_mem _ hm)
      exact MountLedger.mem_forget.mpr ⟨he, hother m List.mem_cons_self⟩

/-- A mount that the ledger holds and `_unmount` takes away stays in the ledger: it is
    looked for in the table, which it has left. -/
theorem unmountRequest_keeps {mountpoint : Str} {key : Option MountKey}
    {refusals : List (Option SmbpalError)} (h : w.Sound) (hgone : w.Gone) {v : Volume}
    (hv : v ∈ w.table) {e : LedgerEntry} (he : e ∈ w.ledger) (heq : e.fsid = v.mount.fsid)
    (htried : v.mount.mountpoint ∈ tried refusals (w.targets uid mountpoint key)) :
    v ∈ (w.unmountRequest uid mountpoint key refusals).1.taken ∧
      e ∈ (w.unmountRequest uid mountpoint key refusals).1.ledger := by
  have htaken := unmountEach_takes _ _ [] h hgone (h.held v hv e he heq).2.2 htried
  have hout := unmountEach_gone (w.targets uid mountpoint key) refusals [] h hgone
  have hledger := (unmountEach_kept (w.targets uid mountpoint key) refusals [] h).2.1
  unfold unmountRequest
  generalize unmountEach (w.targets uid mountpoint key) refusals w [] = result
    at htaken hout hledger
  rcases result with ⟨w', e' | unmounted⟩
  · exact ⟨htaken, hledger ▸ he⟩
  · have hsame := (foldl_forget (w := w')
      (w'.mounts.filter fun m => decide (m.mountpoint ∈ unmounted))).1
    refine ⟨hsame.symm ▸ htaken, mem_foldl_forget (w := w') (hledger ▸ he) ?_⟩
    -- Only mounts that are still there are forgotten, and this one is gone.
    intro m hm hsame
    rcases List.mem_map.mp (List.mem_filter.mp hm).1 with ⟨u, hu, rfl⟩
    have hu' : u = v := h.same (hout.2.2 u hu) hv (hsame.symm.trans heq)
    exact hout.2.1 v htaken (hu' ▸ hu)

/-- What `_unmount` leaves: it has taken away mounts at the paths it tried, and the ledger
    holds no more than before. -/
theorem unmountRequest_kept (uid : Nat) (mountpoint : Str) (key : Option MountKey)
    (refusals : List (Option SmbpalError)) (h : w.Sound) :
    (w.unmountRequest uid mountpoint key refusals).1.Sound ∧
      (∀ e ∈ (w.unmountRequest uid mountpoint key refusals).1.ledger, e ∈ w.ledger) ∧
        (w.unmountRequest uid mountpoint key refusals).1.moments = w.moments ∧
          ∀ v ∈ (w.unmountRequest uid mountpoint key refusals).1.taken,
            v ∈ w.taken ∨ v ∈ w.table ∧
              v.mount.mountpoint ∈ tried refusals (w.targets uid mountpoint key) := by
  have heach := unmountEach_kept (w.targets uid mountpoint key) refusals [] h
  unfold unmountRequest
  generalize unmountEach (w.targets uid mountpoint key) refusals w [] = result at heach
  rcases heach with ⟨hsound, hledger, hmoments, htaken⟩
  rcases result with ⟨w', e | unmounted⟩
  · exact ⟨hsound, fun e he => hledger ▸ he, hmoments, htaken⟩
  · rcases foldl_forget (w := w')
      (w'.mounts.filter fun m => decide (m.mountpoint ∈ unmounted)) with ⟨htaken', hmoments', hsub⟩
    exact ⟨hsound.foldl_forget _, fun e he => hledger ▸ hsub e he, hmoments'.trans hmoments,
      fun v hv => htaken v (htaken' ▸ hv)⟩

end Requests

variable {uid} {w : AgentMounts} {e : Event}

omit [Unicode] in
theorem turn_sound (h : w.Sound) : w.turn.Sound :=
  ⟨h.distinct, h.held⟩

omit [Unicode] in
theorem turn_current : w.turn.Current :=
  fun _ hmoment => absurd hmoment List.not_mem_nil

/-- A mount that may be made, and meets the condition. -/
theorem makes_sound (h : w.Sound) (hpossible : w.Possible uid e)
    (hkept : ∀ m, w.makes uid e = some m →
      ¬w.Holds m ∧ ∀ v ∈ w.table, w.Holds v.mount → v.mount.mountpoint ≠ m.mountpoint)
    {m : SmbMount} (hm : w.makes uid e = some m) (made : Bool) : (w.turn.add m made).Sound :=
  (turn_sound h).add made (hpossible m hm) (hkept m hm).1 (hkept m hm).2

/-- One step keeps the invariant, and the ledger is true after it. -/
theorem sound_step (h : w.Sound) (hpossible : w.Possible uid e) (hkept : w.Kept uid e) :
    (w.step uid e).Sound ∧ LedgerTrue e (w.step uid e) := by
  have hturn := turn_sound h
  -- Only an unmount and a release take something away.
  cases e with
  | mount key netfs =>
      rcases mountUrl_kept hturn turn_current fun m hm =>
        makes_sound h hpossible hkept hm true with ⟨hsound, hcurrent⟩
      exact ⟨hsound, fun hno => hno.elim, fun hno => hno.elim, hcurrent⟩
  | unmount mountpoint key refusals =>
      rcases unmountRequest_kept uid mountpoint key refusals hturn with
        ⟨hsound, hledger, hmoments, htaken⟩
      refine ⟨hsound, fun hno => hno.elim, ?_, ?_⟩
      · rintro - v hv - ⟨e, he, heq⟩
        rcases htaken v hv with hold | ⟨hin, hpath⟩
        · cases hold
        · exact hkept v hin ⟨e, hledger e he, heq⟩ hpath
      · intro moment hmoment
        exact turn_current moment (hmoments ▸ hmoment)
  | release key refusals =>
      have hreleased := release_kept uid key refusals
        ⟨hturn, turn_current, fun v hv => absurd hv List.not_mem_nil⟩ hkept
      exact ⟨hreleased.sound, fun _ v hv => (hreleased.taken v hv).1,
        fun _ v hv _ => (hreleased.taken v hv).2, hreleased.current⟩
  | mountedOutside m =>
      have hadded := makes_sound h hpossible hkept rfl false
      exact ⟨hadded, fun hno => hno.elim, fun hno => hno.elim, turn_current (w := w)⟩
  | lost fsid =>
      exact ⟨hturn.lost fsid, fun hno => hno.elim, fun hno => hno.elim, turn_current (w := w)⟩

/-- An unmount or a release that does not meet the condition leaves the ledger untrue. -/
theorem kept_of_ledgerTrue (h : w.Sound) (htakes : e.takesAway)
    (htrue : LedgerTrue e (w.step uid e)) : w.Kept uid e := by
  have hturn := turn_sound h
  cases e with
  | mount key netfs => exact htakes.elim
  | unmount mountpoint key refusals =>
      rintro v hv ⟨e, he, heq⟩ htried
      have hgone : w.turn.Gone := fun v hv => absurd hv List.not_mem_nil
      rcases unmountRequest_keeps hturn hgone hv he heq htried with ⟨htaken, hledger⟩
      exact htrue.forgotten trivial v htaken (h.held v hv e he heq).1 ⟨e, hledger, heq⟩
  | release key refusals =>
      rintro ⟨v, hv, hown⟩ e he
      have hanswers := releaseFrom_answers (w := w.turn) uid key w.mounts refusals
        { unmounted := [], left := [] } ⟨v.mount, List.mem_map_of_mem hv, hown⟩
      rcases htrue.current _ hanswers e he with ⟨u, hu, -, hentry⟩
      exact ⟨u, hu, congrArg LedgerEntry.fsid hentry⟩
  | mountedOutside m => exact htakes.elim
  | lost fsid => exact htakes.elim

/-- In a run whose steps all meet the condition the ledger is true after every step that
    meets it, and after no unmount and no release that does not. -/
theorem ledger_stays_true {s : AgentMounts} (hstart : s.Start)
    (hrun : GuardedRun (Steps uid) (Kept uid) s w) (hpossible : w.Possible uid e) :
    (w.Kept uid e → LedgerTrue e (w.step uid e)) ∧
      (e.takesAway → LedgerTrue e (w.step uid e) → w.Kept uid e) := by
  have hsound : w.Sound := by
    refine hrun.invariant Sound ?_ ?_
    · refine ⟨hstart.distinct, fun v _ e he => ?_⟩
      rw [hstart.empty] at he
      cases he
    · rintro w e - h hkept ⟨hpossible, rfl⟩
      exact (sound_step h hpossible hkept).1
  exact ⟨fun hkept => (sound_step hsound hpossible hkept).2, kept_of_ledgerTrue hsound⟩

end Runs

section Examples

attribute [local instance] Unicode.ascii

/-- A mount of a share. -/
def media : SmbMount :=
  { host := str "nas.example"
    share := str "Media"
    mountpoint := str "/Volumes/Media"
    ownerUid := 501
    fsid := (1, 30) }

/-- SMBPal mounts the share. -/
def mountsMedia : Event :=
  .mount media.key { mounted := some media, answer := .ok media.mountpoint }

/-- It is disconnected through SMBPal. -/
def disconnectsMedia : Event :=
  .unmount media.mountpoint (some media.key) []

/-- Its connection is removed. -/
def releasesMedia : Event :=
  .release media.key []

/-- A machine with nothing mounted. -/
def nothingMounted : AgentMounts :=
  { table := []
    ledger := []
    taken := []
    moments := [] }

theorem nothingMounted_start : nothingMounted.Start :=
  ⟨rfl, List.nodup_nil⟩

theorem mountsMedia_possible : nothingMounted.Possible 501 mountsMedia :=
  fun _ _ _ hv => absurd hv List.not_mem_nil

/-- SMBPal mounts a share and releases it. -/
theorem ledger_stays_true_media :
    LedgerTrue releasesMedia ((nothingMounted.step 501 mountsMedia).step 501 releasesMedia) := by
  refine (ledger_stays_true nothingMounted_start (GuardedRun.next mountsMedia GuardedRun.start ?_
    ⟨mountsMedia_possible, rfl⟩) ?_).1 ?_
  · rintro m - 
    exact ⟨fun ⟨e, he, _⟩ => absurd he List.not_mem_nil, fun v hv => absurd hv List.not_mem_nil⟩
  · rintro m hm
    cases hm
  · rintro -
    unfold NoneLost
    decide +kernel

/-- SMBPal mounts a share, and it is disconnected through SMBPal. The ledger still holds it,
    and when the person mounts the share in Finder and the system gives that mount the id of
    the one that has gone, removing the connection unmounts it. -/
theorem disconnected_stays_in_ledger :
    let mounted := nothingMounted.step 501 mountsMedia
    let disconnected := mounted.step 501 disconnectsMedia
    let again := disconnected.step 501 (.mountedOutside media)
    nothingMounted.Start ∧ GuardedRun (Steps 501) (fun _ _ => True) nothingMounted again ∧
      again.Possible 501 releasesMedia ∧ ¬LedgerTrue disconnectsMedia disconnected ∧
        ¬∀ v ∈ (again.step 501 releasesMedia).taken, v.made = true := by
  intro mounted disconnected again
  -- The disconnect takes the mount away and leaves its line in the ledger.
  have hgone : disconnected.table = [] := by decide +kernel
  refine ⟨nothingMounted_start, ?_, ?_, ?_, ?_⟩
  · refine GuardedRun.next _ (GuardedRun.next _ (GuardedRun.next _ GuardedRun.start trivial
      ⟨mountsMedia_possible, rfl⟩) trivial ⟨?_, rfl⟩) trivial ⟨?_, rfl⟩
    · rintro m hm
      cases hm
    · intro m hm v hv
      rw [hgone] at hv
      cases hv
  · rintro m hm
    cases hm
  · intro h
    have htaken : { mount := media, made := true } ∈ disconnected.taken := by decide +kernel
    have hholds : media.entry ∈ disconnected.ledger := by decide +kernel
    exact h.forgotten trivial _ htaken rfl ⟨_, hholds, rfl⟩
  · decide +kernel

end Examples

end AgentMounts

end Ledger

end Smbpal
