import Smbpal.Agent.Reconnect

/-!
# A Held Connection

What the loop does with a connection it holds: nothing, until something frees
it.

A connection comes to be held in four ways: its mount is refused for good, its
mount goes away and nothing explains that, it is disconnected through SMBPal,
or its record says that it is. Whatever else happens, a wake, a change of the
network, a failure's backoff running out, the loop tries no mount for it until
somebody connects it, its share is found mounted, its record points somewhere
else, or its record leaves the list.

A track is looked at under the id of its row, so an event is about a connection
when it is about a row with that id. What one event does to a held track is
`step_holds`, and a run is a sequence of events.

Rows without an id are all looked at under one. Where two of them have different
shares, each makes a new track in the place of the other's, hold and all, and
mounts are tried for both on every pass: `mounts_refused_again`.

## Main definitions

* `Loop.Holds`: The connection is held, for a share.
* `Reconnector.Frees`: An event that may end the hold.
* `Reconnector.OneKey`: The rows of an id all have the same share.
* `Reconnector.mountsOver`: The rows mounts are tried for over some events.

## Theorems

* `considered_held`: A held track is left alone.
* `step_holds`: An event that does not free it keeps the hold and tries no
  mount.
* `held_until_freed`: So do any events, while no other row has the id.
* `mounts_refused_again`: A mount tried again, of a row without an id.
-/

namespace Smbpal

open Lib

section Held

variable [Unicode] {r : Reconnector} {id : Str} {key : MountKey} {s : Loop}

/-- The track of the id is held, for this share. -/
def Loop.Holds (s : Loop) (id : Str) (key : MountKey) : Prop :=
  ∃ t, s.tracks id = some t ∧ t.key = key ∧ t.held ≠ none

/-- A mount of the share that is the user's own. -/
def Reconnector.Mounted (r : Reconnector) (mounts : List SmbMount) (key : MountKey) : Prop :=
  ∃ m ∈ mounts, m.ownerUid = r.uid ∧ m.key = key

/-- The rows a pass goes over, when it can read a list. -/
def Reconnector.rowsOf (r : Reconnector) (s : Loop) (i : PassInput) : Option (List Connection) :=
  match i.listed with
  | .ok listed => some (r.mine listed)
  | .error (.smbpal _) => some (r.mine s.lastList)
  | .error _ => none

/-- What may end the hold of a connection: a connect of its share, or a pass
    that finds the share mounted, or no row with its id and share, so that it has
    left the list or points somewhere else. -/
def Reconnector.Frees (r : Reconnector) (id : Str) (key : MountKey) (s : Loop) : LoopEvent → Prop
  | .connected share _ => share = key
  | .released _ => False
  | .pass i =>
      (∃ mounts, i.mounts = .ok mounts ∧ r.Mounted mounts key) ∨
        ∃ rows, r.rowsOf s i = some rows ∧ ∀ c ∈ rows, rowId c = id → rowKey c ≠ key

/-- The rows with this id that a pass goes over all have the same share. -/
def Reconnector.OneKey (r : Reconnector) (id : Str) (s : Loop) : LoopEvent → Prop
  | .pass i => ∀ rows, r.rowsOf s i = some rows →
      ∀ c ∈ rows, ∀ d ∈ rows, rowId c = id → rowId d = id → rowKey c = rowKey d
  | _ => True

/-- The rows mounts are tried for, event after event. -/
def Reconnector.mountsOver (r : Reconnector) : Loop → List LoopEvent → List Connection
  | _, [] => []
  | s, e :: es => r.mountsIn s e ++ r.mountsOver (r.step s e) es

theorem mountOf_eq_none {mounts : List SmbMount} (h : ¬r.Mounted mounts key) :
    r.mountOf mounts key = none := by
  unfold Reconnector.mountOf
  rw [List.getLast?_eq_none_iff, List.filter_eq_nil_iff]
  intro m hm hboth
  rw [Bool.and_eq_true, decide_eq_true_eq, decide_eq_true_eq] at hboth
  exact h ⟨m, hm, hboth⟩

/-- A track that is held no less than another, for the same share. -/
def Track.StaysHeld (t t' : Track) : Prop :=
  t.held ≠ none → t'.held ≠ none ∧ t'.key = t.key

omit [Unicode] in
theorem noteGone_staysHeld (t : Track) (trouble : Bool) : t.StaysHeld (t.noteGone trouble) := by
  intro h
  unfold Track.noteGone
  cases t.mountedAt with
  | none => exact ⟨h, rfl⟩
  | some goneFrom =>
      cases trouble with
      | true => exact ⟨h, rfl⟩
      | false => exact ⟨Option.some_ne_none _, rfl⟩

omit [Unicode] in
theorem noteDisconnected_staysHeld (t : Track) (c : Connection) :
    t.StaysHeld (t.noteDisconnected c) := by
  intro h
  unfold Track.noteDisconnected
  split
  · exact ⟨Option.some_ne_none _, rfl⟩
  · exact ⟨h, rfl⟩

omit [Unicode] in
/-- No mount is tried for a held track. -/
theorem decide_held {t : Track} (h : t.held ≠ none) (c : Connection) (now : Rat) :
    (t.decide c now).2 = false ∧ (t.decide c now).1.held ≠ none ∧
      (t.decide c now).1.key = t.key := by
  unfold Track.decide
  rw [if_pos h]
  exact ⟨rfl, h, rfl⟩

omit [Unicode] in
/-- A held track whose share is not mounted stays held, and no mount is
    tried. -/
theorem considered_held {t : Track} (h : t.held ≠ none) (c : Connection) (now : Rat)
    (trouble : Bool) :
    (considered t c none now trouble).2 = false ∧
      (considered t c none now trouble).1.held ≠ none ∧
        (considered t c none now trouble).1.key = t.key := by
  have hgone := noteGone_staysHeld t trouble h
  have hmarked := noteDisconnected_staysHeld (t.noteGone trouble) c hgone.1
  rcases decide_held hmarked.1 c now with ⟨hno, hheld, hkey⟩
  exact ⟨hno, hheld, hkey.trans (hmarked.2.trans hgone.2)⟩

omit [Unicode] in
theorem put_holds {t : Track} (hkey : t.key = key) (hheld : t.held ≠ none) :
    (s.put id t).Holds id key :=
  ⟨t, Function.update_self _ _ _, hkey, hheld⟩

omit [Unicode] in
theorem put_other {other : Str} {t : Track} (h : id ≠ other) (hs : s.Holds id key) :
    (s.put other t).Holds id key := by
  rcases hs with ⟨u, hu, hrest⟩
  exact ⟨u, (Function.update_of_ne h _ _).trans hu, hrest⟩

omit [Unicode] in
/-- Recording the outcome of another connection's mount. -/
theorem record_other {other : Str} (h : id ≠ other) (hs : s.Holds id key) (interval now : Rat)
    (attempt : Attempt) : (s.record interval now other attempt).1.Holds id key := by
  unfold Loop.record
  cases s.tracks other with
  | none =>
      dsimp only
      split
      · exact hs
      · exact hs
  | some t => exact put_other h hs

/-- Considering rows of which those with the id have the held share. -/
theorem considerAll_holds {mounts : List SmbMount} (hmounts : ¬r.Mounted mounts key) (now : Rat)
    (attempts : Nat → Attempt) (trouble : Bool) (place : Nat) {rows : List Connection}
    (hrows : ∀ c ∈ rows, rowId c = id → rowKey c = key) (hs : s.Holds id key) :
    (r.considerAll now attempts mounts trouble place rows s).loop.Holds id key ∧
      ∀ c ∈ (r.considerAll now attempts mounts trouble place rows s).mounted, rowId c ≠ id := by
  induction rows generalizing place s with
  | nil => exact ⟨hs, fun c hc => absurd hc List.not_mem_nil⟩
  | cons c rows ih =>
      have hrest : ∀ d ∈ rows, rowId d = id → rowKey d = key :=
        fun d hd => hrows d (List.mem_cons_of_mem c hd)
      unfold Reconnector.considerAll Loop.consider
      dsimp only
      by_cases hid : rowId c = id
      · -- its own row: the track is the held one, and stays so
        have hkey := hrows c List.mem_cons_self hid
        rcases hs with ⟨t, ht, htkey, hheld⟩
        have htrack : s.trackFor c = t := by
          unfold Loop.trackFor
          rw [hid, ht]
          exact if_pos (htkey.trans hkey.symm)
        rw [hkey, mountOf_eq_none hmounts, htrack]
        rcases considered_held hheld c now trouble with ⟨hno, hheld', hkey'⟩
        rw [hno, if_neg Bool.false_ne_true, hid]
        exact ih (place + 1) hrest (put_holds (hkey'.trans htkey) hheld')
      · have hne : id ≠ rowId c := fun h => hid h.symm
        split
        · split
          · refine ⟨record_other hne (put_other hne hs) _ _ _, fun d hd => ?_⟩
            rw [List.mem_singleton.mp hd]
            exact hid
          · rcases ih (place + 1) hrest (record_other hne (put_other hne hs) r.interval now
              (attempts place)) with ⟨hholds, hmounted⟩
            refine ⟨hholds, fun d hd => ?_⟩
            rcases List.mem_cons.mp hd with rfl | hd
            · exact hid
            · exact hmounted d hd
        · exact ih (place + 1) hrest (put_other hne hs)

omit [Unicode] in
theorem wake_holds (hs : s.Holds id key) (i : PassInput) : (s.wake i).Holds id key := by
  unfold Loop.wake
  dsimp only
  split
  · rcases hs with ⟨t, ht, hkey, hheld⟩
    refine ⟨t.retryNow, congrArg (Option.map Track.retryNow) ht, ?_⟩
    unfold Track.retryNow
    rw [if_neg fun h => hheld h.1]
    exact ⟨hkey, hheld⟩
  · exact hs

/-- A pass that does not free a held connection. -/
theorem tick_holds {i : PassInput} (hs : s.Holds id key) (h : ¬r.Frees id key s (.pass i))
    (hone : r.OneKey id s (.pass i)) :
    (r.tick i s).loop.Holds id key ∧ ∀ c ∈ (r.tick i s).mounted, rowId c ≠ id := by
  have hwoken := wake_holds hs i
  -- A pass over the rows: the row of the key is there, and every row of the id has it.
  have hpass : ∀ rows mounts s', r.rowsOf s i = some rows → i.mounts = .ok mounts →
      s'.Holds id key →
        (r.pass i rows mounts s').loop.Holds id key ∧
          ∀ c ∈ (r.pass i rows mounts s').mounted, rowId c ≠ id := by
    intro rows mounts s' hrows hmounts hs'
    have hnone : ¬r.Mounted mounts key := fun hm => h (Or.inl ⟨mounts, hmounts, hm⟩)
    have hrow : ∃ c ∈ rows, rowId c = id ∧ rowKey c = key := by
      by_contra hgone
      exact h (Or.inr ⟨rows, hrows, fun c hc hid hkey => hgone ⟨c, hc, hid, hkey⟩⟩)
    rcases hrow with ⟨d, hd, hdid, hdkey⟩
    have hkeys : ∀ c ∈ rows, rowId c = id → rowKey c = key :=
      fun c hc hid => (hone rows hrows c hc d hd hid hdid).trans hdkey
    have hthere : id ∈ rows.map rowId := hdid ▸ List.mem_map_of_mem hd
    have hall := considerAll_holds hnone i.now i.attempts (before i.now s'.troubleUntil) 0 hkeys hs'
    unfold Reconnector.pass
    dsimp only
    -- Where the pass ends, the tracks of the rows it was over are kept.
    split
    · refine ⟨?_, hall.2⟩
      rcases hall.1 with ⟨t, ht, hrest⟩
      exact ⟨t, (if_pos hthere).trans ht, hrest⟩
    · exact hall
  -- A pass whose table cannot be read considers no row.
  have hover : ∀ listed s', r.rowsOf s i = some (r.mine listed) → s'.Holds id key →
      (r.passOver i listed s').loop.Holds id key ∧
        ∀ c ∈ (r.passOver i listed s').mounted, rowId c ≠ id := by
    intro listed s' hrows hs'
    unfold Reconnector.passOver
    cases hmounts : i.mounts with
    | error e => exact ⟨hs', fun c hc => absurd hc List.not_mem_nil⟩
    | ok mounts => exact hpass _ mounts s' hrows hmounts hs'
  have hlast : (s.wake i).lastList = s.lastList := by
    unfold Loop.wake
    dsimp only
    split
    · rfl
    · rfl
  unfold Reconnector.tick
  unfold Reconnector.rowsOf at hover
  cases hlisted : i.listed with
  | ok listed =>
      rw [hlisted] at hover
      exact hover listed _ rfl hwoken
  | error e =>
      rw [hlisted] at hover
      cases e with
      | smbpal e =>
          -- The rows are those read last, which waking leaves as they are.
          refine hover (s.wake i).lastList _ ?_ hwoken
          rw [hlast]
      | os detail => exact ⟨hwoken, fun c hc => absurd hc List.not_mem_nil⟩
      | exception => exact ⟨hwoken, fun c hc => absurd hc List.not_mem_nil⟩
      | interrupt => exact ⟨hwoken, fun c hc => absurd hc List.not_mem_nil⟩

/-- An event that does not free a held connection keeps it held and tries no
    mount for it. -/
theorem step_holds {e : LoopEvent} (hs : s.Holds id key) (h : ¬r.Frees id key s e)
    (hone : r.OneKey id s e) :
    (r.step s e).Holds id key ∧ ∀ c ∈ r.mountsIn s e, rowId c ≠ id := by
  cases e with
  | pass i => exact tick_holds hs h hone
  | released mountpoint =>
      rcases hs with ⟨t, ht, hkey, hheld⟩
      refine ⟨⟨t.release mountpoint, congrArg (Option.map _) ht, ?_⟩,
        fun c hc => absurd hc List.not_mem_nil⟩
      unfold Track.release
      split
      · exact ⟨hkey, Option.some_ne_none _⟩
      · exact ⟨hkey, hheld⟩
  | connected share mountpoint =>
      rcases hs with ⟨t, ht, hkey, hheld⟩
      refine ⟨⟨t.connect share mountpoint, congrArg (Option.map _) ht, ?_⟩,
        fun c hc => absurd hc List.not_mem_nil⟩
      unfold Track.connect
      rw [if_neg fun hshare => h (hshare.symm.trans hkey)]
      exact ⟨hkey, hheld⟩

/-- Over any events of which none frees it, and while the rows of its id have one
    share, a held connection stays held and no mount is tried for it. -/
theorem held_until_freed (r : Reconnector) (id : Str) (key : MountKey) (s : Loop)
    (hs : s.Holds id key) (events : List LoopEvent)
    (h : GuardedRun.Along r.step (fun s e => ¬r.Frees id key s e ∧ r.OneKey id s e) s events) :
    (events.foldl r.step s).Holds id key ∧ ∀ c ∈ r.mountsOver s events, rowId c ≠ id := by
  induction events generalizing s with
  | nil => exact ⟨hs, fun c hc => absurd hc List.not_mem_nil⟩
  | cons e events ih =>
      rcases h with ⟨⟨hfree, hone⟩, hrest⟩
      rcases step_holds hs hfree hone with ⟨hholds, hmounts⟩
      rcases ih (r.step s e) hholds hrest with ⟨hend, hmounted⟩
      refine ⟨hend, fun c hc => ?_⟩
      rcases List.mem_append.mp hc with hc | hc
      · exact hmounts c hc
      · exact hmounted c hc

end Held

section Refused

attribute [local instance] Unicode.ascii

/-- Ann's loop. -/
def annsLoop : Reconnector :=
  { uid := 501, username := str "ann", interval := 5 }

/-- Ann's connection. -/
def annsMusic : Connection :=
  { id := some (str "music")
    host := some (str "nas")
    share := some (str "Music")
    mountpoint := some (str "/Volumes/Music")
    credentialRef := none
    autoConnect := none
    owner := some (str "ann")
    fallbackHost := none
    credentialAccount := none
    keychainCredential := none
    disconnected := none }

/-- A pass over these rows with nothing mounted, on which the server refuses the
    password. -/
def refusingPass (rows : List Connection) (now : Rat) (networkChanged : Bool) : PassInput :=
  { volumeTrouble := false
    networkChanged := networkChanged
    wall := now
    now := now
    listed := .ok rows
    mounts := .ok []
    attempts := fun _ => { outcome := .netfs (str "refused") false .authFailed, took := 1 } }

theorem not_mounted_refusing {rows : List Connection} {now : Rat} {changed : Bool}
    {key : MountKey} :
    ¬∃ mounts, (refusingPass rows now changed).mounts = .ok mounts ∧
      annsLoop.Mounted mounts key := by
  rintro ⟨mounts, hmounts, m, hm, -⟩
  rw [← Except.ok.inj hmounts] at hm
  exact List.not_mem_nil hm

/-- The loop, once the password was refused for these rows. -/
def Loop.refused (rows : List Connection) : Loop :=
  annsLoop.step .start (.pass (refusingPass rows 0 false))

/-- A change of the network does not have a refused password tried again. -/
theorem held_until_freed_refused :
    ([LoopEvent.pass (refusingPass [annsMusic] 5 true)].foldl annsLoop.step
        (Loop.refused [annsMusic])).Holds (str "music") (mountKey (str "nas") (str "Music")) ∧
      ∀ c ∈ annsLoop.mountsOver (Loop.refused [annsMusic])
        [.pass (refusingPass [annsMusic] 5 true)], rowId c ≠ str "music" := by
  have hmine : annsLoop.mine [annsMusic] = [annsMusic] := by decide +kernel
  refine held_until_freed annsLoop (str "music") (mountKey (str "nas") (str "Music")) _ ?_
    [.pass (refusingPass [annsMusic] 5 true)] ⟨⟨?_, ?_⟩, trivial⟩
  · refine ⟨((Loop.refused [annsMusic]).tracks (str "music")).get
      (by decide +kernel), ?_, by decide +kernel, by decide +kernel⟩
    rw [Option.some_get]
  · rintro (hmounted | ⟨rows, hrows, hgone⟩)
    · exact not_mounted_refusing hmounted
    · cases hrows
      rw [hmine] at hgone
      exact hgone annsMusic (List.mem_singleton_self _) (by decide +kernel) rfl
  · intro rows hrows c hc d hd _ _
    cases hrows
    rw [hmine] at hc hd
    rw [List.mem_singleton.mp hc, List.mem_singleton.mp hd]

/-- Two shares of Ann's without an id. -/
def annsBare : List Connection :=
  [{ annsMusic with id := none },
    { annsMusic with
      id := none
      share := some (str "Films")
      mountpoint := some (str "/Volumes/Films") }]

/-- Their passwords are refused for good, and tried again on the next pass, on
    which nothing has changed. -/
theorem mounts_refused_again :
    (Loop.refused annsBare).Holds (str "None") (mountKey (str "nas") (str "Films")) ∧
      ¬annsLoop.Frees (str "None") (mountKey (str "nas") (str "Films")) (Loop.refused annsBare)
        (.pass (refusingPass annsBare 5 false)) ∧
      ∃ c ∈ annsLoop.mountsOver (Loop.refused annsBare) [.pass (refusingPass annsBare 5 false)],
        rowId c = str "None" ∧ rowKey c = mountKey (str "nas") (str "Films") := by
  have hmine : annsLoop.mine annsBare = annsBare := by decide +kernel
  refine ⟨?_, ?_, by decide +kernel⟩
  · refine ⟨((Loop.refused annsBare).tracks (str "None")).get
      (by decide +kernel), ?_, by decide +kernel, by decide +kernel⟩
    rw [Option.some_get]
  · rintro (hmounted | ⟨rows, hrows, hgone⟩)
    · exact not_mounted_refusing hmounted
    · cases hrows
      rw [hmine] at hgone
      exact hgone _ (List.mem_cons_of_mem _ (List.mem_singleton_self _)) (by decide +kernel)
        (by decide +kernel)

end Refused

end Smbpal
