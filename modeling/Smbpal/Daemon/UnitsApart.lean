import Mathlib.Data.List.Nodup
import Smbpal.Daemon.Edits

/-!
# One Unit a Connection

On Linux a connection is two unit files named after its mountpoint, and
reconciling them takes for granted that no other connection has the same two.

`add_connection` compares mountpoints as strings, and the names are made of
them by an escaping that drops empty components (`escapePath_eq_iff`), so the
check is finer than what it protects: `/mnt/a` and `/mnt/a/` are two mountpoints
and one unit. `add_keeps_iff` says exactly which adds do no harm. Nothing else a
request does can move a connection, so `units_apart` holds of every run whose
adds are all of that kind: the names are apart, and applying any config of the
run, whatever was applied before it, does to a connection's units only what is
that connection's own. `one_unit_two_connections` is the run where they are not.

## Main definitions

* `UnitsApart`: No two connections have a unit in common.
* `KeepsTo`: What may be done to the units of one connection.
* `FreshPath`: An add at a mountpoint that is nobody's, spelled another way.
* `Placed`: The invariant.

## Theorems

* `add_keeps_iff`: When an add keeps mountpoints apart.
* `requestStep_placed`: Every request keeps them apart, when adds are fresh.
* `units_apart`: So does every run, and applying keeps to it.
* `one_unit_two_connections`: An add that is not fresh need not.
-/

namespace Smbpal

open Lib Program

section UnitsApart

/-- Two pairs of unit names with nothing in common. -/
def NamesApart : Except Exc (Str × Str) → Except Exc (Str × Str) → Prop
  | .ok m, .ok n => m.1 ≠ n.1 ∧ m.1 ≠ n.2 ∧ m.2 ≠ n.1 ∧ m.2 ≠ n.2
  | _, _ => True

instance : DecidableRel NamesApart := by
  intro x y
  unfold NamesApart
  split
  · infer_instance
  · infer_instance

/-- No two connections have a unit in common. -/
def UnitsApart (c : Config) : Prop :=
  (c.connections.map namesOf).Pairwise NamesApart

instance (c : Config) : Decidable (UnitsApart c) :=
  inferInstanceAs (Decidable (List.Pairwise _ _))

/-- What makes the unit names of a connection. -/
def place (c : Connection) : Option Str :=
  c.mountpoint.map collapse

theorem namesOf_ok {c : Connection} {names : Str × Str} (h : namesOf c = .ok names) :
    ∃ p, c.mountpoint = some p ∧ unitNames p = some names := by
  unfold namesOf at h
  split at h
  · rename_i names' hnames
    cases h
    exact Option.bind_eq_some_iff.mp hnames
  · exact nomatch h

theorem namesApart_of_place {a b : Connection} (h : place a ≠ place b) :
    NamesApart (namesOf a) (namesOf b) := by
  unfold NamesApart
  split
  · rename_i m n hm hn
    rcases namesOf_ok hm with ⟨p, hp, hm⟩
    rcases namesOf_ok hn with ⟨q, hq, hn⟩
    rcases unitNames_eq_iff hm hn with ⟨hiff, h1, h2, h12, h21⟩
    have hne : m ≠ n := by
      intro heq
      refine h ?_
      unfold place
      rw [hp, hq, Option.map_some, Option.map_some, hiff.mp heq]
    exact ⟨fun he => hne (h1.mp he), h12, h21, fun he => hne (h2.mp he)⟩
  · trivial

/-- A unit of two connections is at one place. -/
theorem place_of_unitOf {a b : Connection} {name : Str} (ha : UnitOf a name) (hb : UnitOf b name) :
    place a = place b := by
  by_contra hne
  rcases ha with ⟨m, hm, ha⟩
  rcases hb with ⟨n, hn, hb⟩
  have hapart := namesApart_of_place hne
  rw [hm, hn] at hapart
  rcases hapart with ⟨h11, h12, h21, h22⟩
  rcases ha with rfl | rfl
  · rcases hb with hb | hb
    · exact h11 hb
    · exact h12 hb
  · rcases hb with hb | hb
    · exact h21 hb
    · exact h22 hb

/-- What may be done to the units of `b`: write its own texts, and arm them as
    it says. -/
def KeepsTo (b : Connection) : DaemonOp → Prop
  | .writeUnit name text => UnitOf b name →
      (∃ ids path, text = mountUnit b ids path) ∨ text = automountUnit b
  | .unlinkUnit name => ¬ UnitOf b name
  | .systemctl (.stop name) => ¬ UnitOf b name
  | .systemctl (.disable name) => UnitOf b name → b.autoConnect = some (str "never")
  | _ => True

/-- Where places are apart, reconciling keeps to everyone's own units. -/
theorem keepsTo_of_reconciles {cs : List Connection} (hcs : (cs.map place).Nodup) {b : Connection}
    (hb : b ∈ cs) {op : DaemonOp} (h : Reconciles cs op) : KeepsTo b op := by
  -- No two connections are at one place, so a unit of both is of one.
  have howner : ∀ {c : Connection} {name : Str}, c ∈ cs →
      UnitOf c name → UnitOf b name → c = b := by
    intro c name hc hu hub
    have hnodup : cs.Nodup := List.Nodup.of_map _ hcs
    exact (List.nodup_map_iff_inj_on hnodup).mp hcs c hc b hb (place_of_unitOf hu hub)
  cases op
  case writeUnit name text =>
    intro hub
    rcases h with ⟨c, hc, names, hn, ⟨hname, hids⟩ | ⟨hname, htext⟩⟩
    · rw [← howner hc ⟨names, hn, Or.inl hname⟩ hub]
      exact Or.inl hids
    · rw [← howner hc ⟨names, hn, Or.inr hname⟩ hub]
      exact Or.inr htext
  -- A unit goes only if it is nobody's.
  case unlinkUnit name => exact h b hb
  case systemctl command =>
    cases command
    case stop name => exact h b hb
    case disable name =>
      intro hub
      rcases h with hnone | ⟨c, hc, hu, hnever⟩
      · exact absurd hub (hnone b hb)
      · rw [← howner hc hu hub]
        exact hnever
    all_goals trivial
  all_goals trivial

section Runs

variable [Unicode]

/-- Where an add would put its connection. -/
def addTarget (d : Dispatcher) (c : Config) (event : Request × Surroundings) : Except Exc Str := do
  let args ← newConnectionIn d event.2 event.1.uid event.1.params
  args.mountpointIn c

/-- The mountpoint is no stored one spelled another way. -/
def Fresh (c : Config) (mountpoint : Str) : Prop :=
  ∀ e ∈ c.connections, e.mountpoint ≠ some mountpoint → place e ≠ some (collapse mountpoint)

instance (c : Config) (mountpoint : Str) : Decidable (Fresh c mountpoint) :=
  inferInstanceAs (Decidable (∀ _ ∈ _, _ → _))

/-- The request edits connections, and adds one only at a fresh mountpoint. -/
def FreshPath (d : Dispatcher) (c : Config) (event : Request × Surroundings) : Prop :=
  editsConnections event.1.method = true ∧
    match event.1.method, addTarget d c event with
    | .connectionAdd, .ok mountpoint => Fresh c mountpoint
    | _, _ => True

/-- The same as a computation. -/
def isFreshPath (d : Dispatcher) (c : Config) (event : Request × Surroundings) : Bool :=
  editsConnections event.1.method &&
    match event.1.method, addTarget d c event with
    | .connectionAdd, .ok mountpoint => decide (Fresh c mountpoint)
    | _, _ => true

omit [Unicode] in
theorem isFreshPath_iff (d : Dispatcher) (c : Config) (event : Request × Surroundings) :
    isFreshPath d c event = true ↔ FreshPath d c event := by
  unfold isFreshPath FreshPath
  rw [Bool.and_eq_true]
  refine and_congr_right fun _ => ?_
  split
  · exact decide_eq_true_iff
  · exact iff_of_true rfl trivial

instance (d : Dispatcher) (c : Config) (event : Request × Surroundings) :
    Decidable (FreshPath d c event) :=
  decidable_of_iff _ (isFreshPath_iff d c event)

/-- A config with every connection in a place of its own. -/
structure Placed (c : Config) : Prop extends Tidy c where
  apart : (c.connections.map place).Nodup

/-- An add keeps places apart exactly when its mountpoint is fresh. -/
theorem add_keeps_iff {c doc : Config} {args : NewConnection} {added : Connection}
    {mountpoint : Str}
    (h : (c.connections.map place).Nodup) (hadd : Added c args doc added)
    (hm : args.mountpointIn c = .ok mountpoint) :
    (doc.connections.map place).Nodup ↔ Fresh c mountpoint := by
  have hplace : added.mountpoint = some mountpoint := by
    rcases hadd.mountpoint with ⟨m, hm', hadded⟩
    rw [hm, Except.ok.injEq] at hm'
    rw [hadded, hm']
  rw [hadd.result]
  dsimp only
  rw [List.map_append, List.map_singleton, List.nodup_append]
  have hadded : place added = some (collapse mountpoint) := by
    unfold place
    rw [hplace, Option.map_some]
  -- The places are apart just where the new one is at none of the others'.
  constructor
  · rintro ⟨-, -, hdisjoint⟩ e he -
    exact hadded ▸ hdisjoint (place e) (List.mem_map_of_mem he) _ (List.mem_singleton_self _)
  · intro hfresh
    refine ⟨h, List.nodup_singleton _, ?_⟩
    rintro _ ha _ hb rfl
    rw [List.mem_singleton, hadded] at hb
    rcases List.mem_map.mp ha with ⟨e, he, heq⟩
    rw [hb] at heq
    -- The same path would have been refused.
    refine hfresh e he ?_ heq
    rw [← hplace]
    exact hadd.samePath e he

omit [Unicode] in
theorem map_place {cs : List Connection} {f : Connection → Connection}
    (hkeeps : ∀ e ∈ cs, place (f e) = place e) : (cs.map f).map place = cs.map place := by
  rw [List.map_map]
  exact List.map_congr_left hkeeps

/-- A change that keeps ids and places keeps places apart. -/
theorem placed_of_map {c c' : Config} {f : Connection → Connection} (h : Placed c)
    (hvalid : c'.Valid) (hid : ∀ e ∈ c.connections, (f e).id = e.id)
    (hplace : ∀ e ∈ c.connections, place (f e) = place e)
    (hmap : c'.connections = c.connections.map f) : Placed c' where
  valid := hvalid
  named := by
    intro e he
    rw [hmap] at he
    rcases List.mem_map.mp he with ⟨e', he', rfl⟩
    rw [hid e' he']
    exact h.named e' he'
  apart := by
    rw [hmap, map_place hplace]
    exact h.apart

omit [Unicode] in
theorem place_of_site {a b : Connection} (h : a.site = b.site) : place a = place b :=
  congrArg (Option.map collapse) (congrArg Site.mountpoint h)

omit [Unicode] in
theorem id_of_site {a b : Connection} (h : a.site = b.site) : a.id = b.id :=
  congrArg Site.id h

/-- An edit of connections keeps places apart, when an add is fresh. -/
theorem edit_placed {d : Dispatcher} {env : Surroundings} {r : Request} {c c' : Config}
    (h : Placed c) (hfresh : FreshPath d c (r, env)) (hvalid : c'.Valid)
    (hedit : Edit d env r c c') : Placed c' := by
  rcases hfresh with ⟨hmethod, hfresh⟩
  unfold Edit at hedit
  rcases hm : r.method with _ | _ | _ | _ | _ | _ | _ | _ <;> rw [hm] at hedit hmethod <;>
    dsimp only at hedit
  case connectionAdd =>
    rcases hedit with ⟨args, hargs, doc, added, stored, hadd, hsite, happend⟩
    have hok := addConnection_ok hadd
    rcases hok.mountpoint with ⟨mountpoint, hmount, -⟩
    have htarget : addTarget d c (r, env) = .ok mountpoint :=
      except_bind_eq_ok.mpr ⟨args, hargs, hmount⟩
    dsimp only at hfresh
    rw [hm, htarget] at hfresh
    have hapart := (add_keeps_iff h.apart hok hmount).mpr hfresh
    rw [hok.result] at hapart
    dsimp only at hapart
    refine ⟨⟨hvalid, ?_⟩, ?_⟩
    · intro e he
      rw [happend] at he
      rcases List.mem_append.mp he with he | he
      · exact h.named e he
      · rcases hok.id with ⟨id, hid, -⟩
        rw [List.mem_singleton] at he
        rw [he, id_of_site hsite, hid]
        exact Option.some_ne_none id
    · rw [happend, List.map_append, List.map_singleton, place_of_site hsite, ← List.map_singleton,
        ← List.map_append]
      exact hapart
  case connectionRemove =>
    rcases hedit with ⟨before, removed, after, f, hf, hsplit, hmap⟩
    have hsub : (before ++ after).Sublist c.connections := by
      rw [hsplit]
      exact List.Sublist.append_left (List.sublist_cons_self _ _) _
    refine ⟨⟨hvalid, ?_⟩, ?_⟩
    · intro e he
      rw [hmap] at he
      rcases List.mem_map.mp he with ⟨e', he', rfl⟩
      rw [id_of_site (hf e')]
      exact h.named e' (hsub.subset he')
    · rw [hmap, map_place fun e _ => place_of_site (hf e)]
      exact List.Nodup.sublist (List.Sublist.map _ hsub) h.apart
  case connectionUseFallback =>
    rcases hedit with ⟨ref, found, fallback, -, hfound, -, rfl⟩
    have hmem := findConnection_mem hfound
    -- One id is one record, and a swap leaves that record's mountpoint alone.
    have hone : ∀ e ∈ c.connections, e.id = found.id → e = found := fun e he hid =>
      h.unique he hmem hid
    refine placed_of_map h hvalid ?_ ?_ rfl
    · intro e he
      dsimp only
      split
      · rename_i hid
        rw [hone e he hid]
        rfl
      · rfl
    · intro e he
      dsimp only
      split
      · rename_i hid
        rw [hone e he hid]
        rfl
      · rfl
  case connectionSetCredentials =>
    rcases hedit with ⟨f, hf, hmap⟩
    exact placed_of_map h hvalid (fun e _ => id_of_site (hf e))
      (fun e _ => place_of_site (hf e)) hmap
  all_goals exact absurd hmethod Bool.false_ne_true

theorem requestStep_placed {d : Dispatcher} {c c' : Config} {event : Request × Surroundings}
    (h : Placed c) (hfresh : FreshPath d c event) (hstep : requestStep d c event c') :
    Placed c' := by
  rcases requestStep_edits hstep with rfl | ⟨hvalid, hedit⟩
  · exact h
  · exact edit_placed h hfresh hvalid hedit

theorem placed_empty : Placed emptyConfig where
  valid := rfl
  named := fun _ he => absurd he List.not_mem_nil
  apart := List.nodup_nil

/-- In every config reached from the empty one by edits whose adds are fresh,
    no two connections have a unit in common, and applying it, whatever was
    applied before, does to a connection's units only what is its own. -/
theorem units_apart (d : Dispatcher) {c : Config}
    (hrun : GuardedRun (requestStep d) (FreshPath d) emptyConfig c) :
    UnitsApart c ∧ ∀ b ∈ c.connections, ∀ previous,
      Performs (S := daemonSig) (KeepsTo b) (mounterApply c previous) := by
  have h : Placed c := hrun.invariant Placed placed_empty fun _ _ _ h hfresh hstep =>
    requestStep_placed h hfresh hstep
  refine ⟨?_, fun b hb previous => ?_⟩
  · refine List.pairwise_map.mpr ?_
    exact (List.pairwise_map.mp h.apart).imp fun hne => namesApart_of_place hne
  · exact footprint_mono (footprint_mounterApply c previous)
      (fun _ => keepsTo_of_reconciles h.apart hb) fun _ h => h

end Runs

end UnitsApart

section Spellings

attribute [local instance] Unicode.ascii

set_option maxRecDepth 10000

/-- Add a share of one server at a mountpoint. -/
def addAt (share mountpoint : String) : Request :=
  { method := .connectionAdd
    uid := 0
    params := fun key =>
      if key = "host" then .string (str "nas")
      else if key = "share" then .string (str share)
      else if key = "mountpoint" then .string (str mountpoint)
      else if key = "id" then .string (str share)
      else .null }

theorem units_apart_twoPlaces :
    UnitsApart ([addAt "Music" "/mnt/a", addAt "Video" "/mnt/b"].foldl (serve linuxDaemon)
        emptyConfig) ∧
      ∀ b ∈ ([addAt "Music" "/mnt/a", addAt "Video" "/mnt/b"].foldl (serve linuxDaemon)
          emptyConfig).connections, ∀ previous,
        Performs (S := daemonSig) (KeepsTo b) (mounterApply
          ([addAt "Music" "/mnt/a", addAt "Video" "/mnt/b"].foldl (serve linuxDaemon) emptyConfig)
          previous) :=
  units_apart linuxDaemon (serve_run linuxDaemon (by decide +kernel))

/-- Two acknowledged adds at one place, spelled in two ways. -/
theorem one_unit_two_connections :
    ∃ c, GuardedRun (requestStep linuxDaemon)
        (fun _ event => editsConnections event.1.method = true) emptyConfig c ∧ ¬ UnitsApart c :=
  ⟨[addAt "Music" "/mnt/a", addAt "Video" "/mnt/a/"].foldl (serve linuxDaemon) emptyConfig,
    serve_run linuxDaemon (by decide +kernel), by decide +kernel⟩

end Spellings

end Smbpal
