import Mathlib.Data.List.Nodup
import Smbpal.Daemon.Edits

/-!
# One Connection a Share

Two connections to one share race for the same files, so `add_connection`
refuses a host and share that are configured already, as SMB compares them:
without case. Whether the stored config keeps that over any sequence of
requests is the business of every handler that can change a host, and there is
one more of those than there are checks: `connection.use_fallback` swaps the
host with the recorded fallback and asks nobody whether that address has a
connection to the share already.

`swap_keeps_iff` is exactly when a swap does no harm. `one_connection_per_share`
is the invariant over runs whose swaps all do none, and `swap_collides` a run of
acknowledged requests from an empty config whose last one does.

## Main definitions

* `shareKey`: What two connections to one share have in common.
* `OneEach`: No two connections to one share.
* `FreeSwap`: A swap to an address where nobody has the share.

## Theorems

* `swap_keeps_iff`: When a swap keeps one connection a share.
* `requestStep_oneEach`: Every request keeps it, when swaps are free.
* `one_connection_per_share`: So does every run.
* `swap_collides`: A swap that is not free need not.
-/

namespace Smbpal

open Lib Program

section OneConnection

variable [Unicode]

/-- What two connections to one share have in common. -/
def shareKey (c : Connection) : Str × Str :=
  (lower (pyStr c.host), lower (pyStr c.share))

/-- No two connections have the same host and share, ignoring case. -/
def OneEach (c : Config) : Prop :=
  (c.connections.map shareKey).Nodup

instance (c : Config) : Decidable (OneEach c) :=
  inferInstanceAs (Decidable (List.Nodup _))

theorem shareKey_congr {a b : Connection} (h : a.site = b.site) : shareKey a = shareKey b := by
  have hhost : a.host = b.host := congrArg Site.host h
  have hshare : a.share = b.share := congrArg Site.share h
  unfold shareKey
  rw [hhost, hshare]

theorem map_shareKey {h : Connection → Connection} (hkeeps : ∀ e, shareKey (h e) = shareKey e)
    (cs : List Connection) : (cs.map h).map shareKey = cs.map shareKey := by
  rw [List.map_map]
  exact List.map_congr_left fun e _ => hkeeps e

/-- What swapping the hosts of `found` must not run into: another record under
    its id, or another connection that has the share at the fallback address. -/
def SwapFree (c : Config) (found : Connection) (fallback : Str) : Prop :=
  (∀ e ∈ c.connections, e.id = found.id → e = found) ∧
    ∀ e ∈ c.connections, e ≠ found → shareKey e ≠ shareKey (swapHosts fallback found)

instance (c : Config) (found : Connection) (fallback : Str) :
    Decidable (SwapFree c found fallback) :=
  inferInstanceAs (Decidable (_ ∧ _))

/-- A swap keeps one connection a share exactly when it is free. -/
theorem swap_keeps_iff {c : Config} {found : Connection} {fallback : Str} (h : OneEach c)
    (hfound : found ∈ c.connections) :
    OneEach (updateWhere c found.id fun _ => swapHosts fallback found) ↔
      SwapFree c found fallback := by
  -- What is compared afterwards, record by record.
  let after := fun e : Connection =>
    shareKey (if e.id = found.id then swapHosts fallback found else e)
  have hnodup : c.connections.Nodup := List.Nodup.of_map _ h
  have hswapped : after found = shareKey (swapHosts fallback found) :=
    congrArg shareKey (if_pos rfl)
  have hother : ∀ e, e.id ≠ found.id → after e = shareKey e :=
    fun e he => congrArg shareKey (if_neg he)
  have hlist : OneEach (updateWhere c found.id fun _ => swapHosts fallback found) ↔
      (c.connections.map after).Nodup := by
    unfold OneEach updateWhere
    rw [List.map_map]
    rfl
  rw [hlist, List.nodup_map_iff_inj_on hnodup]
  constructor
  · intro hinj
    refine ⟨fun e he hid => hinj e he found hfound ?_, fun e he hne hkey => hne ?_⟩
    · rw [hswapped]
      exact congrArg shareKey (if_pos hid)
    · refine hinj e he found hfound ?_
      by_cases hid : e.id = found.id
      · rw [hswapped]
        exact congrArg shareKey (if_pos hid)
      · rw [hother e hid, hkey, hswapped]
  · rintro ⟨hone, hfree⟩ a ha b hb hab
    have hinj := (List.nodup_map_iff_inj_on hnodup).mp h
    by_cases hida : a.id = found.id
    · have hafound := hone a ha hida
      by_cases hidb : b.id = found.id
      · rw [hafound, hone b hb hidb]
      · rw [hafound, hswapped, hother b hidb] at hab
        exact absurd hab.symm (hfree b hb fun hbf => hidb (congrArg Connection.id hbf))
    · rw [hother a hida] at hab
      by_cases hidb : b.id = found.id
      · have hbfound := hone b hb hidb
        rw [hbfound, hswapped] at hab
        exact absurd hab (hfree a ha fun haf => hida (congrArg Connection.id haf))
      · rw [hother b hidb] at hab
        exact hinj a ha b hb hab

/-- The request is no swap, or one that would do no harm. -/
def FreeSwap (c : Config) (event : Request × Surroundings) : Prop :=
  match event.1.method, swapTarget c event.1.params with
  | .connectionUseFallback, .ok (found, fallback) => SwapFree c found fallback
  | _, _ => True

instance (c : Config) (event : Request × Surroundings) : Decidable (FreeSwap c event) := by
  unfold FreeSwap
  split
  · exact inferInstanceAs (Decidable (SwapFree _ _ _))
  · exact inferInstanceAs (Decidable True)

/-- An edit keeps one connection a share, when a swap is free. -/
theorem edit_oneEach {d : Dispatcher} {env : Surroundings} {r : Request} {c c' : Config}
    (h : OneEach c) (hfree : FreeSwap c (r, env)) (hedit : Edit d env r c c') : OneEach c' := by
  have hsame : ∀ {f : Connection → Connection}, (∀ e, shareKey (f e) = shareKey e) →
      c'.connections = c.connections.map f → OneEach c' := by
    intro f hf hmap
    unfold OneEach
    rw [hmap, map_shareKey hf]
    exact h
  unfold Edit at hedit
  rcases hm : r.method with _ | _ | _ | _ | _ | _ | _ | _ <;> rw [hm] at hedit <;>
    dsimp only at hedit
  case connectionAdd =>
    rcases hedit with ⟨args, -, doc, added, stored, hadd, hsite, happend⟩
    have hok := addConnection_ok hadd
    unfold OneEach
    rw [happend, List.map_append, List.map_singleton, shareKey_congr hsite]
    refine List.nodup_append.mpr ⟨h, List.nodup_singleton _, ?_⟩
    rintro _ ha _ hb rfl
    rw [List.mem_singleton] at hb
    rcases List.mem_map.mp ha with ⟨e, he, hkey⟩
    rw [hb] at hkey
    -- The add looked for exactly this pair.
    refine hok.sameShare e he ?_
    unfold shareKey at hkey
    rw [hok.host, hok.share, Prod.mk.injEq] at hkey
    exact hkey
  case connectionRemove =>
    rcases hedit with ⟨before, removed, after, f, hf, hsplit, hmap⟩
    unfold OneEach at h ⊢
    rw [hmap, map_shareKey fun e => shareKey_congr (hf e)]
    rw [hsplit] at h
    refine List.Nodup.sublist (List.Sublist.map _ ?_) h
    exact List.Sublist.append_left (List.sublist_cons_self _ _) _
  case connectionUseFallback =>
    rcases hedit with ⟨ref, found, fallback, href, hfound, hfallback, hc'⟩
    have htarget : swapTarget c r.params = .ok (found, fallback) :=
      except_bind_eq_ok.mpr ⟨ref, href, except_bind_eq_ok.mpr
        ⟨found, hfound, except_bind_eq_ok.mpr ⟨fallback, hfallback, rfl⟩⟩⟩
    unfold FreeSwap at hfree
    dsimp only at hfree
    rw [hm, htarget] at hfree
    rw [hc']
    exact (swap_keeps_iff h (findConnection_mem hfound)).mpr hfree
  case connectionSetCredentials =>
    rcases hedit with ⟨f, hf, hmap⟩
    exact hsame (fun e => shareKey_congr (hf e)) hmap
  case connectionConnect =>
    rcases hedit with ⟨f, hf, hmap⟩
    refine hsame (fun e => ?_) hmap
    rcases hf e with ⟨mountpoint, hsite⟩
    have hhost : (f e).host = e.host := congrArg Site.host hsite
    have hshare : (f e).share = e.share := congrArg Site.share hsite
    unfold shareKey
    rw [hhost, hshare]
  case connectionDisconnect =>
    rcases hedit with ⟨f, hf, hmap⟩
    exact hsame (fun e => shareKey_congr (hf e)) hmap
  case shareAdd =>
    unfold OneEach
    rw [hedit]
    exact h
  case shareRemove =>
    unfold OneEach
    rw [hedit]
    exact h

theorem requestStep_oneEach {d : Dispatcher} {c c' : Config} {event : Request × Surroundings}
    (h : OneEach c) (hfree : FreeSwap c event) (hstep : requestStep d c event c') : OneEach c' := by
  rcases requestStep_edits hstep with rfl | ⟨-, hedit⟩
  · exact h
  · exact edit_oneEach h hfree hedit

/-- Over any sequence of requests, succeeding or failing, whose swaps are free,
    no two connections come to have the same host and share. -/
theorem one_connection_per_share (d : Dispatcher) {c₀ c : Config} (h : OneEach c₀)
    (hrun : GuardedRun (requestStep d) FreeSwap c₀ c) : OneEach c :=
  hrun.invariant OneEach h fun _ _ _ h hfree hstep => requestStep_oneEach h hfree hstep

end OneConnection

section Swaps

attribute [local instance] Unicode.ascii

set_option maxRecDepth 10000

/-- Add `Music` of a host under an id, with a fallback address. -/
def addMusic (id host fallback : String) : Request :=
  { method := .connectionAdd
    uid := 0
    params := fun key =>
      if key = "host" then .string (str host)
      else if key = "share" then .string (str "Music")
      else if key = "mountpoint" then .string (str "/Volumes/" ++ str id)
      else if key = "id" then .string (str id)
      else if key = "fallback_host" then .string (str fallback)
      else .null }

/-- Swap the hosts of a connection. -/
def useFallback (id : String) : Request :=
  { method := .connectionUseFallback
    uid := 0
    params := fun key => if key = "ref" then .string (str id) else .null }

/-- A connection by name, and one by another address. -/
def nameAndAddress (address : String) : List Request :=
  [addMusic "byname" "nas" "10.0.0.5", addMusic "byaddress" address "nas.local",
  useFallback "byname"]

/-- The fallback is an address nobody has the share at. -/
theorem one_connection_per_share_nameAndAddress :
    OneEach ((nameAndAddress "10.0.0.9").foldl (serve darwinDaemon) emptyConfig) :=
  one_connection_per_share darwinDaemon (by decide)
    (serve_run darwinDaemon (by decide +kernel) :
      GuardedRun (requestStep darwinDaemon) FreeSwap emptyConfig _)

/-- The fallback is the address of the other connection: two acknowledged adds
    and a swap make two connections to one share. -/
theorem swap_collides :
    ∃ c, GuardedRun (requestStep darwinDaemon) (fun _ _ => True) emptyConfig c ∧
      OneEach emptyConfig ∧ ¬ OneEach c :=
  ⟨(nameAndAddress "10.0.0.5").foldl (serve darwinDaemon) emptyConfig,
    serve_run darwinDaemon (by decide +kernel), by decide, by decide +kernel⟩

end Swaps

end Smbpal
