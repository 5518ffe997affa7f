import Mathlib.Data.List.Sort
import Smbpal.Lib.Grouping
import Smbpal.Python.Text

/-!
# One Row per Machine

`merge` in `discovery/browse.py`: the records of a browse, as they came in, made into a row for
each machine.

A machine is known by its hostname, whatever the case: it has a record for each interface and
each address, and its instance names differ between the services it announces. A record is of
use when it is not this machine's own, and its address one that can be typed.

What ends in a row is decided by the records of its hostname alone (`Lib.lookup_gather`), so a
row is described by what was heard of one name (`Gathered`), and the order of the announcements
is left with nothing but the choice of what to show.

## Main definitions

* `Service`, `BrowseMachine`: A resolved record, and a row.
* `merge`: The rows.
* `IsInteresting`: The records rows are made of.
* `MergedRow`: What a row says of the records.

## Theorems

* `gathered_of_foldl`: What the records of one name come to.
* `mem_merge`: Each row is of the records of its name.
* `merge_exact`: A row for each name that was heard, and each row what was heard of it, in
  whatever order.
-/

namespace Smbpal

open Lib

/-- One resolved record. -/
structure Service where
  interface : Str
  protocol : Str
  name : Str
  type : Str
  domain : Str
  hostname : Str
  address : Str
  port : Int
  txt : Str
  deriving DecidableEq

/-- One machine, however many records it published. -/
structure BrowseMachine where
  name : Str
  hostname : Str
  addresses : List Str
  port : Int
  runningSmbpal : Bool

section Browse

variable [Unicode]

/-- `_is_uninteresting`: the machine itself, or an address nobody can use. -/
def isUninteresting (service : Service) : Bool :=
  if service.interface = str "lo" ∨ service.interface = str "lo0" ∨
      service.address = str "127.0.0.1" ∨ service.address = str "::1" then
    true
  else if startsWith (lower service.address) "fe80:" then
    true
  else
    decide (service.hostname = [])

omit [Unicode] in
/-- `_address_sort_key`: the addresses of IPv4 come first. -/
def addressSortKey (address : Str) : Nat × Str :=
  if chr ':' ∈ address then (1, address) else (0, address)

omit [Unicode] in
/-- The order of pairs. -/
def sortKeyLe (a b : Nat × Str) : Bool :=
  decide (a.1 < b.1) || decide (a.1 = b.1) && strLe a.2 b.2

omit [Unicode] in
/-- `machine.addresses.append`, when it has not got the address. -/
def BrowseMachine.addAddress (machine : BrowseMachine) (service : Service) : BrowseMachine :=
  if service.address ∈ machine.addresses then machine
  else { machine with addresses := machine.addresses ++ [service.address] }

omit [Unicode] in
/-- The row a record starts. -/
def Service.newMachine (service : Service) : BrowseMachine where
  name := service.name
  hostname := service.hostname
  addresses := []
  port := service.port
  runningSmbpal := false

/-- The first loop of `merge`, for one record. -/
def addService (machines : List (Str × BrowseMachine)) (service : Service) :
    List (Str × BrowseMachine) :=
  if isUninteresting service then machines
  else
    upsert (lower service.hostname) service.newMachine (fun machine => machine.addAddress service)
      machines

omit [Unicode] in
/-- `machine.running_smbpal = True`. -/
def BrowseMachine.markRunning (machine : BrowseMachine) : BrowseMachine :=
  { machine with runningSmbpal := true }

/-- The second loop of `merge`, for one record. -/
def joinSmbpal (machines : List (Str × BrowseMachine)) (service : Service) :
    List (Str × BrowseMachine) :=
  alter (lower service.hostname) BrowseMachine.markRunning machines

omit [Unicode] in
/-- `machine.addresses.sort`. -/
def BrowseMachine.sortAddresses (machine : BrowseMachine) : BrowseMachine :=
  { machine with
    addresses := machine.addresses.insertionSort fun a b =>
      sortKeyLe (addressSortKey a) (addressSortKey b) = true }

/-- `merge`. -/
def merge (smb smbpal : List Service) : List BrowseMachine :=
  let machines := smbpal.foldl joinSmbpal (smb.foldl addService [])
  (machines.map fun row => row.2.sortAddresses).insertionSort fun a b =>
    strLe (lower a.name) (lower b.name) = true

/-- What rows are made of. -/
def IsInteresting (service : Service) : Prop :=
  isUninteresting service = false

/-- The records of a name that rows are made of. -/
def heardOf (smb : List Service) (key : Str) : List Service :=
  (smb.filter fun service => !isUninteresting service).filter fun service =>
    decide (lower service.hostname = key)

omit [Unicode] in
/-- One record of a name, on the row it has so far. -/
def collect (machine : Option BrowseMachine) (service : Service) : Option BrowseMachine :=
  some ((machine.getD service.newMachine).addAddress service)

omit [Unicode] in
/-- What a row says of the records it is made of. -/
structure Gathered (services : List Service) (machine : BrowseMachine) : Prop where
  display : ∃ service ∈ services, service.name = machine.name ∧
    service.hostname = machine.hostname ∧ service.port = machine.port
  nodup : machine.addresses.Nodup
  addresses : ∀ address, address ∈ machine.addresses ↔
    ∃ service ∈ services, service.address = address
  running : machine.runningSmbpal = false

/-- What a row of the result says of all the records. -/
structure MergedRow (smb smbpal : List Service) (machine : BrowseMachine) : Prop where
  display : ∃ service ∈ smb, IsInteresting service ∧ service.name = machine.name ∧
    service.hostname = machine.hostname ∧ service.port = machine.port
  nodup : machine.addresses.Nodup
  addresses : ∀ address, address ∈ machine.addresses ↔
    ∃ service ∈ smb, IsInteresting service ∧
      lower service.hostname = lower machine.hostname ∧ service.address = address
  sorted : machine.addresses.Pairwise fun a b =>
    sortKeyLe (addressSortKey a) (addressSortKey b) = true
  running : machine.runningSmbpal = true ↔
    ∃ service ∈ smbpal, lower service.hostname = lower machine.hostname

theorem mem_heardOf {smb : List Service} {key : Str} {service : Service} :
    service ∈ heardOf smb key ↔
      service ∈ smb ∧ IsInteresting service ∧ lower service.hostname = key := by
  rw [heardOf, List.mem_filter, List.mem_filter, decide_eq_true_eq, Bool.not_eq_true', and_assoc]
  rfl

omit [Unicode] in
theorem mem_addAddress {machine : BrowseMachine} {service : Service} {address : Str} :
    address ∈ (machine.addAddress service).addresses ↔
      address ∈ machine.addresses ∨ service.address = address := by
  unfold BrowseMachine.addAddress
  by_cases hmem : service.address ∈ machine.addresses
  · rw [if_pos hmem]
    exact (or_iff_left_of_imp fun heq => heq ▸ hmem).symm
  · rw [if_neg hmem, List.mem_append, List.mem_singleton, eq_comm]

omit [Unicode] in
theorem nodup_addAddress {machine : BrowseMachine} (service : Service)
    (h : machine.addresses.Nodup) :
    (machine.addAddress service).addresses.Nodup := by
  unfold BrowseMachine.addAddress
  by_cases hmem : service.address ∈ machine.addresses
  · rw [if_pos hmem]
    exact h
  · rw [if_neg hmem]
    refine List.nodup_append.mpr ⟨h, List.nodup_singleton _, fun a ha b hb heq => hmem ?_⟩
    rw [← List.mem_singleton.mp hb, ← heq]
    exact ha

omit [Unicode] in
/-- An address leaves everything else of the row as it is. -/
theorem addAddress_rest (machine : BrowseMachine) (service : Service) :
    (machine.addAddress service).name = machine.name ∧
      (machine.addAddress service).hostname = machine.hostname ∧
      (machine.addAddress service).port = machine.port ∧
      (machine.addAddress service).runningSmbpal = machine.runningSmbpal := by
  unfold BrowseMachine.addAddress
  by_cases hmem : service.address ∈ machine.addresses
  · rw [if_pos hmem]
    exact ⟨rfl, rfl, rfl, rfl⟩
  · rw [if_neg hmem]
    exact ⟨rfl, rfl, rfl, rfl⟩

omit [Unicode] in
/-- A name has a row as soon as there is a record of it. -/
theorem foldl_collect_eq_none {services : List Service} :
    services.foldl collect none = none ↔ services = [] := by
  rcases List.eq_nil_or_concat services with rfl | ⟨services, service, rfl⟩
  · exact ⟨fun _ => rfl, fun _ => rfl⟩
  · rw [List.concat_eq_append, List.foldl_append, List.foldl_cons, List.foldl_nil, collect]
    simp only [reduceCtorEq, List.append_eq_nil_iff, List.cons_ne_self, and_false]

omit [Unicode] in
/-- What the records of one name come to. -/
theorem gathered_of_foldl {services : List Service} {machine : BrowseMachine}
    (h : services.foldl collect none = some machine) : Gathered services machine := by
  induction services using List.reverseRecOn generalizing machine with
  | nil => exact absurd h (by simp only [List.foldl_nil, reduceCtorEq, not_false_eq_true])
  | append_singleton services service ih =>
      rw [List.foldl_append, List.foldl_cons, List.foldl_nil, collect, Option.some.injEq] at h
      have hlast : service ∈ services ++ [service] :=
        List.mem_append_right _ List.mem_cons_self
      cases hbefore : services.foldl collect none with
      | none =>
          -- The record is the first of its name.
          obtain rfl := foldl_collect_eq_none.mp hbefore
          rw [hbefore, Option.getD_none] at h
          obtain ⟨hname, hhost, hport, hrunning⟩ := addAddress_rest service.newMachine service
          rw [h] at hname hhost hport hrunning
          refine ⟨⟨service, hlast, hname.symm, hhost.symm, hport.symm⟩, ?_, fun address => ?_,
            hrunning⟩
          · rw [← h]
            exact nodup_addAddress service List.nodup_nil
          · rw [← h, mem_addAddress, List.nil_append]
            simp only [Service.newMachine, List.not_mem_nil, false_or, List.mem_singleton,
              exists_eq_left]
      | some before =>
          have hgathered := ih hbefore
          rw [hbefore, Option.getD_some] at h
          obtain ⟨hname, hhost, hport, hrunning⟩ := addAddress_rest before service
          rw [h] at hname hhost hport hrunning
          refine ⟨?_, ?_, fun address => ?_, hrunning.trans hgathered.running⟩
          · rcases hgathered.display with ⟨shown, hmem, hshown⟩
            rw [hname, hhost, hport]
            exact ⟨shown, List.mem_append_left _ hmem, hshown⟩
          · rw [← h]
            exact nodup_addAddress service hgathered.nodup
          · rw [← h, mem_addAddress, hgathered.addresses address]
            simp only [List.mem_append, List.mem_singleton, or_and_right, exists_or,
              exists_eq_left]

/-- The first loop is a gathering of the records that count. -/
theorem foldl_addService (smb : List Service) (rows : List (Str × BrowseMachine)) :
    smb.foldl addService rows =
      gather (fun service => lower service.hostname) Service.newMachine
        BrowseMachine.addAddress rows
        (smb.filter fun service => !isUninteresting service) := by
  rw [gather, List.foldl_filter]
  congr 1
  funext rows service
  unfold addService
  cases isUninteresting service with
  | true => rfl
  | false => rfl

/-- A name's row is made of the records of the name. -/
theorem lookup_addServices (smb : List Service) (key : Str) :
    (smb.foldl addService []).lookup key = (heardOf smb key).foldl collect none := by
  rw [foldl_addService, lookup_gather]
  rfl

theorem nodup_addServices (smb : List Service) :
    ((smb.foldl addService []).map Prod.fst).Nodup := by
  have hnone : (([] : List (Str × BrowseMachine)).map Prod.fst).Nodup := List.nodup_nil
  rw [foldl_addService]
  exact nodup_keys_gather _ _ _ hnone _

/-- The second loop marks the rows whose name was heard of the other service. -/
theorem lookup_joinSmbpal (smbpal : List Service) (rows : List (Str × BrowseMachine)) (key : Str) :
    (smbpal.foldl joinSmbpal rows).lookup key = (rows.lookup key).map fun machine =>
      { machine with
        runningSmbpal := machine.runningSmbpal ||
          smbpal.any fun service => decide (lower service.hostname = key) } := by
  induction smbpal generalizing rows with
  | nil =>
      rw [List.foldl_nil]
      cases rows.lookup key with
      | none => rfl
      | some machine => simp only [List.any_nil, Bool.or_false, Option.map_some]
  | cons service smbpal ih =>
      rw [List.foldl_cons, ih, joinSmbpal, lookup_alter]
      -- A record under the name sets the flag, and any other leaves the row.
      by_cases hkey : key = lower service.hostname
      · rw [if_pos hkey, Option.map_map]
        cases rows.lookup key with
        | none => rfl
        | some machine =>
            simp only [Option.map_some, Function.comp_apply,
              BrowseMachine.markRunning, Bool.true_or,
              List.any_cons, decide_eq_true hkey.symm, Bool.or_true]
      · rw [if_neg hkey]
        simp only [List.any_cons, decide_eq_false (Ne.symm hkey), Bool.false_or]

theorem keys_joinSmbpal (smbpal : List Service) (rows : List (Str × BrowseMachine)) :
    (smbpal.foldl joinSmbpal rows).map Prod.fst = rows.map Prod.fst := by
  induction smbpal generalizing rows with
  | nil => rfl
  | cons service smbpal ih =>
      rw [List.foldl_cons, ih]
      exact keys_alter _ _ rows

omit [Unicode] in
theorem sortKeyLe_total (a b : Nat × Str) : sortKeyLe a b = true ∨ sortKeyLe b a = true := by
  unfold sortKeyLe
  simp only [Bool.or_eq_true, Bool.and_eq_true, decide_eq_true_eq]
  have hnames := strLe_total a.2 b.2
  rcases Nat.lt_trichotomy a.1 b.1 with hlt | heq | hgt
  · exact Or.inl (Or.inl hlt)
  · exact hnames.imp (fun h => Or.inr ⟨heq, h⟩) fun h => Or.inr ⟨heq.symm, h⟩
  · exact Or.inr (Or.inl hgt)

omit [Unicode] in
theorem sortKeyLe_trans {a b c : Nat × Str} (hab : sortKeyLe a b = true)
    (hbc : sortKeyLe b c = true) : sortKeyLe a c = true := by
  unfold sortKeyLe at *
  simp only [Bool.or_eq_true, Bool.and_eq_true, decide_eq_true_eq] at *
  rcases hab with hlt | ⟨heq, hab⟩
  · rcases hbc with hlt' | ⟨heq', -⟩
    · exact Or.inl (by omega)
    · exact Or.inl (by omega)
  · rcases hbc with hlt' | ⟨heq', hbc⟩
    · exact Or.inl (by omega)
    · exact Or.inr ⟨heq.trans heq', strLe_trans hab hbc⟩

omit [Unicode] in
theorem addressSortKey_snd (address : Str) : (addressSortKey address).2 = address := by
  unfold addressSortKey
  split
  · rfl
  · rfl

omit [Unicode] in
/-- Addresses that come one before the other both ways are one. -/
theorem addressSortKey_antisymm {a b : Str}
    (hab : sortKeyLe (addressSortKey a) (addressSortKey b) = true)
    (hba : sortKeyLe (addressSortKey b) (addressSortKey a) = true) : a = b := by
  unfold sortKeyLe at hab hba
  simp only [Bool.or_eq_true, Bool.and_eq_true, decide_eq_true_eq, addressSortKey_snd] at hab hba
  rcases hab with hlt | ⟨heq, hab⟩
  · rcases hba with hlt' | ⟨heq, -⟩
    · omega
    · omega
  · rcases hba with hlt' | ⟨-, hba⟩
    · omega
    · exact strLe_antisymm hab hba

omit [Unicode] in
/-- An address of IPv6 has none of IPv4 behind it. -/
theorem colon_of_sortKeyLe {a b : Str}
    (h : sortKeyLe (addressSortKey a) (addressSortKey b) = true) (ha : chr ':' ∈ a) :
    chr ':' ∈ b := by
  by_contra hb
  unfold sortKeyLe addressSortKey at h
  rw [if_pos ha, if_neg hb] at h
  simp at h

omit [Unicode] in
theorem pairwise_sortAddresses (machine : BrowseMachine) :
    machine.sortAddresses.addresses.Pairwise fun a b =>
      sortKeyLe (addressSortKey a) (addressSortKey b) = true :=
  haveI : Std.Total fun a b : Str => sortKeyLe (addressSortKey a) (addressSortKey b) = true :=
    ⟨fun _ _ => sortKeyLe_total _ _⟩
  haveI : IsTrans Str fun a b => sortKeyLe (addressSortKey a) (addressSortKey b) = true :=
    ⟨fun _ _ _ => sortKeyLe_trans⟩
  List.pairwise_insertionSort _ _

/-- The rows before they are sorted. -/
def joined (smb smbpal : List Service) : List (Str × BrowseMachine) :=
  smbpal.foldl joinSmbpal (smb.foldl addService [])

theorem nodup_joined (smb smbpal : List Service) :
    ((joined smb smbpal).map Prod.fst).Nodup := by
  rw [joined, keys_joinSmbpal]
  exact nodup_addServices smb

/-- A row says what was heard of its name. -/
theorem row_of_mem_joined {smb smbpal : List Service} {key : Str} {machine : BrowseMachine}
    (h : (key, machine) ∈ joined smb smbpal) :
    lower machine.hostname = key ∧ MergedRow smb smbpal machine.sortAddresses := by
  rw [mem_iff_lookup (nodup_joined smb smbpal), joined, lookup_joinSmbpal, lookup_addServices,
    Option.map_eq_some_iff] at h
  rcases h with ⟨before, hbefore, rfl⟩
  have hgathered := gathered_of_foldl hbefore
  rcases hgathered.display with ⟨shown, hshown, hname, hhost, hport⟩
  rw [mem_heardOf] at hshown
  have hkey : lower before.hostname = key := hhost ▸ hshown.2.2
  have hsorted := List.perm_insertionSort
    (fun a b => sortKeyLe (addressSortKey a) (addressSortKey b) = true) before.addresses
  refine ⟨hkey, ⟨shown, hshown.1, hshown.2.1, hname, hhost, hport⟩, ?_, fun address => ?_,
    pairwise_sortAddresses _, ?_⟩
  · exact hsorted.nodup_iff.mpr hgathered.nodup
  · refine (hsorted.mem_iff.trans (hgathered.addresses address)).trans ?_
    simp only [mem_heardOf, BrowseMachine.sortAddresses, hkey, and_assoc]
  · simp only [BrowseMachine.sortAddresses, hgathered.running, Bool.false_or, List.any_eq_true,
      decide_eq_true_eq, hkey]

/-- The rows come out as they went in, but in order and with their addresses in order. -/
theorem merge_perm_joined (smb smbpal : List Service) :
    (merge smb smbpal).Perm ((joined smb smbpal).map fun row => row.2.sortAddresses) :=
  List.perm_insertionSort _ _

/-- Each row is of the records of its name. -/
theorem mem_merge {smb smbpal : List Service} {machine : BrowseMachine}
    (h : machine ∈ merge smb smbpal) : MergedRow smb smbpal machine := by
  rcases List.mem_map.mp ((merge_perm_joined smb smbpal).mem_iff.mp h) with ⟨⟨key, row⟩, hrow, rfl⟩
  exact (row_of_mem_joined hrow).2

theorem hostnames_merge (smb smbpal : List Service) :
    ((merge smb smbpal).map fun machine => lower machine.hostname).Perm
      ((joined smb smbpal).map Prod.fst) := by
  refine ((merge_perm_joined smb smbpal).map _).trans (List.Perm.of_eq ?_)
  rw [List.map_map]
  refine List.map_congr_left fun row hrow => ?_
  exact (row_of_mem_joined hrow).1

/-- No name has two rows. -/
theorem nodup_hostnames_merge (smb smbpal : List Service) :
    ((merge smb smbpal).map fun machine => lower machine.hostname).Nodup :=
  (hostnames_merge smb smbpal).nodup_iff.mpr (nodup_joined smb smbpal)

/-- The names with a row are those that something of use was heard of. -/
theorem mem_hostnames_merge {smb smbpal : List Service} {key : Str} :
    key ∈ (merge smb smbpal).map (fun machine => lower machine.hostname) ↔
      ∃ service ∈ smb, IsInteresting service ∧ lower service.hostname = key := by
  rw [(hostnames_merge smb smbpal).mem_iff, joined, keys_joinSmbpal, mem_keys_iff_lookup,
    ← Option.isSome_iff_exists, lookup_addServices, Option.isSome_iff_ne_none, Ne,
    foldl_collect_eq_none, List.eq_nil_iff_forall_not_mem]
  simp only [mem_heardOf, not_forall, not_not]

/-- What does not depend on which record came first. -/
def BrowseMachine.heard (machine : BrowseMachine) : Str × List Str × Bool :=
  (lower machine.hostname, machine.addresses, machine.runningSmbpal)

/-- Rows of one name, of the same records in any order, differ in what is shown alone. -/
theorem MergedRow.heard_eq {smb smb' smbpal smbpal' : List Service}
    {machine machine' : BrowseMachine}
    (h : MergedRow smb smbpal machine) (h' : MergedRow smb' smbpal' machine') (hsmb : smb.Perm smb')
    (hsmbpal : smbpal.Perm smbpal') (hkey : lower machine.hostname = lower machine'.hostname) :
    machine.heard = machine'.heard := by
  have hmem : ∀ address, address ∈ machine.addresses ↔ address ∈ machine'.addresses := by
    intro address
    rw [h.addresses, h'.addresses, hkey]
    simp only [hsmb.mem_iff]
  have haddresses : machine.addresses = machine'.addresses :=
    haveI : Std.Antisymm fun a b : Str => sortKeyLe (addressSortKey a) (addressSortKey b) = true :=
      ⟨fun _ _ => addressSortKey_antisymm⟩
    ((List.perm_ext_iff_of_nodup h.nodup h'.nodup).mpr hmem).eq_of_pairwise' h.sorted h'.sorted
  have hrunning : machine.runningSmbpal = machine'.runningSmbpal := by
    refine Bool.eq_iff_iff.mpr ?_
    rw [h.running, h'.running, hkey]
    simp only [hsmbpal.mem_iff]
  unfold BrowseMachine.heard
  rw [hkey, haddresses, hrunning]

theorem heard_of_perm {smb smb' smbpal smbpal' : List Service} (hsmb : smb.Perm smb')
    (hsmbpal : smbpal.Perm smbpal') {row : Str × List Str × Bool}
    (h : row ∈ (merge smb smbpal).map BrowseMachine.heard) :
    row ∈ (merge smb' smbpal').map BrowseMachine.heard := by
  rcases List.mem_map.mp h with ⟨machine, hmachine, rfl⟩
  -- The name of the row was heard, so it has a row among the others too.
  have hkey : lower machine.hostname ∈
      (merge smb' smbpal').map fun machine => lower machine.hostname := by
    rcases mem_hostnames_merge.mp (List.mem_map_of_mem hmachine) with ⟨service, hmem, hservice⟩
    exact mem_hostnames_merge.mpr ⟨service, hsmb.mem_iff.mp hmem, hservice⟩
  rcases List.mem_map.mp hkey with ⟨machine', hmachine', hsame⟩
  exact List.mem_map.mpr ⟨machine', hmachine',
    ((mem_merge hmachine).heard_eq (mem_merge hmachine') hsmb hsmbpal hsame.symm).symm⟩

/-- The order of the records decides nothing but what is shown of a machine. -/
theorem merge_perm {smb smb' smbpal smbpal' : List Service} (hsmb : smb.Perm smb')
    (hsmbpal : smbpal.Perm smbpal') :
    ((merge smb smbpal).map BrowseMachine.heard).Perm
      ((merge smb' smbpal').map BrowseMachine.heard) := by
  have hnodup : ∀ smb smbpal : List Service,
      ((merge smb smbpal).map BrowseMachine.heard).Nodup := by
    intro smb smbpal
    refine List.Nodup.of_map Prod.fst ?_
    rw [List.map_map]
    exact nodup_hostnames_merge smb smbpal
  exact (List.perm_ext_iff_of_nodup (hnodup smb smbpal) (hnodup smb' smbpal')).mpr fun _ =>
    ⟨heard_of_perm hsmb hsmbpal, heard_of_perm hsmb.symm hsmbpal.symm⟩

/-- **A row for each name that was heard, and each row what was heard of it.** The names are
    compared without case; a row has each address of its name's records once, those of IPv4
    first, and says that the machine runs this program exactly when a record says so. In
    another order the records make the same rows, but for the record a row shows. -/
theorem merge_exact (smb smbpal : List Service) :
    ((merge smb smbpal).map fun machine => lower machine.hostname).Nodup ∧
      (∀ key, key ∈ (merge smb smbpal).map (fun machine => lower machine.hostname) ↔
        ∃ service ∈ smb, IsInteresting service ∧ lower service.hostname = key) ∧
      (∀ machine ∈ merge smb smbpal,
        machine.addresses.Nodup ∧
        (∀ address, address ∈ machine.addresses ↔ ∃ service ∈ smb, IsInteresting service ∧
          lower service.hostname = lower machine.hostname ∧ service.address = address) ∧
        (machine.addresses.Pairwise fun a b => chr ':' ∈ a → chr ':' ∈ b) ∧
        (machine.runningSmbpal = true ↔
          ∃ service ∈ smbpal, lower service.hostname = lower machine.hostname) ∧
        ∃ service ∈ smb, IsInteresting service ∧ service.name = machine.name ∧
          service.hostname = machine.hostname ∧ service.port = machine.port) ∧
      ∀ smb' smbpal', smb.Perm smb' → smbpal.Perm smbpal' →
        ((merge smb smbpal).map BrowseMachine.heard).Perm
        ((merge smb' smbpal').map BrowseMachine.heard) := by
  refine ⟨nodup_hostnames_merge smb smbpal, fun _ => mem_hostnames_merge, ?_,
    fun _ _ => merge_perm⟩
  intro machine hmachine
  have hrow := mem_merge hmachine
  exact ⟨hrow.nodup, hrow.addresses, hrow.sorted.imp fun h => colon_of_sortKeyLe h, hrow.running,
    hrow.display⟩

end Browse

section Heard

attribute [local instance] Unicode.ascii

/-- A record of a machine with two addresses, and its hostname in the case it was sent in. -/
def nasRecord (hostname address : String) : Service where
  interface := str "wlan0"
  protocol := str "IPv4"
  name := str "NAS"
  type := str "_smb._tcp"
  domain := str "local"
  hostname := str hostname
  address := str address
  port := 445
  txt := []

/-- Two records of one machine make one row, whichever came first. -/
theorem records_in_either_order :
    (merge [nasRecord "nas.local" "192.0.2.9", nasRecord "NAS.local" "2001:db8::1"]
        [nasRecord "nas.local" "192.0.2.9"]).map BrowseMachine.heard =
      [(str "nas.local", [str "192.0.2.9", str "2001:db8::1"], true)] ∧
    ((merge [nasRecord "nas.local" "192.0.2.9", nasRecord "NAS.local" "2001:db8::1"]
        [nasRecord "nas.local" "192.0.2.9"]).map BrowseMachine.heard).Perm
      ((merge [nasRecord "NAS.local" "2001:db8::1", nasRecord "nas.local" "192.0.2.9"]
        [nasRecord "nas.local" "192.0.2.9"]).map BrowseMachine.heard) :=
  ⟨by decide +kernel, (merge_exact _ _).2.2.2 _ _ (List.Perm.swap _ _ _) (List.Perm.refl _)⟩

end Heard

end Smbpal
