import Smbpal.Python.Paths
import Smbpal.State.Eject

/-!
# What Is on Top

The monitor and the mounter ask what is mounted at a connection's mountpoint, and the answer
is the first entry of the kernel's table that is there. The kernel stacks later entries over
earlier ones, so it is the one at the bottom, and what programs see is the last. Where the
connection's share is at the bottom of a stack and something else on top of it, the
connection is connected and its mountpoint is its own (`covered_share_connected`).

Besides, a mountpoint that starts with two slashes keeps them when it is made normal, and
is then none the kernel knows: nothing is found there, whatever there is.

## Main definitions

* `KernelRow`: A row of the kernel's table.
* `topmostAt`: What the kernel has on top at a path.
* `OwnShare`: A mount of a connection's share.
* `Honest`: That only an own share on top passes for one.

## Theorems

* `occupantIn_eq`: What is found is at the bottom.
* `derive_connected_only`: A connected state is of a mount that is not foreign.
* `honest_iff`: When nothing else passes.
-/

namespace Smbpal

open Lib Program

section Top

/-- A mount at an absolute path with one slash in front and no `..` in it, as the kernel
    writes it. -/
structure KernelRow where
  row : MountRow
  absolute : startsWith row.mountpoint "/" = true
  oneSlash : startsWith row.mountpoint "//" = false
  resolved : str ".." ∉ splitChar '/' row.mountpoint

/-- The table of such rows. -/
def tableOf (rows : List KernelRow) : MountTable :=
  some (rows.map KernelRow.row)

/-- The row is a real filesystem at the path. -/
def KernelRow.coversAt (path : Str) (r : KernelRow) : Bool :=
  decide (components r.row.mountpoint = components path) && decide (r.row.fstype ≠ str "autofs")

/-- What is mounted at the path and no automount's trigger, from the bottom. -/
def stackAt (rows : List KernelRow) (path : Str) : List KernelRow :=
  rows.filter (KernelRow.coversAt path)

/-- What is on top. -/
def topmostAt (rows : List KernelRow) (path : Str) : Option KernelRow :=
  (stackAt rows path).getLast?

variable [Unicode]

/-- A cifs mount of the connection's share, under its host or the other one. -/
def OwnShare (c : Connection) (row : MountRow) : Prop :=
  row.fstype = str "cifs" ∧
    (lower row.source = lower (str "//" ++ pyStr c.host ++ str "/" ++ pyStr c.share) ∨
      ∃ fallback, c.fallbackHost = some fallback ∧ fallback ≠ [] ∧
        lower row.source = lower (str "//" ++ fallback ++ str "/" ++ pyStr c.share))

/-- Whatever is on top at the connection's mountpoint is its own share. -/
def OwnOnTop (rows : List KernelRow) (c : Connection) : Prop :=
  ∀ mountpoint, c.mountpoint = some mountpoint →
    ∀ top, topmostAt rows mountpoint = some top → OwnShare c top.row

variable [Decimals]

/-- The monitor's turn ends connected, and the mounter finds nothing foreign, only where
    what is on top is the connection's own. -/
structure Honest (rows : List KernelRow) (c : Connection) : Prop where
  connected : ∀ (servers : List (Str × Bool)) (s : Watched),
    Always (worldMachine fun w => w.table = tableOf rows) (stateOf c servers)
      (fun r _ => ∀ state, r = .ok state → state.state = .connected →
        OwnOnTop rows c ∧ ∃ mountpoint top, c.mountpoint = some mountpoint ∧
          topmostAt rows mountpoint = some top) s
  notForeign : ∀ mountpoint, c.mountpoint = some mountpoint →
    intruderIn (tableOf rows) c mountpoint = none → OwnOnTop rows c

end Top

/-! ### Where a row is found -/

section Rows

variable {path : Str}

theorem leadingSlashes_row (r : KernelRow) : leadingSlashes r.row.mountpoint = str "/" := by
  unfold leadingSlashes
  rw [r.oneSlash]
  rfl

/-- The components put together do not start with a slash. -/
theorem join_components_ne {s : Str} : join (str "/") (components path) ≠ chr '/' :: s := by
  intro h
  have hparts : pathParts (chr '/' :: s) = components path := h ▸ pathParts_components path
  cases hc : components path with
  | nil =>
      rw [hc] at h
      exact absurd h (List.cons_ne_nil _ _).symm
  | cons part parts =>
      have hmem : part ∈ components path := hc ▸ List.mem_cons_self
      rw [← hparts, mem_pathParts] at hmem
      have hslash : chr '/' ∉ part := not_mem_of_mem_splitChar hmem.1
      cases part with
      | nil => exact hmem.2 rfl
      | cons d part =>
          -- the first character is one of the first part
          have hd : d = chr '/' := by
            rw [hc] at h
            cases parts with
            | nil => exact (List.cons.inj h).1
            | cons next parts => exact (List.cons.inj h).1
          exact hslash (hd ▸ List.mem_cons_self)

theorem join_components_inj {other : Str}
    (h : join (str "/") (components path) = join (str "/") (components other)) :
    components path = components other := by
  rw [← pathParts_components path, h, pathParts_components]

/-- A kernel's path is at another when that one has one slash in front and the same
    components. -/
theorem normpath_row_eq_iff (r : KernelRow) (hpath : IsPath path) :
    normpath r.row.mountpoint = normpath path ↔
      leadingSlashes path = str "/" ∧ components r.row.mountpoint = components path := by
  rw [normpath_eq r.absolute r.resolved, normpath_eq hpath.absolute hpath.resolved,
    leadingSlashes_row]
  constructor
  · intro h
    by_cases hone : leadingSlashes path = str "/"
    · rw [hone] at h
      exact ⟨hone, join_components_inj (List.append_cancel_left h)⟩
    · have htwo : leadingSlashes path = str "//" := by
        unfold leadingSlashes at hone ⊢
        split_ifs at hone ⊢
        · rfl
        · exact absurd rfl hone
      rw [htwo] at h
      exact absurd (List.cons.inj h).2 join_components_ne
  · rintro ⟨hone, hcomponents⟩
    rw [hone, hcomponents]

/-- What the daemon finds is at the bottom of the stack. -/
theorem occupantIn_eq (rows : List KernelRow) (hpath : IsPath path) :
    occupantIn (tableOf rows) path =
      if leadingSlashes path = str "/" then (stackAt rows path).head?.map KernelRow.row
      else none := by
  -- A row is at the path where its own normal form is that of the path.
  have hat : ∀ r : KernelRow, r.row.isAt path false =
      (decide (leadingSlashes path = str "/") && r.coversAt path) := by
    intro r
    unfold MountRow.isAt KernelRow.coversAt
    rw [decide_eq_decide.mpr (normpath_row_eq_iff r hpath), Bool.decide_and, Bool.and_assoc,
      beq_false, decide_not]
  change (rows.map KernelRow.row).find? (fun row => row.isAt path false) = _
  rw [List.find?_map]
  have hsame : (fun row : MountRow => row.isAt path false) ∘ KernelRow.row =
      fun r => decide (leadingSlashes path = str "/") && r.coversAt path := funext hat
  rw [hsame]
  by_cases hone : leadingSlashes path = str "/"
  · rw [if_pos hone, decide_eq_true hone, stackAt, List.head?_filter]
    rfl
  · rw [if_neg hone, decide_eq_false hone]
    rw [Option.map_eq_none_iff, List.find?_eq_none]
    exact fun r _ => Bool.false_ne_true

/-- What is mounted has something at the bottom. -/
theorem occupantIn_of_isMountedIn {table : MountTable} (h : isMountedIn table path = some true) :
    ∃ row, occupantIn table path = some row := by
  cases table with
  | none => cases h
  | some rows =>
      have hany : (rows.any fun row => row.isAt path false) = true := Option.some.inj h
      rcases List.any_eq_true.mp hany with ⟨row, hrow, hat⟩
      exact Option.isSome_iff_exists.mp (List.find?_isSome.mpr ⟨row, hrow, hat⟩)

end Rows

section Derived

/-- Nothing systemd or a journal says of a failure makes it connected. -/
theorem failureState_not_connected {id : Option Str} {unit : UnitShow} {cause : Option Cause}
    (h : ∀ known, cause = some known → known.state ≠ .connected) :
    (failureState id unit cause).state ≠ .connected := by
  cases cause with
  | none => exact fun hword => by cases hword
  | some known =>
      have hknown : known.state ≠ .connected := h known rfl
      change stateOfCause known _ ≠ .connected
      unfold stateOfCause
      dsimp only
      split_ifs
      all_goals first
        | exact fun hword => by cases hword
        | exact hknown

/-- A connected state is of a mount that is not foreign. -/
theorem derive_connected_only {c : Connection} {mounted : Option Bool} {unit : Option UnitShow}
    {cause : Option Cause} {armed readOnly : Option Bool} {occupiedBy : Option Str}
    {serverAnswering : Option Bool} (hcause : ∀ known, cause = some known →
      known.state ≠ .connected)
    (h : (derive c mounted unit cause armed readOnly occupiedBy serverAnswering).state
      = .connected) : occupiedBy = none ∧ mounted = some true := by
  unfold derive at h
  by_cases hnever : c.autoConnect = some (str "never")
  · rw [if_pos hnever] at h
    cases h
  · rw [if_neg hnever] at h
    cases occupiedBy with
    | some occupant => cases h
    | none =>
        refine ⟨rfl, ?_⟩
        -- Without the mount every branch has a word of its own.
        by_contra hmounted
        dsimp only at h
        rw [if_neg hmounted] at h
        cases unit with
        | none => cases h
        | some unit =>
            dsimp only at h
            split_ifs at h
            · cases h
            · exact failureState_not_connected hcause h
            · cases h
            · cases h

variable [Unicode] [Decimals]

omit [Unicode] in
/-- No failure a journal tells of is a connection. -/
theorem translateJournal_not_connected {text : Str} {cause : Cause}
    (h : translateJournal text = some cause) : cause.state ≠ .connected := by
  have herrno : ∀ errno, (linuxMountErrno errno).1 ≠ .connected := by
    intro errno
    unfold linuxMountErrno
    split
    all_goals exact fun hword => by cases hword
  unfold translateJournal at h
  cases herror : lastMountError text with
  | some errno =>
      rw [herror] at h
      rw [← Option.some.inj h]
      exact herrno errno
  | none =>
      rw [herror] at h
      dsimp only at h
      split_ifs at h
      rw [← Option.some.inj h]
      exact fun hword => by cases hword

omit [Unicode] in
theorem footprint_failureCause (unit : Str) (failed : Bool) :
    Footprint (S := monitorSig) MonitorOp.IsReading
      (fun cause => ∀ known, cause = some known → known.state ≠ .connected)
      (failureCause unit failed) := by
  have hnone : ∀ known : Cause, none = some known → known.state ≠ .connected :=
    fun known h => by cases h
  cases failed with
  | false => exact (footprint_pure _).mpr hnone
  | true =>
      refine footprint_tryCatch ?_ fun e => ?_
      · refine performs_bind (performs_take trivial) fun text => ?_
        exact (footprint_pure _).mpr fun known h => translateJournal_not_connected h
      · by_cases he : e.isSmbpal = true
        · rw [if_pos he]
          exact (footprint_pure _).mpr hnone
        · rw [if_neg he]
          trivial

/-- What a turn ends connected with, however its steps are answered: it found a mount, and
    nothing foreign. -/
theorem stateOf_connected_only {W : World → Prop} {s : Watched} (c : Connection)
    (servers : List (Str × Bool)) :
    Always (worldMachine W) (stateOf c servers)
      (fun r _ => ∀ state, r = .ok state → state.state = .connected →
        ∃ mountpoint w w', c.mountpoint = some mountpoint ∧ W w ∧ W w' ∧
          intruderIn w.table c mountpoint = none ∧
          isMountedIn w'.table mountpoint = some true) s := by
  have hraised : ∀ (e : Exc) (P : ConnectionState → Prop), ∀ state,
      (Except.error e : Except Exc ConnectionState) = .ok state → P state :=
    fun e P state h => by cases h
  unfold stateOf
  rw [always_bind, always_fromExcept]
  cases namesOf c with
  | error e => exact hraised e _
  | ok names =>
  rw [andThen_ok, always_bind, always_fromExcept]
  unfold mountpointOf
  cases hmountpoint : c.mountpoint with
  | none => exact hraised _ _
  | some mountpoint =>
  rw [andThen_ok, always_bind, always_served]
  -- The table is read three times: for the intruder, the share and the trigger.
  intro w hw
  change Always _ _ _ s
  rw [always_bind, always_served]
  intro w' hw'
  change Always _ _ _ s
  rw [always_bind, always_served]
  intro w'' hw''
  change Always _ _ _ s
  rw [always_bind]
  refine always_looks (performs_showUnit _ trivial) (returns_showUnit _) fun unit => ?_
  rw [andThen_ok, always_bind]
  refine always_mono (always_footprint (footprint_failureCause names.1 _)
    (always_looks (performs_failureCause _ _ trivial) (returns_failureCause _ _)
      (Q := fun r s' => s' = s) fun _ => rfl)) ?_
  rintro r s' ⟨rfl, hcause⟩
  cases r with
  | error e => exact hraised e _
  | ok cause =>
  rw [andThen_ok, always_bind]
  refine always_looks (performs_mountedReadOnly _ _ trivial) (returns_mountedReadOnly _ _)
    fun readOnly => ?_
  rw [andThen_ok, always_bind, always_fromExcept]
  cases mountedAnswering c.host servers _ with
  | error e => exact hraised e _
  | ok answering =>
      -- Only the last branch of the source says connected.
      intro state hstate hconnected
      rw [← Except.ok.inj hstate] at hconnected
      have honly := derive_connected_only (hcause cause rfl) hconnected
      refine ⟨mountpoint, w, w', rfl, hw, hw', ?_, honly.2⟩
      exact Option.map_eq_none_iff.mp honly.1

end Derived

/-! ### What is on top is the connection's own -/

section Own

variable [Unicode]

/-- A mount passes for the connection's exactly when it is one of its share. -/
theorem foreignMount_eq_none_iff {c : Connection} {row : MountRow} :
    foreignMount (some row.entry) c = none ↔ OwnShare c row := by
  unfold foreignMount OwnShare
  dsimp only [MountRow.entry]
  -- The source compares without case, first with the host and then with the fallback.
  by_cases hcifs : row.fstype = str "cifs"
  · rw [if_neg (not_not.mpr hcifs)]
    by_cases hsource : lower row.source = lower (mountSource c)
    · rw [if_pos hsource]
      exact ⟨fun _ => ⟨hcifs, Or.inl hsource⟩, fun _ => rfl⟩
    · rw [if_neg hsource]
      have hhost : ¬lower row.source =
          lower (str "//" ++ pyStr c.host ++ str "/" ++ pyStr c.share) := hsource
      have hoff : truthy c.fallbackHost = none → (some row.entry = none ↔ OwnShare c row) := by
        intro hnone
        refine ⟨fun h => absurd h (Option.some_ne_none _), ?_⟩
        rintro ⟨-, hown | ⟨fallback, hsome, hne, -⟩⟩
        · exact absurd hown hhost
        · rw [hsome, truthy, if_neg hne] at hnone
          exact absurd hnone (Option.some_ne_none _)
      cases htruthy : truthy c.fallbackHost with
      | none => exact hoff htruthy
      | some fallback =>
          rcases truthy_eq_some_iff.mp htruthy with ⟨hsome, hne⟩
          dsimp only
          by_cases hother : lower row.source =
              lower (str "//" ++ fallback ++ str "/" ++ pyStr c.share)
          · rw [if_pos hother]
            exact ⟨fun _ => ⟨hcifs, Or.inr ⟨fallback, hsome, hne, hother⟩⟩, fun _ => rfl⟩
          · rw [if_neg hother]
            refine ⟨fun h => absurd h (Option.some_ne_none _), ?_⟩
            rintro ⟨-, hown | ⟨other, hsome', -, hown⟩⟩
            · exact absurd hown hhost
            · rw [Option.some.inj (hsome'.symm.trans hsome)] at hown
              exact absurd hown hother
  · rw [if_pos hcifs]
    exact ⟨fun h => absurd h (Option.some_ne_none _), fun h => absurd h.1 hcifs⟩

theorem intruderIn_eq_none_iff {table : MountTable} {c : Connection} {mountpoint : Str} :
    intruderIn table c mountpoint = none ↔
      ∀ row, occupantIn table mountpoint = some row → OwnShare c row := by
  unfold intruderIn
  cases occupantIn table mountpoint with
  | none => exact ⟨fun _ row h => absurd h.symm (Option.some_ne_none row), fun _ => rfl⟩
  | some row =>
      rw [Option.map_some, foreignMount_eq_none_iff]
      constructor
      · intro h other hother
        exact Option.some.inj hother ▸ h
      · exact fun h => h row rfl

variable [Decimals]

/-- Exactly when nothing else passes for a connection's share: what is on top at its mountpoint
    is its share, or what is at the bottom there is not, and the mountpoint does not start with
    two slashes. -/
theorem honest_iff (rows : List KernelRow) (c : Connection) (hc : NullOr IsPath c.mountpoint) :
    Honest rows c ↔ ∀ mountpoint, c.mountpoint = some mountpoint →
      (∀ top, topmostAt rows mountpoint = some top → OwnShare c top.row) ∨
        leadingSlashes mountpoint = str "/" ∧
          ∃ first, (stackAt rows mountpoint).head? = some first ∧ ¬OwnShare c first.row := by
  constructor
  · intro h mountpoint hmountpoint
    have hfound := occupantIn_eq rows (hc mountpoint hmountpoint)
    by_cases hone : leadingSlashes mountpoint = str "/"
    · rw [if_pos hone] at hfound
      by_cases hown : ∀ first, (stackAt rows mountpoint).head? = some first →
          OwnShare c first.row
      · left
        refine h.notForeign mountpoint hmountpoint ?_ mountpoint hmountpoint
        rw [intruderIn_eq_none_iff, hfound]
        intro row hrow
        rcases Option.map_eq_some_iff.mp hrow with ⟨first, hfirst, rfl⟩
        exact hown first hfirst
      · push Not at hown
        exact Or.inr ⟨hone, hown⟩
    · left
      refine h.notForeign mountpoint hmountpoint ?_ mountpoint hmountpoint
      rw [intruderIn_eq_none_iff, hfound, if_neg hone]
      exact fun row hrow => by cases hrow
  · intro h
    have hforeign : ∀ mountpoint, c.mountpoint = some mountpoint →
        intruderIn (tableOf rows) c mountpoint = none → OwnOnTop rows c := by
      intro mountpoint hmountpoint hnone other hother
      rw [Option.some.inj (hother.symm.trans hmountpoint)]
      rcases h mountpoint hmountpoint with hown | ⟨hone, first, hfirst, hnot⟩
      · exact hown
      · refine absurd (intruderIn_eq_none_iff.mp hnone first.row ?_) hnot
        rw [occupantIn_eq rows (hc mountpoint hmountpoint), if_pos hone, hfirst]
        rfl
    refine ⟨fun servers s => ?_, hforeign⟩
    refine always_mono (stateOf_connected_only c servers) fun r s' hr state hstate hword => ?_
    rcases hr state hstate hword with ⟨mountpoint, w, w', hmountpoint, hw, hw', hnone, hmounted⟩
    rw [hw] at hnone
    rw [hw'] at hmounted
    refine ⟨hforeign mountpoint hmountpoint hnone, mountpoint, ?_⟩
    -- what was found mounted is in the stack, so something is on top of it
    rcases occupantIn_of_isMountedIn hmounted with ⟨row, hrow⟩
    rw [occupantIn_eq rows (hc mountpoint hmountpoint)] at hrow
    split_ifs at hrow
    rcases Option.map_eq_some_iff.mp hrow with ⟨first, hfirst, -⟩
    have hne : stackAt rows mountpoint ≠ [] := fun hnil => by
      rw [hnil] at hfirst
      cases hfirst
    exact ⟨_, hmountpoint, List.getLast?_eq_some_getLast hne⟩

end Own

section Runs

attribute [local instance] Unicode.ascii Decimals.ascii

/-- The share, at the bottom. -/
def nasRow : KernelRow :=
  ⟨nasMount, by decide, by decide, by decide⟩

/-- A stick that was mounted over it. -/
def stickRow : KernelRow where
  row := ⟨str "/mnt/music", str "vfat", str "/dev/sda1", str "rw"⟩
  absolute := by decide
  oneSlash := by decide
  resolved := by decide

/-- The share alone passes for itself, and is on top. -/
theorem honest_alone : (∀ top, topmostAt [nasRow] (str "/mnt/music") = some top →
      OwnShare nasMusic top.row) ∧ Honest [nasRow] nasMusic := by
  have hpath : IsPath (str "/mnt/music") := ⟨by decide, by decide, by decide, by decide⟩
  have htop : topmostAt [nasRow] (str "/mnt/music") = some nasRow := rfl
  have hown : ∀ top, topmostAt [nasRow] (str "/mnt/music") = some top →
      OwnShare nasMusic top.row := by
    intro top h
    rw [← Option.some.inj (htop.symm.trans h)]
    exact ⟨rfl, Or.inl rfl⟩
  refine ⟨hown, (honest_iff [nasRow] nasMusic ?_).mpr ?_⟩
  · intro mountpoint h
    exact Option.some.inj h ▸ hpath
  · intro mountpoint h
    exact Option.some.inj h ▸ Or.inl hown

/-- With the stick over the share the connection is connected, and nothing foreign is at its
    mountpoint. -/
theorem covered_share_connected : IsPath (str "/mnt/music") ∧
    nasMusic.mountpoint = some (str "/mnt/music") ∧
    topmostAt [nasRow, stickRow] (str "/mnt/music") = some stickRow ∧
    ¬OwnShare nasMusic stickRow.row ∧
    intruderIn (tableOf [nasRow, stickRow]) nasMusic (str "/mnt/music") = none ∧
    (∃ state s', Exec (worldMachine fun w => w.table = tableOf [nasRow, stickRow])
      (stateOf nasMusic []) Watched.fresh (.ok state) s' ∧ state.state = .connected) ∧
    ¬Honest [nasRow, stickRow] nasMusic := by
  have hforeign : ¬OwnShare nasMusic stickRow.row := fun h => absurd h.1 (by decide)
  have hnone : intruderIn (tableOf [nasRow, stickRow]) nasMusic (str "/mnt/music") = none := by
    decide +kernel
  refine ⟨⟨by decide, by decide, by decide, by decide⟩, rfl, rfl, hforeign, hnone, ?_, ?_⟩
  · have hx := @exec_run _ _ _ _ (worldMachine fun w => w.table = tableOf [nasRow, stickRow])
      (nasWorld [nasMount, stickRow.row] []).serve (fun op s => ⟨_, rfl, rfl⟩)
      (stateOf nasMusic []) Watched.fresh
    exact ⟨_, _, hx, rfl⟩
  · intro h
    exact hforeign (h.notForeign _ rfl hnone _ rfl stickRow rfl)

end Runs

end Smbpal
