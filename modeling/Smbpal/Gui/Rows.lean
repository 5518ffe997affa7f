import Smbpal.State.Picture

/-!
# The Rows of the Window

`gui/model.py`: what the window shows of a connection, and how an event changes
what is shown.

A row is made in two ways. A reply to `status` has the connection's whole
record, and `connection_row` makes the row from it. An event of the monitor has
the state, the message, the mountpoint and perhaps a hint, and `apply_event`
makes the row from that and the row there was. The two are to agree: what an
event leaves on the screen is what a reply would put there.

They do not agree on one button. The fallback address of a connection whose
name does not resolve is in its record, and is not in an event. So the button
that uses it goes with the event that says it is needed, and comes back with
the next reply (`folds_iff`).

## Main definitions

* `Row`: One line of the window.
* `StatusRecord`, `connectionRow`: A record of a reply, and its row.
* `applyEvent`: The rows after an event.
* `Emitted`: What the monitor may send when it has polled a config.

## Theorems

* `performs_poll`: A poll sends nothing else.
* `folds_iff`: When an event leaves the rows that the records would give.
* `fallback_button_lost`: A connection whose button is lost.
-/

namespace Smbpal

open Lib Program

/-- Tones, not colours. -/
inductive Tone where
  | ok
  | busy
  | idle
  | attention
  | problem
  | muted
  deriving DecidableEq

/-- What a row's buttons do. -/
inductive RowAction where
  | connect
  | disconnect
  | remove
  | useFallback
  | makeWritable
  | setCredentials
  | setSmbPassword
  deriving DecidableEq

/-- Which list a row is of. -/
inductive RowSection where
  | share
  | connection
  | unaccounted
  deriving DecidableEq

/-- One line in the window. -/
structure Row where
  id : Option Str
  title : Str
  subtitle : Option Str
  state : Str
  message : Str
  tone : Tone
  actions : List RowAction
  hint : Option Str
  inSection : RowSection
  account : Option Str
  deriving DecidableEq

/-- The word a state goes by. -/
def StateWord.word : StateWord → Str
  | .idle => str "idle"
  | .connecting => str "connecting"
  | .connected => str "connected"
  | .reconnecting => str "reconnecting"
  | .unreachable => str "unreachable"
  | .unresolved => str "unresolved"
  | .authFailed => str "auth_failed"
  | .failed => str "failed"
  | .disabled => str "disabled"
  | .unknown => str "unknown"

/-- `_READY`. -/
def readyMessage : Str :=
  str "ready — it will connect when you open it"

/-- `_CONNECTION_PRESENTATION`: what each state looks like, and what it says when
    the daemon has said nothing. -/
def connectionPresentation : List (Str × Tone × Str) :=
  [(str "connected", .ok, str "mounted"),
    (str "connecting", .busy, str "mounting"),
    (str "reconnecting", .busy, str "it failed, and systemd is trying again"),
    (str "idle", .idle, readyMessage),
    (str "disabled", .muted, str "not connected automatically"),
    (str "unknown", .muted, str "SMBPal cannot tell whether this is connected"),
    (str "failed", .problem, str "it did not connect"),
    (str "auth_failed", .problem, str "the server refused the username or password"),
    (str "unreachable", .problem, str "the server did not answer"),
    (str "unresolved", .problem, str "that name did not resolve to an address"),
    (str "mounted", .ok, str "mounted"),
    (str "not mounted", .idle, readyMessage),
    (str "checking", .busy, str "checking"),
    (str "mountpoint in use", .problem,
      str "something else is mounted here, and SMBPal will not mount on top of it"),
    (str "no credentials", .problem, str "no password is stored for this connection"),
    (str "not applied", .muted, str "in the config; this daemon is not mounting anything")]

/-- `UNRECOGNISED`. -/
def unrecognised : Tone × Str :=
  (.muted, str "SMBPal does not recognise this state, so it cannot say what it means")

/-- What a state looks like and says. -/
def presentationOf (state : Str) : Tone × Str :=
  (connectionPresentation.lookup state).getD unrecognised

/-- `_CONNECTED`. -/
def connectedWords : List Str :=
  [str "connected", str "mounted"]

/-- `_NOT_CONNECTED`: where offering to connect is honest. -/
def notConnectedWords : List Str :=
  [str "idle", str "not mounted", str "failed", str "auth_failed", str "unreachable",
    str "unresolved", str "unknown"]

/-- `_WANTS_CREDENTIALS`: where the password is the thing to change. -/
def wantsCredentials : List Str :=
  [str "auth_failed", str "no credentials"]

/-- The button for the fallback, which is offered and never taken. -/
def fallbackAction (fallbackHost : Option Str) (state : Str) : List RowAction :=
  if state = str "unresolved" ∧ truthy fallbackHost ≠ none then [.useFallback] else []

/-- `_connection_actions`. -/
def connectionActions (fallbackHost : Option Str) (state : Str) : List RowAction :=
  (if state ∈ wantsCredentials then [.setCredentials] else []) ++
    (if state ∈ connectedWords then [.disconnect]
      else if state ∈ notConnectedWords then [.connect] else []) ++
    fallbackAction fallbackHost state ++ [.remove]

/-- A connection as a reply to `status` has it. -/
structure StatusRecord where
  connection : Connection
  state : Option Str
  message : Option Str
  hint : Option Str
  deriving DecidableEq

/-- The record of a connection: what is planned for it, and in place of that the
    state the monitor last derived. -/
def statusRecord (c : Connection) (planned : Str) (derived : Option ConnectionState) :
    StatusRecord where
  connection := c
  state := some ((derived.map fun state => state.state.word).getD planned)
  message := derived.map ConnectionState.message
  hint := derived.bind fun state => fallbackHint c state

/-- `connection_row`. -/
def connectionRow (r : StatusRecord) : Row :=
  let state := (truthy r.state).getD (str "unknown")
  { id := r.connection.id
    title := str "//" ++ pyStr r.connection.host ++ str "/" ++ pyStr r.connection.share
    subtitle := r.connection.mountpoint
    state := state
    message := (truthy r.message).getD (presentationOf state).2
    tone := (presentationOf state).1
    actions := connectionActions r.connection.fallbackHost state
    hint := r.hint
    inSection := .connection
    account := none }

/-- What an event makes of the row it is about. An event carries no fallback
    host. -/
def Row.fold (row : Row) (data : StatePayload) : Row :=
  let state := (truthy (some data.row.state.word)).getD row.state
  { id := row.id
    title := row.title
    subtitle := ((truthy data.mountpoint).map some).getD row.subtitle
    state := state
    message := (truthy (some data.row.message)).getD (presentationOf state).2
    tone := (presentationOf state).1
    actions := connectionActions none state
    hint := data.hint
    inSection := row.inSection
    account := none }

/-- `apply_event`. -/
def applyEvent (rows : List Row) (data : StatePayload) : List Row :=
  rows.map fun row => if row.id ≠ data.row.id then row else row.fold data

/-- The record with what an event says in place of what it said. -/
def StatusRecord.replaced (r : StatusRecord) (data : StatePayload) : StatusRecord where
  connection := { r.connection with mountpoint := data.mountpoint }
  state := some data.row.state.word
  message := some data.row.message
  hint := data.hint

/-- The records, where those the event is about have what it says. -/
def replacedIn (records : List StatusRecord) (data : StatePayload) : List StatusRecord :=
  records.map fun r => if r.connection.id ≠ data.row.id then r else r.replaced data

/-! ### What the monitor sends -/

/-- The monitor may send this when it has polled a config: it has derived a state
    of each of its connections, and the event is of one of them. -/
structure Emitted (config : Config) (data : StatePayload) : Prop where
  named : ∀ c ∈ config.connections, ∃ names, namesOf c = .ok names
  made : ∃ c ∈ config.connections, ∃ (reading : Reading) (previous : Option ConnectionState),
    data = statePayload previous (reading.state c) (connectionLookup config c.id)

/-- A step that sends no event but such a one. -/
def MonitorOp.Emits : MonitorOp → Prop
  | .emit previous state connection =>
      ∃ config, Emitted config (statePayload previous state connection)
  | _ => True

section Sending

variable [Unicode] [Decimals]

omit [Unicode] [Decimals] in
theorem emits_of_primes {id : Option Str} {op : MonitorOp} (h : op.Primes id) : op.Emits := by
  cases op with
  | emit => exact h.elim
  | _ => trivial

/-- A turn derives a state of its connection, from what it has read. -/
theorem footprint_derived (c : Connection) (servers : List (Str × Bool)) :
    Footprint (S := monitorSig) MonitorOp.Emits
      (fun state => (∃ names, namesOf c = .ok names) ∧ ∃ r : Reading, state = r.state c)
      (stateOf c servers) := by
  refine footprint_bind ((footprint_fromExcept _).mpr fun names hnames =>
    (⟨names, hnames⟩ : ∃ names, namesOf c = .ok names)) fun names hnames => ?_
  refine performs_bind ((footprint_fromExcept _).mpr fun _ _ => trivial) fun mountpoint => ?_
  refine performs_bind (performs_take trivial) fun occupied => ?_
  refine performs_bind (performs_take trivial) fun mounts => ?_
  refine performs_bind (performs_take trivial) fun triggers => ?_
  refine performs_bind (performs_showUnit _ trivial) fun unit => ?_
  refine performs_bind (performs_failureCause _ _ trivial) fun cause => ?_
  refine performs_bind (performs_mountedReadOnly _ _ trivial) fun readOnly => ?_
  refine performs_bind ((footprint_fromExcept _).mpr fun _ _ => trivial) fun answering => ?_
  exact ⟨hnames, ⟨_, _, _, _, _, _, _⟩, rfl⟩

/-- A connection's units have names, and what is told is of it. -/
structure ToldOf (c : Connection) (changes : List Change) : Prop where
  named : ∃ names, namesOf c = .ok names
  of : ∀ change ∈ changes, ∃ r : Reading, change.2 = r.state c

theorem footprint_visit (prime : Bool) (servers : List (Str × Bool)) (c : Connection) :
    Footprint (S := monitorSig) MonitorOp.Emits (fun seen => ToldOf c seen.2)
      (visit prime servers c) := by
  refine footprint_bind (footprint_derived c servers) fun state hstate => ?_
  -- Priming may only latch and start, and tells nothing.
  have hprime : Performs (S := monitorSig) MonitorOp.Emits (primeIf prime c state) := by
    cases prime with
    | true =>
        exact footprint_mono (performs_priming c state) (fun _ hop => emits_of_primes hop)
          fun _ _ => trivial
    | false => trivial
  refine performs_bind hprime fun _ => performs_bind (performs_take trivial) fun previous => ?_
  refine ⟨hstate.1, fun change hchange => ?_⟩
  have hsnd : change.2 = state := by
    cases previous with
    | none => rw [List.mem_singleton.mp hchange]
    | some before =>
        have hmem : change ∈ if differs before state then [(some before, state)] else [] := hchange
        split at hmem
        · rw [List.mem_singleton.mp hmem]
        · exact absurd hmem List.not_mem_nil
  rw [hsnd]
  exact hstate.2

/-- After all turns the units of every connection have names, and what is told
    is each of some connection. -/
theorem footprint_visitAll (prime : Bool) (servers : List (Str × Bool)) (cs : List Connection) :
    Footprint (S := monitorSig) MonitorOp.Emits
      (fun seen => (∀ c ∈ cs, ∃ names, namesOf c = .ok names) ∧
        ∀ change ∈ seen.2, ∃ c ∈ cs, ∃ r : Reading, change.2 = r.state c)
      (visitAll prime servers cs) := by
  induction cs with
  | nil =>
      exact ⟨fun c hc => absurd hc List.not_mem_nil, fun change h => absurd h List.not_mem_nil⟩
  | cons c cs ih =>
      refine footprint_bind (footprint_visit prime servers c) fun seen hseen => ?_
      refine footprint_bind ih fun rest hrest => ⟨fun d hd => ?_, fun change hchange => ?_⟩
      · rcases List.mem_cons.mp hd with rfl | hd
        · exact hseen.named
        · exact hrest.1 d hd
      · rcases List.mem_append.mp hchange with hchange | hchange
        · exact ⟨c, List.mem_cons_self, hseen.of change hchange⟩
        · rcases hrest.2 change hchange with ⟨d, hd, hr⟩
          exact ⟨d, List.mem_cons_of_mem c hd, hr⟩

omit [Unicode] [Decimals] in
theorem performs_emitAll {config : Config} {changes : List Change}
    (hnamed : ∀ c ∈ config.connections, ∃ names, namesOf c = .ok names)
    (hof : ∀ change ∈ changes, ∃ c ∈ config.connections, ∃ r : Reading, change.2 = r.state c) :
    Performs (S := monitorSig) MonitorOp.Emits (emitAll config changes) := by
  induction changes with
  | nil => trivial
  | cons change changes ih =>
      refine performs_bind (performs_take ?_) fun _ =>
        ih fun other h => hof other (List.mem_cons_of_mem change h)
      rcases hof change List.mem_cons_self with ⟨c, hc, r, hr⟩
      refine ⟨config, hnamed, c, hc, r, change.1, ?_⟩
      have hid : change.2.id = c.id := by
        rw [hr]
        exact derive_id ..
      rw [hid, hr]

omit [Unicode] [Decimals] in
theorem performs_forgetGone (ids : List (Option Str)) :
    Performs (S := monitorSig) MonitorOp.Emits (forgetGone ids) := by
  induction ids with
  | nil => trivial
  | cons id ids ih =>
      exact performs_bind (performs_take trivial) fun _ =>
        performs_bind (performs_take trivial) fun _ => ih

/-- A poll sends no other events. -/
theorem performs_poll (prime : Bool) :
    Performs (S := monitorSig) MonitorOp.Emits (poll prime) := by
  refine performs_bind (performs_take trivial) fun config => ?_
  refine performs_bind (performs_take trivial) fun servers => ?_
  refine footprint_bind (footprint_visitAll prime servers config.connections) fun seen hseen => ?_
  refine performs_bind (performs_take trivial) fun gone => ?_
  refine performs_bind (performs_emitAll hseen.1 hseen.2) fun _ => ?_
  refine performs_bind ((footprint_fromExcept _).mpr fun _ _ => trivial) fun ids => ?_
  exact performs_bind (performs_forgetGone ids) fun _ => trivial

end Sending

/-! ### Folding is re-reading -/

section Folding

variable {r : StatusRecord} {data : StatePayload}

theorem truthy_word (word : StateWord) : truthy (some word.word) = some word.word := by
  cases word with
  | _ => rfl

theorem word_eq_unresolved_iff (word : StateWord) :
    word.word = str "unresolved" ↔ word = .unresolved := by
  cases word with
  | _ => decide

/-- There is no button for the fallback. -/
theorem fallbackAction_eq_nil_iff (fallbackHost : Option Str) (state : Str) :
    fallbackAction fallbackHost state = [] ↔
      (state = str "unresolved" → truthy fallbackHost = none) := by
  unfold fallbackAction
  by_cases hoffered : state = str "unresolved" ∧ truthy fallbackHost ≠ none
  · rw [if_pos hoffered]
    exact ⟨fun h => absurd h (List.cons_ne_nil _ _), fun h => absurd (h hoffered.1) hoffered.2⟩
  · rw [if_neg hoffered]
    exact ⟨fun _ hstate => by_contra fun hsome => hoffered ⟨hstate, hsome⟩, fun _ => rfl⟩

/-- The buttons are the same unless one is for the fallback. -/
theorem connectionActions_eq_iff (fallbackHost : Option Str) (state : Str) :
    connectionActions none state = connectionActions fallbackHost state ↔
      (state = str "unresolved" → truthy fallbackHost = none) := by
  have hnone : fallbackAction none state = [] :=
    (fallbackAction_eq_nil_iff none state).mpr fun _ => rfl
  unfold connectionActions
  rw [← fallbackAction_eq_nil_iff, hnone, List.append_cancel_right_eq, List.append_cancel_left_eq]
  exact eq_comm

/-- The event's row is the record's, up to the button for the fallback. -/
theorem fold_eq_iff (hmountpoint : truthy data.mountpoint = data.mountpoint)
    (hsome : data.mountpoint ≠ none) :
    (connectionRow r).fold data = connectionRow (r.replaced data) ↔
      (data.row.state = .unresolved → truthy r.connection.fallbackHost = none) := by
  rcases Option.ne_none_iff_exists'.mp hsome with ⟨mountpoint, hpoint⟩
  -- A word of a state is never empty, so the event's own is taken.
  have hword : (truthy (some data.row.state.word)).getD (connectionRow r).state
      = data.row.state.word := by rw [truthy_word]; rfl
  have hreplaced : (truthy (r.replaced data).state).getD (str "unknown") = data.row.state.word := by
    unfold StatusRecord.replaced
    rw [truthy_word]
    rfl
  have hsubtitle : ((truthy data.mountpoint).map some).getD (connectionRow r).subtitle
      = data.mountpoint := by
    rw [hmountpoint, hpoint]
    rfl
  -- Only the buttons can differ, and the fallback's is the one that does.
  rw [← word_eq_unresolved_iff, ← connectionActions_eq_iff]
  unfold Row.fold
  rw [hword, hsubtitle]
  unfold connectionRow
  rw [hreplaced]
  constructor
  · intro h
    exact congrArg Row.actions h
  · intro h
    dsimp only at h ⊢
    rw [h]
    rfl

/-- What is sent names the mountpoint of the config. -/
theorem emitted_mountpoint [Unicode] {config : Config} (hvalid : config.Valid)
    (h : Emitted config data) : ∃ mountpoint, data.mountpoint = some mountpoint ∧
      mountpoint ≠ [] := by
  rcases h.made with ⟨c, hc, reading, previous, hdata⟩
  -- The connection the event is about is in the config.
  have hfound : (connectionLookup config c.id).isSome = true := by
    unfold connectionLookup
    rw [List.find?_isSome]
    exact ⟨c, hc, decide_eq_true rfl⟩
  rcases Option.isSome_iff_exists.mp hfound with ⟨d, hd⟩
  have hmem : d ∈ config.connections := List.mem_of_find?_eq_some hd
  rcases h.named d hmem with ⟨names, hnames⟩
  unfold namesOf at hnames
  cases hpoint : d.mountpoint with
  | none =>
      rw [hpoint] at hnames
      exact nomatch hnames
  | some mountpoint =>
      refine ⟨mountpoint, ?_, fun hempty => ?_⟩
      · rw [hdata, hd]
        exact hpoint
      · -- An accepted mountpoint is a path, and none is empty.
        have hpath := (((valid_iff config).mp hvalid).1.connections d hmem).mountpoint _ hpoint
        have habsolute := hpath.absolute
        rw [hempty] at habsolute
        exact absurd habsolute (by decide)

/-- An event of the monitor leaves the rows that the records would give with what
    it says in them, exactly if none of those it is about has a fallback host and
    a name that does not resolve. -/
theorem folds_iff [Unicode] (records : List StatusRecord) (config : Config)
    (data : StatePayload) (hvalid : config.Valid) (hdata : Emitted config data) :
    applyEvent (records.map connectionRow) data = (replacedIn records data).map connectionRow ↔
      ∀ r ∈ records, r.connection.id = data.row.id → data.row.state = .unresolved →
        truthy r.connection.fallbackHost = none := by
  rcases emitted_mountpoint hvalid hdata with ⟨mountpoint, hpoint, hne⟩
  have htruthy : truthy data.mountpoint = data.mountpoint := by
    rw [hpoint]
    exact truthy_eq_some_iff.mpr ⟨rfl, hne⟩
  have hsome : data.mountpoint ≠ none := hpoint ▸ Option.some_ne_none mountpoint
  unfold applyEvent replacedIn
  rw [List.map_map, List.map_map, List.map_inj_left]
  refine forall_congr' fun r => forall_congr' fun _ => ?_
  change (if r.connection.id ≠ data.row.id then connectionRow r else (connectionRow r).fold data)
    = connectionRow (if r.connection.id ≠ data.row.id then r else r.replaced data) ↔ _
  by_cases hid : r.connection.id = data.row.id
  · rw [if_neg (not_not_intro hid), if_neg (not_not_intro hid), fold_eq_iff htruthy hsome]
    exact ⟨fun h _ => h, fun h => h hid⟩
  · rw [if_pos hid, if_pos hid]
    exact ⟨fun _ h => absurd h hid, fun _ => rfl⟩

end Folding

/-! ### Two events -/

section Fallback

attribute [local instance] Unicode.ascii Decimals.ascii

set_option maxRecDepth 10000

/-- A config with one connection. -/
def configOf (c : Connection) : Config :=
  { version := 1, shares := [], connections := [c] }

/-- The mount failed, for this reason. -/
def failedReading (cause : Cause) : Reading where
  mounted := some false
  unit := some
    { activeState := str "failed", result := str "exit-code", execMainStatus := str "32" }
  cause := some cause
  armed := some true
  readOnly := none
  occupiedBy := none
  serverAnswering := none

/-- What the monitor sends when the connection, not looked at before, is found in
    this state. -/
def firstEvent (c : Connection) (reading : Reading) : StatePayload :=
  statePayload none (reading.state c) (connectionLookup (configOf c) c.id)

theorem emitted_firstEvent {c : Connection} {names : Str × Str} (hnames : namesOf c = .ok names)
    (reading : Reading) : Emitted (configOf c) (firstEvent c reading) :=
  ⟨fun _ hd => ⟨names, List.mem_singleton.mp hd ▸ hnames⟩,
    c, List.mem_singleton_self c, reading, none, rfl⟩

theorem nasMusic_names :
    namesOf nasMusic = .ok (str "mnt-music.mount", str "mnt-music.automount") := by
  decide +kernel

/-- The password was refused: the row is as a reply would have it. -/
theorem folds_refused :
    applyEvent ([statusRecord nasMusic (str "not mounted") none].map connectionRow)
        (firstEvent nasMusic (failedReading (causeOfErrno 13)))
      = (replacedIn [statusRecord nasMusic (str "not mounted") none]
          (firstEvent nasMusic (failedReading (causeOfErrno 13)))).map connectionRow ∧
    (applyEvent ([statusRecord nasMusic (str "not mounted") none].map connectionRow)
        (firstEvent nasMusic (failedReading (causeOfErrno 13)))).map Row.actions
      = [[.setCredentials, .connect, .remove]] := by
  refine ⟨(folds_iff _ (configOf nasMusic) _ (by decide +kernel)
    (emitted_firstEvent nasMusic_names _)).mpr ?_, by decide +kernel⟩
  intro r hr _ _
  rw [List.mem_singleton.mp hr]
  rfl

/-- The same share, with an address that was recorded when it was added. -/
def fallbackMusic : Connection :=
  { nasMusic with fallbackHost := some (str "192.0.2.7") }

/-- What is on the screen, and then what is known of the share. -/
def fallbackBefore : StatusRecord :=
  statusRecord fallbackMusic (str "not mounted") none

/-- The name does not resolve any more. -/
def unresolvedEvent : StatePayload :=
  firstEvent fallbackMusic (failedReading unresolvedCause)

/-- The name does not resolve, the connection has a fallback address, and its
    button is gone until the next reply. -/
theorem fallback_button_lost :
    (configOf fallbackMusic).Valid ∧ Emitted (configOf fallbackMusic) unresolvedEvent ∧
      applyEvent ([fallbackBefore].map connectionRow) unresolvedEvent
        ≠ (replacedIn [fallbackBefore] unresolvedEvent).map connectionRow ∧
      (applyEvent ([fallbackBefore].map connectionRow) unresolvedEvent).map Row.actions
        = [[.connect, .remove]] ∧
      ((replacedIn [fallbackBefore] unresolvedEvent).map connectionRow).map Row.actions
        = [[.connect, .useFallback, .remove]] := by
  have hfolded : (applyEvent ([fallbackBefore].map connectionRow) unresolvedEvent).map Row.actions
      = [[.connect, .remove]] := by decide +kernel
  have hread : ((replacedIn [fallbackBefore] unresolvedEvent).map connectionRow).map Row.actions
      = [[.connect, .useFallback, .remove]] := by decide +kernel
  refine ⟨by decide +kernel, ?_, fun h => ?_, hfolded, hread⟩
  · have hnames : namesOf fallbackMusic = .ok (str "mnt-music.mount", str "mnt-music.automount") :=
      nasMusic_names
    exact emitted_firstEvent hnames _
  · rw [h, hread] at hfolded
    exact absurd hfolded (by decide)

end Fallback

end Smbpal
