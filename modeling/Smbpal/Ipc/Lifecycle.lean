import Smbpal.Ipc.Transport
import Mathlib.Data.List.Nodup

/-!
# The Life of a Connection

What becomes of every client of a `UnixSocketTransport`, whatever order the threads take
their steps in: how often it is entered and taken out again, when its disconnect hook is
called, which of its lines its handler is called for, and what `shutdown` leaves behind.

`close` does not shut the socket down of a connection on which a send has failed before:
`_closed` is set by then, and `close` returns. So what is said here of connections is that
they are closed, and not that their sockets are.

## Main definitions

* `Desk.books`: How often a client is on each of the lists.
* `LifeOf`, `ReadOf`: What the lists say, and what was read, by how far its thread has come.
* `Closing`: A connection is closed, or a thread is about to close it.
* `Stopping`: What is so while a thread is in `shutdown`, and after.

## Theorems

* `connection_life`: Every connection registered leaves once, is closed, and is told of once.
* `frames_in_order`: The handler is called for the lines that came, in order, each once.
* `shut_down`: After `shutdown` nobody is left connected, and nobody joins.
-/

namespace Smbpal

open Lib

/-- How often a client is among those known, joined, connected and told of. -/
structure Books where
  known : Nat
  joined : Nat
  connected : Nat
  told : Nat
  deriving DecidableEq

/-- How often a client is on each of the lists. -/
def Desk.books (d : Desk) (c : Nat) : Books where
  known := d.known.count c
  joined := d.joined.count c
  connected := d.connections.count c
  told := d.told.count c

/-- What the lists say of a client, by how far its thread has come. -/
def LifeOf (b : Books) : Phase → Prop
  | .unborn | .identify => b = ⟨0, 0, 0, 0⟩
  | .enlist => b = ⟨1, 0, 0, 0⟩
  | .frames _ | .handler _ _ | .leaving => b = ⟨1, 1, 1, 0⟩
  | .left => b = ⟨1, 1, 0, 0⟩
  | .hook => b = ⟨1, 1, 0, 1⟩
  | .ended => b = ⟨0, 0, 0, 0⟩ ∨ b = ⟨1, 0, 0, 0⟩ ∨ b = ⟨1, 1, 0, 1⟩
  | _ => False

/-- What was read of a client and what its handler was called for, by how far its thread
    has come. -/
def ReadOf (d : Desk) (c : Nat) : Phase → Prop
  | .unborn | .identify | .enlist => d.chunks c = [] ∧ d.buffer c = [] ∧ d.handled c = []
  | .frames lines | .handler _ lines =>
      readFrames [] (d.chunks c) = { yielded := d.handled c ++ lines, refused := false } ∧
      d.buffer c = (framed lineFeed (Smbpal.received (d.chunks c))).2
  | _ => d.handled c <+: (readFrames [] (d.chunks c)).yielded

/-- A phase between `self._shutdown_done = True` and the end of `shutdown`. -/
def Phase.stops : Phase → Bool
  | .setStopping | .wake | .closeListener | .sweep | .unlink => true
  | _ => false

/-- A phase of `shutdown` after `self._stopping.set()`. -/
def Phase.afterSet : Phase → Bool
  | .wake | .closeListener | .sweep | .unlink => true
  | _ => false

namespace Transport

variable {s s' : Transport} {t : Runner}

/-- A connection is closed, or a thread is about to close it. -/
def Closing (s : Transport) (t : Runner) (c : Nat) : Prop :=
  (s.wires c).closed = true ∨ Task.close c ∈ (s.doing t).tasks

/-- The phase of a client's thread. -/
def phaseOf (s : Transport) (c : Nat) : Phase :=
  (s.doing (.client c)).phase

section Steps

/-- A step is a turn of a thread without tasks, or it leaves the desk and every phase as
    they were. -/
theorem Moves.desk (hstep : Moves s t s') :
    (s'.desk = s.desk ∧ ∀ u, (s'.doing u).phase = (s.doing u).phase) ∨
    ∃ p p' tasks, s.doing t = ⟨p, []⟩ ∧ s.desk.Turn t p p' tasks s'.desk ∧
      s'.doing = s.set t p' tasks ∧ s'.wires = s.wires := by
  have hphase : ∀ {p : Phase} {tasks tasks' : List Task}, s.doing t = ⟨p, tasks⟩ →
      ∀ u, (s.set t p tasks' u).phase = (s.doing u).phase := by
    intro p tasks tasks' h u
    by_cases hu : u = t
    · rw [hu, set_self, h]
    · rw [set_of_ne hu]
  cases hstep with
  | sends h _ => exact Or.inl ⟨rfl, hphase h⟩
  | closes h _ _ => exact Or.inl ⟨rfl, hphase h⟩
  | closesAgain h _ _ => exact Or.inl ⟨rfl, hphase h⟩
  | cuts h => exact Or.inl ⟨rfl, hphase h⟩
  | turn h hturn => exact Or.inr ⟨_, _, _, h, hturn, rfl, rfl⟩

/-- A closed connection stays closed, and nothing more goes out on it. -/
theorem Moves.closed (hstep : Moves s t s') (hinv : s.Inv) {c : Nat}
    (h : (s.wires c).closed = true) :
    (s'.wires c).closed = true ∧ (s'.wires c).bytes = (s.wires c).bytes := by
  cases hstep with
  -- Nothing more is sent on a closed wire, and closing is for good.
  | @sends _ c' _ _ _ wire _ hsend =>
      change (Function.update s.wires c' wire c).closed = true ∧
        (Function.update s.wires c' wire c).bytes = _
      by_cases hc : c = c'
      · rw [← hc] at hsend
        rw [hc, Function.update_self, (hsend.silent (hinv.whole c) h).1, hc]
        exact ⟨hc ▸ h, rfl⟩
      · rw [Function.update_of_ne hc]
        exact ⟨h, rfl⟩
  | @closes _ c' _ _ _ _ =>
      change (Function.update s.wires c' _ c).closed = true ∧
        (Function.update s.wires c' _ c).bytes = _
      by_cases hc : c = c'
      · rw [hc, Function.update_self]
        exact ⟨rfl, rfl⟩
      · rw [Function.update_of_ne hc]
        exact ⟨h, rfl⟩
  | closesAgain | cuts | turn => exact ⟨h, rfl⟩

/-- What is being closed is closed in the end: it is still being closed after a step. -/
theorem Moves.closing (hstep : Moves s t s') (hinv : s.Inv) {u : Runner} {c : Nat}
    (h : s.Closing u c) : s'.Closing u c := by
  rcases h with hclosed | hmem
  · exact Or.inl (hstep.closed hinv hclosed).1
  · by_cases hu : u = t
    · rw [hu] at hmem ⊢
      cases hstep with
      | @sends p c' m tasks last wire hdoing _ =>
          rw [hdoing] at hmem
          refine Or.inr ?_
          change Task.close c ∈ (s.set t p _ t).tasks
          rw [set_self]
          cases last with
          | true => exact (List.mem_cons.mp hmem).resolve_left fun heq => Task.noConfusion heq
          | false => exact hmem
      | @closes p c' tasks hdoing _ _ =>
          rw [hdoing] at hmem
          rcases List.mem_cons.mp hmem with heq | hrest
          · rw [Task.close.inj heq]
            refine Or.inl ?_
            change (Function.update s.wires c' _ c').closed = true
            rw [Function.update_self]
          · refine Or.inr ?_
            change Task.close c ∈ (s.set t p _ t).tasks
            rw [set_self]
            exact List.mem_cons_of_mem _ hrest
      | @closesAgain p c' tasks hdoing _ hclosed =>
          rw [hdoing] at hmem
          rcases List.mem_cons.mp hmem with heq | hrest
          · rw [Task.close.inj heq]
            exact Or.inl hclosed
          · refine Or.inr ?_
            change Task.close c ∈ (s.set t p _ t).tasks
            rw [set_self]
            exact hrest
      | @cuts p c' tasks hdoing =>
          rw [hdoing] at hmem
          refine Or.inr ?_
          change Task.close c ∈ (s.set t p _ t).tasks
          rw [set_self]
          exact (List.mem_cons.mp hmem).resolve_left fun heq => Task.noConfusion heq
      | @turn p p' tasks desk hdoing _ =>
          rw [hdoing] at hmem
          exact absurd hmem List.not_mem_nil
    · -- the tasks of another thread are what they were
      have hsame : (s'.doing u).tasks = (s.doing u).tasks := by
        cases hstep with
        | sends | closes | closesAgain | cuts | turn => exact congrArg _ (set_of_ne hu ..)
      exact Or.inr (hsame ▸ hmem)

end Steps

end Transport

namespace Desk

variable {d d' : Desk} {t : Runner} {p p' : Phase} {tasks : List Task}

/-- A turn of one client's thread changes nothing that is known of another client. -/
theorem Turn.elsewhere (h : d.Turn t p p' tasks d') {c : Nat} (hc : t ≠ .client c) :
    d'.books c = d.books c ∧ d'.chunks c = d.chunks c ∧ d'.buffer c = d.buffer c ∧
      d'.handled c = d.handled c := by
  -- What a client's thread changes is its own.
  have hne : ∀ {c' : Nat}, Runner.client c' ≠ .client c → c' ≠ c := fun h heq => h (heq ▸ rfl)
  have hcons : ∀ {c' : Nat} (l : List Nat), c' ≠ c → (c' :: l).count c = l.count c :=
    fun l hcc => List.count_cons_of_ne hcc
  cases h with
  | identified c' =>
      refine ⟨?_, rfl, rfl, rfl⟩
      rw [books, hcons _ (hne hc)]
      rfl
  | enlisted c' _ =>
      refine ⟨?_, rfl, rfl, rfl⟩
      rw [books, hcons _ (hne hc), hcons _ (hne hc)]
      rfl
  | discarded c' =>
      refine ⟨?_, rfl, rfl, rfl⟩
      rw [books, List.count_erase_of_ne (hne hc).symm]
      rfl
  | disconnected c' =>
      refine ⟨?_, rfl, rfl, rfl⟩
      rw [books, hcons _ (hne hc)]
      rfl
  | received c' chunk _ =>
      refine ⟨rfl, ?_, ?_, rfl⟩
      · exact Function.update_of_ne (hne hc).symm ..
      · exact Function.update_of_ne (hne hc).symm ..
  | overflowed c' chunk _ =>
      exact ⟨rfl, Function.update_of_ne (hne hc).symm .., rfl, rfl⟩
  | yielded c' line lines =>
      exact ⟨rfl, rfl, rfl, Function.update_of_ne (hne hc).symm ..⟩
  -- The other turns touch neither books nor chunks.
  | _ => exact ⟨rfl, rfl, rfl, rfl⟩

/-- A client's thread goes on as the lists say. -/
theorem Turn.life {c : Nat} (h : d.Turn (.client c) p p' tasks d')
    (hlife : LifeOf (d.books c) p) : LifeOf (d'.books c) p' := by
  cases h with
  | start | received | overflowed | hungUp | yielded | silent | replied | raised => exact hlife
  | sends | broadcasts => exact hlife
  | unidentified => exact Or.inl hlife
  | refused => exact Or.inr (Or.inl hlife)
  -- These four enter the client somewhere, or take it out.
  | identified =>
      simp only [LifeOf, books, Books.mk.injEq, List.count_cons_self] at hlife ⊢
      omega
  | enlisted =>
      simp only [LifeOf, books, Books.mk.injEq, List.count_cons_self] at hlife ⊢
      omega
  | discarded =>
      simp only [LifeOf, books, Books.mk.injEq, List.count_erase_self] at hlife ⊢
      omega
  | disconnected =>
      simp only [LifeOf, books, Books.mk.injEq, List.count_cons_self] at hlife ⊢
      omega
  | hookEnds => exact Or.inr (Or.inr hlife)
  | shutdownAgain | shutdownFirst | setStopping | wake | closeListener | sweep | unlink =>
      exact hlife.elim

end Desk

section Reading

/-- The reader after one more chunk. -/
theorem readFrames_snoc {buffer : List UInt8} {chunks : List Chunk} {lines : List (List UInt8)}
    (hopen : lineFeed ∉ buffer)
    (h : readFrames buffer chunks = { yielded := lines, refused := false }) (chunk : Chunk) :
    readFrames buffer (chunks ++ [chunk]) =
      if maxFrameBytes <
          ((framed lineFeed (buffer ++ received chunks)).2 ++ chunk.bytes).length then
        { yielded := lines, refused := true }
      else
        { yielded := lines ++ visibleLines (framed lineFeed
            ((framed lineFeed (buffer ++ received chunks)).2 ++ chunk.bytes)).1
          refused := false } := by
  induction chunks generalizing buffer lines with
  | nil =>
      have hlines : lines = [] := (Frames.mk.inj h).1.symm
      have hbuffer : (framed lineFeed (buffer ++ received [])).2 = buffer := by
        rw [received, List.flatMap_nil, List.append_nil, framed_of_not_mem hopen]
      rw [hbuffer, hlines, List.nil_append]
      by_cases hover : maxFrameBytes < (buffer ++ chunk.bytes).length
      · rw [if_pos hover, readFrames_overflow hover]
      · rw [if_neg hover, readFrames_cons (Nat.le_of_not_lt hover), readFrames, List.append_nil,
          List.nil_append]
  | cons first chunks ih =>
      -- A stream that was refused is not the one assumed.
      by_cases hover : maxFrameBytes < (buffer ++ first.bytes).length
      · rw [readFrames_overflow hover] at h
        exact absurd (Frames.mk.inj h).2 Bool.false_ne_true.symm
      · have hfits := Nat.le_of_not_lt hover
        rw [readFrames_cons hfits, Frames.mk.injEq] at h
        -- What is left of the first chunk is what the rest is read behind.
        have hrest := ih (not_mem_framed lineFeed _)
          (congrArg (Frames.mk (readFrames _ chunks).yielded) h.2)
        rw [List.cons_append, readFrames_cons hfits, hrest, framed_received_cons, ← h.1]
        by_cases hlong : maxFrameBytes < ((framed lineFeed
            ((framed lineFeed (buffer ++ first.bytes)).2 ++ received chunks)).2 ++
              chunk.bytes).length
        · rw [if_pos hlong, if_pos hlong]
        · rw [if_neg hlong, if_neg hlong, List.append_assoc]

end Reading

section Read

namespace Desk

variable {d d' : Desk} {p p' : Phase} {tasks : List Task}

/-- In every phase the handler was called for lines that were yielded, in their order. -/
theorem handled_prefix {c : Nat} (h : ReadOf d c p) :
    d.handled c <+: (readFrames [] (d.chunks c)).yielded := by
  cases p with
  | unborn | identify | enlist =>
      rw [h.2.2]
      exact List.nil_prefix
  | frames lines | handler line lines =>
      rw [h.1]
      exact List.prefix_append (d.handled c) lines
  | _ => exact h

/-- A client's thread goes on reading where it was. -/
theorem Turn.read {c : Nat} (h : d.Turn (.client c) p p' tasks d') (hread : ReadOf d c p) :
    ReadOf d' c p' := by
  cases h with
  -- Before it reads, nothing is handed over; after a refusal nothing more is.
  | start | unidentified | identified => first | exact hread | exact handled_prefix hread
  | refused => exact handled_prefix (p := .enlist) hread
  | enlisted =>
      rcases hread with ⟨hchunks, hbuffer, hhandled⟩
      refine ⟨?_, ?_⟩
      · change readFrames [] (d.chunks c) = { yielded := d.handled c ++ [], refused := false }
        rw [hchunks, hhandled]
        rfl
      · change d.buffer c = (framed lineFeed (Smbpal.received (d.chunks c))).2
        rw [hchunks, hbuffer]
        rfl
  | received _ chunk hfits =>
      rcases hread with ⟨hyielded, hbuffer⟩
      rw [List.append_nil] at hyielded
      have hsnoc := readFrames_snoc List.not_mem_nil hyielded chunk
      -- The chunk fits, so its whole lines are to be handed over.
      rw [List.nil_append, ← hbuffer, if_neg (Nat.not_lt.mpr hfits)] at hsnoc
      refine ⟨?_, ?_⟩
      · change readFrames [] (Function.update d.chunks c (d.chunks c ++ [chunk]) c) = _
        rw [Function.update_self]
        exact hsnoc
      · change Function.update d.buffer c (framed lineFeed (d.buffer c ++ chunk.bytes)).2 c =
          (framed lineFeed (Smbpal.received (Function.update d.chunks c
          (d.chunks c ++ [chunk]) c))).2
        rw [Function.update_self, Function.update_self, Smbpal.received, List.flatMap_append,
          List.flatMap_singleton, framed_append lineFeed (List.flatMap Chunk.bytes (d.chunks c))]
        exact congrArg (fun b => (framed lineFeed (b ++ chunk.bytes)).2) hbuffer
  | overflowed _ chunk hover =>
      rcases hread with ⟨hyielded, hbuffer⟩
      rw [List.append_nil] at hyielded
      have hsnoc := readFrames_snoc List.not_mem_nil hyielded chunk
      -- The chunk does not fit, so nothing is handed over but what was.
      rw [List.nil_append, ← hbuffer, if_pos hover] at hsnoc
      change d.handled c <+:
        (readFrames [] (Function.update d.chunks c (d.chunks c ++ [chunk]) c)).yielded
      rw [Function.update_self, hsnoc]
  | hungUp | raised => exact handled_prefix hread
  | yielded _ line lines =>
      -- One line goes from those to be handed over to those that were.
      refine ⟨?_, hread.2⟩
      change readFrames [] (d.chunks c) =
        { yielded := Function.update d.handled c (d.handled c ++ [line]) c ++ lines
          refused := false }
      rw [Function.update_self, List.append_assoc, List.singleton_append]
      exact hread.1
  | silent | replied | discarded | disconnected | hookEnds | sends | broadcasts =>
      exact hread
  | shutdownAgain | shutdownFirst | setStopping | wake | closeListener | sweep | unlink =>
      exact hread

end Desk

end Read

namespace Desk

variable {d d' : Desk} {t : Runner} {p p' : Phase} {tasks : List Task}

/-- A client's thread gets past its connection with the connection to close, or out of the
    hook, or without one. -/
theorem Turn.leaves {c : Nat} (h : d.Turn (.client c) p p' tasks d')
    (hleaves : p' = .left ∨ p' = .ended) :
    Task.close c ∈ tasks ∨ p = .hook ∨ p = .identify ∧ d' = d := by
  cases h with
  | refused | discarded => exact Or.inl List.mem_cons_self
  | hookEnds => exact Or.inr (Or.inl rfl)
  | unidentified => exact Or.inr (Or.inr ⟨rfl, rfl⟩)
  | sends c' m hp _ => rcases hleaves with rfl | rfl <;> exact absurd hp Bool.false_ne_true
  | broadcasts m hp => rcases hleaves with rfl | rfl <;> exact absurd hp Bool.false_ne_true
  | _ => rcases hleaves with h | h <;> exact Phase.noConfusion h

/-- The hook is called by the client's own thread. -/
theorem Turn.told (h : d.Turn t p p' tasks d') {c : Nat} (hmem : c ∈ d'.told) :
    c ∈ d.told ∨ t = .client c ∧ p = .left := by
  cases h with
  | disconnected c' =>
      rcases List.mem_cons.mp hmem with rfl | hold
      · exact Or.inr ⟨rfl, rfl⟩
      · exact Or.inl hold
  | _ => exact Or.inl hmem

/-- A transport that is stopping goes on stopping, and nobody joins it. -/
theorem Turn.stopping (h : d.Turn t p p' tasks d') (hstop : d.stopping = true) :
    d'.stopping = true ∧ ∀ c ∈ d'.connections, c ∈ d.connections := by
  cases h with
  | enlisted c hgo => exact absurd (hstop.symm.trans hgo) Bool.false_ne_true.symm
  | discarded c => exact ⟨hstop, fun _ hmem => List.mem_of_mem_erase hmem⟩
  | setStopping => exact ⟨rfl, fun _ hmem => hmem⟩
  | _ => exact ⟨hstop, fun _ hmem => hmem⟩

/-- A thread gets into a later part of `shutdown` out of an earlier one. -/
theorem Turn.stops (h : d.Turn t p p' tasks d') (hstops : p'.stops = true) :
    (p.stops = true ∧ d'.shutdownDone = d.shutdownDone) ∨
      d.shutdownDone = false ∧ d'.shutdownDone = true := by
  cases h with
  | shutdownFirst hfirst => exact Or.inr ⟨hfirst, rfl⟩
  | setStopping | wake | closeListener | sweep => exact Or.inl ⟨rfl, rfl⟩
  | sends _ _ hp _ | broadcasts _ hp =>
      cases p <;> first
        | exact absurd hp Bool.false_ne_true
        | exact absurd hstops Bool.false_ne_true
  | shutdownAgain | unlink =>
      cases t <;> exact absurd hstops Bool.false_ne_true
  | _ => exact absurd hstops Bool.false_ne_true

/-- `_shutdown_done` stays set. -/
theorem Turn.done (h : d.Turn t p p' tasks d') (hdone : d.shutdownDone = true) :
    d'.shutdownDone = true := by
  cases h with
  | shutdownFirst => rfl
  | _ => exact hdone

/-- After `_stopping` was set it is set. -/
theorem Turn.afterSet (h : d.Turn t p p' tasks d') (hset : p.afterSet = true → d.stopping = true)
    (hafter : p'.afterSet = true) : d'.stopping = true := by
  cases h with
  | setStopping => rfl
  | wake | closeListener | sweep => exact hset rfl
  | sends | broadcasts => exact hset hafter
  | shutdownAgain | unlink => cases t <;> exact absurd hafter Bool.false_ne_true
  | _ => exact absurd hafter Bool.false_ne_true

/-- A thread comes before the end of `shutdown` with every connection to close. -/
theorem Turn.unlinks (h : d.Turn t p p' tasks d') (hunlink : p' = .unlink) :
    p.afterSet = true ∧ d' = d ∧ ∀ c ∈ d.connections, Task.close c ∈ tasks := by
  cases h with
  | sweep => exact ⟨rfl, rfl, fun c hc => List.mem_map_of_mem hc⟩
  | sends _ _ hp _ | broadcasts _ hp =>
      rw [hunlink] at hp
      exact absurd hp Bool.false_ne_true
  | shutdownAgain | unlink => cases t <;> exact Phase.noConfusion hunlink
  | _ => exact Phase.noConfusion hunlink

/-- The socket file goes at the end of `shutdown`. -/
theorem Turn.file (h : d.Turn t p p' tasks d') (hfile : d'.socketFile = false) :
    d.socketFile = false ∨ p = .unlink ∧ d'.connections = d.connections := by
  cases h with
  | unlink => exact Or.inr ⟨rfl, rfl⟩
  | _ => exact Or.inl hfile

/-- Only the thread in `serve_forever` accepts. -/
theorem Turn.accepts (h : d.Turn t p p' tasks d') (ht : t ≠ .main) :
    d'.accepted = d.accepted := by
  cases h with
  | acceptClient => exact absurd rfl ht
  | _ => rfl

end Desk

namespace Transport

variable {s s' : Transport} {t : Runner}

/-- What holds of the clients between any two steps. -/
structure Lives (s : Transport) : Prop where
  inv : s.Inv
  life : ∀ c, LifeOf (s.desk.books c) (s.phaseOf c)
  read : ∀ c, ReadOf s.desk c (s.phaseOf c)
  told : ∀ c ∈ s.desk.told, (s.wires c).closed = true
  leaves : ∀ c ∈ s.desk.known, s.phaseOf c = .left ∨ s.phaseOf c = .ended →
    s.Closing (.client c) c

theorem lives_bound : bound.Lives where
  inv := inv_bound
  life := fun _ => rfl
  read := fun _ => ⟨rfl, rfl, rfl⟩
  told := fun _ h => absurd h List.not_mem_nil
  leaves := fun _ h => absurd h List.not_mem_nil

/-- Who has been told of was connected once, and no more. -/
theorem told_of_hook {b : Books} (h : LifeOf b .hook) : b.told = 1 := by
  rw [show b = ⟨1, 1, 0, 1⟩ from h]

theorem Moves.lives (hstep : Moves s t s') (h : s.Lives) : s'.Lives := by
  have hinv := h.inv
  rcases hstep.desk with ⟨hdesk, hphase⟩ | ⟨p, p', tasks, hdoing, hturn, hset, hwires⟩
  · have hof : ∀ c, s'.phaseOf c = s.phaseOf c := fun c => hphase (.client c)
    refine ⟨hstep.inv hinv, fun c => ?_, fun c => ?_, fun c hc => ?_, fun c hc hleaves => ?_⟩
    · rw [hdesk, hof]
      exact h.life c
    · rw [hdesk, hof]
      exact h.read c
    · rw [hdesk] at hc
      exact (hstep.closed hinv (h.told c hc)).1
    · rw [hdesk] at hc
      rw [hof] at hleaves
      exact hstep.closing hinv (h.leaves c hc hleaves)
  · have hself : ∀ c, t = .client c → s.phaseOf c = p ∧ s'.phaseOf c = p' := by
      intro c hc
      rw [phaseOf, phaseOf, hset, ← hc, set_self, hdoing]
      exact ⟨rfl, rfl⟩
    have hother : ∀ c, t ≠ .client c → s'.phaseOf c = s.phaseOf c := by
      intro c hc
      rw [phaseOf, phaseOf, hset, set_of_ne (Ne.symm hc)]
    refine ⟨hstep.inv hinv, fun c => ?_, fun c => ?_, fun c hc => ?_, fun c hc hleaves => ?_⟩
    · by_cases hc : t = .client c
      · have hlife := h.life c
        rw [(hself c hc).1] at hlife
        rw [(hself c hc).2]
        subst hc
        exact hturn.life hlife
      · rw [hother c hc, (hturn.elsewhere hc).1]
        exact h.life c
    · by_cases hc : t = .client c
      · have hread := h.read c
        rw [(hself c hc).1] at hread
        rw [(hself c hc).2]
        subst hc
        exact hturn.read hread
      · rcases hturn.elsewhere hc with ⟨-, hchunks, hbuffer, hhandled⟩
        have hread := h.read c
        rw [hother c hc]
        unfold ReadOf at hread ⊢
        rw [hchunks, hbuffer, hhandled]
        exact hread
    · rcases hturn.told hc with hold | ⟨ht, hp⟩
      · exact (hstep.closed hinv (h.told c hold)).1
      · -- the thread has nothing left to do, so that the connection is closed
        rw [hwires]
        have hleft : s.phaseOf c = .left := (hself c ht).1.trans hp
        have hknown : c ∈ s.desk.known := by
          have hlife := h.life c
          rw [hleft] at hlife
          have hcount : s.desk.known.count c = 1 := congrArg Books.known hlife
          exact List.count_pos_iff.mp (by omega)
        rcases h.leaves c hknown (Or.inl hleft) with hclosed | hmem
        · exact hclosed
        · rw [← ht, hdoing] at hmem
          exact absurd hmem List.not_mem_nil
    · by_cases hc' : t = .client c
      · rw [(hself c hc').2] at hleaves
        have hlife := h.life c
        rw [(hself c hc').1] at hlife
        subst hc'
        rcases hturn.leaves hleaves with htask | rfl | ⟨rfl, hdesk⟩
        · refine Or.inr ?_
          rw [hset, set_self]
          exact htask
        · -- out of the hook: it was told of, and so it is closed
          refine Or.inl (hstep.closed hinv (h.told c ?_)).1
          have hcount : s.desk.told.count c = 1 := told_of_hook hlife
          exact List.count_pos_iff.mp (by omega)
        · rw [hdesk] at hc
          have hcount : s.desk.known.count c = 0 := congrArg Books.known hlife
          exact absurd hc (List.count_eq_zero.mp hcount)
      · have hbooks := congrArg Books.known (hturn.elsewhere hc').1
        rw [hother c hc'] at hleaves
        refine hstep.closing hinv (h.leaves c ?_ hleaves)
        have hcount : s'.desk.known.count c = s.desk.known.count c := hbooks
        have hpos := List.count_pos_iff.mpr hc
        exact List.count_pos_iff.mp (by omega)

theorem Reaches.lives (hrun : Reaches bound s) : s.Lives :=
  GuardedRun.invariant Lives lives_bound (fun _ _ _ h _ hstep => hstep.lives h) hrun

/-- What is so while a thread is in `shutdown`, and after. -/
structure Stopping (s : Transport) : Prop where
  set : ∀ t, (s.doing t).phase.afterSet = true → s.desk.stopping = true
  done : ∀ t, (s.doing t).phase.stops = true → s.desk.shutdownDone = true
  once : ∀ t u, (s.doing t).phase.stops = true → (s.doing u).phase.stops = true → t = u
  swept : ∀ t, (s.doing t).phase = .unlink → ∀ c ∈ s.desk.connections, s.Closing t c
  gone : s.desk.socketFile = false →
    s.desk.stopping = true ∧ ∀ c ∈ s.desk.connections, (s.wires c).closed = true

theorem stopping_bound : bound.Stopping where
  set := fun t h => by cases t <;> exact absurd h Bool.false_ne_true
  done := fun t h => by cases t <;> exact absurd h Bool.false_ne_true
  once := fun t _ h => by cases t <;> exact absurd h Bool.false_ne_true
  swept := fun t h => by cases t <;> exact Phase.noConfusion h
  gone := fun h => absurd h Bool.false_ne_true.symm

theorem Moves.stopping (hstep : Moves s t s') (hinv : s.Inv) (h : s.Stopping) :
    s'.Stopping := by
  rcases hstep.desk with ⟨hdesk, hphase⟩ | ⟨p, p', tasks, hdoing, hturn, hset, hwires⟩
  · refine ⟨fun u hu => ?_, fun u hu => ?_, fun u v hu hv => ?_, fun u hu c hc => ?_,
      fun hfile => ?_⟩
    · rw [hdesk]
      exact h.set u (hphase u ▸ hu)
    · rw [hdesk]
      exact h.done u (hphase u ▸ hu)
    · exact h.once u v (hphase u ▸ hu) (hphase v ▸ hv)
    · rw [hdesk] at hc
      exact hstep.closing hinv (h.swept u (hphase u ▸ hu) c hc)
    · rw [hdesk] at hfile ⊢
      exact ⟨(h.gone hfile).1, fun c hc => (hstep.closed hinv ((h.gone hfile).2 c hc)).1⟩
  · have hself : (s'.doing t).phase = p' := by rw [hset, set_self]
    have hbefore : (s.doing t).phase = p := by rw [hdoing]
    have hother : ∀ u, u ≠ t → s'.doing u = s.doing u := fun u hu => by
      rw [hset, set_of_ne hu]
    refine ⟨fun u hu => ?_, fun u hu => ?_, fun u v hu hv => ?_, fun u hu c hc => ?_,
      fun hfile => ?_⟩
    · by_cases hut : u = t
      · rw [hut, hself] at hu
        exact hturn.afterSet (fun hp => h.set t (hbefore ▸ hp)) hu
      · rw [hother u hut] at hu
        exact (hturn.stopping (h.set u hu)).1
    · by_cases hut : u = t
      · rw [hut, hself] at hu
        rcases hturn.stops hu with ⟨hp, hsame⟩ | ⟨-, hdone⟩
        · exact hsame.trans (h.done t (hbefore ▸ hp))
        · exact hdone
      · rw [hother u hut] at hu
        exact hturn.done (h.done u hu)
    · -- the thread that comes into `shutdown` is the first, and so the only one
      have honly : ∀ u, u ≠ t → (s'.doing t).phase.stops = true →
          (s'.doing u).phase.stops = true → False := by
        intro u hut ht hu
        rw [hself] at ht
        rw [hother u hut] at hu
        rcases hturn.stops ht with ⟨hp, -⟩ | ⟨hnot, -⟩
        · exact hut (h.once u t hu (hbefore ▸ hp))
        · exact absurd ((h.done u hu).symm.trans hnot) Bool.false_ne_true.symm
      by_cases hut : u = t
      · by_cases hvt : v = t
        · rw [hut, hvt]
        · exact (honly v hvt (hut ▸ hu) hv).elim
      · by_cases hvt : v = t
        · exact (honly u hut (hvt ▸ hv) hu).elim
        · rw [hother u hut] at hu
          rw [hother v hvt] at hv
          exact h.once u v hu hv
    · by_cases hut : u = t
      · rw [hut, hself] at hu
        rcases hturn.unlinks hu with ⟨-, hdesk, htasks⟩
        rw [hdesk] at hc
        rw [hut]
        refine Or.inr ?_
        rw [hset, set_self]
        exact htasks c hc
      · rw [hother u hut] at hu
        have hstop := h.set u (hu ▸ rfl)
        exact hstep.closing hinv (h.swept u hu c ((hturn.stopping hstop).2 c hc))
    · rcases hturn.file hfile with hold | ⟨hp, hsame⟩
      · have hgone := h.gone hold
        refine ⟨(hturn.stopping hgone.1).1, fun c hc => ?_⟩
        exact (hstep.closed hinv (hgone.2 c ((hturn.stopping hgone.1).2 c hc))).1
      · rw [hp] at hbefore
        refine ⟨(hturn.stopping (h.set t (hbefore ▸ rfl))).1, fun c hc => ?_⟩
        rw [hsame] at hc
        rcases h.swept t hbefore c hc with hclosed | hmem
        · exact (hstep.closed hinv hclosed).1
        · rw [hdoing] at hmem
          exact absurd hmem List.not_mem_nil

theorem Reaches.stopping (hrun : Reaches bound s) : s.Stopping :=
  (GuardedRun.invariant (fun s => s.Inv ∧ s.Stopping) ⟨inv_bound, stopping_bound⟩
    (fun _ _ _ h _ hstep => ⟨hstep.inv h.1, hstep.stopping h.1 h.2⟩) hrun).2

end Transport

/-- A broadcast is for every connection, once. -/
theorem toSend_sendAll {targets : List Nat} (hnodup : targets.Nodup) (m : Payload) (c : Nat) :
    toSend c (sendAll targets m) = if c ∈ targets then [m] else [] := by
  induction targets with
  | nil => rfl
  | cons c' targets ih =>
      rw [List.nodup_cons] at hnodup
      have hrest := ih hnodup.2
      by_cases hc : c' = c
      · rw [sendAll, List.map_cons, hc, toSend_send, if_pos List.mem_cons_self]
        rw [if_neg (hc ▸ hnodup.1)] at hrest
        exact congrArg (m :: ·) hrest
      · rw [sendAll, List.map_cons, toSend_other hc]
        refine hrest.trans ?_
        have hiff : c ∈ c' :: targets ↔ c ∈ targets :=
          List.mem_cons.trans (or_iff_right (Ne.symm hc))
        by_cases hmem : c ∈ targets
        · rw [if_pos hmem, if_pos (hiff.mpr hmem)]
        · rw [if_neg hmem, if_neg fun h => hmem (hiff.mp h)]

/-- What the lists say in a phase. -/
theorem LifeOf.bounds {b : Books} {p : Phase} (h : LifeOf b p) :
    b.told ≤ b.joined ∧ b.joined ≤ b.known ∧ b.known ≤ 1 ∧
      b.connected + b.told ≤ b.joined ∧ (p = .ended → b.told = b.joined ∧ b.connected = 0) := by
  cases p with
  | ended =>
      rcases h with rfl | rfl | rfl
      all_goals
        refine ⟨?_, ?_, ?_, ?_, fun _ => ⟨rfl, rfl⟩⟩ <;> dsimp only <;> omega
  | unborn | identify | enlist | frames | handler | leaving | left | hook =>
      rw [show b = ⟨_, _, _, _⟩ from h]
      refine ⟨?_, ?_, ?_, ?_, fun hp => Phase.noConfusion hp⟩ <;> dsimp only <;> omega
  | _ => exact h.elim

/-- Along any run every client is registered at most once and its disconnect hook called at
    most once. Whom it was called for was registered, is not any more, and its connection is
    closed; it was not called for anybody who was refused. And when a client's thread has
    ended, it was called if the client was ever registered, and the connection is closed or
    the thread's last task is to close it. A broadcast goes once to everybody registered. -/
theorem connection_life {s : Transport} (hrun : Transport.bound.Reaches s) (c : Nat) :
    s.desk.joined.count c ≤ 1 ∧ s.desk.told.count c ≤ 1 ∧
    (c ∈ s.desk.told →
      c ∈ s.desk.joined ∧ c ∉ s.desk.connections ∧ (s.wires c).closed = true) ∧
    (s.phaseOf c = .ended → (c ∈ s.desk.joined ↔ c ∈ s.desk.told) ∧
      c ∉ s.desk.connections ∧ (c ∈ s.desk.known → s.Closing (.client c) c)) ∧
    ∀ m, toSend c (sendAll s.desk.connections m) =
      if c ∈ s.desk.connections then [m] else [] := by
  have hlives := Transport.Reaches.lives hrun
  -- The invariant as inequalities between the counts of the books.
  have hcounts : ∀ c, s.desk.told.count c ≤ s.desk.joined.count c ∧
      s.desk.joined.count c ≤ s.desk.known.count c ∧ s.desk.known.count c ≤ 1 ∧
      s.desk.connections.count c + s.desk.told.count c ≤ s.desk.joined.count c ∧
      (s.phaseOf c = .ended → s.desk.told.count c = s.desk.joined.count c ∧
        s.desk.connections.count c = 0) := fun c => (hlives.life c).bounds
  rcases hcounts c with ⟨htold, hjoined, hknown, hsum, hended⟩
  refine ⟨by omega, by omega, fun hmem => ?_, fun hphase => ⟨?_, ?_, fun hc => ?_⟩,
    fun m => toSend_sendAll ?_ m c⟩
  · have hpos := List.count_pos_iff.mpr hmem
    exact ⟨List.count_pos_iff.mp (by omega), List.count_eq_zero.mp (by omega),
      hlives.told c hmem⟩
  · rw [← List.count_pos_iff, ← List.count_pos_iff, (hended hphase).1]
  · exact List.count_eq_zero.mp (hended hphase).2
  · exact hlives.leaves c hc (Or.inr hphase)
  · -- Nobody is in the list twice, so a broadcast sends to each of them once.
    refine List.nodup_iff_count_le_one.mpr fun c' => ?_
    rcases hcounts c' with ⟨-, hjoined', hknown', hsum', -⟩
    omega

/-- A client that hung up was registered, is not any more, and is closed. -/
theorem connection_life_told : ∃ s : Transport, s.phaseOf 0 = .ended ∧ 0 ∈ s.desk.joined ∧
    0 ∉ s.desk.connections ∧ (s.wires 0).closed = true ∧ s.desk.told.count 0 ≤ 1 := by
  rcases client_served with ⟨-, -, gone, -, -, hrun, hended, htold⟩
  have hlife := connection_life hrun 0
  have hmem : 0 ∈ gone.desk.told := by
    rw [htold]
    exact List.mem_singleton_self 0
  rcases hlife.2.2.1 hmem with ⟨hjoined, hnot, hclosed⟩
  exact ⟨gone, hended, hjoined, hnot, hclosed, hlife.2.1⟩

/-- Along any run the handler of a client is called for the lines the stream of that client
    has in it, as `read_frames` yields them, in their order, each once, whatever chunks they
    came in; and for all of them when the thread waits for more. -/
theorem frames_in_order {s : Transport} (hrun : Transport.bound.Reaches s) (c : Nat) :
    s.desk.handled c <+: (readFrames [] (s.desk.chunks c)).yielded ∧
    (s.phaseOf c = .frames [] →
      s.desk.handled c = (readFrames [] (s.desk.chunks c)).yielded) := by
  have hread := (Transport.Reaches.lives hrun).read c
  refine ⟨Desk.handled_prefix hread, fun hphase => ?_⟩
  rw [hphase] at hread
  rw [hread.1, List.append_nil]

/-- Two chunks have come, and the handler was called for both lines. -/
theorem frames_in_order_told : ∃ s : Transport,
    s.desk.chunks 0 = [firstChunk, secondChunk] ∧ s.desk.handled 0 = [[91, 93], [48]] := by
  rcases client_served with ⟨-, waiting, -, -, ⟨hrun, hphase, hchunks, -⟩, -⟩
  refine ⟨waiting, hchunks, ?_⟩
  rw [(frames_in_order hrun 0).2 hphase, hchunks]
  rfl

namespace Transport

/-- How many clients the thread in `serve_forever` accepts before it looks at `_stopping`. -/
def slots (s : Transport) : Nat :=
  if (s.doing .main).phase = .select ∨ (s.doing .main).phase = .accept then 1 else 0

/-- What has become of a transport since it was stopping. -/
structure Since (s₀ s : Transport) : Prop where
  inv : s.Inv
  stopping : s.desk.stopping = true
  left : ∀ c ∈ s.desk.connections, c ∈ s₀.desk.connections
  last : s.desk.accepted + s.slots ≤ s₀.desk.accepted + s₀.slots
  silent : ∀ c, (s₀.wires c).closed = true →
    (s.wires c).closed = true ∧ (s.wires c).bytes = (s₀.wires c).bytes

theorem slots_of_phase {s s' : Transport}
    (h : (s'.doing .main).phase = (s.doing .main).phase) : s'.slots = s.slots := by
  rw [slots, slots, h]

/-- At most the client that is being accepted is accepted. -/
theorem Turn.slots {d d' : Desk} {p p' : Phase} {tasks : List Task}
    (h : d.Turn .main p p' tasks d') (hstop : d.stopping = true) :
    d'.accepted + (if p' = .select ∨ p' = .accept then 1 else 0) ≤
      d.accepted + (if p = .select ∨ p = .accept then 1 else 0) := by
  cases h with
  | testGoOn hgo => exact absurd (hstop.symm.trans hgo) Bool.false_ne_true.symm
  | acceptClient => exact Nat.le_refl _
  | sends | broadcasts => exact Nat.le_refl _
  | selectReady => exact Nat.le_refl _
  | _ => exact Nat.le_add_right _ _

theorem Moves.since {s₀ s s' : Transport} {t : Runner} (hstep : Moves s t s')
    (h : Since s₀ s) : Since s₀ s' := by
  -- A wire that was closed stays closed, and nothing more is written to it.
  have hclosed : ∀ c, (s₀.wires c).closed = true →
      (s'.wires c).closed = true ∧ (s'.wires c).bytes = (s₀.wires c).bytes := by
    intro c hc
    have hbefore := h.silent c hc
    have hafter := hstep.closed h.inv hbefore.1
    exact ⟨hafter.1, hafter.2.trans hbefore.2⟩
  -- The step is one of a lock or a wire, or a turn at the desk.
  rcases hstep.desk with ⟨hdesk, hphase⟩ | ⟨p, p', tasks, hdoing, hturn, hset, -⟩
  · refine ⟨hstep.inv h.inv, ?_, ?_, ?_, hclosed⟩
    · rw [hdesk]
      exact h.stopping
    · rw [hdesk]
      exact h.left
    · rw [hdesk, slots_of_phase (hphase .main)]
      exact h.last
  · have hstopping := hturn.stopping h.stopping
    refine ⟨hstep.inv h.inv, hstopping.1, fun c hc => h.left c (hstopping.2 c hc), ?_, hclosed⟩
    -- Only the accepting thread can accept, and it stops at the flag.
    by_cases ht : t = .main
    · subst ht
      have hslots := Turn.slots hturn h.stopping
      have hlast := h.last
      rw [slots, hdoing] at hlast
      rw [slots, hset, set_self]
      exact Nat.le_trans hslots hlast
    · have hsame := hturn.accepts ht
      have hphase : (s'.doing .main).phase = (s.doing .main).phase := by
        rw [hset, set_of_ne (Ne.symm ht)]
      rw [hsame, slots_of_phase hphase]
      exact h.last

end Transport

/-- Once the socket file was removed at the end of `shutdown`, and from then on: everybody
    registered is closed and is sent nothing more, nobody else is registered, and whoever
    has a connection without being registered is refused, or closed by the own thread. At
    most one client more is accepted. -/
theorem shut_down {s s' : Transport} (hrun : Transport.bound.Reaches s)
    (hfile : s.desk.socketFile = false) (hlater : s.Reaches s') :
    (∀ c ∈ s'.desk.connections, c ∈ s.desk.connections ∧ (s'.wires c).closed = true ∧
      (s'.wires c).bytes = (s.wires c).bytes) ∧
    (∀ c ∈ s'.desk.known, s'.phaseOf c = .enlist ∨ s'.Closing (.client c) c) ∧
    s'.desk.accepted ≤ s.desk.accepted + 1 := by
  have hgone := (Transport.Reaches.stopping hrun).gone hfile
  have hsince : Transport.Since s s' :=
    GuardedRun.invariant (Transport.Since s)
      ⟨(Transport.Reaches.lives hrun).inv, hgone.1, fun _ hc => hc, Nat.le_refl _,
        fun _ hc => ⟨hc, rfl⟩⟩
      (fun _ _ _ h _ hstep => hstep.since h) hlater
  have hconnected : ∀ c ∈ s'.desk.connections, c ∈ s.desk.connections ∧
      (s'.wires c).closed = true ∧ (s'.wires c).bytes = (s.wires c).bytes := fun c hc =>
    ⟨hsince.left c hc, hsince.silent c (hgone.2 c (hsince.left c hc))⟩
  refine ⟨hconnected, fun c hc => ?_, ?_⟩
  · have hlives := Transport.Reaches.lives (hrun.trans hlater)
    have hlife := hlives.life c
    have hpos := List.count_pos_iff.mpr hc
    -- by how far the client's own thread has come
    cases hphase : s'.phaseOf c with
    | enlist => exact Or.inl rfl
    | unborn | identify =>
        rw [hphase] at hlife
        have hzero : s'.desk.known.count c = 0 := congrArg Books.known hlife
        omega
    | frames | handler | leaving =>
        rw [hphase] at hlife
        have hone : s'.desk.connections.count c = 1 := congrArg Books.connected hlife
        exact Or.inr (Or.inl (hconnected c (List.count_pos_iff.mp (by omega))).2.1)
    | left => exact Or.inr (hlives.leaves c hc (Or.inl hphase))
    | ended => exact Or.inr (hlives.leaves c hc (Or.inr hphase))
    | hook =>
        rw [hphase] at hlife
        have hone : s'.desk.told.count c = 1 := congrArg Books.told hlife
        exact Or.inr (Or.inl (hlives.told c (List.count_pos_iff.mp (by omega))))
    | _ =>
        rw [hphase] at hlife
        exact hlife.elim
  · have hlast := hsince.last
    have hslots : s.slots ≤ 1 := by
      unfold Transport.slots
      split <;> omega
    omega

/-- A client connects, and the transport is shut down while it is about to accept another
    one. That one is accepted after the socket file is gone. -/
theorem stopped_with_client : ∃ s s', Transport.bound.Reaches s ∧
    s.desk.connections = [0] ∧ s.desk.socketFile = false ∧ s.desk.accepted = 1 ∧ s.Reaches s' ∧
    s'.desk.connections = [0] ∧ s'.desk.accepted = 2 ∧ s'.desk.known = [1, 0] := by
  have hstart : GuardedRun Transport.Moves (fun _ _ => True) Transport.bound Transport.bound :=
    GuardedRun.start
  have haccepted := ((hstart.next .main trivial (.turn rfl .registered)).next .main trivial
    (.turn rfl (.testGoOn rfl))).next .main trivial (.turn rfl (.selectReady rfl))
  have henlisted := ((((haccepted.next .main trivial (.turn rfl .acceptClient)).next
    (.client 0) trivial (.turn rfl (.start 0 Nat.one_pos))).next (.client 0) trivial
    (.turn rfl (.identified 0))).next (.client 0) trivial (.turn rfl (.enlisted 0 rfl)))
  have haccepting := (henlisted.next .main trivial (.turn rfl (.testGoOn rfl))).next .main
    trivial (.turn rfl (.selectReady rfl))
  have hstopping := (((haccepting.next (.other 0) trivial (.turn rfl (.shutsDown 0))).next
    (.other 0) trivial (.turn rfl (.shutdownFirst rfl))).next (.other 0) trivial
    (.turn rfl .setStopping)).next (.other 0) trivial (.turn rfl .wake)
  have hswept := ((((hstopping.next (.other 0) trivial (.turn rfl .closeListener)).next
    (.other 0) trivial (.turn rfl .sweep)).next (.other 0) trivial
    (.closes rfl rfl rfl)).next (.other 0) trivial (.cuts rfl))
  have hstopped := hswept.next (.other 0) trivial (.turn rfl .unlink)
  -- a run of its own begins there
  have hfrom : ∀ {s : Transport}, Transport.bound.Reaches s →
      GuardedRun Transport.Moves (fun _ _ => True) s s := fun _ => GuardedRun.start
  have hlast := (((hfrom hstopped).next .main trivial (.turn rfl .acceptClient)).next
    (.client 1) trivial (.turn rfl (.start 1 (by decide)))).next (.client 1) trivial
    (.turn rfl (.identified 1))
  exact ⟨_, _, hstopped, rfl, rfl, rfl, hlast, rfl, rfl, rfl⟩

/-- The client that was there is closed, and the last one is about to be refused. -/
theorem shut_down_client : ∃ s s' : Transport, s'.desk.connections = [0] ∧
    (s'.wires 0).closed = true ∧ (s'.wires 0).bytes = (s.wires 0).bytes ∧
    s'.desk.accepted = s.desk.accepted + 1 ∧
    (s'.phaseOf 1 = .enlist ∨ s'.Closing (.client 1) 1) := by
  rcases stopped_with_client with
    ⟨s, s', hrun, -, hfile, haccepted, hlater, hconnections, hmore, hknown⟩
  have hdown := shut_down hrun hfile hlater
  have hmem : 0 ∈ s'.desk.connections := by
    rw [hconnections]
    exact List.mem_singleton_self 0
  have hlast : 1 ∈ s'.desk.known := by
    rw [hknown]
    exact List.mem_cons_self
  rcases hdown.1 0 hmem with ⟨-, hclosed, hsame⟩
  exact ⟨s, s', hconnections, hclosed, hsame, by rw [hmore, haccepted], hdown.2.1 1 hlast⟩

end Smbpal
