import Smbpal.Ipc.Protocol
import Smbpal.Lib.Framing

/-!
# Frames from a Socket

`UnixSocketConnection.read_frames` in `ipc/server.py`: the lines of a stream that
arrives in chunks.

The limit is there for a client that never sends a newline, and what it is put to is
the buffer with the new chunk in it, before any line is taken out. A buffer that holds
the end of one line and the start of the next is over it although neither line is, and
the lines that have ended in it are not yielded.

## Main definitions

* `Chunk`: What one `recv` can return.
* `readFrames`: The lines that are yielded, and whether the reader gave up on the client.
* `dueFrames`: What the stream alone calls for.
* `Overflows`: A chunk takes the buffer past the limit.
* `Roomy`: What does is a line that is too long, with nothing to yield in front of it.

## Theorems

* `dueFrames_of_within`, `dueFrames_of_overlong`: What is due, by the lines there are.
* `dueFrames_eq_refusal_iff`: When nothing but a refusal is due.
* `dueFrames_append`: What is due goes on from the unfinished line, as the reader does.
* `readFrames_eq_iff`: When the reader yields what is due.
* `frames_whatever_chunks`: The same from the start of a connection.
* `boundary_line_refused`: A line of the greatest length, refused for its line feed.
-/

namespace Smbpal

open Lib

/-- `_READ_CHUNK`. -/
def readChunk : Nat := 65536

/-- What one `recv` can return while the connection is open. -/
structure Chunk where
  bytes : List UInt8
  some_byte : bytes ≠ []
  short : bytes.length ≤ readChunk

/-- A line feed. -/
def lineFeed : UInt8 := 10

/-- `not line.strip()`. -/
def isBlankLine (line : List UInt8) : Bool :=
  line.all fun b => decide (9 ≤ b.toNat ∧ b.toNat ≤ 13) || decide (b.toNat = 32)

/-- What a reader makes of a connection. -/
structure Frames where
  yielded : List (List UInt8)
  refused : Bool

/-- The lines that are yielded of some that have ended. -/
def visibleLines (lines : List (List UInt8)) : List (List UInt8) :=
  lines.filter fun line => !isBlankLine line

/-- The loop of `read_frames`, from a buffer on. -/
def readFrames (buffer : List UInt8) : List Chunk → Frames
  | [] => { yielded := [], refused := false }
  | chunk :: chunks =>
      let extended := buffer ++ chunk.bytes
      if maxFrameBytes < extended.length then { yielded := [], refused := true }
      else
        let cut := framed lineFeed extended
        let rest := readFrames cut.2 chunks
        { yielded := visibleLines cut.1 ++ rest.yielded, refused := rest.refused }

/-- The bytes that arrive. -/
def received (chunks : List Chunk) : List UInt8 :=
  chunks.flatMap Chunk.bytes

/-- A line within the limit `parse_request` accepts. -/
def isWithin (line : List UInt8) : Bool :=
  decide (line.length ≤ maxFrameBytes)

/-- What a stream calls for: its lines that are not blank, up to one that is too long,
    which is refused, even before it has ended. -/
def dueFrames (stream : List UInt8) : Frames :=
  let cut := framed lineFeed stream
  { yielded := visibleLines (cut.1.takeWhile isWithin)
    refused := cut.1.any (fun line => !isWithin line) || !isWithin cut.2 }

/-- The lines of a stream, the unfinished one among them. -/
def allLines (stream : List UInt8) : List (List UInt8) :=
  (framed lineFeed stream).1 ++ [(framed lineFeed stream).2]

/-- A stream starts with a line that is too long, after any number of blank ones. -/
def StartsOverlong (stream : List UInt8) : Prop :=
  ∃ blanks long after, allLines stream = blanks ++ long :: after ∧
    (∀ line ∈ blanks, isBlankLine line = true ∧ line.length ≤ maxFrameBytes) ∧
    maxFrameBytes < long.length

/-- A chunk takes the buffer past the limit, after the chunks before it. -/
def Overflows (before : List Chunk) (chunk : Chunk) : Prop :=
  maxFrameBytes < (framed lineFeed (received before)).2.length + chunk.bytes.length

/-- The first chunk that takes the buffer past the limit, if one does, is of a line that
    is too long, or of blank lines in front of one. -/
def Roomy (chunks : List Chunk) : Prop :=
  ∀ before chunk after, chunks = before ++ chunk :: after → Overflows before chunk →
    (∀ b c a, before = b ++ c :: a → ¬Overflows b c) →
      StartsOverlong ((framed lineFeed (received before)).2 ++ chunk.bytes ++ received after)

section Due

theorem isWithin_iff {line : List UInt8} : isWithin line = true ↔ line.length ≤ maxFrameBytes :=
  decide_eq_true_iff

theorem isWithin_eq_false_iff {line : List UInt8} :
    isWithin line = false ↔ maxFrameBytes < line.length := by
  unfold isWithin
  rw [decide_eq_false_iff_not, Nat.not_le]

/-- The lines up to one that is too long. -/
theorem takeWhile_isWithin {before : List (List UInt8)} {long : List UInt8}
    (hbefore : ∀ line ∈ before, line.length ≤ maxFrameBytes)
    (hlong : maxFrameBytes < long.length) (after : List (List UInt8)) :
    (before ++ long :: after).takeWhile isWithin = before := by
  have hnot : ¬isWithin long = true := by
    rw [isWithin_eq_false_iff.mpr hlong]
    exact Bool.false_ne_true
  rw [List.takeWhile_append_of_pos fun line hline => isWithin_iff.mpr (hbefore line hline),
    List.takeWhile_cons_of_neg hnot, List.append_nil]

/-- No line is too long: the lines, and no refusal but for the unfinished one. -/
theorem dueFrames_of_within {stream : List UInt8}
    (h : ∀ line ∈ (framed lineFeed stream).1, line.length ≤ maxFrameBytes) :
    dueFrames stream = { yielded := visibleLines (framed lineFeed stream).1
                         refused := !isWithin (framed lineFeed stream).2 } := by
  have hall : ∀ line ∈ (framed lineFeed stream).1, isWithin line = true := fun line hline =>
    isWithin_iff.mpr (h line hline)
  have hany : (framed lineFeed stream).1.any (fun line => !isWithin line) = false := by
    rw [List.any_eq_false]
    intro line hline
    rw [hall line hline]
    exact Bool.false_ne_true
  unfold dueFrames
  dsimp only
  rw [List.takeWhile_eq_self_iff.mpr hall, hany, Bool.false_or]

/-- A line is too long: the lines in front of it, and a refusal. -/
theorem dueFrames_of_overlong {stream long : List UInt8} {before after : List (List UInt8)}
    (hcut : (framed lineFeed stream).1 = before ++ long :: after)
    (hbefore : ∀ line ∈ before, line.length ≤ maxFrameBytes)
    (hlong : maxFrameBytes < long.length) :
    dueFrames stream = { yielded := visibleLines before, refused := true } := by
  unfold dueFrames
  dsimp only
  rw [hcut, takeWhile_isWithin hbefore hlong, List.any_append, List.any_cons,
    isWithin_eq_false_iff.mpr hlong, Bool.not_false, Bool.true_or, Bool.or_true, Bool.true_or]

theorem visibleLines_eq_nil_iff {lines : List (List UInt8)} :
    visibleLines lines = [] ↔ ∀ line ∈ lines, isBlankLine line = true := by
  unfold visibleLines
  simp only [List.filter_eq_nil_iff, Bool.not_eq_true', Bool.not_eq_false]

/-- Nothing to yield and a refusal is what a stream calls for that starts with a line
    that is too long. -/
theorem dueFrames_eq_refusal_iff (stream : List UInt8) :
    dueFrames stream = { yielded := [], refused := true } ↔ StartsOverlong stream := by
  constructor
  · intro h
    have hlines : (∀ line ∈ (framed lineFeed stream).1, line.length ≤ maxFrameBytes) ∨ _ :=
      all_or_first _
    rcases hlines with hall | ⟨before, long, after, hcut, hbefore, hlong⟩
    · rw [dueFrames_of_within hall, Frames.mk.injEq, visibleLines_eq_nil_iff] at h
      refine ⟨(framed lineFeed stream).1, (framed lineFeed stream).2, [], rfl,
        fun line hline => ⟨h.1 line hline, hall line hline⟩, ?_⟩
      exact isWithin_eq_false_iff.mp (Bool.not_eq_true' _ |>.mp h.2)
    · have hlong := Nat.lt_of_not_le hlong
      rw [dueFrames_of_overlong hcut hbefore hlong, Frames.mk.injEq,
        visibleLines_eq_nil_iff] at h
      refine ⟨before, long, after ++ [(framed lineFeed stream).2], ?_,
        fun line hline => ⟨h.1 line hline, hbefore line hline⟩, hlong⟩
      rw [allLines, hcut, List.append_assoc, List.cons_append]
  · rintro ⟨blanks, long, after, hlines, hblanks, hlong⟩
    have hquiet : visibleLines blanks = [] :=
      visibleLines_eq_nil_iff.mpr fun line hline => (hblanks line hline).1
    -- the line that is too long is the unfinished one, or has ended
    rcases List.eq_nil_or_concat after with rfl | ⟨ended, rest, rfl⟩
    · rcases List.append_inj' hlines rfl with ⟨hfirst, hlast⟩
      have hall : ∀ line ∈ (framed lineFeed stream).1, line.length ≤ maxFrameBytes :=
        hfirst ▸ fun line hline => (hblanks line hline).2
      have hrest : (framed lineFeed stream).2 = long := List.singleton_inj.mp hlast
      rw [dueFrames_of_within hall, hfirst, hquiet, hrest, isWithin_eq_false_iff.mpr hlong,
        Bool.not_false]
    · have hsplit : allLines stream = (blanks ++ long :: ended) ++ [rest] := by
        rw [hlines, List.concat_eq_append, List.append_assoc, List.cons_append]
      have hcut := (List.append_inj' hsplit rfl).1
      rw [dueFrames_of_overlong hcut (fun line hline => (hblanks line hline).2) hlong, hquiet]

end Due

section Reading

/-- The reader goes on from the unfinished line. -/
theorem readFrames_cons {buffer : List UInt8} {chunk : Chunk}
    (h : (buffer ++ chunk.bytes).length ≤ maxFrameBytes) (chunks : List Chunk) :
    readFrames buffer (chunk :: chunks) =
      { yielded := visibleLines (framed lineFeed (buffer ++ chunk.bytes)).1 ++
          (readFrames (framed lineFeed (buffer ++ chunk.bytes)).2 chunks).yielded
        refused := (readFrames (framed lineFeed (buffer ++ chunk.bytes)).2 chunks).refused } := by
  rw [readFrames]
  exact if_neg (Nat.not_lt.mpr h)

theorem readFrames_overflow {buffer : List UInt8} {chunk : Chunk}
    (h : maxFrameBytes < (buffer ++ chunk.bytes).length) (chunks : List Chunk) :
    readFrames buffer (chunk :: chunks) = { yielded := [], refused := true } := by
  rw [readFrames]
  exact if_pos h

/-- What is due goes on from the unfinished line. -/
theorem dueFrames_append {a : List UInt8} (h : a.length ≤ maxFrameBytes) (b : List UInt8) :
    dueFrames (a ++ b) =
      { yielded := visibleLines (framed lineFeed a).1 ++
          (dueFrames ((framed lineFeed a).2 ++ b)).yielded
        refused := (dueFrames ((framed lineFeed a).2 ++ b)).refused } := by
  have hall : ∀ line ∈ (framed lineFeed a).1, isWithin line = true := fun line hline =>
    isWithin_iff.mpr (Nat.le_of_lt (Nat.lt_of_lt_of_le (length_of_mem_framed hline) h))
  have hany : (framed lineFeed a).1.any (fun line => !isWithin line) = false := by
    rw [List.any_eq_false]
    intro line hline
    rw [hall line hline]
    exact Bool.false_ne_true
  unfold dueFrames
  dsimp only
  rw [framed_append]
  dsimp only
  rw [List.takeWhile_append_of_pos hall, List.any_append, hany, Bool.false_or, visibleLines,
    List.filter_append]
  rfl

/-- `Overflows`, from a buffer on. -/
def OverflowsFrom (buffer : List UInt8) (before : List Chunk) (chunk : Chunk) : Prop :=
  maxFrameBytes < (framed lineFeed (buffer ++ received before)).2.length + chunk.bytes.length

/-- `Roomy`, from a buffer on. -/
def RoomyFrom (buffer : List UInt8) (chunks : List Chunk) : Prop :=
  ∀ before chunk after, chunks = before ++ chunk :: after → OverflowsFrom buffer before chunk →
    (∀ b c a, before = b ++ c :: a → ¬OverflowsFrom buffer b c) →
      StartsOverlong
        ((framed lineFeed (buffer ++ received before)).2 ++ chunk.bytes ++ received after)

/-- The unfinished line after one more chunk. -/
theorem framed_received_cons (buffer : List UInt8) (chunk : Chunk) (chunks : List Chunk) :
    (framed lineFeed (buffer ++ received (chunk :: chunks))).2 =
      (framed lineFeed
        ((framed lineFeed (buffer ++ chunk.bytes)).2 ++ received chunks)).2 := by
  rw [received, List.flatMap_cons, ← List.append_assoc, framed_append]
  rfl

theorem overflowsFrom_cons (buffer : List UInt8) (first : Chunk) (before : List Chunk)
    (chunk : Chunk) :
    OverflowsFrom buffer (first :: before) chunk ↔
      OverflowsFrom (framed lineFeed (buffer ++ first.bytes)).2 before chunk := by
  unfold OverflowsFrom
  rw [framed_received_cons]

theorem overflowsFrom_nil {buffer : List UInt8} (h : lineFeed ∉ buffer) (chunk : Chunk) :
    OverflowsFrom buffer [] chunk ↔ maxFrameBytes < (buffer ++ chunk.bytes).length := by
  unfold OverflowsFrom received
  rw [List.flatMap_nil, List.append_nil, framed_of_not_mem h, List.length_append]

/-- The first chunk takes the buffer past the limit. -/
theorem roomyFrom_overflow {buffer : List UInt8} {chunk : Chunk} (h : lineFeed ∉ buffer)
    (hover : maxFrameBytes < (buffer ++ chunk.bytes).length) (chunks : List Chunk) :
    RoomyFrom buffer (chunk :: chunks) ↔
      StartsOverlong (buffer ++ chunk.bytes ++ received chunks) := by
  have hfirst := (overflowsFrom_nil h chunk).mpr hover
  constructor
  · intro hroomy
    have hstart := hroomy [] chunk chunks rfl hfirst fun b c a hsplit =>
      absurd (List.append_eq_nil_iff.mp hsplit.symm).2 (List.cons_ne_nil c a)
    rw [received, List.flatMap_nil, List.append_nil, framed_of_not_mem h] at hstart
    exact hstart
  · intro hstart before c after hsplit hc hnone
    cases before with
    | nil =>
        rcases List.cons.inj hsplit with ⟨rfl, rfl⟩
        rw [received, List.flatMap_nil, List.append_nil, framed_of_not_mem h]
        exact hstart
    | cons first before =>
        rcases List.cons.inj hsplit with ⟨rfl, -⟩
        exact absurd hfirst (hnone [] chunk before rfl)

/-- The first chunk does not. -/
theorem roomyFrom_cons {buffer : List UInt8} {chunk : Chunk} (h : lineFeed ∉ buffer)
    (hroom : (buffer ++ chunk.bytes).length ≤ maxFrameBytes) (chunks : List Chunk) :
    RoomyFrom buffer (chunk :: chunks) ↔
      RoomyFrom (framed lineFeed (buffer ++ chunk.bytes)).2 chunks := by
  -- The first chunk does not overflow, whatever comes behind it.
  have hfirst : ¬OverflowsFrom buffer [] chunk := fun hover =>
    Nat.not_lt.mpr hroom ((overflowsFrom_nil h chunk).mp hover)
  constructor
  · intro hroomy before c after hsplit hc hnone
    have hstart := hroomy (chunk :: before) c after (by rw [hsplit, List.cons_append])
      -- No chunk before it overflows either: neither the first nor those of the rest.
      ((overflowsFrom_cons buffer chunk before c).mpr hc) fun b d a hb => by
        cases b with
        | nil =>
            rcases List.cons.inj hb with ⟨rfl, -⟩
            exact hfirst
        | cons first b =>
            rcases List.cons.inj hb with ⟨rfl, htail⟩
            exact fun hover => hnone b d a htail ((overflowsFrom_cons buffer chunk b d).mp hover)
    rw [framed_received_cons] at hstart
    exact hstart
  · intro hroomy before c after hsplit hc hnone
    cases before with
    | nil =>
        rcases List.cons.inj hsplit with ⟨rfl, -⟩
        exact absurd hc hfirst
    | cons first before =>
        rcases List.cons.inj hsplit with ⟨rfl, htail⟩
        rw [framed_received_cons]
        exact hroomy before c after htail ((overflowsFrom_cons buffer chunk before c).mp hc)
          fun b d a hb hover => hnone (chunk :: b) d a (by rw [hb, List.cons_append])
            ((overflowsFrom_cons buffer chunk b d).mpr hover)

/-- When the reader yields what is due, from a buffer on. -/
theorem readFrames_eq_iff {buffer : List UInt8} (hopen : lineFeed ∉ buffer)
    (hbuffer : buffer.length ≤ maxFrameBytes) (chunks : List Chunk) :
    readFrames buffer chunks = dueFrames (buffer ++ received chunks) ↔
      RoomyFrom buffer chunks := by
  induction chunks generalizing buffer with
  | nil =>
      have hdue : dueFrames (buffer ++ received []) = { yielded := [], refused := false } := by
        rw [received, List.flatMap_nil, List.append_nil, dueFrames, framed_of_not_mem hopen]
        dsimp only
        rw [isWithin_iff.mpr hbuffer]
        rfl
      refine iff_of_true ?_ fun before chunk after hsplit => ?_
      · rw [hdue, readFrames]
      · exact absurd (List.append_eq_nil_iff.mp hsplit.symm).2 (List.cons_ne_nil chunk after)
  | cons chunk chunks ih =>
      have hstream : buffer ++ received (chunk :: chunks) =
          buffer ++ chunk.bytes ++ received chunks := by
        rw [received, List.flatMap_cons, ← List.append_assoc]
        rfl
      rw [hstream]
      by_cases hroom : (buffer ++ chunk.bytes).length ≤ maxFrameBytes
      · -- the lines of this chunk are yielded and due alike, and the rest decides
        have hrest : (framed lineFeed (buffer ++ chunk.bytes)).2.length ≤ maxFrameBytes :=
          Nat.le_trans (length_framed_le lineFeed _) hroom
        rw [roomyFrom_cons hopen hroom, ← ih (not_mem_framed lineFeed _) hrest,
          readFrames_cons hroom, dueFrames_append hroom, Frames.mk.injEq,
          List.append_cancel_left_eq, ← Frames.mk.injEq]
      · have hover := Nat.lt_of_not_le hroom
        rw [roomyFrom_overflow hopen hover, readFrames_overflow hover, eq_comm,
          dueFrames_eq_refusal_iff]

end Reading

/-- The reader of a connection yields what the stream calls for, however it is cut into
    chunks, just when no chunk takes the buffer past the limit before a line has. -/
theorem frames_whatever_chunks (chunks : List Chunk) :
    readFrames [] chunks = dueFrames (received chunks) ↔ Roomy chunks := by
  have h := readFrames_eq_iff List.not_mem_nil (Nat.zero_le maxFrameBytes) chunks
  rw [List.nil_append] at h
  exact h

section Boundary

/-- A chunk as long as `recv` returns one, all of it inside a line. -/
def fullChunk : Chunk where
  bytes := List.replicate readChunk 97
  some_byte := by
    rw [ne_eq, List.replicate_eq_nil_iff]
    decide
  short := Nat.le_of_eq List.length_replicate

/-- The end of a line. -/
def endChunk : Chunk where
  bytes := [lineFeed]
  some_byte := List.cons_ne_nil _ _
  short := by decide

theorem lineFeed_not_mem_replicate (n : Nat) : lineFeed ∉ List.replicate n (97 : UInt8) := by
  intro h
  exact absurd (List.eq_of_mem_replicate h) (by decide)

/-- Full chunks of one line are kept. -/
theorem readFrames_full {n k : Nat} (h : n + k * readChunk ≤ maxFrameBytes)
    (chunks : List Chunk) :
    readFrames (List.replicate n 97) (List.replicate k fullChunk ++ chunks) =
      readFrames (List.replicate (n + k * readChunk) 97) chunks := by
  induction k generalizing n with
  | zero => rw [List.replicate_zero, List.nil_append, Nat.zero_mul, Nat.add_zero]
  | succ k ih =>
      have hnext : n + readChunk + k * readChunk = n + (k + 1) * readChunk := by
        rw [Nat.succ_mul]
        omega
      have hbytes : List.replicate n (97 : UInt8) ++ fullChunk.bytes =
          List.replicate (n + readChunk) 97 := List.replicate_append_replicate
      have hroom : (List.replicate n (97 : UInt8) ++ fullChunk.bytes).length ≤ maxFrameBytes := by
        rw [hbytes, List.length_replicate]
        omega
      rw [List.replicate_succ, List.cons_append, readFrames_cons hroom, hbytes,
        framed_of_not_mem (lineFeed_not_mem_replicate _), ih (by omega), hnext]
      rfl

theorem received_full (k : Nat) :
    received (List.replicate k fullChunk) = List.replicate (k * readChunk) 97 := by
  induction k with
  | zero => rw [Nat.zero_mul, List.replicate_zero, List.replicate_zero, received, List.flatMap_nil]
  | succ k ih =>
      have hnext : readChunk + k * readChunk = (k + 1) * readChunk := by
        rw [Nat.succ_mul]
        omega
      rw [received] at ih
      rw [List.replicate_succ, received, List.flatMap_cons, ih, ← hnext]
      exact List.replicate_append_replicate

/-- A line as long as `parse_request` accepts one, in the chunks `recv` makes of it. -/
def boundaryChunks : List Chunk :=
  List.replicate 16 fullChunk ++ [endChunk]

/-- That line is within the limit, and the reader gives up on it. -/
theorem boundary_line_refused :
    received boundaryChunks = List.replicate maxFrameBytes 97 ++ [lineFeed] ∧
      dueFrames (received boundaryChunks) =
        { yielded := [List.replicate maxFrameBytes 97], refused := false } ∧
      readFrames [] boundaryChunks = { yielded := [], refused := true } := by
  have hsize : 16 * readChunk = maxFrameBytes := by decide
  have hstream : received boundaryChunks = List.replicate maxFrameBytes 97 ++ [lineFeed] := by
    have hfull := received_full 16
    rw [hsize] at hfull
    rw [received] at hfull
    rw [boundaryChunks, received, List.flatMap_append, hfull]
    rfl
  refine ⟨hstream, ?_, ?_⟩
  · -- As one stream the line is as long as a frame may be.
    have hcut := framed_piece (lineFeed_not_mem_replicate maxFrameBytes) []
    have hwithin : ∀ line ∈ (framed lineFeed (received boundaryChunks)).1,
        line.length ≤ maxFrameBytes := by
      rw [hstream, hcut]
      intro line hline
      rw [List.mem_singleton.mp hline, List.length_replicate]
    have hblank : isBlankLine (List.replicate maxFrameBytes 97) = false := by
      rw [isBlankLine, List.all_replicate]
      rfl
    rw [dueFrames_of_within hwithin, hstream, hcut]
    dsimp only
    rw [framed, visibleLines, List.filter_cons, hblank]
    rfl
  · -- The last chunk brings one byte too many before the line feed is seen.
    have hread := readFrames_full (n := 0) (k := 16) (Nat.le_of_eq (by decide)) [endChunk]
    rw [Nat.zero_add, hsize] at hread
    have hover : maxFrameBytes <
        (List.replicate maxFrameBytes (97 : UInt8) ++ endChunk.bytes).length := by
      rw [List.length_append, List.length_replicate]
      exact Nat.lt_succ_self _
    rw [boundaryChunks]
    exact hread.trans (readFrames_overflow hover [])

end Boundary

end Smbpal
