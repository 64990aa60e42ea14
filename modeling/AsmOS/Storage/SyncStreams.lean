import AsmOS.Base.Loops
import AsmOS.Storage.ChunkStream

/-
  The synchronous calls of chunked file streams
  (`src/streaming.c`).

  Their loops run while bytes remain.  The step that serves
  the last chunk marks the request as done and leaves its
  length, so a loop that is entered is never left.

  Main declarations:
    * `ChunkIo`, `advanceChunkIo`
    * `streamReadSync`, `streamWriteSync`
    * `syncStreams_return_iff`
-/

------------------------------------------------------------
-- Steps Over Any Primitives
------------------------------------------------------------

namespace AsmOS

namespace Storage

open ByteMem Loops

variable {σ : Type}

/-
  `plat_fs_read` and `plat_fs_write` on a path, a buffer and
  a size.  Only their effect is left to a step, which does
  not look at their results.
-/
structure ChunkIo (σ : Type) where
  read : List UInt8 → Nat → Nat → σ → σ
  write : List UInt8 → Nat → Nat → σ → σ

/- One call of a primitive for `n` bytes at the buffer. -/
def ChunkIo.transfer
    (io : ChunkIo σ)
    (s : StreamPipeline)
    (buffer : Option Nat)
    (n : Nat)
    (st : σ) : σ :=
  match buffer with
  | none => st
  | some p =>
      if s.forWrite then io.write s.path p n st
      else io.read s.path p n st

/- `advance_chunk`, whatever the primitives do. -/
def advanceChunkIo
    (io : ChunkIo σ)
    (s : StreamPipeline)
    (req : StreamRequest)
    (st : σ) : Bool × StreamRequest × σ :=
  if req.length ≤ chunkSize then
    (false, { req with done := true, error := 0 },
      io.transfer s req.buffer req.length st)
  else
    (true,
      { req with
        offset := (req.offset + chunkSize) % 2 ^ 32
        length := req.length - chunkSize
        buffer := req.buffer.map fun p => p + chunkSize },
      io.transfer s req.buffer chunkSize st)

/- The effect of file primitives on the files and memory. -/
def PlatFs.chunkIo
    (fs : PlatFs σ) : ChunkIo (σ × ByteMem) where
  read := fun path p n st =>
    match fs.read st.1 path n with
    | none => st
    | some got =>
        (st.1, st.2.storeBlock p got.length (ofList got))
  write := fun path p n st =>
    ((fs.write st.1 path (st.2.slice p n)).2, st.2)

/- The step over the file primitives is one of these. -/
theorem advanceChunk_eq_io
    (fs : PlatFs σ)
    (s : StreamPipeline)
    (req : StreamRequest)
    (st : σ × ByteMem) :
    advanceChunk fs s req st =
      advanceChunkIo fs.chunkIo s req st := by
  have hTransfer :
      ∀ n,
        Storage.transfer fs s req.buffer n st =
          fs.chunkIo.transfer s req.buffer n st := by
    intro n
    unfold Storage.transfer ChunkIo.transfer
    cases req.buffer with
    | none => rfl
    | some p => rfl
  unfold advanceChunk advanceChunkIo
  rw [hTransfer, hTransfer]

------------------------------------------------------------
-- Synchronous Calls
------------------------------------------------------------

/- The test of the loops. -/
def syncMore
    (x : StreamRequest × σ) : Bool :=
  decide (0 < x.1.length) && decide (x.1.error = 0)

/- The body of the loops. -/
def syncStep
    (io : ChunkIo σ)
    (s : StreamPipeline)
    (x : StreamRequest × σ) : StreamRequest × σ :=
  (advanceChunkIo io s x.1 x.2).2

/-
  A request in the first slot is served until its loop is
  left.  There is no result when it is not left within
  `tests` tests.
-/
def streamSync
    (io : ChunkIo σ)
    (tests : Nat)
    (op : StreamOp)
    (s : StreamPipeline)
    (offset length : UInt32)
    (buffer : Option Nat)
    (st : σ) : Option (Int × StreamPipeline × σ) :=
  match buffer with
  | none => some (-1, s, st)
  | some p =>
      let r : StreamRequest :=
        ⟨op, offset.toNat, length.toNat, some p, false, 0⟩
      (whileLoop syncMore (syncStep io s) tests (r, st)).map
        fun x =>
          (x.1.error, { s with queue := s.queue.set 0 x.1 },
            x.2)

/- `stream_read_sync`. -/
def streamReadSync
    (io : ChunkIo σ)
    (tests : Nat)
    (s : StreamPipeline)
    (offset length : UInt32)
    (buffer : Option Nat)
    (st : σ) : Option (Int × StreamPipeline × σ) :=
  streamSync io tests .read s offset length buffer st

/- `stream_write_sync`. -/
def streamWriteSync
    (io : ChunkIo σ)
    (tests : Nat)
    (s : StreamPipeline)
    (offset length : UInt32)
    (buffer : Option Nat)
    (st : σ) : Option (Int × StreamPipeline × σ) :=
  streamSync io tests .write s offset length buffer st

/- One call of the step for each chunk, and one more. -/
def syncCalls
    (length : UInt32) : Nat :=
  (length.toNat + (chunkSize - 1)) / chunkSize + 1

------------------------------------------------------------
-- When The Calls Return
------------------------------------------------------------

/- A request that keeps its loop running. -/
structure Unserved
    (r : StreamRequest) : Prop where
  length_pos : 0 < r.length
  no_error : r.error = 0

section Returns

variable {io : ChunkIo σ} {s : StreamPipeline}

theorem Unserved.more
    {x : StreamRequest × σ}
    (hUnserved : Unserved x.1) :
    syncMore x = true := by
  unfold syncMore
  rw [decide_eq_true hUnserved.length_pos,
    decide_eq_true hUnserved.no_error]
  rfl

/- A step leaves bytes to serve: the last chunk stays. -/
theorem Unserved.step
    {x : StreamRequest × σ}
    (hUnserved : Unserved x.1) :
    Unserved (syncStep io s x).1 := by
  unfold syncStep advanceChunkIo
  by_cases hLast : x.1.length ≤ chunkSize
  · rw [if_pos hLast]
    exact ⟨hUnserved.length_pos, rfl⟩
  · rw [if_neg hLast]
    exact ⟨Nat.sub_pos_of_lt (Nat.lt_of_not_le hLast),
      hUnserved.no_error⟩

theorem syncLoop_never
    {r : StreamRequest}
    (hUnserved : Unserved r)
    (tests : Nat)
    (st : σ) :
    whileLoop syncMore (syncStep io s) tests (r, st) = none :=
  whileLoop_never (fun x : StreamRequest × σ => Unserved x.1)
    (fun _ hMore => hMore.more)
    (fun _ hMore => hMore.step) hUnserved tests

/- A request without bytes is left as it was made. -/
theorem streamSync_empty
    (tests : Nat)
    (op : StreamOp)
    (offset : UInt32)
    (p : Nat)
    (st : σ) :
    streamSync io (tests + 1) op s offset 0 (some p) st =
      some
        (0,
          { s with
            queue :=
              s.queue.set 0
                ⟨op, offset.toNat, 0, some p, false, 0⟩ },
          st) := by
  have hTest :
      syncMore
          ((⟨op, offset.toNat, 0, some p, false, 0⟩ :
            StreamRequest), st) = false :=
    rfl
  unfold streamSync
  simp only [UInt32.toNat_zero, whileLoop_of_not hTest,
    Option.map_some]

theorem streamSync_never
    {length : UInt32}
    (hSome : length ≠ 0)
    (tests : Nat)
    (op : StreamOp)
    (offset : UInt32)
    (p : Nat)
    (st : σ) :
    streamSync io tests op s offset length (some p) st =
      none := by
  have hPos : 0 < length.toNat :=
    Nat.pos_of_ne_zero fun hZero =>
      hSome (UInt32.toNat_inj.mp hZero)
  unfold streamSync
  dsimp only
  rw [syncLoop_never ⟨hPos, rfl⟩, Option.map_none]

/- With any test of the loop that is enough for no bytes. -/
theorem streamSync_isSome_iff
    (tests : Nat)
    (op : StreamOp)
    (offset length : UInt32)
    (p : Nat)
    (st : σ) :
    (streamSync io (tests + 1) op s offset length (some p)
        st).isSome = true ↔
      length = 0 := by
  constructor
  · intro hReturns
    by_contra hSome
    rw [streamSync_never hSome] at hReturns
    exact Bool.false_ne_true hReturns
  · rintro rfl
    rw [streamSync_empty]
    rfl

end Returns

/-
  Both calls return within the number of steps exactly when
  they are asked for no bytes, and never otherwise.
-/
theorem syncStreams_return_iff
    (io : ChunkIo σ)
    (s : StreamPipeline)
    (offset length : UInt32)
    (p : Nat)
    (st : σ) :
    (((streamReadSync io (syncCalls length + 1) s offset length
          (some p) st).isSome = true ∧
        (streamWriteSync io (syncCalls length + 1) s offset
          length (some p) st).isSome = true) ↔
      length = 0) ∧
    (length ≠ 0 →
      ∀ tests,
        streamReadSync io tests s offset length (some p) st =
            none ∧
          streamWriteSync io tests s offset length (some p) st =
            none) := by
  refine ⟨?_, fun hSome tests => ?_⟩
  · unfold streamReadSync streamWriteSync
    rw [streamSync_isSome_iff, streamSync_isSome_iff]
    exact and_self_iff
  · exact ⟨streamSync_never hSome tests .read offset p st,
      streamSync_never hSome tests .write offset p st⟩

/- The loop of a read of one byte is never left. -/
theorem not_syncStreams_return :
    ¬ ∀ (io : ChunkIo Unit) (s : StreamPipeline)
        (offset length : UInt32) (p : Nat),
      (streamReadSync io (syncCalls length + 1) s offset length
        (some p) ()).isSome = true := by
  intro hAlways
  have hReturns :=
    hAlways ⟨fun _ _ _ _ => (), fun _ _ _ _ => ()⟩
      (streamOpen [0x41] false) 0 1 0
  have hNone : (1 : UInt32) = 0 :=
    (streamSync_isSome_iff _ .read 0 1 0 ()).mp hReturns
  exact absurd hNone (by decide)

end Storage

end AsmOS
