import AsmOS.Base.ByteMem
import AsmOS.Storage.PlatFiles

/-
  Chunked file streams (`src/streaming.c`): a request is
  served in steps of 4096 bytes, each through the file
  primitives of the platform.

  The primitives start at the first byte of the file, so
  every step of a read delivers the start of the file again,
  and every step of a write replaces the one before.

  Main declarations:
    * `StreamRequest`, `StreamPipeline`
    * `streamOpen`, `streamReadAsync`, `streamWriteAsync`
    * `advanceChunk`, `streamPoll`, `streamWait`
    * `streamed`, `streamWait_eq`
    * `chunked_transfer_iff`
-/

------------------------------------------------------------
-- Pipelines
------------------------------------------------------------

namespace AsmOS

namespace Storage

open ByteMem

/- `STREAMING_CHUNK_SIZE` and `STREAMING_QUEUE_DEPTH`. -/
@[simp] abbrev chunkSize : Nat := 4096
@[simp] abbrev queueDepth : Nat := 8

/- `stream_op_t`. -/
inductive StreamOp where
| read
| write
deriving DecidableEq, Repr

/- `stream_request_t`; the buffer is an address or null. -/
structure StreamRequest where
  op : StreamOp
  offset : Nat
  length : Nat
  buffer : Option Nat
  done : Bool
  error : Int

/- `struct stream_pipeline`. -/
structure StreamPipeline where
  path : List UInt8
  forWrite : Bool
  queue : List StreamRequest
  queueHead : Nat
  queueTail : Nat
  activeBuf : Nat

/-
  `stream_open` when the allocation succeeds; the path is
  cut at 127 characters.
-/
def streamOpen
    (path : List UInt8)
    (forWrite : Bool) : StreamPipeline where
  path := path.take 127
  forWrite := forWrite
  queue :=
    List.replicate queueDepth
      ⟨.read, 0, 0, none, true, 0⟩
  queueHead := 0
  queueTail := 0
  activeBuf := 0

/- Put a request at the tail of the queue. -/
def enqueue
    (s : StreamPipeline)
    (op : StreamOp)
    (offset length : UInt32)
    (buffer : Option Nat) : Int × StreamPipeline :=
  match buffer with
  | none => (-1, s)
  | some p =>
      if s.queueTail ≥ queueDepth then
        (-2, s)
      else
        (0, { s with
          queue :=
            s.queue.set s.queueTail
              ⟨op, offset.toNat, length.toNat, some p, false,
                0⟩
          queueTail := s.queueTail + 1 })

/- `stream_read_async`. -/
def streamReadAsync
    (s : StreamPipeline)
    (offset length : UInt32)
    (buffer : Option Nat) : Int × StreamPipeline :=
  enqueue s .read offset length buffer

/- `stream_write_async`. -/
def streamWriteAsync
    (s : StreamPipeline)
    (offset length : UInt32)
    (buffer : Option Nat) : Int × StreamPipeline :=
  enqueue s .write offset length buffer

------------------------------------------------------------
-- Serving Requests
------------------------------------------------------------

variable {σ : Type}

/-
  One call of a primitive for `n` bytes at the buffer, on the
  files and the memory.  The direction is the pipeline's, and
  the results of the call are not looked at.
-/
def transfer
    (fs : PlatFs σ)
    (s : StreamPipeline)
    (buffer : Option Nat)
    (n : Nat)
    (st : σ × ByteMem) : σ × ByteMem :=
  match buffer with
  | none => st
  | some p =>
      if s.forWrite then
        ((fs.write st.1 s.path (st.2.slice p n)).2, st.2)
      else
        match fs.read st.1 s.path n with
        | none => st
        | some got =>
            (st.1, st.2.storeBlock p got.length (ofList got))

/- `advance_chunk`. -/
def advanceChunk
    (fs : PlatFs σ)
    (s : StreamPipeline)
    (req : StreamRequest)
    (st : σ × ByteMem) :
    Bool × StreamRequest × (σ × ByteMem) :=
  if req.length ≤ chunkSize then
    (false, { req with done := true, error := 0 },
      transfer fs s req.buffer req.length st)
  else
    (true,
      { req with
        offset := (req.offset + chunkSize) % 2 ^ 32
        length := req.length - chunkSize
        buffer := req.buffer.map fun p => p + chunkSize },
      transfer fs s req.buffer chunkSize st)

/- The loop of `stream_poll` over the queued requests. -/
def pollRequests
    (fs : PlatFs σ)
    (s : StreamPipeline) :
    List StreamRequest → σ × ByteMem →
      Bool × List StreamRequest × (σ × ByteMem)
| [], st => (false, [], st)
| r :: rs, st =>
    if r.done then
      match pollRequests fs s rs st with
      | (progress, rs, st) => (progress, r :: rs, st)
    else
      match advanceChunk fs s r st with
      | (more, r, st) =>
          match pollRequests fs s rs st with
          | (progress, rs, st) =>
              (more || progress, r :: rs, st)

/- `stream_poll`. -/
def streamPoll
    (fs : PlatFs σ)
    (s : StreamPipeline)
    (st : σ × ByteMem) :
    Bool × StreamPipeline × (σ × ByteMem) :=
  match pollRequests fs s (s.queue.take s.queueTail) st with
  | (progress, rs, st) =>
      (progress,
        { s with queue := rs ++ s.queue.drop s.queueTail }, st)

/-
  `stream_wait` on the request of a slot.  It returns nothing
  when the request is not done after `fuel` polls.
-/
def streamWait
    (fs : PlatFs σ)
    (slot : Nat) :
    Nat → StreamPipeline → σ × ByteMem →
      Option (StreamPipeline × (σ × ByteMem))
| 0, _, _ => none
| fuel + 1, s, st =>
    if s.queue[slot]?.all fun r => r.done then
      some (s, st)
    else
      match streamPoll fs s st with
      | (_, s, st) => streamWait fs slot fuel s st

------------------------------------------------------------
-- One Request
------------------------------------------------------------

/- A pipeline whose requests are done, with room for one. -/
structure StreamPipeline.Idle
    (s : StreamPipeline) : Prop where
  depth : s.queue.length = 8
  room : s.queueTail < 8
  done : ∀ r ∈ s.queue.take s.queueTail, r.done = true

theorem streamOpen_idle
    (path : List UInt8)
    (forWrite : Bool) :
    (streamOpen path forWrite).Idle :=
  ⟨rfl, Nat.succ_pos 7, fun r hMember => by cases hMember⟩

/- The pipeline with `r` as its last request. -/
def StreamPipeline.withLast
    (s : StreamPipeline)
    (r : StreamRequest) : StreamPipeline :=
  { s with
    queue :=
      s.queue.take s.queueTail ++
        r :: s.queue.drop (s.queueTail + 1)
    queueTail := s.queueTail + 1 }

section Request

variable {fs : PlatFs σ}
variable {s : StreamPipeline}
variable {r : StreamRequest}
variable {st : σ × ByteMem}

theorem StreamPipeline.Idle.enqueue
    (hIdle : s.Idle)
    (op : StreamOp)
    (offset length : UInt32)
    (p : Nat) :
    Storage.enqueue s op offset length (some p) =
      (0,
        s.withLast
          ⟨op, offset.toNat, length.toNat, some p, false,
            0⟩) := by
  have hRoom := hIdle.room
  have hDepth := hIdle.depth
  simp only [Storage.enqueue, StreamPipeline.withLast]
  rw [if_neg (by simp only [queueDepth]; omega),
    List.set_eq_take_append_cons_drop, if_pos (by omega)]

/- Requests that are done are passed over. -/
theorem pollRequests_skip
    {qs : List StreamRequest}
    (hDone : ∀ q ∈ qs, q.done = true)
    (rs : List StreamRequest) :
    pollRequests fs s (qs ++ rs) st =
      ((pollRequests fs s rs st).1,
        qs ++ (pollRequests fs s rs st).2.1,
        (pollRequests fs s rs st).2.2) := by
  induction qs with
  | nil => rfl
  | cons q qs ih =>
      have hFirst := hDone q List.mem_cons_self
      have hRest := ih fun q' hMember =>
        hDone q' (List.mem_cons_of_mem _ hMember)
      simp only [List.cons_append, pollRequests, hFirst,
        if_true, hRest]

/- A poll advances the one request that is not done. -/
theorem streamPoll_withLast
    (hIdle : s.Idle)
    (hPending : r.done = false) :
    streamPoll fs (s.withLast r) st =
      ((advanceChunk fs s r st).1,
        s.withLast (advanceChunk fs s r st).2.1,
        (advanceChunk fs s r st).2.2) := by
  have hRoom := hIdle.room
  have hDepth := hIdle.depth
  have hBefore :
      (s.queue.take s.queueTail).length = s.queueTail := by
    rw [List.length_take]
    omega
  have hTake :
      (s.withLast r).queue.take (s.withLast r).queueTail =
        s.queue.take s.queueTail ++ [r] := by
    simp only [StreamPipeline.withLast]
    rw [List.take_append, hBefore, Nat.add_sub_cancel_left,
      List.take_of_length_le (by omega)]
    rfl
  have hDrop :
      (s.withLast r).queue.drop (s.withLast r).queueTail =
        s.queue.drop (s.queueTail + 1) := by
    simp only [StreamPipeline.withLast]
    rw [List.drop_append, hBefore, Nat.add_sub_cancel_left,
      List.drop_of_length_le (by omega)]
    rfl
  rw [streamPoll, hTake, hDrop, pollRequests_skip hIdle.done]
  simp only [pollRequests, hPending, Bool.or_false]
  simp only [StreamPipeline.withLast, List.append_assoc]
  rfl

/- The request of the last slot, once it is pending. -/
theorem withLast_done
    (hIdle : s.Idle) :
    ((s.withLast r).queue[s.queueTail]?.all fun q => q.done) =
      r.done := by
  have hRoom := hIdle.room
  have hDepth := hIdle.depth
  have hBefore :
      (s.queue.take s.queueTail).length = s.queueTail := by
    rw [List.length_take]
    omega
  simp only [StreamPipeline.withLast]
  rw [List.getElem?_append_right (by omega), hBefore,
    Nat.sub_self]
  rfl

end Request

------------------------------------------------------------
-- Whole Requests
------------------------------------------------------------

/-
  `n` whole chunks and a last one, of `len` bytes together,
  through the primitives.
-/
def streamed
    (fs : PlatFs σ)
    (s : StreamPipeline) :
    Nat → Nat → Nat → σ × ByteMem → σ × ByteMem
| 0, p, len, st => transfer fs s (some p) len st
| n + 1, p, len, st =>
    streamed fs s n (p + 4096) (len - 4096)
      (transfer fs s (some p) 4096 st)

section Whole

variable {fs : PlatFs σ}
variable {s : StreamPipeline}

/- Polling serves the chunks one after another. -/
theorem streamWait_eq
    (hIdle : s.Idle)
    (n : Nat)
    {r : StreamRequest}
    (hPending : r.done = false)
    {p : Nat}
    (hBuffer : r.buffer = some p)
    (hLast : r.length ≤ 4096 * (n + 1))
    (hFirst : n = 0 ∨ 4096 * n < r.length)
    (st : σ × ByteMem) :
    ∃ s',
      streamWait fs s.queueTail (n + 2) (s.withLast r) st =
        some (s', streamed fs s n p r.length st) := by
  induction n generalizing r p st with
  | zero =>
      have hShort : r.length ≤ 4096 := by omega
      rw [streamWait, withLast_done hIdle, hPending]
      simp only [Bool.false_eq_true, if_false]
      rw [streamPoll_withLast hIdle hPending]
      simp only [advanceChunk, chunkSize, if_pos hShort]
      rw [streamWait, withLast_done hIdle]
      simp only [if_true]
      exact ⟨_, by rw [hBuffer]; rfl⟩
  | succ n ih =>
      have hLong : ¬ r.length ≤ 4096 := by omega
      rw [streamWait, withLast_done hIdle, hPending]
      simp only [Bool.false_eq_true, if_false]
      rw [streamPoll_withLast hIdle hPending]
      simp only [advanceChunk, chunkSize, if_neg hLong]
      have hMove :
          (r.buffer.map fun q => q + 4096) =
            some (p + 4096) := by
        rw [hBuffer]
        rfl
      have hPending' :
          ({ r with
              offset := (r.offset + 4096) % 2 ^ 32
              length := r.length - 4096
              buffer := r.buffer.map fun q => q + 4096 } :
            StreamRequest).done = false :=
        hPending
      rcases ih hPending' hMove (by dsimp only; omega)
          (by dsimp only; omega)
          (transfer fs s r.buffer 4096 st) with
        ⟨s', hRest⟩
      refine ⟨s', ?_⟩
      rw [hRest, hBuffer]
      rfl

/- A write pipeline never stores to the memory. -/
theorem streamed_write_mem
    (hWrite : s.forWrite = true)
    (n p len : Nat)
    (st : σ × ByteMem) :
    (streamed fs s n p len st).2 = st.2 := by
  induction n generalizing p len st with
  | zero => simp [streamed, transfer, hWrite]
  | succ n ih => rw [streamed, ih]; simp [transfer, hWrite]

/- A read pipeline never changes the files. -/
theorem streamed_read_files
    (hRead : s.forWrite = false)
    (n p len : Nat)
    (st : σ × ByteMem) :
    (streamed fs s n p len st).1 = st.1 := by
  have hStep :
      ∀ (q k : Nat) (st : σ × ByteMem),
        (transfer fs s (some q) k st).1 = st.1 := by
    intro q k st
    simp only [transfer, hRead, Bool.false_eq_true, if_false]
    cases fs.read st.1 s.path k <;> rfl
  induction n generalizing p len st with
  | zero => exact hStep p len st
  | succ n ih => rw [streamed, ih, hStep]

/- The file ends up as the last chunk. -/
theorem streamed_write_files
    (hTotal : fs.Total)
    (hWrite : s.forWrite = true)
    (n p len : Nat)
    (st : σ × ByteMem) :
    fs.files (streamed fs s n p len st).1 s.path =
      some (st.2.slice (p + 4096 * n) (len - 4096 * n)) := by
  induction n generalizing p len st with
  | zero =>
      simp only [streamed, transfer, hWrite, if_true]
      exact PlatFs.files_write_self (hTotal _ _ _)
  | succ n ih =>
      have hMem :
          (transfer fs s (some p) 4096 st).2 = st.2 := by
        simp [transfer, hWrite]
      rw [streamed, ih, hMem, Nat.mul_succ, Nat.sub_sub,
        Nat.add_assoc, Nat.add_comm 4096 (4096 * n)]

/- One step of a read copies the start of the file. -/
theorem transfer_read
    (hRead : s.forWrite = false)
    {data : List UInt8}
    {files : σ}
    (hFile : fs.files files s.path = some data)
    (p k : Nat)
    (mem : ByteMem) :
    transfer fs s (some p) k (files, mem) =
      (files,
        mem.storeBlock p (min k data.length)
          (ofList (data.take k))) := by
  simp only [transfer, hRead, Bool.false_eq_true, if_false,
    fs.read_file files s.path data k hFile, List.length_take]

/- A byte of the buffer after such a step. -/
theorem storeBlock_take
    (data : List UInt8)
    (p k : Nat)
    (mem : ByteMem)
    (x : Nat) :
    mem.storeBlock p (min k data.length) (ofList (data.take k))
        x =
      if p ≤ x ∧ x < p + k ∧ x - p < data.length then
        data.getD (x - p) 0
      else
        mem x := by
  by_cases hIn : p ≤ x ∧ x < p + k ∧ x - p < data.length
  · rw [if_pos hIn, storeBlock_inside hIn.1 (by omega), ofList,
      List.getD_eq_getElem?_getD, List.getD_eq_getElem?_getD,
      List.getElem?_take_of_lt (by omega)]
  · rw [if_neg hIn, storeBlock_outside (by omega)]

/- Every chunk of the buffer holds the start of the file. -/
theorem streamed_read_mem
    (hRead : s.forWrite = false)
    {data : List UInt8}
    {files : σ}
    (hFile : fs.files files s.path = some data)
    (n p len : Nat)
    (hLast : len ≤ 4096 * (n + 1))
    (hFirst : n = 0 ∨ 4096 * n < len)
    (mem : ByteMem)
    (x : Nat) :
    (streamed fs s n p len (files, mem)).2 x =
      if p ≤ x ∧ x < p + len ∧
          (x - p) % 4096 < data.length then
        data.getD ((x - p) % 4096) 0
      else
        mem x := by
  induction n generalizing p len mem with
  | zero =>
      rw [streamed, transfer_read hRead hFile]
      dsimp only
      rw [storeBlock_take]
      by_cases hIn : p ≤ x ∧ x < p + len
      · rw [Nat.mod_eq_of_lt (by omega)]
      · rw [if_neg (by omega), if_neg (by omega)]
  | succ n ih =>
      rw [streamed, transfer_read hRead hFile,
        ih (p + 4096) (len - 4096) (by omega) (by omega),
        storeBlock_take]
      by_cases hFirstChunk : x < p + 4096
      · -- The later chunks lie past this one.
        rw [if_neg (by omega)]
        by_cases hIn : p ≤ x
        · rw [Nat.mod_eq_of_lt (by omega)]
          by_cases hFile : x - p < data.length
          · rw [if_pos (by omega), if_pos (by omega)]
          · rw [if_neg (by omega), if_neg (by omega)]
        · rw [if_neg (by omega), if_neg (by omega)]
      · have hMod :
            (x - (p + 4096)) % 4096 = (x - p) % 4096 := by
          omega
        rw [hMod]
        by_cases hIn :
            x < p + len ∧ (x - p) % 4096 < data.length
        · rw [if_pos (by omega), if_pos (by omega)]
        · rw [if_neg (by omega), if_neg (by omega),
            if_neg (by omega)]

end Whole

------------------------------------------------------------
-- Chunked And Plain Transfers
------------------------------------------------------------

/-
  The buffer at `p` holds the part of the file that a request
  asks for, as far as the file reaches.
-/
def Delivers
    (data : List UInt8)
    (offset length p : Nat)
    (mem : ByteMem) : Prop :=
  ∀ j < length, offset + j < data.length →
    mem (p + j) = data.getD (offset + j) 0

/- The chunks of a request after the first. -/
def laterChunks
    (length : Nat) : Nat :=
  (length - 1) / 4096

section Transfers

variable {fs : PlatFs σ}
variable {s : StreamPipeline}
variable {st : σ × ByteMem}
variable {data : List UInt8}

/- An accepted request is served by polling. -/
theorem streamWait_request
    (fs : PlatFs σ)
    (hIdle : s.Idle)
    (op : StreamOp)
    (offset length : UInt32)
    (p : Nat)
    (st : σ × ByteMem) :
    ∃ s',
      streamWait fs s.queueTail
          (laterChunks length.toNat + 2)
          (enqueue s op offset length (some p)).2 st =
        some (s',
          streamed fs s (laterChunks length.toNat) p
            length.toNat st) := by
  rw [hIdle.enqueue]
  unfold laterChunks
  exact streamWait_eq hIdle _ rfl rfl
    (by dsimp only; omega) (by dsimp only; omega) st

/- What a read pipeline leaves in the buffer. -/
theorem delivers_streamed_iff
    (hRead : s.forWrite = false)
    (hFile : fs.files st.1 s.path = some data)
    (offset length p : Nat) :
    Delivers data offset length p
        (streamed fs s (laterChunks length) p length st).2 ↔
      ∀ j < length, offset + j < data.length →
        data.getD (j % 4096) 0 = data.getD (offset + j) 0 := by
  have hByte :
      ∀ j < length, offset + j < data.length →
        (streamed fs s (laterChunks length) p length st).2
            (p + j) =
          data.getD (j % 4096) 0 := by
    intro j hj hReach
    have hSmall : j % 4096 ≤ j := Nat.mod_le _ _
    have hCount :
        length ≤ 4096 * (laterChunks length + 1) ∧
          (laterChunks length = 0 ∨
            4096 * laterChunks length < length) := by
      unfold laterChunks
      omega
    rw [streamed_read_mem hRead hFile _ _ _ hCount.1 hCount.2
      st.2, Nat.add_sub_cancel_left, if_pos (by omega)]
  constructor
  · intro hDelivers j hj hReach
    rw [← hByte j hj hReach]
    exact hDelivers j hj hReach
  · intro hSame j hj hReach
    rw [hByte j hj hReach]
    exact hSame j hj hReach

/- What a write pipeline leaves in the file. -/
theorem replaces_streamed_iff
    (hTotal : fs.Total)
    (hWrite : s.forWrite = true)
    (length p : Nat) :
    fs.files
        (streamed fs s (laterChunks length) p length st).1
        s.path =
        some (st.2.slice p length) ↔
      length ≤ 4096 := by
  rw [streamed_write_files hTotal hWrite, Option.some.injEq]
  unfold laterChunks
  constructor
  · intro hSame
    have hLength := congrArg List.length hSame
    rw [slice_length, slice_length] at hLength
    omega
  · intro hShort
    rw [show (length - 1) / 4096 = 0 by omega, Nat.mul_zero,
      Nat.add_zero, Nat.sub_zero]

end Transfers

/-
  A pipeline open on a file, for any request.  A read is
  served, and delivers the part of the file exactly when the
  start of the file repeats there; a write is served, and
  replaces the file exactly when it is one chunk.  On a
  pipeline of the other direction the buffer and the file
  are left as they were.
-/
theorem chunked_transfer_iff
    {fs : PlatFs σ}
    (hTotal : fs.Total)
    {s : StreamPipeline}
    (hIdle : s.Idle)
    (st : σ × ByteMem)
    {data : List UInt8}
    (hFile : fs.files st.1 s.path = some data)
    (offset length : UInt32)
    (p : Nat) :
    (∃ fuel s' st',
        streamWait fs s.queueTail fuel
            (streamReadAsync s offset length (some p)).2 st =
          some (s', st') ∧
        (Delivers data offset.toNat length.toNat p st'.2 ↔
          if s.forWrite then
            Delivers data offset.toNat length.toNat p st.2
          else
            ∀ j < length.toNat,
              offset.toNat + j < data.length →
                data.getD (j % 4096) 0 =
                  data.getD (offset.toNat + j) 0)) ∧
      ∃ fuel s' st',
        streamWait fs s.queueTail fuel
            (streamWriteAsync s 0 length (some p)).2 st =
          some (s', st') ∧
        (fs.files st'.1 s.path =
            some (st.2.slice p length.toNat) ↔
          if s.forWrite then
            length.toNat ≤ 4096
          else
            data = st.2.slice p length.toNat) := by
  rcases streamWait_request fs hIdle .read offset length p st
    with
    ⟨sRead, hReadWait⟩
  rcases streamWait_request fs hIdle .write 0 length p st
    with
    ⟨sWrite, hWriteWait⟩
  refine
    ⟨⟨_, sRead, _, hReadWait, ?_⟩,
      ⟨_, sWrite, _, hWriteWait, ?_⟩⟩
  · cases hDirection : s.forWrite with
    | false =>
        rw [delivers_streamed_iff hDirection hFile]
        simp
    | true =>
        rw [streamed_write_mem hDirection]
        simp
  · cases hDirection : s.forWrite with
    | false =>
        rw [streamed_read_files hDirection, hFile]
        simp
    | true =>
        rw [replaces_streamed_iff hTotal hDirection]
        simp

/- A disk with one file, of two bytes. -/
def twoByteFile :
    List UInt8 → Option (List UInt8) :=
  fun name =>
    if name = [0x41] then some [0x41, 0x42] else none

theorem twoByteFile_self :
    mapFs.files twoByteFile [0x41] = some [0x41, 0x42] := by
  rfl

/- The file is read whole by a request at offset 0. -/
theorem chunked_transfer_two_bytes :
    ∃ fuel s' st',
      streamWait mapFs 0 fuel
          (streamReadAsync (streamOpen [0x41] false) 0 2
            (some 0)).2 (twoByteFile, zeros) =
        some (s', st') ∧
      Delivers [0x41, 0x42] 0 2 0 st'.2 := by
  rcases (chunked_transfer_iff mapFs_total
      (streamOpen_idle [0x41] false) (twoByteFile, zeros)
      twoByteFile_self 0 2 0).1 with ⟨fuel, s', st', hWait, hDelivers⟩
  refine ⟨fuel, s', st', hWait, hDelivers.mpr ?_⟩
  intro j hj _
  have hSmall : j < 2 := hj
  rw [Nat.mod_eq_of_lt (by omega)]
  rw [show (0 : UInt32).toNat = 0 from rfl, Nat.zero_add]

/-
  A read of the second byte delivers the first, and a write
  of 4097 bytes leaves a file of one byte.
-/
theorem not_chunked_transfer :
    (∃ fuel s' st',
        streamWait mapFs 0 fuel
            (streamReadAsync (streamOpen [0x41] false) 1 1
              (some 0)).2 (twoByteFile, zeros) =
          some (s', st') ∧
        ¬ Delivers [0x41, 0x42] 1 1 0 st'.2) ∧
      ∃ fuel s' st',
        streamWait mapFs 0 fuel
            (streamWriteAsync (streamOpen [0x41] true) 0 4097
              (some 0)).2 (twoByteFile, zeros) =
          some (s', st') ∧
        mapFs.files st'.1 [0x41] ≠
          some (zeros.slice 0 4097) := by
  refine ⟨?_, ?_⟩
  · rcases streamWait_request mapFs
        (streamOpen_idle [0x41] false) .read 1 1 0
        (twoByteFile, zeros) with
      ⟨s', hWait⟩
    refine ⟨_, s', _, hWait, ?_⟩
    intro hDelivers
    have hSame :=
      (delivers_streamed_iff rfl twoByteFile_self 1 1 0).mp
        hDelivers 0 (by omega) (by decide)
    exact absurd hSame (by decide)
  · rcases streamWait_request mapFs
        (streamOpen_idle [0x41] true) .write 0 4097 0
        (twoByteFile, zeros) with
      ⟨s', hWait⟩
    refine ⟨_, s', _, hWait, ?_⟩
    intro hReplaced
    have hShort :=
      (replaces_streamed_iff mapFs_total rfl 4097 0).mp
        hReplaced
    omega

end Storage

end AsmOS
