import Mathlib.Order.Lattice
import AsmOS.Storage.SyncStreams

/-
  Polling the queue of a chunked file stream
  (`stream_poll` in `src/streaming.c`), whatever the file
  primitives do.

  Main declarations:
    * `streamPollIo`, `streamPoll_eq_io`
    * `StreamRequest.polled`, `StreamRequest.chunksLeft`
    * `pollTimes`, `StreamPipeline.drainCalls`
    * `streamPoll_drains`
-/

------------------------------------------------------------
-- Polls Over Any Primitives
------------------------------------------------------------

namespace AsmOS

namespace Storage

open ByteMem

variable {σ : Type}

/- The loop of `stream_poll` over the queued requests. -/
def pollRequestsIo
    (io : ChunkIo σ)
    (s : StreamPipeline) :
    List StreamRequest → σ → Bool × List StreamRequest × σ
| [], st => (false, [], st)
| r :: rs, st =>
    if r.done then
      match pollRequestsIo io s rs st with
      | (progress, rs, st) => (progress, r :: rs, st)
    else
      match advanceChunkIo io s r st with
      | (more, r, st) =>
          match pollRequestsIo io s rs st with
          | (progress, rs, st) =>
              (more || progress, r :: rs, st)

/- `stream_poll`. -/
def streamPollIo
    (io : ChunkIo σ)
    (s : StreamPipeline)
    (st : σ) : Bool × StreamPipeline × σ :=
  match pollRequestsIo io s (s.queue.take s.queueTail) st with
  | (progress, rs, st) =>
      (progress,
        { s with queue := rs ++ s.queue.drop s.queueTail }, st)

/- The poll over the file primitives is one of these. -/
theorem streamPoll_eq_io
    (fs : PlatFs σ)
    (s : StreamPipeline)
    (st : σ × ByteMem) :
    streamPoll fs s st = streamPollIo fs.chunkIo s st := by
  have hLoop :
      ∀ (rs : List StreamRequest) (st : σ × ByteMem),
        pollRequests fs s rs st =
          pollRequestsIo fs.chunkIo s rs st := by
    intro rs
    induction rs with
    | nil => exact fun _ => rfl
    | cons r rs ih =>
        intro st
        simp only [pollRequests, pollRequestsIo, ih,
          advanceChunk_eq_io]
  simp only [streamPoll, streamPollIo, hLoop]

/- Some polls, one behind the other. -/
def pollTimes
    (io : ChunkIo σ) :
    Nat → StreamPipeline → σ → StreamPipeline × σ
| 0, s, st => (s, st)
| n + 1, s, st =>
    pollTimes io n (streamPollIo io s st).2.1
      (streamPollIo io s st).2.2

------------------------------------------------------------
-- Requests
------------------------------------------------------------

/- A request behind a step, whatever the primitive did. -/
def StreamRequest.served
    (r : StreamRequest) : StreamRequest :=
  if r.length ≤ chunkSize then
    { r with done := true, error := 0 }
  else
    { r with
      offset := (r.offset + chunkSize) % 2 ^ 32
      length := r.length - chunkSize
      buffer := r.buffer.map fun p => p + chunkSize }

/- A request behind a poll. -/
def StreamRequest.polled
    (r : StreamRequest) : StreamRequest :=
  if r.done then r else r.served

/- `ceil(length / 4096)`. -/
def StreamRequest.chunks
    (r : StreamRequest) : Nat :=
  (r.length + (chunkSize - 1)) / chunkSize

/- The steps that a request needs until it is done. -/
def StreamRequest.chunksLeft
    (r : StreamRequest) : Nat :=
  if r.done then 0 else max 1 r.chunks

/- The requests that were made and are polled. -/
def StreamPipeline.requests
    (s : StreamPipeline) : List StreamRequest :=
  s.queue.take s.queueTail

def StreamPipeline.pending
    (s : StreamPipeline) : List StreamRequest :=
  s.requests.filter fun r => !r.done

/- The greatest number of chunks of a pending request. -/
def StreamPipeline.drainCalls
    (s : StreamPipeline) : Nat :=
  (s.pending.map StreamRequest.chunks).foldr max 1

/- The transfer of one chunk, or what is left of one. -/
def ChunkIo.serve
    (io : ChunkIo σ)
    (s : StreamPipeline)
    (st : σ)
    (r : StreamRequest) : σ :=
  io.transfer s r.buffer (min r.length chunkSize) st

section Requests

variable {io : ChunkIo σ} {s : StreamPipeline}
variable {r : StreamRequest} {st : σ}

theorem advanceChunkIo_eq
    (io : ChunkIo σ)
    (s : StreamPipeline)
    (r : StreamRequest)
    (st : σ) :
    advanceChunkIo io s r st =
      (decide (chunkSize < r.length), r.served,
        io.serve s st r) := by
  unfold advanceChunkIo StreamRequest.served ChunkIo.serve
  by_cases hLast : r.length ≤ chunkSize
  · rw [if_pos hLast, if_pos hLast, Nat.min_eq_left hLast,
      decide_eq_false (Nat.not_lt.mpr hLast)]
  · have hMore := Nat.lt_of_not_le hLast
    rw [if_neg hLast, if_neg hLast,
      Nat.min_eq_right (Nat.le_of_lt hMore),
      decide_eq_true hMore]

theorem done_iff_chunksLeft
    (r : StreamRequest) :
    r.done = true ↔ r.chunksLeft = 0 := by
  unfold StreamRequest.chunksLeft
  cases r.done with
  | true => simp
  | false =>
      rw [if_neg Bool.false_ne_true]
      refine iff_of_false Bool.false_ne_true ?_
      have hPos := Nat.le_max_left 1 r.chunks
      omega

/- The step of the last chunk is the one that is done. -/
theorem served_done_iff
    (hPending : r.done = false) :
    r.served.done = true ↔ r.length ≤ chunkSize := by
  unfold StreamRequest.served
  by_cases hLast : r.length ≤ chunkSize
  · rw [if_pos hLast]
    exact iff_of_true rfl hLast
  · rw [if_neg hLast]
    exact iff_of_false (by rw [hPending]; exact
      Bool.false_ne_true) hLast

/- A poll takes one chunk of a request. -/
theorem chunksLeft_polled
    (r : StreamRequest) :
    r.polled.chunksLeft = r.chunksLeft - 1 := by
  unfold StreamRequest.polled
  cases hDone : r.done with
  | true =>
      rw [if_pos rfl, (done_iff_chunksLeft r).mp hDone]
  | false =>
      rw [if_neg Bool.false_ne_true]
      unfold StreamRequest.served StreamRequest.chunksLeft
        StreamRequest.chunks
      by_cases hLast : r.length ≤ chunkSize
      · simp only [hLast, hDone, if_true, Bool.false_eq_true,
          if_false]
        simp only [chunkSize] at hLast ⊢
        omega
      · simp only [hLast, hDone, Bool.false_eq_true, if_false]
        simp only [chunkSize] at hLast ⊢
        omega

theorem chunksLeft_polled_iterate
    (n : Nat)
    (r : StreamRequest) :
    (StreamRequest.polled^[n] r).chunksLeft =
      r.chunksLeft - n := by
  induction n generalizing r with
  | zero => rfl
  | succ n ih =>
      rw [Function.iterate_succ_apply, ih, chunksLeft_polled]
      omega

end Requests

------------------------------------------------------------
-- Queues
------------------------------------------------------------

section Queues

variable {io : ChunkIo σ} {s : StreamPipeline}

/- A poll advances all of the requests, in their order. -/
theorem pollRequestsIo_eq
    (io : ChunkIo σ)
    (s : StreamPipeline)
    (rs : List StreamRequest)
    (st : σ) :
    pollRequestsIo io s rs st =
      (rs.any fun r => !r.done && decide (chunkSize < r.length),
        rs.map StreamRequest.polled,
        (rs.filter fun r => !r.done).foldl (io.serve s) st) := by
  induction rs generalizing st with
  | nil => rfl
  | cons r rs ih =>
      unfold pollRequestsIo
      cases hDone : r.done with
      | true =>
          rw [if_pos rfl, ih, List.any_cons, List.map_cons,
            List.filter_cons]
          simp only [hDone, StreamRequest.polled, Bool.not_true,
            Bool.false_and, Bool.false_or, if_true,
            Bool.false_eq_true, if_false]
      | false =>
          rw [if_neg Bool.false_ne_true, advanceChunkIo_eq,
            List.any_cons, List.map_cons, List.filter_cons]
          simp only [ih, hDone, StreamRequest.polled,
            Bool.not_false, Bool.true_and, if_true,
            Bool.false_eq_true, if_false, List.foldl_cons]

theorem requests_streamPollIo
    (io : ChunkIo σ)
    (s : StreamPipeline)
    (st : σ) :
    (streamPollIo io s st).2.1.requests =
      s.requests.map StreamRequest.polled := by
  unfold streamPollIo StreamPipeline.requests
  rw [pollRequestsIo_eq]
  dsimp only
  by_cases hInside : s.queueTail ≤ s.queue.length
  · refine List.take_left' ?_
    rw [List.length_map, List.length_take]
    exact Nat.min_eq_left hInside
  · have hPast : s.queue.length ≤ s.queueTail := by omega
    rw [List.drop_of_length_le hPast, List.append_nil]
    refine List.take_of_length_le ?_
    rw [List.length_map, List.length_take]
    exact Nat.min_le_left _ _

/- Nothing is pending when no request has chunks left. -/
theorem pending_eq_nil_iff
    (s : StreamPipeline) :
    s.pending = [] ↔ ∀ r ∈ s.requests, r.chunksLeft = 0 := by
  unfold StreamPipeline.pending
  rw [List.filter_eq_nil_iff]
  refine forall_congr' fun r => forall_congr' fun _ => ?_
  rw [← done_iff_chunksLeft]
  simp

theorem requests_pollTimes
    (io : ChunkIo σ)
    (n : Nat)
    (s : StreamPipeline)
    (st : σ) :
    (pollTimes io n s st).1.requests =
      s.requests.map StreamRequest.polled^[n] := by
  induction n generalizing s st with
  | zero => exact (List.map_id _).symm
  | succ n ih =>
      rw [pollTimes, ih, requests_streamPollIo, List.map_map,
        Function.iterate_succ]

/- A list of requests is served when the largest one is. -/
theorem foldr_max_le_iff
    (ns : List Nat)
    (b n : Nat) :
    ns.foldr max b ≤ n ↔ b ≤ n ∧ ∀ k ∈ ns, k ≤ n := by
  induction ns with
  | nil => simp
  | cons k ns ih =>
      rw [List.foldr_cons, Nat.max_le, ih, List.forall_mem_cons]
      exact and_left_comm

/- The requests that are done hold no poll up. -/
theorem drainCalls_le_iff
    (hPending : s.pending ≠ [])
    (n : Nat) :
    s.drainCalls ≤ n ↔
      ∀ r ∈ s.requests, r.chunksLeft ≤ n := by
  have hMember :
      ∀ r, r ∈ s.pending ↔
        r ∈ s.requests ∧ r.done = false := by
    intro r
    unfold StreamPipeline.pending
    rw [List.mem_filter, Bool.not_eq_true']
  unfold StreamPipeline.drainCalls
  rw [foldr_max_le_iff, List.forall_mem_map]
  constructor
  · rintro ⟨hPos, hChunks⟩ r hRequest
    unfold StreamRequest.chunksLeft
    split
    · exact Nat.zero_le n
    · next hDone =>
        exact Nat.max_le.mpr ⟨hPos,
          hChunks r ((hMember r).mpr
            ⟨hRequest, Bool.eq_false_iff.mpr hDone⟩)⟩
  · intro hLeft
    have hBoth :
        ∀ r ∈ s.pending, 1 ≤ n ∧ r.chunks ≤ n := by
      intro r hIn
      rcases (hMember r).mp hIn with ⟨hRequest, hDone⟩
      have hRoom := hLeft r hRequest
      unfold StreamRequest.chunksLeft at hRoom
      rw [hDone, if_neg Bool.false_ne_true] at hRoom
      exact Nat.max_le.mp hRoom
    rcases List.exists_mem_of_ne_nil _ hPending with ⟨r, hIn⟩
    exact ⟨(hBoth r hIn).1, fun q hq => (hBoth q hq).2⟩

end Queues

/-
  A poll serves one chunk of every pending request and none
  of another.  It returns zero exactly when nothing is
  pending behind it, and as many polls as the longest of the
  requests has chunks, and no fewer, drain the queue.
-/
theorem streamPoll_drains
    (io : ChunkIo σ)
    (s : StreamPipeline)
    (st : σ)
    (hPending : s.pending ≠ []) :
    (((streamPollIo io s st).2.1.requests =
          s.requests.map StreamRequest.polled ∧
        ∀ r ∈ s.requests,
          r.polled.chunksLeft = r.chunksLeft - 1) ∧
      (streamPollIo io s st).2.2 =
        s.pending.foldl (io.serve s) st) ∧
    ((streamPollIo io s st).1 = false ↔
      (streamPollIo io s st).2.1.pending = []) ∧
    ∀ n, (pollTimes io n s st).1.pending = [] ↔
      s.drainCalls ≤ n := by
  have hPoll :=
    pollRequestsIo_eq io s (s.queue.take s.queueTail) st
  refine ⟨⟨⟨requests_streamPollIo io s st,
    fun r _ => chunksLeft_polled r⟩, ?_⟩, ?_, fun n => ?_⟩
  · unfold streamPollIo
    rw [hPoll]
    rfl
  · rw [pending_eq_nil_iff, requests_streamPollIo,
      List.forall_mem_map]
    unfold streamPollIo
    rw [hPoll]
    dsimp only
    rw [List.any_eq_false]
    refine forall_congr' fun r => forall_congr' fun _ => ?_
    rw [← done_iff_chunksLeft]
    unfold StreamRequest.polled
    cases hDone : r.done with
    | true => simp [hDone]
    | false =>
        rw [if_neg Bool.false_ne_true, served_done_iff hDone]
        simp
  · rw [pending_eq_nil_iff, requests_pollTimes,
      List.forall_mem_map, drainCalls_le_iff hPending]
    refine forall_congr' fun r => forall_congr' fun _ => ?_
    rw [chunksLeft_polled_iterate]
    exact Nat.sub_eq_zero_iff_le

/- A request of 4097 bytes is drained by two polls. -/
theorem streamPoll_drains_two_chunks :
    let s :=
      (streamReadAsync (streamOpen [0x41] false) 0 4097
        (some 4096)).2
    let io : ChunkIo Unit :=
      ⟨fun _ _ _ _ => (), fun _ _ _ _ => ()⟩
    ((streamPollIo io s ()).1 = false ↔
      (streamPollIo io s ()).2.1.pending = []) ∧
    ((pollTimes io 2 s ()).1.pending = [] ↔
      s.drainCalls ≤ 2) := by
  intro s io
  have hPending : s.pending ≠ [] := by
    intro hNone
    cases hNone
  have hDrains := streamPoll_drains io s () hPending
  exact ⟨hDrains.2.1, hDrains.2.2 2⟩

end Storage

end AsmOS
