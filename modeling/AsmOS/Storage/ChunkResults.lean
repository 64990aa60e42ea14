import Mathlib.Logic.Function.Basic
import AsmOS.Storage.QueueReuse

/-
  The results of the file primitives over runs of queued
  requests (`src/streaming.c`).

  A step drops what its primitive returned and clears the
  error of a request that is done.

  Main declarations:
    * `FileIo`, `FileIo.succeeds`
    * `ResultRun`, `resultStep`
    * `Reported`, `ServesWell`
    * `reported_iff`
-/

------------------------------------------------------------
-- Primitives With Results
------------------------------------------------------------

namespace AsmOS

namespace Storage

open StepRuns

variable {σ : Type}

/-
  `plat_fs_read` and `plat_fs_write` on a path, a buffer and
  a size; a read also reports how many bytes it got.
-/
structure FileIo (σ : Type) where
  read : List UInt8 → Nat → Nat → σ → Int × Nat × σ
  write : List UInt8 → Nat → Nat → σ → Int × σ

/- What is left when the results are dropped. -/
def FileIo.chunkIo
    (io : FileIo σ) : ChunkIo σ where
  read := fun path p n st => (io.read path p n st).2.2
  write := fun path p n st => (io.write path p n st).2

/-
  The operation on the next chunk of a request returns 0,
  and a read gets as many bytes as it asked for.
-/
def FileIo.succeeds
    (io : FileIo σ)
    (s : StreamPipeline)
    (st : σ)
    (r : StreamRequest) : Bool :=
  let n := min r.length chunkSize
  match r.buffer with
  | none => true
  | some p =>
      if s.forWrite then
        decide ((io.write s.path p n st).1 = 0)
      else
        let got := io.read s.path p n st
        decide (got.1 = 0) && decide (got.2.1 = n)

/-
  The results of the operations of a poll, for each request
  in the queue: none for one that is done.
-/
def pollResults
    (io : FileIo σ)
    (s : StreamPipeline) :
    List StreamRequest → σ → List (List Bool)
| [], _ => []
| r :: rs, st =>
    if r.done then
      [] :: pollResults io s rs st
    else
      [io.succeeds s st r] ::
        pollResults io s rs (io.chunkIo.serve s st r)

------------------------------------------------------------
-- Runs
------------------------------------------------------------

/-
  A pipeline, what the primitives work on, and for each slot
  the results of all operations for its request.
-/
structure ResultRun (σ : Type) where
  pipeline : StreamPipeline
  world : σ
  results : Nat → List Bool

def ResultRun.start
    (path : List UInt8)
    (forWrite : Bool)
    (st : σ) : ResultRun σ :=
  ⟨streamOpen path forWrite, st, fun _ => []⟩

/- An accepted request starts without results. -/
def ResultRun.request
    (x : ResultRun σ)
    (got : Int × StreamPipeline) : ResultRun σ :=
  { x with
    pipeline := got.2
    results :=
      if got.1 = 0 then
        Function.update x.results x.pipeline.queueTail []
      else
        x.results }

/- The results of the requests behind the next poll. -/
def ResultRun.polledResults
    (io : FileIo σ)
    (x : ResultRun σ)
    (i : Nat) : List Bool :=
  x.results i ++
    (pollResults io x.pipeline x.pipeline.requests
      x.world).getD i []

def ResultRun.poll
    (io : FileIo σ)
    (x : ResultRun σ) : ResultRun σ :=
  match streamPollIo io.chunkIo x.pipeline x.world with
  | (_, s, st) => ⟨s, st, x.polledResults io⟩

def ResultRun.run
    (io : FileIo σ)
    (x : ResultRun σ) : QueueCall → ResultRun σ
| .readAsync offset length buffer =>
    x.request (streamReadAsync x.pipeline offset length buffer)
| .writeAsync offset length buffer =>
    x.request
      (streamWriteAsync x.pipeline offset length buffer)
| .poll => x.poll io

def resultStep
    (io : FileIo σ)
    (x : ResultRun σ)
    (call : QueueCall) : Option (ResultRun σ) :=
  some (x.run io call)

------------------------------------------------------------
-- Statements
------------------------------------------------------------

/- The error of a request, against the results for it. -/
structure StreamRequest.Reports
    (r : StreamRequest)
    (results : List Bool) : Prop where
  succeeded : r.error = 0 → ∀ ok ∈ results, ok = true
  failed : (¬ ∀ ok ∈ results, ok = true) → r.error < 0

/- Every request that is done reports its results. -/
def Reported
    (x : ResultRun σ) : Prop :=
  ∀ (i : Nat) (r : StreamRequest),
    x.pipeline.requests[i]? = some r → r.done = true →
      r.Reports (x.results i)

/-
  When a poll serves the last chunk of a request, all of the
  request's operations have succeeded.
-/
def ServesWell
    (io : FileIo σ)
    (x : ResultRun σ) : QueueCall → Prop
| .poll =>
    ∀ (i : Nat) (r : StreamRequest),
      x.pipeline.requests[i]? = some r → r.done = false →
        r.length ≤ chunkSize →
          ∀ ok ∈ x.polledResults io i, ok = true
| _ => True

------------------------------------------------------------
-- Errors
------------------------------------------------------------

/- The slots of a pipeline on which no error is ever set. -/
structure ResultRun.Clear
    (x : ResultRun σ) : Prop where
  slots : x.pipeline.Slots
  error :
    ∀ (i : Nat) (r : StreamRequest),
      x.pipeline.requests[i]? = some r → r.error = 0

section Errors

variable {io : FileIo σ} {s : StreamPipeline}
variable {x : ResultRun σ} {r : StreamRequest}

theorem start_clear
    (path : List UInt8)
    (forWrite : Bool)
    (st : σ) :
    (ResultRun.start path forWrite st).Clear := by
  refine ⟨streamOpen_slots path forWrite, fun i r hSlot => ?_⟩
  cases hSlot

theorem start_reported
    (path : List UInt8)
    (forWrite : Bool)
    (st : σ) :
    Reported (ResultRun.start path forWrite st) := by
  intro i r hSlot
  cases hSlot

/- A request without an error reports successes only. -/
theorem reports_iff
    (hError : r.error = 0)
    (results : List Bool) :
    r.Reports results ↔ ∀ ok ∈ results, ok = true := by
  constructor
  · intro hReports
    exact hReports.succeeded hError
  · intro hAll
    exact ⟨fun _ => hAll, fun hSome => absurd hAll hSome⟩

/- The requests behind an accepted one. -/
theorem requests_enqueue
    (hSlots : s.Slots)
    (hRoom : s.queueTail < queueDepth)
    (op : StreamOp)
    (offset length : UInt32)
    (p : Nat) :
    (enqueue s op offset length (some p)).2.requests =
      s.requests ++
        [⟨op, offset.toNat, length.toNat, some p, false, 0⟩] := by
  have hInside : s.queueTail < s.queue.length := by
    rw [hSlots.depth]
    exact hRoom
  rw [enqueue_room hRoom]
  unfold StreamPipeline.requests
  dsimp only
  rw [List.take_succ_eq_append_getElem (by
      rw [List.length_set]; exact hInside),
    List.getElem_set_self, List.take_set_of_le (Nat.le_refl _)]

theorem requests_length
    (hSlots : s.Slots) :
    s.requests.length = s.queueTail := by
  unfold StreamPipeline.requests
  rw [List.length_take, hSlots.depth]
  exact Nat.min_eq_left hSlots.tail

/- A request that is done has no operation in a poll. -/
theorem pollResults_done
    (io : FileIo σ)
    (s : StreamPipeline)
    (rs : List StreamRequest)
    (st : σ)
    {i : Nat}
    (hSlot : rs[i]? = some r)
    (hDone : r.done = true) :
    (pollResults io s rs st).getD i [] = [] := by
  induction rs generalizing st i with
  | nil => cases hSlot
  | cons q qs ih =>
      unfold pollResults
      cases i with
      | zero =>
          cases hSlot
          rw [if_pos hDone]
          rfl
      | succ i =>
          split
          · exact ih st hSlot
          · exact ih _ hSlot

/- A step sets no error. -/
theorem polled_error
    (r : StreamRequest)
    (hError : r.error = 0) :
    r.polled.error = 0 := by
  unfold StreamRequest.polled StreamRequest.served
  split
  · exact hError
  · split
    · rfl
    · exact hError

/- The request in a slot behind a poll. -/
theorem poll_slot
    (io : FileIo σ)
    (x : ResultRun σ)
    (i : Nat) :
    (x.poll io).pipeline.requests[i]? =
      x.pipeline.requests[i]?.map StreamRequest.polled := by
  have hRequests :=
    requests_streamPollIo io.chunkIo x.pipeline x.world
  rw [← List.getElem?_map, ← hRequests]
  rfl

theorem poll_clear
    (hClear : x.Clear) :
    (x.poll io).Clear := by
  refine ⟨hClear.slots.poll io.chunkIo x.world,
    fun i r hSlot => ?_⟩
  rw [poll_slot, Option.map_eq_some_iff] at hSlot
  rcases hSlot with ⟨q, hBefore, rfl⟩
  exact polled_error q (hClear.error i q hBefore)

theorem reported_poll_iff
    (hClear : x.Clear)
    (hReported : Reported x) :
    Reported (x.poll io) ↔ ServesWell io x .poll := by
  constructor
  · intro hAfter i r hSlot hPending hLast
    have hError :=
      polled_error r (hClear.error i r hSlot)
    have hDone : r.polled.done = true := by
      unfold StreamRequest.polled
      rw [hPending, if_neg Bool.false_ne_true]
      exact (served_done_iff hPending).mpr hLast
    have hPolled :
        (x.poll io).pipeline.requests[i]? =
          some r.polled := by
      rw [poll_slot, hSlot]
      rfl
    exact (reports_iff hError _).mp
      (hAfter i r.polled hPolled hDone)
  · intro hWell i r' hSlot hDone
    rw [poll_slot, Option.map_eq_some_iff] at hSlot
    rcases hSlot with ⟨r, hBefore, rfl⟩
    have hError := hClear.error i r hBefore
    refine (reports_iff (polled_error r hError) _).mpr ?_
    change ∀ ok ∈ x.polledResults io i, ok = true
    cases hWas : r.done with
    | true =>
        have hSame : x.polledResults io i = x.results i := by
          unfold ResultRun.polledResults
          rw [pollResults_done io _ _ _ hBefore hWas,
            List.append_nil]
        rw [hSame]
        exact (reports_iff hError _).mp
          (hReported i r hBefore hWas)
    | false =>
        refine hWell i r hBefore hWas ?_
        unfold StreamRequest.polled at hDone
        rw [hWas, if_neg Bool.false_ne_true] at hDone
        exact (served_done_iff hWas).mp hDone

/- A request that is made is not done, and changes no other. -/
theorem request_keeps
    (hClear : x.Clear)
    (hReported : Reported x)
    (op : StreamOp)
    (offset length : UInt32)
    (buffer : Option Nat) :
    (x.request
        (enqueue x.pipeline op offset length buffer)).Clear ∧
      Reported
        (x.request
          (enqueue x.pipeline op offset length buffer)) := by
  cases buffer with
  | none => exact ⟨hClear, hReported⟩
  | some p =>
      have hSlots :=
        hClear.slots.enqueue op offset length (some p)
      by_cases hRoom : x.pipeline.queueTail < queueDepth
      · have hRequests :=
          requests_enqueue hClear.slots hRoom op offset length p
        have hTail := requests_length hClear.slots
        have hCases :
            ∀ (i : Nat) (r : StreamRequest),
              (enqueue x.pipeline op offset length
                (some p)).2.requests[i]? = some r →
              (i ≠ x.pipeline.queueTail ∧
                  x.pipeline.requests[i]? = some r) ∨
                r.done = false ∧ r.error = 0 := by
          intro i r hSlot
          rw [hRequests, List.getElem?_append] at hSlot
          split at hSlot
          · exact .inl ⟨by omega, hSlot⟩
          · have hNew := List.mem_of_getElem? hSlot
            rw [List.mem_singleton] at hNew
            rw [hNew]
            exact .inr ⟨rfl, rfl⟩
        refine ⟨⟨hSlots, fun i r hSlot => ?_⟩,
          fun i r hSlot hDone => ?_⟩
        · rcases hCases i r hSlot with ⟨_, hBefore⟩ | hNew
          · exact hClear.error i r hBefore
          · exact hNew.2
        · rcases hCases i r hSlot with ⟨hNe, hBefore⟩ | hNew
          · have hSame :
                (x.request
                    (enqueue x.pipeline op offset length
                      (some p))).results i =
                  x.results i := by
              unfold ResultRun.request
              rw [enqueue_room hRoom]
              exact Function.update_of_ne hNe _ _
            rw [hSame]
            exact hReported i r hBefore hDone
          · rw [hNew.1] at hDone
            cases hDone
      · have hFull :=
          enqueue_full (Nat.le_of_not_lt hRoom) op offset length
            p
        rw [hFull]
        exact ⟨hClear, hReported⟩

/- What one call keeps, and when. -/
theorem reported_call
    (hClear : x.Clear)
    (hReported : Reported x)
    (call : QueueCall) :
    (x.run io call).Clear ∧
      (Reported (x.run io call) ↔ ServesWell io x call) := by
  cases call with
  | readAsync offset length buffer =>
      have hKept :=
        request_keeps hClear hReported .read offset length
          buffer
      exact ⟨hKept.1, iff_of_true hKept.2 trivial⟩
  | writeAsync offset length buffer =>
      have hKept :=
        request_keeps hClear hReported .write offset length
          buffer
      exact ⟨hKept.1, iff_of_true hKept.2 trivial⟩
  | poll =>
      exact ⟨poll_clear hClear,
        reported_poll_iff hClear hReported⟩

end Errors

/-
  In a run on a new pipeline the error of every request that
  is done tells whether its operations succeeded exactly if
  they all did.
-/
theorem reported_iff
    (io : FileIo σ)
    (path : List UInt8)
    (forWrite : Bool)
    (st : σ)
    (calls : List QueueCall) :
    EveryState (resultStep io) Reported
        (ResultRun.start path forWrite st) calls ↔
      EveryStep (resultStep io) (ServesWell io)
        (ResultRun.start path forWrite st) calls := by
  have hStep :
      ∀ (x : ResultRun σ) call y, x.Clear → Reported x →
        resultStep io x call = some y →
          y.Clear ∧ (Reported y ↔ ServesWell io x call) := by
    intro x call y hClear hReported hNext
    cases hNext
    exact reported_call hClear hReported call
  exact everyState_iff_everyStep hStep
    (start_clear path forWrite st)
    (start_reported path forWrite st) calls

/- Files of which none can be read or written. -/
def failingIo : FileIo Unit :=
  ⟨fun _ _ _ _ => (-1, 0, ()), fun _ _ _ _ => (-1, ())⟩

/- The failed read of a byte is done without an error. -/
theorem not_reported :
    ¬ ∀ (io : FileIo Unit) (calls : List QueueCall),
      EveryState (resultStep io) Reported
        (ResultRun.start [0x41] false ()) calls := by
  intro hAlways
  have hRun :=
    hAlways failingIo [.readAsync 0 1 (some 4096), .poll]
  have hLast := (hRun.2 _ rfl).2 _ rfl
  have hReports :=
    hLast 0
      ⟨.read, 0, 1, some 4096, true, 0⟩ rfl rfl
  have hSuccess := hReports.succeeded rfl false (.head _)
  cases hSuccess

end Storage

end AsmOS
