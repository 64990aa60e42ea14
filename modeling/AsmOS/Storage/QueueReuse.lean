import AsmOS.Base.StepRuns
import AsmOS.Storage.StreamPolling

/-
  The slots of a stream's queue over runs of asynchronous
  requests and polls.

  A request takes the slot at the tail, and the tail never
  moves back: slots whose requests are done are not used
  again.

  Main declarations:
    * `QueueCall`, `queueStep`
    * `Reuses`, `HasRoom`
    * `reuses_iff`
-/

------------------------------------------------------------
-- Runs
------------------------------------------------------------

namespace AsmOS

namespace Storage

open ByteMem StepRuns

variable {σ : Type}

inductive QueueCall where
| readAsync
    (offset length : UInt32)
    (buffer : Option Nat)
| writeAsync
    (offset length : UInt32)
    (buffer : Option Nat)
| poll

/- The pipeline, and what the primitives work on. -/
def QueueCall.run
    (io : ChunkIo σ)
    (x : StreamPipeline × σ) : QueueCall → StreamPipeline × σ
| .readAsync offset length buffer =>
    ((streamReadAsync x.1 offset length buffer).2, x.2)
| .writeAsync offset length buffer =>
    ((streamWriteAsync x.1 offset length buffer).2, x.2)
| .poll => (streamPollIo io x.1 x.2).2

def queueStep
    (io : ChunkIo σ)
    (x : StreamPipeline × σ)
    (call : QueueCall) : Option (StreamPipeline × σ) :=
  some (call.run io x)

------------------------------------------------------------
-- Statements
------------------------------------------------------------

/- All slots hold a request that is not done. -/
def StreamPipeline.AllPending
    (s : StreamPipeline) : Prop :=
  s.pending.length = queueDepth

/-
  A request with valid arguments is accepted, or refused
  while all slots are pending, and none is overwritten that
  is pending.
-/
structure Enqueues
    (s : StreamPipeline)
    (got : Int × StreamPipeline) : Prop where
  answers : got.1 = 0 ∨ got.1 = -2
  refused : got.1 = -2 → s.AllPending
  keeps :
    ∀ (i : Nat) (r : StreamRequest), s.queue[i]? = some r →
      r.done = false →
      got.2.queue[i]? = some r

def Reuses
    (x : StreamPipeline × σ) : QueueCall → Prop
| .readAsync offset length (some p) =>
    Enqueues x.1 (streamReadAsync x.1 offset length (some p))
| .writeAsync offset length (some p) =>
    Enqueues x.1 (streamWriteAsync x.1 offset length (some p))
| _ => True

/-
  Fewer requests have been accepted than there are slots, or
  all slots are pending.
-/
def StreamPipeline.HasRoom
    (s : StreamPipeline) : Prop :=
  s.queueTail < queueDepth ∨ s.AllPending

def FindsRoom
    (x : StreamPipeline × σ) : QueueCall → Prop
| .readAsync _ _ (some _) => x.1.HasRoom
| .writeAsync _ _ (some _) => x.1.HasRoom
| _ => True

------------------------------------------------------------
-- Slots
------------------------------------------------------------

/- The slots behind the tail have never been used. -/
structure StreamPipeline.Slots
    (s : StreamPipeline) : Prop where
  depth : s.queue.length = queueDepth
  tail : s.queueTail ≤ queueDepth
  unused :
    ∀ (i : Nat) (r : StreamRequest), s.queueTail ≤ i →
      s.queue[i]? = some r →
      r.done = true

section Slots

variable {s : StreamPipeline}

theorem streamOpen_slots
    (path : List UInt8)
    (forWrite : Bool) :
    (streamOpen path forWrite).Slots := by
  refine ⟨rfl, Nat.zero_le _, fun i r _ hSlot => ?_⟩
  have hMember := List.mem_of_getElem? hSlot
  rw [List.eq_of_mem_replicate hMember]

/- An accepted request takes the slot at the tail. -/
theorem enqueue_room
    (hRoom : s.queueTail < queueDepth)
    (op : StreamOp)
    (offset length : UInt32)
    (p : Nat) :
    enqueue s op offset length (some p) =
      (0,
        { s with
          queue :=
            s.queue.set s.queueTail
              ⟨op, offset.toNat, length.toNat, some p, false,
                0⟩
          queueTail := s.queueTail + 1 }) :=
  if_neg (Nat.not_le.mpr hRoom)

theorem enqueue_full
    (hFull : queueDepth ≤ s.queueTail)
    (op : StreamOp)
    (offset length : UInt32)
    (p : Nat) :
    enqueue s op offset length (some p) = (-2, s) :=
  if_pos hFull

theorem StreamPipeline.Slots.enqueue
    (hSlots : s.Slots)
    (op : StreamOp)
    (offset length : UInt32)
    (buffer : Option Nat) :
    (Storage.enqueue s op offset length buffer).2.Slots := by
  cases buffer with
  | none => exact hSlots
  | some p =>
      by_cases hRoom : s.queueTail < queueDepth
      · rw [enqueue_room hRoom]
        refine ⟨?_, hRoom, fun i r hi hSlot => ?_⟩
        · rw [List.length_set]
          exact hSlots.depth
        · have hLater : s.queueTail + 1 ≤ i := hi
          rw [List.getElem?_set_ne (by omega)] at hSlot
          exact hSlots.unused i r (by omega) hSlot
      · rw [enqueue_full (Nat.le_of_not_lt hRoom)]
        exact hSlots

theorem StreamPipeline.Slots.poll
    (hSlots : s.Slots)
    (io : ChunkIo σ)
    (st : σ) :
    (streamPollIo io s st).2.1.Slots := by
  have hDepth := hSlots.depth
  have hTail := hSlots.tail
  have hFront :
      (s.requests.map StreamRequest.polled).length =
        s.queueTail := by
    unfold StreamPipeline.requests
    rw [List.length_map, List.length_take]
    omega
  have hQueue :
      (streamPollIo io s st).2.1.queue =
        s.requests.map StreamRequest.polled ++
          s.queue.drop s.queueTail := by
    unfold streamPollIo
    rw [pollRequestsIo_eq]
    rfl
  refine ⟨?_, hTail, fun i r hi hSlot => ?_⟩
  · rw [hQueue, List.length_append, hFront, List.length_drop]
    omega
  · have hLater : s.queueTail ≤ i := hi
    rw [hQueue, List.getElem?_append_right (by omega), hFront,
      List.getElem?_drop] at hSlot
    exact hSlots.unused _ r (by omega) hSlot

/- One request is treated well exactly if it finds room. -/
theorem enqueues_iff
    (hSlots : s.Slots)
    (op : StreamOp)
    (offset length : UInt32)
    (p : Nat) :
    Enqueues s (enqueue s op offset length (some p)) ↔
      s.HasRoom := by
  by_cases hRoom : s.queueTail < queueDepth
  · rw [enqueue_room hRoom]
    refine iff_of_true ⟨.inl rfl, ?_, fun i r hSlot hPending => ?_⟩
      (.inl hRoom)
    · intro hRefused
      have hZero : (0 : Int) = -2 := hRefused
      exact absurd hZero (by decide)
    · have hNe : s.queueTail ≠ i := by
        rintro rfl
        have hDone :=
          hSlots.unused s.queueTail r (Nat.le_refl _) hSlot
        rw [hPending] at hDone
        cases hDone
      rw [List.getElem?_set_ne hNe]
      exact hSlot
  · rw [enqueue_full (Nat.le_of_not_lt hRoom)]
    constructor
    · intro hEnqueues
      exact .inr (hEnqueues.refused rfl)
    · intro hEither
      exact ⟨.inr rfl, fun _ => hEither.resolve_left hRoom,
        fun _ _ hSlot _ => hSlot⟩

theorem run_slots
    {x : StreamPipeline × σ}
    (hSlots : x.1.Slots)
    (io : ChunkIo σ)
    (call : QueueCall) :
    (call.run io x).1.Slots := by
  cases call with
  | readAsync offset length buffer =>
      exact hSlots.enqueue .read offset length buffer
  | writeAsync offset length buffer =>
      exact hSlots.enqueue .write offset length buffer
  | poll => exact hSlots.poll io x.2

theorem reuses_call_iff
    {x : StreamPipeline × σ}
    (hSlots : x.1.Slots)
    (call : QueueCall) :
    Reuses x call ↔ FindsRoom x call := by
  cases call with
  | readAsync offset length buffer =>
      cases buffer with
      | none => exact Iff.rfl
      | some p => exact enqueues_iff hSlots .read offset length p
  | writeAsync offset length buffer =>
      cases buffer with
      | none => exact Iff.rfl
      | some p =>
          exact enqueues_iff hSlots .write offset length p
  | poll => exact Iff.rfl

end Slots

/-
  In a run on a new pipeline every request is treated well
  exactly if each one is made while fewer than eight have
  been accepted, or all eight are pending.
-/
theorem reuses_iff
    (io : ChunkIo σ)
    (path : List UInt8)
    (forWrite : Bool)
    (st : σ)
    (calls : List QueueCall) :
    EveryStep (queueStep io) Reuses
        (streamOpen path forWrite, st) calls ↔
      EveryStep (queueStep io) FindsRoom
        (streamOpen path forWrite, st) calls := by
  have hStep :
      ∀ (x : StreamPipeline × σ) call y, x.1.Slots →
        queueStep io x call = some y →
          y.1.Slots ∧ (Reuses x call ↔ FindsRoom x call) := by
    intro x call y hSlots hNext
    cases hNext
    exact ⟨run_slots hSlots io call, reuses_call_iff hSlots call⟩
  exact everyStep_congr hStep (streamOpen_slots path forWrite)
    calls

/- Eight reads of a byte, each polled before the next one. -/
def eightReads : List QueueCall :=
  (List.replicate 8
    [.readAsync 0 1 (some 4096), .poll]).flatten

def unitIo : ChunkIo Unit :=
  ⟨fun _ _ _ _ => (), fun _ _ _ _ => ()⟩

def readsPolled : StreamPipeline × Unit :=
  eightReads.foldl (QueueCall.run unitIo)
    (streamOpen [0x41] false, ())

theorem readsPolled_tail :
    readsPolled.1.queueTail = queueDepth := by
  rfl

theorem readsPolled_pending :
    readsPolled.1.pending.length = 0 := by
  rfl

/- A ninth is refused, and nothing is pending. -/
theorem not_reuses :
    ¬ ∀ (io : ChunkIo Unit) (calls : List QueueCall),
      EveryStep (queueStep io) Reuses
        (streamOpen [0x41] false, ()) calls := by
  intro hAlways
  have hRun :
      EveryStep
        (fun x call => some (QueueCall.run unitIo x call))
        Reuses (streamOpen [0x41] false, ())
        (eightReads ++ [.readAsync 0 1 (some 4096)]) :=
    hAlways unitIo _
  have hNinth :
      Enqueues readsPolled.1
        (streamReadAsync readsPolled.1 0 1 (some 4096)) :=
    hRun.last
  have hRefused :
      (streamReadAsync readsPolled.1 0 1 (some 4096)).1 =
        -2 :=
    congrArg Prod.fst
      (enqueue_full (Nat.le_of_eq readsPolled_tail.symm)
        .read 0 1 4096)
  have hPending := hNinth.refused hRefused
  unfold StreamPipeline.AllPending at hPending
  rw [readsPolled_pending] at hPending
  exact absurd hPending (by decide)

end Storage

end AsmOS
