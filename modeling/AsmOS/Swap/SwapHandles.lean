import AsmOS.Heap.RequestedSize
import AsmOS.Swap.SwapAccounting

/-
  The handles of swap slots against the slot table
  (`src/memory_budget.c`).

  A handle is a copy of its slot.  A restored slot tells its
  handle of the new memory; an evicted slot does not tell it
  that the memory is gone.

  Main declarations:
    * `Matches`, `SwapCall.Agrees`
    * `SwapCall.Rounds`, `SwapCall.KeepsHandle`
    * `Holds`, `run_agrees_iff`
    * `handles_agree_iff`
-/

------------------------------------------------------------
-- Statements
------------------------------------------------------------

namespace AsmOS

namespace Swap

open StepRuns

/-
  The pointer of a handle is that of its slot, and one that
  is not NULL has a block of at least the slot's size.
-/
structure Matches
    (pool : Heap.Pool)
    (s : State)
    (handle : SwapSlot) : Prop where
  same :
    handle.localPtr =
      (s.budget.slots handle.offset).localPtr
  block :
    (s.budget.slots handle.offset).localPtr ≠ 0 →
      Heap.HasPayload pool s.heap
        (s.budget.slots handle.offset).localPtr
        (s.budget.slots handle.offset).size.toNat

/- After a call that returns 0 its handle matches. -/
def SwapCall.Agrees
    (pool : Heap.Pool)
    (c : SwapClient) : SwapCall → Prop
| .alloc size region out =>
    ∀ handle s,
      swapSlotAlloc pool c.state size region (some out) =
          some (0, some handle, s) →
        Matches pool s handle
| .evict k =>
    ∀ handle s, c.handles[k]? = some handle →
      swapEvict pool c.state (some handle) = some (0, s) →
        Matches pool s handle
| .restore k =>
    ∀ handle handle' s, c.handles[k]? = some handle →
      swapRestore c.state (some handle) =
          some (0, some handle', s) →
        Matches pool s handle'
| .free _ => True

/- Rounding a size up to four does not wrap, or is in vain. -/
def SwapCall.Rounds
    (c : SwapClient) : SwapCall → Prop
| .alloc size _ _ =>
    size.toNat + 3 < 2 ^ 32 ∨
      ∃ heap,
        Heap.malloc c.state.heap size.toNat = some (0, heap)
| _ => True

/-
  No handle is evicted; and the size of a new slot rounds, or
  the heap or the table has no room for it.
-/
def SwapCall.KeepsHandle
    (c : SwapClient) : SwapCall → Prop
| .alloc size region out =>
    SwapCall.Rounds c (.alloc size region out) ∨
      c.state.budget.freeSlot = none
| .evict k => c.handles[k]? = none
| _ => True

------------------------------------------------------------
-- Heap Calls
------------------------------------------------------------

section HeapCalls

variable {pool : Heap.Pool} {heap heap' : Heap.State}
variable {owned : Nat → Option Nat}
variable {bs : List Heap.HeapBlock} {p n : Nat}

/- A granted block is new among the live ones. -/
theorem malloc_kept
    (hInv : Heap.Invariant pool ⟨heap, owned⟩ bs)
    (hn : n + 3 < 2 ^ 32)
    (hCall : Heap.malloc heap n = some (p, heap')) :
    (∃ bs', Heap.Invariant pool
        ⟨heap', Heap.grant owned p n⟩ bs') ∧
      (p ≠ 0 → owned p = none) := by
  rcases Heap.run_outcome hInv (.malloc n) hn with
    ⟨r, c', bs', hRun, hOutcome⟩
  have hSame :
      (Heap.HeapCall.malloc n).run pool ⟨heap, owned⟩ =
        some (p, ⟨heap', Heap.grant owned p n⟩) :=
    Heap.run_of_malloc hCall
  rw [hSame] at hRun
  cases hRun
  refine ⟨⟨bs', hOutcome.invariant⟩, fun hNull => ?_⟩
  cases hOwned : owned p with
  | none => rfl
  | some m =>
      have hPassed := hOutcome.fresh hNull m hOwned
      exact absurd hPassed hNull

theorem free_kept_owned
    (hInv : Heap.Invariant pool ⟨heap, owned⟩ bs)
    (hOwned : owned p = some n)
    (hCall : Heap.free pool heap p = some heap') :
    ∃ bs', Heap.Invariant pool
      ⟨heap', Heap.drop owned p⟩ bs' := by
  rcases Heap.run_outcome hInv (.free p)
      (.inr ⟨n, hOwned⟩) with ⟨r, c', bs', hRun, hOutcome⟩
  have hSame :
      (Heap.HeapCall.free p).run pool ⟨heap, owned⟩ =
        some (0, ⟨heap', Heap.drop owned p⟩) := by
    simp [Heap.HeapCall.run, hCall]
  rw [hSame] at hRun
  cases hRun
  exact ⟨bs', hOutcome.invariant⟩

/- A block that is granted and freed leaves no trace. -/
theorem drop_grant
    (hFresh : owned p = none) :
    Heap.drop (Heap.grant owned p n) p = owned := by
  unfold Heap.drop Heap.grant
  split
  · rw [← hFresh, Function.update_eq_self]
  · rw [Function.update_idem, ← hFresh,
      Function.update_eq_self]

theorem grant_of_ne
    {q : Nat}
    (hNe : q ≠ p) :
    Heap.grant owned p n q = owned q := by
  unfold Heap.grant
  split
  · rfl
  · exact Function.update_of_ne hNe _ _

theorem grant_self
    (hNull : p ≠ 0) :
    Heap.grant owned p n p = some n := by
  unfold Heap.grant
  rw [if_neg hNull, Function.update_self]

end HeapCalls

------------------------------------------------------------
-- Slots And Blocks
------------------------------------------------------------

/- The slots that are named have blocks of their own. -/
structure SlotBlocks
    (slots : Nat → SwapSlot)
    (names : List Nat)
    (owned : Nat → Option Nat) : Prop where
  rounds :
    ∀ i ∈ names, (slots i).size.toNat + 3 < 2 ^ 32
  owned :
    ∀ i ∈ names, (slots i).localPtr ≠ 0 →
      owned (slots i).localPtr = some (slots i).size.toNat
  apart :
    ∀ i ∈ names, ∀ j ∈ names, i ≠ j →
      (slots i).localPtr ≠ 0 →
        (slots i).localPtr ≠ (slots j).localPtr

section SlotBlocks

variable {slots : Nat → SwapSlot} {names names' : List Nat}
variable {owned owned' : Nat → Option Nat}
variable {i : Nat} {slot : SwapSlot}

/- One slot is stored; the blocks of the others are kept. -/
theorem SlotBlocks.update
    (hBlocks : SlotBlocks slots names owned)
    (hNames : ∀ j ∈ names', j ≠ i → j ∈ names)
    (hKept :
      ∀ j ∈ names', j ≠ i → (slots j).localPtr ≠ 0 →
        owned' (slots j).localPtr =
          owned (slots j).localPtr)
    (hRounds : i ∈ names' → slot.size.toNat + 3 < 2 ^ 32)
    (hOwned :
      i ∈ names' → slot.localPtr ≠ 0 →
        owned' slot.localPtr = some slot.size.toNat)
    (hApart :
      ∀ j ∈ names', j ≠ i → i ∈ names' →
        slot.localPtr ≠ 0 →
          (slots j).localPtr ≠ slot.localPtr) :
    SlotBlocks (Function.update slots i slot) names' owned' := by
  have hOther :
      ∀ j, j ≠ i → Function.update slots i slot j = slots j :=
    fun j hNe => Function.update_of_ne hNe _ _
  refine ⟨fun j hj => ?_, fun j hj hHeld => ?_,
    fun j hj k hk hNe hHeld => ?_⟩
  · by_cases hSame : j = i
    · subst hSame
      rw [Function.update_self]
      exact hRounds hj
    · rw [hOther j hSame]
      exact hBlocks.rounds j (hNames j hj hSame)
  · by_cases hSame : j = i
    · subst hSame
      rw [Function.update_self] at hHeld ⊢
      exact hOwned hj hHeld
    · rw [hOther j hSame] at hHeld ⊢
      rw [hKept j hj hSame hHeld]
      exact hBlocks.owned j (hNames j hj hSame) hHeld
  · by_cases hFirst : j = i
    · subst hFirst
      rw [Function.update_self] at hHeld ⊢
      rw [hOther k (Ne.symm hNe)]
      exact (hApart k hk (Ne.symm hNe) hj hHeld).symm
    · rw [hOther j hFirst] at hHeld ⊢
      by_cases hSecond : k = i
      · subst hSecond
        rw [Function.update_self]
        by_cases hNull : slot.localPtr = 0
        · rw [hNull]
          exact hHeld
        · exact hApart j hj hFirst hk hNull
      · rw [hOther k hSecond]
        exact hBlocks.apart j (hNames j hj hFirst) k
          (hNames k hk hSecond) hNe hHeld

/- No slot that is named has a block that is not live. -/
theorem SlotBlocks.ne_of_fresh
    (hBlocks : SlotBlocks slots names owned)
    {p : Nat}
    (hFresh : owned p = none)
    {j : Nat}
    (hj : j ∈ names)
    (hNull : (slots j).localPtr ≠ 0) :
    (slots j).localPtr ≠ p := by
  rintro rfl
  have hLive := hBlocks.owned j hj hNull
  rw [hFresh] at hLive
  cases hLive

/- A slot takes a new block. -/
theorem SlotBlocks.grant
    (hBlocks : SlotBlocks slots names owned)
    (hNames : ∀ j ∈ names', j ≠ i → j ∈ names)
    (hRounds : slot.size.toNat + 3 < 2 ^ 32)
    (hNull : slot.localPtr ≠ 0)
    (hFresh : owned slot.localPtr = none) :
    SlotBlocks (Function.update slots i slot) names'
      (Heap.grant owned slot.localPtr slot.size.toNat) := by
  refine hBlocks.update hNames (fun j hj hNe hHeld => ?_)
    (fun _ => hRounds) (fun _ _ => grant_self hNull)
    (fun j hj hNe _ _ => ?_)
  · exact grant_of_ne
      (hBlocks.ne_of_fresh hFresh (hNames j hj hNe) hHeld)
  · by_cases hHeld : (slots j).localPtr = 0
    · rw [hHeld]
      exact hNull.symm
    · exact hBlocks.ne_of_fresh hFresh (hNames j hj hNe) hHeld

/- A slot loses its block. -/
theorem SlotBlocks.drop
    (hBlocks : SlotBlocks slots names owned)
    (hName : i ∈ names)
    (hNames : ∀ j ∈ names', j ∈ names)
    (hHeld : (slots i).localPtr ≠ 0)
    (hNull : slot.localPtr = 0)
    (hSize : slot.size = (slots i).size) :
    SlotBlocks (Function.update slots i slot) names'
      (Heap.drop owned (slots i).localPtr) := by
  refine hBlocks.update (fun j hj _ => hNames j hj)
    (fun j hj hNe _ => ?_) (fun _ => ?_)
    (fun _ hContra => absurd hNull hContra)
    (fun _ _ _ _ hContra => absurd hNull hContra)
  · exact Function.update_of_ne
      (hBlocks.apart i hName j (hNames j hj) (Ne.symm hNe)
        hHeld).symm _ _
  · rw [hSize]
    exact hBlocks.rounds i hName

/- A slot without a block is cleared. -/
theorem SlotBlocks.clear
    (hBlocks : SlotBlocks slots names owned)
    (hName : i ∈ names)
    (hNames : ∀ j ∈ names', j ∈ names)
    (hNull : slot.localPtr = 0)
    (hSize : slot.size = (slots i).size) :
    SlotBlocks (Function.update slots i slot) names' owned := by
  refine hBlocks.update (fun j hj _ => hNames j hj)
    (fun _ _ _ _ => rfl) (fun _ => ?_)
    (fun _ hContra => absurd hNull hContra)
    (fun _ _ _ _ hContra => absurd hNull hContra)
  rw [hSize]
  exact hBlocks.rounds i hName

end SlotBlocks

------------------------------------------------------------
-- Handles
------------------------------------------------------------

/- The pointer of a handle is old, or that of its slot. -/
def HandlesKnow
    (slots : Nat → SwapSlot)
    (handles : List SwapSlot) : Prop :=
  ∀ (k : Nat) (handle : SwapSlot),
    handles[k]? = some handle →
      handle.localPtr ≠ 0 ∧
        ((slots handle.offset).localPtr ≠ 0 →
          handle.localPtr = (slots handle.offset).localPtr)

/- What every run keeps whose sizes round. -/
structure Holds
    (pool : Heap.Pool)
    (c : SwapClient)
    (owned : Nat → Option Nat) : Prop where
  tracks : Tracks c.state.budget c.names
  heap :
    ∃ bs, Heap.Invariant pool ⟨c.state.heap, owned⟩ bs
  blocks : SlotBlocks c.state.budget.slots c.names owned
  handles : HandlesKnow c.state.budget.slots c.handles

section Calls

variable {pool : Heap.Pool} {c c' : SwapClient}
variable {owned : Nat → Option Nat}

theorem start_holds
    {hc : Heap.Client}
    (hReach : Heap.Reachable pool hc) :
    Holds pool (SwapClient.start hc.heap) hc.owned := by
  refine ⟨start_tracks hc.heap,
    Heap.reachable_invariant hReach, ⟨?_, ?_, ?_⟩, ?_⟩
  · intro i hNone
    cases hNone
  · intro i hNone
    cases hNone
  · intro i hNone
    cases hNone
  · intro k handle hNone
    cases hNone

/- Handles at two places name two slots. -/
theorem offset_ne
    (hNodup : c.names.Nodup)
    {j k : Nat}
    {handle other : SwapSlot}
    (hHandle : c.handles[k]? = some handle)
    (hOther : c.handles[j]? = some other)
    (hNe : j ≠ k) :
    other.offset ≠ handle.offset := by
  intro hSame
  have hj := names_getElem hOther
  have hk := names_getElem hHandle
  rw [hSame] at hj
  rcases List.getElem?_eq_some_iff.mp hj with ⟨hjLt, hjGet⟩
  rcases List.getElem?_eq_some_iff.mp hk with ⟨hkLt, hkGet⟩
  exact hNe ((hNodup.getElem_inj_iff).mp
    (hjGet.trans hkGet.symm))

theorem Holds.name_mem
    (hHolds : Holds pool c owned)
    {k : Nat}
    {handle : SwapSlot}
    (hHandle : c.handles[k]? = some handle) :
    handle.offset ∈ c.names ∧ handle.offset < swapSlotMax :=
  ⟨List.mem_of_getElem? (names_getElem hHandle),
    (hHolds.tracks.of_handle hHandle).1⟩

/- A slot with a live block of its size. -/
theorem hasPayload_of_owned
    {heap : Heap.State}
    (hHeap : ∃ bs, Heap.Invariant pool ⟨heap, owned⟩ bs)
    {p n : Nat}
    (hOwned : owned p = some n) :
    Heap.HasPayload pool heap p n := by
  rcases hHeap with ⟨bs, hInv⟩
  exact hInv.hasPayload hOwned

/- A heap that grants nothing is as before. -/
theorem malloc_null
    {heap heap' : Heap.State}
    (hHeap : ∃ bs, Heap.Invariant pool ⟨heap, owned⟩ bs)
    {n : Nat}
    (hNone : Heap.malloc heap n = some (0, heap')) :
    heap' = heap := by
  rcases hHeap with ⟨bs, hInv⟩
  rcases Heap.malloc_cases hInv.represents n with
    ⟨hSame, _⟩ | ⟨p, other, hNull, hSome, _⟩
  · rw [hNone] at hSame
    cases hSame
    rfl
  · rw [hNone] at hSome
    cases hSome
    exact absurd rfl hNull

/- A new slot, with a block of its size. -/
theorem Holds.reserve
    (hHolds : Holds pool c owned)
    {s' : State}
    {size : UInt32}
    {region i p : Nat}
    {out : SwapSlot}
    (hAlloc :
      swapSlotAlloc pool c.state size region (some out) =
        some (0, some ⟨true, i, p, size, region⟩, s'))
    (hSlot : c.state.budget.freeSlot = some i)
    (hSlots :
      s'.budget.slots =
        Function.update c.state.budget.slots i
          ⟨true, i, p, size, region⟩)
    (hNull : p ≠ 0)
    (hMalloc :
      Heap.malloc c.state.heap size.toNat = some (p, s'.heap))
    (hRounds : size.toNat + 3 < 2 ^ 32) :
    Holds pool
      ⟨s', c.handles ++ [⟨true, i, p, size, region⟩]⟩
      (Heap.grant owned p size.toNat) := by
  rcases hHolds.heap with ⟨bs, hInv⟩
  rcases malloc_kept hInv hRounds hMalloc with
    ⟨hHeap, hFresh⟩
  have hNames :
      ({ state := s',
          handles :=
            c.handles ++ [⟨true, i, p, size, region⟩] } :
            SwapClient).names =
        c.names ++ [i] := by
    unfold SwapClient.names
    rw [List.map_append]
    rfl
  have hNew : i ∉ c.names := by
    intro hMember
    have hUse := (hHolds.tracks.held i hMember).2
    rw [(freeSlot_eq_some hSlot).2] at hUse
    cases hUse
  refine ⟨?_, hHeap, ?_, ?_⟩
  · rw [hNames]
    rcases swapSlotAlloc_cases hHolds.tracks.sound hAlloc with
      ⟨hRc, _⟩ | ⟨slot, _, hSame, hReserves⟩
    · exact absurd rfl hRc
    · cases hSame
      exact hReserves.tracks hHolds.tracks
  · rw [hNames]
    dsimp only
    rw [hSlots]
    refine hHolds.blocks.grant (fun j hj hNe => ?_) hRounds
      hNull (hFresh hNull)
    rcases List.mem_append.mp hj with hOld | hLast
    · exact hOld
    · exact absurd (List.mem_singleton.mp hLast) hNe
  · intro k handle hHandle
    dsimp only at hHandle ⊢
    rw [List.getElem?_append] at hHandle
    rw [hSlots]
    split at hHandle
    · have hOld := hHolds.name_mem hHandle
      rw [Function.update_of_ne
        (ne_of_mem_of_not_mem hOld.1 hNew)]
      exact hHolds.handles k handle hHandle
    · have hLast := List.mem_of_getElem? hHandle
      rw [List.mem_singleton] at hLast
      subst hLast
      rw [Function.update_self]
      exact ⟨hNull, fun _ => rfl⟩

/- What an allocation keeps, and when its handle matches. -/
theorem alloc_agrees_iff
    (hHolds : Holds pool c owned)
    {size : UInt32}
    {region : Nat}
    {out : SwapSlot}
    (hCall :
      (SwapCall.alloc size region out).run pool c = some c') :
    ((SwapCall.alloc size region out).Rounds c →
        ∃ owned', Holds pool c' owned') ∧
      ((SwapCall.alloc size region out).Agrees pool c ↔
        (SwapCall.alloc size region out).KeepsHandle c) := by
  rcases Option.map_eq_some_iff.mp hCall with
    ⟨⟨rc, out', s'⟩, hAlloc, hEq⟩
  dsimp only at hEq
  -- A call that fails has no handle.
  have hFails :
      rc ≠ 0 →
        (SwapCall.alloc size region out).Agrees pool c := by
    intro hRc handle s hOther
    rw [hAlloc] at hOther
    cases hOther
    exact absurd rfl hRc
  rcases swapSlotAlloc_result hHolds.tracks.sound hAlloc with
    ⟨hRc, heap, hNone, hState⟩ |
    ⟨p, heap, hNull, hMalloc,
      ⟨hRc, hWhy, heap', hFree, hState⟩ |
      ⟨i, kb, hRc, hSlot, hOut, hState, _, _⟩⟩
  · rw [if_neg hRc] at hEq
    cases malloc_null hHolds.heap hNone
    rw [hState] at hEq
    cases hEq
    exact ⟨fun _ => ⟨owned, hHolds⟩,
      iff_of_true (hFails hRc) (.inl (.inr ⟨_, hNone⟩))⟩
  · rw [if_neg hRc, hState] at hEq
    cases hEq
    refine ⟨fun hRounds => ?_, iff_of_true (hFails hRc) ?_⟩
    · rcases hRounds with hRounds | ⟨other, hNone⟩
      · rcases hHolds.heap with ⟨bs, hInv⟩
        rcases malloc_kept hInv hRounds hMalloc with
          ⟨⟨bs', hGranted⟩, hFresh⟩
        have hFreed :=
          free_kept_owned hGranted (grant_self hNull) hFree
        rw [drop_grant (hFresh hNull)] at hFreed
        exact ⟨owned, hHolds.tracks, hFreed, hHolds.blocks,
          hHolds.handles⟩
      · rw [hMalloc] at hNone
        cases hNone
        exact absurd rfl hNull
    · rcases hWhy with hRounds | hFull
      · exact .inl (.inl (by omega))
      · exact .inr hFull
  · subst hRc
    subst hOut
    have hSlots :
        s'.budget.slots =
          Function.update c.state.budget.slots i
            ⟨true, i, p, size, region⟩ := by
      rw [hState]
      rfl
    have hHeap : s'.heap = heap := by
      rw [hState]
    subst hHeap
    rw [if_pos rfl] at hEq
    cases hEq
    have hNotNone :
        ¬ ∃ heap,
          Heap.malloc c.state.heap size.toNat =
            some (0, heap) := by
      rintro ⟨other, hNone⟩
      rw [hMalloc] at hNone
      cases hNone
      exact hNull rfl
    have hReserve :=
      fun hRounds =>
        hHolds.reserve hAlloc hSlot hSlots hNull hMalloc hRounds
    refine ⟨fun hRounds =>
      ⟨_, hReserve (hRounds.resolve_right hNotNone)⟩, ?_⟩
    constructor
    · intro hAgrees
      have hMatches := hAgrees _ _ hAlloc
      have hBlock := hMatches.block
      dsimp only at hBlock
      rw [hSlots, Function.update_self] at hBlock
      exact .inl (.inl (hBlock hNull).size_lt)
    · intro hKeeps handle s hOther
      rw [hAlloc] at hOther
      cases hOther
      have hRounds : size.toNat + 3 < 2 ^ 32 := by
        rcases hKeeps with hRounds | hFull
        · exact hRounds.resolve_right hNotNone
        · rw [hSlot] at hFull
          cases hFull
      constructor
      · dsimp only
        rw [hSlots, Function.update_self]
      · dsimp only
        rw [hSlots, Function.update_self]
        intro _
        exact hasPayload_of_owned (hReserve hRounds).heap
          (grant_self hNull)

/- The slot of a handle that is evicted has no memory. -/
theorem swapEvict_result
    {s s' : State}
    {handle : SwapSlot}
    {rc : Int}
    (hOffset : handle.offset < swapSlotMax)
    (hCall : swapEvict pool s (some handle) = some (rc, s')) :
    rc = 0 ∧
      (((s.budget.slots handle.offset).localPtr = 0 ∧
          s' = s) ∨
        ((s.budget.slots handle.offset).localPtr ≠ 0 ∧
          ∃ heap,
            Heap.free pool s.heap
                (s.budget.slots handle.offset).localPtr =
              some heap ∧
            s' =
              ⟨s.budget.setSlot handle.offset
                { s.budget.slots handle.offset with
                  localPtr := 0 }, heap⟩)) := by
  unfold swapEvict at hCall
  dsimp only at hCall
  rw [if_neg (Nat.not_le.mpr hOffset)] at hCall
  by_cases hGone :
      (s.budget.slots handle.offset).localPtr = 0
  · rw [if_pos hGone] at hCall
    cases hCall
    exact ⟨rfl, .inl ⟨hGone, rfl⟩⟩
  · rw [if_neg hGone] at hCall
    rcases Option.map_eq_some_iff.mp hCall with
      ⟨heap, hFree, hEq⟩
    cases hEq
    exact ⟨rfl, .inr ⟨hGone, heap, hFree, rfl⟩⟩

/- A slot that loses its block leaves handles old. -/
theorem HandlesKnow.clear
    {slots : Nat → SwapSlot}
    {handles : List SwapSlot}
    (hKnow : HandlesKnow slots handles)
    {i : Nat}
    {slot : SwapSlot}
    (hNull : slot.localPtr = 0) :
    HandlesKnow (Function.update slots i slot) handles := by
  intro k handle hHandle
  rcases hKnow k handle hHandle with ⟨hSome, hSame⟩
  refine ⟨hSome, fun hHeld => ?_⟩
  by_cases hSlot : handle.offset = i
  · rw [hSlot, Function.update_self] at hHeld
    exact absurd hNull hHeld
  · rw [Function.update_of_ne hSlot] at hHeld ⊢
    exact hSame hHeld

theorem HandlesKnow.erase
    {slots : Nat → SwapSlot}
    {handles : List SwapSlot}
    (hKnow : HandlesKnow slots handles)
    (k : Nat) :
    HandlesKnow slots (handles.eraseIdx k) := by
  intro j other hOther
  rw [List.getElem?_eraseIdx] at hOther
  split at hOther
  · exact hKnow j other hOther
  · exact hKnow (j + 1) other hOther

/- An evicted handle still points to the memory. -/
theorem evict_agrees_iff
    (hHolds : Holds pool c owned)
    {k : Nat}
    (hCall : (SwapCall.evict k).run pool c = some c') :
    (∃ owned', Holds pool c' owned') ∧
      ((SwapCall.evict k).Agrees pool c ↔
        (SwapCall.evict k).KeepsHandle c) := by
  rcases Option.bind_eq_some_iff.mp hCall with
    ⟨handle, hHandle, hMap⟩
  rcases Option.map_eq_some_iff.mp hMap with
    ⟨⟨rc, s'⟩, hEvict, hEq⟩
  cases hEq
  rcases hHolds.name_mem hHandle with ⟨hName, hOffset⟩
  rcases swapEvict_result hOffset hEvict with ⟨rfl, hResult⟩
  have hGone :
      (s'.budget.slots handle.offset).localPtr = 0 := by
    rcases hResult with ⟨hGone, rfl⟩ | ⟨_, heap, _, rfl⟩
    · exact hGone
    · rw [setSlot_self]
  refine ⟨?_, iff_of_false (fun hAgrees => ?_)
    (fun hNone => ?_)⟩
  · rcases hResult with ⟨_, rfl⟩ | ⟨hHeld, heap, hFree, rfl⟩
    · exact ⟨owned, hHolds⟩
    · rcases hHolds.heap with ⟨bs, hInv⟩
      have hOwned := hHolds.blocks.owned _ hName hHeld
      exact ⟨_,
        (swapEvict_repoints hEvict).tracks hHolds.tracks,
        free_kept_owned hInv hOwned hFree,
        hHolds.blocks.drop hName (fun _ hj => hj) hHeld rfl rfl,
        hHolds.handles.clear rfl⟩
  · have hSame := (hAgrees handle s' hHandle hEvict).same
    rw [hGone] at hSame
    exact (hHolds.handles k handle hHandle).1 hSame
  · have hNot : c.handles[k]? = none := hNone
    rw [hHandle] at hNot
    cases hNot

/- A restored handle takes the new block of its slot. -/
theorem Holds.restore
    (hHolds : Holds pool c owned)
    {k p : Nat}
    {handle : SwapSlot}
    {heap : Heap.State}
    (hHandle : c.handles[k]? = some handle)
    (hNull : p ≠ 0)
    (hMalloc :
      Heap.malloc c.state.heap
          (c.state.budget.slots handle.offset).size.toNat =
        some (p, heap)) :
    Holds pool
      ⟨⟨c.state.budget.setSlot handle.offset
          { c.state.budget.slots handle.offset with
            localPtr := p }, heap⟩,
        c.handles.set k { handle with localPtr := p }⟩
      (Heap.grant owned p
        (c.state.budget.slots handle.offset).size.toNat) := by
  rcases hHolds.name_mem hHandle with ⟨hName, _⟩
  have hRounds := hHolds.blocks.rounds _ hName
  rcases hHolds.heap with ⟨bs, hInv⟩
  rcases malloc_kept hInv hRounds hMalloc with
    ⟨hHeap, hFresh⟩
  have hNames :
      (c.handles.set k { handle with localPtr := p }).map
          SwapSlot.offset =
        c.names :=
    names_set hHandle rfl
  have hTracks :
      Tracks
        (c.state.budget.setSlot handle.offset
          { c.state.budget.slots handle.offset with
            localPtr := p })
        c.names :=
    Repoints.tracks (.inr ⟨p, rfl⟩) hHolds.tracks
  refine ⟨?_, hHeap, ?_, ?_⟩
  · unfold SwapClient.names
    rw [hNames]
    exact hTracks
  · unfold SwapClient.names
    rw [hNames]
    exact hHolds.blocks.grant (fun _ hj _ => hj) hRounds hNull
      (hFresh hNull)
  · intro j other hOther
    change
      other.localPtr ≠ 0 ∧
        ((Function.update c.state.budget.slots handle.offset
            { c.state.budget.slots handle.offset with
              localPtr := p } other.offset).localPtr ≠ 0 →
          other.localPtr = _)
    dsimp only at hOther
    rw [List.getElem?_set] at hOther
    by_cases hSame : k = j
    · rw [if_pos hSame] at hOther
      split at hOther
      · cases hOther
        refine ⟨hNull, fun _ => ?_⟩
        dsimp only
        rw [setSlot_self]
      · cases hOther
    · rw [if_neg hSame] at hOther
      have hNe :=
        offset_ne hHolds.tracks.nodup hHandle hOther
          (Ne.symm hSame)
      rw [Function.update_of_ne hNe]
      dsimp only
      rw [setSlot_of_ne _ _ _ hNe]
      exact hHolds.handles j other hOther

/- What a restored slot and its handle are. -/
theorem swapRestore_result
    {s s' : State}
    {handle : SwapSlot}
    {out : Option SwapSlot}
    {rc : Int}
    (hOffset : handle.offset < swapSlotMax)
    (hCall : swapRestore s (some handle) = some (rc, out, s')) :
    ((s.budget.slots handle.offset).localPtr ≠ 0 ∧
        out = some handle ∧ s' = s) ∨
      ∃ p heap,
        Heap.malloc s.heap
            (s.budget.slots handle.offset).size.toNat =
          some (p, heap) ∧
        ((p = 0 ∧ rc ≠ 0 ∧ out = some handle ∧
            s' = { s with heap }) ∨
          (p ≠ 0 ∧
            out = some { handle with localPtr := p } ∧
            s' =
              ⟨s.budget.setSlot handle.offset
                { s.budget.slots handle.offset with
                  localPtr := p }, heap⟩)) := by
  unfold swapRestore at hCall
  dsimp only at hCall
  rw [if_neg (Nat.not_le.mpr hOffset)] at hCall
  by_cases hHeld :
      (s.budget.slots handle.offset).localPtr ≠ 0
  · rw [if_pos hHeld] at hCall
    cases hCall
    exact .inl ⟨hHeld, rfl, rfl⟩
  rw [if_neg hHeld] at hCall
  rcases Option.map_eq_some_iff.mp hCall with
    ⟨⟨p, heap⟩, hMalloc, hGot⟩
  dsimp only at hGot
  refine .inr ⟨p, heap, hMalloc, ?_⟩
  by_cases hNull : p = 0
  · rw [if_pos hNull] at hGot
    cases hGot
    exact .inl ⟨hNull, by decide, rfl, rfl⟩
  · rw [if_neg hNull] at hGot
    cases hGot
    exact .inr ⟨hNull, rfl, rfl⟩

/- A handle that is stored back unchanged changes nothing. -/
theorem handles_set_same
    {k : Nat}
    {handle : SwapSlot}
    (hHandle : c.handles[k]? = some handle) :
    c.handles.set k handle = c.handles := by
  rcases List.getElem?_eq_some_iff.mp hHandle with ⟨hk, hGet⟩
  rw [← hGet]
  exact List.set_getElem_self hk

theorem restore_agrees
    (hHolds : Holds pool c owned)
    {k : Nat}
    (hCall : (SwapCall.restore k).run pool c = some c') :
    (∃ owned', Holds pool c' owned') ∧
      (SwapCall.restore k).Agrees pool c := by
  rcases Option.bind_eq_some_iff.mp hCall with
    ⟨handle, hHandle, hMap⟩
  rcases Option.map_eq_some_iff.mp hMap with
    ⟨⟨rc, out', s'⟩, hRestore, hEq⟩
  cases hEq
  rcases hHolds.name_mem hHandle with ⟨hName, hOffset⟩
  -- The handle and the outcome in `Agrees` are these.
  have hAgrees :
      (∀ handle', out' = some handle' → rc = 0 →
        Matches pool s' handle') →
      (SwapCall.restore k).Agrees pool c := by
    intro hMatches other handle' s hOther hAgain
    rw [hHandle] at hOther
    cases hOther
    rw [hRestore] at hAgain
    cases hAgain
    exact hMatches _ rfl rfl
  rcases swapRestore_result hOffset hRestore with
    ⟨hHeld, rfl, rfl⟩ |
    ⟨p, heap, hMalloc,
      ⟨rfl, hRc, rfl, rfl⟩ | ⟨hNull, rfl, rfl⟩⟩
  · -- The slot is in memory, and nothing is done.
    rw [Option.getD_some, handles_set_same hHandle]
    refine ⟨⟨owned, hHolds⟩, hAgrees fun handle' hOut _ => ?_⟩
    cases hOut
    exact ⟨(hHolds.handles k handle hHandle).2 hHeld,
      fun _ => hasPayload_of_owned hHolds.heap
        (hHolds.blocks.owned _ hName hHeld)⟩
  · cases malloc_null hHolds.heap hMalloc
    rw [Option.getD_some, handles_set_same hHandle]
    exact ⟨⟨owned, hHolds⟩,
      hAgrees fun _ _ hZero => absurd hZero hRc⟩
  · have hNext := hHolds.restore hHandle hNull hMalloc
    refine ⟨⟨_, hNext⟩, hAgrees fun handle' hOut _ => ?_⟩
    cases hOut
    constructor
    · dsimp only
      rw [setSlot_self]
    · dsimp only
      rw [setSlot_self]
      intro _
      exact hasPayload_of_owned hNext.heap (grant_self hNull)

/- A freed handle is gone, with the memory of its slot. -/
theorem free_holds
    (hHolds : Holds pool c owned)
    {k : Nat}
    (hCall : (SwapCall.free k).run pool c = some c') :
    ∃ owned', Holds pool c' owned' := by
  rcases Option.bind_eq_some_iff.mp hCall with
    ⟨handle, hHandle, hMap⟩
  rcases Option.map_eq_some_iff.mp hMap with
    ⟨s', hFree, hEq⟩
  cases hEq
  rcases hHolds.name_mem hHandle with ⟨hName, hOffset⟩
  have hAt := names_getElem hHandle
  have hNames :
      (c.handles.eraseIdx k).map SwapSlot.offset =
        c.names.eraseIdx k :=
    (List.eraseIdx_map _ _ _).symm
  have hLeft : ∀ j ∈ c.names.eraseIdx k, j ∈ c.names :=
    fun j hj => List.mem_of_mem_eraseIdx hj
  let cleared : SwapSlot :=
    { c.state.budget.slots handle.offset with
      inUse := false
      localPtr := 0 }
  have hNull : cleared.localPtr = 0 := rfl
  have hKnow :
      HandlesKnow
        (Function.update c.state.budget.slots handle.offset
          cleared)
        (c.handles.eraseIdx k) :=
    (hHolds.handles.clear hNull).erase k
  unfold swapSlotFree at hFree
  dsimp only at hFree
  rw [if_neg (Nat.not_le.mpr hOffset)] at hFree
  by_cases hHeld :
      (c.state.budget.slots handle.offset).localPtr ≠ 0
  · rw [if_pos hHeld] at hFree
    rcases Option.map_eq_some_iff.mp hFree with
      ⟨heap, hFreed, hState⟩
    cases hState
    rcases memoryBudgetFree_eq c.state.budget
        (c.state.budget.slots handle.offset).size with
      ⟨kb, hBudget, hKb⟩
    have hUsed := hHolds.tracks.sound.used
    have hLow : kb.toNat ≤ 4096 := by
      omega
    have hSound := hHolds.tracks.sound.setUsed hLow
    rcases hHolds.heap with ⟨bs, hInv⟩
    have hOwned := hHolds.blocks.owned _ hName hHeld
    refine ⟨Heap.drop owned _, ?_,
      free_kept_owned hInv hOwned hFreed, ?_, ?_⟩
    · unfold SwapClient.names
      dsimp only
      rw [hNames, hBudget]
      exact free_tracks hHolds.tracks hAt hSound rfl rfl
    · unfold SwapClient.names
      dsimp only
      rw [hNames, hBudget]
      exact hHolds.blocks.drop hName hLeft hHeld rfl rfl
    · dsimp only
      rw [hBudget]
      exact hKnow
  · rw [if_neg hHeld] at hFree
    cases hFree
    refine ⟨owned, ?_, hHolds.heap, ?_, hKnow⟩
    · unfold SwapClient.names
      dsimp only
      rw [hNames]
      exact free_tracks hHolds.tracks hAt hHolds.tracks.sound
        rfl rfl
    · unfold SwapClient.names
      dsimp only
      rw [hNames]
      exact hHolds.blocks.clear hName hLeft rfl rfl

/- What one call keeps, and when its handle matches. -/
theorem run_agrees_iff
    (hHolds : Holds pool c owned)
    {call : SwapCall}
    (hCall : call.run pool c = some c') :
    (call.Rounds c → ∃ owned', Holds pool c' owned') ∧
      (call.Agrees pool c ↔ call.KeepsHandle c) := by
  cases call with
  | alloc size region out =>
      exact alloc_agrees_iff hHolds hCall
  | evict k =>
      have hStep := evict_agrees_iff hHolds hCall
      exact ⟨fun _ => hStep.1, hStep.2⟩
  | restore k =>
      have hStep := restore_agrees hHolds hCall
      exact ⟨fun _ => hStep.1, iff_of_true hStep.2 trivial⟩
  | free k =>
      exact ⟨fun _ => free_holds hHolds hCall, Iff.rfl⟩

end Calls

------------------------------------------------------------
-- Runs
------------------------------------------------------------

/-
  In a run on any heap whose sizes round and that evicts no
  handle, every handle matches its slot.  In any run whose
  sizes round, evictions or not, a call leaves its handle
  matching exactly if it keeps it.
-/
theorem handles_agree_iff
    {pool : Heap.Pool}
    {hc : Heap.Client}
    (hReach : Heap.Reachable pool hc)
    (calls : List SwapCall) :
    (EveryStep (fun c call => SwapCall.run pool c call)
          (fun c call => call.Rounds c ∧ call.KeepsHandle c)
          (SwapClient.start hc.heap) calls →
        EveryStep (fun c call => SwapCall.run pool c call)
          (fun c call => call.Agrees pool c)
          (SwapClient.start hc.heap) calls) ∧
      (EveryStep (fun c call => SwapCall.run pool c call)
          (fun c call => call.Rounds c)
          (SwapClient.start hc.heap) calls →
        ∀ call,
          EveryStep (fun c call => SwapCall.run pool c call)
            (fun c call =>
              call.Agrees pool c ↔ call.KeepsHandle c)
            (SwapClient.start hc.heap) (calls ++ [call])) := by
  have hStart :
      ∃ owned, Holds pool (SwapClient.start hc.heap) owned :=
    ⟨_, start_holds hReach⟩
  have hStep :
      ∀ c call c', (∃ owned, Holds pool c owned) →
        SwapCall.run pool c call = some c' →
          (call.Rounds c → ∃ owned, Holds pool c' owned) ∧
            (call.Agrees pool c ↔ call.KeepsHandle c) := by
    rintro c call c' ⟨owned, hHolds⟩ hCall
    exact run_agrees_iff hHolds hCall
  have hMeets :
      ∀ c call c', (∃ owned, Holds pool c owned) →
        call.Rounds c ∧ call.KeepsHandle c →
          SwapCall.run pool c call = some c' →
            (∃ owned, Holds pool c' owned) ∧
              call.Agrees pool c := by
    rintro c call c' hHolds ⟨hRounds, hKeeps⟩ hCall
    have hBoth := hStep c call c' hHolds hCall
    exact ⟨hBoth.1 hRounds, hBoth.2.mpr hKeeps⟩
  exact ⟨everyStep_of hMeets hStart,
    everyStep_append hStep hStart⟩

/- A slot of one kilobyte and its eviction. -/
theorem handles_agree_iff_evicted :
    EveryStep
      (fun c call => SwapCall.run Heap.samplePool c call)
      (fun c call =>
        call.Agrees Heap.samplePool c ↔ call.KeepsHandle c)
      (SwapClient.start
        (Heap.initMemoryManager Heap.samplePool
          ByteMem.zeros))
      [.alloc 1000 budgetApp ⟨false, 0, 0, 0, 0⟩,
        .evict 0] := by
  have hReach :
      Heap.Reachable Heap.samplePool
        (.start Heap.samplePool ByteMem.zeros) :=
    .start ByteMem.zeros
  have hRun :=
    (handles_agree_iff hReach
      [.alloc 1000 budgetApp ⟨false, 0, 0, 0, 0⟩]).2
  refine hRun ?_ (.evict 0)
  intro c' _
  exact ⟨.inl (by decide), trivial⟩

/- The handle of an evicted slot keeps its pointer. -/
theorem not_handles_agree :
    ¬ EveryStep
      (fun c call => SwapCall.run Heap.samplePool c call)
      (fun c call => call.Agrees Heap.samplePool c)
      (SwapClient.start
        (Heap.initMemoryManager Heap.samplePool
          ByteMem.zeros))
      [.alloc 1000 budgetApp ⟨false, 0, 0, 0, 0⟩,
        .evict 0] := by
  intro hRun
  rcases hRun _ rfl with ⟨_, hEvict⟩
  rcases hEvict _ rfl with ⟨hAgrees, _⟩
  have hMatches := hAgrees _ _ rfl rfl
  have hSame := hMatches.same
  revert hSame
  decide +kernel

end Swap

end AsmOS
