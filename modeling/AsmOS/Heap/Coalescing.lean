import AsmOS.Heap.RequestedSize

/-
  Whether free space stays in one piece.

  `free` sweeps the list and merges adjacent free blocks; a
  `realloc` that splits its block in place does not.  Once
  every payload is released again, the last sweep has left
  one free block.

  Main declarations:
    * `State.Coalesced`, `State.CanHold`, `State.Initial`
    * `HeapCall.LeavesFragment`, `SweptRun`
    * `Represents.unique`
    * `run_change`
    * `coalesced_iff`
    * `reachable_initial`
-/

------------------------------------------------------------
-- Statements
------------------------------------------------------------

namespace AsmOS

namespace Heap

open ByteMem BlockTiling

/- The addresses of the blocks of the heap's list. -/
def State.Lists
    (heap : State)
    (addrs : List Nat) : Prop :=
  Linked.Walks (blockNext heap.mem) (fun a => a = 0)
    heap.freeList addrs

/- No two consecutive blocks of the list are both free. -/
def State.Coalesced
    (heap : State) : Prop :=
  ∀ addrs, heap.Lists addrs →
    addrs.IsChain fun a b =>
      ¬ (blockFree heap.mem a ≠ 0 ∧ blockFree heap.mem b ≠ 0)

/-
  Consecutive free blocks of the list that have `n` bytes
  behind the first header.
-/
structure State.FreeRegion
    (heap : State)
    (region : List Nat)
    (n : Nat) : Prop where
  some_block : region ≠ []
  free : ∀ a ∈ region, blockFree heap.mem a ≠ 0
  listed : ∃ addrs, heap.Lists addrs ∧ region <:+: addrs
  room :
    12 + n ≤
      (region.map fun a => 12 + blockSize heap.mem a).sum

/- Some contiguous free region can hold `n` bytes. -/
def State.CanHold
    (heap : State)
    (n : Nat) : Prop :=
  ∃ region, heap.FreeRegion region n

/- `malloc` of a positive size fails only for want of room. -/
def State.FailsForRoom
    (heap : State) : Prop :=
  ∀ n heap', 0 < n → n + 3 < 2 ^ 32 →
    malloc heap n = some (0, heap') →
      ¬ heap.CanHold (align n)

/- One free block at the pool base that spans the pool. -/
structure State.Initial
    (pool : Pool)
    (heap : State) : Prop where
  head : heap.freeList = pool.base
  size :
    blockSize heap.mem pool.base =
      memoryPoolSize - sizeofMemBlock
  free : blockFree heap.mem pool.base = 1
  next : blockNext heap.mem pool.base = 0

/-
  The call is a `realloc` that keeps its block in place and
  splits it, and the block behind it is free.
-/
def HeapCall.LeavesFragment
    (c : Client) : HeapCall → Prop
| .realloc p n =>
    let block := p - sizeofMemBlock
    let next := blockNext c.heap.mem block
    p ≠ 0 ∧ n ≠ 0 ∧ n ≤ blockSize c.heap.mem block ∧
      align n + sizeofMemBlock + alignment ≤
        blockSize c.heap.mem block ∧
      next ≠ 0 ∧ blockFree c.heap.mem next ≠ 0
| _ => False

/- The states of runs without a call that leaves a fragment. -/
inductive SweptRun
    (pool : Pool) : Client → Prop where
| start (mem : ByteMem) : SweptRun pool (.start pool mem)
| call
    {c c' : Client}
    {r : Nat}
    (call : HeapCall)
    (hRun : SweptRun pool c)
    (hValid : call.Valid c)
    (hSweeps : ¬ call.LeavesFragment c)
    (hCall : call.run pool c = some (r, c')) :
    SweptRun pool c'
| write
    {c : Client}
    {p n i : Nat}
    (v : UInt8)
    (hRun : SweptRun pool c)
    (hOwned : c.owned p = some n)
    (hi : i < n) :
    SweptRun pool (c.write p i v)

theorem SweptRun.reachable
    {pool : Pool}
    {c : Client}
    (hRun : SweptRun pool c) :
    Reachable pool c := by
  induction hRun with
  | start mem => exact .start mem
  | call call _ hValid _ hCall ih =>
      exact ih.call call hValid hCall
  | write v _ hOwned hi ih => exact ih.write v hOwned hi

------------------------------------------------------------
-- The Blocks Of A Heap
------------------------------------------------------------

section Blocks

variable {pool : Pool} {heap : State} {mem : ByteMem}
variable {a e : Nat} {b c : HeapBlock}
variable {bs bs' pre post : List HeapBlock}

theorem block_eq
    (hSize : b.size = c.size)
    (hFree : b.free = c.free) :
    b = c := by
  cases b
  cases c
  cases hSize
  cases hFree
  rfl

/- Lists of the same extent with headers at one address. -/
theorem Headers.unique
    (hHeaders : Headers mem e a bs)
    (hHeaders' : Headers mem e a bs')
    (hExtent : extent bs = extent bs') :
    bs = bs' := by
  induction bs generalizing a bs' with
  | nil =>
      cases bs' with
      | nil => rfl
      | cons b' bs' =>
          rw [extent_cons] at hExtent
          simp only [extent] at hExtent
          omega
  | cons b bs ih =>
      cases bs' with
      | nil =>
          rw [extent_cons] at hExtent
          simp only [extent] at hExtent
          omega
      | cons b' bs' =>
          rcases hHeaders with ⟨hSize, _, hFree, hRest⟩
          rcases hHeaders' with ⟨hSize', _, hFree', hRest'⟩
          have hSame : b.size = b'.size := by
            rw [← hSize, ← hSize']
          have hMark : b.free = b'.free := by
            rw [hFree] at hFree'
            revert hFree'
            cases b.free <;> cases b'.free <;> simp
          rw [extent_cons, extent_cons] at hExtent
          rw [← hSame] at hRest'
          rw [block_eq hSame hMark,
            ih hRest hRest' (by omega)]

/- A heap has one list of blocks. -/
theorem Represents.unique
    (hHeap : Represents pool heap bs)
    (hHeap' : Represents pool heap bs') :
    bs = bs' :=
  hHeap.headers.unique hHeap'.headers
    (hHeap.total.trans hHeap'.total.symm)

/- The addresses found in memory are the block starts. -/
theorem Represents.lists_iff
    (hHeap : Represents pool heap bs)
    {addrs : List Nat} :
    heap.Lists addrs ↔ addrs = starts pool.base bs := by
  constructor
  · intro hLists
    exact Linked.Walks.unique hLists hHeap.tiled.walk
  · rintro rfl
    exact hHeap.tiled.walk

theorem Headers.isChain_iff
    (hHeaders : Headers mem e a bs) :
    ((starts a bs).IsChain fun x y =>
        ¬ (blockFree mem x ≠ 0 ∧ blockFree mem y ≠ 0)) ↔
      BlockTiling.Coalesced bs := by
  unfold BlockTiling.Coalesced
  induction bs generalizing a with
  | nil => simp [starts]
  | cons b bs ih =>
      rcases hHeaders with ⟨_, _, hFree, hRest⟩
      cases bs with
      | nil => simp [starts]
      | cons c cs =>
          have hRest' := ih hRest
          have hFree' := hRest.2.2.1
          rw [starts_cons] at hRest'
          rw [starts_cons, starts_cons, List.isChain_cons_cons,
            List.isChain_cons_cons, hRest', hFree, hFree']
          cases b.free <;> cases c.free <;> simp

theorem Represents.coalesced_iff_blocks
    (hHeap : Represents pool heap bs) :
    heap.Coalesced ↔ BlockTiling.Coalesced bs := by
  rw [← hHeap.headers.isChain_iff]
  unfold State.Coalesced
  simp only [hHeap.lists_iff, forall_eq]

/- A part of the starts is the starts of a part. -/
theorem starts_eq_append
    {xs ys : List Nat}
    (hStarts : starts a bs = xs ++ ys) :
    ∃ pre post, bs = pre ++ post ∧ xs = starts a pre ∧
      ys = starts (a + extent pre) post := by
  induction xs generalizing a bs with
  | nil => exact ⟨[], bs, rfl, rfl, hStarts.symm⟩
  | cons x xs ih =>
      cases bs with
      | nil => simp [starts] at hStarts
      | cons b bs =>
          rw [starts_cons, List.cons_append,
            List.cons.injEq] at hStarts
          rcases ih hStarts.2 with
            ⟨pre, post, rfl, hLeft, hRight⟩
          refine ⟨b :: pre, post, rfl, ?_, ?_⟩
          · rw [starts_cons, ← hLeft, hStarts.1]
          · rw [hRight, extent_cons]
            congr 1
            omega

/- The blocks of a free region. -/
theorem Represents.region_blocks
    (hHeap : Represents pool heap bs)
    {region : List Nat}
    {n : Nat}
    (hRegion : heap.FreeRegion region n) :
    ∃ pre mid post, bs = pre ++ mid ++ post ∧ mid ≠ [] ∧
      (∀ b ∈ mid, b.free = true) ∧ 12 + n ≤ extent mid := by
  rcases hRegion.listed with ⟨addrs, hLists, before, after, hAll⟩
  rw [hHeap.lists_iff.mp hLists] at hAll
  rcases starts_eq_append hAll.symm with
    ⟨front, post, rfl, hFront, _⟩
  rcases starts_eq_append hFront.symm with
    ⟨pre, mid, rfl, _, hMid⟩
  have hParts := (headers_append.mp hHeap.headers).1
  have hHeaders := (headers_append.mp hParts).2
  refine ⟨pre, mid, post, rfl, ?_, ?_, ?_⟩
  · rintro rfl
    exact hRegion.some_block (by rw [hMid]; rfl)
  · intro b hMember
    by_contra hBusy
    rcases List.append_of_mem hMember with ⟨left, right, rfl⟩
    have hMark := (headers_append.mp hHeaders).2.2.2.1
    refine hRegion.free
      (pool.base + extent pre + extent left) ?_ ?_
    · rw [hMid, starts_append]
      exact List.mem_append_right _ List.mem_cons_self
    · rw [hMark, if_neg hBusy]
  · have hRoom := hRegion.room
    rw [hMid, hHeaders.sum_sizes] at hRoom
    exact hRoom

/- In a coalesced heap a free region is one block. -/
theorem Represents.canHold_block
    (hHeap : Represents pool heap bs)
    (hCoalesced : BlockTiling.Coalesced bs)
    {n : Nat}
    (hHold : heap.CanHold n) :
    ∃ b ∈ bs, b.free = true ∧ n ≤ b.size := by
  rcases hHold with ⟨region, hRegion⟩
  rcases hHeap.region_blocks hRegion with
    ⟨pre, mid, post, rfl, hNe, hFree, hRoom⟩
  have hMid := hCoalesced.of_append.1.of_append.2
  rcases hMid.eq_singleton hNe hFree with ⟨b, rfl⟩
  refine ⟨b, by simp, hFree b (by simp), ?_⟩
  simp only [extent, heapGeometry_header] at hRoom
  omega

theorem Represents.failsForRoom
    (hHeap : Represents pool heap bs)
    (hCoalesced : BlockTiling.Coalesced bs) :
    heap.FailsForRoom := by
  intro n heap' hPos hn hNull hHold
  rcases hHeap.canHold_block hCoalesced hHold with
    ⟨b, hMember, hFree, hFits⟩
  rcases malloc_spec hHeap hn with
    ⟨_, hNone⟩ | ⟨p, _, _, _, hPtr, hCall, _⟩
  · have hSmall := hNone.resolve_left (by omega) b hMember hFree
    omega
  · rw [hCall, Option.some.injEq, Prod.mk.injEq] at hNull
    exact hPtr hNull.1

/- The block behind a block is free. -/
theorem Represents.next_free_iff
    (hHeap : Represents pool heap (pre ++ b :: post)) :
    (blockNext heap.mem (pool.base + extent pre) ≠ 0 ∧
        blockFree heap.mem
          (blockNext heap.mem (pool.base + extent pre)) ≠
            0) ↔
      ∃ c ∈ post.head?, c.free = true := by
  rcases (headers_append.mp hHeap.headers).2 with
    ⟨_, hNext, _, hRest⟩
  have hBase := pool.base_pos
  rw [hNext]
  cases post with
  | nil => simp
  | cons c cs =>
      rw [link_cons, hRest.free_iff]
      simp only [List.head?_cons, Option.mem_some_iff,
        exists_eq_left', and_iff_right_iff_imp]
      omega

/- A heap of one free block is the initial heap. -/
theorem Represents.initial
    (hHeap : Represents pool heap bs)
    (hCoalesced : BlockTiling.Coalesced bs)
    (hNone : payloads pool bs = []) :
    heap.Initial pool := by
  have hFree := free_of_busy_nil hNone
  rcases hCoalesced.eq_singleton hHeap.ne_nil hFree with
    ⟨b, rfl⟩
  have hTotal := hHeap.total
  rcases hHeap.headers with ⟨hSize, hNext, hMark, _⟩
  simp only [extent, heapGeometry_header] at hTotal
  refine ⟨hHeap.head, ?_, ?_, hNext⟩
  · rw [hSize]
    simp only [sizeofMemBlock]
    omega
  · rw [hMark, if_pos (hFree b (by simp))]

end Blocks

------------------------------------------------------------
-- What A Call Does To The Blocks
------------------------------------------------------------

/-
  A free block is handed out, or the list is swept, or a
  `realloc` trims the block that was passed to it.
-/
inductive Change
    (pool : Pool)
    (c : Client)
    (bs bs' : List HeapBlock) : HeapCall → Prop where
| handsOut
    {call : HeapCall}
    (hWhole : ¬ call.LeavesFragment c)
    (hHands : HandsOut bs bs') :
    Change pool c bs bs' call
| swept
    {call : HeapCall}
    (hWhole : ¬ call.LeavesFragment c)
    (hSwept : BlockTiling.Coalesced bs') :
    Change pool c bs bs' call
| trims
    {p n : Nat}
    {pre : List HeapBlock}
    {b : HeapBlock}
    {post : List HeapBlock}
    (hPos : 0 < n)
    (hFits : n ≤ b.size)
    (hTrims : Trims pool bs bs' p (align n) pre b post) :
    Change pool c bs bs' (.realloc p n)

/- The blocks after a call that returned `r`. -/
structure Changed
    (pool : Pool)
    (c : Client)
    (heap' : State)
    (bs bs' : List HeapBlock)
    (call : HeapCall)
    (r : Nat) : Prop where
  represents : Represents pool heap' bs'
  onlyAdds : OnlyAdds pool bs bs' call.passed r
  change : Change pool c bs bs' call

section Run

variable {pool : Pool} {c : Client}
variable {bs : List HeapBlock}

theorem malloc_changed
    {n : Nat}
    (hInv : Invariant pool c bs)
    (hn : n + 3 < 2 ^ 32)
    {call : HeapCall}
    (hPassed : call.passed = 0)
    (hWhole : ¬ call.LeavesFragment c) :
    malloc c.heap n = some (0, c.heap) ∨
      ∃ r heap' bs', malloc c.heap n = some (r, heap') ∧
        r ≠ 0 ∧ (∃ s, n ≤ s ∧ (r, s) ∈ payloads pool bs') ∧
        Changed pool c heap' bs bs' call r := by
  rcases malloc_handsOut hInv.represents hn with
    ⟨hNone, _⟩ |
    ⟨r, heap', bs', _, hNull, hCall, hGrants, hHands⟩
  · exact Or.inl hNone
  · refine Or.inr ⟨r, heap', bs', hCall, hNull,
      hGrants.member, hGrants.represents, ?_,
      .handsOut hWhole hHands⟩
    rw [hPassed]
    exact hGrants.onlyAdds

theorem run_malloc_changed
    (hInv : Invariant pool c bs)
    {n : Nat}
    (hn : n + 3 < 2 ^ 32)
    {call : HeapCall}
    (hPassed : call.passed = 0)
    (hWhole : ¬ call.LeavesFragment c) :
    (HeapCall.malloc n).run pool c = some (0, c) ∨
      ∃ r c' bs',
        (HeapCall.malloc n).run pool c = some (r, c') ∧
        Changed pool c c'.heap bs bs' call r := by
  rcases malloc_changed hInv hn hPassed hWhole with
    hNone | ⟨r, heap', bs', hCall, _, _, hChanged⟩
  · left
    rw [run_of_malloc hNone]
    simp [grant]
  · exact Or.inr ⟨r, _, bs', run_of_malloc hCall, hChanged⟩

theorem run_calloc_changed
    (hInv : Invariant pool c bs)
    {nmemb size : Nat}
    (hn : callocSize nmemb size + 3 < 2 ^ 32) :
    (HeapCall.calloc nmemb size).run pool c = some (0, c) ∨
      ∃ r c' bs',
        (HeapCall.calloc nmemb size).run pool c =
          some (r, c') ∧
        Changed pool c c'.heap bs bs' (.calloc nmemb size)
          r := by
  have hPassed : (HeapCall.calloc nmemb size).passed = 0 := rfl
  rcases malloc_changed hInv hn hPassed id with
    hNone | ⟨r, heap', bs', hCall, hNull, ⟨s, hSize, hMember⟩,
      hChanged⟩
  · left
    have hCalloc := calloc_of_malloc hNone
    simp [HeapCall.run, hCalloc, grant]
  · right
    have hCalloc := calloc_of_malloc hCall
    rw [if_pos hNull] at hCalloc
    refine ⟨r, _, bs', by
      simp only [HeapCall.run, hCalloc, Option.map_some]
      rfl, ?_, hChanged.onlyAdds, hChanged.change⟩
    rw [memset_eq]
    exact hChanged.represents.write hMember
      fun x hOut => storeBlock_outside (by
        unfold callocSize at hSize
        omega)

/- Releasing a live pointer sweeps the list. -/
theorem free_changed
    (hInv : Invariant pool c bs)
    {p : Nat}
    (hPtr : p ≠ 0)
    (hLive : c.Live p)
    {call : HeapCall}
    (hPassed : call.passed = p)
    (hWhole : ¬ call.LeavesFragment c) :
    ∃ heap' bs', Heap.free pool c.heap p = some heap' ∧
      Changed pool c heap' bs bs' call 0 := by
  rcases hLive with hNull | ⟨n, hOwned⟩
  · exact absurd hNull hPtr
  rcases hInv.owned p n hOwned with ⟨s, _, hMember⟩
  rcases free_sweeps hInv.represents hMember with
    ⟨heap', bs', hCall, hReleases, hSwept⟩
  refine ⟨heap', bs', hCall, hReleases.represents, ?_,
    .swept hWhole hSwept⟩
  rw [hPassed]
  exact hReleases.onlyAdds 0

/- `realloc` of a live pointer to a positive size. -/
theorem run_realloc_changed
    (hInv : Invariant pool c bs)
    {p n : Nat}
    (hPtr : p ≠ 0)
    (hLive : c.Live p)
    (hPos : 0 < n)
    (hn : n + 3 < 2 ^ 32) :
    (HeapCall.realloc p n).run pool c = some (0, c) ∨
      ∃ r c' bs',
        (HeapCall.realloc p n).run pool c = some (r, c') ∧
        Changed pool c c'.heap bs bs' (.realloc p n) r := by
  rcases hLive with hNull | ⟨m, hOwned⟩
  · exact absurd hNull hPtr
  rcases hInv.owned p m hOwned with ⟨s, _, hMember⟩
  have hSize : n ≠ 0 := by omega
  by_cases hFits : n ≤ s
  · right
    rcases realloc_trims hInv.represents hMember hPos hn hFits
      with ⟨heap', bs', pre, b, post, hCall, hResizes, hTrims⟩
    refine ⟨p, _, bs', by
      simp only [HeapCall.run, hCall, Option.map_some]
      rfl, hResizes.represents, hResizes.onlyAdds,
      .trims hPos ?_ hTrims⟩
    -- The payload at `p` is that of the trimmed block.
    have hHeader :=
      (hInv.represents.payload_header hMember).1
    have hSame := hInv.represents
    rw [hTrims.blocks] at hSame
    rw [hTrims.place, Nat.add_sub_cancel,
      hSame.header.1] at hHeader
    omega
  · rcases realloc_moves hInv.represents hMember hPos hn
      (by omega) with
      hNone | ⟨r, heap', bs', hCall, hNull, hEffect, _, hSwept,
        hOnly⟩
    · left
      simp [HeapCall.run, hNone, hSize]
    · right
      refine ⟨r, _, bs', by
        simp only [HeapCall.run, hCall, Option.map_some]
        rfl, hEffect.represents, hOnly, .swept ?_ hSwept⟩
      rintro ⟨_, _, hRoom, _⟩
      rw [show blockSize c.heap.mem (p - sizeofMemBlock) = s
        from (hInv.represents.payload_header hMember).1]
        at hRoom
      exact hFits hRoom

/- A valid call returns, and it leaves or changes the blocks. -/
theorem run_change
    (hInv : Invariant pool c bs)
    (call : HeapCall)
    (hValid : call.Valid c) :
    call.run pool c = some (0, c) ∨
      ∃ r c' bs', call.run pool c = some (r, c') ∧
        Changed pool c c'.heap bs bs' call r := by
  cases call with
  | malloc n => exact run_malloc_changed hInv hValid rfl id
  | calloc nmemb size => exact run_calloc_changed hInv hValid
  | free p =>
      by_cases hPtr : p = 0
      · left
        subst hPtr
        simp [HeapCall.run, Heap.free, hInv.drop_zero]
      · right
        have hPassed : (HeapCall.free p).passed = p := rfl
        rcases free_changed hInv hPtr hValid hPassed id with
          ⟨heap', bs', hCall, hChanged⟩
        refine ⟨0, ⟨heap', drop c.owned p⟩, bs', ?_, hChanged⟩
        simp [HeapCall.run, hCall]
  | realloc p n =>
      rcases hValid with ⟨hLive, hn⟩
      by_cases hPtr : p = 0
      · subst hPtr
        rw [run_realloc_null hInv]
        exact run_malloc_changed hInv hn rfl
          fun hLeaves => hLeaves.1 rfl
      · by_cases hZero : n = 0
        · right
          subst hZero
          have hPassed : (HeapCall.realloc p 0).passed = p := rfl
          rcases free_changed hInv hPtr hLive hPassed
            (fun hLeaves => hLeaves.2.1 rfl) with
            ⟨heap', bs', hCall, hChanged⟩
          refine ⟨0, ⟨heap', drop c.owned p⟩, bs', ?_,
            hChanged⟩
          simp [HeapCall.run, Heap.realloc, hPtr, hCall, grant]
        · exact run_realloc_changed hInv hPtr hLive
            (by omega) hn

/- What a valid call that returned did to the blocks. -/
theorem call_changed
    (hInv : Invariant pool c bs)
    {call : HeapCall}
    (hValid : call.Valid c)
    {r : Nat}
    {c' : Client}
    (hCall : call.run pool c = some (r, c')) :
    r = 0 ∧ c' = c ∨
      ∃ bs', Outcome pool c c' bs bs' call r ∧
        Changed pool c c'.heap bs bs' call r := by
  rcases run_outcome hInv call hValid with
    ⟨r₁, c₁, bs₁, hCall₁, hOutcome⟩
  rw [hCall] at hCall₁
  cases hCall₁
  rcases run_change hInv call hValid with
    hNone | ⟨r₂, c₂, bs₂, hCall₂, hChanged⟩
  · rw [hCall] at hNone
    cases hNone
    exact Or.inl ⟨rfl, rfl⟩
  · rw [hCall] at hCall₂
    cases hCall₂
    -- Both speak of the one list of the heap.
    have hSame :=
      hOutcome.invariant.represents.unique hChanged.represents
    subst hSame
    exact Or.inr ⟨bs₁, hOutcome, hChanged⟩

end Run

------------------------------------------------------------
-- Coalesced Heaps
------------------------------------------------------------

section CoalescedRuns

variable {pool : Pool} {c : Client}
variable {bs bs' : List HeapBlock} {call : HeapCall}

/- When a trimmed block leaves a fragment. -/
theorem leavesFragment_iff
    (hInv : Invariant pool c bs)
    {p n : Nat}
    {pre : List HeapBlock}
    {b : HeapBlock}
    {post : List HeapBlock}
    (hPos : 0 < n)
    (hFits : n ≤ b.size)
    (hTrims : Trims pool bs bs' p (align n) pre b post) :
    (HeapCall.realloc p n).LeavesFragment c ↔
      align n + 12 + 4 ≤ b.size ∧
        ∃ d ∈ post.head?, d.free = true := by
  have hHeap := hInv.represents
  rw [hTrims.blocks] at hHeap
  have hSize := hHeap.header.1
  have hPlace : p - sizeofMemBlock = pool.base + extent pre := by
    rw [hTrims.place]
    simp
  rw [← hHeap.next_free_iff, HeapCall.LeavesFragment, hPlace]
  simp only [hSize, sizeofMemBlock, alignment]
  have hPtr : p ≠ 0 := by
    rw [hTrims.place]
    omega
  constructor
  · rintro ⟨_, _, _, hRoom, hNext⟩
    exact ⟨hRoom, hNext⟩
  · rintro ⟨hRoom, hNext⟩
    exact ⟨hPtr, by omega, hFits, hRoom, hNext⟩

/- A call that changes nothing leaves no fragment. -/
theorem not_leavesFragment_of_none
    (hValid : call.Valid c)
    (hNone : call.run pool c = some (0, c)) :
    ¬ call.LeavesFragment c := by
  cases call with
  | malloc n => exact id
  | calloc nmemb size => exact id
  | free p => exact id
  | realloc p n =>
      rintro ⟨hPtr, hSize, hFits, _⟩
      have hCall :
          ∃ heap',
            Heap.realloc pool c.heap p n = some (p, heap') := by
        unfold Heap.realloc
        rw [if_neg hPtr, if_neg hSize]
        dsimp only
        rw [if_pos hFits]
        exact ⟨_, rfl⟩
      rcases hCall with ⟨heap', hCall⟩
      simp only [HeapCall.run, hCall, Option.map_some,
        Option.some.injEq, Prod.mk.injEq] at hNone
      exact hPtr hNone.1

/- A call keeps a heap coalesced unless it leaves a fragment. -/
theorem Changed.coalesced_iff_whole
    {heap' : State}
    {r : Nat}
    (hInv : Invariant pool c bs)
    (hCoalesced : BlockTiling.Coalesced bs)
    (hChanged : Changed pool c heap' bs bs' call r) :
    BlockTiling.Coalesced bs' ↔ ¬ call.LeavesFragment c := by
  cases hChanged.change with
  | handsOut hWhole hHands =>
      rcases hHands with
        ⟨pre, b, post, m, hPos, hAligned, rfl, hFree, rfl⟩
      exact iff_of_true
        (hCoalesced.cut hFree hPos hAligned) hWhole
  | swept hWhole hSwept => exact iff_of_true hSwept hWhole
  | @trims p n pre b post hPos hFits hTrims =>
      rw [leavesFragment_iff hInv hPos hFits hTrims]
      rcases hTrims with
        ⟨rfl, hBusy, _, hRounded, hAligned, rfl⟩
      rcases (coalesced_middle_iff hBusy).mp hCoalesced with
        ⟨hPre, hPost⟩
      rw [coalesced_cut_iff hRounded hAligned hPre hPost]
      simp only [heapGeometry_header, heapGeometry_unit,
        not_and, not_exists, Bool.not_eq_true]

/- The blocks of every state of a swept run are coalesced. -/
theorem SweptRun.coalesced
    (hRun : SweptRun pool c) :
    ∃ bs, Invariant pool c bs ∧ BlockTiling.Coalesced bs := by
  induction hRun with
  | start mem =>
      exact ⟨_, start_invariant pool mem,
        List.isChain_singleton _⟩
  | call call _ hValid hSweeps hCall ih =>
      rcases ih with ⟨bs, hInv, hCoalesced⟩
      rcases call_changed hInv hValid hCall with
        ⟨_, rfl⟩ | ⟨bs', hOutcome, hChanged⟩
      · exact ⟨bs, hInv, hCoalesced⟩
      · exact ⟨bs', hOutcome.invariant,
          (hChanged.coalesced_iff_whole hInv hCoalesced).mpr
            hSweeps⟩
  | write v _ hOwned hi ih =>
      rcases ih with ⟨bs, hInv, hCoalesced⟩
      exact ⟨bs, hInv.write hOwned hi v, hCoalesced⟩

/-
  In every state of a run without fragments no two adjacent
  blocks are free and `malloc` fails only for want of room;
  and the next call keeps it so exactly when it leaves no
  fragment.
-/
theorem coalesced_iff
    (hRun : SweptRun pool c) :
    c.heap.Coalesced ∧ c.heap.FailsForRoom ∧
      ∀ (call : HeapCall) r c', call.Valid c →
        call.run pool c = some (r, c') →
          (c'.heap.Coalesced ↔ ¬ call.LeavesFragment c) := by
  rcases hRun.coalesced with ⟨bs, hInv, hCoalesced⟩
  have hHeap := hInv.represents
  refine ⟨hHeap.coalesced_iff_blocks.mpr hCoalesced,
    hHeap.failsForRoom hCoalesced, ?_⟩
  intro call r c' hValid hCall
  rcases call_changed hInv hValid hCall with
    ⟨rfl, rfl⟩ | ⟨bs', _, hChanged⟩
  · exact iff_of_true (hHeap.coalesced_iff_blocks.mpr hCoalesced)
      (not_leavesFragment_of_none hValid hCall)
  · rw [hChanged.represents.coalesced_iff_blocks]
    exact hChanged.coalesced_iff_whole hInv hCoalesced

end CoalescedRuns

/- A heap after its first allocation. -/
theorem coalesced_malloc_hundred :
    ∃ c, (HeapCall.malloc 100).run samplePool
          (.start samplePool zeros) =
        some (0x10000C, c) ∧
      c.heap.Coalesced ∧ c.heap.FailsForRoom := by
  have hCall :
      (HeapCall.malloc 100).run samplePool
          (.start samplePool zeros) =
        some (0x10000C, _) :=
    rfl
  have hValid :
      (HeapCall.malloc 100).Valid
        (.start samplePool zeros) := by
    show 100 + 3 < 2 ^ 32
    norm_num
  have hRun :=
    (SweptRun.start zeros).call _ hValid id hCall
  have hKept := coalesced_iff hRun
  exact ⟨_, hCall, hKept.1, hKept.2.1⟩

/-
  A payload of 100 bytes is trimmed to 4 bytes: its rest and
  the block behind it are both free.
-/
theorem not_coalesced_trimmed :
    ∃ c, Reachable samplePool c ∧ ¬ c.heap.Coalesced := by
  have hStart :
      Reachable samplePool (.start samplePool zeros) :=
    .start zeros
  have hMalloc :=
    hStart.call (.malloc 100)
      (show 100 + 3 < 2 ^ 32 by norm_num) rfl
  have hTrimmed :=
    hMalloc.call (.realloc 0x10000C 4)
      ⟨Or.inr ⟨100, rfl⟩, by norm_num⟩ rfl
  refine ⟨_, hTrimmed, fun hCoalesced => ?_⟩
  have hChain :=
    hCoalesced [0x100000, 0x100010, 0x100070]
      ⟨by decide, rfl, by decide, rfl, by decide, rfl, rfl⟩
  exact absurd hChain (by decide)

------------------------------------------------------------
-- Heaps Without Live Pointers
------------------------------------------------------------

section Leaks

variable {pool : Pool} {c : Client}
variable {bs bs' : List HeapBlock}

/-
  Every payload in use is live, and without one the list is
  coalesced.
-/
structure Accounted
    (pool : Pool)
    (c : Client)
    (bs : List HeapBlock) : Prop where
  owned :
    ∀ p s, (p, s) ∈ payloads pool bs →
      ∃ n, c.owned p = some n
  whole : payloads pool bs = [] → BlockTiling.Coalesced bs

/- A block handed out or trimmed is in use. -/
theorem payloads_cut_ne_nil
    {pre post : List HeapBlock}
    {b : HeapBlock}
    {m : Nat}
    (hPos : 0 < m)
    (hAligned : heapGeometry.unit ∣ m) :
    payloads pool
      (pre ++ (((b.cut m hPos hAligned).mark false ::
        splitRest b m hAligned) ++ post)) ≠ [] := by
  rw [payloads, busy_append, busy_cut]
  simp

theorem Change.whole
    {call : HeapCall}
    (hChange : Change pool c bs bs' call)
    (hNone : payloads pool bs' = []) :
    BlockTiling.Coalesced bs' := by
  cases hChange with
  | handsOut _ hHands =>
      rcases hHands with ⟨_, _, _, _, _, _, _, _, rfl⟩
      exact absurd hNone (payloads_cut_ne_nil _ _)
  | swept _ hSwept => exact hSwept
  | trims _ _ hTrims =>
      rcases hTrims.trimmed with ⟨_, _, rfl⟩
      exact absurd hNone (payloads_cut_ne_nil _ _)

/- The payloads after a call are live. -/
theorem Changed.owned
    {c' : Client}
    {call : HeapCall}
    {r : Nat}
    (hChanged : Changed pool c c'.heap bs bs' call r)
    (hCall : call.run pool c = some (r, c'))
    (hOutcome : Outcome pool c c' bs bs' call r)
    (hOwned :
      ∀ p s, (p, s) ∈ payloads pool bs →
        ∃ n, c.owned p = some n) :
    ∀ p s, (p, s) ∈ payloads pool bs' →
      ∃ n, c'.owned p = some n := by
  intro p s hMember
  rcases hChanged.onlyAdds p s hMember with
    rfl | ⟨hNe, hOld⟩
  · have hBounds := payload_bounds hMember
    exact ⟨_, run_owned hCall (by omega)⟩
  · rcases hOwned p s hOld with ⟨n, hLive⟩
    exact ⟨n, hOutcome.owned p n hLive hNe⟩

/- No block is lost in a reachable state. -/
theorem reachable_accounted
    (hReach : Reachable pool c) :
    ∃ bs, Invariant pool c bs ∧ Accounted pool c bs := by
  induction hReach with
  | start mem =>
      refine ⟨_, start_invariant pool mem, ?_, ?_⟩
      · simp [payloads, busy, wholePool]
      · intro _
        exact List.isChain_singleton _
  | call call _ hValid hCall ih =>
      rcases ih with ⟨bs, hInv, hAccounted⟩
      rcases call_changed hInv hValid hCall with
        ⟨_, rfl⟩ | ⟨bs', hOutcome, hChanged⟩
      · exact ⟨bs, hInv, hAccounted⟩
      · exact ⟨bs', hOutcome.invariant,
          hChanged.owned hCall hOutcome hAccounted.owned,
          hChanged.change.whole⟩
  | write v _ hOwned hi ih =>
      rcases ih with ⟨bs, hInv, hAccounted⟩
      exact ⟨bs, hInv.write hOwned hi v, hAccounted.owned,
        hAccounted.whole⟩

/-
  In every reachable state in which no pointer is live the
  heap is in its initial state.
-/
theorem reachable_initial
    (hReach : Reachable pool c)
    (hReleased : ∀ p, c.owned p = none) :
    c.heap.Initial pool := by
  rcases reachable_accounted hReach with
    ⟨bs, hInv, hAccounted⟩
  have hNone : payloads pool bs = [] := by
    rw [List.eq_nil_iff_forall_not_mem]
    rintro ⟨p, s⟩ hMember
    rcases hAccounted.owned p s hMember with ⟨n, hOwned⟩
    rw [hReleased p] at hOwned
    cases hOwned
  exact hInv.represents.initial (hAccounted.whole hNone) hNone

/- A payload that was allocated, trimmed and freed. -/
theorem reachable_initial_trimmed :
    ∃ c, Reachable samplePool c ∧
      c.heap.Initial samplePool := by
  have hStart :
      Reachable samplePool (.start samplePool zeros) :=
    .start zeros
  have hMalloc :=
    hStart.call (.malloc 100)
      (show 100 + 3 < 2 ^ 32 by norm_num) rfl
  have hTrimmed :=
    hMalloc.call (.realloc 0x10000C 4)
      ⟨Or.inr ⟨100, rfl⟩, by norm_num⟩ rfl
  have hFreed :=
    hTrimmed.call (.free 0x10000C) (Or.inr ⟨4, rfl⟩) rfl
  refine ⟨_, hFreed, reachable_initial hFreed fun p => ?_⟩
  show
    drop
      (grant
        (drop (grant (fun _ => none) 0x10000C 100) 0x10000C)
        0x10000C 4)
      0x10000C p = none
  by_cases hSame : p = 0x10000C
  · simp [drop, hSame]
  · simp [drop, grant, hSame]

end Leaks

end Heap

end AsmOS
