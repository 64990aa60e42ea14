import AsmOS.Heap.ListOps

/-
  The heap calls on represented heaps.

  A represented heap is a list of blocks that covers the
  pool.  Each call leaves a represented heap, changes the
  list of busy payloads in one place, and keeps the bytes of
  the payloads that it does not hand back.

  Main declarations:
    * `Represents`, `Grants`, `Releases`, `Resizes`
    * `initMemoryManager_represents`
    * `grants_of_fit`, `resizes_of_split`
    * `malloc_handsOut`, `malloc_spec`
    * `free_sweeps`, `free_spec`
-/

------------------------------------------------------------
-- Represented Heaps
------------------------------------------------------------

namespace AsmOS

namespace Heap

open ByteMem BlockTiling

/- The blocks of a heap, from the pool base to its end. -/
structure Represents
    (pool : Pool)
    (heap : State)
    (bs : List HeapBlock) : Prop where
  head : heap.freeList = pool.base
  headers : Headers heap.mem 0 pool.base bs
  total : extent bs = memoryPoolSize

/- The busy payloads of a pool. -/
abbrev payloads
    (pool : Pool)
    (bs : List HeapBlock) : List (Nat × Nat) :=
  busy pool.base bs

/- One new payload at `p` of at least `n` bytes. -/
structure Grants
    (pool : Pool)
    (heap heap' : State)
    (bs bs' : List HeapBlock)
    (p n : Nat) : Prop where
  represents : Represents pool heap' bs'
  payload :
    ∃ before after s, n ≤ s ∧
      payloads pool bs = before ++ after ∧
      payloads pool bs' = before ++ (p, s) :: after
  keeps :
    ∀ q t, (q, t) ∈ payloads pool bs →
      AgreeOn heap'.mem heap.mem q (q + t)

/- The payload at `p` is gone, the others are kept. -/
structure Releases
    (pool : Pool)
    (heap heap' : State)
    (bs bs' : List HeapBlock)
    (p : Nat) : Prop where
  represents : Represents pool heap' bs'
  payload :
    ∃ before after s,
      payloads pool bs = before ++ (p, s) :: after ∧
      payloads pool bs' = before ++ after
  keeps :
    ∀ q t, (q, t) ∈ payloads pool bs' →
      AgreeOn heap'.mem heap.mem q (q + t)

/-
  The payload at `p` keeps at least its first `n` bytes, and
  the others are kept.
-/
structure Resizes
    (pool : Pool)
    (heap heap' : State)
    (bs bs' : List HeapBlock)
    (p n : Nat) : Prop where
  represents : Represents pool heap' bs'
  payload :
    ∃ before after s s', n ≤ s' ∧ s' ≤ s ∧
      payloads pool bs = before ++ (p, s) :: after ∧
      payloads pool bs' = before ++ (p, s') :: after
  keeps :
    ∀ q t, (q, t) ∈ payloads pool bs' →
      AgreeOn heap'.mem heap.mem q (q + t)

section Bounds

variable {pool : Pool} {heap : State}
variable {bs pre post : List HeapBlock} {b : HeapBlock}

theorem Represents.pool_top
    (hHeap : Represents pool heap bs) :
    pool.base + extent bs < 2 ^ 32 := by
  rw [hHeap.total]
  exact pool.top_lt

/- A walk over the blocks never runs out of steps. -/
theorem Represents.length_lt
    (hHeap : Represents pool heap bs) :
    bs.length < walkFuel := by
  have hLength := length_le_extent bs
  rw [hHeap.total] at hLength
  unfold walkFuel
  simp only [memoryPoolSize] at hLength
  omega

theorem Represents.ne_nil
    (hHeap : Represents pool heap bs) :
    bs ≠ [] := by
  rintro rfl
  have hTotal := hHeap.total
  simp [extent] at hTotal

/- The block of a split list lies in the pool. -/
theorem Represents.block_bound
    (hHeap : Represents pool heap (pre ++ b :: post)) :
    pool.base + extent pre + 12 + b.size +
        extent post ≤ pool.base + memoryPoolSize := by
  have hTotal := hHeap.total
  rw [extent_append, extent_cons] at hTotal
  omega

theorem Represents.header
    (hHeap : Represents pool heap (pre ++ b :: post)) :
    Headers heap.mem
      (link (pool.base + extent pre + 12 + b.size) 0 post)
      (pool.base + extent pre) [b] := by
  rcases (headers_append.mp hHeap.headers).2 with
    ⟨hSize, hNext, hFree, _⟩
  exact ⟨hSize, hNext, hFree, trivial⟩

end Bounds

------------------------------------------------------------
-- Initialization
------------------------------------------------------------

/- The one free block of a fresh pool. -/
def wholePool : HeapBlock where
  size := memoryPoolSize - sizeofMemBlock
  free := true
  size_pos := by norm_num
  aligned := by norm_num

theorem initMemoryManager_represents
    (pool : Pool)
    (mem : ByteMem) :
    Represents pool (initMemoryManager pool mem)
      [wholePool] where
  head := rfl
  headers := by
    refine ⟨?_, ?_, ?_, trivial⟩
    · simp [initMemoryManager, wholePool]
    · simp [initMemoryManager]
    · simp [initMemoryManager, wholePool]
  total := by
    simp [extent, wholePool]

------------------------------------------------------------
-- Changing One Block
------------------------------------------------------------

section OneBlock

variable {pool : Pool} {heap : State} {mem' : ByteMem}
variable {pre post new : List HeapBlock} {b : HeapBlock}

/- Replacing one block keeps the list a tiling of the pool. -/
theorem Represents.replace
    (hHeap : Represents pool heap (pre ++ b :: post))
    (hNe : new ≠ [])
    (hExtent : extent new = 12 + b.size)
    (hNew :
      Headers mem'
        (link (pool.base + extent pre + 12 + b.size) 0 post)
        (pool.base + extent pre) new)
    (hOutside :
      ∀ x, x < pool.base + extent pre ∨
        pool.base + extent pre + 12 + b.size ≤ x →
          mem' x = heap.mem x) :
    Represents pool { heap with mem := mem' }
      (pre ++ (new ++ post)) where
  head := hHeap.head
  headers :=
    headers_replace hHeap.headers hNe hExtent hNew
      fun x hOut => (hOutside x hOut).symm
  total := by
    have hTotal := hHeap.total
    rw [extent_append, extent_cons] at hTotal
    rw [extent_append, extent_append, hExtent]
    omega

/- The payloads before and after the block are untouched. -/
theorem agreeOn_of_outside
    {mem : ByteMem}
    (hOutside :
      ∀ x, x < pool.base + extent pre ∨
        pool.base + extent pre + 12 + b.size ≤ x →
          mem' x = mem x)
    {q t : Nat}
    (hMember :
      (q, t) ∈ busy pool.base pre ++
        busy (pool.base + extent pre + 12 + b.size) post) :
    AgreeOn mem' mem q (q + t) := by
  intro x hLo hHi
  rcases List.mem_append.mp hMember with hPre | hPost
  · have hBounds := busy_bounds hPre
    exact hOutside x (Or.inl (by omega))
  · have hBounds := busy_bounds hPost
    rw [heapGeometry_header] at hBounds
    exact hOutside x (Or.inr (by omega))

/- Storing a free mark. -/
theorem headers_mark
    {mem : ByteMem}
    {a e : Nat}
    {bs : List HeapBlock}
    (hHeaders : Headers mem e a (b :: bs))
    (mark : Bool) :
    Headers (setFree mem a (if mark then 1 else 0)) e a
      (b.mark mark :: bs) := by
  rcases hHeaders with ⟨hSize, hNext, _, hRest⟩
  refine ⟨?_, ?_, ?_, ?_⟩
  · rw [blockSize_setFree, hSize]
    rfl
  · rw [blockNext_setFree, hNext]
    rfl
  · rw [blockFree_setFree]
    cases mark <;> rfl
  · exact headers_congr hRest fun x hLo _ =>
      (setFree_outside mem a _ (by
        simp only [Block.mark] at hLo
        omega)).symm

end OneBlock

------------------------------------------------------------
-- Splitting In Place
------------------------------------------------------------

section SplitInPlace

variable {pool : Pool} {heap : State}
variable {pre post : List HeapBlock} {b : HeapBlock}
variable {m n : Nat}

theorem Represents.block_lt
    (hHeap : Represents pool heap (pre ++ b :: post)) :
    pool.base + extent pre + 12 + b.size < 2 ^ 32 ∧
      b.size + 16 < 2 ^ 32 := by
  have hBound := hHeap.block_bound
  have hTop := pool.top_lt
  simp only [memoryPoolSize] at hBound hTop
  omega

/- A split only touches the block that it splits. -/
theorem Represents.split_outside
    (hHeap : Represents pool heap (pre ++ b :: post))
    (hFits : m ≤ b.size) :
    ∀ x, x < pool.base + extent pre ∨
      pool.base + extent pre + 12 + b.size ≤ x →
        splitBlock heap.mem (pool.base + extent pre) m x =
          heap.mem x :=
  fun _ hOut =>
    splitBlock_outside hHeap.header.1 hFits hHeap.block_lt.2
      hOut

/- A free block that fits is split and handed out. -/
theorem grants_of_fit
    (hHeap : Represents pool heap (pre ++ b :: post))
    (hFree : b.free = true)
    (hPos : 0 < m)
    (hAligned : heapGeometry.unit ∣ m)
    (hFits : m ≤ b.size)
    (hn : n ≤ m) :
    Grants pool heap
      { heap with
        mem :=
          setFree
            (splitBlock heap.mem (pool.base + extent pre) m)
            (pool.base + extent pre) 0 }
      (pre ++ b :: post)
      (pre ++ (((b.cut m hPos hAligned).mark false ::
        splitRest b m hAligned) ++ post))
      (pool.base + extent pre + 12) n := by
  have hOutside :
      ∀ x, x < pool.base + extent pre ∨
        pool.base + extent pre + 12 + b.size ≤ x →
          setFree
              (splitBlock heap.mem (pool.base + extent pre) m)
              (pool.base + extent pre) 0 x =
            heap.mem x := by
    intro x hOut
    rw [setFree_outside _ _ _ (by omega),
      hHeap.split_outside hFits x hOut]
  have hOld :
      payloads pool (pre ++ b :: post) =
        busy pool.base pre ++
          busy (pool.base + extent pre + 12 + b.size)
            post := by
    rw [payloads, busy_append, busy_cons_free _ _ hFree]
    rfl
  refine ⟨?_, ⟨busy pool.base pre, _, splitSize b m,
    hn.trans (le_splitSize hFits), hOld, ?_⟩, ?_⟩
  · exact hHeap.replace (by simp)
      (extent_cut hPos hAligned false)
      (headers_mark
        (headers_splitBlock hHeap.header hPos hAligned hFits
          hHeap.block_lt.1 hHeap.block_lt.2) false)
      hOutside
  · rw [payloads, busy_append, busy_cut]
    rfl
  · intro q t hMember
    rw [hOld] at hMember
    exact agreeOn_of_outside hOutside hMember

/- A busy block is split in place. -/
theorem resizes_of_split
    (hHeap : Represents pool heap (pre ++ b :: post))
    (hBusy : b.free = false)
    (hPos : 0 < m)
    (hAligned : heapGeometry.unit ∣ m)
    (hFits : m ≤ b.size)
    (hn : n ≤ m) :
    Resizes pool heap
      { heap with
        mem :=
          splitBlock heap.mem (pool.base + extent pre) m }
      (pre ++ b :: post)
      (pre ++ (((b.cut m hPos hAligned).mark false ::
        splitRest b m hAligned) ++ post))
      (pool.base + extent pre + 12) n := by
  have hOutside := hHeap.split_outside hFits
  have hNew :
      payloads pool
          (pre ++ (((b.cut m hPos hAligned).mark false ::
            splitRest b m hAligned) ++ post)) =
        busy pool.base pre ++
          (pool.base + extent pre + 12, splitSize b m) ::
            busy (pool.base + extent pre + 12 + b.size)
              post := by
    rw [payloads, busy_append, busy_cut]
    rfl
  refine ⟨?_, ⟨busy pool.base pre, _, b.size, splitSize b m,
    hn.trans (le_splitSize hFits), splitSize_le, ?_, hNew⟩,
    ?_⟩
  · have hCut :
        (b.cut m hPos hAligned).mark false =
          b.cut m hPos hAligned := by
      simp [Block.mark, Block.cut, hBusy]
    refine hHeap.replace (by simp)
      (extent_cut hPos hAligned false) ?_ hOutside
    rw [hCut]
    exact headers_splitBlock hHeap.header hPos hAligned hFits
      hHeap.block_lt.1 hHeap.block_lt.2
  · rw [payloads, busy_append, busy_cons_busy _ _ hBusy]
    rfl
  · intro q t hMember
    rw [hNew] at hMember
    rcases List.mem_append.mp hMember with hPre | hRest
    · exact agreeOn_of_outside hOutside
        (List.mem_append_left
          (busy (pool.base + extent pre + 12 + b.size) post)
          hPre)
    · rcases List.mem_cons.mp hRest with hEq | hPost
      · cases hEq
        intro x hLo hHi
        exact splitBlock_payload hHeap.header.1 hFits
          hHeap.block_lt.2 hLo hHi
      · exact agreeOn_of_outside hOutside
          (List.mem_append_right _ hPost)

end SplitInPlace

------------------------------------------------------------
-- Allocation
------------------------------------------------------------

section Calls

variable {pool : Pool} {heap : State}
variable {bs : List HeapBlock}

/- A free block is split, and its front handed out. -/
def HandsOut
    (bs bs' : List HeapBlock) : Prop :=
  ∃ (pre : List HeapBlock) (b : HeapBlock)
    (post : List HeapBlock) (m : Nat) (hPos : 0 < m)
    (hAligned : heapGeometry.unit ∣ m),
    bs = pre ++ b :: post ∧ b.free = true ∧
      bs' =
        pre ++ (((b.cut m hPos hAligned).mark false ::
          splitRest b m hAligned) ++ post)

/- `malloc` of any size takes the first block that fits. -/
theorem malloc_search
    (hHeap : Represents pool heap bs)
    (n : Nat) :
    (malloc heap n = some (0, heap) ∧
        (n = 0 ∨
          ∀ b ∈ bs, b.free = true → b.size < align n)) ∨
      n ≠ 0 ∧ ∃ pre b post,
        bs = pre ++ b :: post ∧ b.free = true ∧
          align n ≤ b.size ∧
          malloc heap n =
            some (pool.base + extent pre + 12,
              { heap with
                mem :=
                  setFree
                    (splitBlock heap.mem
                      (pool.base + extent pre) (align n))
                    (pool.base + extent pre) 0 }) := by
  by_cases hZero : n = 0
  · exact Or.inl ⟨by simp [malloc, hZero], Or.inl hZero⟩
  have hBase := pool.base_pos
  have hHead : heap.freeList = link pool.base 0 bs := by
    rw [hHeap.head, link_of_ne_nil _ _ hHeap.ne_nil]
  rcases findFreeBlock_spec (n := align n) hHeap.headers hBase
      hHeap.length_lt with
    ⟨hFind, hNone⟩ |
    ⟨pre, b, post, rfl, hFree, hFits, _, hFind⟩
  · left
    rw [← hHead] at hFind
    exact ⟨by simp [malloc, hZero, hFind], Or.inr hNone⟩
  · right
    rw [← hHead] at hFind
    refine ⟨hZero, pre, b, post, rfl, hFree, hFits, ?_⟩
    simp only [malloc, hZero, if_false, hFind]
    rw [if_neg (by omega)]

/-
  `malloc` returns NULL for no bytes or when no free block is
  large enough, and hands out a new payload otherwise.
-/
theorem malloc_handsOut
    {n : Nat}
    (hHeap : Represents pool heap bs)
    (hn : n + 3 < 2 ^ 32) :
    (malloc heap n = some (0, heap) ∧
        (n = 0 ∨
          ∀ b ∈ bs, b.free = true → b.size < align n)) ∨
      ∃ p heap' bs', 0 < n ∧ p ≠ 0 ∧
        malloc heap n = some (p, heap') ∧
        Grants pool heap heap' bs bs' p n ∧
        HandsOut bs bs' := by
  rcases malloc_search hHeap n with
    hNone | ⟨hZero, pre, b, post, rfl, hFree, hFits, hCall⟩
  · exact Or.inl hNone
  · right
    have hBase := pool.base_pos
    rcases align_spec hn with ⟨hAligned, hAlign, _⟩
    have hPos : 0 < align n := by omega
    exact ⟨pool.base + extent pre + 12, _, _, by omega,
      by omega, hCall,
      grants_of_fit hHeap hFree hPos hAligned hFits hAlign,
      pre, b, post, align n, hPos, hAligned, rfl, hFree, rfl⟩

theorem malloc_spec
    {n : Nat}
    (hHeap : Represents pool heap bs)
    (hn : n + 3 < 2 ^ 32) :
    (malloc heap n = some (0, heap) ∧
        (n = 0 ∨
          ∀ b ∈ bs, b.free = true → b.size < align n)) ∨
      ∃ p heap' bs', 0 < n ∧ p ≠ 0 ∧
        malloc heap n = some (p, heap') ∧
        Grants pool heap heap' bs bs' p n := by
  rcases malloc_handsOut hHeap hn with
    hNone | ⟨p, heap', bs', hPos, hNull, hCall, hGrants, _⟩
  · exact Or.inl hNone
  · exact Or.inr
      ⟨p, heap', bs', hPos, hNull, hCall, hGrants⟩

------------------------------------------------------------
-- Release
------------------------------------------------------------

/- The list that a sweep leaves is coalesced. -/
theorem mergeFreeBlocks_spec
    (hHeap : Represents pool heap bs) :
    ∃ heap' bs', mergeFreeBlocks heap = some heap' ∧
      Represents pool heap' bs' ∧ Coalesced bs' ∧
      payloads pool bs' = payloads pool bs ∧
      ∀ q t, (q, t) ∈ payloads pool bs →
        AgreeOn heap'.mem heap.mem q (q + t) := by
  have hLength := hHeap.length_lt
  have hTop := hHeap.pool_top
  cases bs with
  | nil => exact absurd rfl hHeap.ne_nil
  | cons b bs =>
      rw [List.length_cons] at hLength
      have hFuel : bs.length < walkFuel := by omega
      rcases mergeLoop_spec hHeap.headers pool.base_pos hTop
          hFuel with
        ⟨mem', hLoop, hSwept⟩
      refine ⟨{ heap with mem := mem' }, coalesceFrom b bs,
        ?_, ⟨hHeap.head, hSwept.headers, ?_⟩,
        coalesceFrom_coalesced b bs,
        busy_coalesceFrom _ b bs, hSwept.keeps⟩
      · rw [mergeFreeBlocks, hHeap.head, hLoop]
      · rw [extent_coalesceFrom, hHeap.total]

/- `free` of a busy payload releases it and sweeps the list. -/
theorem free_sweeps
    {p s : Nat}
    (hHeap : Represents pool heap bs)
    (hBusy : (p, s) ∈ payloads pool bs) :
    ∃ heap' bs', free pool heap p = some heap' ∧
      Releases pool heap heap' bs bs' p ∧
      Coalesced bs' := by
  rcases mem_busy_iff.mp hBusy with
    ⟨pre, b, post, rfl, hOwn, hp, rfl⟩
  rw [heapGeometry_header] at hp
  subst hp
  have hBase := pool.base_pos
  have hSize := b.size_pos
  have hBound := hHeap.block_bound
  have hOutside :
      ∀ x, x < pool.base + extent pre ∨
        pool.base + extent pre + 12 + b.size ≤ x →
          setFree heap.mem (pool.base + extent pre) 1 x =
            heap.mem x :=
    fun x hOut => setFree_outside _ _ _ (by omega)
  have hMarked :
      Represents pool
        { heap with
          mem := setFree heap.mem (pool.base + extent pre) 1 }
        (pre ++ ([b.mark true] ++ post)) :=
    hHeap.replace (by simp) rfl
      (headers_mark hHeap.header true) hOutside
  rcases mergeFreeBlocks_spec hMarked with
    ⟨heap', bs', hMerge, hHeap', hSwept, hSame, hKeeps⟩
  have hOld :
      payloads pool (pre ++ ([b.mark true] ++ post)) =
        busy pool.base pre ++
          busy (pool.base + extent pre + 12 + b.size)
            post := by
    rw [payloads, List.singleton_append, busy_append,
      busy_cons_free _ _ rfl]
    rfl
  refine ⟨heap', bs', ?_,
    ⟨hHeap',
      ⟨busy pool.base pre, _, b.size, ?_, hSame.trans hOld⟩,
      ?_⟩,
    hSwept⟩
  · unfold free
    rw [if_neg (by omega), if_neg (by omega),
      Nat.add_sub_cancel]
    exact hMerge
  · rw [payloads, busy_append, busy_cons_busy _ _ hOwn]
    rfl
  · intro q t hMember
    rw [hSame] at hMember
    refine (hKeeps q t hMember).trans ?_
    rw [hOld] at hMember
    exact agreeOn_of_outside hOutside hMember

theorem free_spec
    {p s : Nat}
    (hHeap : Represents pool heap bs)
    (hBusy : (p, s) ∈ payloads pool bs) :
    ∃ heap' bs', free pool heap p = some heap' ∧
      Releases pool heap heap' bs bs' p := by
  rcases free_sweeps hHeap hBusy with
    ⟨heap', bs', hCall, hReleases, _⟩
  exact ⟨heap', bs', hCall, hReleases⟩

end Calls

end Heap

end AsmOS
