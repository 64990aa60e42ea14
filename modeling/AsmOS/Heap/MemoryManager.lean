import AsmOS.Base.ByteMem

/-
  The kernel heap: a first-fit list of blocks in one pool.

  Memory is addressed by 32-bit addresses, and NULL is 0.  A
  block starts with the twelve bytes of `mem_block_t`: `size`
  at 0, `next` at 4 and `free` at 8; its payload follows.
  `size_t` sums and differences wrap at `2 ^ 32`.

  A call returns nothing when one of its list walks takes
  more steps than there are addresses, so never ends.

  Main declarations:
    * `Pool`, `State`
    * `initMemoryManager`
    * `findFreeBlock`, `splitBlock`, `mergeFreeBlocks`
    * `malloc`, `free`, `realloc`, `calloc`
-/

------------------------------------------------------------
-- Pool And Headers
------------------------------------------------------------

namespace AsmOS

namespace Heap

open ByteMem

@[simp] abbrev memoryPoolSize : Nat := 1024 * 1024
@[simp] abbrev alignment : Nat := 4
@[simp] abbrev sizeofMemBlock : Nat := 12

/-
  Where `memory_pool` lies: not at NULL, and with an address
  one past its end.
-/
structure Pool where
  base : Nat
  base_pos : 0 < base
  top_lt : base + memoryPoolSize < 2 ^ 32

/- `block->size`. -/
def blockSize
    (mem : ByteMem)
    (block : Nat) : Nat :=
  mem.load32 block

/- `block->next`. -/
def blockNext
    (mem : ByteMem)
    (block : Nat) : Nat :=
  mem.load32 (block + 4)

/- `block->free`. -/
def blockFree
    (mem : ByteMem)
    (block : Nat) : Nat :=
  mem.load32 (block + 8)

def setSize
    (mem : ByteMem)
    (block v : Nat) : ByteMem :=
  mem.store32 block v

def setNext
    (mem : ByteMem)
    (block v : Nat) : ByteMem :=
  mem.store32 (block + 4) v

def setFree
    (mem : ByteMem)
    (block v : Nat) : ByteMem :=
  mem.store32 (block + 8) v

/- The memory and the static `free_list`. -/
structure State where
  mem : ByteMem
  freeList : Nat

------------------------------------------------------------
-- Sizes And Copies
------------------------------------------------------------

/- A `size_t` difference. -/
def sub32
    (a b : Nat) : Nat :=
  (a + 2 ^ 32 - b) % 2 ^ 32

/- `ALIGN(size)`: the mask is `~(ALIGNMENT - 1)`. -/
def align
    (size : Nat) : Nat :=
  (size + (alignment - 1)) % 2 ^ 32 &&& 0xFFFFFFFC

/- `memcpy`, one byte at a time. -/
def memcpy
    (mem : ByteMem)
    (dest src : Nat) : Nat → ByteMem
| 0 => mem
| n + 1 =>
    memcpy (mem.storeByte dest (mem src)) (dest + 1)
      (src + 1) n

/- `memset`, one byte at a time. -/
def memset
    (mem : ByteMem)
    (s : Nat)
    (c : UInt8) : Nat → ByteMem
| 0 => mem
| n + 1 => memset (mem.storeByte s c) (s + 1) c n

------------------------------------------------------------
-- List Operations
------------------------------------------------------------

/- A walk over distinct blocks has no more steps than this. -/
def walkFuel : Nat := 2 ^ 32

/- `init_memory_manager`. -/
def initMemoryManager
    (pool : Pool)
    (mem : ByteMem) : State :=
  let block := pool.base
  let mem :=
    setSize mem block (memoryPoolSize - sizeofMemBlock)
  let mem := setFree mem block 1
  let mem := setNext mem block 0
  { mem, freeList := block }

/- The loop of `find_free_block`; 0 is NULL. -/
def findFreeBlock
    (mem : ByteMem)
    (size : Nat) : Nat → Nat → Option Nat
| 0, _ => none
| fuel + 1, current =>
    if current ≠ 0 then
      if blockFree mem current ≠ 0 ∧
          size ≤ blockSize mem current then
        some current
      else
        findFreeBlock mem size fuel (blockNext mem current)
    else
      some 0

/- `split_block`. -/
def splitBlock
    (mem : ByteMem)
    (block size : Nat) : ByteMem :=
  if (size + sizeofMemBlock + alignment) % 2 ^ 32 ≤
      blockSize mem block then
    let newBlock := block + sizeofMemBlock + size
    let mem :=
      setSize mem newBlock
        (sub32 (sub32 (blockSize mem block) size)
          sizeofMemBlock)
    let mem := setFree mem newBlock 1
    let mem := setNext mem newBlock (blockNext mem block)
    let mem := setSize mem block size
    setNext mem block newBlock
  else
    mem

/- The loop of `merge_free_blocks`. -/
def mergeLoop : Nat → Nat → ByteMem → Option ByteMem
| 0, _, _ => none
| fuel + 1, current, mem =>
    if current ≠ 0 ∧ blockNext mem current ≠ 0 then
      let next := blockNext mem current
      if blockFree mem current ≠ 0 ∧
          blockFree mem next ≠ 0 then
        let mem :=
          setSize mem current
            (blockSize mem current +
              (sizeofMemBlock + blockSize mem next))
        let mem :=
          setNext mem current
            (blockNext mem (blockNext mem current))
        mergeLoop fuel current mem
      else
        mergeLoop fuel next mem
    else
      some mem

/- `merge_free_blocks`. -/
def mergeFreeBlocks
    (heap : State) : Option State :=
  match mergeLoop walkFuel heap.freeList heap.mem with
  | none => none
  | some mem => some { heap with mem }

------------------------------------------------------------
-- Interface
------------------------------------------------------------

/- `malloc`. -/
def malloc
    (heap : State)
    (size : Nat) : Option (Nat × State) :=
  if size = 0 then
    some (0, heap)
  else
    let size := align size
    match findFreeBlock heap.mem size walkFuel
        heap.freeList with
    | none => none
    | some block =>
        if block = 0 then
          some (0, heap)
        else
          let mem := splitBlock heap.mem block size
          let mem := setFree mem block 0
          some (block + sizeofMemBlock, { heap with mem })

/- `free`; a pointer outside the pool is ignored. -/
def free
    (pool : Pool)
    (heap : State)
    (ptr : Nat) : Option State :=
  if ptr = 0 then
    some heap
  else if ptr < pool.base ∨
      pool.base + memoryPoolSize ≤ ptr then
    some heap
  else
    let block := ptr - sizeofMemBlock
    mergeFreeBlocks
      { heap with mem := setFree heap.mem block 1 }

/- `realloc`. -/
def realloc
    (pool : Pool)
    (heap : State)
    (ptr newSize : Nat) : Option (Nat × State) :=
  if ptr = 0 then
    malloc heap newSize
  else if newSize = 0 then
    match free pool heap ptr with
    | none => none
    | some heap => some (0, heap)
  else
    let block := ptr - sizeofMemBlock
    if newSize ≤ blockSize heap.mem block then
      some (ptr,
        { heap with
          mem := splitBlock heap.mem block (align newSize) })
    else
      match malloc heap newSize with
      | none => none
      | some (newPtr, heap) =>
          if newPtr = 0 then
            some (0, heap)
          else
            let n :=
              if blockSize heap.mem block < newSize then
                blockSize heap.mem block
              else newSize
            let mem := memcpy heap.mem newPtr ptr n
            match free pool { heap with mem } ptr with
            | none => none
            | some heap => some (newPtr, heap)

/- `calloc`. -/
def calloc
    (heap : State)
    (nmemb size : Nat) : Option (Nat × State) :=
  let totalSize := nmemb * size % 2 ^ 32
  match malloc heap totalSize with
  | none => none
  | some (ptr, heap) =>
      if ptr ≠ 0 then
        some (ptr,
          { heap with mem := memset heap.mem ptr 0 totalSize })
      else
        some (ptr, heap)

------------------------------------------------------------
-- Calls That Go Through `malloc`
------------------------------------------------------------

section ThroughMalloc

variable {pool : Pool} {heap heap' : State}
variable {nmemb size ptr newPtr newSize : Nat}

/- `calloc` clears what `malloc` grants. -/
theorem calloc_of_malloc
    (hMalloc :
      malloc heap (nmemb * size % 2 ^ 32) = some (ptr, heap')) :
    calloc heap nmemb size =
      if ptr ≠ 0 then
        some (ptr,
          { heap' with
            mem :=
              memset heap'.mem ptr 0 (nmemb * size % 2 ^ 32) })
      else some (ptr, heap') := by
  unfold calloc
  dsimp only
  rw [hMalloc]

/- A growing `realloc` copies to what `malloc` grants. -/
theorem realloc_of_malloc
    (hPtr : ptr ≠ 0)
    (hSize : newSize ≠ 0)
    (hGrow :
      ¬ newSize ≤ blockSize heap.mem (ptr - sizeofMemBlock))
    (hMalloc : malloc heap newSize = some (newPtr, heap')) :
    realloc pool heap ptr newSize =
      if newPtr = 0 then some (0, heap')
      else
        let block := ptr - sizeofMemBlock
        let n :=
          if blockSize heap'.mem block < newSize then
            blockSize heap'.mem block
          else newSize
        let mem := memcpy heap'.mem newPtr ptr n
        (free pool { heap' with mem } ptr).map fun heap =>
          (newPtr, heap) := by
  unfold realloc
  rw [if_neg hPtr, if_neg hSize]
  dsimp only
  rw [if_neg hGrow, hMalloc]
  dsimp only
  split
  · rfl
  · cases free pool _ ptr <;> rfl

end ThroughMalloc

end Heap

end AsmOS
