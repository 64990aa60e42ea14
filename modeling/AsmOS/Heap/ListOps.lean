import AsmOS.Base.Bits
import AsmOS.Heap.Headers

/-
  The list operations of the heap on represented lists.

  Main declarations:
    * `align_eq`
    * `headers_splitBlock`, `splitBlock_outside`
    * `findFreeBlock_spec`
    * `Swept`, `mergeLoop_spec`
-/

------------------------------------------------------------
-- Size Arithmetic
------------------------------------------------------------

namespace AsmOS

namespace Heap

open ByteMem BlockTiling

theorem sub32_eq
    {a b : Nat}
    (hLe : b ≤ a)
    (hLt : a < 2 ^ 32) :
    sub32 a b = a - b := by
  unfold sub32
  rw [show a + 2 ^ 32 - b = (a - b) + 2 ^ 32 by omega,
    Nat.add_mod_right, Nat.mod_eq_of_lt (by omega)]

/- `ALIGN` rounds up to a multiple of four. -/
theorem align_eq
    {n : Nat}
    (hn : n + 3 < 2 ^ 32) :
    align n = (n + 3) / 4 * 4 := by
  unfold align
  rw [show n + (alignment - 1) = n + 3 from rfl,
    show (0xFFFFFFFC : Nat) = (2 ^ 30 - 1) <<< 2 by decide,
    Bits.and_mask_shiftLeft, Nat.mod_eq_of_lt hn]
  omega

theorem align_spec
    {n : Nat}
    (hn : n + 3 < 2 ^ 32) :
    4 ∣ align n ∧ n ≤ align n ∧ align n < n + 4 := by
  rw [align_eq hn]
  omega

------------------------------------------------------------
-- Splitting
------------------------------------------------------------

section Split

variable {mem : ByteMem}
variable {a e n : Nat} {b : HeapBlock}

/- The header that a split stores behind the front. -/
def storeRest
    (mem : ByteMem)
    (new size next : Nat) : ByteMem :=
  setNext (setFree (setSize mem new size) new 1) new next

theorem storeRest_outside
    (mem : ByteMem)
    {new size next x : Nat}
    (hOut : x < new ∨ new + 12 ≤ x) :
    storeRest mem new size next x = mem x := by
  unfold storeRest
  rw [setNext_outside _ _ _ (by omega),
    setFree_outside _ _ _ (by omega),
    setSize_outside _ _ _ (by omega)]

/- The stores of a split without wrapping sums. -/
theorem splitBlock_eq
    (hSize : blockSize mem a = b.size)
    (hFits : n ≤ b.size)
    (hBound : b.size + 16 < 2 ^ 32) :
    splitBlock mem a n =
      if n + 12 + 4 ≤ b.size then
        setNext
          (setSize
            (storeRest mem (a + 12 + n) (b.size - n - 12)
              (blockNext mem a))
            a n)
          a (a + 12 + n)
      else
        mem := by
  unfold splitBlock
  simp only [sizeofMemBlock, alignment]
  rw [Nat.mod_eq_of_lt (by omega), hSize]
  by_cases hRoom : n + 12 + 4 ≤ b.size
  · have hNext :
        blockNext
            (setFree
              (setSize mem (a + 12 + n)
                (sub32 (sub32 b.size n) 12))
              (a + 12 + n) 1) a =
          blockNext mem a := by
      refine (header_congr ?_).2.1
      intro x _ hHi
      symm
      rw [setFree_outside _ _ _ (by omega),
        setSize_outside _ _ _ (by omega)]
    rw [if_pos hRoom, if_pos hRoom, hNext,
      sub32_eq hFits (by omega),
      sub32_eq (by omega) (by omega)]
    rfl
  · rw [if_neg hRoom, if_neg hRoom]

/- A split only touches its block. -/
theorem splitBlock_outside
    {x : Nat}
    (hSize : blockSize mem a = b.size)
    (hFits : n ≤ b.size)
    (hBound : b.size + 16 < 2 ^ 32)
    (hOut : x < a ∨ a + 12 + b.size ≤ x) :
    splitBlock mem a n x = mem x := by
  rw [splitBlock_eq hSize hFits hBound]
  split
  · rw [setNext_outside _ _ _ (by omega),
      setSize_outside _ _ _ (by omega),
      storeRest_outside _ (by omega)]
  · rfl

/- A split keeps the payload of the front. -/
theorem splitBlock_payload
    {x : Nat}
    (hSize : blockSize mem a = b.size)
    (hFits : n ≤ b.size)
    (hBound : b.size + 16 < 2 ^ 32)
    (hLo : a + 12 ≤ x)
    (hHi : x < a + 12 + splitSize b n) :
    splitBlock mem a n x = mem x := by
  rw [splitBlock_eq hSize hFits hBound]
  split
  · rename_i hRoom
    rw [splitSize_of_room hRoom] at hHi
    rw [setNext_outside _ _ _ (by omega),
      setSize_outside _ _ _ (by omega),
      storeRest_outside _ (by omega)]
  · rfl

/- A split leaves the front and the rest of its block. -/
theorem headers_splitBlock
    (hHeader : Headers mem e a [b])
    (hPos : 0 < n)
    (hAligned : heapGeometry.unit ∣ n)
    (hFits : n ≤ b.size)
    (hBound : a + 12 + b.size < 2 ^ 32)
    (hRoomy : b.size + 16 < 2 ^ 32) :
    Headers (splitBlock mem a n) e a
      (b.cut n hPos hAligned :: splitRest b n hAligned) := by
  rcases hHeader with ⟨hSize, hNext, hFree, _⟩
  rw [splitBlock_eq hSize hFits hRoomy]
  by_cases hRoom : n + 12 + 4 ≤ b.size
  · have hFirst :
        blockFree
            (storeRest mem (a + 12 + n) (b.size - n - 12)
              (blockNext mem a)) a =
          blockFree mem a :=
      (header_congr fun x _ hHi =>
        (storeRest_outside mem (by omega)).symm).2.2
    have hSecond :=
      header_congr
        (show AgreeOn
            (storeRest mem (a + 12 + n) (b.size - n - 12)
              (blockNext mem a))
            (setNext
              (setSize
                (storeRest mem (a + 12 + n) (b.size - n - 12)
                  (blockNext mem a))
                a n)
              a (a + 12 + n))
            (a + 12 + n) (a + 12 + n + 12)
          from fun x hLo _ => by
            rw [setNext_outside _ _ _ (by omega),
              setSize_outside _ _ _ (by omega)])
    have hEnd : e < 2 ^ 32 := by
      have hLoad := load32_lt mem (a + 4)
      have hLink : blockNext mem a = e := hNext
      rw [← hLink]
      exact hLoad
    rcases splitRest_of_room hAligned hRoom with
      ⟨r, hRest, hRestSize, hRestFree⟩
    have hFront : splitSize b n = n := splitSize_of_room hRoom
    rw [heapGeometry_header] at hRestSize
    rw [if_pos hRoom, hRest]
    simp only [Headers, Block.cut, hFront, link_cons, hSecond,
      hRestSize, hRestFree, if_true]
    refine ⟨?_, ?_, ?_, ?_, ?_, ?_, trivial⟩
    · rw [blockSize_setNext, blockSize_setSize,
        Nat.mod_eq_of_lt (by omega)]
    · rw [blockNext_setNext, Nat.mod_eq_of_lt (by omega)]
    · rw [blockFree_setNext, blockFree_setSize, hFirst, hFree]
    · unfold storeRest
      rw [blockSize_setNext, blockSize_setFree,
        blockSize_setSize, Nat.mod_eq_of_lt (by omega)]
    · unfold storeRest
      rw [blockNext_setNext,
        show blockNext mem a = e from hNext,
        Nat.mod_eq_of_lt hEnd, link_nil]
    · unfold storeRest
      rw [blockFree_setNext, blockFree_setFree,
        Nat.mod_eq_of_lt (by omega)]
  · rw [if_neg hRoom, splitRest_of_no_room hAligned hRoom]
    have hFront : splitSize b n = b.size :=
      splitSize_of_no_room hRoom
    simp only [Headers, Block.cut, hFront]
    exact ⟨hSize, hNext, hFree, trivial⟩

end Split

------------------------------------------------------------
-- First Fit
------------------------------------------------------------

/-
  The search returns the first free block that is large
  enough, or NULL when there is none.
-/
theorem findFreeBlock_spec
    {mem : ByteMem}
    {a n fuel : Nat}
    {bs : List HeapBlock}
    (hHeaders : Headers mem 0 a bs)
    (ha : 0 < a)
    (hFuel : bs.length < fuel) :
    (findFreeBlock mem n fuel (link a 0 bs) = some 0 ∧
        ∀ b ∈ bs, b.free = true → b.size < n) ∨
      ∃ pre b post, bs = pre ++ b :: post ∧
        b.free = true ∧ n ≤ b.size ∧
        (∀ c ∈ pre, c.free = true → c.size < n) ∧
        findFreeBlock mem n fuel (link a 0 bs) =
          some (a + extent pre) := by
  induction bs generalizing a fuel with
  | nil =>
      cases fuel with
      | zero => simp at hFuel
      | succ fuel =>
          left
          simp [findFreeBlock]
  | cons b bs ih =>
      cases fuel with
      | zero => simp at hFuel
      | succ fuel =>
          rcases hHeaders with ⟨hSize, hNext, hFree, hRest⟩
          simp only [List.length_cons,
            Nat.add_lt_add_iff_right] at hFuel
          simp only [findFreeBlock, link_cons, hSize, hNext, hFree,
            show a ≠ 0 by omega, ne_eq, not_false_eq_true,
            if_true]
          by_cases hFit : b.free = true ∧ n ≤ b.size
          · right
            refine ⟨[], b, bs, rfl, hFit.1, hFit.2, by simp,
              ?_⟩
            simp [hFit.1, hFit.2, extent]
          · have hSkip : b.free = true → b.size < n := by
              intro hOwn
              by_contra hLarge
              exact hFit ⟨hOwn, by omega⟩
            have hTest :
                ¬ (¬ (if b.free then 1 else 0) = 0 ∧
                  n ≤ b.size) := by
              rintro ⟨hOne, hLarge⟩
              apply hFit
              refine ⟨?_, hLarge⟩
              by_contra hOwn
              simp [hOwn] at hOne
            rw [if_neg hTest]
            rcases ih hRest (by omega) hFuel with
              ⟨hNone, hAll⟩ |
              ⟨pre, c, post, rfl, hOwn, hLarge, hPre, hSome⟩
            · left
              refine ⟨hNone, ?_⟩
              intro c hMember
              rcases List.mem_cons.mp hMember with rfl | hc
              · exact hSkip
              · exact hAll c hc
            · right
              refine ⟨b :: pre, c, post, rfl, hOwn, hLarge,
                ?_, ?_⟩
              · intro d hMember
                rcases List.mem_cons.mp hMember with rfl | hd
                · exact hSkip
                · exact hPre d hd
              · rw [hSome, extent_cons]
                congr 1
                omega

------------------------------------------------------------
-- The Merge Sweep
------------------------------------------------------------

/- The stores that merge the block at `a` with the next. -/
def mergeStep
    (mem : ByteMem)
    (a size next : Nat) : ByteMem :=
  setNext (setSize mem a size) a next

theorem mergeStep_outside
    (mem : ByteMem)
    {a size next x : Nat}
    (hOut : x < a ∨ a + 12 ≤ x) :
    mergeStep mem a size next x = mem x := by
  unfold mergeStep
  rw [setNext_outside _ _ _ (by omega),
    setSize_outside _ _ _ (by omega)]

section Sweep

variable {mem : ByteMem} {a next fuel : Nat}

/- An iteration that merges two free blocks. -/
theorem mergeLoop_merge
    (ha : a ≠ 0)
    (hNext : blockNext mem a = next)
    (hApart : a + 12 ≤ next)
    (hFree : blockFree mem a ≠ 0)
    (hFree' : blockFree mem next ≠ 0) :
    mergeLoop (fuel + 1) a mem =
      mergeLoop fuel a
        (mergeStep mem a
          (blockSize mem a + (12 + blockSize mem next))
          (blockNext mem next)) := by
  have hKeep :
      blockNext
          (setSize mem a
            (blockSize mem a + (12 + blockSize mem next)))
          next =
        blockNext mem next :=
    (header_congr fun x hLo _ =>
      (setSize_outside mem a _ (by omega)).symm).2.1
  simp only [mergeLoop, hNext, sizeofMemBlock]
  rw [if_pos ⟨ha, by omega⟩, if_pos ⟨hFree, hFree'⟩,
    blockNext_setSize, hNext, hKeep]
  rfl

/- An iteration that moves to the next block. -/
theorem mergeLoop_next
    (ha : a ≠ 0)
    (hNext : blockNext mem a = next)
    (hNe : next ≠ 0)
    (hBusy : ¬ (blockFree mem a ≠ 0 ∧
      blockFree mem next ≠ 0)) :
    mergeLoop (fuel + 1) a mem = mergeLoop fuel next mem := by
  simp only [mergeLoop, hNext]
  rw [if_pos ⟨ha, hNe⟩, if_neg hBusy]

end Sweep

/- After the stores the header at `a` spans both blocks. -/
theorem headers_mergeStep
    {mem : ByteMem}
    {a : Nat}
    {b c : HeapBlock}
    {cs : List HeapBlock}
    (hHeaders : Headers mem 0 a (b :: c :: cs))
    (hBound : a + extent (b :: c :: cs) < 2 ^ 32) :
    Headers
      (mergeStep mem a (b.size + (12 + c.size))
        (blockNext mem (a + 12 + b.size)))
      0 a (b.merge c :: cs) := by
  rcases hHeaders with
    ⟨_, _, hFree, _, hNext, _, hRest⟩
  simp only [extent_cons] at hBound
  have hEnd :
      a + 12 + (b.merge c).size =
        a + 12 + b.size + 12 + c.size := by
    simp only [Block.merge, heapGeometry_header]
    omega
  refine ⟨?_, ?_, ?_, ?_⟩
  · unfold mergeStep
    rw [blockSize_setNext, blockSize_setSize,
      Nat.mod_eq_of_lt (by omega)]
    rfl
  · unfold mergeStep
    rw [blockNext_setNext,
      Nat.mod_eq_of_lt
        (show blockNext mem _ < 2 ^ 32 from load32_lt mem _),
      hNext, hEnd]
  · unfold mergeStep
    rw [blockFree_setNext, blockFree_setSize, hFree]
    rfl
  · rw [hEnd]
    exact headers_congr hRest fun x hLo _ =>
      (mergeStep_outside mem (by omega)).symm

/-
  A sweep from the block at `a` leaves the coalesced list, and
  it keeps every byte outside the list and in a busy payload.
-/
structure Swept
    (mem mem' : ByteMem)
    (a : Nat)
    (b : HeapBlock)
    (bs : List HeapBlock) : Prop where
  headers : Headers mem' 0 a (coalesceFrom b bs)
  outside :
    ∀ x, x < a ∨ a + extent (b :: bs) ≤ x → mem' x = mem x
  keeps :
    ∀ p s, (p, s) ∈ busy a (b :: bs) →
      AgreeOn mem' mem p (p + s)

section SweepSteps

variable {mem mem' : ByteMem} {a size next : Nat}
variable {b c : HeapBlock} {cs : List HeapBlock}

/- The sweep of a merged block is one of the two blocks. -/
theorem Swept.merge
    (hBoth : b.free = true ∧ c.free = true)
    (hSwept :
      Swept (mergeStep mem a size next) mem' a (b.merge c)
        cs) :
    Swept mem mem' a b (c :: cs) := by
  have hExtent := extent_merge b c cs
  have hBusy := busy_merge a cs hBoth
  refine ⟨?_, ?_, ?_⟩
  · unfold coalesceFrom
    rw [if_pos hBoth]
    exact hSwept.headers
  · intro x hOut
    rw [← hExtent] at hOut
    rw [hSwept.outside x hOut, mergeStep_outside]
    rw [hExtent, extent_cons] at hOut
    omega
  · intro p s hMember
    rw [← hBusy] at hMember
    have hBounds := (busy_bounds hMember).1
    rw [heapGeometry_header] at hBounds
    refine (hSwept.keeps p s hMember).trans ?_
    intro x hLo _
    exact mergeStep_outside mem (by omega)

/- The sweep of the next block keeps the block before it. -/
theorem Swept.skip
    (hNot : ¬ (b.free = true ∧ c.free = true))
    (hHeaders : Headers mem 0 a (b :: c :: cs))
    (hSwept : Swept mem mem' (a + 12 + b.size) c cs) :
    Swept mem mem' a b (c :: cs) := by
  rcases hHeaders with ⟨hSize, hNext, hFree, _⟩
  have hAgree : AgreeOn mem mem' a (a + 12) :=
    fun x _ hHi => (hSwept.outside x (by omega)).symm
  have hHeader := header_congr hAgree
  refine ⟨?_, ?_, ?_⟩
  · unfold coalesceFrom
    rw [if_neg hNot]
    refine ⟨?_, ?_, ?_, hSwept.headers⟩
    · rw [hHeader.1, hSize]
    · rw [hHeader.2.1, hNext, link_cons,
        link_of_ne_nil _ _ (coalesceFrom_ne_nil c cs)]
    · rw [hHeader.2.2, hFree]
  · intro x hOut
    rw [extent_cons b] at hOut
    exact hSwept.outside x (by omega)
  · intro p s hMember
    unfold busy at hMember
    split at hMember
    · exact hSwept.keeps p s hMember
    · rcases List.mem_cons.mp hMember with hEq | hLater
      · cases hEq
        intro x _ hHi
        rw [heapGeometry_header] at hHi
        exact hSwept.outside x (Or.inl hHi)
      · exact hSwept.keeps p s hLater

/- The free marks in memory are those of the blocks. -/
theorem Headers.free_iff
    (hHeaders : Headers mem 0 a (b :: cs)) :
    blockFree mem a ≠ 0 ↔ b.free = true := by
  rw [hHeaders.2.2.1]
  cases b.free <;> simp

end SweepSteps

/- The sweep from a block ends and leaves a swept list. -/
theorem mergeLoop_spec
    {mem : ByteMem}
    {a fuel : Nat}
    {b : HeapBlock}
    {bs : List HeapBlock}
    (hHeaders : Headers mem 0 a (b :: bs))
    (ha : 0 < a)
    (hBound : a + extent (b :: bs) < 2 ^ 32)
    (hFuel : bs.length < fuel) :
    ∃ mem', mergeLoop fuel a mem = some mem' ∧
      Swept mem mem' a b bs := by
  induction bs generalizing mem a b fuel with
  | nil =>
      cases fuel with
      | zero => simp at hFuel
      | succ fuel =>
          refine ⟨mem, ?_, hHeaders, fun _ _ => rfl,
            fun _ _ _ => AgreeOn.refl _ _ _⟩
          simp [mergeLoop, hHeaders.2.1, link]
  | cons c cs ih =>
      cases fuel with
      | zero => simp at hFuel
      | succ fuel =>
          have hSize := hHeaders.1
          have hNext := hHeaders.2.1
          have hRest := hHeaders.2.2.2
          have hSize' := hRest.1
          simp only [List.length_cons,
            Nat.add_lt_add_iff_right] at hFuel
          rw [link_cons] at hNext
          by_cases hBoth : b.free = true ∧ c.free = true
          · have hStep := headers_mergeStep hHeaders hBound
            rw [← extent_merge b c cs] at hBound
            rcases ih hStep ha hBound hFuel with
              ⟨mem', hLoop, hSwept⟩
            refine ⟨mem', ?_, hSwept.merge hBoth⟩
            rw [mergeLoop_merge (by omega) hNext (by omega)
              (hHeaders.free_iff.mpr hBoth.1)
              (hRest.free_iff.mpr hBoth.2), hSize, hSize']
            exact hLoop
          · have hRestBound :
                a + 12 + b.size + extent (c :: cs) < 2 ^ 32 := by
              rw [extent_cons b] at hBound
              omega
            rcases ih hRest (by omega) hRestBound hFuel with
              ⟨mem', hLoop, hSwept⟩
            refine ⟨mem', ?_, hSwept.skip hBoth hHeaders⟩
            rw [mergeLoop_next (by omega) hNext (by omega)]
            · exact hLoop
            · rw [hHeaders.free_iff, hRest.free_iff]
              exact hBoth

end Heap

end AsmOS
