import Mathlib.Data.List.Basic
import Mathlib.Tactic.Ring

/-
  Circular buffers that keep one slot empty.

  A buffer of `n` slots holds the elements from `head` up to
  `tail`, both below `n` and counted round the end.  What lies
  in the slots is a function of the index, so that the slots
  may be decoded from a larger memory.

  Main declarations:
    * `RingBuffer.next`, `RingBuffer.contents`
    * `RingBuffer.contents_eq_nil_iff`, `RingBuffer.full_iff`
    * `RingBuffer.contents_push`, `RingBuffer.contents_pop`
-/

------------------------------------------------------------
-- Indices
------------------------------------------------------------

namespace RingBuffer

variable {α : Type} {n head tail : Nat}

/- The index after `i`. -/
def next
    (n i : Nat) : Nat :=
  (i + 1) % n

/- How many elements lie from `head` up to `tail`. -/
def count
    (n head tail : Nat) : Nat :=
  (tail + n - head) % n

/- The elements, the oldest first. -/
def contents
    (n : Nat)
    (slots : Nat → α)
    (head tail : Nat) : List α :=
  (List.range (count n head tail)).map fun i =>
    slots ((head + i) % n)

theorem next_lt
    (i : Nat)
    (hSize : 0 < n) :
    next n i < n :=
  Nat.mod_lt _ hSize

/- Within the buffer, an index wraps at most once. -/
theorem mod_eq_ite
    {i : Nat}
    (hi : i < 2 * n) :
    i % n = if i < n then i else i - n := by
  split
  next hSmall => exact Nat.mod_eq_of_lt hSmall
  next hLarge =>
    rw [Nat.mod_eq_sub_mod (Nat.le_of_not_lt hLarge)]
    exact Nat.mod_eq_of_lt (by omega)

theorem next_eq_ite
    {i : Nat}
    (hi : i < n) :
    next n i = if i + 1 < n then i + 1 else 0 := by
  unfold next
  rw [mod_eq_ite (by omega)]
  split
  · rfl
  · omega

theorem count_eq_ite
    (hHead : head < n)
    (hTail : tail < n) :
    count n head tail =
      if head ≤ tail then tail - head else tail + n - head := by
  unfold count
  rw [mod_eq_ite (by omega)]
  split
  · rw [if_neg (by omega)]
  · rw [if_pos (by omega)]
    omega

@[simp] theorem contents_length
    (slots : Nat → α) :
    (contents n slots head tail).length =
      count n head tail := by
  simp [contents]

------------------------------------------------------------
-- Empty And Full
------------------------------------------------------------

theorem count_eq_zero_iff
    (hHead : head < n)
    (hTail : tail < n) :
    count n head tail = 0 ↔ head = tail := by
  rw [count_eq_ite hHead hTail]
  split
  · omega
  · omega

theorem contents_eq_nil_iff
    (slots : Nat → α)
    (hHead : head < n)
    (hTail : tail < n) :
    contents n slots head tail = [] ↔ head = tail := by
  rw [← count_eq_zero_iff hHead hTail,
    ← contents_length slots, List.length_eq_zero_iff]

/- The buffer is full with one slot left. -/
theorem full_iff
    (slots : Nat → α)
    (hHead : head < n)
    (hTail : tail < n) :
    next n tail = head ↔
      (contents n slots head tail).length = n - 1 := by
  rw [contents_length, count_eq_ite hHead hTail,
    next_eq_ite hTail]
  split
  · split
    · omega
    · omega
  · split
    · omega
    · omega

------------------------------------------------------------
-- Push And Pop
------------------------------------------------------------

theorem count_push
    (hHead : head < n)
    (hTail : tail < n)
    (hFree : next n tail ≠ head) :
    count n head (next n tail) = count n head tail + 1 := by
  have hNext : next n tail < n := next_lt tail (by omega)
  rw [count_eq_ite hHead hNext, count_eq_ite hHead hTail]
  rw [next_eq_ite hTail] at hFree ⊢
  by_cases hWrap : tail + 1 < n
  · rw [if_pos hWrap] at hFree ⊢
    by_cases hOrder : head ≤ tail
    · rw [if_pos hOrder, if_pos (by omega)]
      omega
    · rw [if_neg hOrder, if_neg (by omega)]
      omega
  · rw [if_neg hWrap] at hFree ⊢
    rw [if_neg (by omega), if_pos (by omega)]
    omega

/- An index inside the contents is not the tail. -/
theorem index_ne_tail
    (hHead : head < n)
    (hTail : tail < n)
    {i : Nat}
    (hi : i < count n head tail) :
    (head + i) % n ≠ tail := by
  rw [count_eq_ite hHead hTail] at hi
  rw [mod_eq_ite (by split at hi <;> omega)]
  split at hi
  · split
    · omega
    · omega
  · split
    · omega
    · omega

theorem index_tail
    (hHead : head < n)
    (hTail : tail < n) :
    (head + count n head tail) % n = tail := by
  rw [count_eq_ite hHead hTail,
    mod_eq_ite (by split <;> omega)]
  split
  · rw [if_pos (by omega)]
    omega
  · rw [if_neg (by omega)]
    omega

/- Filling the slot at the tail appends an element. -/
theorem contents_push
    {slots slots' : Nat → α}
    (hHead : head < n)
    (hTail : tail < n)
    (hFree : next n tail ≠ head)
    (hOther : ∀ i < n, i ≠ tail → slots' i = slots i) :
    contents n slots' head (next n tail) =
      contents n slots head tail ++ [slots' tail] := by
  unfold contents
  rw [count_push hHead hTail hFree, List.range_succ,
    List.map_append, List.map_singleton,
    index_tail hHead hTail]
  congr 1
  apply List.map_congr_left
  intro i hi
  exact hOther _ (Nat.mod_lt _ (by omega))
    (index_ne_tail hHead hTail (List.mem_range.mp hi))

theorem count_pop
    (hHead : head < n)
    (hTail : tail < n)
    (hSome : head ≠ tail) :
    count n head tail = count n (next n head) tail + 1 := by
  have hNext : next n head < n := next_lt head (by omega)
  rw [count_eq_ite hHead hTail, count_eq_ite hNext hTail,
    next_eq_ite hHead]
  by_cases hWrap : head + 1 < n
  · rw [if_pos hWrap]
    by_cases hOrder : head ≤ tail
    · rw [if_pos hOrder, if_pos (by omega)]
      omega
    · rw [if_neg hOrder, if_neg (by omega)]
      omega
  · rw [if_neg hWrap, if_neg (by omega), if_pos (by omega)]
    omega

/- Advancing the head takes the oldest element. -/
theorem contents_pop
    (slots : Nat → α)
    (hHead : head < n)
    (hTail : tail < n)
    (hSome : head ≠ tail) :
    contents n slots head tail =
      slots head :: contents n slots (next n head) tail := by
  unfold contents
  rw [count_pop hHead hTail hSome, List.range_succ_eq_map,
    List.map_cons, Nat.add_zero, Nat.mod_eq_of_lt hHead,
    List.map_map]
  congr 1
  apply List.map_congr_left
  intro i _
  have hIndex : (head + (i + 1)) % n = (next n head + i) % n := by
    unfold next
    rw [Nat.mod_add_mod]
    congr 1
    ring
  exact congrArg slots hIndex

end RingBuffer
