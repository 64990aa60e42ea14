import AsmOS.Base.Linked
import AsmOS.Heap.Client

/-
  The heap list tiles the pool in every reachable state.

  Main declarations:
    * `Tiled`, `LiveApart`
    * `Represents.tiled`
    * `reachable_tiled`
-/

------------------------------------------------------------
-- Statements
------------------------------------------------------------

namespace AsmOS

namespace Heap

open ByteMem BlockTiling

/-
  The blocks found by following `next` from `free_list` cover
  the pool: the first is at its base, each starts where the
  one before it ends, and together they have its size.
-/
structure Tiled
    (pool : Pool)
    (heap : State)
    (addrs : List Nat) : Prop where
  walk :
    Linked.Walks (blockNext heap.mem) (fun a => a = 0)
      heap.freeList addrs
  first : addrs.head? = some pool.base
  next :
    ∀ i, (hi : i + 1 < addrs.length) →
      blockNext heap.mem addrs[i] = addrs[i + 1] ∧
        addrs[i + 1] =
          addrs[i] + 12 + blockSize heap.mem addrs[i]
  last :
    ∀ a, addrs.getLast? = some a → blockNext heap.mem a = 0
  aligned : ∀ a ∈ addrs, blockSize heap.mem a % 4 = 0
  total :
    (addrs.map fun a => 12 + blockSize heap.mem a).sum =
      memoryPoolSize

/-
  Every live pointer is the payload of a block in use inside
  the pool, and it overlaps no header and no other live
  payload.
-/
structure LiveApart
    (pool : Pool)
    (c : Client)
    (addrs : List Nat) : Prop where
  block :
    ∀ p n, c.owned p = some n →
      ∃ a ∈ addrs, p = a + 12 ∧
        blockFree c.heap.mem a = 0 ∧
        n ≤ blockSize c.heap.mem a ∧
        pool.base ≤ a ∧
        p + blockSize c.heap.mem a ≤
          pool.base + memoryPoolSize
  headers :
    ∀ p n, c.owned p = some n → ∀ a ∈ addrs,
      a + 12 ≤ p ∨ p + blockSize c.heap.mem (p - 12) ≤ a
  payloads :
    ∀ p n q m, c.owned p = some n → c.owned q = some m →
      p ≠ q →
        p + blockSize c.heap.mem (p - 12) ≤ q ∨
          q + blockSize c.heap.mem (q - 12) ≤ p

------------------------------------------------------------
-- The Block List In Memory
------------------------------------------------------------

section Lists

variable {mem : ByteMem} {a e : Nat}
variable {bs : List HeapBlock}

theorem starts_cons
    (a : Nat)
    (b : HeapBlock)
    (bs : List HeapBlock) :
    starts a (b :: bs) = a :: starts (a + 12 + b.size) bs :=
  rfl

/- Following `next` visits the headers in order. -/
theorem Headers.walks
    (hHeaders : Headers mem 0 a bs)
    (ha : 0 < a) :
    Linked.Walks (blockNext mem) (fun a => a = 0)
      (link a 0 bs) (starts a bs) := by
  induction bs generalizing a with
  | nil => rfl
  | cons b bs ih =>
      rcases hHeaders with ⟨_, hNext, _, hRest⟩
      refine ⟨?_, rfl, ?_⟩
      · rw [link_cons]
        omega
      · rw [link_cons, hNext]
        exact ih hRest (by omega)

/- Each header address is the end of the block before it. -/
theorem Headers.next_start
    (hHeaders : Headers mem e a bs)
    (i : Nat)
    (hi : i + 1 < (starts a bs).length) :
    blockNext mem (starts a bs)[i] = (starts a bs)[i + 1] ∧
      (starts a bs)[i + 1] =
        (starts a bs)[i] + 12 +
          blockSize mem (starts a bs)[i] := by
  induction bs generalizing a i with
  | nil => simp [starts] at hi
  | cons b bs ih =>
      rcases hHeaders with ⟨hSize, hNext, _, hRest⟩
      simp only [starts_cons, List.length_cons] at hi
      cases i with
      | zero =>
          cases bs with
          | nil => simp [starts] at hi
          | cons c cs =>
              simp only [starts_cons, List.getElem_cons_zero,
                List.getElem_cons_succ, hSize, hNext,
                link_cons, and_self]
      | succ i =>
          simp only [starts_cons, List.getElem_cons_succ]
          exact ih hRest i (by omega)

/- The last block points to the end of the list. -/
theorem Headers.last_next
    (hHeaders : Headers mem e a bs)
    {x : Nat}
    (hLast : (starts a bs).getLast? = some x) :
    blockNext mem x = e := by
  induction bs generalizing a with
  | nil => simp [starts] at hLast
  | cons b bs ih =>
      rcases hHeaders with ⟨_, hNext, _, hRest⟩
      cases bs with
      | nil =>
          simp only [starts, List.getLast?_singleton,
            Option.some.injEq] at hLast
          rw [← hLast, hNext, link_nil]
      | cons c cs =>
          apply ih hRest
          simpa [starts_cons, List.getLast?_cons_cons]
            using hLast

theorem Headers.aligned
    (hHeaders : Headers mem e a bs) :
    ∀ x ∈ starts a bs, blockSize mem x % 4 = 0 := by
  induction bs generalizing a with
  | nil => simp [starts]
  | cons b bs ih =>
      rcases hHeaders with ⟨hSize, _, _, hRest⟩
      have hUnit : 4 ∣ b.size := b.aligned
      intro x hMember
      rcases List.mem_cons.mp hMember with rfl | hMember
      · rw [hSize]
        omega
      · exact ih hRest x hMember

theorem Headers.sum_sizes
    (hHeaders : Headers mem e a bs) :
    ((starts a bs).map fun x => 12 + blockSize mem x).sum =
      extent bs := by
  induction bs generalizing a with
  | nil => rfl
  | cons b bs ih =>
      rcases hHeaders with ⟨hSize, _, _, hRest⟩
      rw [starts_cons, List.map_cons, List.sum_cons, ih hRest,
        hSize, extent_cons]

end Lists

------------------------------------------------------------
-- Represented Heaps Are Tiled
------------------------------------------------------------

section Represented

variable {pool : Pool} {heap : State} {c : Client}
variable {bs : List HeapBlock}

theorem Represents.tiled
    (hHeap : Represents pool heap bs) :
    Tiled pool heap (starts pool.base bs) where
  walk := by
    have hWalk := hHeap.headers.walks pool.base_pos
    rw [link_of_ne_nil _ _ hHeap.ne_nil] at hWalk
    rw [hHeap.head]
    exact hWalk
  first := by
    cases bs with
    | nil => exact absurd rfl hHeap.ne_nil
    | cons b bs => rfl
  next := fun i hi => hHeap.headers.next_start i hi
  last := fun _ hLast => hHeap.headers.last_next hLast
  aligned := hHeap.headers.aligned
  total := by rw [hHeap.headers.sum_sizes, hHeap.total]

/- A payload in use is twelve bytes behind a block start. -/
theorem payload_start
    {p s : Nat}
    (hMember : (p, s) ∈ payloads pool bs) :
    ∃ a ∈ starts pool.base bs, p = a + 12 := by
  rcases mem_busy_iff.mp hMember with
    ⟨pre, b, post, rfl, _, hp, _⟩
  refine ⟨pool.base + extent pre, ?_, hp⟩
  rw [starts_append]
  exact List.mem_append_right _ List.mem_cons_self

theorem Invariant.liveApart
    (hInv : Invariant pool c bs) :
    LiveApart pool c (starts pool.base bs) where
  block := by
    intro p n hOwned
    rcases hInv.owned p n hOwned with ⟨s, hSize, hMember⟩
    rcases payload_start hMember with ⟨a, hStart, rfl⟩
    have hHeader := hInv.represents.payload_header hMember
    have hBounds := payload_bounds hMember
    rw [Nat.add_sub_cancel] at hHeader
    rw [hInv.represents.total] at hBounds
    refine ⟨a, hStart, rfl, hHeader.2, ?_, by omega, ?_⟩
    · rw [hHeader.1]
      exact hSize
    · rw [hHeader.1]
      exact hBounds.2.2
  headers := by
    intro p n hOwned a hStart
    rcases hInv.owned p n hOwned with ⟨s, _, hMember⟩
    rw [(hInv.represents.payload_header hMember).1]
    exact busy_apart_start hMember hStart
  payloads := by
    intro p n q m hOwned hOwned' hNe
    rcases hInv.owned p n hOwned with ⟨s, _, hMember⟩
    rcases hInv.owned q m hOwned' with ⟨t, _, hMember'⟩
    have hApart := busy_apart hMember hMember'
    rw [heapGeometry_header] at hApart
    rw [(hInv.represents.payload_header hMember).1,
      (hInv.represents.payload_header hMember').1]
    omega

end Represented

------------------------------------------------------------
-- Every Reachable State
------------------------------------------------------------

/-
  In every reachable state the list tiles the pool, the live
  payloads are apart from each other and from every header,
  and every valid call returns, with a result that is not
  live yet unless it is the pointer that was passed.
-/
theorem reachable_tiled
    {pool : Pool}
    {c : Client}
    (hReach : Reachable pool c) :
    (∃ addrs, Tiled pool c.heap addrs ∧
      LiveApart pool c addrs) ∧
    ∀ call : HeapCall, call.Valid c →
      ∃ r c', call.run pool c = some (r, c') ∧
        (r ≠ 0 → ∀ n, c.owned r = some n →
          r = call.passed) := by
  rcases reachable_invariant hReach with ⟨bs, hInv⟩
  refine ⟨⟨_, hInv.represents.tiled, hInv.liveApart⟩, ?_⟩
  intro call hValid
  rcases run_outcome hInv call hValid with
    ⟨r, c', bs', hRun, hOutcome⟩
  exact ⟨r, c', hRun, hOutcome.fresh⟩

/- A pool at one megabyte. -/
def samplePool : Pool where
  base := 0x100000
  base_pos := by norm_num
  top_lt := by norm_num

/- The state after one allocation is tiled. -/
theorem reachable_tiled_malloc :
    ∃ r c,
      (HeapCall.malloc 10).run samplePool
          (.start samplePool zeros) =
        some (r, c) ∧
      ∃ addrs, Tiled samplePool c.heap addrs ∧
        LiveApart samplePool c addrs := by
  have hStart :
      Reachable samplePool (.start samplePool zeros) :=
    .start zeros
  have hValid :
      (HeapCall.malloc 10).Valid
        (.start samplePool zeros) := by
    show 10 + 3 < 2 ^ 32
    norm_num
  rcases (reachable_tiled hStart).2 _ hValid with
    ⟨r, c, hRun, _⟩
  exact ⟨r, c, hRun,
    (reachable_tiled (hStart.call _ hValid hRun)).1⟩

end Heap

end AsmOS
