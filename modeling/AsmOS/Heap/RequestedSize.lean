import AsmOS.Heap.LiveData

/-
  Whether an allocation is as large as the call asked for.

  `ALIGN` and the product of `calloc` wrap at `2 ^ 32`, so a
  call can look for a block smaller than it was asked for.

  Main declarations:
    * `HeapCall.exact`, `HeapCall.asks`
    * `HasPayload`, `HeapCall.AtLeast`
    * `State.Lacks`, `HeapCall.Granted`
    * `malloc_cases`
    * `atLeast_wrapped_iff`
    * `RoundedRun`, `atLeast_iff`
-/

------------------------------------------------------------
-- Statements
------------------------------------------------------------

namespace AsmOS

namespace Heap

open ByteMem BlockTiling

/- The bytes that a caller wants, in exact integers. -/
def HeapCall.exact : HeapCall → Nat
| .malloc n => n
| .calloc nmemb size => nmemb * size
| .free _ => 0
| .realloc _ n => n

/- The bytes that the call asks `malloc` for. -/
def HeapCall.asks : HeapCall → Nat
| .malloc n => n
| .calloc nmemb size => callocSize nmemb size
| .free _ => 0
| .realloc _ n => n

/- The pointer passed to a call is NULL or live. -/
def HeapCall.PassesLive
    (c : Client)
    (call : HeapCall) : Prop :=
  c.Live call.passed

/-
  `p` is the payload of a block in use that has at least `n`
  bytes and ends in the pool.
-/
structure HasPayload
    (pool : Pool)
    (heap : State)
    (p n : Nat) : Prop where
  live : LiveBlock heap p
  size : n ≤ blockSize heap.mem (p - 12)
  inside :
    p + blockSize heap.mem (p - 12) ≤
      pool.base + memoryPoolSize

/-
  The call returns, and a result that is not NULL has at
  least the bytes that its caller wants.
-/
def HeapCall.AtLeast
    (pool : Pool)
    (c : Client)
    (call : HeapCall) : Prop :=
  ∃ r c', call.run pool c = some (r, c') ∧
    (r ≠ 0 → HasPayload pool c'.heap r call.exact)

/- No free block of the heap's list has `n` bytes. -/
def State.Lacks
    (heap : State)
    (n : Nat) : Prop :=
  ∀ addrs,
    Linked.Walks (blockNext heap.mem) (fun a => a = 0)
        heap.freeList addrs →
      ∀ a ∈ addrs, blockFree heap.mem a ≠ 0 →
        blockSize heap.mem a < n

/-
  Rounding the wanted bytes does not wrap, or `malloc` is
  asked for none, or for more than any free block has.
-/
def HeapCall.Granted
    (c : Client)
    (call : HeapCall) : Prop :=
  call.exact + 3 < 2 ^ 32 ∨ call.asks = 0 ∨
    c.heap.Lacks (align call.asks)

/-
  Rounding the bytes that `malloc` is asked for does not
  wrap, or no free block has the wrapped number.
-/
def HeapCall.Rounds
    (c : Client)
    (call : HeapCall) : Prop :=
  call.asks + 3 < 2 ^ 32 ∨ c.heap.Lacks (align call.asks)

/- The states of runs whose calls all round. -/
inductive RoundedRun
    (pool : Pool) : Client → Prop where
| start (mem : ByteMem) : RoundedRun pool (.start pool mem)
| call
    {c c' : Client}
    {r : Nat}
    (call : HeapCall)
    (hRun : RoundedRun pool c)
    (hLive : call.PassesLive c)
    (hRounds : call.Rounds c)
    (hCall : call.run pool c = some (r, c')) :
    RoundedRun pool c'
| write
    {c : Client}
    {p n i : Nat}
    (v : UInt8)
    (hRun : RoundedRun pool c)
    (hOwned : c.owned p = some n)
    (hi : i < n) :
    RoundedRun pool (c.write p i v)

theorem HeapCall.asks_le_exact
    (call : HeapCall) :
    call.asks ≤ call.exact := by
  cases call with
  | malloc n => exact Nat.le_refl n
  | calloc nmemb size => exact Nat.mod_le _ _
  | free p => exact Nat.le_refl 0
  | realloc p n => exact Nat.le_refl n

/- A call whose wanted bytes round is granted as asked. -/
theorem HeapCall.asks_eq_exact
    {call : HeapCall}
    (hRounds : call.exact + 3 < 2 ^ 32) :
    call.asks = call.exact := by
  cases call with
  | malloc n => rfl
  | calloc nmemb size =>
      have hProduct : nmemb * size + 3 < 2 ^ 32 := hRounds
      exact Nat.mod_eq_of_lt (by omega)
  | free p => rfl
  | realloc p n => rfl

theorem HeapCall.valid_of_asks
    {c : Client}
    {call : HeapCall}
    (hLive : call.PassesLive c)
    (hRounds : call.asks + 3 < 2 ^ 32) :
    call.Valid c := by
  cases call with
  | malloc n => exact hRounds
  | calloc nmemb size => exact hRounds
  | free p => exact hLive
  | realloc p n => exact ⟨hLive, hRounds⟩

theorem HeapCall.Granted.rounds
    {c : Client}
    {call : HeapCall}
    (hGranted : call.Granted c) :
    call.Rounds c := by
  have hAsks := call.asks_le_exact
  rcases hGranted with hExact | hZero | hLacks
  · exact Or.inl (by omega)
  · exact Or.inl (by omega)
  · exact Or.inr hLacks

------------------------------------------------------------
-- Free Blocks
------------------------------------------------------------

section FreeBlocks

variable {pool : Pool} {heap heap' : State}
variable {mem : ByteMem} {a e n p r : Nat}
variable {bs : List HeapBlock}

/- The marks and sizes of a list are those of its headers. -/
theorem Headers.forall_free_iff
    (hHeaders : Headers mem e a bs) :
    (∀ x ∈ starts a bs, blockFree mem x ≠ 0 →
        blockSize mem x < n) ↔
      ∀ b ∈ bs, b.free = true → b.size < n := by
  induction bs generalizing a with
  | nil => simp [starts]
  | cons b bs ih =>
      rcases hHeaders with ⟨hSize, _, hFree, hRest⟩
      rw [starts_cons, List.forall_mem_cons,
        List.forall_mem_cons, ih hRest, hSize, hFree]
      cases b.free <;> simp

theorem Represents.lacks_iff
    (hHeap : Represents pool heap bs) :
    heap.Lacks n ↔
      ∀ b ∈ bs, b.free = true → b.size < n := by
  have hWalk := hHeap.tiled.walk
  rw [← hHeap.headers.forall_free_iff]
  constructor
  · intro hLacks
    exact hLacks _ hWalk
  · intro hBlocks addrs hOther
    rw [hOther.unique hWalk]
    exact hBlocks

/-
  `malloc` of any size, wrapped or not: NULL and no effect,
  or a pointer, as some free block has the rounded size.
-/
theorem malloc_cases
    (hHeap : Represents pool heap bs)
    (n : Nat) :
    (malloc heap n = some (0, heap) ∧
        (n = 0 ∨ heap.Lacks (align n))) ∨
      ∃ p heap', p ≠ 0 ∧ malloc heap n = some (p, heap') ∧
        ¬ (n = 0 ∨ heap.Lacks (align n)) := by
  rw [hHeap.lacks_iff]
  rcases malloc_search hHeap n with
    hNone | ⟨hZero, pre, b, post, rfl, hFree, hFits, hCall⟩
  · exact Or.inl hNone
  · have hBase := pool.base_pos
    refine Or.inr ⟨_, _, by omega, hCall, ?_⟩
    rintro (hContra | hLacks)
    · exact hZero hContra
    · have hSmall := hLacks b (by simp) hFree
      omega

/- A payload is too small for a size that wraps. -/
theorem HasPayload.size_lt
    (hPayload : HasPayload pool heap p n) :
    n + 3 < 2 ^ 32 := by
  rcases hPayload with
    ⟨⟨addrs, a, hWalk, hMember, rfl, _⟩, hSize, hInside⟩
  have hNull : a ≠ 0 := hWalk.not_stop hMember
  have hTop := pool.top_lt
  omega

/- The block of a live pointer has fewer bytes than the pool. -/
theorem Represents.payload_lt
    (hHeap : Represents pool heap bs)
    {s : Nat}
    (hBusy : (p, s) ∈ payloads pool bs) :
    s + 3 < 2 ^ 32 := by
  have hBounds := payload_bounds hBusy
  have hTop := pool.top_lt
  rw [hHeap.total] at hBounds
  omega

end FreeBlocks

------------------------------------------------------------
-- Calls That Wrap
------------------------------------------------------------

section Wrapped

variable {pool : Pool} {c : Client}
variable {bs : List HeapBlock} {call : HeapCall}

/- A `realloc` to a size that wraps goes through `malloc`. -/
theorem realloc_wrapped
    (hInv : Invariant pool c bs)
    {p n : Nat}
    (hLive : c.Live p)
    (hWraps : ¬ n + 3 < 2 ^ 32)
    {q : Nat}
    {heap' : State}
    (hMalloc : malloc c.heap n = some (q, heap')) :
    (q = 0 → realloc pool c.heap p n = some (0, heap')) ∧
      (q ≠ 0 → ∀ r heap'',
        realloc pool c.heap p n = some (r, heap'') →
          r ≠ 0) := by
  rcases hLive with rfl | ⟨m, hOwned⟩
  · have hSame :
        realloc pool c.heap 0 n = some (q, heap') := by
      simp [realloc, hMalloc]
    rw [hSame]
    constructor
    · rintro rfl
      rfl
    · intro hNull r heap'' hEq
      cases hEq
      exact hNull
  · rcases hInv.owned p m hOwned with ⟨s, _, hMember⟩
    have hBounds := payload_bounds hMember
    have hSmall := hInv.represents.payload_lt hMember
    have hHeader :=
      (hInv.represents.payload_header hMember).1
    have hPtr : p ≠ 0 := by omega
    have hSize : n ≠ 0 := by omega
    have hGrow :
        ¬ n ≤ blockSize c.heap.mem (p - sizeofMemBlock) := by
      simp only [sizeofMemBlock]
      omega
    rw [realloc_of_malloc hPtr hSize hGrow hMalloc]
    constructor
    · intro hNull
      rw [if_pos hNull]
    · intro hNull r heap'' hEq
      rw [if_neg hNull] at hEq
      rcases Option.map_eq_some_iff.mp hEq with
        ⟨_, _, hPair⟩
      cases hPair
      exact hNull

theorem run_of_malloc
    {n q : Nat}
    {heap' : State}
    (hMalloc : malloc c.heap n = some (q, heap')) :
    (HeapCall.malloc n).run pool c =
      some (q, ⟨heap', grant c.owned q n⟩) := by
  simp [HeapCall.run, hMalloc]

/- What a call that wraps makes of the result of `malloc`. -/
theorem run_wrapped
    (hInv : Invariant pool c bs)
    (hLive : call.PassesLive c)
    (hWraps : ¬ call.exact + 3 < 2 ^ 32)
    {q : Nat}
    {heap' : State}
    (hMalloc : malloc c.heap call.asks = some (q, heap')) :
    (q = 0 → heap' = c.heap →
        call.run pool c = some (0, c)) ∧
      (q ≠ 0 → ∀ r c', call.run pool c = some (r, c') →
        r ≠ 0) := by
  cases call with
  | malloc n =>
      simp only [HeapCall.asks] at hMalloc
      rw [run_of_malloc hMalloc]
      constructor
      · rintro rfl rfl
        rfl
      · intro hNull r c' hEq
        cases hEq
        exact hNull
  | calloc nmemb size =>
      have hCall := calloc_of_malloc hMalloc
      constructor
      · rintro rfl rfl
        simp [HeapCall.run, hCall, grant]
      · intro hNull r c' hEq
        rw [if_pos hNull] at hCall
        simp only [HeapCall.run, hCall, Option.map_some,
          Option.some.injEq, Prod.mk.injEq] at hEq
        rw [← hEq.1]
        exact hNull
  | free p =>
      simp only [HeapCall.exact] at hWraps
      omega
  | realloc p n =>
      simp only [HeapCall.exact, HeapCall.asks,
        HeapCall.PassesLive, HeapCall.passed]
        at hLive hWraps hMalloc
      rcases realloc_wrapped hInv hLive hWraps hMalloc with
        ⟨hFailed, hGrown⟩
      have hPos : n ≠ 0 := by omega
      constructor
      · rintro hNull rfl
        simp [HeapCall.run, hFailed hNull, hPos]
      · intro hNull r c' hEq
        rcases Option.map_eq_some_iff.mp hEq with
          ⟨out, hOut, hPair⟩
        cases hPair
        exact hGrown hNull _ _ hOut

/- A call that wraps and asks in vain has no effect. -/
theorem run_refused
    (hInv : Invariant pool c bs)
    (hLive : call.PassesLive c)
    (hWraps : ¬ call.exact + 3 < 2 ^ 32)
    (hRefused :
      call.asks = 0 ∨ c.heap.Lacks (align call.asks)) :
    call.run pool c = some (0, c) := by
  rcases malloc_cases hInv.represents call.asks with
    ⟨hMalloc, _⟩ | ⟨_, _, _, _, hNot⟩
  · exact (run_wrapped hInv hLive hWraps hMalloc).1 rfl rfl
  · exact absurd hRefused hNot

/- A call that wraps has enough bytes only for NULL. -/
theorem atLeast_wrapped_iff
    (hInv : Invariant pool c bs)
    (hLive : call.PassesLive c)
    (hWraps : ¬ call.exact + 3 < 2 ^ 32) :
    call.AtLeast pool c ↔
      call.asks = 0 ∨ c.heap.Lacks (align call.asks) := by
  constructor
  · rintro ⟨r, c', hRun, hEnough⟩
    have hNull : r = 0 := by
      by_contra hNe
      exact hWraps (hEnough hNe).size_lt
    rcases malloc_cases hInv.represents call.asks with
      ⟨_, hRefused⟩ | ⟨q, heap', hSome, hMalloc, _⟩
    · exact hRefused
    · exact absurd hNull
        ((run_wrapped hInv hLive hWraps hMalloc).2 hSome
          r c' hRun)
  · intro hRefused
    exact ⟨0, c, run_refused hInv hLive hWraps hRefused,
      fun hContra => absurd rfl hContra⟩

end Wrapped

------------------------------------------------------------
-- Calls That Do Not Wrap
------------------------------------------------------------

section Valid

variable {pool : Pool} {c c' : Client}
variable {bs : List HeapBlock} {call : HeapCall} {r n : Nat}

/- A result is live with the bytes asked for. -/
theorem run_owned
    (hRun : call.run pool c = some (r, c'))
    (hNull : r ≠ 0) :
    c'.owned r = some call.asks := by
  cases call with
  | malloc n =>
      rcases Option.map_eq_some_iff.mp hRun with
        ⟨out, _, hPair⟩
      cases hPair
      simp [grant, hNull, HeapCall.asks]
  | calloc nmemb size =>
      rcases Option.map_eq_some_iff.mp hRun with
        ⟨out, _, hPair⟩
      cases hPair
      simp [grant, hNull, HeapCall.asks]
  | free p =>
      rcases Option.map_eq_some_iff.mp hRun with
        ⟨heap, _, hPair⟩
      cases hPair
      exact absurd rfl hNull
  | realloc p n =>
      rcases Option.map_eq_some_iff.mp hRun with
        ⟨out, _, hPair⟩
      cases hPair
      simp [grant, hNull, HeapCall.asks]

/- A live pointer has the bytes that were asked for. -/
theorem Invariant.hasPayload
    (hInv : Invariant pool c bs)
    {p : Nat}
    (hOwned : c.owned p = some n) :
    HasPayload pool c.heap p n := by
  rcases hInv.liveApart.block p n hOwned with
    ⟨a, _, hp, _, hSize, _, hInside⟩
  refine ⟨hInv.liveBlock hOwned, ?_, ?_⟩
  · rw [hp, Nat.add_sub_cancel]
    exact hSize
  · rw [hp, Nat.add_sub_cancel, ← hp]
    exact hInside

theorem atLeast_of_exact
    (hInv : Invariant pool c bs)
    (hLive : call.PassesLive c)
    (hExact : call.exact + 3 < 2 ^ 32) :
    call.AtLeast pool c := by
  have hAsks := HeapCall.asks_eq_exact hExact
  have hValid :=
    HeapCall.valid_of_asks hLive (by rw [hAsks]; exact hExact)
  rcases run_outcome hInv call hValid with
    ⟨r, c', bs', hRun, hOutcome⟩
  refine ⟨r, c', hRun, fun hNull => ?_⟩
  rw [← hAsks]
  exact hOutcome.invariant.hasPayload (run_owned hRun hNull)

end Valid

------------------------------------------------------------
-- Every Rounded Run
------------------------------------------------------------

/- A call that rounds is valid or has no effect. -/
theorem RoundedRun.reachable
    {pool : Pool}
    {c : Client}
    (hRun : RoundedRun pool c) :
    Reachable pool c := by
  induction hRun with
  | start mem => exact .start mem
  | call call _ hLive hRounds hCall ih =>
      by_cases hAsks : call.asks + 3 < 2 ^ 32
      · exact ih.call call
          (HeapCall.valid_of_asks hLive hAsks) hCall
      · have hLacks := hRounds.resolve_left hAsks
        have hAsksLe := call.asks_le_exact
        rcases reachable_invariant ih with ⟨bs, hInv⟩
        rw [run_refused hInv hLive (by omega)
          (Or.inr hLacks)] at hCall
        cases hCall
        exact ih
  | write v _ hOwned hi ih => exact ih.write v hOwned hi

/-
  In every state of a run whose calls round, the next call
  has at least the bytes wanted exactly when it is granted;
  and every call that is granted rounds.
-/
theorem atLeast_iff
    {pool : Pool}
    {c : Client}
    (hRun : RoundedRun pool c)
    (call : HeapCall)
    (hLive : call.PassesLive c) :
    (call.AtLeast pool c ↔ call.Granted c) ∧
      (call.Granted c → call.Rounds c) := by
  rcases reachable_invariant hRun.reachable with ⟨bs, hInv⟩
  refine ⟨?_, HeapCall.Granted.rounds⟩
  by_cases hExact : call.exact + 3 < 2 ^ 32
  · exact iff_of_true (atLeast_of_exact hInv hLive hExact)
      (Or.inl hExact)
  · rw [atLeast_wrapped_iff hInv hLive hExact]
    exact (or_iff_right hExact).symm

/- The first call of a run. -/
theorem atLeast_malloc_ten :
    ((HeapCall.malloc 10).AtLeast samplePool
        (.start samplePool zeros) ↔
      (HeapCall.malloc 10).Granted
        (.start samplePool zeros)) ∧
    ((HeapCall.malloc 10).Granted
        (.start samplePool zeros) →
      (HeapCall.malloc 10).Rounds
        (.start samplePool zeros)) :=
  atLeast_iff (.start zeros) _ (Or.inl rfl)

/-
  On a new heap `malloc(0xFFFFFFFD)` rounds to no bytes and
  returns a payload.
-/
theorem not_atLeast_malloc :
    ∃ r c',
      (HeapCall.malloc 0xFFFFFFFD).run samplePool
          (.start samplePool zeros) =
        some (r, c') ∧
      r ≠ 0 ∧
      ¬ HasPayload samplePool c'.heap r 0xFFFFFFFD := by
  have hInv := start_invariant samplePool zeros
  have hZero : align 0xFFFFFFFD = 0 := by decide
  rcases malloc_cases hInv.represents 0xFFFFFFFD with
    ⟨_, hRefused⟩ | ⟨p, heap', hNull, hMalloc, _⟩
  · rw [hInv.represents.lacks_iff, hZero] at hRefused
    rcases hRefused with hContra | hLacks
    · exact absurd hContra (by decide)
    · have hSmall := hLacks wholePool (by simp) rfl
      omega
  · refine ⟨p, _, run_of_malloc hMalloc, hNull, ?_⟩
    intro hPayload
    have hContra := hPayload.size_lt
    omega

end Heap

end AsmOS
