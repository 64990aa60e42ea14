import AsmOS.Heap.Realloc

/-
  Runs of heap calls by clients that own their payloads.

  A client state is the heap together with the pointers that
  were returned and not yet freed, each with the number of
  bytes asked for.  Calls take live pointers or NULL and
  sizes whose rounding does not wrap; between calls, clients
  write to the bytes that they asked for.

  Main declarations:
    * `Client`, `HeapCall`, `HeapCall.run`
    * `HeapCall.Valid`, `Reachable`
    * `Invariant`
    * `Outcome`, `run_outcome`
    * `reachable_invariant`
-/

------------------------------------------------------------
-- Clients And Calls
------------------------------------------------------------

namespace AsmOS

namespace Heap

open ByteMem BlockTiling

/- The heap and the requested sizes of the live pointers. -/
structure Client where
  heap : State
  owned : Nat → Option Nat

inductive HeapCall where
| malloc (size : Nat)
| calloc (nmemb size : Nat)
| free (ptr : Nat)
| realloc (ptr newSize : Nat)

/- A returned pointer becomes live, unless it is NULL. -/
def grant
    (owned : Nat → Option Nat)
    (r n : Nat) : Nat → Option Nat :=
  if r = 0 then owned else Function.update owned r (some n)

/- A freed pointer is no longer live. -/
def drop
    (owned : Nat → Option Nat)
    (p : Nat) : Nat → Option Nat :=
  Function.update owned p none

/- The bytes that a `calloc` call asks for. -/
def callocSize
    (nmemb size : Nat) : Nat :=
  nmemb * size % 2 ^ 32

/- The result and the state after a call. -/
def HeapCall.run
    (pool : Pool)
    (c : Client) : HeapCall → Option (Nat × Client)
| .malloc n =>
    (Heap.malloc c.heap n).map fun out =>
      (out.1, ⟨out.2, grant c.owned out.1 n⟩)
| .calloc nmemb size =>
    (Heap.calloc c.heap nmemb size).map fun out =>
      (out.1,
        ⟨out.2,
          grant c.owned out.1 (callocSize nmemb size)⟩)
| .free p =>
    (Heap.free pool c.heap p).map fun heap =>
      (0, ⟨heap, drop c.owned p⟩)
| .realloc p n =>
    (Heap.realloc pool c.heap p n).map fun out =>
      (out.1,
        ⟨out.2,
          -- A failed call leaves the pointer live.
          if n ≠ 0 ∧ out.1 = 0 then c.owned
          else grant (drop c.owned p) out.1 n⟩)

/- NULL or a pointer that was returned and not freed. -/
def Client.Live
    (c : Client)
    (p : Nat) : Prop :=
  p = 0 ∨ ∃ n, c.owned p = some n

/- Pointers are live and rounding a size does not wrap. -/
def HeapCall.Valid
    (c : Client) : HeapCall → Prop
| .malloc n => n + 3 < 2 ^ 32
| .calloc nmemb size => callocSize nmemb size + 3 < 2 ^ 32
| .free p => c.Live p
| .realloc p n => c.Live p ∧ n + 3 < 2 ^ 32

/- The pointer passed to a call, NULL when there is none. -/
def HeapCall.passed : HeapCall → Nat
| .malloc _ => 0
| .calloc _ _ => 0
| .free p => p
| .realloc p _ => p

/- A client writes a byte of its payload. -/
def Client.write
    (c : Client)
    (p i : Nat)
    (v : UInt8) : Client :=
  { c with
    heap :=
      { c.heap with mem := c.heap.mem.storeByte (p + i) v } }

/- The state after `init_memory_manager`. -/
def Client.start
    (pool : Pool)
    (mem : ByteMem) : Client where
  heap := initMemoryManager pool mem
  owned := fun _ => none

/- The states of all runs of calls and client writes. -/
inductive Reachable
    (pool : Pool) : Client → Prop where
| start (mem : ByteMem) : Reachable pool (.start pool mem)
| call
    {c c' : Client}
    {r : Nat}
    (call : HeapCall)
    (hReach : Reachable pool c)
    (hValid : call.Valid c)
    (hRun : call.run pool c = some (r, c')) :
    Reachable pool c'
| write
    {c : Client}
    {p n i : Nat}
    (v : UInt8)
    (hReach : Reachable pool c)
    (hOwned : c.owned p = some n)
    (hi : i < n) :
    Reachable pool (c.write p i v)

------------------------------------------------------------
-- The Invariant
------------------------------------------------------------

/-
  The heap is a list of blocks, and every live pointer is a
  payload in use with room for the bytes asked for.
-/
structure Invariant
    (pool : Pool)
    (c : Client)
    (bs : List HeapBlock) : Prop where
  represents : Represents pool c.heap bs
  owned :
    ∀ p n, c.owned p = some n →
      ∃ s, n ≤ s ∧ (p, s) ∈ payloads pool bs

section Steps

variable {pool : Pool} {c : Client}
variable {bs bs' : List HeapBlock} {heap' : State}
variable {p n r : Nat}

theorem start_invariant
    (pool : Pool)
    (mem : ByteMem) :
    Invariant pool (.start pool mem) [wholePool] where
  represents := initMemoryManager_represents pool mem
  owned := by simp [Client.start]

/- NULL is never live. -/
theorem Invariant.owned_zero
    (hInv : Invariant pool c bs) :
    c.owned 0 = none := by
  cases hOwned : c.owned 0 with
  | none => rfl
  | some n =>
      rcases hInv.owned 0 n hOwned with ⟨s, _, hMember⟩
      have hBounds := payload_bounds hMember
      omega

theorem Invariant.write
    {i : Nat}
    (hInv : Invariant pool c bs)
    (hOwned : c.owned p = some n)
    (hi : i < n)
    (v : UInt8) :
    Invariant pool (c.write p i v) bs where
  represents := by
    rcases hInv.owned p n hOwned with ⟨s, hSize, hMember⟩
    exact hInv.represents.write hMember
      fun x hOut => storeByte_of_ne _ _ (by omega)
  owned := hInv.owned

/- Live pointers other than the one passed stay live. -/
theorem Effect.owned_others
    (hEffect : Effect pool c.heap heap' bs bs' p n r)
    (hInv : Invariant pool c bs)
    {q m : Nat}
    (hOwned : c.owned q = some m)
    (hNe : q ≠ p) :
    ∃ s, m ≤ s ∧ (q, s) ∈ payloads pool bs' := by
  rcases hInv.owned q m hOwned with ⟨s, hSize, hMember⟩
  exact ⟨s, hSize, (hEffect.keeps q s hMember hNe).1⟩

/- Live pointers not passed keep their requested size. -/
theorem Effect.owned_kept
    (hEffect : Effect pool c.heap heap' bs bs' p n r)
    (hInv : Invariant pool c bs)
    {q m : Nat}
    (hOwned : c.owned q = some m)
    (hNe : q ≠ p) :
    grant (drop c.owned p) r n q = some m := by
  have hDrop : drop c.owned p q = some m := by
    rw [drop, Function.update_of_ne hNe, hOwned]
  unfold grant
  split
  · exact hDrop
  · rename_i hNull
    rcases hInv.owned q m hOwned with ⟨s, _, hMember⟩
    rw [Function.update_of_ne, hDrop]
    rintro rfl
    exact hNe (hEffect.fresh hNull s hMember)

/- A result is live in the state that a call leaves. -/
theorem Effect.invariant_grant
    (hEffect : Effect pool c.heap heap' bs bs' p n r)
    (hInv : Invariant pool c bs) :
    Invariant pool ⟨heap', grant (drop c.owned p) r n⟩
      bs' where
  represents := hEffect.represents
  owned := by
    intro q m hOwned
    have hOld :
        drop c.owned p q = some m →
          ∃ s, m ≤ s ∧ (q, s) ∈ payloads pool bs' := by
      intro hDrop
      unfold drop at hDrop
      by_cases hPassed : q = p
      · rw [hPassed, Function.update_self] at hDrop
        simp at hDrop
      · rw [Function.update_of_ne hPassed] at hDrop
        exact hEffect.owned_others hInv hDrop hPassed
    simp only [grant] at hOwned
    split at hOwned
    · exact hOld hOwned
    · rename_i hNull
      by_cases hNew : q = r
      · subst hNew
        rw [Function.update_self, Option.some.injEq] at hOwned
        subst hOwned
        exact hEffect.result hNull
      · rw [Function.update_of_ne hNew] at hOwned
        exact hOld hOwned

/- Dropping NULL changes nothing. -/
theorem Invariant.drop_zero
    (hInv : Invariant pool c bs) :
    drop c.owned 0 = c.owned := by
  rw [drop, ← hInv.owned_zero, Function.update_eq_self]

end Steps

------------------------------------------------------------
-- One Call
------------------------------------------------------------

/-
  What a call leaves: the invariant, the live pointers and
  payloads that were not passed to it, the bytes `realloc`
  copies or keeps, and the zeros of `calloc`.
-/
structure Outcome
    (pool : Pool)
    (c c' : Client)
    (bs bs' : List HeapBlock)
    (call : HeapCall)
    (r : Nat) : Prop where
  invariant : Invariant pool c' bs'
  keeps : Keeps pool c.heap c'.heap bs bs' call.passed
  owned :
    ∀ q m, c.owned q = some m → q ≠ call.passed →
      c'.owned q = some m
  fresh :
    r ≠ 0 → ∀ n, c.owned r = some n → r = call.passed
  copied :
    ∀ p n s, call = .realloc p n →
      (p, s) ∈ payloads pool bs → r ≠ 0 →
        ∀ i < min s n,
          c'.heap.mem (r + i) = c.heap.mem (p + i)
  failed :
    ∀ p n s, call = .realloc p n →
      (p, s) ∈ payloads pool bs → 0 < n → r = 0 → c' = c
  zeroed :
    ∀ nmemb size, call = .calloc nmemb size → r ≠ 0 →
      ∀ i < callocSize nmemb size, c'.heap.mem (r + i) = 0

section Run

variable {pool : Pool} {c : Client}
variable {bs : List HeapBlock}

/- A `realloc` of NULL is a `malloc`. -/
theorem run_realloc_null
    (hInv : Invariant pool c bs)
    (n : Nat) :
    (HeapCall.realloc 0 n).run pool c =
      (HeapCall.malloc n).run pool c := by
  have hNull :
      Heap.realloc pool c.heap 0 n = Heap.malloc c.heap n := by
    simp [Heap.realloc]
  simp only [HeapCall.run, hNull, hInv.drop_zero]
  congr 1
  funext out
  by_cases hFailed : n ≠ 0 ∧ out.1 = 0
  · rw [if_pos hFailed, grant, if_pos hFailed.2]
  · rw [if_neg hFailed]

/- The pointer facts of an outcome follow from the effect. -/
theorem Effect.fresh_owned
    {heap' : State}
    {bs' : List HeapBlock}
    {p n r : Nat}
    (hEffect : Effect pool c.heap heap' bs bs' p n r)
    (hInv : Invariant pool c bs) :
    r ≠ 0 → ∀ m, c.owned r = some m → r = p := by
  intro hNull m hOwned
  rcases hInv.owned r m hOwned with ⟨s, _, hMember⟩
  exact hEffect.fresh hNull s hMember

theorem run_malloc
    (hInv : Invariant pool c bs)
    {n : Nat}
    (hn : n + 3 < 2 ^ 32) :
    ∃ r heap' bs', (HeapCall.malloc n).run pool c =
        some (r, ⟨heap', grant c.owned r n⟩) ∧
      Effect pool c.heap heap' bs bs' 0 n r := by
  rcases malloc_effect hInv.represents hn with
    ⟨r, heap', bs', hCall, hEffect⟩
  exact ⟨r, heap', bs', by simp [HeapCall.run, hCall],
    hEffect⟩

theorem run_free
    (hInv : Invariant pool c bs)
    {p : Nat}
    (hLive : c.Live p)
    (n : Nat) :
    ∃ heap' bs', Heap.free pool c.heap p = some heap' ∧
      Effect pool c.heap heap' bs bs' p n 0 := by
  have hFree :
      ∃ heap' bs', Heap.free pool c.heap p = some heap' ∧
        Represents pool heap' bs' ∧
        Keeps pool c.heap heap' bs bs' p := by
    rcases hLive with hNull | ⟨n, hOwned⟩
    · exact free_effect (s := 0) hInv.represents
        (Or.inl hNull)
    · rcases hInv.owned p n hOwned with ⟨s, _, hMember⟩
      exact free_effect hInv.represents (Or.inr hMember)
  rcases hFree with ⟨heap', bs', hCall, hHeap, hKeeps⟩
  exact ⟨heap', bs', hCall, hHeap, hKeeps,
    fun hNull => absurd rfl hNull,
    fun hNull => absurd rfl hNull⟩

/- `realloc` of a live pointer to a positive size. -/
theorem run_realloc
    (hInv : Invariant pool c bs)
    {p m n : Nat}
    (hOwned : c.owned p = some m)
    (hPos : 0 < n)
    (hn : n + 3 < 2 ^ 32) :
    ∃ r c' bs', (HeapCall.realloc p n).run pool c =
        some (r, c') ∧
      Outcome pool c c' bs bs' (.realloc p n) r := by
  rcases hInv.owned p m hOwned with ⟨s, hSize, hMember⟩
  rcases realloc_effect hInv.represents hMember hPos hn with
    ⟨r, heap', bs', hCall, hEffect, hFailed, hCopied⟩
  have hFresh := hEffect.fresh_owned hInv
  by_cases hNull : r = 0
  · rcases hFailed hNull with ⟨rfl, rfl⟩
    refine ⟨r, c, bs', ?_, hInv, Keeps.refl _ _ _ _,
      fun _ _ hOld _ => hOld, hFresh, ?_,
      fun _ _ _ _ _ _ _ => rfl, by simp⟩
    · simp [HeapCall.run, hCall, hNull,
        show n ≠ 0 by omega]
    · exact fun _ _ _ _ _ hNe => absurd hNull hNe
  · refine ⟨r, _, bs', ?_, hEffect.invariant_grant hInv,
      hEffect.keeps,
      fun q m hOld hNe => hEffect.owned_kept hInv hOld hNe,
      hFresh, ?_, ?_, by simp⟩
    · simp [HeapCall.run, hCall, hNull]
    · rintro p' n' s' hEq hMember' _ i hi
      cases hEq
      rcases busy_apart hMember hMember' with
        ⟨_, hSame⟩ | hApart
      · exact hCopied hNull i (by omega)
      · have hBounds := payload_bounds hMember
        have hBounds' := payload_bounds hMember'
        omega
    · exact fun _ _ _ _ _ _ hZero => absurd hZero hNull

/- A call without a pointer that is passed to it. -/
theorem Effect.outcome
    {heap' : State}
    {bs' : List HeapBlock}
    {n r : Nat}
    {call : HeapCall}
    (hEffect : Effect pool c.heap heap' bs bs' 0 n r)
    (hInv : Invariant pool c bs)
    (hPassed : call.passed = 0)
    (hZeroed :
      ∀ nmemb size, call = .calloc nmemb size → r ≠ 0 →
        ∀ i < callocSize nmemb size,
          heap'.mem (r + i) = 0) :
    Outcome pool c ⟨heap', grant c.owned r n⟩ bs bs' call
      r := by
  have hNext := hEffect.invariant_grant hInv
  have hOwned := fun q m hOld hNe =>
    hEffect.owned_kept hInv (q := q) (m := m) hOld hNe
  rw [hInv.drop_zero] at hNext hOwned
  -- NULL is not a payload.
  have hNull :
      ∀ p n' s, call = .realloc p n' →
        (p, s) ∉ payloads pool bs := by
    rintro p n' s rfl hMember
    have hBounds := payload_bounds hMember
    simp only [HeapCall.passed] at hPassed
    omega
  refine ⟨hNext, ?_, ?_, ?_, ?_, ?_, hZeroed⟩
  · rw [hPassed]
    exact hEffect.keeps
  · rw [hPassed]
    exact hOwned
  · rw [hPassed]
    exact hEffect.fresh_owned hInv
  · exact fun p n' s hEq hMember =>
      absurd hMember (hNull p n' s hEq)
  · exact fun p n' s hEq hMember =>
      absurd hMember (hNull p n' s hEq)

/- Every valid call returns and keeps the invariant. -/
theorem run_outcome
    (hInv : Invariant pool c bs)
    (call : HeapCall)
    (hValid : call.Valid c) :
    ∃ r c' bs', call.run pool c = some (r, c') ∧
      Outcome pool c c' bs bs' call r := by
  cases call with
  | malloc n =>
      rcases run_malloc hInv hValid with
        ⟨r, heap', bs', hRun, hEffect⟩
      exact ⟨r, _, bs', hRun,
        hEffect.outcome hInv rfl (by simp)⟩
  | calloc nmemb size =>
      rcases calloc_effect hInv.represents hValid with
        ⟨r, heap', bs', hCall, hEffect, hZeroed⟩
      refine ⟨r, _, bs', ?_, hEffect.outcome hInv rfl ?_⟩
      · simp only [HeapCall.run, hCall, Option.map_some]
        rfl
      · rintro nmemb' size' hEq hNull i hi
        cases hEq
        exact hZeroed hNull i hi
  | free p =>
      rcases run_free hInv hValid 0 with
        ⟨heap', bs', hCall, hEffect⟩
      exact ⟨0, _, bs', by simp [HeapCall.run, hCall, grant],
        hEffect.invariant_grant hInv, hEffect.keeps,
        fun q m hOld hNe => hEffect.owned_kept hInv hOld hNe,
        by simp, by simp, by simp, by simp⟩
  | realloc p n =>
      rcases hValid with ⟨hLive, hn⟩
      by_cases hNull : p = 0
      · subst hNull
        rcases run_malloc hInv hn with
          ⟨r, heap', bs', hRun, hEffect⟩
        rw [← run_realloc_null hInv] at hRun
        exact ⟨r, _, bs', hRun,
          hEffect.outcome hInv rfl (by simp)⟩
      · by_cases hZero : n = 0
        · subst hZero
          rcases run_free hInv hLive 0 with
            ⟨heap', bs', hCall, hEffect⟩
          refine ⟨0, _, bs', ?_,
            hEffect.invariant_grant hInv, hEffect.keeps,
            fun q m hOld hNe =>
              hEffect.owned_kept hInv hOld hNe,
            by simp, by simp, ?_, by simp⟩
          · simp [HeapCall.run, Heap.realloc, hNull, hCall]
          · rintro p' n' s' hEq _ hPos
            cases hEq
            omega
        · rcases hLive with hPtr | ⟨m, hOwned⟩
          · exact absurd hPtr hNull
          · exact run_realloc hInv hOwned (by omega) hn

/- The invariant holds in every reachable state. -/
theorem reachable_invariant
    (hReach : Reachable pool c) :
    ∃ bs, Invariant pool c bs := by
  induction hReach with
  | start mem => exact ⟨_, start_invariant pool mem⟩
  | call call _ hValid hRun ih =>
      rcases ih with ⟨bs, hInv⟩
      rcases run_outcome hInv call hValid with
        ⟨r, c', bs', hRun', hOutcome⟩
      rw [hRun] at hRun'
      cases hRun'
      exact ⟨bs', hOutcome.invariant⟩
  | write v _ hOwned hi ih =>
      rcases ih with ⟨bs, hInv⟩
      exact ⟨bs, hInv.write hOwned hi v⟩

end Run

end Heap

end AsmOS
