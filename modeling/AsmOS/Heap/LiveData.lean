import AsmOS.Heap.TilingInvariant

/-
  The heap calls preserve the data of the live pointers.

  Main declarations:
    * `LiveBlock`, `PreservesLive`
    * `reachable_preservesLive`
-/

------------------------------------------------------------
-- Statements
------------------------------------------------------------

namespace AsmOS

namespace Heap

open ByteMem BlockTiling

/- `p` is the payload of a block in use of the heap's list. -/
def LiveBlock
    (heap : State)
    (p : Nat) : Prop :=
  ∃ addrs a,
    Linked.Walks (blockNext heap.mem) (fun a => a = 0)
      heap.freeList addrs ∧
    a ∈ addrs ∧ p = a + 12 ∧ blockFree heap.mem a = 0

/-
  What a call that returns `r` does to the live data:
  payloads not passed to it keep every byte, `realloc` keeps
  the common prefix or fails without effect, and `calloc`
  returns zeros.
-/
structure PreservesLive
    (c c' : Client)
    (call : HeapCall)
    (r : Nat) : Prop where
  others :
    ∀ q n, c.owned q = some n → q ≠ call.passed →
      c'.owned q = some n ∧ LiveBlock c'.heap q ∧
      ∀ i < blockSize c.heap.mem (q - 12),
        c'.heap.mem (q + i) = c.heap.mem (q + i)
  copied :
    ∀ p n m, call = .realloc p n → c.owned p = some m →
      r ≠ 0 → ∀ i < min m n,
        c'.heap.mem (r + i) = c.heap.mem (p + i)
  failed :
    ∀ p n m, call = .realloc p n → c.owned p = some m →
      0 < n → r = 0 →
        c'.owned p = some m ∧ LiveBlock c'.heap p ∧
          ∀ i < blockSize c.heap.mem (p - 12),
            c'.heap.mem (p + i) = c.heap.mem (p + i)
  zeroed :
    ∀ nmemb size, call = .calloc nmemb size → r ≠ 0 →
      ∀ i < callocSize nmemb size, c'.heap.mem (r + i) = 0

------------------------------------------------------------
-- Live Pointers
------------------------------------------------------------

section Live

variable {pool : Pool} {c c' : Client}
variable {bs bs' : List HeapBlock}
variable {call : HeapCall} {r : Nat}

/- A live pointer is the payload of a block in use. -/
theorem Invariant.liveBlock
    (hInv : Invariant pool c bs)
    {p n : Nat}
    (hOwned : c.owned p = some n) :
    LiveBlock c.heap p := by
  rcases hInv.liveApart.block p n hOwned with
    ⟨a, hStart, hp, hFree, _⟩
  exact ⟨_, a, hInv.represents.tiled.walk, hStart, hp, hFree⟩

/- The outcome of a call in terms of the live pointers. -/
theorem Outcome.preservesLive
    (hInv : Invariant pool c bs)
    (hOutcome : Outcome pool c c' bs bs' call r) :
    PreservesLive c c' call r where
  others := by
    intro q n hOwned hNe
    rcases hInv.owned q n hOwned with ⟨s, _, hMember⟩
    have hOwned' := hOutcome.owned q n hOwned hNe
    have hAgree := (hOutcome.keeps q s hMember hNe).2
    rw [(hInv.represents.payload_header hMember).1]
    exact ⟨hOwned', hOutcome.invariant.liveBlock hOwned',
      fun i hi => hAgree (q + i) (by omega) (by omega)⟩
  copied := by
    intro p n m hCall hOwned hNull i hi
    rcases hInv.owned p m hOwned with ⟨s, hSize, hMember⟩
    exact hOutcome.copied p n s hCall hMember hNull i
      (by omega)
  failed := by
    intro p n m hCall hOwned hPos hNull
    rcases hInv.owned p m hOwned with ⟨s, _, hMember⟩
    have hSame :=
      hOutcome.failed p n s hCall hMember hPos hNull
    subst hSame
    exact ⟨hOwned, hInv.liveBlock hOwned, fun _ _ => rfl⟩
  zeroed := hOutcome.zeroed

end Live

------------------------------------------------------------
-- Every Reachable State
------------------------------------------------------------

/-
  Every valid call in a reachable state returns and preserves
  the data of the live pointers.
-/
theorem reachable_preservesLive
    {pool : Pool}
    {c : Client}
    (hReach : Reachable pool c)
    (call : HeapCall)
    (hValid : call.Valid c) :
    ∃ r c', call.run pool c = some (r, c') ∧
      PreservesLive c c' call r := by
  rcases reachable_invariant hReach with ⟨bs, hInv⟩
  rcases run_outcome hInv call hValid with
    ⟨r, c', bs', hRun, hOutcome⟩
  exact ⟨r, c', hRun, hOutcome.preservesLive hInv⟩

/- A `calloc` of fifteen bytes after an allocation. -/
theorem reachable_preservesLive_calloc :
    ∃ p c,
      (HeapCall.malloc 10).run samplePool
          (.start samplePool zeros) =
        some (p, c) ∧
      ∃ r c',
        (HeapCall.calloc 3 5).run samplePool c =
          some (r, c') ∧
        PreservesLive c c' (.calloc 3 5) r := by
  have hStart :
      Reachable samplePool (.start samplePool zeros) :=
    .start zeros
  have hFirst :
      (HeapCall.malloc 10).Valid
        (.start samplePool zeros) := by
    show 10 + 3 < 2 ^ 32
    norm_num
  rcases reachable_preservesLive hStart _ hFirst with
    ⟨p, c, hRun, _⟩
  have hSecond : (HeapCall.calloc 3 5).Valid c := by
    show callocSize 3 5 + 3 < 2 ^ 32
    norm_num [callocSize]
  exact ⟨p, c, hRun,
    reachable_preservesLive (hStart.call _ hFirst hRun) _
      hSecond⟩

end Heap

end AsmOS
