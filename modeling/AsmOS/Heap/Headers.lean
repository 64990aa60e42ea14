import AsmOS.Base.BlockTiling
import AsmOS.Heap.MemoryManager

/-
  The heap's memory as a list of blocks.

  `Headers` says that the memory from an address on holds the
  headers of a list of blocks.  Each list operation of the
  heap is described by the list it leaves and by the bytes it
  keeps.

  Main declarations:
    * `heapGeometry`, `Headers`
    * `headers_append`, `headers_congr`, `headers_replace`
-/

------------------------------------------------------------
-- Headers In Memory
------------------------------------------------------------

namespace AsmOS

namespace Heap

open ByteMem BlockTiling

/- Payloads are multiples of four behind twelve bytes. -/
def heapGeometry : Geometry where
  unit := 4
  header := 12
  unit_pos := by omega
  divides := by omega

@[simp] theorem heapGeometry_unit :
    heapGeometry.unit = 4 :=
  rfl

@[simp] theorem heapGeometry_header :
    heapGeometry.header = 12 :=
  rfl

abbrev HeapBlock := Block heapGeometry

/- The pointer to a list at `a`, or `e` when it is empty. -/
def link
    (a e : Nat) : List HeapBlock → Nat
| [] => e
| _ :: _ => a

/-
  The memory from `a` on holds the headers of the blocks; the
  last of them points to `e`.
-/
def Headers
    (mem : ByteMem)
    (e : Nat) : Nat → List HeapBlock → Prop
| _, [] => True
| a, b :: bs =>
    blockSize mem a = b.size ∧
      blockNext mem a = link (a + 12 + b.size) e bs ∧
      blockFree mem a = (if b.free then 1 else 0) ∧
      Headers mem e (a + 12 + b.size) bs

@[simp] theorem link_nil
    (a e : Nat) :
    link a e [] = e :=
  rfl

@[simp] theorem link_cons
    (a e : Nat)
    (b : HeapBlock)
    (bs : List HeapBlock) :
    link a e (b :: bs) = a :=
  rfl

theorem link_of_ne_nil
    (a e : Nat)
    {bs : List HeapBlock}
    (hNe : bs ≠ []) :
    link a e bs = a := by
  cases bs with
  | nil => exact absurd rfl hNe
  | cons b bs => rfl

theorem link_append
    (a e : Nat)
    (pre post : List HeapBlock) :
    link a e (pre ++ post) =
      link a (link (a + extent pre) e post) pre := by
  cases pre with
  | nil => simp [extent]
  | cons b pre => rfl

section Lists

variable {mem mem' : ByteMem}
variable {a e : Nat} {b : HeapBlock}
variable {bs pre post : List HeapBlock}

theorem extent_cons
    (b : HeapBlock)
    (bs : List HeapBlock) :
    extent (b :: bs) = 12 + b.size + extent bs :=
  rfl

theorem headers_append :
    Headers mem e a (pre ++ post) ↔
      Headers mem (link (a + extent pre) e post) a pre ∧
        Headers mem e (a + extent pre) post := by
  induction pre generalizing a with
  | nil => simp [Headers, extent]
  | cons b pre ih =>
      have hStart :
          a + 12 + b.size + extent pre =
            a + extent (b :: pre) := by
        rw [extent_cons]
        omega
      simp only [List.cons_append, Headers, ih, link_append,
        hStart]
      tauto

/- A header depends on its own twelve bytes. -/
theorem header_congr
    (hAgree : AgreeOn mem mem' a (a + 12)) :
    blockSize mem' a = blockSize mem a ∧
      blockNext mem' a = blockNext mem a ∧
      blockFree mem' a = blockFree mem a := by
  have hSymm := hAgree.symm
  exact ⟨hSymm.load32_eq (by omega) (by omega),
    hSymm.load32_eq (by omega) (by omega),
    hSymm.load32_eq (by omega) (by omega)⟩

/- The headers of a list depend on the bytes it covers. -/
theorem headers_congr
    (hHeaders : Headers mem e a bs)
    (hAgree : AgreeOn mem mem' a (a + extent bs)) :
    Headers mem' e a bs := by
  induction bs generalizing a with
  | nil => trivial
  | cons b bs ih =>
      rcases hHeaders with ⟨hSize, hNext, hFree, hRest⟩
      rw [extent_cons] at hAgree
      rcases header_congr
          (hAgree.mono (Nat.le_refl a)
            (show a + 12 ≤ _ by omega)) with
        ⟨hSize', hNext', hFree'⟩
      refine ⟨?_, ?_, ?_, ?_⟩
      · rw [hSize', hSize]
      · rw [hNext', hNext]
      · rw [hFree', hFree]
      · exact ih hRest (hAgree.mono (by omega) (by omega))

/-
  Replacing a block by blocks that cover the same bytes, with
  nothing else changed.
-/
theorem headers_replace
    {new : List HeapBlock}
    (hHeaders : Headers mem e a (pre ++ b :: post))
    (hNe : new ≠ [])
    (hExtent : extent new = 12 + b.size)
    (hNew :
      Headers mem'
        (link (a + extent pre + 12 + b.size) e post)
        (a + extent pre) new)
    (hOutside :
      ∀ x, x < a + extent pre ∨
        a + extent pre + 12 + b.size ≤ x → mem x = mem' x) :
    Headers mem' e a (pre ++ (new ++ post)) := by
  rw [headers_append] at hHeaders
  rcases hHeaders with ⟨hPre, _, _, _, hPost⟩
  have hAfter :
      a + extent pre + extent new =
        a + extent pre + 12 + b.size := by
    rw [hExtent]
    omega
  rw [headers_append, headers_append, hAfter]
  refine ⟨?_, hNew, ?_⟩
  · rw [link_of_ne_nil _ _ (by simp [hNe])]
    exact headers_congr hPre fun x _ hHi =>
      hOutside x (Or.inl hHi)
  · exact headers_congr hPost fun x hLo _ =>
      hOutside x (Or.inr hLo)

end Lists

------------------------------------------------------------
-- Header Stores
------------------------------------------------------------

section Stores

variable (mem : ByteMem) (a v : Nat)

theorem setFree_outside
    {x : Nat}
    (hOut : x < a + 8 ∨ a + 12 ≤ x) :
    setFree mem a v x = mem x :=
  store32_outside _ _ (by omega)

@[simp] theorem blockFree_setFree :
    blockFree (setFree mem a v) a = v % 2 ^ 32 :=
  load32_store32 _ _ _

@[simp] theorem blockSize_setFree :
    blockSize (setFree mem a v) a = blockSize mem a :=
  AgreeOn.load32_eq
    (fun _ _ hHi => setFree_outside mem a v (by omega))
    (Nat.le_refl a) (Nat.le_refl (a + 4))

@[simp] theorem blockNext_setFree :
    blockNext (setFree mem a v) a = blockNext mem a :=
  AgreeOn.load32_eq
    (fun _ _ hHi => setFree_outside mem a v (by omega))
    (Nat.le_refl (a + 4)) (Nat.le_refl (a + 8))

theorem setSize_outside
    {x : Nat}
    (hOut : x < a ∨ a + 4 ≤ x) :
    setSize mem a v x = mem x :=
  store32_outside _ _ hOut

@[simp] theorem blockSize_setSize :
    blockSize (setSize mem a v) a = v % 2 ^ 32 :=
  load32_store32 _ _ _

@[simp] theorem blockNext_setSize :
    blockNext (setSize mem a v) a = blockNext mem a :=
  AgreeOn.load32_eq
    (fun _ hLo _ => setSize_outside mem a v (by omega))
    (Nat.le_refl (a + 4)) (Nat.le_refl (a + 8))

@[simp] theorem blockFree_setSize :
    blockFree (setSize mem a v) a = blockFree mem a :=
  AgreeOn.load32_eq
    (fun _ hLo _ => setSize_outside mem a v (by omega))
    (Nat.le_refl (a + 8)) (Nat.le_refl (a + 12))

theorem setNext_outside
    {x : Nat}
    (hOut : x < a + 4 ∨ a + 8 ≤ x) :
    setNext mem a v x = mem x :=
  store32_outside _ _ (by omega)

@[simp] theorem blockNext_setNext :
    blockNext (setNext mem a v) a = v % 2 ^ 32 :=
  load32_store32 _ _ _

@[simp] theorem blockSize_setNext :
    blockSize (setNext mem a v) a = blockSize mem a :=
  AgreeOn.load32_eq
    (fun _ _ hHi => setNext_outside mem a v (by omega))
    (Nat.le_refl a) (Nat.le_refl (a + 4))

@[simp] theorem blockFree_setNext :
    blockFree (setNext mem a v) a = blockFree mem a :=
  AgreeOn.load32_eq
    (fun _ hLo _ => setNext_outside mem a v (by omega))
    (Nat.le_refl (a + 8)) (Nat.le_refl (a + 12))

end Stores

end Heap

end AsmOS
