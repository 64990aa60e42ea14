import AsmOS.Base.ByteMem

/-
  Python byte arrays.

  A byte array is a list of bytes.  Items outside it raise an
  error; slices are clamped to it, and assigning to a slice
  replaces it, whatever the lengths.

  Main declarations:
    * `PyError`
    * `Bytearray.item`, `setItem`, `slice`, `setSlice`
    * `Bytearray.ofList_setSlice`
-/

------------------------------------------------------------
-- Operations
------------------------------------------------------------

/- The exceptions that end byte-array programs. -/
inductive PyError where
| indexError
| valueError
| structError
| runtimeError (message : String)
| systemExit (code : Nat)
deriving DecidableEq, Repr

namespace Bytearray

open ByteMem

/- `l[i]`. -/
def item
    (l : List UInt8)
    (i : Nat) : Except PyError Nat :=
  match l[i]? with
  | some b => .ok b.toNat
  | none => .error .indexError

/- `l[i] = v`. -/
def setItem
    (l : List UInt8)
    (i v : Nat) : Except PyError (List UInt8) :=
  if i < l.length then
    if v < 256 then .ok (l.set i (UInt8.ofNat v))
    else .error .valueError
  else
    .error .indexError

/- `l[a:b]`. -/
def slice
    (l : List UInt8)
    (a b : Nat) : List UInt8 :=
  (l.take b).drop a

/- `l[a:b] = v`. -/
def setSlice
    (l : List UInt8)
    (a b : Nat)
    (v : List UInt8) : List UInt8 :=
  l.take a ++ v ++ l.drop (max a b)

/- `l.ljust(n, fill)`. -/
def ljust
    (l : List UInt8)
    (n : Nat)
    (fill : UInt8) : List UInt8 :=
  l ++ List.replicate (n - l.length) fill

/- `struct.pack("<H", v)`. -/
def packH
    (v : Nat) : Except PyError (List UInt8) :=
  if v < 2 ^ 16 then .ok ((littleEndian v).slice 0 2)
  else .error .structError

/- `struct.pack("<I", v)`. -/
def packI
    (v : Nat) : Except PyError (List UInt8) :=
  if v < 2 ^ 32 then .ok ((littleEndian v).slice 0 4)
  else .error .structError

------------------------------------------------------------
-- Byte Arrays As Memories
------------------------------------------------------------

section Memory

variable {l v : List UInt8} {a b i x : Nat}

theorem ofList_of_lt
    (hx : x < l.length) :
    ofList l x = l[x] := by
  simp [ofList, List.getD, hx]

theorem ofList_of_length_le
    (hx : l.length ≤ x) :
    ofList l x = 0 := by
  simp [ofList, List.getD, hx]

theorem ofList_append
    (l v : List UInt8)
    (x : Nat) :
    ofList (l ++ v) x =
      if x < l.length then ofList l x
      else ofList v (x - l.length) := by
  unfold ofList
  rw [List.getD_eq_getElem?_getD, List.getElem?_append]
  split <;> simp [List.getD]

theorem item_of_lt
    (hi : i < l.length) :
    item l i = .ok (ofList l i).toNat := by
  simp [item, ofList_of_lt hi, hi]

theorem item_of_length_le
    (hi : l.length ≤ i) :
    item l i = .error .indexError := by
  simp [item, hi]

theorem ofList_set
    (hi : i < l.length)
    (c : UInt8) :
    ofList (l.set i c) = (ofList l).storeByte i c := by
  funext x
  by_cases hx : x = i
  · subst hx
    rw [storeByte_self]
    simp [ofList, List.getD, hi]
  · rw [storeByte_of_ne _ _ hx]
    simp [ofList, List.getD, Ne.symm hx]

theorem setItem_of_lt
    {v : Nat}
    (hi : i < l.length)
    (hv : v < 256) :
    setItem l i v = .ok (l.set i (UInt8.ofNat v)) := by
  simp [setItem, hi, hv]

theorem setItem_of_length_le
    (hi : l.length ≤ i)
    (v : Nat) :
    setItem l i v = .error .indexError := by
  rw [setItem, if_neg (by omega)]

theorem slice_length
    (hb : b ≤ l.length) :
    (slice l a b).length = b - a := by
  simp [slice, hb]

theorem ofList_slice_of_lt
    (hx : a + x < b) :
    ofList (slice l a b) x = ofList l (a + x) := by
  simp [slice, ofList, List.getD, hx]

/- Assigning bytes of the slice's own length. -/
theorem setSlice_length
    (hFits : a + v.length ≤ l.length) :
    (setSlice l a (a + v.length) v).length = l.length := by
  simp only [setSlice, List.length_append, List.length_take,
    List.length_drop]
  omega

theorem ofList_setSlice
    (hFits : a + v.length ≤ l.length) :
    ofList (setSlice l a (a + v.length) v) =
      (ofList l).storeBlock a v.length (ofList v) := by
  funext x
  have hTake : (l.take a).length = a := by
    rw [List.length_take]
    omega
  simp only [setSlice, List.append_assoc, ofList_append,
    hTake]
  by_cases hLo : x < a
  · rw [if_pos hLo, storeBlock_outside (by omega)]
    simp [ofList, List.getD, hLo]
  · rw [if_neg hLo]
    by_cases hIn : x - a < v.length
    · rw [if_pos hIn, storeBlock_inside (by omega) (by omega)]
    · rw [if_neg hIn, storeBlock_outside (by omega)]
      simp only [ofList, List.getD_eq_getElem?_getD,
        List.getElem?_drop]
      congr 2
      omega

/- Assigning behind a byte keeps it. -/
theorem ofList_setSlice_before
    (v : List UInt8)
    (hx : x < a)
    (hLength : x < l.length) :
    ofList (setSlice l a b v) x = ofList l x := by
  have hTake : x < (l.take a).length := by
    rw [List.length_take]
    omega
  simp only [setSlice, List.append_assoc, ofList_append]
  rw [if_pos hTake]
  simp [ofList, List.getD, hx]

theorem ofList_setSlice_inside
    (b : Nat)
    (hTake : a ≤ l.length)
    (hLo : a ≤ x)
    (hHi : x < a + v.length) :
    ofList (setSlice l a b v) x = ofList v (x - a) := by
  have hLength : (l.take a).length = a := by
    rw [List.length_take]
    omega
  simp only [setSlice, List.append_assoc, ofList_append,
    hLength]
  rw [if_neg (by omega), if_pos (by omega)]

/- Past the end an assignment appends. -/
theorem setSlice_length_eq
    (l v : List UInt8)
    (a b : Nat) :
    (setSlice l a b v).length =
      min a l.length + v.length + (l.length - max a b) := by
  simp only [setSlice, List.length_append, List.length_take,
    List.length_drop]

theorem ofList_ljust
    (l : List UInt8)
    (n : Nat) :
    ofList (ljust l n 0) = ofList l := by
  funext x
  rw [ljust, ofList_append]
  split
  · rfl
  · rename_i hx
    have hZero : ofList l x = 0 :=
      ofList_of_length_le (by omega)
    rw [hZero]
    simp only [ofList, List.getD_eq_getElem?_getD,
      List.getElem?_replicate]
    split <;> rfl

theorem ljust_length
    {n : Nat}
    (hFits : l.length ≤ n)
    (fill : UInt8) :
    (ljust l n fill).length = n := by
  simp only [ljust, List.length_append,
    List.length_replicate]
  omega

end Memory

end Bytearray
