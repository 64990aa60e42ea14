import AsmOS.Storage.FatPutSpec
import AsmOS.Storage.HalSpec

/-
  Table entries between the image builder and the kernel.

  The builder sets an entry to any integer by masks on single
  bytes, and the kernel reads it from a word of two bytes.
  Both find the low twelve bits that were set, and every
  other entry as it was.

  Main declarations:
    * `setFatEntryInt`, `ReadAs`
    * `setFatEntryInt_separate`
-/

------------------------------------------------------------
-- Writers And Readers
------------------------------------------------------------

namespace AsmOS

namespace PackedEntries

open Storage FatPut ByteMem

/-
  `set_fat_entry` with an integer of any sign: what the mask
  `0xFFF` leaves of it is not negative any more.
-/
def setFatEntryInt
    (fat : List UInt8)
    (cluster : Nat)
    (value : Int) : Except PyError (List UInt8) :=
  setFatEntry fat cluster (Int.land value 0xFFF).toNat

/- Both programs read `v` as an entry of the table. -/
def ReadAs
    (fat : List UInt8)
    (cluster v : Nat) : Prop :=
  getFatEntry fat cluster = .ok v ∧
    fatNextCluster (ofList fat) cluster = some v

theorem land_entry
    (value : Int) :
    (Int.land value 0xFFF).toNat = (value % 4096).toNat :=
  congrArg Int.toNat (Bits.land_ones value 12)

/- Inside the table the two readers agree. -/
theorem readAs_get
    {fat : List UInt8}
    {d : Nat}
    (hLength : fat.length = tableBytes)
    (hBound : d + d / 2 + 1 < tableBytes) :
    ReadAs fat d (Packed12.get (ofList fat) d) := by
  have hInside : linkInCache d := by
    unfold tableBytes at hBound
    unfold linkInCache
    omega
  refine ⟨getFatEntry_eq (hLength ▸ hBound), ?_⟩
  rw [fatNextCluster_eq, if_pos hInside]

/-
  An entry that was set is read as its low twelve bits, and
  every other entry is read as before.
-/
theorem setFatEntryInt_separate
    (fat : List UInt8)
    (c : Nat)
    (v : Int)
    (hLength : fat.length = 4608)
    (hBound : c + c / 2 + 1 < 4608) :
    ∃ fat', setFatEntryInt fat c v = .ok fat' ∧
      fat'.length = 4608 ∧
      ReadAs fat' c (v % 4096).toNat ∧
      ∀ d, d + d / 2 + 1 < 4608 → d ≠ c →
        ∃ old, ReadAs fat d old ∧ ReadAs fat' d old := by
  rcases setFatEntry_spec (hLength ▸ hBound : _)
      (Int.land v 0xFFF).toNat with
    ⟨fat', hSet, hKept, hPacked⟩
  have hLength' : fat'.length = 4608 := hKept.trans hLength
  refine ⟨fat', hSet, hLength', ?_, fun d hInside hNe => ?_⟩
  · have hRead := readAs_get hLength' hBound
    rw [hPacked, Packed12.get_set, land_entry] at hRead
    have hSmall : (v % 4096).toNat % 4096 = (v % 4096).toNat := by
      omega
    rw [hSmall] at hRead
    exact hRead
  · have hRead := readAs_get hLength' hInside
    rw [hPacked, Packed12.get_set_of_ne _ _ hNe] at hRead
    exact ⟨_, readAs_get hLength hInside, hRead⟩

/- The last entry of an empty table, set to `-1`. -/
theorem setFatEntryInt_separate_last :
    ∃ fat',
      setFatEntryInt (List.replicate 4608 0) 3071 (-1) =
          .ok fat' ∧
        fat'.length = 4608 ∧
        ReadAs fat' 3071 ((-1) % 4096 : Int).toNat ∧
        ∀ d, d + d / 2 + 1 < 4608 → d ≠ 3071 →
          ∃ old, ReadAs (List.replicate 4608 0) d old ∧
            ReadAs fat' d old :=
  setFatEntryInt_separate (List.replicate 4608 0) 3071 (-1)
    List.length_replicate (by omega)

end PackedEntries

end AsmOS
