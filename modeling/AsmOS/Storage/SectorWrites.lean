import AsmOS.Storage.Device

/-
  Sequences of sector writes under any failure pattern.

  A sequence ends at its first write that fails; the sectors
  before it have reached the disk, and so has its own when
  only the confirmation failed.

  Main declarations:
    * `writeAll`, `storeAll`
    * `AllDone`, `reached`
    * `writeAll_ok_iff`, `writeAll_image`
    * `writeAll_reliable`
    * `sectorsFrom`, `writeSectors_eq`
-/

------------------------------------------------------------
-- Sequences
------------------------------------------------------------

namespace AsmOS

namespace Storage

open ByteMem

/- Write sectors in order, up to the first failure. -/
def writeAll
    (dev : Device) :
    List (Nat × ByteMem) → Bool × Device
| [] => (true, dev)
| w :: ws =>
    match fat12WriteSector dev w.1 w.2 with
    | (false, dev) => (false, dev)
    | (true, dev) => writeAll dev ws

/- Store sectors in order. -/
def storeAll
    (image : ByteMem) :
    List (Nat × ByteMem) → ByteMem
| [] => image
| w :: ws =>
    storeAll (image.storeBlock (512 * w.1) 512 w.2) ws

/- The next `n` writes from operation `k` on are done. -/
def AllDone
    (ends : Nat → WriteEnd)
    (k n : Nat) : Prop :=
  ∀ i < n, ends (k + i) = .done

/-
  How many of the next `n` writes from operation `k` on reach
  the disk when the first failure ends them.
-/
def reached
    (ends : Nat → WriteEnd)
    (k : Nat) : Nat → Nat
| 0 => 0
| n + 1 =>
    match ends k with
    | .done => reached ends (k + 1) n + 1
    | .refused => 0
    | .unconfirmed => 1

variable {dev : Device} {ws vs : List (Nat × ByteMem)}
variable {image : ByteMem} {ends : Nat → WriteEnd}
variable {k n lba : Nat} {buf buf' : ByteMem}

/- Only the 512 bytes of the sector are looked at. -/
theorem fat12WriteSector_congr
    (dev : Device)
    (lba : Nat)
    (hAgree : AgreeOn buf buf' 0 512) :
    fat12WriteSector dev lba buf =
      fat12WriteSector dev lba buf' := by
  unfold fat12WriteSector
  rw [storeBlock_congr hAgree]

theorem storeAll_append
    (image : ByteMem)
    (ws vs : List (Nat × ByteMem)) :
    storeAll image (ws ++ vs) =
      storeAll (storeAll image ws) vs := by
  induction ws generalizing image with
  | nil => rfl
  | cons w ws ih => exact ih _

theorem writeAll_cons_ok
    {w : Nat × ByteMem}
    {dev' : Device}
    (hWrite : fat12WriteSector dev w.1 w.2 = (true, dev')) :
    writeAll dev (w :: ws) = writeAll dev' ws := by
  rw [writeAll, hWrite]

theorem writeAll_cons_failed
    {w : Nat × ByteMem}
    {dev' : Device}
    (hWrite : fat12WriteSector dev w.1 w.2 = (false, dev')) :
    writeAll dev (w :: ws) = (false, dev') := by
  rw [writeAll, hWrite]

/- After a failure the second part is not written. -/
theorem writeAll_append_failed
    (hFailed : (writeAll dev ws).1 = false)
    (vs : List (Nat × ByteMem)) :
    writeAll dev (ws ++ vs) = writeAll dev ws := by
  induction ws generalizing dev with
  | nil => cases hFailed
  | cons w ws ih =>
      rw [List.cons_append]
      rcases hWrite : fat12WriteSector dev w.1 w.2 with
        ⟨ok, dev'⟩
      cases ok with
      | false =>
          rw [writeAll_cons_failed hWrite,
            writeAll_cons_failed hWrite]
      | true =>
          rw [writeAll_cons_ok hWrite] at hFailed ⊢
          rw [writeAll_cons_ok hWrite]
          exact ih hFailed

theorem writeAll_append_ok
    (hDone : (writeAll dev ws).1 = true)
    (vs : List (Nat × ByteMem)) :
    writeAll dev (ws ++ vs) =
      writeAll (writeAll dev ws).2 vs := by
  induction ws generalizing dev with
  | nil => rfl
  | cons w ws ih =>
      rw [List.cons_append]
      rcases hWrite : fat12WriteSector dev w.1 w.2 with
        ⟨ok, dev'⟩
      cases ok with
      | false =>
          rw [writeAll_cons_failed hWrite] at hDone
          cases hDone
      | true =>
          rw [writeAll_cons_ok hWrite] at hDone ⊢
          rw [writeAll_cons_ok hWrite]
          exact ih hDone

------------------------------------------------------------
-- Failures
------------------------------------------------------------

theorem allDone_succ_iff :
    AllDone ends k (n + 1) ↔
      ends k = .done ∧ AllDone ends (k + 1) n := by
  constructor
  · intro hDone
    refine ⟨hDone 0 (by omega), fun i hi => ?_⟩
    rw [Nat.add_assoc, Nat.add_comm 1]
    exact hDone (i + 1) (by omega)
  · rintro ⟨hFirst, hRest⟩ i hi
    cases i with
    | zero => exact hFirst
    | succ i =>
        rw [Nat.add_comm i, ← Nat.add_assoc]
        exact hRest i (by omega)

/- A sequence succeeds exactly when all its writes are done. -/
theorem writeAll_ok_iff :
    (writeAll dev ws).1 = true ↔
      AllDone dev.writeEnds dev.log.length ws.length := by
  induction ws generalizing dev with
  | nil => exact iff_of_true rfl fun i hi => by simp at hi
  | cons w ws ih =>
      rw [List.length_cons, allDone_succ_iff, writeAll,
        fat12WriteSector]
      cases hEnd : dev.writeEnds dev.log.length with
      | done =>
          dsimp only
          rw [ih]
          simp [Device.issued, Device.withImage]
      | refused => simp
      | unconfirmed => simp

/- The disk after a sequence has the sectors that reached it. -/
theorem writeAll_image :
    (writeAll dev ws).2.image =
      storeAll dev.image
        (ws.take
          (reached dev.writeEnds dev.log.length
            ws.length)) := by
  induction ws generalizing dev with
  | nil => rfl
  | cons w ws ih =>
      rw [List.length_cons, reached, writeAll,
        fat12WriteSector]
      cases hEnd : dev.writeEnds dev.log.length with
      | done =>
          dsimp only
          rw [ih]
          rfl
      | refused => rfl
      | unconfirmed => rfl

------------------------------------------------------------
-- Reliable Devices
------------------------------------------------------------

/- On a reliable device every sector reaches the disk. -/
theorem writeAll_reliable
    (hDev : dev.Reliable)
    (ws : List (Nat × ByteMem)) :
    writeAll dev ws =
      (true,
        (dev.withImage (storeAll dev.image ws)).issued
          (ws.map fun w => .write w.1)) := by
  induction ws generalizing dev with
  | nil => rfl
  | cons w ws ih =>
      rw [writeAll_cons_ok
        (fat12WriteSector_reliable hDev w.1 w.2),
        ih ((hDev.withImage _).issued _)]
      simp [storeAll]

------------------------------------------------------------
-- Consecutive Sectors
------------------------------------------------------------

/- The sectors of a buffer, from sector `lba` on. -/
def sectorsFrom
    (lba : Nat)
    (buf : ByteMem)
    (n : Nat) : List (Nat × ByteMem) :=
  (List.range n).map fun s => (lba + s, buf.view (512 * s))

@[simp] theorem sectorsFrom_length :
    (sectorsFrom lba buf n).length = n := by
  simp [sectorsFrom]

theorem sectorsFrom_succ
    (lba : Nat)
    (buf : ByteMem)
    (n : Nat) :
    sectorsFrom lba buf (n + 1) =
      sectorsFrom lba buf n ++
        [(lba + n, buf.view (512 * n))] := by
  simp [sectorsFrom, List.range_succ]

/- The first sector, and the sectors of the rest. -/
theorem sectorsFrom_cons
    (lba : Nat)
    (buf : ByteMem)
    (n : Nat) :
    sectorsFrom lba buf (n + 1) =
      (lba, buf) :: sectorsFrom (lba + 1) (buf.view 512) n := by
  have hView : buf.view 0 = buf := by
    funext i
    rw [view_apply, Nat.zero_add]
  simp only [sectorsFrom, List.range_succ_eq_map,
    List.map_cons, List.map_map, Nat.add_zero, Nat.mul_zero,
    hView]
  congr 1
  apply List.map_congr_left
  intro s _
  simp only [Function.comp_apply, view_view]
  congr 1
  · omega
  · congr 1
    omega

theorem sectorsFrom_take
    (lba : Nat)
    (buf : ByteMem)
    (n k : Nat) :
    (sectorsFrom lba buf n).take k =
      sectorsFrom lba buf (min k n) := by
  rw [sectorsFrom, sectorsFrom, ← List.map_take,
    List.take_range]

/- Consecutive sectors are one block of the image. -/
theorem storeAll_sectorsFrom
    (image : ByteMem)
    (lba : Nat)
    (buf : ByteMem)
    (n : Nat) :
    storeAll image (sectorsFrom lba buf n) =
      image.storeBlock (512 * lba) (512 * n) buf := by
  induction n with
  | zero => simp [sectorsFrom, storeAll]
  | succ n ih =>
      have hBlock :=
        storeBlock_append image (512 * lba) (512 * n) 512 buf
      have hLba : 512 * (lba + n) = 512 * lba + 512 * n :=
        Nat.mul_add 512 lba n
      have hSize : 512 * (n + 1) = 512 * n + 512 := by omega
      rw [sectorsFrom_succ, storeAll_append, ih, hSize,
        ← hBlock]
      simp only [storeAll, hLba]

theorem sectorsFrom_ops
    (lba : Nat)
    (buf : ByteMem)
    (n : Nat) :
    ((sectorsFrom lba buf n).map fun w =>
        SectorOp.write w.1) =
      writeOps lba n := by
  rw [sectorsFrom, List.map_map]
  rfl

/- The flush loop writes the consecutive sectors. -/
theorem writeSectors_eq
    (dev : Device)
    (lba : Nat)
    (cache : ByteMem)
    (n : Nat) :
    writeSectors dev lba cache n =
      writeAll dev (sectorsFrom lba cache n) := by
  induction n with
  | zero => rfl
  | succ n ih =>
      rw [writeSectors, ih, sectorsFrom_succ]
      rcases hFirst : writeAll dev (sectorsFrom lba cache n)
        with ⟨ok, dev'⟩
      cases ok with
      | false =>
          rw [writeAll_append_failed (by rw [hFirst]), hFirst]
      | true =>
          rw [writeAll_append_ok (by rw [hFirst]), hFirst]
          dsimp only
          rw [writeAll]
          rcases fat12WriteSector dev' (lba + n)
            (cache.view (512 * n)) with ⟨ok, dev''⟩
          cases ok with
          | false => rfl
          | true => rfl

/- On a reliable device a flush copies the cache out. -/
theorem writeSectors_reliable
    (hDev : dev.Reliable)
    (lba : Nat)
    (cache : ByteMem)
    (n : Nat) :
    writeSectors dev lba cache n =
      (true,
        (dev.withImage
          (dev.image.storeBlock (512 * lba) (512 * n)
            cache)).issued (writeOps lba n)) := by
  rw [writeSectors_eq, writeAll_reliable hDev,
    storeAll_sectorsFrom, sectorsFrom_ops]

end Storage

end AsmOS
