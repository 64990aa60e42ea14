import AsmOS.Base.Session
import AsmOS.Storage.Fsck

/-
  The caches of the HAL are those of a fresh mount.

  Main declarations:
    * `HalCall`, `HalCall.run`
    * `Fs.Synced`, `run_synced`
    * `Fs.Same`, `run_bisimulation`
    * `remount_invisible`
-/

------------------------------------------------------------
-- Sessions Of Calls
------------------------------------------------------------

namespace AsmOS

namespace Storage

open ByteMem Session

inductive HalCall where
| init
| list (max : UInt32)
| read (name : List UInt8) (buf : ByteMem) (bufSize : UInt32)
| write (name : List UInt8) (data : ByteMem) (size : UInt32)
| delete (name : List UInt8)
| repair

/- What a call gives its caller. -/
inductive Reply where
| code (rc : Int)
| files (rc : Int) (out : List FileInfo)
| contents (result : ReadResult)

/- The reply and the state after a call. -/
def HalCall.run
    (fs : Fs) : HalCall → Option (Reply × Fs)
| .init =>
    some (.code (platFsInit fs).1, (platFsInit fs).2)
| .list max =>
    let out := platFsList fs max.toNat
    some (.files out.1.1 out.1.2, out.2)
| .read name buf bufSize =>
    (platFsRead fs name buf bufSize.toNat).map fun out =>
      (.contents out.1, out.2)
| .write name data size =>
    let out := platFsWrite fs name data size.toNat
    some (.code out.1, out.2)
| .delete name =>
    some (.code (platFsDelete fs name).1,
      (platFsDelete fs name).2)
| .repair =>
    some (.code (platFsRepair fs).1, (platFsRepair fs).2)

/- The replies of a sequence of calls and the last state. -/
def Fs.replies
    (fs : Fs)
    (calls : List HalCall) : Option (List Reply × Fs) :=
  Session.replies HalCall.run fs calls

/-
  The caches of a mounted state are the table and the root
  directory that are on the disk.
-/
structure Fs.Synced
    (fs : Fs) : Prop extends Fs.Coherent fs where
  fat : AgreeOn (fatOf fs.dev.image) fs.fatCache 0 4608

/- Two synced states that differ in their logs only. -/
structure Fs.Same
    (fs fs' : Fs) : Prop where
  left : fs.Synced
  right : fs'.Synced
  fat : fs.fatCache = fs'.fatCache
  root : fs.rootCache = fs'.rootCache
  image : fs.dev.image = fs'.dev.image

/- No failures, and synced when the tables are loaded. -/
structure Fs.Steady
    (fs : Fs) : Prop where
  reliable : fs.dev.Reliable
  synced : fs.fsReady = true → fs.Synced

theorem Fs.Synced.same
    {fs : Fs}
    (hFs : fs.Synced) :
    fs.Same fs :=
  ⟨hFs, hFs, rfl, rfl, rfl⟩

/- Operations in the log are not looked at. -/
theorem Fs.Synced.issued
    {fs : Fs}
    (hFs : fs.Synced)
    (ops : List SectorOp) :
    Fs.Synced { fs with dev := fs.dev.issued ops } :=
  ⟨⟨⟨hFs.ready, hFs.reliable⟩, hFs.root⟩, hFs.fat⟩

theorem Fs.Same.issued
    {fs fs' : Fs}
    (hSame : fs.Same fs')
    (ops ops' : List SectorOp) :
    Fs.Same { fs with dev := fs.dev.issued ops }
      { fs' with dev := fs'.dev.issued ops' } :=
  ⟨hSame.left.issued ops, hSame.right.issued ops',
    hSame.fat, hSame.root, hSame.image⟩

theorem Fs.Same.issued_right
    {fs fs' : Fs}
    (hSame : fs.Same fs')
    (ops : List SectorOp) :
    fs.Same { fs' with dev := fs'.dev.issued ops } :=
  ⟨hSame.left, hSame.right.issued ops, hSame.fat, hSame.root,
    hSame.image⟩

------------------------------------------------------------
-- Mounting
------------------------------------------------------------

section Mounting

variable {fs : Fs}

/- A mount loads what is on the disk. -/
theorem platFsInit_synced
    (hDev : fs.dev.Reliable) :
    (platFsInit fs).2.Synced := by
  rw [platFsInit_reliable hDev]
  refine ⟨⟨⟨rfl, hDev⟩, ?_⟩, ?_⟩
  · intro x _ hx
    exact (storeBlock_inside (Nat.zero_le x) (by omega)).symm
  · intro x _ hx
    exact (storeBlock_inside (Nat.zero_le x) (by omega)).symm

/- A mount of a synced state only adds to the log. -/
theorem platFsInit_of_synced
    (hFs : fs.Synced) :
    platFsInit fs =
      (0,
        { fs with
          dev :=
            fs.dev.issued
              (readOps 33 9 ++ readOps 51 14) }) := by
  have hFat :
      fs.fatCache.storeBlock 0 (512 * 9)
          (fs.dev.image.view (512 * 33)) =
        fs.fatCache := by
    refine storeBlock_same fun x hLo hx => ?_
    rw [view_apply fs.fatCache, Nat.zero_add]
    exact hFs.fat x hLo hx
  have hRoot :
      fs.rootCache.storeBlock 0 (512 * 14)
          (fs.dev.image.view (512 * 51)) =
        fs.rootCache := by
    refine storeBlock_same fun x hLo hx => ?_
    rw [view_apply fs.rootCache, Nat.zero_add]
    exact hFs.root x hLo hx
  rw [platFsInit_reliable hFs.reliable, hFat, hRoot,
    ← hFs.ready]

theorem platFsRepair_reliable
    (hDev : fs.dev.Reliable) :
    platFsRepair fs = platFsInit fs := by
  unfold platFsRepair
  rw [platFsInit_reliable hDev]
  rfl

/- A state whose tables are not loaded is mounted first. -/
theorem ensureReady_of_unready
    (hReady : ¬ fs.fsReady = true) :
    (ensureReady fs).2 = (platFsInit fs).2 := by
  unfold ensureReady
  rw [if_neg hReady]

theorem Fs.Steady.ensureReady
    (hFs : fs.Steady) :
    (ensureReady fs).2.Synced := by
  by_cases hReady : fs.fsReady = true
  · rw [ensureReady_mounted ⟨hReady, hFs.reliable⟩]
    exact hFs.synced hReady
  · rw [ensureReady_of_unready hReady]
    exact platFsInit_synced hFs.reliable

/- A mount gives the state that the next call works on. -/
theorem Fs.Steady.same_init
    (hFs : fs.Steady) :
    (platFsInit fs).2.Same (Storage.ensureReady fs).2 := by
  by_cases hReady : fs.fsReady = true
  · have hSynced := hFs.synced hReady
    rw [ensureReady_mounted ⟨hReady, hFs.reliable⟩,
      platFsInit_of_synced hSynced]
    exact hSynced.same.issued _ []
  · rw [ensureReady_of_unready hReady]
    exact (platFsInit_synced hFs.reliable).same

end Mounting

------------------------------------------------------------
-- Writes And Deletes
------------------------------------------------------------

section Changes

variable {fs fs' : Fs}

/- A flushed write leaves the caches synced. -/
theorem written_synced
    (hFs : fs.Synced)
    (root data : ByteMem)
    (size : Nat) :
    (written fs root data size).Synced where
  toCoherent := written_coherent hFs.toCoherent root data size
  fat :=
    (fatOf_writtenImage fs.dev.image root data size).trans
      hFs.fat

theorem written_same
    (hSame : fs.Same fs')
    (root data : ByteMem)
    (size : Nat) :
    (written fs root data size).Same
      (written fs' root data size) where
  left := written_synced hSame.left root data size
  right := written_synced hSame.right root data size
  fat := hSame.fat
  root := rfl
  image := by
    simp only [written, Device.issued_image,
      Device.withImage_image]
    rw [hSame.image]

/- A delete is a write of no data. -/
theorem platFsDelete_eq_written
    (hMounted : fs.Mounted)
    {name : List UInt8}
    {slot : Nat}
    (hFind : readSlot fs name = some slot) :
    platFsDelete fs name =
      (0,
        written fs (fs.rootCache.storeByte (32 * slot) 0xE5)
          zeros 0) := by
  rw [platFsDelete_reliable hMounted, hFind]
  simp only [written, writtenImage_empty]
  rfl

theorem platFsDelete_none
    (hMounted : fs.Mounted)
    {name : List UInt8}
    (hFind : readSlot fs name = none) :
    platFsDelete fs name = (-1, fs) := by
  rw [platFsDelete_reliable hMounted, hFind]

theorem platFsWrite_none
    (hMounted : fs.Mounted)
    {name : List UInt8}
    (hWrite :
      writeSlot fs.rootCache (fatNormalize name) = none)
    (data : ByteMem)
    (size : Nat) :
    platFsWrite fs name data size = (-1, fs) := by
  rw [platFsWrite_reliable hMounted, hWrite]

theorem platFsWrite_some
    (hMounted : fs.Mounted)
    {name : List UInt8}
    {slot : Nat}
    {root : ByteMem}
    (hWrite :
      writeSlot fs.rootCache (fatNormalize name) =
        some (slot, root))
    (data : ByteMem)
    (size : Nat) :
    platFsWrite fs name data size =
      (0,
        written fs (sizeSlot root slot size) data size) := by
  rw [platFsWrite_reliable hMounted, hWrite]

end Changes

------------------------------------------------------------
-- Calls On The Same State
------------------------------------------------------------

section Calls

variable {fs fs' : Fs}

/- A reply and a next state for two states that are the same. -/
theorem alike_some
    {reply : Reply}
    (hSame : fs.Same fs') :
    Alike Fs.Same (some (reply, fs)) (some (reply, fs')) :=
  Option.Rel.some ⟨rfl, hSame⟩

theorem read_alike
    (hSame : fs.Same fs')
    (name : List UInt8)
    (buf : ByteMem)
    (bufSize : UInt32) :
    Alike Fs.Same
      ((HalCall.read name buf bufSize).run fs)
      ((HalCall.read name buf bufSize).run fs') := by
  have hRoot := hSame.root.symm
  have hFat := hSame.fat.symm
  simp only [HalCall.run]
  rw [platFsRead_reliable hSame.left.toMounted,
    platFsRead_reliable hSame.right.toMounted,
    readSlot_congr hRoot]
  cases readSlot fs name with
  | none => exact alike_some hSame
  | some slot =>
      have hDefined :
          ReadDefined fs' slot bufSize.toNat ↔
            ReadDefined fs slot bufSize.toNat :=
        readDefined_congr hRoot hFat
      have hOutcome :
          readOutcome fs' slot buf bufSize.toNat =
            readOutcome fs slot buf bufSize.toNat := by
        rw [readOutcome_eq_iff hRoot hFat, hSame.image]
        exact fun _ _ _ _ _ _ => rfl
      dsimp only
      by_cases hRead : ReadDefined fs slot bufSize.toNat
      · rw [if_pos hRead, if_pos (hDefined.mpr hRead),
          hOutcome]
        exact alike_some (hSame.issued _ _)
      · rw [if_neg hRead,
          if_neg fun hOther => hRead (hDefined.mp hOther)]
        exact Option.Rel.none

/- States that are the same answer every call alike. -/
theorem run_bisimulation :
    Bisimulation HalCall.run Fs.Same := by
  intro fs fs' hSame call
  have hMounted := hSame.left.toMounted
  have hMounted' := hSame.right.toMounted
  cases call with
  | init =>
      simp only [HalCall.run]
      rw [platFsInit_of_synced hSame.left,
        platFsInit_of_synced hSame.right]
      exact alike_some (hSame.issued _ _)
  | list max =>
      simp only [HalCall.run, platFsList,
        ensureReady_mounted hMounted,
        ensureReady_mounted hMounted', hSame.root]
      exact alike_some hSame
  | read name buf bufSize =>
      exact read_alike hSame name buf bufSize
  | write name data size =>
      simp only [HalCall.run]
      cases hWrite :
          writeSlot fs.rootCache (fatNormalize name) with
      | none =>
          have hWrite' := hWrite
          rw [hSame.root] at hWrite'
          rw [platFsWrite_none hMounted hWrite,
            platFsWrite_none hMounted' hWrite']
          exact alike_some hSame
      | some target =>
          have hWrite' := hWrite
          rw [hSame.root] at hWrite'
          rw [platFsWrite_some hMounted hWrite,
            platFsWrite_some hMounted' hWrite']
          exact alike_some (written_same hSame _ _ _)
  | delete name =>
      simp only [HalCall.run]
      have hSlot : readSlot fs' name = readSlot fs name :=
        readSlot_congr hSame.root.symm name
      cases hFind : readSlot fs name with
      | none =>
          rw [platFsDelete_none hMounted hFind,
            platFsDelete_none hMounted' (hSlot.trans hFind)]
          exact alike_some hSame
      | some slot =>
          rw [platFsDelete_eq_written hMounted hFind,
            platFsDelete_eq_written hMounted'
              (hSlot.trans hFind), hSame.root]
          exact alike_some (written_same hSame _ _ _)
  | repair =>
      simp only [HalCall.run]
      rw [platFsRepair_reliable hMounted.reliable,
        platFsRepair_reliable hMounted'.reliable,
        platFsInit_of_synced hSame.left,
        platFsInit_of_synced hSame.right]
      exact alike_some (hSame.issued _ _)

/-
  A state and the one that `ensureReady` makes of it answer
  every call alike.
-/
theorem run_ensureReady_alike
    (hFs : fs.Steady)
    (call : HalCall) :
    Alike Fs.Same (call.run fs)
      (call.run (ensureReady fs).2) := by
  have hDev := hFs.reliable
  have hReady := hFs.ensureReady
  have hBisim :=
    run_bisimulation _ _ hReady.same call
  have hInit :
      platFsInit (ensureReady fs).2 =
        (0,
          { (ensureReady fs).2 with
            dev :=
              (ensureReady fs).2.dev.issued
                (readOps 33 9 ++ readOps 51 14) }) :=
    platFsInit_of_synced hReady
  have hCode : (platFsInit fs).1 = 0 := by
    rw [platFsInit_reliable hDev]
  have hMount :
      (platFsInit fs).2.Same
        (platFsInit (ensureReady fs).2).2 := by
    rw [hInit]
    exact hFs.same_init.issued_right _
  have hRc : (platFsInit (ensureReady fs).2).1 = 0 := by
    rw [hInit]
  cases call with
  | init =>
      simp only [HalCall.run]
      rw [hCode, hRc]
      exact alike_some hMount
  | list max =>
      simp only [HalCall.run] at hBisim ⊢
      rwa [platFsList_ensureReady hDev]
  | read name buf bufSize =>
      simp only [HalCall.run] at hBisim ⊢
      rwa [platFsRead_ensureReady hDev]
  | write name data size =>
      simp only [HalCall.run] at hBisim ⊢
      rwa [platFsWrite_ensureReady hDev]
  | delete name =>
      simp only [HalCall.run] at hBisim ⊢
      rwa [platFsDelete_ensureReady hDev]
  | repair =>
      simp only [HalCall.run]
      rw [platFsRepair_reliable hDev,
        platFsRepair_reliable hReady.reliable, hCode, hRc]
      exact alike_some hMount

/- Every call that returns leaves the caches synced. -/
theorem run_synced
    (hFs : fs.Steady)
    {call : HalCall}
    {reply : Reply}
    (hRun : call.run fs = some (reply, fs')) :
    fs'.Synced := by
  have hAlike := run_ensureReady_alike hFs call
  rw [hRun] at hAlike
  generalize call.run (ensureReady fs).2 = out at hAlike
  cases hAlike with
  | some hSame => exact hSame.2.left

end Calls

------------------------------------------------------------
-- Remounts In A Session
------------------------------------------------------------

theorem Fs.Synced.steady
    {fs : Fs}
    (hFs : fs.Synced) :
    fs.Steady :=
  ⟨hFs.reliable, fun _ => hFs⟩

theorem start_steady
    {dev : Device}
    (hDev : dev.Reliable) :
    (Fs.start dev).Steady :=
  ⟨hDev, fun hReady => absurd hReady (by
    simp [Fs.start])⟩

/- A mount before any later calls changes no reply. -/
theorem Fs.Steady.replies_init
    {fs : Fs}
    (hFs : fs.Steady)
    (later : List HalCall) :
    ((platFsInit fs).2.replies later).map Prod.fst =
      (fs.replies later).map Prod.fst := by
  have hMounted :=
    (run_bisimulation.replies hFs.same_init later).map_fst
  have hFirst :=
    replies_map_fst run_bisimulation
      (run_ensureReady_alike hFs) later
  exact hMounted.trans hFirst.symm

/-
  After every session from power-on without failures the
  caches are those on the disk, a mount changes neither of
  them, and it changes no later reply.
-/
theorem remount_invisible
    {dev : Device}
    (hDev : dev.Reliable)
    {calls : List HalCall}
    {replies : List Reply}
    {fs : Fs}
    (hRun :
      (Fs.start dev).replies calls = some (replies, fs)) :
    (calls ≠ [] →
      fs.Synced ∧
        (platFsInit fs).2.rootCache = fs.rootCache ∧
        (platFsInit fs).2.fatCache = fs.fatCache) ∧
    ∀ later : List HalCall,
      ((platFsInit fs).2.replies later).map Prod.fst =
        (fs.replies later).map Prod.fst := by
  have hStep :
      ∀ fs call reply fs', Fs.Steady fs →
        HalCall.run fs call = some (reply, fs') →
          fs'.Steady := by
    intro fs call reply fs' hFs hCall
    exact (run_synced hFs hCall).steady
  have hSteady :=
    replies_invariant hStep (start_steady hDev) hRun
  refine ⟨fun hSome => ?_, hSteady.replies_init⟩
  have hSynced : fs.Synced := by
    cases calls with
    | nil => exact absurd rfl hSome
    | cons call calls =>
        rcases replies_cons_eq_some_iff.mp hRun with
          ⟨reply, next, rest, hFirst, hRest, _⟩
        have hNext := run_synced (start_steady hDev) hFirst
        exact replies_invariant
          (fun _ _ _ _ hFs hCall =>
            run_synced hFs.steady hCall) hNext hRest
  rw [platFsInit_of_synced hSynced]
  exact ⟨hSynced, rfl, rfl⟩

/- A file written to the blank disk after power-on. -/
theorem remount_invisible_write :
    ∃ replies fs,
      (Fs.start (Device.ofImage zeros)).replies
          [.write [0x41] zeros 1] =
        some (replies, fs) ∧
      fs.Synced ∧
      ∀ later : List HalCall,
        ((platFsInit fs).2.replies later).map Prod.fst =
          (fs.replies later).map Prod.fst := by
  have hRun :
      (Fs.start (Device.ofImage zeros)).replies
          [.write [0x41] zeros 1] =
        some (_, _) :=
    rfl
  have hRemount :=
    remount_invisible (Device.ofImage_reliable zeros) hRun
  exact ⟨_, _, hRun, (hRemount.1 (by simp)).1, hRemount.2⟩

end Storage

end AsmOS
