import AsmOS.Base.Linked
import AsmOS.Boot.KernelSearch

/-
  Where the boot loader's loop puts the kernel.

  The loop follows the FAT copy at `FAT_SEG`, whose last
  sector was overwritten by the root directory, and advances
  ES:BX by one sector a turn.  When BX wraps after 128 turns,
  adding `0x1000` to ES wraps it too, and the next sector
  falls on the FAT copy.

  Main declarations:
    * `PlacesKernel`
    * `Following`
    * `cloopStep_following`
    * `cloop_places`
    * `walks_of_cloop`
    * `placesKernel_iff`
-/

------------------------------------------------------------
-- Chains And The Table In Memory
------------------------------------------------------------

namespace AsmOS

namespace Boot

open ByteMem

/- The first FAT of a disk. -/
def diskFat
    (disk : ByteMem) : ByteMem :=
  disk.view (512 * 33)

/-
  The table that `.cloop` follows: eight sectors of the FAT,
  and then the root directory.
-/
def fatCopy
    (disk : ByteMem) : ByteMem :=
  fun x =>
    if x < 4096 then disk (512 * 33 + x)
    else disk (512 * 51 + (x - 4096))

/- An end mark of FAT12. -/
abbrev IsEnd
    (c : Nat) : Prop :=
  0xFF8 ≤ c

/- The chain of a file in the FAT of the disk. -/
structure WellFormedChain
    (disk : ByteMem)
    (start : Nat)
    (cs : List Nat) : Prop where
  walks : Linked.Walks (Packed12.get (diskFat disk)) IsEnd start cs
  bounds : ∀ c ∈ cs, 2 ≤ c ∧ c ≤ 2816

/- The link of `c` reads in the copy as it does on the disk. -/
def LinkKept
    (disk : ByteMem)
    (c : Nat) : Prop :=
  Packed12.get (diskFat disk) c =
      Packed12.get (fatCopy disk) c ∨
    (IsEnd (Packed12.get (diskFat disk) c) ∧
      IsEnd (Packed12.get (fatCopy disk) c))

/- The state at `.cloop` when the start cluster is fetched. -/
def fetchedEntry
    (image : LoaderImage)
    (disk mem : ByteMem)
    (start : Nat) : LoopState where
  es := 0xFFFF
  bx := 0x0010
  mem :=
    store16 (loadTables disk mem) (linear fatSeg image.cluster)
      start

/-
  The loop ends; its `i`th transfer reads the `i`th cluster
  to `0x100000 + 512 * i`; no turn changes the FAT copy; and
  all sectors are in place at the end.  Cluster 2 is sector
  65 of the disk.
-/
def PlacesKernel
    (image : LoaderImage)
    (disk : ByteMem)
    (s : LoopState)
    (cs : List Nat) : Prop :=
  ∃ fuel ts final,
    cloop image disk fuel s = some (ts, final) ∧
      ts.map Transfer.lba = cs.map (fun c => 63 + c) ∧
      ts.map Transfer.dest =
        (List.range' 0 cs.length).map
          (fun i => 0x100000 + 512 * i) ∧
      (∀ t ∈ ts, AgreeOn t.next.mem s.mem 0x10000 0x11200) ∧
      ∀ i c, cs[i]? = some c →
        final.mem.slice (0x100000 + 512 * i) 512 =
          disk.slice (512 * (63 + c)) 512

variable {image : LoaderImage} {disk mem : ByteMem}
variable {s : LoopState} {c i fuel : Nat} {cs : List Nat}

/- The copy keeps all links below its last sector. -/
theorem linkKept_of_lt
    (hLow : c < 2730) :
    LinkKept disk c := by
  left
  have hOffset : Packed12.offset c + 2 ≤ 4096 := by
    unfold Packed12.offset
    omega
  have hAgree :
      AgreeOn (diskFat disk) (fatCopy disk) 0 4096 := by
    intro x _ hx
    simp [diskFat, fatCopy, hx]
  exact Packed12.get_congr hAgree (Nat.zero_le _) hOffset

------------------------------------------------------------
-- One Turn Of The Loop
------------------------------------------------------------

/- The segment and the offset before the `i`th transfer. -/
def Positioned
    (i : Nat)
    (s : LoopState) : Prop :=
  (i < 128 ∧ s.es = 0xFFFF ∧ s.bx = 0x10 + 512 * i) ∨
    (i = 128 ∧ s.es = 0x0FFF ∧ s.bx = 0x10)

/-
  The loop is about to make its `i`th transfer at cluster `c`
  with an intact table.
-/
structure Following
    (image : LoaderImage)
    (disk : ByteMem)
    (i c : Nat)
    (s : LoopState) : Prop where
  position : Positioned i s
  cluster_eq : s.cluster image = c
  table :
    AgreeOn (s.mem.view 0x10000) (fatCopy disk) 0 0x2C00

theorem fatCopy_loadTables :
    AgreeOn ((loadTables disk mem).view 0x10000) (fatCopy disk)
      0 0x2C00 := by
  intro x _ hx
  rw [view_apply, loadTables_eq]
  unfold fatCopy
  by_cases hLow : x < 4096
  · rw [if_pos hLow, storeBlock_outside (by omega),
      storeBlock_inside (by omega) (by omega),
      Nat.add_sub_cancel_left, view_apply]
  · have hPlace : 0x10000 + x - 0x11000 = x - 4096 := by omega
    rw [if_neg hLow, storeBlock_inside (by omega) (by omega),
      hPlace, view_apply]

theorem fetchedEntry_following
    (image : LoaderImage)
    (disk mem : ByteMem)
    {start : Nat}
    (hWord : start < 65536) :
    Following image disk 0 start
      (fetchedEntry image disk mem start) := by
  have hLo := image.cluster_lo
  refine ⟨Or.inl ⟨by decide, rfl, rfl⟩, ?_, ?_⟩
  · unfold fetchedEntry LoopState.cluster
    rw [load16_store16]
    exact Nat.mod_eq_of_lt hWord
  · intro x hx hx'
    unfold fetchedEntry
    dsimp only
    rw [view_apply, store16_outside _ _ (by
      simp only [linear, fatSeg]
      omega)]
    exact fatCopy_loadTables x hx hx'

/- The lookup of a cluster below the end marks. -/
theorem nextCluster_eq
    (hTable :
      AgreeOn (mem.view 0x10000) (fatCopy disk) 0 0x2C00)
    (hCluster : c < 0xFF8) :
    nextCluster mem c = Packed12.get (fatCopy disk) c := by
  have hOffset : (c / 2 + c) % 65536 = Packed12.offset c := by
    unfold Packed12.offset
    omega
  have hBound : Packed12.offset c + 2 ≤ 0x2C00 := by
    unfold Packed12.offset
    omega
  rw [← Packed12.get_congr hTable (Nat.zero_le _) hBound]
  unfold nextCluster Packed12.get
  simp only [hOffset, load16_view, linear, fatSeg]

/- At an end mark the loop is done. -/
theorem cloopStep_end
    (hFollow : Following image disk i c s)
    (hEnd : IsEnd c) :
    cloopStep image disk s = none := by
  unfold cloopStep
  rw [hFollow.cluster_eq, if_pos hEnd]

/- The turn of the loop at a cluster, whatever the place. -/
theorem cloopStep_cluster
    (hFollow : Following image disk i c s)
    (hCluster : ¬ IsEnd c) :
    ∃ t, cloopStep image disk s = some t ∧ t.lba = 63 + c ∧
      t.dest = linear s.es s.bx ∧
      t.next.es =
        (if 65536 ≤ s.bx + 512 then (s.es + 0x1000) % 65536
          else s.es) ∧
      t.next.bx = (s.bx + 512) % 65536 ∧
      t.next.mem =
        (let mem :=
          storeBlock s.mem (linear s.es s.bx) 512
            (disk.view (512 * (63 + c)))
        store16 mem (linear fatSeg image.cluster)
          (nextCluster mem
            (load16 mem (linear fatSeg image.cluster)))) := by
  have hBound : c < 0xFF8 := by omega
  have hLba : (fatData + (c + 65534) % 65536) % 65536 = 63 + c := by
    simp only [fatData]
    omega
  unfold cloopStep
  rw [hFollow.cluster_eq, if_neg hCluster]
  dsimp only
  rw [hLba, readSector_eq (by omega)]
  exact ⟨_, rfl, rfl, rfl, by dsimp only, rfl, rfl⟩

/- The `i`th transfer, for the first 128 of them. -/
theorem cloopStep_following
    (hFollow : Following image disk i c s)
    (hRoom : i < 128)
    (hCluster : ¬ IsEnd c) :
    ∃ t, cloopStep image disk s = some t ∧ t.lba = 63 + c ∧
      t.dest = 0x100000 + 512 * i ∧
      t.next.mem =
        store16
          (storeBlock s.mem (0x100000 + 512 * i) 512
            (disk.view (512 * (63 + c))))
          (linear fatSeg image.cluster)
          (Packed12.get (fatCopy disk) c) ∧
      Following image disk (i + 1)
        (Packed12.get (fatCopy disk) c) t.next := by
  have hLo := image.cluster_lo
  have hHi := image.cluster_hi
  have hBound : c < 0xFF8 := by omega
  rcases cloopStep_cluster hFollow hCluster with
    ⟨t, hStep, hLba, hDest, hEs, hBx, hMem⟩
  rcases hFollow.position with
    ⟨_, hEsNow, hBxNow⟩ | ⟨hFull, _⟩
  swap
  · omega
  have hPlace : linear s.es s.bx = 0x100000 + 512 * i := by
    rw [hEsNow, hBxNow]
    simp only [linear]
    omega
  rw [hPlace] at hDest hMem
  -- The sector lies above the table and the variable.
  have hTable :
      AgreeOn
        ((storeBlock s.mem (0x100000 + 512 * i) 512
          (disk.view (512 * (63 + c)))).view 0x10000)
        (fatCopy disk) 0 0x2C00 := by
    intro x hx hx'
    rw [view_apply, storeBlock_outside (by omega)]
    exact hFollow.table x hx hx'
  have hWord :
      load16
          (storeBlock s.mem (0x100000 + 512 * i) 512
            (disk.view (512 * (63 + c))))
          (linear fatSeg image.cluster) = c := by
    rw [load16_storeBlock_of_disjoint (by
      simp only [linear, fatSeg]
      omega)]
    exact hFollow.cluster_eq
  dsimp only at hMem
  rw [hWord, nextCluster_eq hTable hBound] at hMem
  refine ⟨t, hStep, hLba, hDest, hMem, ?_, ?_, ?_⟩
  · rw [hBxNow] at hEs hBx
    by_cases hLast : i = 127
    · right
      subst hLast
      refine ⟨rfl, ?_, hBx⟩
      rw [hEs, hEsNow]
      rfl
    · left
      rw [if_neg (by omega)] at hEs
      exact ⟨by omega, hEs.trans hEsNow, by omega⟩
  · unfold LoopState.cluster
    rw [hMem, load16_store16]
    have hEntry := Packed12.get_lt (fatCopy disk) c
    exact Nat.mod_eq_of_lt (by omega)
  · intro x hx hx'
    rw [hMem, view_apply, store16_outside _ _ (by
      simp only [linear, fatSeg]
      omega)]
    exact hTable x hx hx'

/- After 128 transfers the next one falls on the FAT copy. -/
theorem cloopStep_wrapped
    (hFollow : Following image disk 128 c s)
    (hCluster : ¬ IsEnd c) :
    ∃ t, cloopStep image disk s = some t ∧ t.dest = 0x10000 := by
  rcases cloopStep_cluster hFollow hCluster with
    ⟨t, hStep, _, hDest, _⟩
  rcases hFollow.position with ⟨hRoom, _⟩ | ⟨_, hEs, hBx⟩
  · omega
  · rw [hEs, hBx] at hDest
    exact ⟨t, hStep, hDest⟩

------------------------------------------------------------
-- A Whole Run
------------------------------------------------------------

/-
  Along a chain of the copy that ends within 128 transfers
  the loop puts every sector in its place, and it changes
  nothing of the table or of the sectors placed before.
-/
theorem cloop_places
    (hFollow : Following image disk i c s)
    (hWalk :
      Linked.Walks (Packed12.get (fatCopy disk)) IsEnd c cs)
    (hRoom : i + cs.length ≤ 128) :
    ∃ ts final,
      cloop image disk (cs.length + 1) s = some (ts, final) ∧
        ts.map Transfer.lba = cs.map (fun c => 63 + c) ∧
        ts.map Transfer.dest =
          (List.range' i cs.length).map
            (fun i => 0x100000 + 512 * i) ∧
        (∀ t ∈ ts, AgreeOn t.next.mem s.mem 0x10000 0x11200) ∧
        AgreeOn final.mem s.mem 0x100000
          (0x100000 + 512 * i) ∧
        ∀ j c, cs[j]? = some c →
          final.mem.slice (0x100000 + 512 * (i + j)) 512 =
            disk.slice (512 * (63 + c)) 512 := by
  have hLo := image.cluster_lo
  have hHi := image.cluster_hi
  induction cs generalizing i c s with
  | nil =>
      have hStep := cloopStep_end hFollow hWalk
      refine ⟨[], s, ?_, rfl, rfl, ?_, AgreeOn.refl _ _ _, ?_⟩
      · simp [cloop, hStep]
      · intro t hMember
        cases hMember
      · intro j c hGet
        simp at hGet
  | cons d ds ih =>
      rcases hWalk with ⟨hCluster, rfl, hRest⟩
      simp only [List.length_cons] at hRoom
      rcases cloopStep_following hFollow (by omega) hCluster with
        ⟨t, hStep, hLba, hDest, hMem, hNext⟩
      rcases ih hNext hRest (by omega) with
        ⟨ts, final, hRun, hLbas, hDests, hCopy, hBefore, hPlaced⟩
      have hHere : AgreeOn t.next.mem s.mem 0x10000 0x11200 := by
        intro x hx hx'
        rw [hMem, store16_outside _ _ (by
            simp only [linear, fatSeg]
            omega),
          storeBlock_outside (by omega)]
      refine ⟨t :: ts, final, ?_, ?_, ?_, ?_, ?_, ?_⟩
      · rw [List.length_cons, cloop, hStep]
        dsimp only
        rw [hRun]
        rfl
      · rw [List.map_cons, hLbas, hLba, List.map_cons]
      · rw [List.map_cons, hDests, hDest, List.length_cons,
          List.range'_succ, List.map_cons]
      · intro u hMember
        rcases List.mem_cons.mp hMember with rfl | hTail
        · exact hHere
        · exact (hCopy u hTail).trans hHere
      · intro x hx hx'
        rw [hBefore x hx (by omega), hMem,
          store16_outside _ _ (by
            simp only [linear, fatSeg]
            omega),
          storeBlock_outside (by omega)]
      · intro j c hGet
        cases j with
        | zero =>
            -- The sector of this turn survives the later ones.
            have hHead : d = c := by simpa using hGet
            subst hHead
            refine slice_congr fun x hx => ?_
            rw [hBefore _ (by omega) (by omega), hMem,
              store16_outside _ _ (by
                simp only [linear, fatSeg]
                omega),
              storeBlock_inside (by omega) (by omega),
              view_apply]
            rw [show 0x100000 + 512 * (i + 0) + x -
                (0x100000 + 512 * i) = x by omega]
        | succ j =>
            have hTail := hPlaced j c (by simpa using hGet)
            rwa [show i + 1 + j = i + (j + 1) by omega] at hTail

/-
  A run that makes the transfers of a list of clusters has
  followed them in the copy, and is at most 128 long.
-/
theorem walks_of_cloop
    {ts : List Transfer}
    {final : LoopState}
    (hFollow : Following image disk i c s)
    (hRun : cloop image disk fuel s = some (ts, final))
    (hLbas : ts.map Transfer.lba = cs.map (fun c => 63 + c))
    (hDests :
      ts.map Transfer.dest =
        (List.range' i cs.length).map
          (fun i => 0x100000 + 512 * i)) :
    Linked.Walks (Packed12.get (fatCopy disk)) IsEnd c cs ∧
      i + cs.length ≤ 128 := by
  induction cs generalizing i c s ts fuel with
  | nil =>
      have hNil : ts = [] := by simpa using hLbas
      subst hNil
      have hPlace : i ≤ 128 := by
        rcases hFollow.position with ⟨hRoom, _⟩ | ⟨hFull, _⟩ <;>
          omega
      refine ⟨?_, hPlace⟩
      -- No transfer was made, so the loop was at an end mark.
      by_contra hCluster
      rcases cloopStep_cluster hFollow hCluster with
        ⟨t, hStep, _⟩
      cases fuel with
      | zero => simp [cloop] at hRun
      | succ fuel => simp [cloop, hStep] at hRun
  | cons d ds ih =>
      cases fuel with
      | zero => simp [cloop] at hRun
      | succ fuel =>
          by_cases hEnd : IsEnd c
          · have hStep := cloopStep_end hFollow hEnd
            simp only [cloop, hStep, Option.some.injEq,
              Prod.mk.injEq] at hRun
            rw [← hRun.1] at hLbas
            simp at hLbas
          · rcases cloopStep_cluster hFollow hEnd with
              ⟨t, hStep, _⟩
            simp only [cloop, hStep, Option.map_eq_some_iff]
              at hRun
            rcases hRun with ⟨⟨us, last⟩, hRest, hPair⟩
            cases hPair
            rw [List.map_cons, List.map_cons] at hLbas
            rw [List.map_cons, List.length_cons,
              List.range'_succ, List.map_cons] at hDests
            rcases List.cons.inj hLbas with ⟨hLba, hLbasTail⟩
            rcases List.cons.inj hDests with ⟨hDest, hDestsTail⟩
            rcases hFollow.position with ⟨hRoom, _⟩ | ⟨rfl, _⟩
            · rcases cloopStep_following hFollow hRoom hEnd with
                ⟨u, hStep', hLba', _, _, hNext⟩
              have hSame : u = t :=
                Option.some.inj (hStep'.symm.trans hStep)
              subst hSame
              have hHead : d = c := by omega
              rcases ih hNext hRest hLbasTail hDestsTail with
                ⟨hWalk, hLength⟩
              refine ⟨⟨hEnd, hHead, hWalk⟩, ?_⟩
              rw [List.length_cons]
              omega
            · rcases cloopStep_wrapped hFollow hEnd with
                ⟨u, hStep', hDest'⟩
              have hSame : u = t :=
                Option.some.inj (hStep'.symm.trans hStep)
              subst hSame
              omega

/- What the run from the fetched start cluster does. -/
theorem placesKernel_walks_iff
    (image : LoaderImage)
    (disk mem : ByteMem)
    {start : Nat}
    (hWord : start < 65536) :
    PlacesKernel image disk (fetchedEntry image disk mem start)
        cs ↔
      cs.length ≤ 128 ∧
        Linked.Walks (Packed12.get (fatCopy disk)) IsEnd start
          cs := by
  have hFollow := fetchedEntry_following image disk mem hWord
  constructor
  · rintro ⟨fuel, ts, final, hRun, hLbas, hDests, _⟩
    rcases walks_of_cloop hFollow hRun hLbas hDests with
      ⟨hWalk, hLength⟩
    exact ⟨by omega, hWalk⟩
  · rintro ⟨hLength, hWalk⟩
    rcases cloop_places hFollow hWalk (by omega) with
      ⟨ts, final, hRun, hLbas, hDests, hCopy, _, hPlaced⟩
    refine ⟨_, ts, final, hRun, hLbas, hDests, hCopy, ?_⟩
    intro i c hGet
    simpa using hPlaced i c hGet

/-
  For a kernel with a well-formed chain the loop does its
  work exactly when the chain has at most 128 clusters and
  its links read in the FAT copy as they do on the disk.
-/
theorem placesKernel_iff
    (image : LoaderImage)
    (disk mem : ByteMem)
    (k : Nat)
    (cs : List Nat)
    (hChain : WellFormedChain disk (startCluster disk k) cs) :
    PlacesKernel image disk
        (fetchedEntry image disk mem (startCluster disk k)) cs ↔
      cs.length ≤ 128 ∧ ∀ c ∈ cs, LinkKept disk c := by
  have hWord : startCluster disk k < 65536 := load16_lt _ _
  rw [placesKernel_walks_iff image disk mem hWord,
    hChain.walks.congr_iff]
  rfl

------------------------------------------------------------
-- A Kernel Above 64 KB
------------------------------------------------------------

/- The links of one chain from cluster 2 to cluster `last`. -/
def chainLinks
    (last c : Nat) : Nat :=
  if c < last then c + 1 else 0xFFF

/- A disk with that chain and a kernel entry for it. -/
def chainDisk
    (last : Nat) : ByteMem :=
  storeBlock kernelDisk (512 * 33) 4608
    (Packed12.pack (chainLinks last))

theorem chainDisk_start
    (last : Nat) :
    startCluster (chainDisk last) 0 = 2 := by
  unfold startCluster chainDisk
  rw [load16_storeBlock_of_disjoint (by decide)]
  decide

/- The FAT of the disk has the links of the chain. -/
theorem chainDisk_get
    {last : Nat}
    (hCluster : c ≤ 2816) :
    Packed12.get (diskFat (chainDisk last)) c =
      chainLinks last c := by
  have hAgree :
      AgreeOn (diskFat (chainDisk last))
        (Packed12.pack (chainLinks last)) 0 4608 := by
    intro x _ hx
    unfold diskFat chainDisk
    rw [view_apply, storeBlock_inside (by omega) (by omega),
      Nat.add_sub_cancel_left]
  have hOffset : Packed12.offset c + 2 ≤ 4608 := by
    unfold Packed12.offset
    omega
  rw [Packed12.get_congr hAgree (Nat.zero_le _) hOffset,
    Packed12.get_pack]
  unfold chainLinks
  split <;> omega

/- From any cluster of the chain on it is consecutive. -/
theorem chainLinks_walks
    (n : Nat)
    {start last : Nat}
    (hEnd : start + n = last)
    (hLow : last < 0xFF8) :
    Linked.Walks (chainLinks last) IsEnd start
      (List.range' start (n + 1)) := by
  induction n generalizing start with
  | zero =>
      have hHere : start = last := by omega
      subst hHere
      refine ⟨by omega, rfl, ?_⟩
      simp [Linked.Walks, chainLinks]
  | succ n ih =>
      have hLink : chainLinks last start = start + 1 := by
        rw [chainLinks, if_pos (by omega)]
      rw [List.range'_succ]
      refine ⟨by omega, rfl, ?_⟩
      rw [hLink]
      exact ih (by omega)

theorem chainDisk_chain
    {last : Nat}
    (hLow : 2 ≤ last)
    (hHigh : last ≤ 2816) :
    WellFormedChain (chainDisk last) 2
      (List.range' 2 (last - 1)) := by
  have hClusters :
      ∀ c ∈ List.range' 2 (last - 1), 2 ≤ c ∧ c ≤ 2816 := by
    intro c hMember
    rw [List.mem_range'_1] at hMember
    omega
  have hWalk :
      Linked.Walks (chainLinks last) IsEnd 2
        (List.range' 2 (last - 2 + 1)) :=
    chainLinks_walks (last - 2) (by omega) (by omega)
  rw [show last - 2 + 1 = last - 1 by omega] at hWalk
  exact ⟨hWalk.congr fun c hMember =>
    (chainDisk_get (hClusters c hMember).2).symm, hClusters⟩

/- One cluster more than 64 KB of kernel. -/
theorem not_placesKernel_129 :
    WellFormedChain (chainDisk 130)
        (startCluster (chainDisk 130) 0) (List.range' 2 129) ∧
      ¬ PlacesKernel sampleImage (chainDisk 130)
        (fetchedEntry sampleImage (chainDisk 130)
          (loaderOnly sampleImage)
          (startCluster (chainDisk 130) 0))
        (List.range' 2 129) := by
  rw [chainDisk_start]
  refine ⟨chainDisk_chain (by decide) (by decide), ?_⟩
  rw [placesKernel_walks_iff _ _ _ (by decide)]
  rintro ⟨hLength, _⟩
  simp at hLength

/- A kernel of two clusters is placed. -/
theorem placesKernel_two :
    PlacesKernel sampleImage (chainDisk 3)
      (fetchedEntry sampleImage (chainDisk 3)
        (loaderOnly sampleImage)
        (startCluster (chainDisk 3) 0)) [2, 3] := by
  have hChain :
      WellFormedChain (chainDisk 3)
        (startCluster (chainDisk 3) 0) [2, 3] := by
    rw [chainDisk_start]
    exact chainDisk_chain (by decide) (by decide)
  refine (placesKernel_iff sampleImage (chainDisk 3)
    (loaderOnly sampleImage) 0 [2, 3] hChain).mpr ?_
  refine ⟨by decide, fun c hMember => linkKept_of_lt ?_⟩
  rcases List.mem_pair.mp hMember with rfl | rfl <;> omega

end Boot

end AsmOS
