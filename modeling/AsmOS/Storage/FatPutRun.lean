import AsmOS.Storage.FatPutAlloc

/-
  Whole runs of `fat_put.py` on a blank image.

  After `k` files the first `k` slots are live, the clusters
  from `nextCluster` on are free, and each file has its
  chain, its entry and its data; later files leave all three
  alone.

  Main declarations:
    * `InstallFile`
    * `Ready`, `Installed`, `Extends`
    * `Puts`, `putFile_puts`
    * `putFiles_spec`
-/

------------------------------------------------------------
-- Files To Install
------------------------------------------------------------

namespace AsmOS

namespace FatPut

open ByteMem Bytearray Storage

/- A file with an 11-byte upper-case ASCII name. -/
structure InstallFile where
  data : List UInt8
  name : List UInt8
  name_length : name.length = 11
  name_ascii :
    ∀ b ∈ name, 0 < b.toNat ∧ b.toNat < 128 ∧
      ¬ (0x61 ≤ b ∧ b ≤ 0x7A)

/- The command-line arguments of a file. -/
def InstallFile.args
    (file : InstallFile) : List UInt8 × List UInt8 :=
  (file.data, file.name)

/- An empty file takes one cluster. -/
def InstallFile.clusterCount
    (file : InstallFile) : Nat :=
  max 1 ((file.data.length + 511) / 512)

/- The file as one of any name. -/
def InstallFile.source
    (file : InstallFile) : SourceFile where
  data := file.data
  name := file.name
  name_ascii := fun b hMember =>
    ⟨(file.name_ascii b hMember).1,
      (file.name_ascii b hMember).2.1⟩

theorem InstallFile.clusterCount_pos
    (file : InstallFile) :
    0 < file.clusterCount :=
  file.source.clusterCount_pos

theorem InstallFile.data_length_le
    (file : InstallFile) :
    file.data.length ≤ 512 * file.clusterCount :=
  file.source.data_length_le

/- An upper-case name of eleven bytes is used unchanged. -/
theorem InstallFile.fieldName_eq
    (file : InstallFile) :
    fieldName file.name = file.name := by
  have hUpper : file.name.map upper = file.name := by
    refine (List.map_congr_left fun b hMember => ?_).trans
      (List.map_id file.name)
    unfold upper
    rw [if_neg (file.name_ascii b hMember).2.2]
    rfl
  have hLength := file.name_length
  unfold fieldName
  rw [hUpper, ljust, hLength]
  simp only [Nat.sub_self, List.replicate_zero,
    List.append_nil, Bytearray.slice, List.drop_zero]
  exact List.take_of_length_le (by omega)

/- The first name byte marks a live slot. -/
theorem InstallFile.head_live
    (file : InstallFile) :
    ¬ freeByte (file.name.getD 0 0) := by
  have hLive := file.source.field_live
  rwa [show file.source.field = file.name from
    file.fieldName_eq] at hLive

------------------------------------------------------------
-- States Between Files
------------------------------------------------------------

/- The arrays before the file of slot `k`. -/
structure Ready
    (s : Installer)
    (k : Nat) : Prop where
  img_length : s.img.length = imageBytes
  fat_length : s.fat.length = tableBytes
  root_length : s.root.length = 32 * rootEntries
  cluster : 2 ≤ s.nextCluster
  free :
    ∀ d, s.nextCluster ≤ d → d ≤ 2816 →
      Packed12.get (ofList s.fat) d = 0
  live :
    ∀ j < k, ¬ freeByte (ofList s.root (32 * j))
  blank : ∀ x, 32 * k ≤ x → ofList s.root x = 0

/- A file in slot `slot` with its chain from `start` on. -/
structure Installed
    (s : Installer)
    (slot : Nat)
    (file : InstallFile)
    (start : Nat) : Prop where
  chain :
    ∀ d, start ≤ d → d < start + file.clusterCount →
      Packed12.get (ofList s.fat) d =
        chainEntry start file.clusterCount 0 d
  name : slotName (ofList s.root) slot = file.name
  live : slotFree (ofList s.root) slot = false
  plain : slotDirectory (ofList s.root) slot = false
  cluster : slotCluster (ofList s.root) slot = start
  size : slotSize (ofList s.root) slot = file.data.length
  bytes :
    ∀ x < 512 * file.clusterCount,
      ofList s.img (512 * (63 + start) + x) =
        ofList file.data x

/- The arrays used by the first `k` files are unchanged. -/
structure Extends
    (s s' : Installer)
    (k : Nat) : Prop where
  cluster : s.nextCluster ≤ s'.nextCluster
  fat :
    ∀ d < s.nextCluster,
      Packed12.get (ofList s'.fat) d =
        Packed12.get (ofList s.fat) d
  root :
    ∀ x < 32 * k, ofList s'.root x = ofList s.root x
  img :
    ∀ x < 512 * (63 + s.nextCluster),
      ofList s'.img x = ofList s.img x

theorem Extends.refl
    (s : Installer)
    (k : Nat) :
    Extends s s k :=
  ⟨Nat.le_refl _, fun _ _ => rfl, fun _ _ => rfl,
    fun _ _ => rfl⟩

theorem Extends.trans
    {s s' s'' : Installer}
    {k : Nat}
    (hFirst : Extends s s' k)
    (hSecond : Extends s' s'' (k + 1)) :
    Extends s s'' k where
  cluster := hFirst.cluster.trans hSecond.cluster
  fat := fun d hd => by
    rw [hSecond.fat d (lt_of_lt_of_le hd hFirst.cluster),
      hFirst.fat d hd]
  root := fun x hx => by
    rw [hSecond.root x (by omega), hFirst.root x hx]
  img := fun x hx => by
    have hCluster := hFirst.cluster
    rw [hSecond.img x (by omega), hFirst.img x hx]

/- Later files leave an installed file alone. -/
theorem Installed.extends
    {s s' : Installer}
    {slot k start : Nat}
    {file : InstallFile}
    (hFile : Installed s slot file start)
    (hSlot : slot < k)
    (hStart :
      start + file.clusterCount ≤ s.nextCluster)
    (hExtends : Extends s s' k) :
    Installed s' slot file start := by
  have hAgree :
      SlotAgree (ofList s'.root) (ofList s.root) slot :=
    fun x _ hHi => hExtends.root x (by omega)
  refine ⟨?_, ?_, ?_, ?_, ?_, ?_, ?_⟩
  · intro d hLo hHi
    rw [hExtends.fat d (by omega)]
    exact hFile.chain d hLo hHi
  · rw [hAgree.name_eq, hFile.name]
  · rw [hAgree.free_eq, hFile.live]
  · rw [hAgree.directory_eq, hFile.plain]
  · rw [hAgree.cluster_eq, hFile.cluster]
  · rw [hAgree.size_eq, hFile.size]
  · intro x hx
    rw [hExtends.img _ (by omega)]
    exact hFile.bytes x hx

------------------------------------------------------------
-- One File
------------------------------------------------------------

/- The arrays that `put_file` leaves for the file of slot `k`. -/
structure Puts
    (s s' : Installer)
    (k : Nat)
    (file : InstallFile) : Prop where
  img_length : s'.img.length = imageBytes
  fat_length : s'.fat.length = tableBytes
  root_length : s'.root.length = 32 * rootEntries
  next :
    s'.nextCluster = s.nextCluster + file.clusterCount
  fat :
    ∀ d, Packed12.get (ofList s'.fat) d =
      chainEntry s.nextCluster file.clusterCount
        (Packed12.get (ofList s.fat) d) d
  root :
    ofList s'.root =
      entryRoot (ofList s.root) k file.name s.nextCluster
        file.data.length
  img :
    ofList s'.img =
      (ofList s.img).storeBlock (512 * (63 + s.nextCluster))
        (512 * file.clusterCount) (ofList file.data)

/- `put_file` takes the next slot and the next clusters. -/
theorem putFile_puts
    {s : Installer}
    {k : Nat}
    (hReady : Ready s k)
    (file : InstallFile)
    (hSlot : k < 224)
    (hRoom :
      s.nextCluster + file.clusterCount ≤ 2817) :
    ∃ s', putFile s file.data file.name = .ok s' ∧
      Puts s s' k file := by
  have hLo := hReady.cluster
  have hPos := file.clusterCount_pos
  have hRootBytes := hReady.root_length
  simp only [rootEntries] at hRootBytes
  have hTake :
      (freeClusters s.fat s.nextCluster).take
          file.clusterCount =
        List.range' s.nextCluster file.clusterCount :=
    freeClusters_take _ (by omega) fun d hLo hHi =>
      hReady.free d hLo (by omega)
  have hCount :
      file.clusterCount ≤
        (freeClusters s.fat s.nextCluster).length := by
    have hLength := congrArg List.length hTake
    rw [List.length_take, List.length_range'] at hLength
    omega
  rcases openSlots_first hSlot
      (show 32 * k + 12 ≤ s.root.length by omega) hReady.live
      (Or.inl (hReady.blank _ (Nat.le_refl _))) with
    ⟨rest, hOpen⟩
  rcases putFile_free file.source hReady.fat_length rfl
      hCount hOpen with ⟨s', hPut, hPuts, _, _⟩
  have hField : file.source.field = file.name :=
    file.fieldName_eq
  rw [show file.source.clusterCount = file.clusterCount from
    rfl, hTake] at hPuts
  have hStart :
      (List.range' s.nextCluster file.clusterCount).headD 0 =
        s.nextCluster := by
    rw [List.headD_eq_head?_getD, List.head?_range',
      if_neg (by omega), Option.getD_some]
  have hLast :
      (List.range' s.nextCluster file.clusterCount).getLast? =
        some (s.nextCluster + file.clusterCount - 1) := by
    rw [List.getLast?_range', if_neg (by omega)]
  have hRoot := hPuts.root
  rw [hStart, hField] at hRoot
  have hWhole : 32 * k + 32 ≤ s.root.length := by omega
  rcases storeEntry_spec s.nextCluster file.data.length
      hWhole file.name_length with ⟨hRootLength, hEntry⟩
  rcases writeClusters_spec file.data file.clusterCount
      s.nextCluster 0 s.img hReady.img_length hLo hRoom with
    ⟨hImgLength, hImg⟩
  have hView :
      (ofList file.data).view (512 * 0) = ofList file.data := by
    funext x
    rw [view, Nat.mul_zero, Nat.zero_add]
  rw [hView] at hImg
  refine ⟨s', hPut, ?_, hPuts.table.length, ?_, ?_,
    hPuts.table.entry_eq hPos, ?_, ?_⟩
  · rw [hPuts.img]
    exact hImgLength
  · rw [hRoot]
    exact hRootLength.trans hReady.root_length
  · rw [hPuts.next _ hLast]
    omega
  · rw [hRoot]
    exact hEntry
  · rw [hPuts.img]
    exact hImg

section AfterFile

variable {s s' : Installer} {k : Nat} {file : InstallFile}

theorem Puts.extends
    (hPuts : Puts s s' k file) :
    Extends s s' k where
  cluster := by
    rw [hPuts.next]
    omega
  fat := by
    intro d hd
    have hPos := file.clusterCount_pos
    rw [hPuts.fat, chainEntry, if_neg (by omega),
      if_neg (by omega)]
  root := by
    intro x hx
    rw [hPuts.root, entryRoot_outside (by omega)]
  img := by
    intro x hx
    rw [hPuts.img, storeBlock_outside (by omega)]

theorem Puts.installed
    (hPuts : Puts s s' k file)
    (hRoom :
      s.nextCluster + file.clusterCount ≤ 2817) :
    Installed s' k file s.nextCluster where
  chain := by
    intro d hLo hHi
    rw [hPuts.fat]
    unfold chainEntry
    by_cases hInner : s.nextCluster ≤ d ∧
        d + 1 < s.nextCluster + file.clusterCount
    · rw [if_pos hInner, if_pos hInner]
    · rw [if_neg hInner, if_neg hInner, if_pos (by omega),
        if_pos (by omega)]
  name := by
    rw [hPuts.root, slotName_entryRoot file.name_length]
  live := by
    rw [hPuts.root, slotFree_entryRoot]
    have hHead := file.head_live
    unfold freeByte at hHead
    simpa using hHead
  plain := by
    rw [hPuts.root, slotDirectory_entryRoot]
  cluster := by
    rw [hPuts.root, slotCluster_entryRoot (by omega)]
  size := by
    have hData := file.data_length_le
    rw [hPuts.root, slotSize_entryRoot (by omega)]
  bytes := by
    intro x hx
    rw [hPuts.img, storeBlock_inside (by omega) (by omega),
      Nat.add_sub_cancel_left]

theorem Puts.ready
    (hReady : Ready s k)
    (hPuts : Puts s s' k file) :
    Ready s' (k + 1) where
  img_length := hPuts.img_length
  fat_length := hPuts.fat_length
  root_length := hPuts.root_length
  cluster := hReady.cluster.trans hPuts.extends.cluster
  free := by
    intro d hLo hHi
    rw [hPuts.next] at hLo
    rw [hPuts.fat, chainEntry, if_neg (by omega),
      if_neg (by omega)]
    exact hReady.free d (by omega) hHi
  live := by
    intro j hj
    by_cases hOwn : j = k
    · have hByte :
          ofList s'.root (32 * j) = file.name.getD 0 0 := by
        rw [hOwn, hPuts.root, entryRoot_head (by omega)]
        exact nameSlot_byte _ _ 0 (by omega)
      rw [hByte]
      exact file.head_live
    · rw [hPuts.root, entryRoot_outside (by omega)]
      exact hReady.live j (by omega)
  blank := by
    intro x hx
    rw [hPuts.root, entryRoot_outside (by omega)]
    exact hReady.blank x (by omega)

end AfterFile

------------------------------------------------------------
-- All Files
------------------------------------------------------------

/- The clusters that a list of files takes. -/
def totalClusters
    (files : List InstallFile) : Nat :=
  (files.map InstallFile.clusterCount).sum

theorem totalClusters_cons
    (file : InstallFile)
    (files : List InstallFile) :
    totalClusters (file :: files) =
      file.clusterCount + totalClusters files := by
  simp [totalClusters]

/- The `j`th file lies behind the clusters of the others. -/
theorem putFiles_spec
    {s : Installer}
    {k : Nat}
    (files : List InstallFile)
    (hReady : Ready s k)
    (hSlots : k + files.length ≤ 224)
    (hRoom :
      s.nextCluster + totalClusters files ≤ 2817) :
    ∃ s', putFiles s (files.map InstallFile.args) = .ok s' ∧
      Ready s' (k + files.length) ∧
      Extends s s' k ∧
      ∀ j file, files[j]? = some file →
        Installed s' (k + j) file
          (s.nextCluster + totalClusters (files.take j)) := by
  induction files generalizing s k with
  | nil =>
      exact ⟨s, rfl, hReady, Extends.refl s k, by simp⟩
  | cons file files ih =>
      rw [totalClusters_cons] at hRoom
      rw [List.length_cons] at hSlots
      have hOwnRoom :
          s.nextCluster + file.clusterCount ≤ 2817 := by
        omega
      rcases putFile_puts hReady file (by omega) hOwnRoom
        with ⟨s₁, hFirst, hPuts⟩
      have hNext := hPuts.next
      rcases ih (hPuts.ready hReady) (by omega) (by omega)
        with ⟨s', hRest, hReady', hExtends, hInstalled⟩
      refine ⟨s', ?_, ?_, hPuts.extends.trans hExtends, ?_⟩
      · simp only [List.map_cons, putFiles,
          InstallFile.args, bind, Except.bind]
        rw [hFirst]
        exact hRest
      · rw [List.length_cons,
          show k + (files.length + 1) =
            k + 1 + files.length by omega]
        exact hReady'
      · intro j other hGet
        cases j with
        | zero =>
            simp only [List.getElem?_cons_zero,
              Option.some.injEq] at hGet
            subst hGet
            exact (hPuts.installed hOwnRoom).extends
              (by omega) (by omega) hExtends
        | succ j =>
            rw [List.getElem?_cons_succ] at hGet
            have hOther := hInstalled j other hGet
            rw [List.take_succ_cons, totalClusters_cons,
              show k + (j + 1) = k + 1 + j by omega,
              ← Nat.add_assoc, ← hNext]
            exact hOther

end FatPut

end AsmOS
