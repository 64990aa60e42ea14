import AsmOS.Storage.FatPutRun
import AsmOS.Storage.HalSpec

/-
  The kernel reads what `fat_put.py` installs.

  Main declarations:
    * `formatFat12_spec`, `formatFat12_ready`
    * `main_spec`
    * `walks_chain`
    * `Mounts`, `platFsRead_installed`
    * `readSlot_installed`
    * `main_reads`
-/

------------------------------------------------------------
-- Stored And Loaded Tables
------------------------------------------------------------

namespace AsmOS

namespace FatPut

open ByteMem Bytearray Storage

section Tables

variable {img fat root : List UInt8} {x : Nat}

theorem storeFat_spec
    (hImg : 512 * 51 ≤ img.length)
    (hFat : fat.length = tableBytes) :
    (storeFat img fat).length = img.length ∧
      ofList (storeFat img fat) =
        ((ofList img).storeBlock (512 * 33) 4608
          (ofList fat)).storeBlock (512 * 42) 4608
            (ofList fat) := by
  unfold tableBytes at hFat
  have hBlob :
      Bytearray.slice fat 0 (fatSectors * sector) = fat := by
    simp only [Bytearray.slice, List.drop_zero]
    exact List.take_of_length_le (by
      simp only [fatSectors, sector]
      omega)
  have hFits : 512 * 33 + fat.length ≤ img.length := by omega
  have hFirst := ofList_setSlice hFits
  have hFirstLength := setSlice_length hFits
  have hStore :
      storeFat img fat =
        setSlice
          (setSlice img (512 * 33) (512 * 33 + fat.length) fat)
          (512 * 42) (512 * 42 + fat.length) fat := by
    unfold storeFat
    rw [hBlob]
    rfl
  rw [hStore]
  generalize
    setSlice img (512 * 33) (512 * 33 + fat.length) fat = img₁
    at hFirst hFirstLength ⊢
  have hFits₁ : 512 * 42 + fat.length ≤ img₁.length := by
    omega
  refine ⟨(setSlice_length hFits₁).trans (by omega), ?_⟩
  rw [ofList_setSlice hFits₁, hFirst, hFat]

theorem storeRoot_spec
    (hImg : 512 * 65 ≤ img.length)
    (hRoot : root.length = 32 * rootEntries) :
    (storeRoot img root).length = img.length ∧
      ofList (storeRoot img root) =
        (ofList img).storeBlock (512 * 51) 7168
          (ofList root) := by
  simp only [rootEntries] at hRoot
  have hFits : 512 * 51 + root.length ≤ img.length := by
    omega
  have hStore :
      storeRoot img root =
        setSlice img (512 * 51) (512 * 51 + root.length)
          root :=
    rfl
  rw [hStore]
  refine ⟨setSlice_length hFits, ?_⟩
  rw [ofList_setSlice hFits, hRoot]

theorem loadFat_length
    (hImg : 512 * 42 ≤ img.length) :
    (loadFat img).length = tableBytes := by
  unfold loadFat tableBytes
  rw [Bytearray.slice_length (by
    simp only [fatStart, fatSectors, sector]
    omega), Nat.add_sub_cancel_left]

theorem ofList_loadFat
    (hx : x < 4608) :
    ofList (loadFat img) x = ofList img (512 * 33 + x) :=
  ofList_slice_of_lt (by
    simp only [fatStart, fatSectors, sector]
    omega)

theorem loadRoot_length
    (hImg : 512 * 65 ≤ img.length) :
    (loadRoot img).length = 32 * rootEntries := by
  unfold loadRoot
  rw [Bytearray.slice_length (by
    simp only [rootLba, rootSectors, sector]
    omega), Nat.add_sub_cancel_left]
  norm_num

theorem ofList_loadRoot
    (hx : x < 7168) :
    ofList (loadRoot img) x = ofList img (512 * 51 + x) :=
  ofList_slice_of_lt (by
    simp only [rootLba, rootSectors, sector]
    omega)

end Tables

------------------------------------------------------------
-- Formatting
------------------------------------------------------------

theorem ofList_replicate_zero
    (n : Nat) :
    ofList (List.replicate n 0) = zeros := by
  funext x
  simp only [ofList, List.getD_eq_getElem?_getD,
    List.getElem?_replicate]
  split <;> rfl

/- The installer that `main` starts from. -/
def startInstaller
    (img : List UInt8) : Installer where
  img := img
  fat := loadFat img
  root := loadRoot img
  nextCluster := 2

/- The blank table has entries for clusters 0 and 1 only. -/
theorem formatTable_spec :
    ∃ fat₁ fat₂,
      setFatEntry (List.replicate (fatSectors * sector) 0) 0
          (0xFF0 ||| 0xF0) = .ok fat₁ ∧
        setFatEntry fat₁ 1 0xFFF = .ok fat₂ ∧
        fat₂.length = tableBytes ∧
        ∀ d, 2 ≤ d → Packed12.get (ofList fat₂) d = 0 := by
  have hZero :
      Packed12.offset 0 + 1 <
        (List.replicate (fatSectors * sector)
          (0 : UInt8)).length := by
    rw [List.length_replicate]
    decide
  rcases setFatEntry_spec hZero (0xFF0 ||| 0xF0) with
    ⟨fat₁, hSet₁, hLength₁, hFat₁⟩
  rw [ofList_replicate_zero] at hFat₁
  rw [List.length_replicate] at hLength₁
  have hOne : Packed12.offset 1 + 1 < fat₁.length := by
    rw [hLength₁]
    decide
  rcases setFatEntry_spec hOne 0xFFF with
    ⟨fat₂, hSet₂, hLength₂, hFat₂⟩
  refine ⟨fat₁, fat₂, hSet₁, hSet₂, ?_, ?_⟩
  · rw [hLength₂, hLength₁]
    rfl
  · intro d hd
    rw [hFat₂, Packed12.get_set_of_ne _ _ (by omega), hFat₁,
      Packed12.get_set_of_ne _ _ (by omega),
      Packed12.get_zeros]

/-
  Formatting blanks the table and the root directory, and
  grows an image that ends inside the directory.
-/
theorem formatFat12_spec
    {img : List UInt8}
    (hImg : 512 * 51 ≤ img.length) :
    ∃ img', formatFat12 img = .ok img' ∧
      img'.length = max (512 * 65) img.length ∧
      (∀ d, 2 ≤ d → d ≤ 3071 →
        Packed12.get (ofList (loadFat img')) d = 0) ∧
      ofList (loadRoot img') = zeros ∧
      ∀ x < 512 * 33, ofList img' x = ofList img x := by
  rcases formatTable_spec with
    ⟨fat₁, fat₂, hSet₁, hSet₂, hTable, hFree⟩
  rcases storeFat_spec hImg hTable with
    ⟨hStoredLength, hStored⟩
  have hFormat :
      formatFat12 img =
        .ok (storeRoot (storeFat img fat₂)
          (List.replicate (rootSectors * sector) 0)) := by
    unfold formatFat12
    simp only [bind, Except.bind, pure, Except.pure]
    rw [hSet₁]
    simp only
    rw [hSet₂]
  have hRootLength :
      (List.replicate (rootSectors * sector)
        (0 : UInt8)).length = 7168 :=
    List.length_replicate
  have hBlank :
      ofList (List.replicate (rootSectors * sector)
        (0 : UInt8)) = zeros :=
    ofList_replicate_zero _
  generalize
    List.replicate (rootSectors * sector) (0 : UInt8) = blank
    at hFormat hRootLength hBlank
  have hStore :
      storeRoot (storeFat img fat₂) blank =
        setSlice (storeFat img fat₂) (512 * 51)
          (512 * 51 + blank.length) blank :=
    rfl
  have hBefore :
      ∀ x < 512 * 51,
        ofList (storeRoot (storeFat img fat₂) blank) x =
          ofList (storeFat img fat₂) x := by
    intro x hx
    rw [hStore, ofList_setSlice_before _ hx (by omega)]
  have hLength :
      (storeRoot (storeFat img fat₂) blank).length =
        max (512 * 65) img.length := by
    rw [hStore, setSlice_length_eq]
    omega
  refine ⟨_, hFormat, hLength, ?_, ?_, ?_⟩
  · intro d hLo hHi
    have hAgree :
        AgreeOn
          (ofList
            (loadFat (storeRoot (storeFat img fat₂) blank)))
          (ofList fat₂) 0 4608 := by
      intro x _ hx
      rw [ofList_loadFat hx, hBefore _ (by omega), hStored,
        storeBlock_outside (by omega),
        storeBlock_inside (by omega) (by omega),
        Nat.add_sub_cancel_left]
    have hOffset : Packed12.offset d + 1 < 4608 := by
      unfold Packed12.offset
      omega
    rw [Packed12.get_congr hAgree (Nat.zero_le _) (by omega)]
    exact hFree d hLo
  · funext x
    by_cases hx : x < 7168
    · have hPlace :
          512 * 51 + x < 512 * 51 + blank.length := by
        omega
      rw [ofList_loadRoot hx, hStore,
        ofList_setSlice_inside _ (by omega)
          (Nat.le_add_right _ _) hPlace, hBlank, zeros_apply,
        zeros_apply]
    · apply ofList_of_length_le
      rw [loadRoot_length (by omega)]
      simp only [rootEntries]
      omega
  · intro x hx
    rw [hBefore x (by omega), hStored,
      storeBlock_outside (by omega),
      storeBlock_outside (by omega)]

/- A formatted image is ready for the first file. -/
theorem formatFat12_ready
    {img : List UInt8}
    (hImg : img.length = imageBytes) :
    ∃ img', formatFat12 img = .ok img' ∧
      img'.length = imageBytes ∧
      Ready (startInstaller img') 0 ∧
      ∀ x < 512 * 33, ofList img' x = ofList img x := by
  have hEnough : 512 * 65 ≤ img.length := by
    rw [hImg]
    decide
  rcases formatFat12_spec
      (show 512 * 51 ≤ img.length by omega) with
    ⟨img', hFormat, hLength, hFree, hBlank, hBoot⟩
  rw [max_eq_right hEnough] at hLength
  rw [← hLength] at hEnough
  refine ⟨img', hFormat, hLength.trans hImg,
    ⟨hLength.trans hImg, loadFat_length (by omega),
      loadRoot_length hEnough, Nat.le_refl 2, ?_, by omega,
      ?_⟩, hBoot⟩
  · intro d hLo hHi
    exact hFree d hLo (by omega)
  · intro x _
    simp only [startInstaller]
    rw [hBlank, zeros_apply]

------------------------------------------------------------
-- The Whole Program
------------------------------------------------------------

/- The image holds the arrays of the installer. -/
structure Mounts
    (image : ByteMem)
    (s : Installer) : Prop where
  fat :
    ∀ x < 4608, image (512 * 33 + x) = ofList s.fat x
  root :
    ∀ x < 7168, image (512 * 51 + x) = ofList s.root x
  data : ∀ x, 512 * 65 ≤ x → image x = ofList s.img x

/- The bytes that `main` writes back. -/
def savedImage
    (s : Installer) : List UInt8 :=
  storeRoot (storeFat s.img s.fat) s.root

/- Arrays of an image with a whole table and directory. -/
structure Whole
    (s : Installer) : Prop where
  img : 512 * 65 ≤ s.img.length
  fat : s.fat.length = tableBytes
  root : s.root.length = 32 * rootEntries

/- Saving keeps the length and the boot sectors. -/
theorem savedImage_spec
    {s : Installer}
    (hWhole : Whole s) :
    (savedImage s).length = s.img.length ∧
      Mounts (ofList (savedImage s)) s ∧
      ∀ x < 512 * 33,
        ofList (savedImage s) x = ofList s.img x := by
  have hLarge := hWhole.img
  rcases storeFat_spec
      (show 512 * 51 ≤ s.img.length by omega) hWhole.fat with
    ⟨hFatLength, hFat⟩
  rw [← hFatLength] at hLarge
  rcases storeRoot_spec hLarge hWhole.root with
    ⟨hRootLength, hRoot⟩
  unfold savedImage
  refine ⟨hRootLength.trans hFatLength, ⟨?_, ?_, ?_⟩, ?_⟩
  · intro x hx
    rw [hRoot, storeBlock_outside (by omega), hFat,
      storeBlock_outside (by omega),
      storeBlock_inside (by omega) (by omega),
      Nat.add_sub_cancel_left]
  · intro x hx
    rw [hRoot, storeBlock_inside (by omega) (by omega),
      Nat.add_sub_cancel_left]
  · intro x hx
    rw [hRoot, storeBlock_outside (by omega), hFat,
      storeBlock_outside (by omega),
      storeBlock_outside (by omega)]
  · intro x hx
    rw [hRoot, storeBlock_outside (by omega), hFat,
      storeBlock_outside (by omega),
      storeBlock_outside (by omega)]

/- `main` on a blank image leaves the arrays of its last file. -/
theorem main_ready
    {img : List UInt8}
    (hImg : img.length = imageBytes)
    (hBlank :
      ∀ x, 512 * 33 ≤ x → x < imageBytes →
        ofList img x = 0)
    {files : List InstallFile}
    (hSome : files ≠ [])
    (hSlots : files.length ≤ 224)
    (hRoom : totalClusters files ≤ 2815) :
    ∃ img' s, main img (files.map InstallFile.args) =
        .ok img' ∧
      img'.length = imageBytes ∧
      (∀ x < 512 * 33, ofList img' x = ofList img x) ∧
      Mounts (ofList img') s ∧
      Ready s files.length ∧
      ∀ j file, files[j]? = some file →
        Installed s j file
          (2 + totalClusters (files.take j)) := by
  have hEnough :
      ∀ l : List UInt8, l.length = imageBytes →
        512 * 65 ≤ l.length := by
    intro l hl
    rw [hl]
    decide
  rcases formatFat12_ready hImg with
    ⟨img₁, hFormat, hLength₁, hReady, hBoot⟩
  have hLoadLength := loadRoot_length (hEnough img hImg)
  simp only [rootEntries] at hLoadLength
  have hItem :
      ∀ x < 7168, item (loadRoot img) x = .ok 0 := by
    intro x hx
    rw [item_of_lt (by omega), ofList_loadRoot hx,
      hBlank _ (by omega) (by
        unfold imageBytes
        omega)]
    rfl
  have hRootBlank : rootBlank (loadRoot img) = .ok true := by
    simp only [rootBlank, bind, Except.bind]
    rw [hItem 0 (by omega), hItem 32 (by omega)]
    rfl
  rcases putFiles_spec files hReady (by omega) (by
      show 2 + totalClusters files ≤ 2817
      omega) with
    ⟨s, hPut, hReady', hExtends, hInstalled⟩
  rcases savedImage_spec
      ⟨hEnough s.img hReady'.img_length, hReady'.fat_length,
        hReady'.root_length⟩ with
    ⟨hLength, hMounts, hSaved⟩
  refine ⟨savedImage s, s, ?_,
    hLength.trans hReady'.img_length, ?_, hMounts, ?_, ?_⟩
  · unfold main
    rw [if_neg (by simpa using hSome)]
    simp only [bind, Except.bind, pure, Except.pure]
    rw [hRootBlank]
    simp only [if_true]
    rw [hFormat]
    simp only
    unfold startInstaller at hPut
    rw [hPut]
    rfl
  · intro x hx
    have hSame := hExtends.img x (by
      show x < 512 * (63 + 2)
      omega)
    rw [hSaved x hx, hSame]
    exact hBoot x hx
  · rwa [Nat.zero_add] at hReady'
  · intro j file hGet
    have hFile := hInstalled j file hGet
    rw [Nat.zero_add] at hFile
    exact hFile

/- `main` on a blank image installs every file. -/
theorem main_spec
    {img : List UInt8}
    (hImg : img.length = imageBytes)
    (hBlank :
      ∀ x, 512 * 33 ≤ x → x < imageBytes →
        ofList img x = 0)
    {files : List InstallFile}
    (hSome : files ≠ [])
    (hSlots : files.length ≤ 224)
    (hRoom : totalClusters files ≤ 2815) :
    ∃ img' s, main img (files.map InstallFile.args) =
        .ok img' ∧
      img'.length = imageBytes ∧
      (∀ x < 512 * 33, ofList img' x = ofList img x) ∧
      Mounts (ofList img') s ∧
      ∀ j file, files[j]? = some file →
        Installed s j file
          (2 + totalClusters (files.take j)) := by
  rcases main_ready hImg hBlank hSome hSlots hRoom with
    ⟨img', s, hMain, hLength, hBoot, hMounts, _, hInstalled⟩
  exact ⟨img', s, hMain, hLength, hBoot, hMounts, hInstalled⟩

------------------------------------------------------------
-- Reading An Installed File
------------------------------------------------------------

/- Consecutive links before an end mark are a chain. -/
theorem walks_chain
    {next : Nat → Nat}
    (n c : Nat)
    (hPos : 0 < n)
    (hRoom : c + n ≤ 2817)
    (hNext :
      ∀ d, c ≤ d → d < c + n →
        next d = chainEntry c n 0 d) :
    Linked.Walks next chainStop c (List.range' c n) := by
  induction n generalizing c with
  | zero => omega
  | succ n ih =>
      have hGo : ¬ chainStop c := by
        simp only [chainStop, fatEnd]
        omega
      have hFirst := hNext c (Nat.le_refl c) (by omega)
      rw [List.range'_succ]
      refine ⟨hGo, rfl, ?_⟩
      unfold chainEntry at hFirst
      by_cases hLast : n = 0
      · subst hLast
        rw [if_neg (by omega), if_pos (by omega)] at hFirst
        rw [hFirst]
        exact Nat.le_refl _
      · rw [if_pos (by omega)] at hFirst
        rw [hFirst]
        apply ih (c + 1) (by omega) (by omega)
        intro d hLo hHi
        rw [hNext d (by omega) (by omega)]
        unfold chainEntry
        by_cases hInner : d + 1 < c + (n + 1)
        · rw [if_pos (by omega), if_pos (by omega)]
        · rw [if_neg (by omega), if_pos (by omega),
            if_neg (by omega), if_pos (by omega)]

section Reading

variable {image : ByteMem} {s : Installer}
variable {slot start : Nat} {file : InstallFile}

theorem Mounts.slotAgree
    (hMounts : Mounts image s)
    (hSlot : slot < 224) :
    SlotAgree (mountImage image).rootCache (ofList s.root)
      slot := by
  intro x _ hHi
  rw [mountImage_rootCache image (by omega),
    hMounts.root x (by omega)]

/- A read visits the sectors of the file in order. -/
theorem readClusters_installed
    (hMounts : Mounts image s)
    (hFile : Installed s slot file start)
    (hSlot : slot < 224)
    (hRoom : start + file.clusterCount ≤ 2817)
    {bufSize : Nat}
    (hBuf : file.data.length ≤ bufSize) :
    readLimit (mountImage image) slot bufSize =
        file.data.length ∧
      readClusters (mountImage image) slot bufSize =
        List.range' start (sectorCount file.data.length) := by
  have hAgree := hMounts.slotAgree hSlot
  have hLimit :
      readLimit (mountImage image) slot bufSize =
        file.data.length := by
    unfold readLimit
    rw [hAgree.size_eq, hFile.size, min_eq_left hBuf]
  refine ⟨hLimit, ?_⟩
  have hFat :
      AgreeOn (mountImage image).fatCache (ofList s.fat) 0
        4608 := by
    intro x _ hx
    rw [mountImage_fatCache image hx, hMounts.fat x hx]
  have hWalk :
      Linked.Walks
        (Packed12.get (mountImage image).fatCache) chainStop
        start (List.range' start file.clusterCount) := by
    apply walks_chain _ _ file.clusterCount_pos hRoom
    intro d hLo hHi
    have hOffset := offset_lt (show d ≤ 2816 by omega)
    unfold tableBytes at hOffset
    rw [Packed12.get_congr hFat (Nat.zero_le _) (by omega)]
    exact hFile.chain d hLo hHi
  have hCount :
      sectorCount file.data.length ≤ file.clusterCount := by
    unfold sectorCount InstallFile.clusterCount
    omega
  unfold readClusters visited
  rw [hLimit, hAgree.cluster_eq, hFile.cluster,
    hWalk.path_eq_take, List.take_range'_of_length_ge hCount]

/- The outcome of reading an installed file. -/
theorem platFsRead_installed
    (hMounts : Mounts image s)
    (hFile : Installed s slot file start)
    (hSlot : slot < 224)
    (hLo : 2 ≤ start)
    (hRoom : start + file.clusterCount ≤ 2817)
    {name : List UInt8}
    (hFound :
      readSlot (mountImage image) name = some slot)
    (buf : ByteMem)
    {bufSize : Nat}
    (hBuf : file.data.length ≤ bufSize) :
    ∃ result fs',
      platFsRead (mountImage image) name buf bufSize =
          some (result, fs') ∧
        result.rc = 0 ∧
        result.outSize = some file.data.length ∧
        result.buf.slice 0 file.data.length = file.data := by
  rcases readClusters_installed hMounts hFile hSlot hRoom hBuf
    with ⟨hLimit, hClusters⟩
  have hCount :
      sectorCount file.data.length ≤ file.clusterCount := by
    unfold sectorCount InstallFile.clusterCount
    omega
  have hDefined :
      ReadDefined (mountImage image) slot bufSize := by
    unfold ReadDefined
    rw [hClusters, List.length_range']
    refine ⟨?_, ?_⟩
    · unfold readFuel
      omega
    · intro c hMember
      rw [List.mem_range'_1] at hMember
      unfold linkInCache
      omega
  rw [platFsRead_reliable (mountImage_mounted image), hFound]
  simp only
  rw [if_pos hDefined]
  refine ⟨_, _, rfl, rfl, ?_, ?_⟩
  · simp only [readOutcome, hLimit, hClusters,
      List.length_range', Option.some.injEq]
    unfold sectorCount
    omega
  · simp only [readOutcome, hLimit, hClusters,
      mountImage_image]
    apply List.ext_getElem (by simp)
    intro x hx hx'
    simp only [ByteMem.slice, List.getElem_map,
      List.getElem_range, Nat.zero_add]
    have hData := file.data_length_le
    have hSplit : x = 0 + 512 * (x / 512) + x % 512 := by
      omega
    have hIndex :
        x / 512 <
          (List.range' start
            (sectorCount file.data.length)).length := by
      rw [List.length_range']
      unfold sectorCount
      omega
    have hRead :
        readInto image file.data.length
            (List.range' start
              (sectorCount file.data.length)) 0 buf
            (0 + 512 * (x / 512) + x % 512) =
          imageByte image _ (x % 512) :=
      readInto_inside (x / 512) (x % 512) hIndex
        (Nat.mod_lt _ (by omega)) (by omega)
    rw [← hSplit] at hRead
    have hPlace :
        512 * (63 + (start + 1 * (x / 512))) + x % 512 =
          512 * (63 + start) + x := by
      omega
    rw [hRead, List.getElem_range', imageByte, hPlace,
      hMounts.data _ (by omega), hFile.bytes x (by omega),
      ofList_of_lt hx']

end Reading

------------------------------------------------------------
-- Every Installed File
------------------------------------------------------------

theorem totalClusters_take_le
    (files : List InstallFile)
    {j : Nat}
    {file : InstallFile}
    (hGet : files[j]? = some file) :
    totalClusters (files.take j) + file.clusterCount ≤
      totalClusters files := by
  induction files generalizing j with
  | nil => simp at hGet
  | cons first files ih =>
      rw [totalClusters_cons]
      cases j with
      | zero =>
          simp only [List.getElem?_cons_zero,
            Option.some.injEq] at hGet
          subst hGet
          rw [List.take_zero]
          simp [totalClusters]
      | succ j =>
          rw [List.getElem?_cons_succ] at hGet
          rw [List.take_succ_cons, totalClusters_cons]
          have hRest := ih hGet
          omega

section Lookup

variable {image : ByteMem}
variable {s : Installer}
variable {files : List InstallFile}

/- The directory holds each file in its slot. -/
theorem findEntry_installed
    (hMounts : Mounts image s)
    (hInstalled :
      ∀ j file, files[j]? = some file →
        Installed s j file
          (2 + totalClusters (files.take j)))
    (hNames : (files.map InstallFile.name).Nodup)
    (hSlots : files.length ≤ 224)
    {j : Nat}
    {file : InstallFile}
    (hGet : files[j]? = some file) :
    fatFindEntry (mountImage image).rootCache file.name =
      some j := by
  rcases List.getElem?_eq_some_iff.mp hGet with ⟨hj, hFile⟩
  have hMatch :
      ∀ i (hi : i < files.length),
        slotMatches (mountImage image).rootCache file.name i =
          decide (files[i].name = file.name) := by
    intro i hi
    have hOther :=
      hInstalled i files[i] (List.getElem?_eq_getElem hi)
    rw [(hMounts.slotAgree (by omega)).matches_eq]
    simp [slotMatches, hOther.live, hOther.plain, hOther.name]
  rw [fatFindEntry_eq_some_iff]
  refine ⟨by omega, ?_, ?_⟩
  · rw [hMatch j hj, hFile]
    simp
  · intro i hi
    rw [hMatch i (by omega), decide_eq_false_iff_not]
    intro hSame
    -- Two slots of one name would be one slot.
    have hiMap : i < (files.map InstallFile.name).length := by
      rw [List.length_map]
      omega
    have hjMap : j < (files.map InstallFile.name).length := by
      rw [List.length_map]
      exact hj
    have hEqual :
        (files.map InstallFile.name)[i] =
          (files.map InstallFile.name)[j] := by
      rw [List.getElem_map, List.getElem_map, hSame, hFile]
    have hIndex := hNames.getElem_inj_iff.mp hEqual
    omega

/- A name is looked up in the slot of its file. -/
theorem readSlot_installed
    (hMounts : Mounts image s)
    (hInstalled :
      ∀ j file, files[j]? = some file →
        Installed s j file
          (2 + totalClusters (files.take j)))
    (hNames : (files.map InstallFile.name).Nodup)
    (hSlots : files.length ≤ 224)
    {j : Nat}
    {file : InstallFile}
    (hGet : files[j]? = some file)
    {name : List UInt8}
    (hName : fatNormalize name = file.name) :
    readSlot (mountImage image) name = some j := by
  unfold readSlot
  rw [hName]
  exact findEntry_installed hMounts hInstalled hNames hSlots hGet

end Lookup

/-
  After `main` has installed files with distinct names on a
  blank image, mounting the image succeeds, a read of each
  file returns its bytes, and the boot sectors are unchanged.
-/
theorem main_reads
    {img : List UInt8}
    (hImg : img.length = imageBytes)
    (hBlank :
      ∀ x, 512 * 33 ≤ x → x < imageBytes →
        ofList img x = 0)
    {files : List InstallFile}
    (hSome : files ≠ [])
    (hNames : (files.map InstallFile.name).Nodup)
    (hSlots : files.length ≤ 224)
    (hRoom : totalClusters files ≤ 2815) :
    ∃ img', main img (files.map InstallFile.args) =
        .ok img' ∧
      img'.length = imageBytes ∧
      (∀ x < 512 * 33, ofList img' x = ofList img x) ∧
      (platFsInit
        (Fs.start (Device.ofImage (ofList img')))).1 = 0 ∧
      ∀ file ∈ files, ∀ name buf bufSize,
        fatNormalize name = file.name →
          file.data.length ≤ bufSize →
            ∃ result fs',
              platFsRead (mountImage (ofList img')) name buf
                  bufSize = some (result, fs') ∧
                result.rc = 0 ∧
                result.outSize = some file.data.length ∧
                result.buf.slice 0 file.data.length =
                  file.data := by
  rcases main_spec hImg hBlank hSome hSlots hRoom with
    ⟨img', s, hMain, hLength, hBoot, hMounts, hInstalled⟩
  refine ⟨img', hMain, hLength, hBoot, ?_, ?_⟩
  · rw [platFsInit_reliable (Device.ofImage_reliable _)]
  · intro file hMember name buf bufSize hName hBuf
    rcases List.getElem?_of_mem hMember with ⟨j, hGet⟩
    have hj := (List.getElem?_eq_some_iff.mp hGet).1
    have hTotal := totalClusters_take_le files hGet
    exact platFsRead_installed hMounts
      (hInstalled j file hGet) (by omega) (by omega)
      (by omega)
      (readSlot_installed hMounts hInstalled hNames hSlots
        hGet hName)
      buf hBuf

/- One byte under eight spaces and `BIN`. -/
def sampleFile : InstallFile where
  data := [0x90]
  name :=
    [0x20, 0x20, 0x20, 0x20, 0x20, 0x20, 0x20, 0x20, 0x42,
      0x49, 0x4E]
  name_length := rfl
  name_ascii := by decide +kernel

/- Two clusters under eight spaces and `TXT`. -/
def longFile : InstallFile where
  data := List.replicate 600 0x41
  name :=
    [0x20, 0x20, 0x20, 0x20, 0x20, 0x20, 0x20, 0x20, 0x54,
      0x58, 0x54]
  name_length := rfl
  name_ascii := by decide +kernel

/- Both are installed and read back as `TXT` and `BIN`. -/
theorem main_reads_sample :
    ∃ img',
      main (List.replicate imageBytes 0)
          [longFile.args, sampleFile.args] = .ok img' ∧
        (∃ result fs',
          platFsRead (mountImage (ofList img'))
              [0x54, 0x58, 0x54] zeros 600 =
            some (result, fs') ∧
            result.rc = 0 ∧
            result.outSize = some 600 ∧
            result.buf.slice 0 600 =
              List.replicate 600 0x41) ∧
        ∃ result fs',
          platFsRead (mountImage (ofList img'))
              [0x42, 0x49, 0x4E] zeros 512 =
            some (result, fs') ∧
            result.rc = 0 ∧
            result.outSize = some 1 ∧
            result.buf.slice 0 1 = [0x90] := by
  have hBlank :
      ∀ x, 512 * 33 ≤ x → x < imageBytes →
        ofList (List.replicate imageBytes 0) x = 0 := by
    intro x _ _
    rw [ofList_replicate_zero]
    rfl
  have hSome : [longFile, sampleFile] ≠ [] := by simp
  have hNames :
      ([longFile, sampleFile].map InstallFile.name).Nodup := by
    decide +kernel
  have hLong : longFile.data.length = 600 :=
    List.length_replicate
  have hRoom :
      totalClusters [longFile, sampleFile] ≤ 2815 := by
    simp [totalClusters, InstallFile.clusterCount, hLong,
      sampleFile]
  rcases main_reads List.length_replicate hBlank hSome
      hNames (by simp) hRoom with
    ⟨img', hMain, _, _, _, hReads⟩
  have hTxt :
      fatNormalize [0x54, 0x58, 0x54] = longFile.name := by
    decide +kernel
  have hBin :
      fatNormalize [0x42, 0x49, 0x4E] = sampleFile.name := by
    decide +kernel
  have hFirst :=
    hReads longFile List.mem_cons_self _ zeros 600 hTxt
      (Nat.le_of_eq hLong)
  rw [hLong] at hFirst
  exact ⟨img', hMain, hFirst,
    hReads sampleFile (by simp) _ zeros 512 hBin
      (by decide)⟩

end FatPut

end AsmOS
