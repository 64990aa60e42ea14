import AsmOS.Storage.FatPutAlloc
import AsmOS.Storage.FatPutRead

/-
  When `fat_put.py` keeps to the disk image.

  The table has entries for clusters up to 3071, the search
  goes on to 4095, and neither is the number of sectors of
  the image.  A slice assignment behind the end of the image
  appends to it.

  Main declarations:
    * `prepare`, `allocated`, `main_eq`
    * `StaysInside`
    * `startClusters`, `startSlots`
    * `staysInside_iff`
-/

------------------------------------------------------------
-- The Clusters Of A Run
------------------------------------------------------------

namespace AsmOS

namespace FatPut

open ByteMem Bytearray

/- `main` before its loop over the files. -/
def prepare
    (img : List UInt8) : Except PyError Installer := do
  let blank ← rootBlank (loadRoot img)
  let img ← if blank then formatFat12 img else pure img
  pure (startInstaller img)

/- The list `clusters` of one `put_file`. -/
def putClusters
    (s : Installer)
    (data : List UInt8) : Except PyError (List Nat) := do
  let nClusters := max 1 ((data.length + sector - 1) / sector)
  let (_, clusters, _) ←
    allocateClusters s.fat nClusters s.nextCluster
  pure clusters

/- The clusters of every `put_file` of a loop. -/
def loopClusters :
    Installer → List (List UInt8 × List UInt8) →
      Except PyError (List Nat)
| _, [] => .ok []
| s, (data, name) :: files => do
    let clusters ← putClusters s data
    let s ← putFile s data name
    let others ← loopClusters s files
    pure (clusters ++ others)

/- Every cluster that `main` allocates. -/
def allocated
    (img : List UInt8)
    (files : List (List UInt8 × List UInt8)) :
    Except PyError (List Nat) := do
  let s ← prepare img
  loopClusters s files

/-
  `main` raises, or each allocated cluster has its sector in
  the original image and the image keeps its length.
-/
def StaysInside
    (img : List UInt8)
    (files : List (List UInt8 × List UInt8)) : Prop :=
  match main img files with
  | .error _ => True
  | .ok img' =>
      img'.length = img.length ∧
        ∃ cs, allocated img files = .ok cs ∧
          InsideImage img cs

------------------------------------------------------------
-- Room On The Image
------------------------------------------------------------

/- `main` formats an image with this root directory. -/
def blankRoot
    (img : List UInt8) : Prop :=
  ofList (loadRoot img) 0 = 0 ∧ ofList (loadRoot img) 32 = 0

instance
    (img : List UInt8) :
    Decidable (blankRoot img) :=
  inferInstanceAs (Decidable (_ ∧ _))

/- Its first slot is free and the second one is missing. -/
def CutOff
    (img : List UInt8) : Prop :=
  (loadRoot img).length ≤ 32 ∧ ofList (loadRoot img) 0 = 0

/- The free clusters of the table that `main` starts with. -/
def startClusters
    (img : List UInt8) : List Nat :=
  if blankRoot img then List.range' 2 3070
  else freeClusters (loadFat img) 2

/- The open slots of the directory that it starts with. -/
def startSlots
    (img : List UInt8) : List Nat :=
  if blankRoot img then List.range rootEntries
  else openSlots (loadRoot img)

/- Files that `main` runs out of clusters or slots for. -/
def Overfull
    (img : List UInt8)
    (files : List SourceFile) : Prop :=
  (startClusters img).length < clustersNeeded files ∨
    (startSlots img).length < files.length

------------------------------------------------------------
-- Before The Loop
------------------------------------------------------------

theorem main_eq
    (img : List UInt8)
    (files : List (List UInt8 × List UInt8)) :
    main img files =
      if files.isEmpty then .error (.systemExit 1)
      else
        (prepare img).bind fun s =>
          (putFiles s files).map savedImage := by
  unfold main prepare
  by_cases hSome : files.isEmpty
  · rw [if_pos hSome, if_pos hSome]
  · rw [if_neg hSome, if_neg hSome]
    have hSaved :
        ∀ img : List UInt8,
          (putFiles (startInstaller img) files >>=
              fun s => pure (savedImage s)) =
            (putFiles (startInstaller img) files).map
              savedImage := by
      intro img
      cases putFiles (startInstaller img) files with
      | error e => rfl
      | ok s => rfl
    simp only [bind, Except.bind, pure, Except.pure,
      startInstaller, savedImage] at hSaved ⊢
    cases rootBlank (loadRoot img) with
    | error e => rfl
    | ok blank =>
        simp only
        split
        · cases formatFat12 img with
          | error e => rfl
          | ok img' => exact hSaved img'
        · exact hSaved img

theorem ofNat_eq_zero_iff
    (b : UInt8) :
    b.toNat = 0 ↔ b = 0 :=
  (UInt8.toNat_inj (a := b) (b := 0))

section Prepare

variable {img : List UInt8}

theorem loadRoot_length_eq :
    (loadRoot img).length =
      min (512 * 65) img.length - 512 * 51 := by
  simp only [loadRoot, Bytearray.slice, rootLba, rootSectors,
    sector, List.length_drop, List.length_take]

/- A free slot and no second one: the test raises. -/
theorem rootBlank_cutOff
    (hCut : CutOff img) :
    ∃ e, rootBlank (loadRoot img) = .error e := by
  simp only [rootBlank, bind, Except.bind]
  by_cases hEmpty : (loadRoot img).length = 0
  · rw [item_of_length_le (by omega)]
    exact ⟨_, rfl⟩
  · rw [item_of_lt (by omega), hCut.2]
    simp only [UInt8.toNat_zero, if_true]
    rw [item_of_length_le hCut.1]
    exact ⟨_, rfl⟩

/- Otherwise it says whether both slots are free. -/
theorem rootBlank_eq
    (hRoot : ¬ CutOff img) :
    rootBlank (loadRoot img) = .ok (decide (blankRoot img)) := by
  unfold CutOff at hRoot
  simp only [rootBlank, bind, Except.bind]
  by_cases hFirst : ofList (loadRoot img) 0 = 0
  · have hSecond : 32 < (loadRoot img).length := by
      by_contra hShort
      exact hRoot ⟨by omega, hFirst⟩
    rw [item_of_lt (by omega), hFirst]
    simp only [UInt8.toNat_zero, if_true]
    rw [item_of_lt hSecond]
    simp only [pure, Except.pure, ofNat_eq_zero_iff, blankRoot,
      hFirst, true_and]
  · have hPos : 0 < (loadRoot img).length := by
      by_contra hEmpty
      exact hFirst (ofList_of_length_le (by omega))
    have hUsed := (ofNat_eq_zero_iff _).not.mpr hFirst
    rw [item_of_lt hPos]
    simp only [if_neg hUsed, pure, Except.pure, blankRoot,
      hFirst, false_and, decide_false]

theorem loadRoot_pos
    (hRoot : ¬ CutOff img) :
    0 < (loadRoot img).length := by
  by_contra hEmpty
  exact hRoot
    ⟨by omega, ofList_of_length_le (by omega)⟩

/- Such a root directory ends the program. -/
theorem prepare_cutOff
    (hCut : CutOff img) :
    ∃ e, prepare img = .error e := by
  rcases rootBlank_cutOff hCut with ⟨e, hError⟩
  unfold prepare
  rw [hError]
  exact ⟨e, rfl⟩

/-
  The loop starts with a whole table and `next_cluster` 2; a
  whole image was not grown.
-/
theorem prepare_spec
    (hRoot : ¬ CutOff img) :
    ∃ s, prepare img = .ok s ∧
      s.fat.length = tableBytes ∧
      freeClusters s.fat s.nextCluster = startClusters img ∧
      openSlots s.root = startSlots img ∧
      (512 * 65 ≤ img.length →
        s.img.length = img.length ∧
          s.root.length = 32 * rootEntries) := by
  have hLength :
      (loadRoot img).length =
        min (512 * 65) img.length - 512 * 51 :=
    loadRoot_length_eq
  have hPos := loadRoot_pos hRoot
  have hTable : 512 * 51 ≤ img.length := by omega
  unfold prepare
  rw [rootBlank_eq hRoot]
  simp only [bind, Except.bind, pure, Except.pure]
  unfold startClusters startSlots
  by_cases hBlank : blankRoot img
  · rcases formatFat12_spec hTable with
      ⟨img', hFormat, hLength', hFree, hZero, _⟩
    rw [if_pos (decide_eq_true hBlank), hFormat, if_pos hBlank,
      if_pos hBlank]
    have hRoot' :
        (loadRoot img').length = 32 * rootEntries :=
      loadRoot_length (by omega)
    refine ⟨_, rfl, loadFat_length (by omega), ?_, ?_, ?_⟩
    · refine List.filter_eq_self.mpr fun d hMember => ?_
      rw [List.mem_range'_1] at hMember
      rw [decide_eq_true_eq]
      exact hFree d hMember.1 (by
        simp only [startInstaller] at hMember
        omega)
    · refine List.filter_eq_self.mpr fun i hMember => ?_
      rw [List.mem_range] at hMember
      rw [decide_eq_true_eq]
      simp only [startInstaller]
      rw [hRoot', hZero]
      simp only [rootEntries] at hMember ⊢
      exact ⟨by omega, Or.inl rfl⟩
    · intro hWhole
      exact ⟨hLength'.trans (max_eq_right hWhole), hRoot'⟩
  · rw [if_neg (by simpa using hBlank), if_neg hBlank,
      if_neg hBlank]
    refine ⟨_, rfl, loadFat_length (by omega), rfl, rfl, ?_⟩
    intro hWhole
    exact ⟨rfl, loadRoot_length hWhole⟩

theorem mem_startSlots
    {i : Nat}
    (hMember : i ∈ startSlots img) :
    i < 224 := by
  unfold startSlots at hMember
  split at hMember
  · exact List.mem_range.mp hMember
  · exact (mem_openSlots.mp hMember).1

end Prepare

------------------------------------------------------------
-- The Whole Program
------------------------------------------------------------

section Program

variable {img : List UInt8} {files : List SourceFile}

/- The loop allocates the first free clusters. -/
theorem loopClusters_free
    {s : Installer}
    {fs os : List Nat}
    (files : List SourceFile)
    (hLength : s.fat.length = tableBytes)
    (hFree : freeClusters s.fat s.nextCluster = fs)
    (hOpen : openSlots s.root = os)
    (hClusters : clustersNeeded files ≤ fs.length)
    (hSlots : files.length ≤ os.length) :
    loopClusters s (files.map SourceFile.args) =
      .ok (fs.take (clustersNeeded files)) := by
  induction files generalizing s fs os with
  | nil => simp [loopClusters, clustersNeeded]
  | cons file files ih =>
      rw [clustersNeeded_cons] at hClusters
      cases os with
      | nil => simp at hSlots
      | cons slot os =>
          have hOwn : file.clusterCount ≤ fs.length := by
            omega
          rcases allocateClusters_free hLength
              file.clusterCount_pos hFree hOwn with
            ⟨fat', next, hAllocate, _, _, _⟩
          rcases putFile_free file hLength hFree hOwn hOpen
            with ⟨s₁, hPut, hPuts, hFree₁, hOpen₁⟩
          have hCount :
              max 1 ((file.data.length + sector - 1) / sector) =
                file.clusterCount := by
            unfold SourceFile.clusterCount
            simp only [sector]
            omega
          have hClusters₁ :
              putClusters s file.data =
                .ok (fs.take file.clusterCount) := by
            unfold putClusters
            simp only
            rw [hCount, hAllocate]
            rfl
          have hRest :=
            ih hPuts.table.length hFree₁ hOpen₁ (by
                rw [List.length_drop]
                omega)
              (by simpa using hSlots)
          simp only [List.map_cons, SourceFile.args,
            loopClusters, bind, Except.bind]
          rw [hClusters₁]
          simp only
          rw [hPut]
          simp only
          rw [hRest, clustersNeeded_cons, List.take_add]
          rfl

/- `main` without files, or with half a directory. -/
theorem main_early
    (hEarly : files = [] ∨ CutOff img) :
    ∃ e, main img (files.map SourceFile.args) =
      .error e := by
  rw [main_eq]
  by_cases hSome : (files.map SourceFile.args).isEmpty
  · exact ⟨_, if_pos hSome⟩
  · rw [if_neg hSome]
    have hCut : CutOff img := by
      refine hEarly.resolve_left ?_
      rintro rfl
      exact hSome rfl
    rcases prepare_cutOff hCut with ⟨e, hError⟩
    rw [hError]
    exact ⟨e, rfl⟩

theorem main_overfull
    (hRoot : ¬ CutOff img)
    (hFull : Overfull img files) :
    ∃ e, main img (files.map SourceFile.args) =
      .error e := by
  rw [main_eq]
  by_cases hSome : (files.map SourceFile.args).isEmpty
  · exact ⟨_, if_pos hSome⟩
  · rw [if_neg hSome]
    rcases prepare_spec hRoot with
      ⟨s, hPrepare, hTable, hFree, hOpen, _⟩
    rcases putFiles_full files hTable hFree hOpen hFull with
      ⟨e, hError⟩
    rw [hPrepare]
    simp only [Except.bind]
    rw [hError]
    exact ⟨e, rfl⟩

/-
  Otherwise `main` allocates the first free clusters, and
  clusters inside the image do not grow it.
-/
theorem main_free
    (hSome : files ≠ [])
    (hRoot : ¬ CutOff img)
    (hFits : ¬ Overfull img files) :
    ∃ img', main img (files.map SourceFile.args) = .ok img' ∧
      allocated img (files.map SourceFile.args) =
        .ok ((startClusters img).take (clustersNeeded files)) ∧
      (InsideImage img
          ((startClusters img).take (clustersNeeded files)) →
        img'.length = img.length) := by
  have hClusters :
      clustersNeeded files ≤ (startClusters img).length := by
    by_contra hFew
    exact hFits (Or.inl (by omega))
  have hSlots : files.length ≤ (startSlots img).length := by
    by_contra hFew
    exact hFits (Or.inr (by omega))
  rcases prepare_spec hRoot with
    ⟨s, hPrepare, hTable, hFree, hOpen, hWhole⟩
  rcases putFiles_free files hTable hFree hOpen hClusters
      hSlots with ⟨s', hPut, hRun⟩
  refine ⟨savedImage s', ?_, ?_, ?_⟩
  · rw [main_eq, if_neg (by simpa using hSome), hPrepare]
    simp only [Except.bind]
    rw [hPut]
    rfl
  · unfold allocated
    rw [hPrepare]
    exact loopClusters_free files hTable hFree hOpen hClusters
      hSlots
  · intro hInside
    -- The first cluster's sector lies behind the directory.
    have hLarge : 512 * 65 ≤ img.length := by
      cases files with
      | nil => exact absurd rfl hSome
      | cons file files =>
          have hPos := file.clusterCount_pos
          rw [clustersNeeded_cons] at hClusters hInside
          have hFirst :
              (startClusters img)[0] ∈
                (startClusters img).take
                  (file.clusterCount +
                    clustersNeeded files) := by
            rw [List.mem_take_iff_getElem]
            exact ⟨0, by omega, rfl⟩
          have hBounds := hInside _ hFirst
          omega
    rcases hWhole hLarge with ⟨hImg, hRootLength⟩
    have hImg' : s'.img.length = img.length := by
      refine (hRun.img_length fun c hMember => ?_).trans hImg
      rw [hImg]
      exact hInside c hMember
    have hRootLength' :=
      hRun.root_length (fun _ => mem_startSlots) hRootLength
    have hSaved :=
      savedImage_spec
        ⟨by omega, hRun.fat_length hTable, hRootLength'⟩
    exact hSaved.1.trans hImg'

/-
  `main` raises without modifying the image or stays inside
  it exactly when no file is given, the first root slot is
  free and the second missing, the clusters or slots run
  out, or the first free clusters up to the number needed
  have their sectors in the image.
-/
theorem staysInside_iff
    (img : List UInt8)
    (files : List SourceFile) :
    StaysInside img (files.map SourceFile.args) ↔
      files = [] ∨ CutOff img ∨ Overfull img files ∨
        InsideImage img
          ((startClusters img).take
            (clustersNeeded files)) := by
  unfold StaysInside
  by_cases hEarly : files = [] ∨ CutOff img
  · rcases main_early hEarly with ⟨e, hError⟩
    rw [hError]
    rcases hEarly with hNone | hCut
    · exact iff_of_true trivial (Or.inl hNone)
    · exact iff_of_true trivial (Or.inr (Or.inl hCut))
  · have hSome : files ≠ [] := fun hNone =>
      hEarly (Or.inl hNone)
    have hRoot : ¬ CutOff img := fun hCut =>
      hEarly (Or.inr hCut)
    by_cases hFull : Overfull img files
    · rcases main_overfull hRoot hFull with ⟨e, hError⟩
      rw [hError]
      exact iff_of_true trivial
        (Or.inr (Or.inr (Or.inl hFull)))
    · rcases main_free hSome hRoot hFull with
        ⟨img', hMain, hAllocated, hLength⟩
      rw [hMain, hAllocated]
      constructor
      · rintro ⟨_, cs, hEq, hInside⟩
        cases hEq
        exact Or.inr (Or.inr (Or.inr hInside))
      · rintro (hNone | hCut | hOver | hInside)
        · exact absurd hNone hSome
        · exact absurd hCut hRoot
        · exact absurd hOver hFull
        · exact ⟨hLength hInside, _, rfl, hInside⟩

/-
  A file of one sector more than the data area has: its last
  sector is appended to a blank image.
-/
theorem not_staysInside_of_length
    {file : SourceFile}
    (hImage : img.length = 2880 * 512)
    (hZero : ofList img = zeros)
    (hData : file.data.length = 2816 * 512) :
    ¬ StaysInside img [file.args] := by
  have hRoot : (loadRoot img).length = 7168 := by
    rw [loadRoot_length_eq, hImage]
    rfl
  have hByte : ∀ x < 7168, ofList (loadRoot img) x = 0 := by
    intro x hx
    rw [ofList_loadRoot hx, hZero, zeros_apply]
  have hBlank : blankRoot img :=
    ⟨hByte 0 (by omega), hByte 32 (by omega)⟩
  have hClusters : startClusters img = List.range' 2 3070 :=
    if_pos hBlank
  have hSlots : startSlots img = List.range 224 :=
    if_pos hBlank
  have hNeeded : clustersNeeded [file] = 2816 := by
    simp [clustersNeeded, SourceFile.clusterCount, hData]
  have hFits : ¬ Overfull img [file] := by
    unfold Overfull
    rw [hClusters, hSlots, hNeeded, List.length_range',
      List.length_range]
    simp
  have hWhole : ¬ CutOff img := fun hCut => by
    have hShort := hCut.1
    omega
  rcases main_free (List.cons_ne_nil _ _) hWhole hFits with
    ⟨img', hMain, hAllocated, _⟩
  simp only [List.map_cons, List.map_nil] at hMain hAllocated
  unfold StaysInside
  rw [hMain, hAllocated]
  rintro ⟨_, cs, hEq, hInside⟩
  have hSame := Except.ok.inj hEq
  rw [← hSame, hNeeded] at hInside
  -- Cluster 2817 would need sector 2880.
  have hLast : 2817 ∈ (startClusters img).take 2816 := by
    rw [hClusters, List.take_range'_of_length_ge (by omega)]
    exact List.mem_range'_1.mpr (by omega)
  have hBounds := hInside 2817 hLast
  omega

/- A file of 2816 sectors. -/
def largeFile : SourceFile where
  data := List.replicate (2816 * 512) 0
  name := [0x41]
  name_ascii := letterName_ascii

theorem not_staysInside_large :
    ¬ StaysInside (List.replicate imageBytes 0)
      [largeFile.args] :=
  not_staysInside_of_length List.length_replicate
    (ofList_replicate_zero imageBytes) List.length_replicate

end Program

end FatPut

end AsmOS
