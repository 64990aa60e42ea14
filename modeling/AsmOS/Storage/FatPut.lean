import AsmOS.Base.Bytearray

/-
  The image builder `fat_put.py`.

  Names are the bytes of ASCII command-line arguments, and a
  source file is the list of its bytes.  Image, table and
  root directory are byte arrays that the script updates in
  place.

  Main declarations:
    * `getFatEntry`, `setFatEntry`
    * `allocateClusters`, `findRootSlot`
    * `putFile`, `formatFat12`
    * `main`
-/

------------------------------------------------------------
-- Layout
------------------------------------------------------------

namespace AsmOS

namespace FatPut

open Bytearray

@[simp] abbrev sector : Nat := 512
@[simp] abbrev fatStart : Nat := 33
@[simp] abbrev fatSectors : Nat := 9
@[simp] abbrev fatCopies : Nat := 2
@[simp] abbrev rootLba : Nat := 51
@[simp] abbrev rootSectors : Nat := 14
@[simp] abbrev rootEntries : Nat := 224
@[simp] abbrev dataStart : Nat := 65
@[simp] abbrev clusterEof : Nat := 0xFF8

------------------------------------------------------------
-- Table Entries
------------------------------------------------------------

/- `get_fat_entry`. -/
def getFatEntry
    (fat : List UInt8)
    (cluster : Nat) : Except PyError Nat :=
  let off := cluster + (cluster >>> 1)
  match item fat off, item fat (off + 1) with
  | .ok lo, .ok hi =>
      if cluster &&& 1 ≠ 0 then
        .ok ((lo >>> 4) ||| (hi <<< 4))
      else
        .ok (lo ||| ((hi &&& 0x0F) <<< 8))
  | .error e, _ => .error e
  | _, .error e => .error e

/- `set_fat_entry`. -/
def setFatEntry
    (fat : List UInt8)
    (cluster value : Nat) : Except PyError (List UInt8) :=
  let off := cluster + (cluster >>> 1)
  let value := value &&& 0xFFF
  if cluster &&& 1 ≠ 0 then do
    let lo ← item fat off
    let fat ←
      setItem fat off ((lo &&& 0x0F) ||| ((value &&& 0x0F) <<< 4))
    setItem fat (off + 1) ((value >>> 4) &&& 0xFF)
  else do
    let fat ← setItem fat off (value &&& 0xFF)
    let hi ← item fat (off + 1)
    setItem fat (off + 1)
      ((hi &&& 0xF0) ||| ((value >>> 8) &&& 0x0F))

------------------------------------------------------------
-- Loading And Storing Tables
------------------------------------------------------------

/- `load_fat`. -/
def loadFat
    (img : List UInt8) : List UInt8 :=
  slice img (fatStart * sector)
    (fatStart * sector + fatSectors * sector)

/- `store_fat`: the table goes to both copies. -/
def storeFat
    (img fat : List UInt8) : List UInt8 :=
  let blob := slice fat 0 (fatSectors * sector)
  (List.range fatCopies).foldl
    (fun img copy =>
      let off := (fatStart + copy * fatSectors) * sector
      setSlice img off (off + blob.length) blob)
    img

/- `load_root`. -/
def loadRoot
    (img : List UInt8) : List UInt8 :=
  slice img (rootLba * sector)
    (rootLba * sector + rootSectors * sector)

/- `store_root`. -/
def storeRoot
    (img root : List UInt8) : List UInt8 :=
  let off := rootLba * sector
  setSlice img off (off + root.length) root

------------------------------------------------------------
-- Allocation
------------------------------------------------------------

/- `find_free_cluster`. -/
def findFreeCluster
    (fat : List UInt8)
    (c : Nat) : Except PyError Nat :=
  if _hBound : c < 4096 then
    match getFatEntry fat c with
    | .error e => .error e
    | .ok entry =>
        if entry = 0 then .ok c
        else findFreeCluster fat (c + 1)
  else
    .error (.runtimeError "no free clusters")
termination_by 4096 - c

/-
  The loop of `allocate_clusters`: every cluster found is
  linked from the one before it.
-/
def allocateLoop :
    Nat → List UInt8 → List Nat → Option Nat → Nat →
      Except PyError (List UInt8 × List Nat × Nat)
| 0, fat, clusters, _, curSearch =>
    .ok (fat, clusters, curSearch)
| count + 1, fat, clusters, prev, curSearch => do
    let c ← findFreeCluster fat curSearch
    let fat ←
      match prev with
      | none => pure fat
      | some prev => setFatEntry fat prev c
    allocateLoop count fat (clusters ++ [c]) (some c) (c + 1)

/- `allocate_clusters`, with the table it leaves. -/
def allocateClusters
    (fat : List UInt8)
    (count nextStart : Nat) :
    Except PyError (List UInt8 × List Nat × Nat) := do
  let (fat, clusters, curSearch) ←
    allocateLoop count fat [] none nextStart
  match clusters.getLast? with
  | none => .error .indexError
  | some last =>
      let fat ← setFatEntry fat last clusterEof
      pure (fat, clusters, curSearch)

/- The loop of `find_root_slot` over `count` more slots. -/
def findRootSlotFrom
    (root : List UInt8) :
    Nat → Nat → Except PyError Nat
| 0, _ => .error (.runtimeError "root directory full")
| count + 1, i =>
    match item root (i * 32) with
    | .error e => .error e
    | .ok b =>
        if b = 0x00 ∨ b = 0xE5 then .ok i
        else findRootSlotFrom root count (i + 1)

/- `find_root_slot`. -/
def findRootSlot
    (root : List UInt8) : Except PyError Nat :=
  findRootSlotFrom root rootEntries 0

------------------------------------------------------------
-- Installing Files
------------------------------------------------------------

/- The arrays and the cluster at which searches start. -/
structure Installer where
  img : List UInt8
  fat : List UInt8
  root : List UInt8
  nextCluster : Nat

/- `str.upper` on an ASCII character. -/
def upper
    (c : UInt8) : UInt8 :=
  if 0x61 ≤ c ∧ c ≤ 0x7A then c - 32 else c

/- `name83.upper().ljust(11)[:11]`. -/
def fieldName
    (name : List UInt8) : List UInt8 :=
  slice (ljust (name.map upper) 11 0x20) 0 11

/- The loop over `enumerate(clusters)`, from index `i` on. -/
def writeClusters
    (data : List UInt8) :
    List Nat → Nat → List UInt8 → List UInt8
| [], _, img => img
| cluster :: clusters, i, img =>
    let off := dataStart * sector + (cluster - 2) * sector
    let chunk := slice data (i * sector) ((i + 1) * sector)
    writeClusters data clusters (i + 1)
      (setSlice img off (off + sector) (ljust chunk sector 0))

/- `put_file`. -/
def putFile
    (s : Installer)
    (data name : List UInt8) : Except PyError Installer := do
  let name83 := fieldName name
  let nClusters := max 1 ((data.length + sector - 1) / sector)
  let (fat, clusters, nextCluster) ←
    allocateClusters s.fat nClusters s.nextCluster
  let slot ← findRootSlot s.root
  let o := slot * 32
  let root := setSlice s.root o (o + 11) name83
  let root ← setItem root (o + 11) 0x20
  match clusters.head? with
  | none => .error .indexError
  | some first =>
      let start ← packH first
      let root := setSlice root (o + 26) (o + 28) start
      let size ← packI data.length
      let root := setSlice root (o + 28) (o + 32) size
      let img := writeClusters data clusters 0 s.img
      pure { img, fat, root, nextCluster }

/- `format_fat12` with the default media byte. -/
def formatFat12
    (img : List UInt8) : Except PyError (List UInt8) := do
  let fat := List.replicate (fatSectors * sector) 0
  let fat ← setFatEntry fat 0 (0xFF0 ||| 0xF0)
  let fat ← setFatEntry fat 1 0xFFF
  let img := storeFat img fat
  pure (storeRoot img
    (List.replicate (rootSectors * sector) 0))

/- The loop of `main` over pairs of contents and name. -/
def putFiles :
    Installer → List (List UInt8 × List UInt8) →
      Except PyError Installer
| s, [] => .ok s
| s, (data, name) :: files => do
    let s ← putFile s data name
    putFiles s files

/-
  `root[0] == 0 and root[32] == 0`: the second slot is not
  looked at when the first is in use.
-/
def rootBlank
    (root : List UInt8) : Except PyError Bool := do
  let first ← item root 0
  if first = 0 then
    let second ← item root 32
    pure (second = 0)
  else
    pure false

/-
  `main` on the bytes of the image file: the bytes written
  back.  Without files it prints its usage and exits.
-/
def main
    (img : List UInt8)
    (files : List (List UInt8 × List UInt8)) :
    Except PyError (List UInt8) :=
  if files.isEmpty then .error (.systemExit 1) else do
  let blank ← rootBlank (loadRoot img)
  let img ← if blank then formatFat12 img else pure img
  let s ←
    putFiles
      { img, fat := loadFat img, root := loadRoot img
        nextCluster := 2 }
      files
  pure (storeRoot (storeFat s.img s.fat) s.root)

end FatPut

end AsmOS
