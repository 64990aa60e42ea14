import Mathlib.Logic.Function.Basic

/-
  The file primitives of the platform, as their callers rely
  on them.

  A read gives the first bytes of a file, as many as fit the
  buffer, and reports success when the file is longer than
  that.  A write that returns 0 has replaced the contents of
  one file.

  Main declarations:
    * `PlatFs`, `PlatFs.Total`
    * `mapFs`, `mapFs_total`
-/

------------------------------------------------------------
-- File Primitives
------------------------------------------------------------

namespace AsmOS

namespace Storage

/- `plat_fs_read` and `plat_fs_write` over states `σ`. -/
structure PlatFs (σ : Type) where
  files : σ → List UInt8 → Option (List UInt8)
  read : σ → List UInt8 → Nat → Option (List UInt8)
  write : σ → List UInt8 → List UInt8 → Int × σ
  read_file :
    ∀ s name data bufSize, files s name = some data →
      read s name bufSize = some (data.take bufSize)
  read_missing :
    ∀ s name bufSize, files s name = none →
      read s name bufSize = none
  write_done :
    ∀ s name data, (write s name data).1 = 0 →
      files (write s name data).2 =
        Function.update (files s) name (some data)

/- Every write succeeds. -/
def PlatFs.Total
    {σ : Type}
    (fs : PlatFs σ) : Prop :=
  ∀ s name data, (fs.write s name data).1 = 0

namespace PlatFs

variable {σ : Type}
variable {fs : PlatFs σ}
variable {s : σ}
variable {name other data : List UInt8}

/- What a file holds after a write that succeeds. -/
theorem files_write
    (hDone : (fs.write s name data).1 = 0) :
    fs.files (fs.write s name data).2 other =
      if other = name then some data else fs.files s other := by
  rw [fs.write_done s name data hDone, Function.update_apply]

theorem files_write_self
    (hDone : (fs.write s name data).1 = 0) :
    fs.files (fs.write s name data).2 name = some data := by
  rw [files_write hDone, if_pos rfl]

end PlatFs

------------------------------------------------------------
-- Files As A Map
------------------------------------------------------------

/- Files by name, on a disk that is never full. -/
def mapFs : PlatFs (List UInt8 → Option (List UInt8)) where
  files := fun s => s
  read := fun s name bufSize =>
    (s name).map fun data => data.take bufSize
  write := fun s name data =>
    (0, Function.update s name (some data))
  read_file := fun s name data bufSize hFile => by
    rw [hFile]
    rfl
  read_missing := fun s name bufSize hFile => by
    rw [hFile]
    rfl
  write_done := fun _ _ _ _ => rfl

theorem mapFs_total : mapFs.Total :=
  fun _ _ _ => rfl

end Storage

end AsmOS
