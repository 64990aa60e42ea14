import AsmOS.Base.Linked

/-
  Files stored as linked chains of cells.

  A file is a first cell and a number of cells.  A set of
  files is consistent with the links when every file is a
  chain of that many cells, chains of different files are
  disjoint, and a cell is in use exactly when it lies on a
  chain.

  Main declarations:
    * `LinkedFiles.Consistent`
    * `LinkedFiles.Consistent.congr`
    * `LinkedFiles.Consistent.update_iff`
-/

------------------------------------------------------------
-- Consistency
------------------------------------------------------------

namespace LinkedFiles

open Linked

variable {ι α : Type}

/-
  `cells` are the cells files may use, `used` those marked as
  allocated; `file i` is the first cell and the length of the
  chain of file `i`.
-/
structure Consistent
    (next : α → α)
    (stop cells used : α → Prop)
    (file : ι → Option (α × Nat)) : Prop where
  chains :
    ∀ i s n, file i = some (s, n) →
      ∃ cs, Walks next stop s cs ∧ cs.length = n ∧
        ∀ c ∈ cs, cells c
  disjoint :
    ∀ i j s n t m cs ds, i ≠ j →
      file i = some (s, n) → file j = some (t, m) →
        Walks next stop s cs → Walks next stop t ds →
          cs.Disjoint ds
  allocated :
    ∀ c, cells c →
      (used c ↔
        ∃ i s n cs, file i = some (s, n) ∧
          Walks next stop s cs ∧ c ∈ cs)

variable {next next' : α → α}
variable {stop cells used used' : α → Prop}
variable {file : ι → Option (α × Nat)}

/- A nonempty chain contains its first cell. -/
theorem head_mem
    {s : α}
    {cs : List α}
    (hWalk : Walks next stop s cs)
    (hPos : 0 < cs.length) :
    s ∈ cs := by
  cases cs with
  | nil => simp at hPos
  | cons c cs =>
      rw [hWalk.2.1]
      exact List.mem_cons_self

/- Consistency depends on the links and marks of cells. -/
theorem Consistent.congr
    (hFiles : Consistent next stop cells used file)
    (hNext : ∀ c, cells c → next c = next' c)
    (hUsed : ∀ c, cells c → (used c ↔ used' c)) :
    Consistent next' stop cells used' file := by
  -- The chain of a file is the same for both successors.
  have hChain :
      ∀ i s n, file i = some (s, n) → ∀ cs,
        Walks next stop s cs ↔ Walks next' stop s cs := by
    intro i s n hFile
    rcases hFiles.chains i s n hFile with
      ⟨own, hOwn, _, hCells⟩
    have hOwn' : Walks next' stop s own :=
      hOwn.congr fun c hMember =>
        hNext c (hCells c hMember)
    intro cs
    constructor
    · intro hWalk
      rwa [hWalk.unique hOwn]
    · intro hWalk
      rwa [hWalk.unique hOwn']
  refine ⟨?_, ?_, ?_⟩
  · intro i s n hFile
    rcases hFiles.chains i s n hFile with
      ⟨cs, hWalk, hRest⟩
    exact ⟨cs, (hChain i s n hFile cs).mp hWalk, hRest⟩
  · intro i j s n t m cs ds hNe hFile hFile' hWalk hWalk'
    exact hFiles.disjoint i j s n t m cs ds hNe hFile hFile'
      ((hChain i s n hFile cs).mpr hWalk)
      ((hChain j t m hFile' ds).mpr hWalk')
  · intro c hCell
    rw [← hUsed c hCell, hFiles.allocated c hCell]
    constructor
    · rintro ⟨i, s, n, cs, hFile, hWalk, hMember⟩
      exact ⟨i, s, n, cs, hFile,
        (hChain i s n hFile cs).mp hWalk, hMember⟩
    · rintro ⟨i, s, n, cs, hFile, hWalk, hMember⟩
      exact ⟨i, s, n, cs, hFile,
        (hChain i s n hFile cs).mpr hWalk, hMember⟩

------------------------------------------------------------
-- Changing One File
------------------------------------------------------------

section Update

variable [DecidableEq ι]

/-
  A chain cell of a file that was replaced still lies on a
  chain, which can only be the chain of the new file.
-/
theorem Consistent.mem_of_update
    (hFiles : Consistent next stop cells used file)
    {k : ι}
    {v : Option (α × Nat)}
    (hUpdated :
      Consistent next stop cells used
        (Function.update file k v))
    {t c : α}
    {m : Nat}
    {ds : List α}
    (hFile : file k = some (t, m))
    (hWalk : Walks next stop t ds)
    (hMember : c ∈ ds)
    (hCell : cells c) :
    ∃ s n cs, v = some (s, n) ∧ Walks next stop s cs ∧
      c ∈ cs := by
  have hUsed : used c :=
    (hFiles.allocated c hCell).mpr
      ⟨k, t, m, ds, hFile, hWalk, hMember⟩
  rcases (hUpdated.allocated c hCell).mp hUsed with
    ⟨i, s, n, cs, hFile', hWalk', hMember'⟩
  by_cases hOwn : i = k
  · subst hOwn
    rw [Function.update_self] at hFile'
    exact ⟨s, n, cs, hFile', hWalk', hMember'⟩
  · rw [Function.update_of_ne hOwn] at hFile'
    exact absurd hMember'
      (hFiles.disjoint k i t m s n ds cs (Ne.symm hOwn)
        hFile hFile' hWalk hWalk' hMember)

/-
  With the links unchanged, replacing one file keeps the
  files consistent only when it is the same file.
-/
theorem Consistent.update_iff
    (hFiles : Consistent next stop cells used file)
    (hPos : ∀ i s n, file i = some (s, n) → 0 < n)
    (k : ι)
    (v : Option (α × Nat))
    (hValue : ∀ s n, v = some (s, n) → 0 < n) :
    Consistent next stop cells used
        (Function.update file k v) ↔
      v = file k := by
  constructor
  · intro hUpdated
    cases v with
    | none =>
        cases hFile : file k with
        | none => rfl
        | some old =>
            rcases old with ⟨t, m⟩
            rcases hFiles.chains k t m hFile with
              ⟨ds, hWalk, hLength, hCells⟩
            have hHead : t ∈ ds :=
              head_mem hWalk (by
                rw [hLength]
                exact hPos k t m hFile)
            rcases hFiles.mem_of_update hUpdated hFile hWalk
                hHead (hCells t hHead) with
              ⟨_, _, _, hNone, _⟩
            simp at hNone
    | some new =>
        rcases new with ⟨s, n⟩
        rcases hUpdated.chains k s n
            (Function.update_self k _ file) with
          ⟨cs, hWalk, hLength, hCells⟩
        have hHead : s ∈ cs :=
          head_mem hWalk (by
            rw [hLength]
            exact hValue s n rfl)
        -- The update back puts the new first cell on a chain.
        have hRestored :
            Consistent next stop cells used
              (Function.update
                (Function.update file k (some (s, n))) k
                (file k)) := by
          rwa [Function.update_idem, Function.update_eq_self]
        rcases hUpdated.mem_of_update hRestored
            (Function.update_self k _ file) hWalk hHead
            (hCells s hHead) with
          ⟨t, m, ds, hFile, hOld, hMember⟩
        rcases hFiles.chains k t m hFile with
          ⟨own, hOwn, hOwnLength, hOwnCells⟩
        have hSame : own = ds := hOwn.unique hOld
        subst hSame
        have hOldHead : t ∈ own :=
          head_mem hOld (by
            rw [hOwnLength]
            exact hPos k t m hFile)
        rcases hFiles.mem_of_update hUpdated hFile hOld
            hOldHead (hOwnCells t hOldHead) with
          ⟨_, _, _, hEq, hWalk', hBack⟩
        cases hEq
        rw [hWalk'.unique hWalk] at hBack
        have hStart : s = t :=
          hWalk.eq_of_mem hOld hMember hBack
        subst hStart
        rw [hFile, ← hLength, ← hOwnLength, hWalk.unique hOld]
  · rintro rfl
    rwa [Function.update_eq_self]

end Update

end LinkedFiles
