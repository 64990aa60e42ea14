import AsmOS.Storage.ChainRead
import AsmOS.Storage.Fat12

/-
  The stores of `fat12_read_file` and its buffer.

  Each turn of the loop tests that some room is left and then
  has a whole sector transferred to ES:BX, which is the place
  behind the last sector for the first of 128 sectors only,
  and only if the buffer starts a segment.  The count is cut
  to the size of the file, but not to the buffer's.

  Main declarations:
    * `fat12ReadStores`, `ReadsWithin`
    * `ReadState`, `afterSectors`
    * `Placed`, `Overcounts`
    * `readsWithin_iff`
-/

------------------------------------------------------------
-- Stores Of The Read Loop
------------------------------------------------------------

namespace AsmOS

namespace Storage

open ByteMem

/-
  The addresses to which the loop of `fat12_read_file` has
  sectors transferred within some number of turns, also when
  it has no result.
-/
def fat12ReadStores
    (fs : Fat12Fs)
    (dst : UInt32)
    (max : Nat) :
    Nat → Nat → Nat → ByteMem → BlockDev → List Nat
| 0, _, _, _, _ => []
| fuel + 1, cluster, written, mem, dev =>
    if cluster < fatEnd ∧ written < max then
      let p := dst + UInt32.ofNat written
      match fat12ReadCluster dev cluster p mem with
      | (false, _, _) => []
      | (true, mem, dev) =>
          transferAddr p ::
            match fat12NextCluster (fs.fat mem) cluster with
            | none => []
            | some next =>
                fat12ReadStores fs dst max fuel next
                  ((written + 512) % 2 ^ 32) mem dev
    else
      []

/- The stores of a call; without an entry there are none. -/
def fat12FileStores
    (fs : Fat12Fs)
    (name83 : List UInt8)
    (buf : UInt32)
    (max : Nat)
    (mem : ByteMem)
    (fuel : Nat) : List Nat :=
  if fs.ready then
    match fat12FindEntry (fs.root mem) name83 with
    | none => []
    | some slot =>
        fat12ReadStores fs buf max fuel
          (slotCluster (fs.root mem) slot) 0 mem fs.dev
  else
    []

/- The sector stored at `t` lies in the buffer. -/
def InBuffer
    (buf max : UInt32)
    (t : Nat) : Prop :=
  buf.toNat ≤ t ∧ t + 512 ≤ buf.toNat + max.toNat

/-
  The bytes of the chain of a slot, as far as they count in a
  minimum with `max`.
-/
def chainLength
    (fs : Fat12Fs)
    (mem : ByteMem)
    (slot max : Nat) : Nat :=
  512 *
    (visited (fs.fat mem) (sectorCount max)
      (slotCluster (fs.root mem) slot)).length

/-
  Every stored sector lies in the buffer, and a success
  reports the least of the file's size, the chain's bytes and
  the buffer's size.
-/
structure ReadsWithin
    (fs : Fat12Fs)
    (name83 : List UInt8)
    (buf max : UInt32)
    (mem : ByteMem) : Prop where
  inside :
    ∀ fuel,
      ∀ t ∈ fat12FileStores fs name83 buf max.toNat mem fuel,
        InBuffer buf max t
  reported :
    ∀ r mem' fs',
      fat12ReadFile fs name83 buf max.toNat mem =
          some (r, mem', fs') →
        r.rc = 0 →
          ∃ slot, fat12FindEntry (fs.root mem) name83 =
              some slot ∧
            r.outSize =
              some (min (slotSize (fs.root mem) slot)
                (min (chainLength fs mem slot max.toNat)
                  max.toNat))

------------------------------------------------------------
-- The Sectors Of A Chain
------------------------------------------------------------

/- What the device delivers for a cluster. -/
def clusterRead
    (dev : BlockDev)
    (cluster : Nat) : Option ByteMem × BlockDev :=
  if cluster < 2 then
    (none, dev)
  else
    sectorRead dev (fatDataStart + (cluster - 2))

/- A cluster of a chain, the pointer for it and the device. -/
structure ReadState where
  cluster : Nat
  p : UInt32
  dev : BlockDev

/-
  The cluster is a data cluster below 0xFF8, the pointer is
  not null, and the sector is delivered within five tries.
-/
def ReadState.Reads
    (s : ReadState) : Prop :=
  s.cluster < fatEnd ∧ s.p ≠ 0 ∧
    (clusterRead s.dev s.cluster).1.isSome = true

instance
    (s : ReadState) :
    Decidable s.Reads := by
  unfold ReadState.Reads
  infer_instance

/- The state behind a sector, if its link lies in the table. -/
def ReadState.next
    (table : ByteMem)
    (s : ReadState) : Option ReadState :=
  if s.Reads then
    (fat12NextCluster table s.cluster).map fun next =>
      ⟨next, s.p + 512, (clusterRead s.dev s.cluster).2⟩
  else
    none

/- The state behind `n` sectors. -/
def afterSectors
    (table : ByteMem) :
    Nat → ReadState → Option ReadState
| 0, s => some s
| n + 1, s => (s.next table).bind (afterSectors table n)

/- The state before the first sector of a slot. -/
def firstSector
    (fs : Fat12Fs)
    (mem : ByteMem)
    (slot : Nat)
    (buf : UInt32) : ReadState where
  cluster := slotCluster (fs.root mem) slot
  p := buf
  dev := fs.dev

/- Sector `k` of the chain, from 0 on, is read. -/
def ReadsSector
    (table : ByteMem)
    (s : ReadState)
    (k : Nat) : Prop :=
  ∃ s', afterSectors table k s = some s' ∧ s'.Reads

/- The buffer starts a segment of 64 KB below 1 MB. -/
def StartsSegment
    (buf : UInt32) : Prop :=
  buf.toNat < 2 ^ 20 ∧ buf.toNat / 16 % 4096 = 0

/-
  The place of sector `k`: the buffer starts a segment, the
  sector lies below 1 MB (or the buffer in the first bytes of
  all), and the first sector of its segment fits the buffer.
-/
def InPlace
    (buf max : UInt32)
    (k : Nat) : Prop :=
  StartsSegment buf ∧
    (buf.toNat < 16 ∨ buf.toNat + 512 * k < 2 ^ 20) ∧
      65536 * (k / 128 % 16) + 512 ≤ max.toNat

/- Every sector that is read before the limit is in place. -/
def Placed
    (fs : Fat12Fs)
    (name83 : List UInt8)
    (buf max : UInt32)
    (mem : ByteMem) : Prop :=
  fs.ready = true →
    ∀ slot, fat12FindEntry (fs.root mem) name83 = some slot →
      ∀ k, 512 * k < max.toNat →
        ReadsSector (fs.fat mem) (firstSector fs mem slot buf)
            k →
          InPlace buf max k

/-
  A file longer than the buffer has its chain read through
  the sector that the buffer's end cuts.
-/
def Overcounts
    (fs : Fat12Fs)
    (name83 : List UInt8)
    (buf max : UInt32)
    (mem : ByteMem) : Prop :=
  fs.ready = true ∧
    ∃ slot, fat12FindEntry (fs.root mem) name83 = some slot ∧
      max.toNat < slotSize (fs.root mem) slot ∧
        max.toNat % 512 ≠ 0 ∧ max.toNat < 2 ^ 32 - 512 ∧
          (afterSectors (fs.fat mem) (max.toNat / 512 + 1)
            (firstSector fs mem slot buf)).isSome = true

section Walk

variable {table : ByteMem}
variable {s s' : ReadState}
variable {n k : Nat}

theorem ReadState.next_some
    (hNext : s.next table = some s') :
    s.Reads ∧
      fat12NextCluster table s.cluster = some s'.cluster ∧
        s'.p = s.p + 512 ∧
          s'.dev = (clusterRead s.dev s.cluster).2 := by
  unfold ReadState.next at hNext
  split at hNext
  · rename_i hReads
    rcases Option.map_eq_some_iff.mp hNext with
      ⟨next, hLink, rfl⟩
    exact ⟨hReads, hLink, rfl, rfl⟩
  · cases hNext

theorem ReadState.next_of_link
    {next : Nat}
    (hReads : s.Reads)
    (hLink : fat12NextCluster table s.cluster = some next) :
    s.next table =
      some ⟨next, s.p + 512,
        (clusterRead s.dev s.cluster).2⟩ := by
  rw [ReadState.next, if_pos hReads, hLink]
  rfl

theorem afterSectors_succ
    (hAfter : afterSectors table (n + 1) s = some s') :
    ∃ s₁, s.next table = some s₁ ∧
      afterSectors table n s₁ = some s' :=
  Option.bind_eq_some_iff.mp hAfter

/- One sector more. -/
theorem afterSectors_snoc
    {s₁ : ReadState}
    (hAfter : afterSectors table n s = some s₁)
    (hNext : s₁.next table = some s') :
    afterSectors table (n + 1) s = some s' := by
  induction n generalizing s with
  | zero =>
      cases hAfter
      exact Option.bind_eq_some_iff.mpr ⟨s', hNext, rfl⟩
  | succ n ih =>
      rcases afterSectors_succ hAfter with ⟨s₂, hFirst, hRest⟩
      exact Option.bind_eq_some_iff.mpr ⟨s₂, hFirst, ih hRest⟩

/- Behind a later sector every earlier one has been read. -/
theorem readsSector_of_after
    (hAfter : afterSectors table n s = some s')
    (hk : k < n) :
    ReadsSector table s k := by
  induction n generalizing s k with
  | zero => exact absurd hk (Nat.not_lt_zero k)
  | succ n ih =>
      rcases afterSectors_succ hAfter with ⟨s₁, hFirst, hRest⟩
      cases k with
      | zero => exact ⟨s, rfl, (ReadState.next_some hFirst).1⟩
      | succ k =>
          rcases ih hRest (Nat.lt_of_succ_lt_succ hk) with
            ⟨s₂, hLater, hReads⟩
          exact ⟨s₂, Option.bind_eq_some_iff.mpr
            ⟨s₁, hFirst, hLater⟩, hReads⟩

end Walk

------------------------------------------------------------
-- One Turn Of The Loop
------------------------------------------------------------

/- The table and the buffer do not overlap. -/
def Apart
    (fs : Fat12Fs)
    (buf max : UInt32) : Prop :=
  buf.toNat + max.toNat ≤ fs.fatAddr.toNat ∨
    fs.fatAddr.toNat + 4608 ≤ buf.toNat

/- The table in memory is still as it was. -/
def TableKept
    (fs : Fat12Fs)
    (table mem : ByteMem) : Prop :=
  AgreeOn (fs.fat mem) table 0 4608

section Turn

variable {fs : Fat12Fs}
variable {buf maxLen : UInt32}
variable {table mem : ByteMem}
variable {s s' : ReadState}
variable {fuel max written : Nat}

theorem TableKept.link
    (hKept : TableKept fs table mem)
    (cluster : Nat) :
    fat12NextCluster (fs.fat mem) cluster =
      fat12NextCluster table cluster := by
  rw [fat12NextCluster, fat12NextCluster, fatNextCluster_eq,
    fatNextCluster_eq]
  by_cases hLink : linkInCache cluster
  · rw [if_pos hLink, if_pos hLink]
    have hLast : cluster ≤ 3071 := hLink
    refine congrArg some
      (Packed12.get_congr hKept (Nat.zero_le _) ?_)
    unfold Packed12.offset
    omega
  · rw [if_neg hLink, if_neg hLink]

/- A store in the buffer misses the table. -/
theorem TableKept.store
    (hKept : TableKept fs table mem)
    (hApart : Apart fs buf maxLen)
    {t : Nat}
    (hIn : InBuffer buf maxLen t)
    (sector : ByteMem) :
    TableKept fs table (mem.storeBlock t 512 sector) := by
  intro x hLo hHi
  rcases hIn with ⟨hFirst, hLast⟩
  rw [← hKept x hLo hHi]
  refine storeBlock_outside ?_
  rcases hApart with hBelow | hAbove
  · omega
  · omega

/- What a turn reads. -/
theorem fat12ReadCluster_reads
    (hReads : s.Reads)
    (mem : ByteMem) :
    ∃ sector,
      fat12ReadCluster s.dev s.cluster s.p mem =
        (true, mem.storeBlock (transferAddr s.p) 512 sector,
          (clusterRead s.dev s.cluster).2) := by
  rcases hReads with ⟨_, hp, hSome⟩
  unfold clusterRead at hSome ⊢
  unfold fat12ReadCluster
  by_cases hLow : s.cluster < 2
  · rw [if_pos hLow] at hSome
    cases hSome
  · rw [if_neg hLow] at hSome ⊢
    rw [if_neg hLow, blockDevRead_eq hp]
    rcases hRead :
        sectorRead s.dev (fatDataStart + (s.cluster - 2)) with
      ⟨_ | sector, dev⟩
    · rw [hRead] at hSome
      cases hSome
    · exact ⟨sector, rfl⟩

theorem fat12ReadCluster_fails
    (hEnd : s.cluster < fatEnd)
    (hReads : ¬ s.Reads)
    (mem : ByteMem) :
    ∃ dev, fat12ReadCluster s.dev s.cluster s.p mem =
      (false, mem, dev) := by
  unfold fat12ReadCluster
  by_cases hLow : s.cluster < 2
  · exact ⟨s.dev, if_pos hLow⟩
  rw [if_neg hLow]
  by_cases hp : s.p = 0
  · rw [hp, blockDevRead_null]
    exact ⟨s.dev, rfl⟩
  rw [blockDevRead_eq hp]
  rcases hRead :
      sectorRead s.dev (fatDataStart + (s.cluster - 2)) with
    ⟨_ | sector, dev⟩
  · exact ⟨dev, rfl⟩
  · refine absurd ⟨hEnd, hp, ?_⟩ hReads
    rw [clusterRead, if_neg hLow, hRead]
    rfl

/- The pointer of the next sector. -/
theorem pointer_next
    (dst : UInt32)
    (written : Nat) :
    dst + UInt32.ofNat ((written + 512) % 2 ^ 32) =
      dst + UInt32.ofNat written + 512 := by
  have hWrap :
      UInt32.ofNat ((written + 512) % 2 ^ 32) =
        UInt32.ofNat written + 512 := by
    apply UInt32.toNat.inj
    simp [UInt32.toNat_ofNat']
  rw [hWrap, UInt32.add_assoc]

/-
  The loop is about to read the sector of `s` with the table
  as it was.
-/
structure AtSector
    (fs : Fat12Fs)
    (buf : UInt32)
    (table : ByteMem)
    (s : ReadState)
    (written : Nat)
    (mem : ByteMem) : Prop where
  pointer : s.p = buf + UInt32.ofNat written
  kept : TableKept fs table mem

/- A turn that reads a sector and finds its link. -/
theorem AtSector.turn
    (hAt : AtSector fs buf table s written mem)
    (hApart : Apart fs buf maxLen)
    (hRoom : written < max)
    (hNext : s.next table = some s')
    (hIn : InBuffer buf maxLen (transferAddr s.p))
    (fuel : Nat) :
    ∃ mem',
      AtSector fs buf table s' ((written + 512) % 2 ^ 32) mem' ∧
      fat12ReadLoop fs buf max (fuel + 1) s.cluster written mem
          s.dev =
        fat12ReadLoop fs buf max fuel s'.cluster
          ((written + 512) % 2 ^ 32) mem' s'.dev ∧
      fat12ReadStores fs buf max (fuel + 1) s.cluster written mem
          s.dev =
        transferAddr s.p ::
          fat12ReadStores fs buf max fuel s'.cluster
            ((written + 512) % 2 ^ 32) mem' s'.dev := by
  rcases ReadState.next_some hNext with
    ⟨hReads, hLink, hPointer, hDev⟩
  rcases fat12ReadCluster_reads hReads mem with ⟨sector, hRead⟩
  have hKept := hAt.kept.store hApart hIn sector
  rw [hAt.pointer] at hRead
  have hFound := (hKept.link s.cluster).trans hLink
  rw [hAt.pointer] at hFound
  refine ⟨_, ⟨?_, hKept⟩, ?_, ?_⟩
  · rw [hPointer, hAt.pointer, pointer_next]
  · rw [fat12ReadLoop, if_pos ⟨hReads.1, hRoom⟩, hRead]
    dsimp only
    rw [hFound, hDev, hAt.pointer]
  · rw [fat12ReadStores, if_pos ⟨hReads.1, hRoom⟩]
    dsimp only
    rw [hRead]
    dsimp only
    rw [hFound, hDev, hAt.pointer]

/- A turn that does not read a sector is the last. -/
theorem AtSector.fails
    (hAt : AtSector fs buf table s written mem)
    (hGoes : s.cluster < fatEnd ∧ written < max)
    (hReads : ¬ s.Reads)
    (fuel : Nat) :
    (∃ dev, fat12ReadLoop fs buf max (fuel + 1) s.cluster written
        mem s.dev = some (false, written, mem, dev)) ∧
      fat12ReadStores fs buf max (fuel + 1) s.cluster written mem
        s.dev = [] := by
  rcases fat12ReadCluster_fails hGoes.1 hReads mem with
    ⟨dev, hRead⟩
  rw [hAt.pointer] at hRead
  refine ⟨⟨dev, ?_⟩, ?_⟩
  · rw [fat12ReadLoop, if_pos hGoes, hRead]
  · rw [fat12ReadStores, if_pos hGoes]
    dsimp only
    rw [hRead]

/- A turn that reads a sector stores it. -/
theorem AtSector.mem_stores
    (hAt : AtSector fs buf table s written mem)
    (hRoom : written < max)
    (hReads : s.Reads)
    (fuel : Nat) :
    transferAddr s.p ∈
      fat12ReadStores fs buf max (fuel + 1) s.cluster written mem
        s.dev := by
  rcases fat12ReadCluster_reads hReads mem with ⟨sector, hRead⟩
  rw [hAt.pointer] at hRead ⊢
  rw [fat12ReadStores, if_pos ⟨hReads.1, hRoom⟩]
  dsimp only
  rw [hRead]
  exact List.mem_cons_self

/- Without a link in the table the call has no result. -/
theorem AtSector.stuck
    (hAt : AtSector fs buf table s written mem)
    (hApart : Apart fs buf maxLen)
    (hRoom : written < max)
    (hReads : s.Reads)
    (hNone : fat12NextCluster table s.cluster = none)
    (hIn : InBuffer buf maxLen (transferAddr s.p))
    (fuel : Nat) :
    fat12ReadLoop fs buf max (fuel + 1) s.cluster written mem
        s.dev = none ∧
      fat12ReadStores fs buf max (fuel + 1) s.cluster written mem
        s.dev = [transferAddr s.p] := by
  rcases fat12ReadCluster_reads hReads mem with ⟨sector, hRead⟩
  have hLink := (hAt.kept.store hApart hIn sector).link s.cluster
  rw [hNone] at hLink
  rw [hAt.pointer] at hRead hLink
  constructor
  · rw [fat12ReadLoop, if_pos ⟨hReads.1, hRoom⟩, hRead]
    dsimp only
    rw [hLink]
  · rw [fat12ReadStores, if_pos ⟨hReads.1, hRoom⟩]
    dsimp only
    rw [hRead]
    dsimp only
    rw [hLink, hAt.pointer]

end Turn

------------------------------------------------------------
-- Runs Of The Loop
------------------------------------------------------------

section Run

variable {fs : Fat12Fs}
variable {buf maxLen : UInt32}
variable {table mem : ByteMem}
variable {s s' : ReadState}
variable {fuel max written n : Nat}

/- Below the limit the count does not wrap. -/
theorem count_next
    {k : Nat}
    (hRoom : written + 512 * (k + 1) < max)
    (hMax : max ≤ 2 ^ 32) :
    (written + 512) % 2 ^ 32 + 512 * k =
      written + 512 * (k + 1) := by
  omega

/-
  `n` sectors that are placed in the buffer are read in `n`
  turns.
-/
theorem AtSector.turns
    (hAt : AtSector fs buf table s written mem)
    (hApart : Apart fs buf maxLen)
    (hWord : written < 2 ^ 32)
    (hAfter : afterSectors table n s = some s')
    (hRoom : ∀ k < n, written + 512 * k < max)
    (hMax : max ≤ 2 ^ 32)
    (hIn :
      ∀ k < n,
        InBuffer buf maxLen
          (transferAddr
            (buf + UInt32.ofNat (written + 512 * k))))
    (fuel : Nat) :
    ∃ mem' stores,
      AtSector fs buf table s' ((written + 512 * n) % 2 ^ 32)
          mem' ∧
        fat12ReadLoop fs buf max (fuel + n) s.cluster written mem
            s.dev =
          fat12ReadLoop fs buf max fuel s'.cluster
            ((written + 512 * n) % 2 ^ 32) mem' s'.dev ∧
        fat12ReadStores fs buf max (fuel + n) s.cluster written
            mem s.dev =
          stores ++
            fat12ReadStores fs buf max fuel s'.cluster
              ((written + 512 * n) % 2 ^ 32) mem' s'.dev := by
  induction n generalizing s written mem with
  | zero =>
      cases hAfter
      have hStart : (written + 512 * 0) % 2 ^ 32 = written :=
        Nat.mod_eq_of_lt hWord
      rw [hStart]
      exact ⟨mem, [], hAt, rfl, rfl⟩
  | succ n ih =>
      rcases afterSectors_succ hAfter with ⟨s₁, hNext, hRest⟩
      have hFirst := hIn 0 (Nat.succ_pos n)
      rw [Nat.mul_zero, Nat.add_zero, ← hAt.pointer] at hFirst
      have hHere := hRoom 0 (Nat.succ_pos n)
      rw [Nat.mul_zero, Nat.add_zero] at hHere
      rcases hAt.turn hApart hHere hNext hFirst (fuel + n) with
        ⟨mem₁, hAt₁, hLoop, hStores⟩
      -- Only behind the last sector can the count wrap.
      have hCount (k : Nat) (hk : k < n) :
          (written + 512) % 2 ^ 32 + 512 * k =
            written + 512 * (k + 1) := by
        have hLater := hRoom (k + 1) (Nat.succ_lt_succ hk)
        exact count_next hLater hMax
      have hWord' : (written + 512) % 2 ^ 32 < 2 ^ 32 := by omega
      rcases ih hAt₁ hWord' hRest
          (fun k hk => by
            rw [hCount k hk]
            exact hRoom (k + 1) (Nat.succ_lt_succ hk))
          (fun k hk => by
            rw [hCount k hk]
            exact hIn (k + 1) (Nat.succ_lt_succ hk)) with
        ⟨mem', stores, hAt', hLoop', hStores'⟩
      have hEnd :
          ((written + 512) % 2 ^ 32 + 512 * n) % 2 ^ 32 =
            (written + 512 * (n + 1)) % 2 ^ 32 := by
        rw [Nat.mod_add_mod]
        congr 1
        omega
      rw [hEnd] at hAt' hLoop' hStores'
      refine ⟨mem', transferAddr s.p :: stores, hAt', ?_, ?_⟩
      · rw [← hLoop', ← hLoop]
        rfl
      · rw [List.cons_append, ← hStores', ← hStores]
        rfl

/-
  Where every sector that is read below the limit has a place
  in the buffer, nothing else is stored to.  The walk is `j`
  sectors from its start, whose count may have wrapped.
-/
theorem AtSector.stores_inside
    {start : ReadState}
    {j : Nat}
    (hPlaced :
      ∀ k, 512 * k < max → ReadsSector table start k →
        InBuffer buf maxLen
          (transferAddr (buf + UInt32.ofNat (512 * k))))
    (hApart : Apart fs buf maxLen)
    (hAfter : afterSectors table j start = some s)
    (hWritten : written = 512 * j % 2 ^ 32)
    (hAt : AtSector fs buf table s written mem) :
    ∀ t ∈ fat12ReadStores fs buf max fuel s.cluster written mem
        s.dev,
      InBuffer buf maxLen t := by
  induction fuel generalizing s written mem j with
  | zero =>
      intro t ht
      cases ht
  | succ fuel ih =>
      intro t ht
      by_cases hGoes : s.cluster < fatEnd ∧ written < max
      swap
      · rw [fat12ReadStores, if_neg hGoes] at ht
        cases ht
      by_cases hReads : s.Reads
      swap
      · rw [(hAt.fails hGoes hReads fuel).2] at ht
        cases ht
      -- The same count was reached by an earlier sector.
      have hEarlier : 512 * (j % 2 ^ 23) = written := by omega
      have hRead : ReadsSector table start (j % 2 ^ 23) := by
        rcases Nat.lt_or_ge j (2 ^ 23) with hLow | hHigh
        · rw [Nat.mod_eq_of_lt hLow]
          exact ⟨s, hAfter, hReads⟩
        · exact readsSector_of_after hAfter (by omega)
      have hHere :=
        hPlaced (j % 2 ^ 23) (by omega) hRead
      rw [hEarlier, ← hAt.pointer] at hHere
      cases hLink : fat12NextCluster table s.cluster with
      | none =>
          rw [(hAt.stuck hApart hGoes.2 hReads hLink hHere fuel).2]
            at ht
          rw [List.mem_singleton.mp ht]
          exact hHere
      | some next =>
          have hNext := ReadState.next_of_link hReads hLink
          rcases hAt.turn hApart hGoes.2 hNext hHere fuel with
            ⟨mem', hAt', _, hStores⟩
          rw [hStores] at ht
          rcases List.mem_cons.mp ht with rfl | hLater
          · exact hHere
          · refine ih (afterSectors_snoc hAfter hNext) ?_ hAt' t
              hLater
            rw [hWritten, Nat.mod_add_mod]
            congr 1

/- The count of a walk that succeeds within the buffer. -/
theorem AtSector.count
    (hAt : AtSector fs buf table s written mem)
    (hApart : Apart fs buf maxLen)
    (hFuel : written + 512 * fuel ≤ 2 ^ 32)
    (hInside :
      ∀ t ∈ fat12ReadStores fs buf max fuel s.cluster written mem
          s.dev,
        InBuffer buf maxLen t)
    {written' : Nat}
    {mem' : ByteMem}
    {dev' : BlockDev}
    (hRun :
      fat12ReadLoop fs buf max fuel s.cluster written mem s.dev =
        some (true, written', mem', dev')) :
    written' =
        written +
          512 *
            (visited table (sectorCount (max - written))
              s.cluster).length ∧
      (visited table (sectorCount (max - written))
          s.cluster).length < fuel ∧
        (afterSectors table
          (visited table (sectorCount (max - written))
            s.cluster).length s).isSome = true := by
  induction fuel generalizing s written mem with
  | zero => cases hRun
  | succ fuel ih =>
      by_cases hGoes : s.cluster < fatEnd ∧ written < max
      swap
      · rw [fat12ReadLoop, if_neg hGoes] at hRun
        cases hRun
        rw [visited_done hGoes]
        exact ⟨rfl, Nat.succ_pos fuel, rfl⟩
      by_cases hReads : s.Reads
      swap
      · rcases (hAt.fails hGoes hReads fuel).1 with ⟨dev, hFails⟩
        rw [hFails] at hRun
        cases hRun
      have hHere :=
        hInside _ (hAt.mem_stores hGoes.2 hReads fuel)
      cases hLink : fat12NextCluster table s.cluster with
      | none =>
          rw [(hAt.stuck hApart hGoes.2 hReads hLink hHere fuel).1]
            at hRun
          cases hRun
      | some next =>
          have hNext := ReadState.next_of_link hReads hLink
          rcases hAt.turn hApart hGoes.2 hNext hHere fuel with
            ⟨mem₁, hAt', hLoop, hStores⟩
          rw [hLoop] at hRun
          rw [hStores, List.forall_mem_cons] at hInside
          have hTurns : 0 < fuel := by
            rcases Nat.eq_zero_or_pos fuel with rfl | hPos
            · cases hRun
            · exact hPos
          have hWord : (written + 512) % 2 ^ 32 = written + 512 :=
            Nat.mod_eq_of_lt (by omega)
          rw [hWord] at hAt' hRun hInside
          rcases ih hAt' (by omega) hInside.2 hRun with
            ⟨hCount, hShort, hAfter⟩
          dsimp only at hCount hShort hAfter
          have hFirst : Packed12.get table s.cluster = next := by
            rw [fat12NextCluster, fatNextCluster_eq] at hLink
            split at hLink
            · exact Option.some.inj hLink
            · cases hLink
          rw [visited_next hGoes, hFirst,
            show max - min max (written + 512) =
              max - (written + 512) by omega, List.length_cons]
          refine ⟨by omega, Nat.succ_lt_succ hShort, ?_⟩
          rw [afterSectors, hNext]
          exact hAfter

end Run

------------------------------------------------------------
-- Places In The Buffer
------------------------------------------------------------

section Places

variable {buf maxLen : UInt32}
variable {k : Nat}

/- Where the sector at an offset of a buffer goes. -/
theorem transferAddr_add
    (buf : UInt32)
    (k : Nat) :
    transferAddr (buf + UInt32.ofNat (512 * k)) =
      (buf.toNat + 512 * k) / 65536 % 16 * 65536 +
        buf.toNat % 16 := by
  rw [transferAddr_eq, UInt32.toNat_add, UInt32.toNat_ofNat']
  omega

/- A sector in place is stored in the buffer. -/
theorem InPlace.inBuffer
    (hPlace : InPlace buf maxLen k) :
    InBuffer buf maxLen
      (transferAddr (buf + UInt32.ofNat (512 * k))) := by
  rcases hPlace with ⟨⟨hLow, hSegment⟩, hBelow, hFits⟩
  rw [InBuffer, transferAddr_add]
  omega

/-
  When all sectors up to one are stored in the buffer, that
  one is in place: the first one tells that the buffer starts
  a segment, and the first one past 1 MB would go to the
  start of the memory.
-/
theorem inPlace_of_inBuffer
    (hAll :
      ∀ j ≤ k,
        InBuffer buf maxLen
          (transferAddr (buf + UInt32.ofNat (512 * j)))) :
    InPlace buf maxLen k := by
  have hFirst := hAll 0 (Nat.zero_le k)
  have hHere := hAll k (Nat.le_refl k)
  rw [InBuffer, transferAddr_add] at hFirst hHere
  have hSegment : StartsSegment buf := by
    unfold StartsSegment
    omega
  have hBelow :
      buf.toNat < 16 ∨ buf.toNat + 512 * k < 2 ^ 20 := by
    by_contra hNot
    rw [not_or, Nat.not_lt, Nat.not_lt] at hNot
    have hPast :=
      hAll ((2 ^ 20 - buf.toNat + 511) / 512) (by omega)
    rw [InBuffer, transferAddr_add] at hPast
    have hLow := hSegment.1
    omega
  refine ⟨hSegment, hBelow, ?_⟩
  rcases hSegment with ⟨hLow, hZero⟩
  omega

end Places

------------------------------------------------------------
-- Reads Within The Buffer
------------------------------------------------------------

section Calls

variable {fs : Fat12Fs}
variable {name83 : List UInt8}
variable {buf max : UInt32}
variable {mem : ByteMem}
variable {slot : Nat}

/- A read that finds no file stores and reports nothing. -/
theorem readsWithin_of_absent
    (hAbsent :
      fs.ready = false ∨
        fat12FindEntry (fs.root mem) name83 = none) :
    ReadsWithin fs name83 buf max mem := by
  have hStores (fuel : Nat) :
      fat12FileStores fs name83 buf max.toNat mem fuel = [] := by
    unfold fat12FileStores
    rcases hAbsent with hOff | hNone
    · rw [hOff]
      rfl
    · rw [hNone]
      exact ite_self []
  have hRead :
      fat12ReadFile fs name83 buf max.toNat mem =
        some (⟨-1, none⟩, mem, fs) := by
    unfold fat12ReadFile
    rcases hAbsent with hOff | hNone
    · rw [hOff]
      rfl
    · rw [hNone]
      exact ite_self _
  refine ⟨fun fuel t ht => ?_, fun r mem' fs' hRun hRc => ?_⟩
  · rw [hStores] at ht
    cases ht
  · rw [hRead] at hRun
    cases hRun
    cases hRc

/- The loop before the first sector of a slot. -/
theorem atSector_first
    (fs : Fat12Fs)
    (mem : ByteMem)
    (slot : Nat)
    (buf : UInt32) :
    AtSector fs buf (fs.fat mem) (firstSector fs mem slot buf) 0
      mem :=
  ⟨(UInt32.add_zero buf).symm, fun _ _ _ => rfl⟩

/- The stores of a call lie in the buffer if and only if the
   sectors are in place. -/
theorem stores_inside_iff
    (hApart : Apart fs buf max)
    (hReady : fs.ready = true)
    (hFound : fat12FindEntry (fs.root mem) name83 = some slot) :
    (∀ fuel,
      ∀ t ∈ fat12FileStores fs name83 buf max.toNat mem fuel,
        InBuffer buf max t) ↔
      ∀ k, 512 * k < max.toNat →
        ReadsSector (fs.fat mem) (firstSector fs mem slot buf)
            k →
          InPlace buf max k := by
  have hAt := atSector_first fs mem slot buf
  have hMax := max.toNat_lt
  have hStores (fuel : Nat) :
      fat12FileStores fs name83 buf max.toNat mem fuel =
        fat12ReadStores fs buf max.toNat fuel
          (firstSector fs mem slot buf).cluster 0 mem
          (firstSector fs mem slot buf).dev := by
    rw [fat12FileStores, if_pos hReady, hFound]
    rfl
  constructor
  · intro hInside k
    induction k using Nat.strong_induction_on with
    | _ k ih =>
      intro hRoom hReads
      rcases hReads with ⟨s', hAfter, hReads⟩
      have hEarlier (j : Nat) (hj : j < k) :
          InBuffer buf max
            (transferAddr (buf + UInt32.ofNat (512 * j))) :=
        (ih j hj (by omega)
          (readsSector_of_after hAfter hj)).inBuffer
      have hCount : (0 + 512 * k) % 2 ^ 32 = 512 * k := by
        rw [Nat.zero_add, Nat.mod_eq_of_lt (hRoom.trans hMax)]
      rcases hAt.turns hApart (Nat.two_pow_pos 32) hAfter
          (fun j hj => by
            rw [Nat.zero_add]
            exact (Nat.mul_lt_mul_of_pos_left hj
              (by omega : 0 < 512)).trans hRoom)
          hMax.le
          (fun j hj => by
            rw [Nat.zero_add]
            exact hEarlier j hj) 1 with
        ⟨mem', stores, hAt', _, hTrace⟩
      rw [hCount] at hAt' hTrace
      have hStore :=
        hInside (1 + k) (transferAddr s'.p) (by
          rw [hStores, hTrace]
          exact List.mem_append_right _
            (hAt'.mem_stores hRoom hReads 0))
      rw [hAt'.pointer] at hStore
      refine inPlace_of_inBuffer fun j hj => ?_
      rcases Nat.lt_or_eq_of_le hj with hLt | rfl
      · exact hEarlier j hLt
      · exact hStore
  · intro hPlaced fuel
    rw [hStores]
    exact hAt.stores_inside
      (fun k hRoom hReads => (hPlaced k hRoom hReads).inBuffer)
      hApart (j := 0) rfl rfl

/- The count is cut to the size. -/
theorem ite_min
    (a b : Nat) :
    (if a > b then b else a) = min b a := by
  split <;> omega

/- What a successful call within its buffer reports. -/
theorem reported_of_inside
    (hApart : Apart fs buf max)
    (hReady : fs.ready = true)
    (hFound : fat12FindEntry (fs.root mem) name83 = some slot)
    (hInside :
      ∀ fuel,
        ∀ t ∈ fat12FileStores fs name83 buf max.toNat mem fuel,
          InBuffer buf max t)
    {r : FileRead}
    {mem' : ByteMem}
    {fs' : Fat12Fs}
    (hRun :
      fat12ReadFile fs name83 buf max.toNat mem =
        some (r, mem', fs'))
    (hCode : r.rc = 0) :
    r.outSize =
        some (min (slotSize (fs.root mem) slot)
          (chainLength fs mem slot max.toNat)) ∧
      (visited (fs.fat mem) (sectorCount max.toNat)
          (slotCluster (fs.root mem) slot)).length < readFuel ∧
        (afterSectors (fs.fat mem)
          (visited (fs.fat mem) (sectorCount max.toNat)
            (slotCluster (fs.root mem) slot)).length
          (firstSector fs mem slot buf)).isSome = true := by
  have hAt := atSector_first fs mem slot buf
  have hLoopInside := hInside readFuel
  rw [fat12FileStores, if_pos hReady, hFound] at hLoopInside
  rw [fat12ReadFile, if_pos hReady, hFound] at hRun
  dsimp only at hRun hLoopInside
  rcases hLoop :
    fat12ReadLoop fs buf max.toNat readFuel
      (slotCluster (fs.root mem) slot) 0 mem fs.dev with
    _ | ⟨ok, written, mem₁, dev₁⟩
  · rw [hLoop] at hRun
    cases hRun
  · rw [hLoop] at hRun
    cases ok with
    | false =>
        cases hRun
        cases hCode
    | true =>
        rcases hAt.count hApart (by simp [readFuel])
            hLoopInside hLoop with ⟨hCount, hShort, hAfter⟩
        rw [Nat.sub_zero, Nat.zero_add] at hCount
        rw [Nat.sub_zero] at hShort hAfter
        cases hRun
        refine ⟨?_, hShort, hAfter⟩
        have hLength :
            written = chainLength fs mem slot max.toNat :=
          hCount
        dsimp only
        rw [hLength, ite_min]

/- A chain that is read through the end of the buffer. -/
theorem reads_of_overcounts
    (hApart : Apart fs buf max)
    (hPlaced : Placed fs name83 buf max mem)
    (hOver : Overcounts fs name83 buf max mem) :
    ∃ slot mem' fs',
      fat12FindEntry (fs.root mem) name83 = some slot ∧
        fat12ReadFile fs name83 buf max.toNat mem =
          some
            (⟨0,
              some (min (slotSize (fs.root mem) slot)
                (512 * (max.toNat / 512 + 1)))⟩,
              mem', fs') ∧
          max.toNat < slotSize (fs.root mem) slot ∧
            max.toNat % 512 ≠ 0 := by
  rcases hOver with
    ⟨hReady, slot, hFound, hLong, hCut, hMax, hSome⟩
  obtain ⟨s', hAfter⟩ := Option.isSome_iff_exists.mp hSome
  have hAt := atSector_first fs mem slot buf
  have hRoom (k : Nat) (hk : k < max.toNat / 512 + 1) :
      512 * k < max.toNat := by
    omega
  have hFuel :
      readFuel =
        (readFuel - (max.toNat / 512 + 1) - 1 + 1) +
          (max.toNat / 512 + 1) := by
    unfold readFuel
    omega
  have hEnd :
      (0 + 512 * (max.toNat / 512 + 1)) % 2 ^ 32 =
        512 * (max.toNat / 512 + 1) := by
    omega
  rcases hAt.turns hApart (Nat.two_pow_pos 32) hAfter
      (fun k hk => by
        rw [Nat.zero_add]
        exact hRoom k hk)
      max.toNat_lt.le
      (fun k hk => by
        rw [Nat.zero_add]
        exact (hPlaced hReady slot hFound k (hRoom k hk)
          (readsSector_of_after hAfter hk)).inBuffer)
      (readFuel - (max.toNat / 512 + 1) - 1 + 1) with
    ⟨mem', _, hAt', hLoop, _⟩
  rw [← hFuel, hEnd] at hLoop
  have hDone :
      ¬ (s'.cluster < fatEnd ∧
        512 * (max.toNat / 512 + 1) < max.toNat) := by
    omega
  rw [fat12ReadLoop, if_neg hDone] at hLoop
  refine ⟨slot, mem', { fs with dev := s'.dev }, hFound, ?_,
    hLong, hCut⟩
  have hLoop' :
      fat12ReadLoop fs buf max.toNat readFuel
          (slotCluster (fs.root mem) slot) 0 mem fs.dev =
        some (true, 512 * (max.toNat / 512 + 1), mem', s'.dev) :=
    hLoop
  rw [fat12ReadFile, if_pos hReady, hFound]
  dsimp only
  rw [hLoop']
  dsimp only
  rw [ite_min]

end Calls

/-
  A read keeps to its buffer and reports no more than it
  holds if and only if every sector that is read is in place
  and a file longer than the buffer is not read through its
  end.
-/
theorem readsWithin_iff
    {fs : Fat12Fs}
    {buf max : UInt32}
    (hApart : Apart fs buf max)
    (name83 : List UInt8)
    (mem : ByteMem) :
    ReadsWithin fs name83 buf max mem ↔
      Placed fs name83 buf max mem ∧
        ¬ Overcounts fs name83 buf max mem := by
  by_cases hAbsent :
      fs.ready = false ∨
        fat12FindEntry (fs.root mem) name83 = none
  · refine iff_of_true (readsWithin_of_absent hAbsent) ⟨?_, ?_⟩
    · intro hReady slot hFound
      rcases hAbsent with hOff | hNone
      · rw [hOff] at hReady
        cases hReady
      · rw [hNone] at hFound
        cases hFound
    · rintro ⟨hReady, slot, hFound, _⟩
      rcases hAbsent with hOff | hNone
      · rw [hOff] at hReady
        cases hReady
      · rw [hNone] at hFound
        cases hFound
  rw [not_or, Bool.not_eq_false] at hAbsent
  rcases hAbsent with ⟨hReady, hFind⟩
  obtain ⟨slot, hFound⟩ := Option.ne_none_iff_exists'.mp hFind
  have hStores := stores_inside_iff hApart hReady hFound
  have hPlaced :
      Placed fs name83 buf max mem ↔
        ∀ k, 512 * k < max.toNat →
          ReadsSector (fs.fat mem)
              (firstSector fs mem slot buf) k →
            InPlace buf max k := by
    constructor
    · exact fun hAll => hAll hReady slot hFound
    · intro hAll _ slot' hFound'
      rw [hFound] at hFound'
      cases hFound'
      exact hAll
  constructor
  · intro hWithin
    have hPlace := hPlaced.mpr (hStores.mp hWithin.inside)
    refine ⟨hPlace, fun hOver => ?_⟩
    rcases reads_of_overcounts hApart hPlace hOver with
      ⟨slot, mem', fs', hFound, hRun, hLong, hCut⟩
    rcases hWithin.reported _ mem' fs' hRun rfl with
      ⟨_, hSame, hSize⟩
    rw [hFound] at hSame
    cases hSame
    have hCount := Option.some.inj hSize
    omega
  · rintro ⟨hPlace, hNotOver⟩
    have hInside := hStores.mpr (hPlaced.mp hPlace)
    refine ⟨hInside, fun r mem' fs' hRun hRc => ?_⟩
    rcases reported_of_inside hApart hReady hFound hInside hRun
      hRc with ⟨hSize, hShort, hAfter⟩
    refine ⟨slot, hFound, ?_⟩
    have hCount :
        (visited (fs.fat mem) (sectorCount max.toNat)
            (slotCluster (fs.root mem) slot)).length ≤
          sectorCount max.toNat :=
      Linked.path_length_le _ _
    have hCut :
        slotSize (fs.root mem) slot ≤ max.toNat ∨
          chainLength fs mem slot max.toNat ≤ max.toNat := by
      by_contra hNot
      rw [not_or, Nat.not_le, Nat.not_le, chainLength] at hNot
      refine hNotOver ⟨hReady, slot, hFound, hNot.1, ?_⟩
      generalize
        (visited (fs.fat mem) (sectorCount max.toNat)
          (slotCluster (fs.root mem) slot)).length = n
        at hNot hCount hShort hAfter
      unfold sectorCount at hCount
      unfold readFuel at hShort
      have hLast : n = max.toNat / 512 + 1 := by omega
      rw [hLast] at hAfter
      exact ⟨by omega, by omega, hAfter⟩
    rw [hSize]
    congr 1
    omega

/- A file of 600 bytes from cluster 2 on, in a mounted system. -/
def longFile : List UInt8 :=
  List.replicate 8 0x20 ++ [0x41, 0x2E, 0x42]

def mountedFs : Fat12Fs where
  addr := 0x80000
  dev := blockDevInit (Device.ofImage zeros) 0
  ready := true

def mountedMemory : ByteMem :=
  entryMemory mountedFs longFile 2 600

theorem mountedMemory_found :
    fat12FindEntry (mountedFs.root mountedMemory) longFile =
      some 0 := by
  rw [mountedMemory, root_entryMemory]
  exact fatFindEntry_entryRoot rfl (by decide) (by decide) 2 600

/-
  The 508 bytes of a boot metadata structure, at the start of
  a segment: the first sector overruns them.
-/
theorem not_readsWithin_meta :
    ¬ ReadsWithin mountedFs longFile 0x30000 508
      mountedMemory := by
  intro hWithin
  have hApart : Apart mountedFs 0x30000 508 := Or.inl (by decide)
  have hCluster :
      slotCluster (mountedFs.root mountedMemory) 0 = 2 := by
    rw [mountedMemory, root_entryMemory]
    exact FatPut.slotCluster_entryRoot (by omega)
  have hReads :
      ReadsSector (mountedFs.fat mountedMemory)
        (firstSector mountedFs mountedMemory 0 0x30000) 0 := by
    refine ⟨_, rfl, ?_⟩
    rw [firstSector, hCluster]
    refine ⟨by decide, by decide, ?_⟩
    have hDev : mountedFs.dev.Ready :=
      blockDevInit_ready (Device.ofImage_reliable zeros) 0
    dsimp only
    rw [clusterRead, if_neg (by omega)]
    rw [sectorRead_ready hDev (show 65 + (2 - 2) < 9216 by omega)]
    rfl
  have hPlace :=
    (stores_inside_iff hApart rfl mountedMemory_found).mp
      hWithin.inside 0 (by decide) hReads
  exact absurd hPlace.2.2 (by decide)

/- With room for two sectors, where both are in place. -/
theorem readsWithin_iff_segment :
    ReadsWithin mountedFs longFile 0x30000 1024 mountedMemory ↔
      Placed mountedFs longFile 0x30000 1024 mountedMemory ∧
        ¬ Overcounts mountedFs longFile 0x30000 1024
          mountedMemory :=
  readsWithin_iff (Or.inl (by decide)) longFile mountedMemory

end Storage

end AsmOS
