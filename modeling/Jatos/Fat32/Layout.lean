/-
# The volume on disk

`src/disk.c`, `src/header/driver/disk.h` and the data structures of
`src/header/filesystem/fat32.h`.

The disk is an array of 512-byte blocks addressed by a 28-bit LBA, and cluster
`c` is the four blocks from `4 c` on.  `cluster_to_lba` multiplies in 32 bits
and `read_blocks` and `write_blocks` send 28 of them to the drive, so cluster
numbers count modulo `2 ^ 26` (`readClusters_writeClusters`).

| structure | bytes | members |
| --- | ---: | --- |
| `FAT32DirectoryEntry` | 32 | name, ext, attributes, times, cluster, size |
| `FAT32DirectoryTable` | 2048 | 64 entries |
| `FAT32FileAllocationTable` | 2048 | 512 little-endian words |

All three are packed, so a cluster is any of them: `entryLayout`, `tableLayout`
and `wordsLayout` are bijections with byte strings.
-/

import Jatos.Foundation.Packed
import Mathlib.Data.List.OfFn

namespace Jatos
namespace Fat32

open Packed

/-- `BLOCK_SIZE` bytes. -/
abbrev Block := Bytes 512

/-- `CLUSTER_SIZE = BLOCK_SIZE * CLUSTER_BLOCK_COUNT` bytes. -/
abbrev Cluster := Bytes 2048

/-- The drive, by block address. -/
abbrev Disk := ℕ → Block

/-- The entries of `cluster_map`. -/
abbrev CLUSTER_MAP_SIZE : ℕ := 512

/-- Bytes of a cluster: four blocks of 512. -/
abbrev CLUSTER_SIZE : ℕ := 2048

/-- The mark in the first cell of the table. -/
abbrev CLUSTER_0_VALUE : UInt32 := 0x0FFFFFF0

/-- The mark in the second cell of the table. -/
abbrev CLUSTER_1_VALUE : UInt32 := 0x0FFFFFFF

/-- The mark of the last cluster of a file. -/
abbrev FAT32_FAT_END_OF_FILE : UInt32 := 0x0FFFFFFF

/-- The mark of a cluster that nothing uses. -/
abbrev FAT32_FAT_EMPTY_ENTRY : UInt32 := 0

/-- The cluster that holds the table. -/
abbrev FAT_CLUSTER_NUMBER : ℕ := 1

/-- The cluster that holds the root folder. -/
abbrev ROOT_CLUSTER_NUMBER : ℕ := 2

/-- `0b10101010`, the mark of a used directory entry. -/
abbrev UATTR_NOT_EMPTY : UInt8 := 0xAA

/-- The attribute of a file. -/
abbrev ATR_FILE : UInt8 := 0

/-- `0b00010000`, also `ATTR_SUBDIRECTORY`. -/
abbrev ATR_DIRECTORY : UInt8 := 0x10

/-! ### Blocks and clusters -/

/-- The drive takes 28 bits of the block address. -/
def lba28 (logicalBlockAddress : ℕ) : ℕ := logicalBlockAddress % 2 ^ 28

/-- `read_blocks`: as many blocks as asked for, from an address on. -/
def readBlocks (disk : Disk) (logicalBlockAddress blockCount : ℕ) : Fin blockCount → Block :=
  fun i => disk (lba28 logicalBlockAddress + i)

/-- `write_blocks`: as many blocks as given, from an address on. -/
def writeBlocks (disk : Disk) (logicalBlockAddress : ℕ) {blockCount : ℕ}
    (data : Fin blockCount → Block) : Disk := fun b =>
  if h : lba28 logicalBlockAddress ≤ b ∧ b < lba28 logicalBlockAddress + blockCount then
    data ⟨b - lba28 logicalBlockAddress, by omega⟩
  else disk b

/-- A cluster is four blocks in a row. -/
def clusterLayout : Layout (Fin 4 → Block) 2048 := array 4 (bytes 512)

/-- `cluster * CLUSTER_BLOCK_COUNT`, in 32 bits. -/
def clusterToLba (cluster : ℕ) : ℕ := cluster * 4 % 2 ^ 32

/-- `read_clusters` of one cluster, the only count that the sources pass. -/
def readClusters (disk : Disk) (cluster : ℕ) : Cluster :=
  clusterLayout (readBlocks disk (clusterToLba cluster) 4)

/-- `write_clusters` of one cluster. -/
def writeClusters (disk : Disk) (cluster : ℕ) (data : Cluster) : Disk :=
  writeBlocks disk (clusterToLba cluster) (clusterLayout.symm data)

/-- The drive sees the low 28 bits of a cluster's address. -/
theorem lba28_clusterToLba (c : ℕ) : lba28 (clusterToLba c) = 4 * (c % 2 ^ 26) := by
  unfold lba28 clusterToLba
  omega

/-- **A cluster reads as last written.**  Two cluster numbers name one cluster
exactly when they agree modulo `2 ^ 26`. -/
theorem readClusters_writeClusters (disk : Disk) (c c' : ℕ) (data : Cluster) :
    readClusters (writeClusters disk c data) c' =
      if c' % 2 ^ 26 = c % 2 ^ 26 then data else readClusters disk c' := by
  unfold readClusters
  split_ifs with h
  · rw [← Equiv.eq_symm_apply]
    funext i
    simp only [readBlocks, writeClusters, writeBlocks, lba28_clusterToLba]
    rw [dif_pos (by omega)]
    exact congrArg _ (Fin.ext (by simp only; omega))
  · refine congrArg _ (funext fun i => ?_)
    simp only [readBlocks, writeClusters, writeBlocks, lba28_clusterToLba]
    rw [dif_neg (by omega)]

/-- A cluster reads back as it was written. -/
@[simp] theorem readClusters_writeClusters_self (disk : Disk) (c : ℕ) (data : Cluster) :
    readClusters (writeClusters disk c data) c = data := by
  simp [readClusters_writeClusters]

/-- Two numbers of one cluster. -/
theorem readClusters_congr (disk : Disk) {c c' : ℕ} (h : c % 2 ^ 26 = c' % 2 ^ 26) :
    readClusters disk c = readClusters disk c' := by
  unfold readClusters readBlocks
  rw [lba28_clusterToLba, lba28_clusterToLba, h]

/-- Only the low 26 bits of a cluster's number decide where it is written. -/
theorem writeClusters_congr (disk : Disk) {c c' : ℕ} (h : c % 2 ^ 26 = c' % 2 ^ 26)
    (data : Cluster) : writeClusters disk c data = writeClusters disk c' data := by
  have hlba : lba28 (clusterToLba c) = lba28 (clusterToLba c') := by
    rw [lba28_clusterToLba, lba28_clusterToLba, h]
  unfold writeClusters writeBlocks
  simp only [hlba]

/-- Writing a cluster of the volume leaves the others alone. -/
theorem readClusters_writeClusters_ne (disk : Disk) {c c' : ℕ} (data : Cluster)
    (hc : c < 512) (hc' : c' < 512) (h : c' ≠ c) :
    readClusters (writeClusters disk c data) c' = readClusters disk c' := by
  rw [readClusters_writeClusters, if_neg (by omega)]

/-- A write to another cluster leaves the boot sector alone. -/
theorem writeClusters_boot (disk : Disk) {c : ℕ} (data : Cluster) (hc : c % 2 ^ 26 ≠ 0) :
    writeClusters disk c data 0 = disk 0 := by
  simp only [writeClusters, writeBlocks, lba28_clusterToLba]
  rw [dif_neg (by omega)]

/-- Writing a cluster twice leaves what was written last. -/
theorem writeClusters_writeClusters (disk : Disk) (c : ℕ) (data data' : Cluster) :
    writeClusters (writeClusters disk c data) c data' = writeClusters disk c data' := by
  funext b
  simp only [writeClusters, writeBlocks]
  split_ifs <;> rfl

/-- Writing back what was read changes nothing. -/
theorem writeClusters_readClusters (disk : Disk) (c : ℕ) :
    writeClusters disk c (readClusters disk c) = disk := by
  funext b
  simp only [writeClusters, readClusters, Equiv.symm_apply_apply, writeBlocks, readBlocks]
  split_ifs
  · exact congrArg disk (by omega)
  · rfl

/-! ### Directory entries and tables -/

/-- `struct FAT32DirectoryEntry`; `attr` is its member `attribute`. -/
structure DirectoryEntry where
  name : Bytes 8
  ext : Bytes 3
  attr : UInt8
  userAttribute : UInt8
  undelete : UInt8
  createTime : UInt16
  createDate : UInt16
  accessDate : UInt16
  clusterHigh : UInt16
  modifiedTime : UInt16
  modifiedDate : UInt16
  clusterLow : UInt16
  filesize : UInt32

/-- A table has a slot 0. -/
instance slots_neZero : NeZero 64 := ⟨by decide⟩

/-- `struct FAT32DirectoryTable`. -/
abbrev DirectoryTable := Fin 64 → DirectoryEntry

/-- The members of an entry, in the order of the struct. -/
def entryMembers : DirectoryEntry ≃ Bytes 8 × Bytes 3 × UInt8 × UInt8 × UInt8 × UInt16 × UInt16 ×
    UInt16 × UInt16 × UInt16 × UInt16 × UInt16 × UInt32 where
  toFun e := (e.name, e.ext, e.attr, e.userAttribute, e.undelete, e.createTime, e.createDate,
    e.accessDate, e.clusterHigh, e.modifiedTime, e.modifiedDate, e.clusterLow, e.filesize)
  invFun := fun (n, x, a, u, d, ct, cd, ad, ch, mt, md, cl, f) =>
    ⟨n, x, a, u, d, ct, cd, ad, ch, mt, md, cl, f⟩
  left_inv _ := rfl
  right_inv _ := rfl

/-- The 32 bytes of an entry. -/
def entryLayout : Layout DirectoryEntry 32 :=
  entryMembers.trans <| pair (bytes 8) <| pair (bytes 3) <| pair u8 <| pair u8 <| pair u8 <|
    pair u16 <| pair u16 <| pair u16 <| pair u16 <| pair u16 <| pair u16 <| pair u16 u32

/-- The 2048 bytes of a directory table. -/
def tableLayout : Layout DirectoryTable 2048 := array 64 entryLayout

/-- The 2048 bytes of 512 words, as `cluster_map` holds them. -/
def wordsLayout : Layout (Fin 512 → UInt32) 2048 := array 512 u32

/-- The table that `memset(.., 0, 32)` leaves in a slot. -/
def DirectoryEntry.zero : DirectoryEntry :=
  ⟨0, 0, 0, 0, 0, 0, 0, 0, 0, 0, 0, 0, 0⟩

/-- `cluster_low | (cluster_high << 16)`. -/
def DirectoryEntry.cluster (e : DirectoryEntry) : ℕ :=
  e.clusterLow.toNat ||| (e.clusterHigh.toNat <<< 16)

/-- `user_attribute == UATTR_NOT_EMPTY`. -/
def DirectoryEntry.Used (e : DirectoryEntry) : Prop := e.userAttribute = UATTR_NOT_EMPTY

instance : DecidablePred DirectoryEntry.Used := fun e =>
  inferInstanceAs (Decidable (e.userAttribute = UATTR_NOT_EMPTY))

/-- `new_entry.cluster_high = (i >> 16) & 0xFFFF`. -/
def clusterHighOf (i : ℕ) : UInt16 := UInt16.ofNat ((i >>> 16) &&& 0xFFFF)

/-- `new_entry.cluster_low = i & 0xFFFF`. -/
def clusterLowOf (i : ℕ) : UInt16 := UInt16.ofNat (i &&& 0xFFFF)

/-- An entry whose two halves were stored from `i` points to cluster `i`. -/
theorem DirectoryEntry.cluster_eq {e : DirectoryEntry} {i : ℕ} (hi : i < 2 ^ 16)
    (hh : e.clusterHigh = clusterHighOf i) (hl : e.clusterLow = clusterLowOf i) :
    e.cluster = i := by
  have h₁ : i &&& 65535 = i := by
    rw [show 65535 = 2 ^ 16 - 1 by rfl, Nat.and_two_pow_sub_one_eq_mod, Nat.mod_eq_of_lt hi]
  have h₂ : i >>> 16 = 0 := by
    rw [Nat.shiftRight_eq_div_pow, Nat.div_eq_of_lt hi]
  simp [cluster, hh, hl, clusterHighOf, clusterLowOf, h₁, h₂]
  omega

/-! ### String functions -/

/-- `memcmp` of `src/stdlib/string.c`: the order of the first bytes that
differ. -/
def memcmp : List UInt8 → List UInt8 → ℤ
  | a :: s, b :: t => if a < b then -1 else if a > b then 1 else memcmp s t
  | _, _ => 0

/-- `memcmp(s1, s2, n) == 0` compares for equality. -/
theorem memcmp_eq_zero {s t : List UInt8} (h : s.length = t.length) :
    memcmp s t = 0 ↔ s = t := by
  induction s generalizing t with
  | nil => simp [memcmp, List.length_eq_zero_iff.1 h.symm]
  | cons a s ih =>
      cases t with
      | nil => simp at h
      | cons b t =>
          simp only [List.length_cons, Nat.add_right_cancel_iff] at h
          rw [memcmp, List.cons.injEq, ← ih h]
          split_ifs with h₁ h₂
          · simpa using fun hab => absurd hab (UInt8.ne_of_lt h₁)
          · simpa using fun hab => absurd hab.symm (UInt8.ne_of_lt h₂)
          · have hab : a = b := UInt8.le_antisymm (UInt8.not_lt.1 h₂) (UInt8.not_lt.1 h₁)
            simp [hab]

/-- `memcmp(s1, s2, n) == 0` on arrays of `n` bytes. -/
def sameBytes {n : ℕ} (s t : Bytes n) : Bool := memcmp (List.ofFn s) (List.ofFn t) = 0

/-- `memcmp` answers 0 if and only if the two texts are the same. -/
@[simp] theorem sameBytes_iff {n : ℕ} (s t : Bytes n) : sameBytes s t = true ↔ s = t := by
  rw [sameBytes, decide_eq_true_iff, memcmp_eq_zero (by simp), List.ofFn_inj]

/-- `memcmp` answers something else if and only if the two texts differ. -/
@[simp] theorem sameBytes_eq_false {n : ℕ} (s t : Bytes n) : sameBytes s t = false ↔ s ≠ t := by
  rw [← Bool.not_eq_true, sameBytes_iff]

end Fat32
end Jatos
