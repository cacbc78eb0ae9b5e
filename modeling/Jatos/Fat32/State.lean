/-
# The driver's memory

`struct FAT32DriverState` of `src/header/filesystem/fat32.h` is packed: the 512
words of `fat_table`, then the table `dir_table_buf`, then `cluster_buf`.
`State.mem` is the memory from its first word on, so `cluster_map[i]` is word
`i` whatever `i` is: from 512 on it reads `dir_table_buf`, from 1024 on
`cluster_buf`, and from 1536 on whatever the linker put there.  Addresses have
32 bits, so indices count modulo `2 ^ 30`.

`State.stray` is a ghost: it is raised by the first use of an index that is no
entry of the table, and nothing reads it.
-/

import Jatos.Fat32.Layout
import Mathlib.Logic.Function.Basic

namespace Jatos
namespace Fat32

open Packed

/-- The disk, the memory from `driver_state` on, and the ghost of the indices. -/
structure State where
  disk : Disk
  mem : ℕ → UInt32
  stray : Bool

/-- The word that `cluster_map[i]` names. -/
def mapWord (i : ℕ) : ℕ := i % 2 ^ 30

namespace State

/-- An index is used on `cluster_map`. -/
def touch (s : State) (i : ℕ) : State :=
  if i < CLUSTER_MAP_SIZE then s else { s with stray := true }

/-- `cluster_map[i]`. -/
def clusterMap (s : State) (i : ℕ) : UInt32 := s.mem (mapWord i)

/-- `cluster_map[i] = v`. -/
def setClusterMap (s : State) (i : ℕ) (v : UInt32) : State :=
  { s.touch i with mem := Function.update s.mem (mapWord i) v }

/-- The bytes of `fat_table`. -/
def fatTable (s : State) : Cluster := wordsLayout fun i => s.mem i

/-- `dir_table_buf`. -/
def dirTableBuf (s : State) : DirectoryTable :=
  tableLayout.symm (wordsLayout fun i => s.mem (512 + i))

/-- Fill the 512 words from word `o` on with the bytes `b`. -/
def fill (s : State) (o : ℕ) (b : Cluster) : State :=
  { s with mem := fun i =>
      if h : o ≤ i ∧ i < o + 512 then wordsLayout.symm b ⟨i - o, by omega⟩ else s.mem i }

/-- `dir_table_buf = t`. -/
def setDirTableBuf (s : State) (t : DirectoryTable) : State := s.fill 512 (tableLayout t)

/-- `write_clusters(data, cluster, 1)`. -/
def writeCluster (s : State) (cluster : ℕ) (data : Cluster) : State :=
  { s with disk := writeClusters s.disk cluster data }

/-- `write_clusters(&driver_state.fat_table, FAT_CLUSTER_NUMBER, 1)`. -/
def writeFat (s : State) : State := s.writeCluster FAT_CLUSTER_NUMBER s.fatTable

/-- What cluster `c` holds on disk. -/
def cluster (s : State) (c : ℕ) : Cluster := readClusters s.disk c

/-- What cluster `c` holds on disk, read as a directory table. -/
def table (s : State) (c : ℕ) : DirectoryTable := tableLayout.symm (s.cluster c)

/-! ### Indices of the table -/

variable {s t : State} {i j : ℕ}

/-- Naming a cell of the table leaves the state alone. -/
theorem touch_of_lt (hi : i < 512) : s.touch i = s := if_pos hi

/-- Naming a cell past the table is noted. -/
theorem stray_touch_of_le (hi : 512 ≤ i) : (s.touch i).stray = true := by
  rw [touch, if_neg (Nat.not_lt.2 hi)]

/-- Naming a cell leaves the disk alone. -/
@[simp] theorem touch_disk : (s.touch i).disk = s.disk := by
  unfold touch; split_ifs <;> rfl

/-- Naming a cell leaves the driver's memory alone. -/
@[simp] theorem touch_mem : (s.touch i).mem = s.mem := by
  unfold touch; split_ifs <;> rfl

/-- The ghost stays raised. -/
theorem stray_touch (h : s.stray = true) : (s.touch i).stray = true := by
  unfold touch; split_ifs
  · exact h
  · rfl

/-- A cell of the table is read from the driver's memory. -/
theorem clusterMap_of_lt (hi : i < 512) : s.clusterMap i = s.mem i := by
  rw [clusterMap, mapWord, Nat.mod_eq_of_lt (by omega)]

/-- A cell of the table is stored into the driver's memory. -/
theorem setClusterMap_of_lt (hi : i < 512) (v : UInt32) :
    s.setClusterMap i v = { s with mem := Function.update s.mem i v } := by
  rw [setClusterMap, touch_of_lt hi, mapWord, Nat.mod_eq_of_lt (by omega)]

/-- A cell past the table that was noted stays noted. -/
theorem stray_setClusterMap {v : UInt32} (h : s.stray = true) :
    (s.setClusterMap i v).stray = true :=
  stray_touch (s := s) h

/-! ### The members of `driver_state` -/

/-- A cluster filled in leaves the words before it alone. -/
theorem fill_mem_of_lt {o : ℕ} (b : Cluster) (hi : i < o) : (s.fill o b).mem i = s.mem i :=
  dif_neg (by omega)

/-- A word of the cluster filled in is the word of its bytes. -/
theorem fill_mem_of_mem {o : ℕ} (b : Cluster) (hi : o ≤ i ∧ i < o + 512) :
    (s.fill o b).mem i = wordsLayout.symm b ⟨i - o, by omega⟩ :=
  dif_pos hi

/-- The filled words read back as the bytes. -/
theorem wordsLayout_fill (o : ℕ) (b : Cluster) :
    wordsLayout (fun i => (s.fill o b).mem (o + i)) = b := by
  rw [← Equiv.eq_symm_apply]
  funext i
  simp only [fill]
  rw [dif_pos (by omega)]
  exact congrArg _ (Fin.ext (by simp))

/-- The directory table in memory is the one that was read. -/
@[simp] theorem dirTableBuf_fill (b : Cluster) :
    (s.fill 512 b).dirTableBuf = tableLayout.symm b := by
  rw [dirTableBuf, wordsLayout_fill]

/-- The directory table in memory is the one that was set. -/
@[simp] theorem dirTableBuf_setDirTableBuf (x : DirectoryTable) :
    (s.setDirTableBuf x).dirTableBuf = x := by
  rw [setDirTableBuf, dirTableBuf_fill, Equiv.symm_apply_apply]

/-- Setting the table in memory leaves the disk alone. -/
@[simp] theorem setDirTableBuf_disk (x : DirectoryTable) : (s.setDirTableBuf x).disk = s.disk := rfl

/-- Setting the table in memory leaves the allocation table alone. -/
theorem setDirTableBuf_mem_of_lt (x : DirectoryTable) (hi : i < 512) :
    (s.setDirTableBuf x).mem i = s.mem i :=
  fill_mem_of_lt _ hi

/-- `fat_table` is the first 512 words. -/
theorem fatTable_congr (h : ∀ i < 512, s.mem i = t.mem i) : s.fatTable = t.fatTable :=
  congrArg wordsLayout (funext fun i => h i i.isLt)

/-- `dir_table_buf` is the next 512 words. -/
theorem dirTableBuf_congr (h : ∀ i, 512 ≤ i → i < 1024 → s.mem i = t.mem i) :
    s.dirTableBuf = t.dirTableBuf :=
  congrArg (fun b => tableLayout.symm (wordsLayout b))
    (funext fun i => h _ (by omega) (by omega))

/-- A cell of the allocation table is no part of the directory table in memory. -/
theorem dirTableBuf_update (hi : i < 512) (v : UInt32) :
    State.dirTableBuf { s with mem := Function.update s.mem i v } = s.dirTableBuf :=
  dirTableBuf_congr fun _ hj _ => Function.update_of_ne (by omega) _ _

/-- What `fat_table` holds is what its bytes say. -/
theorem fatTable_symm (s : State) (i : Fin 512) : wordsLayout.symm s.fatTable i = s.mem i := by
  rw [fatTable, Equiv.symm_apply_apply]

/-! ### Clusters -/

/-- Writing a cluster leaves the driver's memory alone. -/
@[simp] theorem writeCluster_mem (c : ℕ) (b : Cluster) : (s.writeCluster c b).mem = s.mem := rfl

/-- Writing a cluster changes that cluster of the disk. -/
@[simp] theorem writeCluster_disk (c : ℕ) (b : Cluster) :
    (s.writeCluster c b).disk = writeClusters s.disk c b := rfl

/-- Writing the allocation table leaves the driver's memory alone. -/
@[simp] theorem writeFat_mem : s.writeFat.mem = s.mem := rfl

/-- Writing a cluster leaves the directory table in memory alone. -/
@[simp] theorem dirTableBuf_writeCluster (c : ℕ) (b : Cluster) :
    (s.writeCluster c b).dirTableBuf = s.dirTableBuf := rfl

/-- A written cluster reads back. -/
@[simp] theorem cluster_writeCluster_self (c : ℕ) (b : Cluster) :
    (s.writeCluster c b).cluster c = b :=
  readClusters_writeClusters_self _ _ _

/-- A written cluster leaves the others alone. -/
theorem cluster_writeCluster_ne {c d : ℕ} (b : Cluster) (hc : c < 512) (hd : d < 512)
    (h : d ≠ c) : (s.writeCluster c b).cluster d = s.cluster d :=
  readClusters_writeClusters_ne _ _ hc hd h

/-- Writing the allocation table leaves every other cluster alone. -/
theorem cluster_writeFat {d : ℕ} (hd : d < 512) (h : d ≠ 1) :
    s.writeFat.cluster d = s.cluster d :=
  cluster_writeCluster_ne _ (by decide : 1 < 512) hd h

/-- The clusters depend on the disk only. -/
theorem cluster_congr (h : s.disk = t.disk) (c : ℕ) : s.cluster c = t.cluster c := by
  rw [cluster, cluster, h]

/-- A directory table depends on its cluster only. -/
theorem table_congr {c d : ℕ} (h : s.cluster c = t.cluster d) : s.table c = t.table d := by
  rw [table, table, h]

/-- A stored table reads back. -/
theorem table_of_cluster {c : ℕ} {x : DirectoryTable} (h : s.cluster c = tableLayout x) :
    s.table c = x := by
  rw [table, h, Equiv.symm_apply_apply]

end State

end Fat32
end Jatos
