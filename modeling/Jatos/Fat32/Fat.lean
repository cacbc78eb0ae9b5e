/-
# The allocation table

The entries of `cluster_map` as links, and the list that `write` allocates
from.  An entry that is not `FAT32_FAT_END_OF_FILE` is the index of the next
cluster, whatever its value: this is how the loops of `read` and `delete` use it
(`fatNext`).  `linkUp F` is the table after the file loop has linked the free
clusters `F`: every cluster points to the next one, a link stored one passage
after its cluster, and the last one ends the chain (`chain_linkUp`).
-/

import Jatos.Foundation.Linked
import Jatos.Fat32.Driver

namespace Jatos
namespace Fat32

open Linked

/-- The cluster after `c`, as the loops of `read` and `delete` find it. -/
def fatNext (mem : ℕ → UInt32) (c : ℕ) : Option ℕ :=
  if mem c = FAT32_FAT_END_OF_FILE then none else some (mem c).toNat

/-- A cell leads nowhere if and only if it marks the end of a file. -/
theorem fatNext_eq_none {mem : ℕ → UInt32} {a : ℕ} :
    fatNext mem a = none ↔ mem a = FAT32_FAT_END_OF_FILE := by
  simp [fatNext]

/-- A cell leads on to the cluster it names if it does not mark the end of a file. -/
theorem fatNext_eq_some {mem : ℕ → UInt32} {a b : ℕ} :
    fatNext mem a = some b ↔ mem a ≠ FAT32_FAT_END_OF_FILE ∧ (mem a).toNat = b := by
  simp [fatNext]

/-- The clusters of a file, in order. -/
abbrev FatChain (mem : ℕ → UInt32) : ℕ → List ℕ → Prop := Chain (fatNext mem)

/-- The indices of the table from `ROOT_CLUSTER_NUMBER` on. -/
def tableIndices : List ℕ := List.range' ROOT_CLUSTER_NUMBER 510

/-- The indices that `write` scans are those from 2 to 511. -/
theorem mem_tableIndices {c : ℕ} : c ∈ tableIndices ↔ 2 ≤ c ∧ c < 512 := by
  rw [tableIndices, List.mem_range'_1]

/-- Both scans of `write` go through the table, and then past its end. -/
theorem scanIndices_eq : scanIndices = tableIndices ++ List.range' CLUSTER_MAP_SIZE 1536 := by
  rw [scanIndices, tableIndices]
  exact (List.range'_append_1 (s := 2) (m := 510) (n := 1536)).symm

/-- The EMPTY entries of the table from `ROOT_CLUSTER_NUMBER` on. -/
def freeList (mem : ℕ → UInt32) : List ℕ :=
  tableIndices.filter fun i => mem i = FAT32_FAT_EMPTY_ENTRY

/-- A cluster is free if it is scanned and its cell is empty. -/
theorem mem_freeList {mem : ℕ → UInt32} {c : ℕ} :
    c ∈ freeList mem ↔ (2 ≤ c ∧ c < 512) ∧ mem c = FAT32_FAT_EMPTY_ENTRY := by
  rw [freeList, List.mem_filter, mem_tableIndices, decide_eq_true_iff]

/-- No index is scanned twice. -/
theorem tableIndices_nodup : tableIndices.Nodup := List.nodup_range'

/-- No cluster is free twice. -/
theorem freeList_nodup (mem : ℕ → UInt32) : (freeList mem).Nodup :=
  List.Nodup.filter _ tableIndices_nodup

/-- Only the table's own words decide which clusters are free. -/
theorem freeList_congr {mem mem' : ℕ → UInt32} (h : ∀ c < 512, mem c = mem' c) :
    freeList mem = freeList mem' :=
  List.filter_congr fun c hc => by rw [h c (mem_tableIndices.1 hc).2]

/-- The mark of an empty cell is not the mark of an end. -/
theorem empty_ne_eof : FAT32_FAT_EMPTY_ENTRY ≠ FAT32_FAT_END_OF_FILE := by decide

/-- The links of a chain are entries of the table. -/
theorem FatChain.congr {mem mem' : ℕ → UInt32} {a : ℕ} {l : List ℕ} (h : FatChain mem a l)
    (hl : ∀ c ∈ l, mem' c = mem c) : FatChain mem' a l :=
  Chain.congr h fun c hc => by rw [fatNext, fatNext, hl c hc]

/-- No cell of a chain of clusters in range is EMPTY: cluster 0 follows an EMPTY
entry. -/
theorem FatChain.ne_empty {mem : ℕ → UInt32} {a c : ℕ} {l : List ℕ} (h : FatChain mem a l)
    (hl : ∀ x ∈ l, 0 < x) (hc : c ∈ l) : mem c ≠ FAT32_FAT_EMPTY_ENTRY := by
  intro h0
  obtain ⟨s, hs, hcs⟩ := Chain.of_mem h hc
  cases hcs with
  | last hn => simp [fatNext, h0, empty_ne_eof] at hn
  | @link _ b t hn hb =>
      have hb0 : b = 0 := by simpa [fatNext, h0, empty_ne_eof] using hn.symm
      have hmem : b ∈ l := hs.subset (List.mem_cons_of_mem _ hb.head_mem)
      exact absurd (hl b hmem) (by omega)

/-! ### Linking free clusters -/

/-- The table after the clusters of a list have been linked and closed. -/
def linkUp : List ℕ → (ℕ → UInt32) → ℕ → UInt32
  | [], m => m
  | [a], m => Function.update m a FAT32_FAT_END_OF_FILE
  | a :: b :: l, m => linkUp (b :: l) (Function.update m a (UInt32.ofNat b))

/-- Linking clusters up leaves the other cells alone. -/
theorem linkUp_of_notMem {F : List ℕ} {m : ℕ → UInt32} {c : ℕ} (hc : c ∉ F) :
    linkUp F m c = m c := by
  induction F, m using linkUp.induct with
  | case1 m => rfl
  | case2 a m => exact Function.update_of_ne (List.ne_of_not_mem_cons hc) _ _
  | case3 a b l m ih =>
      rw [linkUp, ih (List.not_mem_of_not_mem_cons hc)]
      exact Function.update_of_ne (List.ne_of_not_mem_cons hc) _ _

/-- A cluster's number is kept in the 32 bits of a cell. -/
theorem toNat_ofNat_cluster {c : ℕ} (hc : c < 512) : (UInt32.ofNat c).toNat = c :=
  UInt32.toNat_ofNat_of_lt' (hc.trans (by decide))

/-- A cluster number of the table is no end mark. -/
theorem ofNat_ne_eof {c : ℕ} (hc : c < 512) : UInt32.ofNat c ≠ FAT32_FAT_END_OF_FILE := by
  intro h
  have h' := congrArg UInt32.toNat h
  rw [toNat_ofNat_cluster hc] at h'
  have h'' : (FAT32_FAT_END_OF_FILE).toNat = 268435455 := rfl
  omega

/-- **Linked clusters are a chain.** -/
theorem chain_linkUp {f : ℕ} {F : List ℕ} {m : ℕ → UInt32} (hnd : (f :: F).Nodup)
    (hlt : ∀ c ∈ f :: F, c < 512) : FatChain (linkUp (f :: F) m) f (f :: F) := by
  induction F generalizing f m with
  | nil => exact .last (by simp [fatNext, linkUp])
  | cons b l ih =>
      have hb : b < 512 := hlt b (by simp)
      have hf : f ∉ b :: l := (List.nodup_cons.1 hnd).1
      have hrest := ih (m := Function.update m f (UInt32.ofNat b)) (List.nodup_cons.1 hnd).2
        fun c hc => hlt c (List.mem_cons_of_mem _ hc)
      refine .link ?_ hrest
      rw [fatNext, linkUp, linkUp_of_notMem hf, Function.update_self, if_neg (ofNat_ne_eof hb),
        toNat_ofNat_cluster hb]

/-- What linking up makes of a cell depends on that cell only. -/
theorem linkUp_congr {F : List ℕ} {m m' : ℕ → UInt32} {c : ℕ} (h : m c = m' c) :
    linkUp F m c = linkUp F m' c := by
  induction F, m using linkUp.induct generalizing m' with
  | case1 m => exact h
  | case2 a m =>
      simp only [linkUp, Function.update_apply]
      split_ifs
      · rfl
      · exact h
  | case3 a b l m ih =>
      refine ih ?_
      simp only [Function.update_apply]
      split_ifs
      · rfl
      · exact h

/-! ### Sizes and buffers -/

/-- The clusters needed for some bytes hold them all. -/
theorem le_clusterNeed (n : ℕ) : n ≤ 2048 * clusterNeed n := by
  simp only [clusterNeed, CLUSTER_SIZE]
  split_ifs <;> omega

/-- Something that has bytes needs a cluster. -/
theorem clusterNeed_pos {n : ℕ} (hn : 0 < n) : 0 < clusterNeed n := by
  have := le_clusterNeed n
  omega

/-- All clusters but the last are full. -/
theorem full_of_lt_clusterNeed {n w : ℕ} (hw : w < clusterNeed n) : 2048 * w < n := by
  simp only [clusterNeed, CLUSTER_SIZE] at hw
  split_ifs at hw <;> omega

namespace Buffer

/-- The padding leaves the full clusters alone. -/
theorem getCluster_pad {buf : Buffer} {size n v w : ℕ} (hw : 2048 * (w + 1) ≤ size) :
    (buf.pad size n v).getCluster w = buf.getCluster w := by
  funext j
  simp only [getCluster, pad, CLUSTER_SIZE]
  rw [if_neg (by omega)]

/-- Padding leaves the bytes of the content alone. -/
theorem pad_of_lt {buf : Buffer} {size n v j : ℕ} (hj : j < size) : buf.pad size n v j = buf j := by
  simp only [pad]
  rw [if_neg (by omega)]

/-- A cluster put at its place leaves the bytes outside of it alone. -/
theorem putCluster_of_notMem {buf : Buffer} {k j : ℕ} {data : Cluster}
    (hj : j < 2048 * k ∨ 2048 * (k + 1) ≤ j) : buf.putCluster k data j = buf j := by
  simp only [putCluster, CLUSTER_SIZE]
  rw [dif_neg (by omega)]

/-- The bytes of a cluster are found where it was put. -/
theorem putCluster_of_mem {buf : Buffer} {k j : ℕ} {data : Cluster} (hj : j < 2048) :
    buf.putCluster k data (2048 * k + j) = data ⟨j, hj⟩ := by
  simp only [putCluster, CLUSTER_SIZE]
  rw [dif_pos (by omega)]
  exact congrArg data (Fin.ext (by simp))

end Buffer

end Fat32
end Jatos
