/-
# A full disk

The loops of `write` are bounded by `CLUSTER_SIZE` and not by the length of the
table, so a write that needs more clusters than there are EMPTY entries goes on
with entry 512: it reads `dir_table_buf` and what lies behind it as entries of
the table.  One kind of request is turned down before that, a file for a parent
without a free slot, at the first EMPTY entry (`refusedCleanly_iff`).
-/

import Jatos.Fat32.Boot

namespace Jatos
namespace Fat32

variable {r : Request} {k : Stack} {s s' : State} {o : Reply} {fuel : ℕ}

/-- The EMPTY entries of `cluster_map`. -/
def emptyEntries (mem : ℕ → UInt32) : List ℕ :=
  (List.range CLUSTER_MAP_SIZE).filter fun i => mem i = FAT32_FAT_EMPTY_ENTRY

/-- The write needs more clusters than there are EMPTY entries. -/
def Exceeds (r : Request) (s : State) : Prop := (emptyEntries s.mem).length < r.clusters

/-- What a write to a full disk should do: return with an error and without an
index past the table, the disk and the table as they were. -/
def RefusedCleanly (k : Stack) (r : Request) (s : State) : Prop :=
  ∃ fuel o s', write fuel k r s = some (o, s') ∧ o.code ≠ 0 ∧ s'.stray = false ∧ Kept s s'

/-- The scans start behind the reserved entries. -/
theorem length_freeList_le (mem : ℕ → UInt32) :
    (freeList mem).length ≤ (emptyEntries mem).length := by
  have hsplit : List.range 512 = List.range' 0 2 ++ tableIndices := by
    rw [List.range_eq_range', tableIndices]
    exact (List.range'_append_1 (s := 0) (m := 2) (n := 510)).symm
  rw [emptyEntries, hsplit, List.filter_append, List.length_append]
  exact Nat.le_add_left _ _

/-- A request exceeds the free clusters when it needs more of them than there are. -/
theorem Exceeds.lt_clusters (h : Exceeds r s) : (freeList s.mem).length < r.clusters :=
  (length_freeList_le s.mem).trans_lt h

/-! ### Off the end of the table -/

/-- The file loop walks over the free list, finds too few clusters, and goes on
with entry 512. -/
theorem stray_scanFile_short {p : Progress} (h0 : p.written = 0)
    (hm : ∀ c < 512, p.state.mem c = s.mem c)
    (hslot : freeList s.mem = [] ∨ (freeSlot p.state.dirTableBuf).isSome)
    (hshort : (freeList s.mem).length < clusterNeed r.bufferSize.toNat) :
    (scanFile r scanIndices p).progress.state.stray = true := by
  have hwalk : ∃ q, fillFree r (freeList s.mem) p = .ended q := by
    rcases hslot with hnil | hj
    · rw [hnil]
      exact ⟨p, rfl⟩
    · exact fillFree_short (fun c hc => (mem_freeList.1 hc).1.2) (by omega) (fun _ => hj) (by omega)
  obtain ⟨q, hq⟩ := hwalk
  rw [scanIndices_eq, scanFile_append, scanFile_tableIndices h0 hm, hq]
  exact stray_scanFile _ (Or.inr ⟨512, rfl, le_rfl⟩)

/-- **A write that is not turned down runs off the end of the table.** -/
theorem exceeds_strays (hp : r.parent < 512) (h0 : s.mem r.parent ≠ FAT32_FAT_EMPTY_ENTRY)
    (hfull : Exceeds r s) (hdown : ¬TurnedDown r s) (hw : write fuel k r s = some (o, s')) :
    s'.stray = true := by
  have hshort := hfull.lt_clusters
  rw [Request.clusters] at hshort
  by_cases hs : r.bufferSize = 0
  · rw [if_pos hs, Nat.lt_one_iff, List.length_eq_zero_iff] at hshort
    rw [write_of_folder hp h0 hs] at hw
    have hstray :
        (scanFolder k r scanIndices (s.fill 512 (s.cluster r.parent))).1.stray = true := by
      rw [scanIndices_eq, scanFolder_eq fun i hi => (mem_tableIndices.1 hi).2]
      have hnil : tableIndices.filter (fun i => (s.fill 512 (s.cluster r.parent)).mem i =
          FAT32_FAT_EMPTY_ENTRY) = [] :=
        (freeList_congr fun c hc => State.fill_mem_of_lt _ hc).trans hshort
      rw [hnil]
      exact stray_scanFolder _ (Or.inr ⟨512, rfl, le_rfl⟩)
    obtain ⟨-, rfl⟩ := Prod.mk.inj (Option.some.inj hw)
    exact hstray
  · rw [if_neg hs] at hshort
    rw [write_of_file hp h0 hs, Option.map_eq_some_iff] at hw
    obtain ⟨⟨code, q⟩, hloop, hq⟩ := hw
    obtain ⟨-, rfl⟩ := Prod.mk.inj hq
    have hbuf : (s.fill 512 (s.cluster r.parent)).dirTableBuf = s.table r.parent :=
      State.dirTableBuf_fill _
    refine stray_writeLoop_scan (clusterNeed_bufferSize_pos hs) ?_ hloop
    refine stray_scanFile_short rfl (fun c hc => State.fill_mem_of_lt _ hc) ?_ hshort
    -- a parent without a free slot turns the file down, unless the scan finds nothing
    rw [hbuf]
    cases hj : freeSlot (s.table r.parent) with
    | some j => exact Or.inr rfl
    | none =>
        refine Or.inl ?_
        by_contra hne
        exact hdown ⟨hs, hj, hne⟩

/-- **When a full disk is noticed.**  A write into a live directory that needs
more clusters than there are EMPTY entries is refused cleanly if and only if it
is a file for a parent without a free slot, and an entry behind the reserved
ones is EMPTY. -/
theorem refusedCleanly_iff (h : WellFormed s) (hp : LiveDir s r.parent) (hs : s.stray = false)
    (hfull : Exceeds r s) : RefusedCleanly k r s ↔ TurnedDown r s := by
  have hrange := h.live_range hp
  have h0 := h.live_ne_empty hp
  constructor
  · rintro ⟨fuel, o, s', hw, -, hclean, -⟩
    by_contra hdown
    have hstray := exceeds_strays hrange.2 h0 hfull hdown hw
    rw [hclean] at hstray
    cases hstray
  · intro hdown
    obtain ⟨s', hw, hk, hstray⟩ := write_turnedDown (k := k) hrange.2 h0 hdown le_rfl
    exact ⟨1, _, s', hw, (by decide : (-1 : ℤ) ≠ 0), hstray.trans hs, hk⟩

/-- A fresh volume has 509 EMPTY entries. -/
theorem createFat32_emptyEntries (hz : Zeroed s) :
    (emptyEntries (createFat32 s).mem).length = 509 := by
  have hsplit : List.range 512 = List.range' 0 3 ++ List.range' 3 509 := by
    rw [List.range_eq_range']
    exact (List.range'_append_1 (s := 0) (m := 3) (n := 509)).symm
  have hlow : (List.range' 0 3).filter
      (fun i => (createFat32 s).mem i = FAT32_FAT_EMPTY_ENTRY) = [] := by
    rw [List.filter_eq_nil_iff]
    intro c hc
    rw [List.mem_range'_1] at hc
    rw [decide_eq_true_iff, createFat32_mem (by omega)]
    obtain rfl | rfl | rfl : c = 0 ∨ c = 1 ∨ c = 2 := by omega
    · exact fun h => absurd h (by decide : CLUSTER_0_VALUE ≠ FAT32_FAT_EMPTY_ENTRY)
    · exact fun h => absurd h (by decide : CLUSTER_1_VALUE ≠ FAT32_FAT_EMPTY_ENTRY)
    · exact fun h => absurd h empty_ne_eof.symm
  have hhigh : (List.range' 3 509).filter
      (fun i => (createFat32 s).mem i = FAT32_FAT_EMPTY_ENTRY) = List.range' 3 509 := by
    rw [List.filter_eq_self]
    intro c hc
    rw [List.mem_range'_1] at hc
    simpa using createFat32_free hz (by omega)
  rw [emptyEntries, hsplit, List.filter_append, hlow, hhigh, List.nil_append, List.length_range']

/-- A file of 510 clusters for the root of a blank volume is not refused
cleanly. -/
theorem not_refusedCleanly_sample :
    WellFormed (createFat32 blank) ∧ LiveDir (createFat32 blank) 2 ∧
      (createFat32 blank).stray = false ∧
      Exceeds (request 2 0x61 0x78 1044480) (createFat32 blank) ∧
      ¬RefusedCleanly blankStack (request 2 0x61 0x78 1044480) (createFat32 blank) := by
  have hwf := (createFat32_sound blank).toWellFormed
  have hfull : Exceeds (request 2 0x61 0x78 1044480) (createFat32 blank) := by
    rw [Exceeds, createFat32_emptyEntries blank_zeroed]
    decide
  refine ⟨hwf, .root, rfl, hfull, ?_⟩
  rintro ⟨fuel, o, s', hw, -, hclean, -⟩
  have hstray := exceeds_strays (by decide) (hwf.live_ne_empty .root) hfull ?_ hw
  · rw [hclean] at hstray
    cases hstray
  · rintro ⟨-, hnone, -⟩
    have hsome : freeSlot ((createFat32 blank).table 2) = some 1 := createFat32_freeSlot blank
    cases hnone.symm.trans hsome

/-- The condition at the same request: the root has a free slot. -/
theorem refusedCleanly_iff_sample :
    RefusedCleanly blankStack (request 2 0x61 0x78 1044480) (createFat32 blank) ↔
      TurnedDown (request 2 0x61 0x78 1044480) (createFat32 blank) := by
  refine refusedCleanly_iff (createFat32_sound blank).toWellFormed .root rfl ?_
  rw [Exceeds, createFat32_emptyEntries blank_zeroed]
  decide

end Fat32
end Jatos
