/-
# The entry of a file write

A write of a file stores its entry at the first EMPTY index it comes to, and then one
cluster at each EMPTY index.  None of these is the parent, whose own index is not EMPTY,
so the parent's table has the entry when the write returns, be there enough clusters for
it or not (`write_entry`).
-/

import Jatos.Fat32.WriteSpec

namespace Jatos
namespace Fat32

variable {r : Request} {k : Stack} {s s' : State} {o : Reply} {fuel i : ℕ} {p q : Progress}
  {j : Fin 64} {t : DirectoryTable}

/-- The table `t` of the parent, before its new entry is stored at slot `j` and after. -/
inductive Entering (r : Request) (j : Fin 64) (t : DirectoryTable) (p : Progress) : Prop
  | closed : p.state.mem r.parent ≠ FAT32_FAT_EMPTY_ENTRY → p.written = 0 →
      p.state.dirTableBuf = t → Entering r j t p
  | opened (f : ℕ) : p.state.mem r.parent ≠ FAT32_FAT_EMPTY_ENTRY → 0 < p.written →
      p.clustBefore ≠ r.parent → p.clustBefore < 2048 →
      p.state.cluster r.parent = tableLayout (Function.update t j (fileEntry r f)) →
      Entering r j t p

/-- A cluster that is not the parent's is filled. -/
theorem placeCluster_keeps (hp : 2 ≤ r.parent ∧ r.parent < 512) (hi : i < 2048)
    (hne : i ≠ r.parent) (hb : p.clustBefore < 2048) (hbne : p.clustBefore ≠ r.parent) :
    (∀ code q, placeCluster r i p ≠ .returned code q) ∧
      (placeCluster r i p).progress.written = p.written + 1 ∧
      (placeCluster r i p).progress.clustBefore < 2048 ∧
      (placeCluster r i p).progress.clustBefore ≠ r.parent ∧
      (placeCluster r i p).progress.state.mem r.parent = p.state.mem r.parent ∧
      (placeCluster r i p).progress.state.cluster r.parent = p.state.cluster r.parent := by
  have hset : ∀ (s : State) (a : ℕ) (v : UInt32), a < 2048 → a ≠ r.parent →
      (s.setClusterMap a v).mem r.parent = s.mem r.parent := fun s a v ha hane =>
    Function.update_of_ne (by rw [mapWord]; omega) _ _
  have hdisk : ∀ (s : State) (a : ℕ) (v : UInt32),
      (s.setClusterMap a v).cluster r.parent = s.cluster r.parent := fun s a v =>
    State.cluster_congr State.touch_disk _
  have hstore : ∀ (s : State) (b : Cluster),
      (s.writeCluster i b).cluster r.parent = s.cluster r.parent := fun s b => by
    rw [State.cluster, State.writeCluster_disk, readClusters_writeClusters, if_neg (by omega)]
    rfl
  have hfat : ∀ s : State, s.writeFat.cluster r.parent = s.cluster r.parent := fun s =>
    State.cluster_writeFat hp.2 (by omega)
  simp only [placeCluster]
  split_ifs <;>
    simp [Scan.progress, hset, hdisk, hstore, hfat, hi, hne, hb, hbne]

/-- A round of the scan that does not meet the parent leaves its entry as far as it was. -/
theorem fileStep_entering (hp : 2 ≤ r.parent ∧ r.parent < 512) (hj : freeSlot t = some j)
    (h : Entering r j t p) (hi : i < 2048) (hne : i ≠ r.parent) :
    (∀ code q, fileStep r i p ≠ .returned code q) ∧ 0 < (fileStep r i p).progress.written ∧
      Entering r j t (fileStep r i p).progress := by
  cases h with
  | closed hmem h0 hbuf =>
      have hbuf' : freeSlot p.state.dirTableBuf = some j := hbuf ▸ hj
      -- the entry is stored, and then the first cluster
      let p' := openFile r i p
      have hp' : p' = _ := openFile_of_free hbuf'
      have hstep : fileStep r i p = placeCluster r i p' := by
        rw [fileStep, if_pos h0]
        exact if_pos (congrArg Progress.slotAvailable hp')
      have hw : p'.written = 0 := openFile_written.trans h0
      have hcl : p'.state.cluster r.parent =
          tableLayout (Function.update t j (fileEntry r i)) := by
        rw [hp', ← hbuf]
        exact State.cluster_writeCluster_self _ _
      obtain ⟨hret, hwritten, hb, hbne, hmem', hcl'⟩ := placeCluster_keeps (p := p') hp hi hne
        (by rw [hp']; exact hi) (by rw [hp']; exact hne)
      have hm : p'.state.mem r.parent = p.state.mem r.parent := openFile_mem hp.2
      rw [hstep]
      exact ⟨hret, by omega, .opened i (by rwa [hmem', hm]) (by omega) hbne hb (hcl'.trans hcl)⟩
  | opened f hmem hpos hbne hb hcl =>
      obtain ⟨hret, hwritten, hb', hbne', hmem', hcl'⟩ := placeCluster_keeps hp hi hne hb hbne
      rw [fileStep_of_pos hpos]
      exact ⟨hret, by omega, .opened f (by rwa [hmem']) (by omega) hbne' hb' (hcl'.trans hcl)⟩

/-- Naming a cell leaves the parent's entry as far as it was. -/
theorem Entering.touch (h : Entering r j t p) (i : ℕ) :
    Entering r j t { p with state := p.state.touch i } := by
  cases h with
  | closed hmem h0 hbuf =>
      refine .closed (by rwa [State.touch_mem]) h0 ?_
      rw [← hbuf]
      exact State.dirTableBuf_congr fun c _ _ => congrFun State.touch_mem c
  | opened f hmem hpos hbne hb hcl =>
      exact .opened f (by rwa [State.touch_mem]) hpos hbne hb
        ((State.cluster_congr State.touch_disk _).trans hcl)

/-- The parent's cell is not empty, before the entry is stored and after. -/
theorem Entering.mem (h : Entering r j t p) : p.state.mem r.parent ≠ FAT32_FAT_EMPTY_ENTRY := by
  cases h with
  | closed hmem => exact hmem
  | opened f hmem => exact hmem

/-- A scan that does not meet the parent leaves its entry as far as it was. -/
theorem scanFile_entering (is : List ℕ) (hp : 2 ≤ r.parent ∧ r.parent < 512)
    (hj : freeSlot t = some j) (his : ∀ i ∈ is, i < 2048) (h : Entering r j t p) :
    (∀ code q, scanFile r is p ≠ .returned code q) ∧ Entering r j t (scanFile r is p).progress := by
  induction is generalizing p with
  | nil => exact ⟨fun _ _ hr => (by cases hr), h⟩
  | cons i is ih =>
      have hrest : ∀ i ∈ is, i < 2048 := fun i hi => his i (List.mem_cons_of_mem _ hi)
      rw [scanFile]
      split_ifs with hempty
      · -- the parent's own entry is not EMPTY
        have hne : i ≠ r.parent := by
          rintro rfl
          rw [State.clusterMap_of_lt hp.2] at hempty
          exact h.mem hempty
        obtain ⟨hret, -, hent⟩ := fileStep_entering hp hj (h.touch i) (his i List.mem_cons_self) hne
        cases hs : fileStep r i { p with state := p.state.touch i } with
        | returned code q => exact absurd hs (hret code q)
        | broke q =>
            rw [hs] at hent
            exact ⟨fun _ _ hr => (by cases hr), hent⟩
        | ended q =>
            rw [hs] at hent
            exact ih hrest hent
      · exact ih hrest (h.touch i)

/-- The loop that stores a file leaves the entry in the parent's folder when it returns. -/
theorem writeLoop_entering (hp : 2 ≤ r.parent ∧ r.parent < 512) (hj : freeSlot t = some j)
    (hs : r.bufferSize ≠ 0) (h : Entering r j t p) {code : ℤ}
    (hq : writeLoop r fuel p = some (code, q)) :
    ∃ f, q.state.cluster r.parent = tableLayout (Function.update t j (fileEntry r f)) := by
  induction fuel generalizing p with
  | zero => cases hq
  | succ fuel ih =>
      rw [writeLoop] at hq
      split_ifs at hq with hlt
      · obtain ⟨hret, hent⟩ := scanFile_entering scanIndices hp hj
          (fun i hi => by
            have hrange := List.mem_range'_1.1 hi
            simp only [CLUSTER_SIZE, ROOT_CLUSTER_NUMBER] at hrange
            omega) h
        cases hscan : scanFile r scanIndices p with
        | returned code' q' => exact absurd hscan (hret code' q')
        | broke q' =>
            rw [hscan] at hq hent
            exact ih hent hq
        | ended q' =>
            rw [hscan] at hq hent
            exact ih hent hq
      · obtain ⟨-, rfl⟩ := Prod.mk.inj (Option.some.inj hq)
        have hpos := clusterNeed_bufferSize_pos hs
        cases h with
        | closed hmem h0 => omega
        | opened f hmem hpos' hbne hb hcl => exact ⟨f, hcl⟩

/-- **A file write that returns has stored its entry**, be there enough clusters or not. -/
theorem write_entry (hp : 2 ≤ r.parent ∧ r.parent < 512)
    (h0 : s.mem r.parent ≠ FAT32_FAT_EMPTY_ENTRY) (hs : r.bufferSize ≠ 0)
    (hj : freeSlot (s.table r.parent) = some j) (hw : write fuel k r s = some (o, s')) :
    ∃ f, s'.table r.parent = Function.update (s.table r.parent) j (fileEntry r f) := by
  rw [write_of_file hp.2 h0 hs, Option.map_eq_some_iff] at hw
  obtain ⟨⟨code, q⟩, hloop, hq⟩ := hw
  obtain ⟨-, rfl⟩ := Prod.mk.inj hq
  have hent : Entering r j (s.table r.parent)
      ⟨s.fill 512 (s.cluster r.parent), r.buf, 0, 0, false⟩ := by
    refine .closed ?_ rfl (State.dirTableBuf_fill _)
    rwa [State.fill_mem_of_lt _ hp.2]
  obtain ⟨f, hf⟩ := writeLoop_entering hp hj hs hent hloop
  exact ⟨f, State.table_of_cluster hf⟩

end Fat32
end Jatos
