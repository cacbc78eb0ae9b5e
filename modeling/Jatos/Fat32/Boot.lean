/-
# A fresh volume

`create_fat32` assigns `cluster_map[0]` to `cluster_map[2]` and leaves the other
entries as `driver_state` has them, so a fresh volume is one that was made with
a zeroed `driver_state` (`Zeroed`), as the loader leaves it.
-/

import Jatos.Fat32.Service

namespace Jatos
namespace Fat32

variable {s : State} {c d : ℕ} {k : Fin 64}

/-- `driver_state` is zero, and no index was used. -/
structure Zeroed (s : State) : Prop where
  mem : ∀ i < 1536, s.mem i = 0
  stray : s.stray = false

/-- The root's name is not empty. -/
theorem rootName_ne_zero : rootName ≠ 0 := fun h => absurd (congrFun h 0) (by decide)

/-- The table that `create_fat32` gives to the root. -/
def rootTable (s : State) : DirectoryTable :=
  initDirectoryTable s.dirTableBuf rootName ROOT_CLUSTER_NUMBER

/-- The table of clusters that `create_fat32` makes. -/
theorem createFat32_mem (hc : c < 512) : (createFat32 s).mem c =
    if c = 2 then FAT32_FAT_END_OF_FILE else if c = 1 then CLUSTER_1_VALUE
    else if c = 0 then CLUSTER_0_VALUE else s.mem c := by
  simp only [createFat32, State.writeCluster_mem, State.setDirTableBuf_mem_of_lt _ hc,
    State.writeFat_mem]
  rw [State.setClusterMap_of_lt (by decide), State.setClusterMap_of_lt (by decide),
    State.setClusterMap_of_lt (by decide)]
  simp only [Function.update_apply]

/-- The disk that `create_fat32` makes. -/
theorem createFat32_disk (s : State) : (createFat32 s).disk =
    writeClusters (writeClusters (writeBlocks s.disk 0 fun _ : Fin 1 => fsSignature) 1
      (createFat32 s).fatTable) 2 (tableLayout (rootTable s)) := by
  -- the state in which the table of clusters is stored
  let s₁ : State :=
    { disk := writeBlocks s.disk 0 fun _ : Fin 1 => fsSignature
      mem := Function.update (Function.update (Function.update s.mem 0 CLUSTER_0_VALUE) 1
        CLUSTER_1_VALUE) 2 FAT32_FAT_END_OF_FILE
      stray := s.stray }
  have hfat : (createFat32 s).fatTable = s₁.fatTable := by
    refine State.fatTable_congr fun i hi => ?_
    rw [createFat32_mem hi]
    simp only [s₁, Function.update_apply]
  have hbuf : s₁.dirTableBuf = s.dirTableBuf := by
    refine State.dirTableBuf_congr fun i hi _ => ?_
    simp only [s₁, Function.update_apply]
    rw [if_neg (by omega), if_neg (by omega), if_neg (by omega)]
  rw [hfat, rootTable, ← hbuf]
  simp only [createFat32, State.setClusterMap_of_lt (by decide : 0 < 512),
    State.setClusterMap_of_lt (by decide : 1 < 512),
    State.setClusterMap_of_lt (by decide : 2 < 512),
    State.dirTableBuf_setDirTableBuf, State.writeCluster_disk, State.setDirTableBuf_disk,
    State.writeFat, State.dirTableBuf_writeCluster, s₁]

/-- A fresh volume has its signature. -/
theorem createFat32_boot (s : State) : (createFat32 s).disk 0 = fsSignature := by
  rw [createFat32_disk, writeClusters_boot _ _ (by decide), writeClusters_boot _ _ (by decide),
    writeBlocks, dif_pos (by decide)]

/-- Its map is stored in cluster 1. -/
theorem createFat32_fat (s : State) : (createFat32 s).cluster 1 = (createFat32 s).fatTable := by
  rw [State.cluster, createFat32_disk,
    readClusters_writeClusters_ne _ _ (by decide) (by decide) (by decide),
    readClusters_writeClusters_self]

/-- Its root is stored in cluster 2. -/
theorem createFat32_table (s : State) : (createFat32 s).table 2 = rootTable s := by
  refine State.table_of_cluster ?_
  rw [State.cluster, createFat32_disk, readClusters_writeClusters_self]

/-- The format goes nowhere astray. -/
theorem createFat32_stray (s : State) : (createFat32 s).stray = s.stray := rfl

/-- Any slot of the fresh root but slot 0 is empty. -/
theorem createFat32_slot (hk : k ≠ 0) : (createFat32 s).table 2 k = DirectoryEntry.zero := by
  rw [createFat32_table, rootTable, initDirectoryTable_of_ne _ _ _ hk]

/-- The root is the only directory of a fresh volume. -/
theorem createFat32_live (hd : LiveDir (createFat32 s) d) : d = 2 := by
  refine LiveDir.induction (P := fun d => d = 2) rfl (fun d k he _ hd => ?_) hd
  subst hd
  have hu := he.used
  rw [createFat32_slot he.slot] at hu
  exact absurd hu zero_not_used

/-- A fresh volume has no entry. -/
theorem createFat32_no_entry : ¬LiveEntry (createFat32 s) d k := by
  intro he
  have hu := he.used
  rw [createFat32_live he.dir, createFat32_slot he.slot] at hu
  exact zero_not_used hu

/-- **A fresh volume is sound.** -/
theorem createFat32_sound (s : State) : Sound (createFat32 s) where
  root := createFat32_mem (by decide)
  self d hd := by
    rw [createFat32_live hd, createFat32_table]
    exact ⟨initDirectoryTable_used _ _ _, initDirectoryTable_filesize _ _ _⟩
  chain _ _ he := absurd he createFat32_no_entry
  disjoint _ _ _ _ _ _ he := absurd he createFat32_no_entry
  boot := createFat32_boot s
  entry0 := createFat32_mem (by decide)
  entry1 := createFat32_mem (by decide)
  fat := createFat32_fat s
  atRoot := by
    rw [createFat32_table]
    exact ⟨initDirectoryTable_name _ _ _, initDirectoryTable_cluster _ _ (by decide)⟩
  atChild _ _ he := absurd he createFat32_no_entry

/-- All clusters above the root's are free. -/
theorem createFat32_free (hz : Zeroed s) (hc : 3 ≤ c ∧ c < 512) :
    (createFat32 s).mem c = FAT32_FAT_EMPTY_ENTRY := by
  rw [createFat32_mem hc.2, if_neg (by omega), if_neg (by omega), if_neg (by omega)]
  exact hz.mem c (by omega)

/-- The free list of a fresh volume. -/
theorem createFat32_freeList (hz : Zeroed s) :
    freeList (createFat32 s).mem = List.range' 3 509 := by
  have hsplit : tableIndices = 2 :: List.range' 3 509 := List.range'_succ
  have h2 : (createFat32 s).mem 2 ≠ FAT32_FAT_EMPTY_ENTRY := by
    rw [createFat32_mem (by decide), if_pos rfl]
    exact empty_ne_eof.symm
  rw [freeList, hsplit, List.filter_cons_of_neg (by simpa using h2), List.filter_eq_self]
  intro c hc
  rw [List.mem_range'_1] at hc
  simpa using createFat32_free hz (by omega)

/-- A fresh volume has room for 509 clusters. -/
theorem createFat32_fits {r : Request} (hz : Zeroed s) (hsize : r.clusters ≤ 509) :
    Fits r (createFat32 s) := by
  rw [Fits, createFat32_freeList hz, List.length_range']
  exact hsize

/-- The free slots of a fresh root are those behind slot 0. -/
theorem createFat32_freeSlot (s : State) : freeSlot ((createFat32 s).table 2) = some 1 := by
  refine freeSlot_eq_some_iff.2 ⟨?_, fun j hj => ?_⟩
  · rw [createFat32_slot (by decide)]
    exact zero_not_used
  · obtain rfl : j = 0 := by omega
    rw [createFat32_table]
    exact initDirectoryTable_used _ _ _

/-- A write to an empty directory makes the entry of slot 1. -/
theorem write_empty {r : Request} {fuel : ℕ} (k : Stack) (h : WellFormed s)
    (hp : LiveDir s r.parent) (hempty : EmptyDir s r.parent) (hfit : Fits r s) (hfuel : 2 ≤ fuel) :
    ∃ o f F s', write fuel k r s = some (o, s') ∧ o.code = 0 ∧
      Made r (newEntry k r f) (f :: F) s s' ∧ LiveEntry s' r.parent 1 ∧
      s'.table r.parent 1 = newEntry k r f ∧ f :: F <+: freeList s.mem := by
  have hslot : freeSlot (s.table r.parent) = some 1 := by
    refine freeSlot_eq_some_iff.2 ⟨hempty 1 (by decide), fun j hj => ?_⟩
    obtain rfl : j = 0 := by omega
    exact (h.self _ hp).1
  obtain ⟨o, f, F, s', hw, hcode, hm, hpre⟩ := write_made_first (k := k) (h.live_range hp)
    (h.live_ne_empty hp) hfit (fun _ => by rw [hslot]; rfl) hfuel
  exact ⟨o, f, F, s', hw, hcode, hm, hm.entry_new h hp hslot, hm.slot_new hslot, hpre⟩

/-- The root of a fresh volume is empty. -/
theorem createFat32_emptyDir (s : State) : EmptyDir (createFat32 s) 2 := by
  intro k hk
  rw [createFat32_slot hk]
  exact zero_not_used

/-- A first write to the root of a fresh volume makes the entry of slot 1. -/
theorem createFat32_write {r : Request} {fuel : ℕ} (k : Stack) (hz : Zeroed s)
    (hp : r.parent = 2) (hsize : r.clusters ≤ 509) (hfuel : 2 ≤ fuel) :
    ∃ o F s', write fuel k r (createFat32 s) = some (o, s') ∧ o.code = 0 ∧
      Made r (newEntry k r 3) (3 :: F) (createFat32 s) s' ∧
      LiveEntry s' r.parent 1 ∧ s'.table r.parent 1 = newEntry k r 3 := by
  obtain ⟨o, f, F, s', hw, hcode, hm, he, hslot, R, hR⟩ :=
    write_empty k (createFat32_sound s).toWellFormed (hp ▸ .root) (hp ▸ createFat32_emptyDir s)
      (createFat32_fits hz hsize) hfuel
  obtain rfl : 3 = f := by
    rw [createFat32_freeList hz] at hR
    exact (List.cons.inj hR).1.symm
  exact ⟨o, F, s', hw, hcode, hm, he, hslot⟩

/-- The lookups find it, unless it has the root's name. -/
theorem createFat32_found {r : Request} {e : DirectoryEntry} {F : List ℕ} {s' : State}
    (hm : Made r e F (createFat32 s) s') (hp : r.parent = 2) (hroot : r.name ≠ rootName) :
    findSlot (s'.table r.parent) r.name = some 1 := by
  have h := createFat32_sound s
  have hlive : LiveDir (createFat32 s) r.parent := hp ▸ .root
  have hslot : freeSlot ((createFat32 s).table r.parent) = some 1 := hp ▸ createFat32_freeSlot s
  refine findSlot_eq_some_iff.2 ⟨by rw [hm.slot_new hslot, hm.name], fun j hj => ?_⟩
  obtain rfl : j = 0 := by omega
  rw [hm.table_used h.toWellFormed hlive (h.self _ hlive).1, hp, h.atRoot.1]
  exact hroot.symm

/-- A write uses up as many free clusters as the request needs. -/
theorem Made.room {r : Request} {e : DirectoryEntry} {F : List ℕ} {s' : State}
    (hm : Made r e F s s') :
    (freeList s.mem).length ≤ (freeList s'.mem).length + r.clusters := by
  have hlen : F.length = r.clusters := by
    rw [hm.length, DirectoryEntry.clusters, Request.clusters, hm.filesize]
  have hsub : freeList s.mem ⊆ freeList s'.mem ++ F := by
    intro c hc
    obtain ⟨hrange, h0⟩ := mem_freeList.1 hc
    by_cases hF : c ∈ F
    · exact List.mem_append_right _ hF
    · exact List.mem_append_left _ (mem_freeList.2 ⟨hrange, by rw [hm.mem c hrange.2 hF, h0]⟩)
  have hle := (List.Nodup.subperm (freeList_nodup s.mem) hsub).length_le
  rwa [List.length_append, hlen] at hle

/-- A second request fits where both fit beforehand. -/
theorem Made.fits {r r' : Request} {e : DirectoryEntry} {F : List ℕ} {s' : State}
    (hm : Made r e F s s') (hroom : r'.clusters + r.clusters ≤ (freeList s.mem).length) :
    Fits r' s' := by
  have := hm.room
  rw [Fits]
  omega

/-- Two writes to the root of a fresh volume make the entries of slots 1 and 2. -/
theorem createFat32_writes (r r' : Request) {fuel : ℕ} (k : Stack) (hz : Zeroed s)
    (hp : r.parent = 2) (hp' : r'.parent = 2) (hsize : r'.clusters + r.clusters ≤ 509)
    (hfuel : 2 ≤ fuel) :
    ∃ o F s₁ o' f F' s₂, (write fuel k r (createFat32 s) = some (o, s₁) ∧ o.code = 0 ∧
        Made r (newEntry k r 3) (3 :: F) (createFat32 s) s₁) ∧
      (write fuel k r' s₁ = some (o', s₂) ∧ o'.code = 0 ∧
        Made r' (newEntry k r' f) (f :: F') s₁ s₂) ∧
      (LiveEntry s₂ 2 1 ∧ s₂.table 2 1 = newEntry k r 3) ∧
      LiveEntry s₂ 2 2 ∧ s₂.table 2 2 = newEntry k r' f := by
  have h := (createFat32_sound s).toWellFormed
  obtain ⟨o, F, s₁, hw, hcode, hm, he, hslot⟩ :=
    createFat32_write k hz hp (by omega : r.clusters ≤ 509) hfuel
  have h₁ := hm.wellFormed h
  have hlive : LiveDir s₁ r'.parent := hp' ▸ .root
  have htab : s₁.table 2 = Function.update ((createFat32 s).table 2) 1 (newEntry k r 3) := by
    have := hm.table_parent (hp ▸ createFat32_freeSlot s)
    rwa [hp] at this
  have hfree : freeSlot (s₁.table r'.parent) = some 2 := by
    rw [hp', htab]
    refine freeSlot_eq_some_iff.2 ⟨?_, fun j hj => ?_⟩
    · rw [Function.update_of_ne (by decide), createFat32_slot (by decide)]
      exact zero_not_used
    · obtain rfl | rfl : j = 0 ∨ j = 1 := by omega
      · rw [Function.update_of_ne (by decide)]
        exact (h.self _ .root).1
      · rw [Function.update_self]
        exact hm.used
  obtain ⟨o', f, F', s₂, hw', hcode', hm', -⟩ := write_made_first (k := k) (h₁.live_range hlive)
    (h₁.live_ne_empty hlive) (hm.fits (by rwa [createFat32_freeList hz, List.length_range']))
    (fun _ => by rw [hfree]; rfl) hfuel
  rw [hp] at he hslot
  have hnew := hm'.slot_new hfree
  have he' := hm'.entry_new h₁ hlive hfree
  rw [hp'] at hnew he'
  exact ⟨o, F, s₁, o', f, F', s₂, ⟨hw, hcode, hm⟩, ⟨hw', hcode', hm'⟩,
    ⟨hm'.entry h₁ he, by rw [hm'.table_used h₁ .root he.used, hslot]⟩, he', hnew⟩

/-! ### Mounting again -/

/-- **A mounted volume is mounted again.**  The boot sector has the signature, so
the table is loaded, from a disk that has it, whatever the memory was. -/
theorem initializeFilesystemFat32_kept (h : Mounted s) (mem : ℕ → UInt32) (stray : Bool) :
    Kept s (initializeFilesystemFat32 ⟨s.disk, mem, stray⟩) := by
  have hsig : isEmptyStorage ⟨s.disk, mem, stray⟩ = false := by
    rw [isEmptyStorage, Bool.not_eq_false', sameBytes_iff]
    exact h.boot
  rw [initializeFilesystemFat32, hsig]
  refine ⟨rfl, fun c hc => ?_⟩
  have hload : State.cluster ⟨s.disk, mem, stray⟩ FAT_CLUSTER_NUMBER = s.fatTable := h.fat
  rw [hload]
  simp only [Bool.false_eq_true, if_false]
  rw [State.fill_mem_of_lt _ hc, State.fill_mem_of_mem _ (by omega)]
  exact s.fatTable_symm ⟨c, hc⟩

/-! ### A blank drive -/

/-- A drive of zeros and a zeroed `driver_state`. -/
def blank : State := ⟨fun _ _ => 0, fun _ => 0, false⟩

/-- The blank memory is zeroed. -/
theorem blank_zeroed : Zeroed blank := ⟨fun _ _ => rfl, rfl⟩

/-- The stack is zero where `write` puts its locals. -/
def blankStack : Stack := ⟨DirectoryEntry.zero, fun _ => DirectoryEntry.zero⟩

/-- A request for the name `x` in directory `d`. -/
def request (d : UInt32) (x y : UInt8) (size : UInt32) : Request :=
  { buf := fun i => UInt8.ofNat i
    name := ![x, 0, 0, 0, 0, 0, 0, 0]
    ext := ![y, 0, 0]
    parentClusterNumber := d
    bufferSize := size }

end Fat32
end Jatos
