/-
# What `write` does

One specification for each way `write` ends in a volume with room, in terms of
the table of clusters and of what the clusters hold:

* a file goes to the first free clusters, as many as it needs (`write_file`);
* a file is refused when the parent has no free slot (`write_file_full`);
* a folder takes the first free cluster, whether or not the parent has a free
  slot (`write_folder`);
* an EMPTY parent is refused (`write_empty_parent`).

`Created` is what the two successful ends have in common; everything else in the
project speaks of `write` through these.
-/

import Jatos.Fat32.WriteLoop

namespace Jatos
namespace Fat32

open Packed

variable {r : Request} {k : Stack} {s s' : State} {fuel : ℕ}

/-- The clusters `l` hold the first `size` bytes of `buf`, 2048 to a cluster. -/
def Stored (s : State) (l : List ℕ) (size : ℕ) (buf : Buffer) : Prop :=
  ∀ m c, l[m]? = some c → ∀ j : Fin 2048, 2048 * m + j < size → s.cluster c j = buf (2048 * m + j)

/-- A directory was given the entry `e`, whose chain `F` was allocated for it:
the clusters of `F` were free, the entry went to the first free slot of the
parent, if any, the table was stored, and nothing else changed. -/
structure Created (r : Request) (e : DirectoryEntry) (F : List ℕ) (s s' : State) : Prop where
  name : e.name = r.name
  used : e.Used
  filesize : e.filesize = r.bufferSize
  chain : FatChain s'.mem e.cluster F
  free : ∀ c ∈ F, c ∈ freeList s.mem
  mem : ∀ c < 512, c ∉ F → s'.mem c = s.mem c
  stray : s'.stray = s.stray
  boot : s'.disk 0 = s.disk 0
  fat : s'.cluster 1 = s'.fatTable
  parent : s'.table r.parent = insertEntry (s.table r.parent) e
  other : ∀ c < 512, c ≠ 1 → c ≠ r.parent → c ∉ F → s'.cluster c = s.cluster c

/-! ### Chunks -/

/-- Storing chunks leaves the other clusters alone. -/
theorem storeChunks_of_notMem {buf : Buffer} {w c : ℕ} {F : List ℕ} {d : Disk} (hc : c < 512)
    (hF : ∀ f ∈ F, f < 512) (h : c ∉ F) :
    readClusters (storeChunks buf w F d) c = readClusters d c := by
  induction F generalizing w d with
  | nil => rfl
  | cons f F ih =>
      rw [storeChunks, ih (fun g hg => hF g (List.mem_cons_of_mem _ hg))
        (List.not_mem_of_not_mem_cons h)]
      exact readClusters_writeClusters_ne _ _ (hF f List.mem_cons_self) hc
        (List.ne_of_not_mem_cons h)

/-- Cluster `m` of the list holds chunk `m` of the buffer. -/
theorem storeChunks_getElem {buf : Buffer} {w m c : ℕ} {F : List ℕ} {d : Disk} (hnd : F.Nodup)
    (hF : ∀ f ∈ F, f < 512) (hm : F[m]? = some c) :
    readClusters (storeChunks buf w F d) c = buf.getCluster (w + m) := by
  induction F generalizing w d m with
  | nil => cases hm
  | cons f F ih =>
      obtain ⟨hf, hnd'⟩ := List.nodup_cons.1 hnd
      have hF' : ∀ g ∈ F, g < 512 := fun g hg => hF g (List.mem_cons_of_mem _ hg)
      rw [storeChunks]
      cases m with
      | zero =>
          obtain rfl : f = c := by simpa using hm
          rw [storeChunks_of_notMem (hF f List.mem_cons_self) hF' hf,
            readClusters_writeClusters_self]
          rfl
      | succ m =>
          rw [ih hnd' hF' (by simpa using hm)]
          exact congrArg _ (by omega)

/-- Storing chunks leaves the boot sector alone. -/
theorem storeChunks_boot {buf : Buffer} {w : ℕ} {F : List ℕ} {d : Disk}
    (hF : ∀ f ∈ F, 2 ≤ f ∧ f < 512) : storeChunks buf w F d 0 = d 0 := by
  induction F generalizing w d with
  | nil => rfl
  | cons f F ih =>
      have hf := hF f List.mem_cons_self
      rw [storeChunks, ih fun g hg => hF g (List.mem_cons_of_mem _ hg)]
      exact writeClusters_boot _ _ (by omega)

/-! ### The four ends -/

/-- A file's entry names its first cluster. -/
theorem fileEntry_cluster {f : ℕ} (hf : f < 512) : (fileEntry r f).cluster = f :=
  DirectoryEntry.cluster_eq (by omega) rfl rfl

/-- A folder's entry names its cluster. -/
theorem folderEntry_cluster {f : ℕ} (hf : f < 512) : (folderEntry k r f).cluster = f :=
  DirectoryEntry.cluster_eq (by omega) rfl rfl

/-- An EMPTY parent is refused, and nothing changes. -/
theorem write_empty_parent (h0 : s.clusterMap r.parent = FAT32_FAT_EMPTY_ENTRY) :
    write fuel k r s = some (⟨2, r.buf⟩, s.touch r.parent) := by
  simp only [write, h0, if_true]

/-- Loading the parent's table. -/
theorem write_of_file (hp : r.parent < 512) (h0 : s.mem r.parent ≠ FAT32_FAT_EMPTY_ENTRY)
    (hs : r.bufferSize ≠ 0) :
    write fuel k r s =
      (writeLoop r fuel ⟨s.fill 512 (s.cluster r.parent), r.buf, 0, 0, false⟩).map
        fun (code, p) => (⟨code, p.buf⟩, p.state) := by
  simp only [write, State.clusterMap_of_lt hp, State.touch_of_lt hp, if_neg h0, if_neg hs]

/-- The pass of the file loop over the table is a walk over its free list. -/
theorem scanFile_tableIndices {p : Progress} (h0 : p.written = 0)
    (hm : ∀ c < 512, p.state.mem c = s.mem c) :
    scanFile r tableIndices p = fillFree r (freeList s.mem) p := by
  rw [← freeList_congr hm]
  exact scanFile_eq_fillFree (fun i hi => (mem_tableIndices.1 hi).2) tableIndices_nodup (by omega)

/-- A file that is not empty needs a cluster. -/
theorem clusterNeed_bufferSize_pos (hs : r.bufferSize ≠ 0) :
    0 < clusterNeed r.bufferSize.toNat :=
  clusterNeed_pos (Nat.pos_of_ne_zero fun h => hs (UInt32.toNat_inj.1 h))

/-- What the file loop leaves of `s`: the clusters `F` linked up, the chunks of
`b` in them, and the table `t` in the cluster `p`. -/
structure Laid (p : ℕ) (F : List ℕ) (b : Buffer) (t : DirectoryTable) (s s' : State) : Prop where
  mem : ∀ c < 512, s'.mem c = linkUp F s.mem c
  stray : s'.stray = s.stray
  disk : s'.disk = writeClusters (storeChunks b 0 F (writeClusters s.disk p (tableLayout t)))
    FAT_CLUSTER_NUMBER (wordsLayout fun c => linkUp F s.mem c)

namespace Laid

variable {p c : ℕ} {F : List ℕ} {b : Buffer} {t : DirectoryTable}

/-- What was laid down shows in every cluster but the allocation table's. -/
theorem cluster (h : Laid p F b t s s') (hc : c < 512) (hc1 : c ≠ 1) :
    s'.cluster c = readClusters (storeChunks b 0 F (writeClusters s.disk p (tableLayout t))) c := by
  rw [State.cluster, h.disk]
  exact readClusters_writeClusters_ne _ _ (by decide) hc hc1

/-- What was laid down is chained up in the table. -/
theorem chain {f : ℕ} (h : Laid p (f :: F) b t s s') (hnd : (f :: F).Nodup)
    (hF : ∀ c ∈ f :: F, c < 512) : FatChain s'.mem f (f :: F) :=
  (chain_linkUp hnd hF).congr fun c hc => h.mem c (hF c hc)

/-- Laying down leaves the boot sector alone. -/
theorem boot (h : Laid p F b t s s') (hp : 2 ≤ p ∧ p < 512) (hF : ∀ c ∈ F, 2 ≤ c ∧ c < 512) :
    s'.disk 0 = s.disk 0 := by
  rw [h.disk, writeClusters_boot _ _ (by decide), storeChunks_boot hF,
    writeClusters_boot _ _ (by omega)]

/-- The allocation table on the disk is the one in memory. -/
theorem fat (h : Laid p F b t s s') : s'.cluster 1 = s'.fatTable := by
  rw [State.cluster, h.disk, readClusters_writeClusters_self]
  exact congrArg wordsLayout (funext fun i => (h.mem i i.isLt).symm)

/-- The parent's table is the one that was written. -/
theorem parent (h : Laid p F b t s s') (hp : 2 ≤ p ∧ p < 512) (hF : ∀ c ∈ F, c < 512)
    (hpF : p ∉ F) : s'.table p = t := by
  refine State.table_of_cluster ?_
  rw [h.cluster hp.2 (by omega), storeChunks_of_notMem hp.2 hF hpF,
    readClusters_writeClusters_self]

/-- Laying down leaves every other cluster alone. -/
theorem other (h : Laid p F b t s s') (hp : p < 512) (hF : ∀ c ∈ F, c < 512) (hc : c < 512)
    (hc1 : c ≠ 1) (hcp : c ≠ p) (hcF : c ∉ F) : s'.cluster c = s.cluster c := by
  rw [h.cluster hc hc1, storeChunks_of_notMem hc hF hcF]
  exact readClusters_writeClusters_ne _ _ hp hc hcp

/-- Cluster `m` of the list holds chunk `m` of the buffer. -/
theorem chunk {m : ℕ} (h : Laid p F b t s s') (hnd : F.Nodup) (hF : ∀ c ∈ F, 2 ≤ c ∧ c < 512)
    (hm : F[m]? = some c) : s'.cluster c = b.getCluster m := by
  have hc := hF c (List.mem_of_getElem? hm)
  rw [h.cluster hc.2 (by omega), storeChunks_getElem hnd (fun d hd => (hF d hd).2) hm,
    Nat.zero_add]

end Laid

/-- A state laid out for a new file is the state with the file created. -/
theorem Laid.created {f : ℕ} {F : List ℕ} {b : Buffer}
    (h : Laid r.parent (f :: F) b (insertEntry (s.table r.parent) (fileEntry r f)) s s')
    (hp : 2 ≤ r.parent ∧ r.parent < 512) (hnd : (f :: F).Nodup)
    (hfree : ∀ c ∈ f :: F, c ∈ freeList s.mem) (hpF : r.parent ∉ f :: F) :
    Created r (fileEntry r f) (f :: F) s s' := by
  have hrange : ∀ c ∈ f :: F, 2 ≤ c ∧ c < 512 := fun c hc => (mem_freeList.1 (hfree c hc)).1
  have hlt : ∀ c ∈ f :: F, c < 512 := fun c hc => (hrange c hc).2
  have hcluster : (fileEntry r f).cluster = f := fileEntry_cluster (hlt f List.mem_cons_self)
  exact
    { name := rfl
      used := rfl
      filesize := rfl
      chain := hcluster.symm ▸ h.chain hnd hlt
      free := hfree
      mem := fun c hc hcF => (h.mem c hc).trans (linkUp_of_notMem hcF)
      stray := h.stray
      boot := h.boot hp hrange
      fat := h.fat
      parent := h.parent hp hlt hpF
      other := fun c hc hc1 hcp hcF => h.other hp.2 hlt hc hc1 hcp hcF }

/-- **One call of the file loop.**  With a free slot in the parent's table and
`f :: F` the first of enough free clusters, the first pass lays the file out, and
there is no second. -/
theorem writeLoop_eq (fuel : ℕ) {f : ℕ} {F R : List ℕ} {j : Fin 64} (hs : r.bufferSize ≠ 0)
    (hj : freeSlot (s.table r.parent) = some j)
    (hF : freeList s.mem = f :: F ++ R) (hlt : ∀ c ∈ f :: F, c < 512)
    (hlen : F.length + 1 = clusterNeed r.bufferSize.toNat) :
    ∃ v q, writeLoop r (fuel + 2) ⟨s.fill 512 (s.cluster r.parent), r.buf, 0, 0, false⟩ =
        some (0, q) ∧
      q.buf = r.buf.pad r.bufferSize.toNat (clusterNeed r.bufferSize.toNat) v ∧
      Laid r.parent (f :: F) q.buf (insertEntry (s.table r.parent) (fileEntry r f)) s q.state := by
  let p : Progress := ⟨s.fill 512 (s.cluster r.parent), r.buf, 0, 0, false⟩
  have hbuf : p.state.dirTableBuf = s.table r.parent := State.dirTableBuf_fill _
  have hmemp : ∀ c < 512, p.state.mem c = s.mem c := fun c hc => State.fill_mem_of_lt _ hc
  have hlink : ∀ c < 512, linkUp (f :: F) p.state.mem c = linkUp (f :: F) s.mem c :=
    fun c hc => linkUp_congr (hmemp c hc)
  obtain ⟨v, q, hwalk, hqw, hqb, hqs, hqm, hqd⟩ := fillFree_eq (r := r) (R := R) (p := p) rfl
    (hbuf ▸ hj) hlt hlen
  have hscan : scanFile r scanIndices p = .broke q := by
    rw [scanIndices_eq, scanFile_append, scanFile_tableIndices rfl hmemp, hF, hwalk]
  refine ⟨v, q, ?_, hqb, fun c hc => (hqm c hc).trans (hlink c hc), hqs, ?_⟩
  · simp only [writeLoop]
    rw [hscan]
    simp only [hqw, Nat.lt_irrefl, if_false]
    exact if_pos (clusterNeed_bufferSize_pos hs)
  · rw [hqd, hqb, insertEntry, hj, hbuf]
    exact congrArg (writeClusters _ _) (congrArg wordsLayout (funext fun i => hlink i i.isLt))

/-- **A file with room.**  The parent has a free slot and the table as many
EMPTY entries as the file needs clusters. -/
theorem write_file (hp : 2 ≤ r.parent ∧ r.parent < 512)
    (h0 : s.mem r.parent ≠ FAT32_FAT_EMPTY_ENTRY) (hs : r.bufferSize ≠ 0) {j : Fin 64}
    (hj : freeSlot (s.table r.parent) = some j)
    (hneed : clusterNeed r.bufferSize.toNat ≤ (freeList s.mem).length) (hfuel : 2 ≤ fuel) :
    ∃ v f F s', write fuel k r s =
        some (⟨0, r.buf.pad r.bufferSize.toNat (clusterNeed r.bufferSize.toNat) v⟩, s') ∧
      Created r (fileEntry r f) (f :: F) s s' ∧ F.length + 1 = clusterNeed r.bufferSize.toNat ∧
      Stored s' (f :: F) r.bufferSize.toNat r.buf ∧ f :: F <+: freeList s.mem := by
  obtain ⟨fuel, rfl⟩ : ∃ n, fuel = n + 2 := ⟨fuel - 2, by omega⟩
  have hpos := clusterNeed_bufferSize_pos hs
  -- the free clusters that the file takes, and those left over
  obtain ⟨F₀, R, hF₀, hlen⟩ : ∃ F R, freeList s.mem = F ++ R ∧
      F.length = clusterNeed r.bufferSize.toNat :=
    ⟨_, _, (List.take_append_drop _ _).symm, List.length_take_of_le hneed⟩
  obtain ⟨f, F, rfl⟩ := List.exists_cons_of_length_pos (hlen ▸ hpos)
  have hfree : ∀ c ∈ f :: F, c ∈ freeList s.mem := fun c hc => hF₀ ▸ List.mem_append_left _ hc
  have hrange : ∀ c ∈ f :: F, 2 ≤ c ∧ c < 512 := fun c hc => (mem_freeList.1 (hfree c hc)).1
  have hnd : (f :: F).Nodup :=
    (hF₀ ▸ freeList_nodup s.mem).sublist (List.sublist_append_left _ _)
  have hpF : r.parent ∉ f :: F := fun h => h0 (mem_freeList.1 (hfree _ h)).2
  obtain ⟨v, q, hloop, hqb, hlaid⟩ := writeLoop_eq fuel hs hj hF₀
    (fun c hc => (hrange c hc).2) (by simpa using hlen)
  refine ⟨v, f, F, q.state, ?_, hlaid.created hp hnd hfree hpF, by simpa using hlen, ?_,
    ⟨R, hF₀.symm⟩⟩
  · rw [write_of_file hp.2 h0 hs, hloop]
    change some ((⟨0, q.buf⟩ : Reply), q.state) = _
    rw [hqb]
  · intro m c hm i hi
    rw [hlaid.chunk hnd hrange hm, hqb, Buffer.getCluster]
    exact Buffer.pad_of_lt hi

/-- **A file without a slot.**  The parent is full: the code is -1, and neither
the disk nor the table has changed. -/
theorem write_file_full (hp : r.parent < 512) (h0 : s.mem r.parent ≠ FAT32_FAT_EMPTY_ENTRY)
    (hs : r.bufferSize ≠ 0) (hj : freeSlot (s.table r.parent) = none)
    (hfree : freeList s.mem ≠ []) (hfuel : 1 ≤ fuel) :
    write fuel k r s = some (⟨-1, r.buf⟩, s.fill 512 (s.cluster r.parent)) := by
  obtain ⟨fuel, rfl⟩ : ∃ n, fuel = n + 1 := ⟨fuel - 1, by omega⟩
  obtain ⟨f, F, hF⟩ := List.exists_cons_of_ne_nil hfree
  let p : Progress := ⟨s.fill 512 (s.cluster r.parent), r.buf, 0, 0, false⟩
  have hbuf : p.state.dirTableBuf = s.table r.parent := State.dirTableBuf_fill _
  have hstep : fileStep r f p = .returned (-1) { p with clustBefore := f } := by
    have hopen : openFile r f p = { p with clustBefore := f } := openFile_of_full (hbuf ▸ hj)
    simp only [fileStep, hopen]
    rfl
  have hscan : scanFile r scanIndices p = .returned (-1) { p with clustBefore := f } := by
    rw [scanIndices_eq, scanFile_append,
      scanFile_tableIndices rfl (fun c hc => State.fill_mem_of_lt _ hc), hF, fillFree, hstep]
  rw [write_of_file hp h0 hs, writeLoop]
  simp only [p] at hscan
  rw [if_pos (clusterNeed_bufferSize_pos hs), hscan]
  rfl

/-- The scan of the folder branch stops at the first free cluster. -/
theorem scanFolder_eq {is js : List ℕ} (his : ∀ i ∈ is, i < 512) :
    scanFolder k r (is ++ js) s =
      match is.filter fun i => s.mem i = FAT32_FAT_EMPTY_ENTRY with
      | [] => scanFolder k r js s
      | i :: _ => (placeFolder k r i s, true) := by
  induction is with
  | nil => rfl
  | cons i is ih =>
      have hi : i < 512 := his i List.mem_cons_self
      rw [List.cons_append, scanFolder, State.clusterMap_of_lt hi, State.touch_of_lt hi]
      by_cases h0 : s.mem i = FAT32_FAT_EMPTY_ENTRY
      · rw [if_pos h0, List.filter_cons_of_pos (by simpa using h0)]
      · rw [if_neg h0, List.filter_cons_of_neg (by simpa using h0)]
        exact ih fun j hj => his j (List.mem_cons_of_mem _ hj)

/-- `write` of a folder is one scan for a free cluster. -/
theorem write_of_folder (hp : r.parent < 512) (h0 : s.mem r.parent ≠ FAT32_FAT_EMPTY_ENTRY)
    (hs : r.bufferSize = 0) :
    write fuel k r s =
      some (⟨if (scanFolder k r scanIndices (s.fill 512 (s.cluster r.parent))).2 then 0 else -1,
        r.buf⟩, (scanFolder k r scanIndices (s.fill 512 (s.cluster r.parent))).1) := by
  simp only [write, State.clusterMap_of_lt hp, State.touch_of_lt hp, if_neg h0, if_pos hs]

/-- The state after the body of the folder loop. -/
theorem placeFolder_eq {i : ℕ} (hi : i < 512) {t : DirectoryTable} {m : State}
    (ht : insertEntry s.dirTableBuf (folderEntry k r i) = t)
    (hm : (s.setDirTableBuf t).writeCluster i
      (tableLayout (initDirectoryTable k.newFolder r.name r.parent)) = m) :
    placeFolder k r i s =
      (State.writeFat
        { m with mem := Function.update m.mem i FAT32_FAT_END_OF_FILE }).writeCluster r.parent
          (tableLayout t) := by
  have hbuf : m.dirTableBuf = t := by
    rw [← hm, State.dirTableBuf_writeCluster, State.dirTableBuf_setDirTableBuf]
  simp only [placeFolder, ht, hm, State.setClusterMap_of_lt hi, State.writeFat,
    State.dirTableBuf_writeCluster, State.dirTableBuf_update hi, hbuf]

/-- What it leaves: the table in memory with the folder's cluster taken, and on the disk
the new directory, the table and the parent. -/
theorem placeFolder_effect {f : ℕ} {q : State} (hf : f < 512)
    (hq : placeFolder k r f (s.fill 512 (s.cluster r.parent)) = q) :
    (∀ c < 512, q.mem c = Function.update s.mem f FAT32_FAT_END_OF_FILE c) ∧
    q.disk = writeClusters (writeClusters (writeClusters s.disk f
      (tableLayout (initDirectoryTable k.newFolder r.name r.parent))) 1
      (wordsLayout fun i => q.mem i)) r.parent
      (tableLayout (insertEntry (s.table r.parent) (folderEntry k r f))) ∧
    q.stray = s.stray := by
  have hbuf : (s.fill 512 (s.cluster r.parent)).dirTableBuf = s.table r.parent :=
    State.dirTableBuf_fill _
  rw [placeFolder_eq hf (t := insertEntry (s.table r.parent) (folderEntry k r f))
    (by rw [hbuf]) rfl] at hq
  subst hq
  refine ⟨fun c hc => ?_, rfl, rfl⟩
  simp only [State.writeCluster_mem, State.writeFat_mem, Function.update_apply]
  split_ifs
  · rfl
  · exact (State.setDirTableBuf_mem_of_lt _ hc).trans (State.fill_mem_of_lt _ hc)

/-- **A folder with room.**  The table has an EMPTY entry; whether the parent has
a free slot is not asked. -/
theorem write_folder (hp : 2 ≤ r.parent ∧ r.parent < 512)
    (h0 : s.mem r.parent ≠ FAT32_FAT_EMPTY_ENTRY) (hs : r.bufferSize = 0)
    (hfree : freeList s.mem ≠ []) :
    ∃ f s', write fuel k r s = some (⟨0, r.buf⟩, s') ∧ Created r (folderEntry k r f) [f] s s' ∧
      s'.table f = initDirectoryTable k.newFolder r.name r.parent ∧
      [f] <+: freeList s.mem := by
  obtain ⟨f, R, hF⟩ := List.exists_cons_of_ne_nil hfree
  have hf : f ∈ freeList s.mem := hF ▸ List.mem_cons_self
  obtain ⟨⟨hf2, hf512⟩, hf0⟩ := mem_freeList.1 hf
  have hfp : f ≠ r.parent := fun h => h0 (h ▸ hf0)
  have hscan : scanFolder k r scanIndices (s.fill 512 (s.cluster r.parent)) =
      (placeFolder k r f (s.fill 512 (s.cluster r.parent)), true) := by
    rw [scanIndices_eq, scanFolder_eq fun i hi => (mem_tableIndices.1 hi).2]
    have hlist : tableIndices.filter
        (fun i => (s.fill 512 (s.cluster r.parent)).mem i = FAT32_FAT_EMPTY_ENTRY) = f :: R :=
      (freeList_congr fun c hc => State.fill_mem_of_lt _ hc).trans hF
    rw [hlist]
  obtain ⟨q, hq⟩ : ∃ q, placeFolder k r f (s.fill 512 (s.cluster r.parent)) = q := ⟨_, rfl⟩
  obtain ⟨hqm, hqd, hstray⟩ := placeFolder_effect hf512 hq
  have hqc : ∀ c < 512, c ≠ 1 → c ≠ r.parent → q.cluster c =
      readClusters (writeClusters s.disk f
        (tableLayout (initDirectoryTable k.newFolder r.name r.parent))) c := by
    intro c hc hc1 hcp
    rw [State.cluster, hqd, readClusters_writeClusters_ne _ _ hp.2 hc hcp,
      readClusters_writeClusters_ne _ _ (by decide) hc hc1]
  refine ⟨f, q, ?_, ?_, ?_, ⟨R, hF.symm⟩⟩
  · rw [write_of_folder hp.2 h0 hs, hscan, hq]
    rfl
  · refine
      { name := rfl
        used := rfl
        filesize := rfl
        chain := ?_
        free := fun c hc => List.mem_singleton.1 hc ▸ hf
        mem := fun c hc hcF => (hqm c hc).trans
          (Function.update_of_ne (List.ne_of_not_mem_cons hcF) _ _)
        stray := hstray
        boot := ?_
        fat := ?_
        parent := ?_
        other := ?_ }
    · rw [folderEntry_cluster hf512]
      exact .last (by rw [fatNext, hqm f hf512, Function.update_self, if_pos rfl])
    · rw [hqd, writeClusters_boot _ _ (by omega), writeClusters_boot _ _ (by decide),
        writeClusters_boot _ _ (by omega)]
    · rw [State.cluster, hqd, readClusters_writeClusters_ne _ _ hp.2 (by decide) (by omega),
        readClusters_writeClusters_self]
      rfl
    · refine State.table_of_cluster ?_
      rw [State.cluster, hqd, readClusters_writeClusters_self]
    · intro c hc hc1 hcp hcF
      rw [hqc c hc hc1 hcp, readClusters_writeClusters_ne _ _ hf512 hc
        (List.ne_of_not_mem_cons hcF)]
      rfl
  · refine State.table_of_cluster ?_
    rw [hqc f hf512 (by omega) hfp, readClusters_writeClusters_self]

end Fat32
end Jatos
