/-
# What a request depends on

Two states agree up to word `n` when they have the same disk, the same first `n`
words of memory and the same ghost.  A request depends on the disk and the 512
words of the table alone, as long as it uses no index past the table: what
`dir_table_buf` holds is loaded first, and what lies behind it is never read.
So states that agree on the table answer alike and agree afterwards
(`exec_agree`).  The mark of an index past the table is never taken back, so a
request that returns without it has used none.
-/

import Jatos.Fat32.Service

namespace Jatos
namespace Fat32

open Packed

variable {r : Request} {k : Stack} {s t s' : State} {o : Reply} {n i : ℕ} {fuel : ℕ}

/-- The same disk, the same words below `n`, the same ghost. -/
structure Agree (n : ℕ) (s t : State) : Prop where
  disk : t.disk = s.disk
  mem : ∀ c < n, t.mem c = s.mem c
  stray : t.stray = s.stray

namespace Agree

/-- Agreement up to a bound is agreement below it. -/
theorem mono {m : ℕ} (h : Agree n s t) (hm : m ≤ n) : Agree m s t :=
  ⟨h.disk, fun c hc => h.mem c (hc.trans_le hm), h.stray⟩

/-- States that agree have the same clusters. -/
theorem cluster (h : Agree n s t) (c : ℕ) : t.cluster c = s.cluster c :=
  State.cluster_congr h.disk c

/-- They have the same tables. -/
theorem table (h : Agree n s t) (d : ℕ) : t.table d = s.table d := State.table_congr (h.cluster d)

/-- They have the same words of the map. -/
theorem clusterMap (h : Agree n s t) (hi : i < 512) (hn : 512 ≤ n) :
    t.clusterMap i = s.clusterMap i := by
  rw [State.clusterMap_of_lt hi, State.clusterMap_of_lt hi, h.mem i (hi.trans_le hn)]

/-- They have the same `dir_table_buf`. -/
theorem dirTableBuf (h : Agree 1024 s t) : t.dirTableBuf = s.dirTableBuf :=
  State.dirTableBuf_congr fun c _ hc => h.mem c hc

/-- They have the same `fat_table`. -/
theorem fatTable (h : Agree n s t) (hn : 512 ≤ n) : t.fatTable = s.fatTable :=
  State.fatTable_congr fun c hc => h.mem c (hc.trans_le hn)

/-- They agree on which access went astray. -/
theorem touch (h : Agree n s t) (i : ℕ) : Agree n (s.touch i) (t.touch i) := by
  unfold State.touch
  split_ifs
  · exact h
  · exact ⟨h.disk, h.mem, rfl⟩

/-- A word of the map is written in both. -/
theorem setClusterMap (h : Agree n s t) (i : ℕ) (v : UInt32) :
    Agree n (s.setClusterMap i v) (t.setClusterMap i v) := by
  have ht := h.touch i
  refine ⟨ht.disk, fun c hc => ?_, ht.stray⟩
  simp only [State.setClusterMap, Function.update_apply, h.mem c hc]

/-- A cluster is written in both. -/
theorem writeCluster (h : Agree n s t) (c : ℕ) (b : Cluster) :
    Agree n (s.writeCluster c b) (t.writeCluster c b) :=
  ⟨by simp only [State.writeCluster_disk, h.disk], h.mem, h.stray⟩

/-- The map is stored in both. -/
theorem writeFat (h : Agree n s t) (hn : 512 ≤ n) : Agree n s.writeFat t.writeFat := by
  rw [State.writeFat, State.writeFat, h.fatTable hn]
  exact h.writeCluster _ _

/-- The memory is filled in both. -/
theorem fill (h : Agree n s t) (o : ℕ) (b : Cluster) : Agree n (s.fill o b) (t.fill o b) := by
  refine ⟨h.disk, fun c hc => ?_, h.stray⟩
  simp only [State.fill, h.mem c hc]

/-- `dir_table_buf` is set in both. -/
theorem setDirTableBuf (h : Agree n s t) (x : DirectoryTable) :
    Agree n (s.setDirTableBuf x) (t.setDirTableBuf x) :=
  h.fill _ _

/-- Loading `dir_table_buf` makes it agree. -/
theorem load (h : Agree 512 s t) (b : Cluster) : Agree 1024 (s.fill 512 b) (t.fill 512 b) := by
  refine ⟨h.disk, fun c hc => ?_, h.stray⟩
  by_cases hlt : c < 512
  · rw [State.fill_mem_of_lt _ hlt, State.fill_mem_of_lt _ hlt, h.mem c hlt]
  · rw [State.fill_mem_of_mem _ (by omega), State.fill_mem_of_mem _ (by omega)]

end Agree

/-- Without the mark the index was one of the table. -/
theorem State.lt_of_touch (h : (s.touch i).stray = false) : i < 512 := by
  by_contra hi
  rw [State.stray_touch_of_le (Nat.not_lt.1 hi)] at h
  cases h

/-- No access went astray before if none has gone astray since. -/
theorem stray_false_of {x y : Bool} (h : x = true → y = true) (hy : y = false) : x = false := by
  cases x with
  | false => rfl
  | true => exact absurd (h rfl) (by rw [hy]; exact Bool.false_ne_true)

/-! ### Reading -/

/-- An access of `read` that went astray is not forgotten. -/
theorem stray_readChain {size w a : ℕ} {buf : Buffer} (h : s.stray = true)
    (hr : readChain size fuel s buf w a = some (o, s')) : s'.stray = true := by
  induction fuel generalizing s buf w a with
  | zero => cases hr
  | succ fuel ih =>
      rw [readChain] at hr
      split_ifs at hr
      · cases hr
        exact h
      simp only at hr
      split_ifs at hr
      · cases hr
        exact State.stray_touch h
      · exact ih (State.stray_touch h) hr

/-- The copy loop. -/
theorem readChain_agree {size w a : ℕ} {buf : Buffer} (h : Agree 512 s t)
    (hr : readChain size fuel s buf w a = some (o, s')) (hs : s'.stray = false) :
    ∃ t', readChain size fuel t buf w a = some (o, t') ∧ Agree 512 s' t' := by
  induction fuel generalizing s t buf w a with
  | zero => cases hr
  | succ fuel ih =>
      rw [readChain] at hr ⊢
      by_cases hsize : size < w * CLUSTER_MAP_SIZE % 2 ^ 32
      · rw [if_pos hsize] at hr ⊢
        cases hr
        exact ⟨t, rfl, h⟩
      rw [if_neg hsize] at hr ⊢
      simp only at hr ⊢
      have ha : a < 512 := by
        refine State.lt_of_touch (s := s) ?_
        by_cases hend : s.clusterMap a = FAT32_FAT_END_OF_FILE
        · rw [if_pos hend] at hr
          cases hr
          exact hs
        · rw [if_neg hend] at hr
          exact stray_false_of (fun hst => stray_readChain hst hr) hs
      rw [h.clusterMap ha le_rfl, h.cluster]
      by_cases hend : s.clusterMap a = FAT32_FAT_END_OF_FILE
      · rw [if_pos hend] at hr ⊢
        cases hr
        exact ⟨_, rfl, h.touch a⟩
      · rw [if_neg hend] at hr ⊢
        exact ih (h.touch a) hr

/-- `read` does the same in states that agree. -/
theorem read_agree (h : Agree 512 s t) (hr : Fat32.read fuel r s = some (o, s'))
    (hs : s'.stray = false) : ∃ t', Fat32.read fuel r t = some (o, t') ∧ Agree 512 s' t' := by
  rw [Fat32.read] at hr ⊢
  rw [h.table]
  split_ifs at hr ⊢
  · cases hr
    exact ⟨t, rfl, h⟩
  simp only at hr ⊢
  cases hi : findSlot (s.table r.parent) r.name with
  | none =>
      simp only [hi] at hr ⊢
      cases hr
      exact ⟨t, rfl, h⟩
  | some i =>
      simp only [hi] at hr ⊢
      split_ifs at hr ⊢
      · cases hr
        exact ⟨t, rfl, h⟩
      · exact readChain_agree h hr hs

/-- `read_directory` does the same in states that agree. -/
theorem readDirectory_agree (h : Agree 512 s t) : readDirectory r t = readDirectory r s := by
  simp only [readDirectory, h.table, h.cluster]

/-! ### Deleting -/

/-- An access of the loop of `delete` that went astray is not forgotten. -/
theorem stray_deleteChain {a : ℕ} (h : s.stray = true) (hd : deleteChain fuel a s = some s') :
    s'.stray = true := by
  induction fuel generalizing s a with
  | zero => cases hd
  | succ fuel ih =>
      rw [deleteChain] at hd
      split_ifs at hd
      · cases hd
        exact State.stray_setClusterMap (v := 0) h
      · have hst : ((s.setClusterMap a FAT32_FAT_EMPTY_ENTRY).writeCluster a 0).stray = true :=
          State.stray_setClusterMap (v := FAT32_FAT_EMPTY_ENTRY) h
        exact ih hst hd

/-- The freeing loop. -/
theorem deleteChain_agree {a : ℕ} (h : Agree 512 s t) (hd : deleteChain fuel a s = some s')
    (hs : s'.stray = false) : ∃ t', deleteChain fuel a t = some t' ∧ Agree 512 s' t' := by
  induction fuel generalizing s t a with
  | zero => cases hd
  | succ fuel ih =>
      rw [deleteChain] at hd ⊢
      have hnext := (h.setClusterMap a FAT32_FAT_EMPTY_ENTRY).writeCluster a 0
      have ha : a < 512 := by
        refine State.lt_of_touch (s := s) ?_
        change ((s.setClusterMap a FAT32_FAT_EMPTY_ENTRY).writeCluster a 0).stray = false
        by_cases hend : s.clusterMap a = FAT32_FAT_END_OF_FILE
        · rw [if_pos hend] at hd
          cases hd
          exact hs
        · rw [if_neg hend] at hd
          exact stray_false_of (fun hst => stray_deleteChain hst hd) hs
      rw [h.clusterMap ha le_rfl]
      by_cases hend : s.clusterMap a = FAT32_FAT_END_OF_FILE
      · rw [if_pos hend] at hd ⊢
        cases hd
        exact ⟨_, rfl, hnext⟩
      · rw [if_neg hend] at hd ⊢
        exact ih hnext hd

/-- `delete` does the same in states that agree. -/
theorem delete_agree {peek : ℕ → Option UInt8} {c : ℤ} (h : Agree 512 s t)
    (hd : Fat32.delete fuel peek r s = some (c, s')) (hs : s'.stray = false) :
    ∃ t', Fat32.delete fuel peek r t = some (c, t') ∧ Agree 512 s' t' := by
  cases delete_returns hd with
  | unnamed hn => exact ⟨t, delete_empty_name hn, h⟩
  | missing hn hi =>
      rw [← h.table] at hi
      exact ⟨t, delete_missing hn hi, h⟩
  | refused i hn hi hx htest =>
      rw [emptinessTest, ← h.cluster, ← h.table] at htest
      rw [← h.table] at hi
      refine ⟨t, ?_, h⟩
      rw [delete_of_folder hn hx hi, emptinessTest, htest]
      rfl
  | folder i hn hi hx htest =>
      rw [emptinessTest, ← h.cluster, ← h.table] at htest
      rw [← h.table] at hi
      refine ⟨unmark r i t, ?_, ?_⟩
      · rw [delete_of_folder hn hx hi, emptinessTest, htest]
        rfl
      · have htab : unmarked t r.parent i = unmarked s r.parent i := by
          rw [unmarked, unmarked, h.table, h.cluster]
        rw [unmark, unmark, htab, h.table]
        exact ((h.setClusterMap _ _).writeFat le_rfl).writeCluster _ _
  | file i s₁ hn hi hx hchain =>
      obtain ⟨t₁, ht₁, h₁⟩ := deleteChain_agree h hchain hs
      rw [← h.table] at hi ht₁ ⊢
      exact ⟨_, by rw [delete_of_file hn hx hi, ht₁, Option.map_some],
        (h₁.writeFat le_rfl).writeCluster _ _⟩

/-! ### Writing -/

/-- A new folder is placed alike in states that agree. -/
theorem placeFolder_agree (h : Agree 1024 s t) (i : ℕ) :
    Agree 1024 (placeFolder k r i s) (placeFolder k r i t) := by
  have h₁ := h.setDirTableBuf (insertEntry s.dirTableBuf (folderEntry k r i))
  have h₂ := (h₁.writeCluster i
    (tableLayout (initDirectoryTable k.newFolder r.name r.parent))).setClusterMap i
      FAT32_FAT_END_OF_FILE
  have h₃ := h₂.writeFat (by decide)
  simp only [placeFolder, h.dirTableBuf]
  rw [h₃.dirTableBuf]
  exact h₃.writeCluster _ _

/-- The folder loop. -/
theorem scanFolder_agree {is : List ℕ} (h : Agree 1024 s t)
    (hs : (scanFolder k r is s).1.stray = false) :
    (scanFolder k r is t).2 = (scanFolder k r is s).2 ∧
      Agree 1024 (scanFolder k r is s).1 (scanFolder k r is t).1 := by
  induction is generalizing s t with
  | nil => exact ⟨rfl, h⟩
  | cons i is ih =>
      have hi : i < 512 := by
        by_contra hi
        rw [stray_scanFolder _ (Or.inr ⟨i, rfl, Nat.not_lt.1 hi⟩)] at hs
        cases hs
      rw [scanFolder, scanFolder, h.clusterMap hi (by decide)]
      rw [scanFolder] at hs
      split_ifs at hs ⊢
      · exact ⟨rfl, placeFolder_agree (h.touch i) i⟩
      · exact ih (h.touch i) hs

/-- The variables of the file loops agree. -/
structure Progress.Agree (p q : Progress) : Prop where
  state : Fat32.Agree 1024 p.state q.state
  rest : q = { p with state := q.state }

/-- A loop is left in the same way, with variables that agree. -/
inductive Scan.Agree : Scan → Scan → Prop
  | returned {code : ℤ} {p q : Progress} : p.Agree q → Agree (.returned code p) (.returned code q)
  | broke {p q : Progress} : p.Agree q → Agree (.broke p) (.broke q)
  | ended {p q : Progress} : p.Agree q → Agree (.ended p) (.ended q)

/-- A file's entry is opened alike. -/
theorem openFile_agree {p q : Progress} (h : p.Agree q) (i : ℕ) :
    (openFile r i p).Agree (openFile r i q) := by
  have hbuf := h.state.dirTableBuf
  cases hj : freeSlot p.state.dirTableBuf with
  | none =>
      rw [openFile_of_full hj, openFile_of_full (hbuf.symm ▸ hj)]
      refine ⟨h.state, ?_⟩
      rw [h.rest]
  | some j =>
      rw [openFile_of_free hj, openFile_of_free (hbuf.symm ▸ hj), hbuf]
      refine ⟨(h.state.setDirTableBuf _).writeCluster _ _, ?_⟩
      rw [h.rest]

/-- A cluster of a file is placed alike. -/
theorem placeCluster_agree {p q : Progress} (h : p.Agree q) (i : ℕ) :
    Scan.Agree (placeCluster r i p) (placeCluster r i q) := by
  obtain ⟨hs, hrest⟩ := h
  generalize q.state = t at hs hrest
  subst hrest
  have h₁ : ∀ b, Fat32.Agree 1024 ((p.state.writeCluster i 0).writeCluster i b)
      ((t.writeCluster i 0).writeCluster i b) := fun b => (hs.writeCluster i 0).writeCluster i b
  have hn : 512 ≤ 1024 := by decide
  simp only [placeCluster]
  split_ifs
  · exact .broke ⟨(((h₁ _).setClusterMap _ _).setClusterMap _ _).writeFat hn, rfl⟩
  · exact .broke ⟨((h₁ _).setClusterMap _ _).writeFat hn, rfl⟩
  · exact .ended ⟨(h₁ _).setClusterMap _ _, rfl⟩
  · exact .ended ⟨h₁ _, rfl⟩

/-- A round of the loop over the map is alike. -/
theorem fileStep_agree {p q : Progress} (h : p.Agree q) (i : ℕ) :
    Scan.Agree (fileStep r i p) (fileStep r i q) := by
  have hopen := openFile_agree (r := r) h i
  have hw : q.written = p.written := by rw [h.rest]
  have hslot : (openFile r i q).slotAvailable = (openFile r i p).slotAvailable := by
    rw [hopen.rest]
  simp only [fileStep, hw, hslot]
  split_ifs
  · exact placeCluster_agree hopen i
  · exact .returned hopen
  · exact placeCluster_agree h i

/-- The file loop. -/
theorem scanFile_agree {is : List ℕ} {p q : Progress} (h : p.Agree q)
    (hs : (scanFile r is p).progress.state.stray = false) :
    Scan.Agree (scanFile r is p) (scanFile r is q) := by
  induction is generalizing p q with
  | nil => exact .ended h
  | cons i is ih =>
      have hi : i < 512 := by
        by_contra hi
        rw [stray_scanFile _ (Or.inr ⟨i, rfl, Nat.not_lt.1 hi⟩)] at hs
        cases hs
      have htouch : Progress.Agree { p with state := p.state.touch i }
          { q with state := q.state.touch i } := by
        refine ⟨h.state.touch i, ?_⟩
        rw [h.rest]
      rw [scanFile, scanFile, h.state.clusterMap hi (by decide)]
      rw [scanFile] at hs
      split_ifs at hs ⊢
      · have hstep := fileStep_agree (r := r) htouch i
        generalize fileStep r i { p with state := p.state.touch i } = x at hstep hs ⊢
        generalize fileStep r i { q with state := q.state.touch i } = y at hstep ⊢
        cases hstep with
        | returned hpq => exact .returned hpq
        | broke hpq => exact .broke hpq
        | ended hpq => exact ih hpq hs
      · exact ih htouch hs

/-- The loop of `write` does the same. -/
theorem writeLoop_agree {p q p' : Progress} {code : ℤ} (h : p.Agree q)
    (hw : writeLoop r fuel p = some (code, p')) (hs : p'.state.stray = false) :
    ∃ q', writeLoop r fuel q = some (code, q') ∧ p'.Agree q' := by
  induction fuel generalizing p q with
  | zero => cases hw
  | succ fuel ih =>
      have hwritten : q.written = p.written := by rw [h.rest]
      have hloop := hw
      rw [writeLoop] at hw ⊢
      rw [hwritten]
      by_cases hlt : p.written < clusterNeed r.bufferSize.toNat
      · rw [if_pos hlt] at hw ⊢
        -- the pass of this loop used no index past the table either
        have hclean : (scanFile r scanIndices p).progress.state.stray = false := by
          refine stray_false_of (fun hst => ?_) hs
          exact stray_writeLoop_scan hlt hst hloop
        have hscan := scanFile_agree (r := r) h hclean
        generalize scanFile r scanIndices p = x at hscan hw
        generalize scanFile r scanIndices q = y at hscan ⊢
        cases hscan with
        | returned hpq =>
            cases hw
            exact ⟨_, rfl, hpq⟩
        | broke hpq => exact ih hpq hw
        | ended hpq => exact ih hpq hw
      · rw [if_neg hlt] at hw ⊢
        cases hw
        exact ⟨q, rfl, h⟩

/-- An access of `write` that went astray is not forgotten. -/
theorem stray_write (h : (s.touch r.parent).stray = true) (hw : write fuel k r s = some (o, s')) :
    s'.stray = true := by
  simp only [write] at hw
  by_cases h0 : s.clusterMap r.parent = FAT32_FAT_EMPTY_ENTRY
  · rw [if_pos h0] at hw
    cases hw
    exact h
  rw [if_neg h0] at hw
  by_cases hs0 : r.bufferSize = 0
  · rw [if_pos hs0] at hw
    obtain ⟨-, rfl⟩ := Prod.mk.inj (Option.some.inj hw)
    exact stray_scanFolder _ (Or.inl h)
  · rw [if_neg hs0, Option.map_eq_some_iff] at hw
    obtain ⟨⟨code, q⟩, hloop, hq⟩ := hw
    obtain ⟨-, rfl⟩ := Prod.mk.inj hq
    exact stray_writeLoop h hloop

/-- `write` does the same in states that agree. -/
theorem write_agree (h : Agree 512 s t) (hw : write fuel k r s = some (o, s'))
    (hs : s'.stray = false) : ∃ t', write fuel k r t = some (o, t') ∧ Agree 512 s' t' := by
  have htouch := h.touch r.parent
  have hload := htouch.load ((s.touch r.parent).cluster r.parent)
  have hp : r.parent < 512 :=
    State.lt_of_touch (s := s) (stray_false_of (fun hst => stray_write hst hw) hs)
  simp only [write, h.clusterMap hp le_rfl, htouch.cluster] at hw ⊢
  by_cases h0 : s.clusterMap r.parent = FAT32_FAT_EMPTY_ENTRY
  · rw [if_pos h0] at hw ⊢
    cases hw
    exact ⟨_, rfl, htouch⟩
  rw [if_neg h0] at hw ⊢
  by_cases hs0 : r.bufferSize = 0
  · rw [if_pos hs0] at hw ⊢
    obtain ⟨rfl, rfl⟩ := Prod.mk.inj (Option.some.inj hw)
    obtain ⟨hflag, hagree⟩ := scanFolder_agree hload hs
    rw [hflag]
    exact ⟨_, rfl, hagree.mono (by decide)⟩
  · rw [if_neg hs0, Option.map_eq_some_iff] at hw
    obtain ⟨⟨code, p'⟩, hloop, hq⟩ := hw
    obtain ⟨rfl, rfl⟩ := Prod.mk.inj hq
    have hstart : Progress.Agree
        ⟨(s.touch r.parent).fill 512 ((s.touch r.parent).cluster r.parent), r.buf, 0, 0, false⟩
        ⟨(t.touch r.parent).fill 512 ((s.touch r.parent).cluster r.parent), r.buf, 0, 0, false⟩ :=
      ⟨hload, rfl⟩
    obtain ⟨q', hloop', hpq⟩ := writeLoop_agree hstart hloop hs
    rw [if_neg hs0, hloop']
    refine ⟨q'.state, ?_, hpq.state.mono (by decide)⟩
    rw [Option.map_some, hpq.rest]

/-! ### Requests -/

/-- `read` does not forget that an access went astray. -/
theorem stray_read (h : s.stray = true) (hr : Fat32.read fuel r s = some (o, s')) :
    s'.stray = true := by
  rw [Fat32.read] at hr
  by_cases hn : sameBytes r.name 0 = true
  · rw [if_pos hn] at hr
    cases hr
    exact h
  rw [if_neg hn] at hr
  cases hi : findSlot (s.table r.parent) r.name with
  | none =>
      simp only [hi] at hr
      cases hr
      exact h
  | some i =>
      simp only [hi] at hr
      split_ifs at hr
      · cases hr
        exact h
      · exact stray_readChain h hr

/-- `delete` does not forget that an access went astray. -/
theorem stray_delete {peek : ℕ → Option UInt8} {c : ℤ} (h : s.stray = true)
    (hd : Fat32.delete fuel peek r s = some (c, s')) : s'.stray = true := by
  cases delete_returns hd with
  | unnamed => exact h
  | missing => exact h
  | refused => exact h
  | folder => exact State.stray_setClusterMap (v := FAT32_FAT_EMPTY_ENTRY) h
  | file i s₁ hn hi hx hchain =>
      have hs₁ : s₁.stray = true := stray_deleteChain h hchain
      exact hs₁

/-- The mark stays. -/
theorem stray_exec {op : Op} (h : s.stray = true) (hx : exec fuel op s = some (o, s')) :
    s'.stray = true := by
  cases op with
  | read r => exact stray_read h hx
  | readDirectory r =>
      cases hx
      exact h
  | write k r => exact stray_write (State.stray_touch h) hx
  | delete peek r =>
      rw [exec, Option.map_eq_some_iff] at hx
      obtain ⟨⟨c, s₁⟩, hd, hq⟩ := hx
      obtain ⟨-, rfl⟩ := Prod.mk.inj hq
      exact stray_delete h hd

/-- **One request.**  If it returns without the mark, it answers alike in every
state that agrees on the table. -/
theorem exec_agree {op : Op} (h : Agree 512 s t) (hx : exec fuel op s = some (o, s'))
    (hs : s'.stray = false) : ∃ t', exec fuel op t = some (o, t') ∧ Agree 512 s' t' := by
  cases op with
  | read r => exact read_agree h hx hs
  | readDirectory r =>
      cases hx
      exact ⟨t, by rw [exec, readDirectory_agree h], h⟩
  | write k r => exact write_agree h hx hs
  | delete peek r =>
      rw [exec, Option.map_eq_some_iff] at hx
      obtain ⟨⟨c, s₁⟩, hd, hq⟩ := hx
      obtain ⟨rfl, rfl⟩ := Prod.mk.inj hq
      obtain ⟨t', hd', h'⟩ := delete_agree h hd hs
      exact ⟨t', by rw [exec, hd']; rfl, h'⟩

end Fat32
end Jatos
