/-
# What `read` and `delete` do along a chain

Both follow the links of `cluster_map` until the end mark.  On a chain of the
table they visit exactly its clusters: `read` copies them to the buffer, one
after the other (`readChain_eq`), and `delete` frees and clears each after it
has read its link (`deleteChain_eq`).

The file branch of `delete` then clears the slot and stores the parent's table
(`delete_file`, `Removed`).  The folder branch frees one cluster and stores what
the read of the folder has made of that table (`unmark`), so the other entries of
the parent go with the folder.
-/

import Jatos.Fat32.WriteSpec

namespace Jatos
namespace Fat32

open Packed Linked

variable {r : Request} {s : State} {fuel a b w size : ℕ} {buf : Buffer} {l : List ℕ} {i : Fin 64}

/-! ### One round of a loop -/

/-- The entry that `cluster_map` leads to from an index, which may be past the table. -/
def State.links (s : State) (i : ℕ) : Option ℕ := fatNext s.mem (mapWord i)

/-- Inside the table, a cell leads where its word says. -/
theorem State.links_of_lt (ha : a < 512) : s.links a = fatNext s.mem a := by
  rw [State.links, mapWord, Nat.mod_eq_of_lt (by omega)]

/-- Naming a cell changes no link. -/
@[simp] theorem State.links_touch {i : ℕ} : (s.touch i).links = s.links := by
  funext a
  rw [State.links, State.touch_mem, State.links]

/-- The test before cluster `w` lets it through. -/
def Passes (size w : ℕ) : Prop := ¬size < w * CLUSTER_MAP_SIZE % 2 ^ 32

/-- The walk's limit is met until as many blocks of 512 bytes are read as the size has. -/
theorem passes_iff (size w : ℕ) (hwrap : w * 512 < 2 ^ 32) : Passes size w ↔ w ≤ size / 512 := by
  simp only [Passes, CLUSTER_MAP_SIZE]
  omega

/-- A reading walk that has reached its limit answers 2. -/
theorem readChain_stop (hw : ¬Passes size w) :
    readChain size (fuel + 1) s buf w a = some (⟨2, buf⟩, s) := by
  rw [readChain, if_pos (not_not.1 hw)]

/-- A reading walk stores the last cluster of a chain and answers 0. -/
theorem readChain_ends (hw : Passes size w) (hn : s.links a = none) :
    readChain size (fuel + 1) s buf w a =
      some (⟨0, buf.putCluster w (s.cluster a)⟩, s.touch a) := by
  have hend : s.clusterMap a = FAT32_FAT_END_OF_FILE := fatNext_eq_none.1 hn
  rw [readChain, if_neg hw]
  simp only [hend, if_true]

/-- A reading walk stores a cluster and goes on to the next. -/
theorem readChain_leads (hw : Passes size w) (hn : s.links a = some b) :
    readChain size (fuel + 1) s buf w a =
      readChain size fuel (s.touch a) (buf.putCluster w (s.cluster a)) (w + 1) b := by
  obtain ⟨hne, rfl⟩ := fatNext_eq_some.1 hn
  rw [readChain, if_neg hw]
  exact if_neg hne

/-- A reading walk inside the table stores the last cluster and changes nothing. -/
theorem readChain_last (hw : Passes size w) (ha : a < 512) (hn : fatNext s.mem a = none) :
    readChain size (fuel + 1) s buf w a = some (⟨0, buf.putCluster w (s.cluster a)⟩, s) := by
  rw [readChain_ends hw ((State.links_of_lt ha).trans hn), State.touch_of_lt ha]

/-- A reading walk inside the table stores a cluster and goes on. -/
theorem readChain_link (hw : Passes size w) (ha : a < 512) (hn : fatNext s.mem a = some b) :
    readChain size (fuel + 1) s buf w a =
      readChain size fuel s (buf.putCluster w (s.cluster a)) (w + 1) b := by
  rw [readChain_leads hw ((State.links_of_lt ha).trans hn), State.touch_of_lt ha]

/-- The body of the freeing loop. -/
def erase (s : State) (a : ℕ) : State :=
  (s.setClusterMap a FAT32_FAT_EMPTY_ENTRY).writeCluster a 0

/-- A deleting walk erases the last cluster of a chain and ends. -/
theorem deleteChain_last (ha : a < 512) (hn : fatNext s.mem a = none) :
    deleteChain (fuel + 1) a s = some (erase s a) := by
  rw [deleteChain, State.clusterMap_of_lt ha, if_pos (fatNext_eq_none.1 hn)]
  rfl

/-- A deleting walk erases a cluster and goes on to the next. -/
theorem deleteChain_link (ha : a < 512) (hn : fatNext s.mem a = some b) :
    deleteChain (fuel + 1) a s = deleteChain fuel b (erase s a) := by
  obtain ⟨hne, rfl⟩ := fatNext_eq_some.1 hn
  rw [deleteChain, State.clusterMap_of_lt ha, if_neg hne]
  rfl

/-- Erasing a cluster empties its cell. -/
theorem erase_mem (ha : a < 512) :
    (erase s a).mem = Function.update s.mem a FAT32_FAT_EMPTY_ENTRY := by
  rw [erase, State.setClusterMap_of_lt ha]
  rfl

/-- Erasing a cluster of the table names no cell past it. -/
theorem erase_stray (ha : a < 512) : (erase s a).stray = s.stray := by
  rw [erase, State.setClusterMap_of_lt ha]
  rfl

/-- Erasing a cluster of the data area leaves the boot sector alone. -/
theorem erase_boot (ha : 2 ≤ a ∧ a < 512) : (erase s a).disk 0 = s.disk 0 := by
  rw [erase, State.setClusterMap_of_lt ha.2]
  exact writeClusters_boot _ _ (by omega)

/-- Erasing a cluster zeroes it, and no other. -/
theorem erase_cluster (ha : 2 ≤ a ∧ a < 512) {c : ℕ} (hc : c < 512) :
    (erase s a).cluster c = if c = a then 0 else s.cluster c := by
  rw [erase, State.setClusterMap_of_lt ha.2]
  split_ifs with h
  · exact h ▸ State.cluster_writeCluster_self _ _
  · exact State.cluster_writeCluster_ne _ ha.2 hc h

/-! ### Reading -/

/-- **The copy loop on a chain.**  With `w` clusters copied before it, the loop
copies clusters of the chain as long as the buffer passes the test
`cluster_size*CLUSTER_MAP_SIZE > buffer_size`, which it does before the clusters
`0` to `size / 512`, and it answers 0 if that is the whole chain. -/
theorem readChain_eq (size : ℕ) (buf : Buffer) (w : ℕ) (h : FatChain s.mem a l)
    (hl : ∀ c ∈ l, c < 512) (hwrap : (w + l.length - 1) * 512 < 2 ^ 32) (hfuel : l.length ≤ fuel) :
    ∃ buf', readChain size fuel s buf w a =
        some (⟨if w + l.length ≤ size / 512 + 1 then 0 else 2, buf'⟩, s) ∧
      (∀ j, j < 2048 * w ∨ 2048 * min (w + l.length) (size / 512 + 1) ≤ j → buf' j = buf j) ∧
      ∀ m c, l[m]? = some c → w + m ≤ size / 512 →
        ∀ j : Fin 2048, buf' (2048 * (w + m) + j) = s.cluster c j := by
  induction h generalizing fuel w buf with
  | @last a hn =>
      obtain ⟨fuel, rfl⟩ : ∃ n, fuel = n + 1 := ⟨fuel - 1, by simp at hfuel; omega⟩
      have ha : a < 512 := hl a List.mem_cons_self
      simp only [List.length_singleton] at hwrap ⊢
      have hiff : Passes size w ↔ w ≤ size / 512 := by
        refine passes_iff size w (lt_of_le_of_lt (Nat.mul_le_mul_right _ ?_) hwrap)
        omega
      by_cases hpass : Passes size w
      · have hw := hiff.1 hpass
        refine ⟨buf.putCluster w (s.cluster a), ?_, fun j hj => ?_, ?_⟩
        · rw [readChain_last hpass ha hn, if_pos (by omega : w + 1 ≤ size / 512 + 1)]
        · exact Buffer.putCluster_of_notMem (by omega)
        · intro m c hm _ j
          cases m with
          | zero =>
              obtain rfl : a = c := by simpa using hm
              exact Buffer.putCluster_of_mem j.isLt
          | succ m => simp at hm
      · have hw := not_le.1 fun hle => hpass (hiff.2 hle)
        refine ⟨buf, ?_, fun j _ => rfl, fun m c hm hle => ?_⟩
        · rw [readChain_stop hpass, if_neg (by omega)]
        · omega
  | @link a b l hn hb ih =>
      obtain ⟨fuel, rfl⟩ : ∃ n, fuel = n + 1 := ⟨fuel - 1, by simp at hfuel; omega⟩
      have ha : a < 512 := hl a List.mem_cons_self
      have hpos := hb.length_pos
      rw [List.length_cons] at hwrap hfuel ⊢
      have hiff : Passes size w ↔ w ≤ size / 512 := by
        refine passes_iff size w (lt_of_le_of_lt (Nat.mul_le_mul_right _ ?_) hwrap)
        omega
      by_cases hpass : Passes size w
      · have hw := hiff.1 hpass
        have hwrap' : (w + 1 + l.length - 1) * 512 < 2 ^ 32 := by
          rwa [show w + 1 + l.length - 1 = w + (l.length + 1) - 1 by omega]
        obtain ⟨buf', hread, hother, hcopied⟩ := @ih fuel (buf.putCluster w (s.cluster a)) (w + 1)
          (fun c hc => hl c (List.mem_cons_of_mem _ hc)) hwrap' (by omega)
        refine ⟨buf', ?_, fun j hj => ?_, ?_⟩
        · rw [readChain_link hpass ha hn, hread,
            show w + 1 + l.length = w + (l.length + 1) by omega]
        · rw [hother j (by omega)]
          exact Buffer.putCluster_of_notMem (by omega)
        · intro m c hm hle j
          cases m with
          | zero =>
              obtain rfl : a = c := by simpa using hm
              rw [Nat.add_zero, hother (2048 * w + j) (by omega)]
              exact Buffer.putCluster_of_mem j.isLt
          | succ m =>
              rw [show w + (m + 1) = w + 1 + m by omega]
              exact hcopied m c (by simpa using hm) (by omega) j
      · have hw := not_le.1 fun hle => hpass (hiff.2 hle)
        refine ⟨buf, ?_, fun j _ => rfl, fun m c hm hle => ?_⟩
        · rw [readChain_stop hpass, if_neg (by omega)]
        · omega

/-- `read` answers -1 for an empty name. -/
theorem read_empty_name (hn : r.name = 0) : Fat32.read fuel r s = some (⟨-1, r.buf⟩, s) := by
  rw [Fat32.read, if_pos ((sameBytes_iff _ _).2 hn)]

/-- `read` answers 3 for a name that no slot has. -/
theorem read_missing (hn : r.name ≠ 0) (hi : findSlot (s.table r.parent) r.name = none) :
    Fat32.read fuel r s = some (⟨3, r.buf⟩, s) := by
  rw [Fat32.read, if_neg (by simpa using hn)]
  simp only [hi]

/-- `read` answers 1 for a folder. -/
theorem read_folder (hn : r.name ≠ 0) (hi : findSlot (s.table r.parent) r.name = some i)
    (hsize : (s.table r.parent i).filesize = 0) :
    Fat32.read fuel r s = some (⟨1, r.buf⟩, s) := by
  rw [Fat32.read, if_neg (by simpa using hn)]
  simp only [hi, if_pos hsize]

/-- `read` of a file is the walk along its chain. -/
theorem read_of_file (hn : r.name ≠ 0) (hi : findSlot (s.table r.parent) r.name = some i)
    (hsize : (s.table r.parent i).filesize ≠ 0) : Fat32.read fuel r s =
      readChain r.bufferSize.toNat fuel s r.buf 0 (s.table r.parent i).cluster := by
  rw [Fat32.read, if_neg (by simpa using hn)]
  simp only [hi, if_neg hsize]

/-- **A file is read whole.**  The buffer takes the clusters of its chain, in
order. -/
theorem read_file (hn : r.name ≠ 0) (hi : findSlot (s.table r.parent) r.name = some i)
    (hsize : (s.table r.parent i).filesize ≠ 0)
    (hl : FatChain s.mem (s.table r.parent i).cluster l) (hlt : ∀ c ∈ l, c < 512)
    (hlen : l.length = clusterNeed (s.table r.parent i).filesize.toNat)
    (hbuf : (s.table r.parent i).filesize.toNat ≤ r.bufferSize.toNat) (hfuel : l.length ≤ fuel) :
    ∃ buf', Fat32.read fuel r s = some (⟨0, buf'⟩, s) ∧
      ∀ size B, Stored s l size B → size ≤ 2048 * l.length → ∀ j < size, buf' j = B j := by
  have hpos := hl.length_pos
  have hfull : 2048 * (l.length - 1) < (s.table r.parent i).filesize.toNat :=
    full_of_lt_clusterNeed (by omega)
  have hbs := r.bufferSize.toNat_lt
  obtain ⟨buf', hread, -, hcopy⟩ := readChain_eq r.bufferSize.toNat r.buf 0 hl hlt
    (by omega) hfuel
  refine ⟨buf', ?_, ?_⟩
  · rw [read_of_file hn hi hsize, hread, if_pos (by omega)]
  · intro size B hB hle j hj
    have hm : j / 2048 < l.length := by omega
    have hsplit : 2048 * (j / 2048) + j % 2048 = j := Nat.div_add_mod j 2048
    have hget : l[j / 2048]? = some l[j / 2048] := List.getElem?_eq_getElem hm
    have hc := hcopy _ _ hget (by omega) ⟨j % 2048, Nat.mod_lt _ (by decide)⟩
    have hs := hB _ _ hget ⟨j % 2048, Nat.mod_lt _ (by decide)⟩ (by simp only; omega)
    simp only [Nat.zero_add, hsplit] at hc hs
    rw [hc, hs]

/-! ### Freeing a chain -/

/-- **The freeing loop on a chain.**  Its clusters become EMPTY and zero, and
nothing else changes. -/
theorem deleteChain_eq (h : FatChain s.mem a l) (hl : ∀ c ∈ l, 2 ≤ c ∧ c < 512)
    (hfuel : l.length ≤ fuel) :
    ∃ s', deleteChain fuel a s = some s' ∧
      (∀ c, s'.mem c = if c ∈ l then FAT32_FAT_EMPTY_ENTRY else s.mem c) ∧
      s'.stray = s.stray ∧ s'.disk 0 = s.disk 0 ∧
      (∀ c < 512, s'.cluster c = if c ∈ l then 0 else s.cluster c) := by
  have hnd : l.Nodup := h.nodup
  induction l generalizing a s fuel with
  | nil => exact absurd rfl h.ne_nil
  | cons x l ih =>
      obtain rfl : x = a := Chain.head_eq h
      obtain ⟨fuel, rfl⟩ : ∃ n, fuel = n + 1 := ⟨fuel - 1, by simp at hfuel; omega⟩
      obtain ⟨hx, hnd'⟩ := List.nodup_cons.1 hnd
      have ha := hl x List.mem_cons_self
      have hcl₁ := fun c (hc : c < 512) => erase_cluster (s := s) ha hc
      have hboot₁ : (erase s x).disk 0 = s.disk 0 := erase_boot ha
      have hmem₁ : ∀ c, (erase s x).mem c = if c = x then FAT32_FAT_EMPTY_ENTRY else s.mem c := by
        intro c
        rw [erase_mem ha.2, Function.update_apply]
      cases h with
      | last hn =>
          exact ⟨erase s x, deleteChain_last ha.2 hn, fun c => by simp [hmem₁], erase_stray ha.2,
            hboot₁, fun c hc => by simp [hcl₁ c hc]⟩
      | @link _ b _ hn hb =>
          have hb₁ : FatChain (erase s x).mem b l := FatChain.congr hb fun c hc => by
            rw [hmem₁, if_neg fun (he : c = x) => hx (he ▸ hc)]
          obtain ⟨s', hdel, hmem, hstray, hboot, hcl⟩ := ih hb₁
            (fun c hc => hl c (List.mem_cons_of_mem _ hc)) (by simpa using hfuel) hnd'
          refine ⟨s', (deleteChain_link ha.2 hn).trans hdel, fun c => ?_,
            hstray.trans (erase_stray ha.2), hboot.trans hboot₁, fun c hc => ?_⟩
          · rw [hmem, hmem₁]
            by_cases hcx : c = x
            · simp [hcx]
            · simp [hcx]
          · rw [hcl c hc, hcl₁ c hc]
            by_cases hcx : c = x
            · simp [hcx]
            · simp [hcx]

/-- Wherever it starts, the freeing loop leaves a cluster alone or fills it with zeros. -/
theorem deleteChain_cluster {s' : State} (h : deleteChain fuel a s = some s') (c : ℕ) :
    s'.cluster c = s.cluster c ∨ s'.cluster c = 0 := by
  induction fuel generalizing a s with
  | zero => cases h
  | succ fuel ih =>
      have hcl : (erase s a).cluster c = s.cluster c ∨ (erase s a).cluster c = 0 := by
        rw [erase, State.cluster, State.writeCluster_disk, readClusters_writeClusters]
        split_ifs
        · exact Or.inr rfl
        · exact Or.inl (State.cluster_congr (s := s.setClusterMap a _) (State.touch_disk) c)
      simp only [deleteChain] at h
      split_ifs at h with hend
      · obtain rfl := Option.some.inj h
        exact hcl
      · rcases ih h with heq | h0
        · exact heq ▸ hcl
        · exact Or.inr h0

/-! ### Deleting -/

/-- The emptiness test of the folder branch on the entry of slot `i`. -/
def emptinessTest (peek : ℕ → Option UInt8) (s : State) (d : ℕ) (i : Fin 64) : Option Bool :=
  anyUsed peek (danglingPointer (s.cluster (s.table d i).cluster)) (List.range' 1 63)

/-- The table that the folder branch stores: the overwritten one, slot `i` without
its mark. -/
def unmarked (s : State) (d : ℕ) (i : Fin 64) : DirectoryTable :=
  let t := overwritten (s.cluster (s.table d i).cluster) (s.table d)
  Function.update t i { t i with userAttribute := 0 }

/-- What the folder branch leaves, when it finds no mark: one EMPTY entry, and
that table. -/
def unmark (r : Request) (i : Fin 64) (s : State) : State :=
  (s.setClusterMap (s.table r.parent i).cluster FAT32_FAT_EMPTY_ENTRY).writeFat.writeCluster
    r.parent (tableLayout (unmarked s r.parent i))

/-- Slot `i` of a directory was cleared: the clusters of `F` became EMPTY, the
table was stored, and nothing else changed. -/
structure Removed (r : Request) (i : Fin 64) (F : List ℕ) (s s' : State) : Prop where
  mem : ∀ c < 512, s'.mem c = if c ∈ F then FAT32_FAT_EMPTY_ENTRY else s.mem c
  stray : s'.stray = s.stray
  boot : s'.disk 0 = s.disk 0
  fat : s'.cluster 1 = s'.fatTable
  parent : s'.table r.parent = Function.update (s.table r.parent) i DirectoryEntry.zero
  other : ∀ c < 512, c ≠ 1 → c ≠ r.parent → c ∉ F → s'.cluster c = s.cluster c

/-- A zeroed slot is not in use. -/
theorem zero_not_used : ¬DirectoryEntry.zero.Used := by decide

/-- A cluster of zeros has no used slot. -/
theorem State.not_used_of_zero {c : ℕ} (h : s.cluster c = 0) (i : Fin 64) :
    ¬(s.table c i).Used := by
  rw [State.table, h]
  exact (by decide : (0 : UInt8) ≠ UATTR_NOT_EMPTY)

/-- `delete` answers -1 for an empty name. -/
theorem delete_empty_name {peek : ℕ → Option UInt8} (hn : r.name = 0) :
    delete fuel peek r s = some (-1, s) := by
  rw [delete, if_pos ((sameBytes_iff _ _).2 hn)]

/-- `delete` answers 1 for a name that no slot has. -/
theorem delete_missing {peek : ℕ → Option UInt8} (hn : r.name ≠ 0)
    (hi : findSlot (s.table r.parent) r.name = none) : delete fuel peek r s = some (1, s) := by
  rw [delete, if_neg (by simpa using hn)]
  simp only [hi]

/-- The folder branch: an empty extension in the request. -/
theorem delete_of_folder {peek : ℕ → Option UInt8} (hn : r.name ≠ 0) (hx : r.ext = 0)
    (hi : findSlot (s.table r.parent) r.name = some i) : delete fuel peek r s =
      (emptinessTest peek s r.parent i).map fun used =>
        if used then (2, s) else (0, unmark r i s) := by
  rw [delete, if_neg (by simpa using hn)]
  simp only [hi, (sameBytes_iff _ _).2 hx, if_true, emptinessTest]
  cases anyUsed peek (danglingPointer (s.cluster (s.table r.parent i).cluster))
      (List.range' 1 63) with
  | none => rfl
  | some used => cases used <;> rfl

/-- The file branch: any other extension. -/
theorem delete_of_file {peek : ℕ → Option UInt8} (hn : r.name ≠ 0) (hx : r.ext ≠ 0)
    (hi : findSlot (s.table r.parent) r.name = some i) : delete fuel peek r s =
      (deleteChain fuel (s.table r.parent i).cluster s).map fun s₁ =>
        (0, s₁.writeFat.writeCluster r.parent
          (tableLayout (Function.update (s.table r.parent) i DirectoryEntry.zero))) := by
  rw [delete, if_neg (by simpa using hn)]
  simp only [hi, (sameBytes_eq_false _ _).2 hx]
  rfl

/-- The last two writes of both branches, the table of clusters and the parent's,
leave the other clusters alone. -/
theorem State.cluster_store {d c : ℕ} (s : State) (t : DirectoryTable) (hd : 2 ≤ d ∧ d < 512)
    (hc : c < 512) (hc1 : c ≠ 1) (hcd : c ≠ d) :
    (s.writeFat.writeCluster d (tableLayout t)).cluster c = s.cluster c := by
  rw [State.cluster_writeCluster_ne _ hd.2 hc hcd, State.cluster_writeFat hc hc1]

/-- The last two writes of the file branch. -/
theorem removed_of_store {r : Request} {i : Fin 64} {F : List ℕ} {s : State} (s₁ : State)
    (hp : 2 ≤ r.parent ∧ r.parent < 512)
    (hmem : ∀ c < 512, s₁.mem c = if c ∈ F then FAT32_FAT_EMPTY_ENTRY else s.mem c)
    (hstray : s₁.stray = s.stray) (hboot : s₁.disk 0 = s.disk 0)
    (hcl : ∀ c < 512, c ∉ F → s₁.cluster c = s.cluster c) :
    Removed r i F s (s₁.writeFat.writeCluster r.parent
      (tableLayout (Function.update (s.table r.parent) i DirectoryEntry.zero))) where
  mem := hmem
  stray := hstray
  boot := by
    rw [State.writeCluster_disk, writeClusters_boot _ _ (by omega)]
    exact (writeClusters_boot s₁.disk s₁.fatTable (by decide : 1 % 2 ^ 26 ≠ 0)).trans hboot
  fat := (State.cluster_writeCluster_ne _ hp.2 (by decide) (by omega)).trans
    (State.cluster_writeCluster_self _ _)
  parent := State.table_of_cluster (State.cluster_writeCluster_self _ _)
  other c hc hc1 hcp hcF := by
    rw [State.cluster_store _ _ hp hc hc1 hcp, hcl c hc hcF]

/-- **The file branch**: a non-empty extension in the request.  The whole chain
of the entry is freed and its slot cleared. -/
theorem delete_file (peek : ℕ → Option UInt8) (hp : 2 ≤ r.parent ∧ r.parent < 512)
    (hn : r.name ≠ 0) (hx : r.ext ≠ 0) (hi : findSlot (s.table r.parent) r.name = some i)
    (hl : FatChain s.mem (s.table r.parent i).cluster l) (hlt : ∀ c ∈ l, 2 ≤ c ∧ c < 512)
    (hfuel : l.length ≤ fuel) :
    ∃ s', delete fuel peek r s = some (0, s') ∧ Removed r i l s s' := by
  obtain ⟨s₁, hdel, hmem, hstray, hboot, hcl⟩ := deleteChain_eq hl hlt hfuel
  refine ⟨_, ?_, removed_of_store s₁ hp (fun c _ => hmem c) hstray hboot
    fun c hc hcl' => by rw [hcl c hc, if_neg hcl']⟩
  rw [delete_of_file hn hx hi, hdel, Option.map_some]

/-- The folder branch otherwise: it faults at the dangling pointer, or finds the
mark of a used entry behind it. -/
theorem delete_folder_refused {peek : ℕ → Option UInt8} (hn : r.name ≠ 0) (hx : r.ext = 0)
    (hi : findSlot (s.table r.parent) r.name = some i)
    (htest : emptinessTest peek s r.parent i ≠ some false) :
    delete fuel peek r s = none ∨ delete fuel peek r s = some (2, s) := by
  rw [delete_of_folder hn hx hi]
  cases hb : emptinessTest peek s r.parent i with
  | none => exact Or.inl rfl
  | some b =>
      cases b with
      | true => exact Or.inr rfl
      | false => exact absurd hb htest

/-- **The folder branch**: an empty extension in the request, and no mark behind
the dangling pointer. -/
theorem delete_folder {peek : ℕ → Option UInt8} (hn : r.name ≠ 0) (hx : r.ext = 0)
    (hi : findSlot (s.table r.parent) r.name = some i)
    (htest : emptinessTest peek s r.parent i = some false) :
    delete fuel peek r s = some (0, unmark r i s) := by
  rw [delete_of_folder hn hx hi, htest]
  rfl

/-- Taking a folder out empties its cell. -/
theorem unmark_mem : (unmark r i s).mem =
    Function.update s.mem (mapWord (s.table r.parent i).cluster) FAT32_FAT_EMPTY_ENTRY := rfl

/-- Taking a folder out leaves the overwritten table, with one slot out of use, as the
parent's. -/
theorem unmark_table : (unmark r i s).table r.parent = unmarked s r.parent i :=
  State.table_of_cluster (State.cluster_writeCluster_self _ _)

/-- Taking a folder out leaves the clusters alone that are neither the table's nor the
parent's. -/
theorem unmark_cluster {c : ℕ} (hp : 2 ≤ r.parent ∧ r.parent < 512) (hc : c < 512) (hc1 : c ≠ 1)
    (hcp : c ≠ r.parent) : (unmark r i s).cluster c = s.cluster c := by
  rw [unmark, State.cluster_store _ _ hp hc hc1 hcp]
  exact State.cluster_congr State.touch_disk c

/-- The slot of the folder that was taken out is not in use. -/
theorem unmarked_not_used (s : State) (d : ℕ) (i : Fin 64) : ¬(unmarked s d i i).Used := by
  rw [unmarked, Function.update_self]
  exact (by decide : (0 : UInt8) ≠ UATTR_NOT_EMPTY)

/-- Every other slot holds what the folder's own table had there. -/
theorem unmarked_of_ne (s : State) {d : ℕ} {k : Fin 64} (hk : k ≠ i) : unmarked s d i k =
    overwritten (s.cluster (s.table d i).cluster) (s.table d) k :=
  Function.update_of_ne hk _ _

/-! ### The returns of `delete` -/

/-- The returns of `delete`, each with the code and the state it leaves. -/
inductive Returns (fuel : ℕ) (peek : ℕ → Option UInt8) (r : Request) (s : State) :
    ℤ → State → Prop
  | unnamed : r.name = 0 → Returns fuel peek r s (-1) s
  | missing : r.name ≠ 0 → findSlot (s.table r.parent) r.name = none → Returns fuel peek r s 1 s
  | refused (i : Fin 64) : r.name ≠ 0 → findSlot (s.table r.parent) r.name = some i →
      r.ext = 0 → emptinessTest peek s r.parent i = some true → Returns fuel peek r s 2 s
  | folder (i : Fin 64) : r.name ≠ 0 → findSlot (s.table r.parent) r.name = some i →
      r.ext = 0 → emptinessTest peek s r.parent i = some false →
      Returns fuel peek r s 0 (unmark r i s)
  | file (i : Fin 64) (s₁ : State) : r.name ≠ 0 →
      findSlot (s.table r.parent) r.name = some i → r.ext ≠ 0 →
      deleteChain fuel (s.table r.parent i).cluster s = some s₁ →
      Returns fuel peek r s 0 (s₁.writeFat.writeCluster r.parent
        (tableLayout (Function.update (s.table r.parent) i DirectoryEntry.zero)))

/-- **`delete` returns in one of five ways.** -/
theorem delete_returns {peek : ℕ → Option UInt8} {c : ℤ} {s' : State}
    (h : delete fuel peek r s = some (c, s')) : Returns fuel peek r s c s' := by
  by_cases hn : r.name = 0
  · rw [delete_empty_name hn] at h
    obtain ⟨rfl, rfl⟩ := Prod.mk.inj (Option.some.inj h)
    exact .unnamed hn
  cases hi : findSlot (s.table r.parent) r.name with
  | none =>
      rw [delete_missing hn hi] at h
      obtain ⟨rfl, rfl⟩ := Prod.mk.inj (Option.some.inj h)
      exact .missing hn hi
  | some i =>
      by_cases hx : r.ext = 0
      · rw [delete_of_folder hn hx hi, Option.map_eq_some_iff] at h
        obtain ⟨used, htest, h⟩ := h
        cases used with
        | true =>
            obtain ⟨rfl, rfl⟩ := Prod.mk.inj h
            exact .refused i hn hi hx htest
        | false =>
            obtain ⟨rfl, rfl⟩ := Prod.mk.inj h
            exact .folder i hn hi hx htest
      · rw [delete_of_file hn hx hi, Option.map_eq_some_iff] at h
        obtain ⟨s₁, hchain, h⟩ := h
        obtain ⟨rfl, rfl⟩ := Prod.mk.inj h
        exact .file i s₁ hn hi hx hchain

end Fat32
end Jatos
