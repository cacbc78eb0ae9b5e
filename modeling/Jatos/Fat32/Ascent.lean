/-
# Chains ascend

`write` goes up through the table and links each cluster it takes to the next
EMPTY one, so the chain of a new entry is a piece of the free list, in its order,
whatever holes earlier deletes have left.  Every link of the table therefore leads
up, inside the table (`Ascending`), in every volume that was only changed by
admitted requests.  This is the measure of the two `do .. while` loops: on a live
entry they go through the clusters of a strictly increasing chain and stop.
-/

import Jatos.Fat32.Refinement

namespace Jatos
namespace Fat32

open Linked

variable {r : Request} {s s' s₀ : State} {a d size w : ℕ} {i k : Fin 64} {e : DirectoryEntry}
  {F l : List ℕ} {fuel : ℕ} {op : Op} {ops : List Op} {o : Reply}

/-- An entry of the table that is a link leads up, inside the table. -/
def Ascending (mem : ℕ → UInt32) : Prop :=
  ∀ c, 2 ≤ c → c < 512 → mem c ≠ FAT32_FAT_EMPTY_ENTRY → mem c ≠ FAT32_FAT_END_OF_FILE →
    c < (mem c).toNat ∧ (mem c).toNat < 512

/-- At most 509 clusters of the table, in increasing order. -/
def Climbs (l : List ℕ) : Prop :=
  l.Pairwise (· < ·) ∧ l.length ≤ 509 ∧ ∀ c ∈ l, 2 ≤ c ∧ c < 512

/-! ### What the loops go through -/

/-- The clusters that the copy loop of `read` uses, in order. -/
def readVisits (bufferSize : ℕ) : ℕ → State → ℕ → ℕ → List ℕ
  | 0, _, _, _ => []
  | fuel + 1, s, clusterSize, clustNumber =>
      if bufferSize < clusterSize * CLUSTER_MAP_SIZE % 2 ^ 32 then []
      else
        let next := s.clusterMap clustNumber
        clustNumber ::
          if next = FAT32_FAT_END_OF_FILE then []
          else readVisits bufferSize fuel (s.touch clustNumber) (clusterSize + 1) next.toNat

/-- The clusters that the freeing loop of `delete` uses, in order. -/
def deleteVisits : ℕ → State → ℕ → List ℕ
  | 0, _, _ => []
  | fuel + 1, s, reqCluster =>
      let next := s.clusterMap reqCluster
      reqCluster ::
        if next = FAT32_FAT_END_OF_FILE then []
        else deleteVisits fuel (erase s reqCluster) next.toNat

/-- The copy loop goes along the chain, as far as the buffer lets it. -/
theorem readVisits_prefix (h : FatChain s.mem a l) (hl : ∀ c ∈ l, c < 512) :
    readVisits size fuel s w a <+: l := by
  induction fuel generalizing w a l with
  | zero => exact List.nil_prefix
  | succ fuel ih =>
      have ha : a < 512 := hl a h.head_mem
      rw [readVisits, State.clusterMap_of_lt ha, State.touch_of_lt ha]
      split_ifs with hpass
      · exact List.nil_prefix
      · cases h with
        | last hn =>
            simp only [if_pos (fatNext_eq_none.1 hn)]
            exact List.prefix_refl _
        | link hn hb =>
            obtain ⟨hne, rfl⟩ := fatNext_eq_some.1 hn
            simp only [if_neg hne]
            exact List.prefix_cons_inj a |>.2 (ih hb fun c hc => hl c (List.mem_cons_of_mem _ hc))

/-- The freeing loop goes through the whole chain: what it has erased is behind
it. -/
theorem deleteVisits_eq (h : FatChain s.mem a l) (hl : ∀ c ∈ l, c < 512)
    (hfuel : l.length ≤ fuel) : deleteVisits fuel s a = l := by
  induction l generalizing s a fuel with
  | nil => exact absurd rfl h.ne_nil
  | cons x l ih =>
      obtain rfl : x = a := Chain.head_eq h
      obtain ⟨fuel, rfl⟩ : ∃ n, fuel = n + 1 := ⟨fuel - 1, by simp at hfuel; omega⟩
      have hx := (List.nodup_cons.1 h.nodup).1
      have ha : x < 512 := hl x List.mem_cons_self
      rw [deleteVisits, State.clusterMap_of_lt ha]
      cases h with
      | last hn => simp only [if_pos (fatNext_eq_none.1 hn)]
      | link hn hb =>
          obtain ⟨hne, rfl⟩ := fatNext_eq_some.1 hn
          simp only [if_neg hne]
          have hb' : FatChain (erase s x).mem (s.mem x).toNat l := FatChain.congr hb fun c hc => by
            have hne : c ≠ x := fun heq => hx (heq ▸ hc)
            rw [erase_mem ha, Function.update_of_ne hne]
          rw [ih hb' (fun c hc => hl c (List.mem_cons_of_mem _ hc)) (by simpa using hfuel)]

/-! ### Links lead up -/

/-- The free clusters are listed in ascending order. -/
theorem freeList_pairwise (mem : ℕ → UInt32) : (freeList mem).Pairwise (· < ·) :=
  List.Pairwise.filter _ List.pairwise_lt_range'

/-- A fresh volume has no links. -/
theorem createFat32_ascending (hz : Zeroed s) : Ascending (createFat32 s).mem := by
  intro c h2 hlt h0 heof
  by_cases hc : c = 2
  · subst hc
    exact absurd (createFat32_mem (by decide)) heof
  · exact absurd (createFat32_free hz (by omega)) h0

/-- The links of a new chain lead up when its clusters do; the others stay. -/
theorem Created.ascending (hc : Created r e F s s') (hF : F.Pairwise (· < ·))
    (h : Ascending s.mem) : Ascending s'.mem := by
  intro c h2 hlt h0 heof
  by_cases hcF : c ∈ F
  · obtain ⟨hmem, hup⟩ := hc.chain.rel_of_pairwise hF hcF (fatNext_eq_some.2 ⟨heof, rfl⟩)
    exact ⟨hup, (mem_freeList.1 (hc.free _ hmem)).1.2⟩
  · rw [hc.mem c hlt hcF] at h0 heof ⊢
    exact h c h2 hlt h0 heof

/-- Freeing clusters takes links away. -/
theorem Removed.ascending (hr : Removed r i F s s') (h : Ascending s.mem) :
    Ascending s'.mem := by
  intro c h2 hlt h0 heof
  rw [hr.mem c hlt] at h0 heof ⊢
  split_ifs at h0 heof ⊢ with hcF
  · exact absurd rfl h0
  · exact h c h2 hlt h0 heof

/-- **One admitted request.**  A write links free clusters in the order of the
table, a delete erases links. -/
theorem ascending_step (h : Tidy s ∧ Ascending s.mem) (ha : Admits s op) (hfuel : 512 ≤ fuel) :
    ∃ o s', exec fuel op s = some (o, s') ∧ Tidy s' ∧ Ascending s'.mem := by
  obtain ⟨ht, hup⟩ := h
  have hwf := ht.sound.toWellFormed
  cases op with
  | read r => exact absurd ha id
  | readDirectory r => exact absurd ha id
  | write k r =>
      obtain ⟨o, j, e, F, s', hx, hj, hc, ht'⟩ := write_admitted ht ha hfuel
      obtain ⟨o', f, F', s'', hw, -, hc', hpre⟩ := write_made_first (k := k)
        (hwf.live_range ha.1) (hwf.live_ne_empty ha.1) ha.2.2.2.2 (fun _ => ha.2.2.2.1)
        (by omega : 2 ≤ fuel)
      obtain ⟨rfl, rfl⟩ := Prod.mk.inj (Option.some.inj (hw.symm.trans hx))
      exact ⟨_, _, hx, ht', hc'.ascending ((freeList_pairwise _).sublist hpre.sublist) hup⟩
  | delete peek r =>
      obtain ⟨o, i, F, s', hx, -, hr, ht', -, -⟩ := delete_admitted ht ha hfuel
      exact ⟨o, s', hx, ht', hr.ascending hup⟩

/-- The chain of a live entry goes up. -/
theorem WellFormed.chain_ascends (h : WellFormed s) (hup : Ascending s.mem)
    (he : LiveEntry s d k) (hl : EntryChain s d k l) : l.Pairwise (· < ·) := by
  refine hl.pairwise fun c hc b hb => ?_
  obtain ⟨heof, rfl⟩ := fatNext_eq_some.1 hb
  have hrange := h.chain_range he hl c hc
  exact (hup c (by omega) hrange.2 (h.chain_ne_empty he hl hc) heof).1

/-- The copy loop on a live entry: it returns, and climbs. -/
theorem WellFormed.read_ends (h : WellFormed s) (hup : Ascending s.mem) (he : LiveEntry s d k)
    (hfuel : 509 ≤ fuel) (size : ℕ) (buf : Buffer) :
    (∃ o, readChain size fuel s buf 0 (s.table d k).cluster = some (o, s)) ∧
      Climbs (readVisits size fuel s 0 (s.table d k).cluster) := by
  obtain ⟨l, hl, -, hrange⟩ := h.chain d k he
  have hlen := h.chain_length_le he hl
  have hlt : ∀ c ∈ l, c < 512 := fun c hc => (hrange c hc).2
  have hpre : readVisits size fuel s 0 (s.table d k).cluster <+: l := readVisits_prefix hl hlt
  obtain ⟨buf', hread, -⟩ := readChain_eq size buf 0 hl hlt (by omega) (by omega : l.length ≤ fuel)
  refine ⟨⟨_, hread⟩, (h.chain_ascends hup he hl).sublist hpre.sublist,
    hpre.length_le.trans hlen, fun c hc => ?_⟩
  have := hrange c (hpre.subset hc)
  omega

/-- The freeing loop on a live entry: it returns, and climbs through the whole
chain. -/
theorem WellFormed.delete_ends (h : WellFormed s) (hup : Ascending s.mem) (he : LiveEntry s d k)
    (hfuel : 509 ≤ fuel) :
    (∃ s', deleteChain fuel (s.table d k).cluster s = some s') ∧
      EntryChain s d k (deleteVisits fuel s (s.table d k).cluster) ∧
      Climbs (deleteVisits fuel s (s.table d k).cluster) := by
  obtain ⟨l, hl, -, hrange⟩ := h.chain d k he
  have hlen := h.chain_length_le he hl
  have hlt : ∀ c ∈ l, 2 ≤ c ∧ c < 512 := fun c hc => by have := hrange c hc; omega
  obtain ⟨s', hdel, -⟩ := deleteChain_eq hl hlt (by omega : l.length ≤ fuel)
  rw [deleteVisits_eq hl (fun c hc => (hlt c hc).2) (by omega)]
  exact ⟨⟨s', hdel⟩, hl, h.chain_ascends hup he hl, hlen, hlt⟩

/-- **Chains ascend.**  Every admitted run from a fresh volume returns.  In the
state it reaches, an entry of the table that is neither EMPTY nor the end mark leads
up, inside the table, and on every live entry the loops of `read` and `delete` climb
through clusters of the table and stop after at most 509 steps. -/
theorem chains_ascend (hz : Zeroed s₀) (hfuel : 512 ≤ fuel)
    (hg : Runs.Guarded (exec fuel) Admits ops (createFat32 s₀)) :
    ∃ os s, Runs.run (exec fuel) ops (createFat32 s₀) = some (os, s) ∧
      (∀ c, 2 ≤ c → c < 512 → s.clusterMap c ≠ FAT32_FAT_EMPTY_ENTRY →
        s.clusterMap c ≠ FAT32_FAT_END_OF_FILE →
        c < (s.clusterMap c).toNat ∧ (s.clusterMap c).toNat < 512) ∧
      ∀ d k, LiveEntry s d k → ∀ n, 509 ≤ n →
        (∀ size buf, (∃ o, readChain size n s buf 0 (s.table d k).cluster = some (o, s)) ∧
          Climbs (readVisits size n s 0 (s.table d k).cluster)) ∧
        (∃ s', deleteChain n (s.table d k).cluster s = some s') ∧
          EntryChain s d k (deleteVisits n s (s.table d k).cluster) ∧
          Climbs (deleteVisits n s (s.table d k).cluster) := by
  obtain ⟨os, s, hr, ht, hup⟩ := Runs.run_total (I := fun s => Tidy s ∧ Ascending s.mem)
    (fun s op h ha => ascending_step h ha hfuel)
    ⟨createFat32_tidy s₀, createFat32_ascending hz⟩ hg
  have hwf := ht.sound.toWellFormed
  refine ⟨os, s, hr, fun c h2 hlt => ?_, fun d k he n hn => ⟨fun size buf => ?_, ?_⟩⟩
  · rw [State.clusterMap_of_lt hlt]
    exact hup c h2 hlt
  · exact hwf.read_ends hup he hn size buf
  · exact hwf.delete_ends hup he hn

/-- A file of two clusters is written to a blank volume and deleted. -/
theorem chains_ascend_sample :
    ∃ os s, Runs.run (exec 512) [.write blankStack (request 2 0x61 0x78 3000),
        .delete (fun _ => none) (request 2 0x61 0x78 3000)] (createFat32 blank) = some (os, s) ∧
      (∀ c, 2 ≤ c → c < 512 → s.clusterMap c ≠ FAT32_FAT_EMPTY_ENTRY →
        s.clusterMap c ≠ FAT32_FAT_END_OF_FILE →
        c < (s.clusterMap c).toNat ∧ (s.clusterMap c).toNat < 512) ∧
      ∀ d k, LiveEntry s d k → ∀ n, 509 ≤ n →
        (∀ size buf, (∃ o, readChain size n s buf 0 (s.table d k).cluster = some (o, s)) ∧
          Climbs (readVisits size n s 0 (s.table d k).cluster)) ∧
        (∃ s', deleteChain n (s.table d k).cluster s = some s') ∧
          EntryChain s d k (deleteVisits n s (s.table d k).cluster) ∧
          Climbs (deleteVisits n s (s.table d k).cluster) := by
  have hw : Admits (createFat32 blank) (.write blankStack (request 2 0x61 0x78 3000)) :=
    createFat32_admits blank_zeroed rfl (by decide) (by decide) (by decide)
  refine chains_ascend blank_zeroed le_rfl ⟨hw, fun o s' hs => ⟨?_, fun _ _ _ => trivial⟩⟩
  exact admits_delete_written _ (createFat32_tidy blank) hw (by decide) (by decide) le_rfl hs

end Fat32
end Jatos
