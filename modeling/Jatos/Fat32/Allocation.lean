/-
# No cluster is leaked, none is shared

Well-formedness says that no cluster is on two chains.  In a volume that was
only changed by admitted requests the converse of the allocation holds as well:
a cluster above the root's whose entry is not EMPTY is on the chain of a live
entry (`NoLeak`).
-/

import Jatos.Fat32.Refinement

namespace Jatos
namespace Fat32

open Linked

variable {r : Request} {s s' s₀ : State} {c d : ℕ} {i j k : Fin 64} {e : DirectoryEntry}
  {F l : List ℕ} {fuel : ℕ} {op : Op} {ops : List Op}

/-- Cluster `c` is on the chain of the entry in slot `k` of directory `d`. -/
def OnChain (s : State) (d : ℕ) (k : Fin 64) (c : ℕ) : Prop :=
  LiveEntry s d k ∧ ∃ l, EntryChain s d k l ∧ c ∈ l

/-- Every allocated cluster is on a chain. -/
def NoLeak (s : State) : Prop :=
  ∀ c, 3 ≤ c → c < 512 → s.mem c ≠ FAT32_FAT_EMPTY_ENTRY → ∃ d k, OnChain s d k c

/-- Nothing is allocated in a fresh volume. -/
theorem createFat32_noLeak (hz : Zeroed s) : NoLeak (createFat32 s) :=
  fun _ h3 hlt h => absurd (createFat32_free hz ⟨h3, hlt⟩) h

/-- A new entry owns all that it takes. -/
theorem Made.noLeak (hc : Made r e F s s') (h : WellFormed s) (hp : LiveDir s r.parent)
    (hj : freeSlot (s.table r.parent) = some j) (hs : NoLeak s) : NoLeak s' := by
  intro c h3 hlt h0
  by_cases hF : c ∈ F
  · refine ⟨r.parent, j, hc.entry_new h hp hj, F, ?_, hF⟩
    rw [EntryChain, hc.slot_new hj]
    exact hc.chain
  · rw [hc.mem c hlt hF] at h0
    obtain ⟨d, k, he, l, hl, hcl⟩ := hs c h3 hlt h0
    exact ⟨d, k, hc.entry h he, l, hc.entryChain h he hl, hcl⟩

/-- A dropped entry leaves nothing behind. -/
theorem Dropped.noLeak (hr : Dropped r i F s s') (h : WellFormed s)
    (hempty : (s.table r.parent i).filesize = 0 → EmptyDir s (s.table r.parent i).cluster)
    (hs : NoLeak s) : NoLeak s' := by
  intro c h3 hlt h0
  rw [hr.mem c hlt] at h0
  split_ifs at h0 with hcF
  · exact absurd rfl h0
  · obtain ⟨d, k, he, l, hl, hcl⟩ := hs c h3 hlt h0
    have hne : ¬(d = r.parent ∧ k = i) := by
      rintro ⟨rfl, rfl⟩
      exact hcF (Chain.unique hl hr.chain ▸ hcl)
    obtain ⟨he', -⟩ := hr.entry_of_ne h hempty he hne
    exact ⟨d, k, he', l, hr.entryChain h he' hl, hcl⟩

/-- **One admitted request** leaks no cluster. -/
theorem noLeak_step (h : Tidy s ∧ NoLeak s) (ha : Admits s op) (hfuel : 512 ≤ fuel) :
    ∃ o s', exec fuel op s = some (o, s') ∧ Tidy s' ∧ NoLeak s' := by
  obtain ⟨ht, hn⟩ := h
  have hwf := ht.sound.toWellFormed
  cases op with
  | read r => exact absurd ha id
  | readDirectory r => exact absurd ha id
  | write k r =>
      obtain ⟨o, j, e, F, s', hx, hj, hc, ht'⟩ := write_admitted ht ha hfuel
      exact ⟨o, s', hx, ht', hc.noLeak hwf ha.1 hj hn⟩
  | delete peek r =>
      obtain ⟨o, i, F, s', hx, -, hr, ht', -, hempty⟩ := delete_admitted ht ha hfuel
      exact ⟨o, s', hx, ht', hr.noLeak hwf hempty hn⟩

/-- `clusterNeed` rounds up. -/
theorem clusterNeed_eq (n : ℕ) : clusterNeed n = (n + 2047) / 2048 := by
  simp only [clusterNeed, CLUSTER_SIZE]
  split_ifs <;> omega

/-- The chains of a well-formed volume have the lengths of their entries and the
end mark. -/
theorem WellFormed.chain_exact (h : WellFormed s) (he : LiveEntry s d k) :
    ∃ l, EntryChain s d k l ∧
      l.length = (if (s.table d k).filesize = 0 then 1
        else ((s.table d k).filesize.toNat + 2047) / 2048) ∧
      ∀ c ∈ l.getLast?, s.mem c = FAT32_FAT_END_OF_FILE := by
  obtain ⟨l, hl, hlen, -⟩ := h.chain d k he
  refine ⟨l, hl, ?_, fun c hc => ?_⟩
  · rw [hlen, DirectoryEntry.clusters, clusterNeed_eq]
  · have hnext := Chain.last_next hl c hc
    by_contra hne
    simp [fatNext, hne] at hnext

/-- **Allocation is exact.**  Every admitted run from a fresh volume returns; in
the state it reaches, a cluster above the root's is allocated if and only if it
is on the chain of exactly one live entry, and every chain has the length of its
entry and ends in the end mark. -/
theorem allocation_exact (hz : Zeroed s₀) (hfuel : 512 ≤ fuel)
    (hg : Runs.Guarded (exec fuel) Admits ops (createFat32 s₀)) :
    ∃ os s, Runs.run (exec fuel) ops (createFat32 s₀) = some (os, s) ∧
      (∀ c, 3 ≤ c → c < 512 → (s.mem c ≠ FAT32_FAT_EMPTY_ENTRY ↔
        ∃! p : ℕ × Fin 64, OnChain s p.1 p.2 c)) ∧
      ∀ d k, LiveEntry s d k → ∃ l, EntryChain s d k l ∧
        l.length = (if (s.table d k).filesize = 0 then 1
          else ((s.table d k).filesize.toNat + 2047) / 2048) ∧
        ∀ c ∈ l.getLast?, s.mem c = FAT32_FAT_END_OF_FILE := by
  obtain ⟨os, s, hr, ht, hn⟩ := Runs.run_total (I := fun s => Tidy s ∧ NoLeak s)
    (fun s op h ha => noLeak_step h ha hfuel) ⟨createFat32_tidy s₀, createFat32_noLeak hz⟩ hg
  have hwf := ht.sound.toWellFormed
  refine ⟨os, s, hr, fun c h3 hlt => ⟨fun h0 => ?_, ?_⟩, fun d k he => hwf.chain_exact he⟩
  · obtain ⟨d, k, he, l, hl, hcl⟩ := hn c h3 hlt h0
    refine ⟨(d, k), ⟨he, l, hl, hcl⟩, ?_⟩
    rintro ⟨d', k'⟩ ⟨he', l', hl', hcl'⟩
    obtain ⟨rfl, rfl⟩ := hwf.disjoint d' k' l' d k l he' he hl' hl c hcl' hcl
    rfl
  · rintro ⟨p, ⟨he, l, hl, hcl⟩, -⟩
    exact hwf.chain_ne_empty he hl hcl

/-- A file is written to a blank volume and deleted. -/
theorem allocation_exact_sample :
    ∃ os s, Runs.run (exec 512) [.write blankStack (request 2 0x61 0x78 3000),
        .delete (fun _ => none) (request 2 0x61 0x78 3000)] (createFat32 blank) = some (os, s) ∧
      (∀ c, 3 ≤ c → c < 512 → (s.mem c ≠ FAT32_FAT_EMPTY_ENTRY ↔
        ∃! p : ℕ × Fin 64, OnChain s p.1 p.2 c)) ∧
      ∀ d k, LiveEntry s d k → ∃ l, EntryChain s d k l ∧
        l.length = (if (s.table d k).filesize = 0 then 1
          else ((s.table d k).filesize.toNat + 2047) / 2048) ∧
        ∀ c ∈ l.getLast?, s.mem c = FAT32_FAT_END_OF_FILE := by
  have hw : Admits (createFat32 blank) (.write blankStack (request 2 0x61 0x78 3000)) :=
    createFat32_admits blank_zeroed rfl (by decide) (by decide) (by decide)
  refine allocation_exact blank_zeroed le_rfl ⟨hw, fun o s' hs => ⟨?_, fun _ _ _ => trivial⟩⟩
  exact admits_delete_written _ (createFat32_tidy blank) hw (by decide) (by decide) le_rfl hs

end Fat32
end Jatos
