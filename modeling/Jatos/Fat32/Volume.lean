/-
# Well-formed volumes

The directories that can be reached from the root, the entries in them, and the
chains of these entries.  A directory is known by its cluster.  Slot 0 of its
table describes the directory itself; every other used slot is an entry of it,
a folder when its size is 0 and a file otherwise, which is the test that `read`
and `read_directory` make.

A volume is well formed when every live entry has a chain of the right length
that ends in the table, above the root's cluster, and no two live entries share
a cluster.  The clusters then form a tree: the depth of a directory is unique
(`LiveAt.unique`), so the chain of an entry contains no directory above it
(`WellFormed.parent_notMem`).
-/

import Jatos.Fat32.WalkSpec
import Mathlib.Data.List.Perm.Subperm

namespace Jatos
namespace Fat32

open Linked

/-- A directory `n` levels below the root, by its cluster. -/
inductive LiveAt (s : State) : ℕ → ℕ → Prop
  | root : LiveAt s 0 ROOT_CLUSTER_NUMBER
  | child {n d : ℕ} {k : Fin 64} : LiveAt s n d → k ≠ 0 → (s.table d k).Used →
      (s.table d k).filesize = 0 → LiveAt s (n + 1) (s.table d k).cluster

/-- A live directory: the root, or a folder in a live directory. -/
def LiveDir (s : State) (d : ℕ) : Prop := ∃ n, LiveAt s n d

/-- A live entry: a used slot of a live directory, slot 0 apart. -/
structure LiveEntry (s : State) (d : ℕ) (k : Fin 64) : Prop where
  dir : LiveDir s d
  slot : k ≠ 0
  used : (s.table d k).Used

/-- The clusters that an entry of this size has: one for a folder. -/
def DirectoryEntry.clusters (e : DirectoryEntry) : ℕ :=
  if e.filesize = 0 then 1 else clusterNeed e.filesize.toNat

/-- A directory that holds no entry. -/
def EmptyDir (s : State) (d : ℕ) : Prop := ∀ k : Fin 64, k ≠ 0 → ¬(s.table d k).Used

/-- The clusters of an entry. -/
abbrev EntryChain (s : State) (d : ℕ) (k : Fin 64) (l : List ℕ) : Prop :=
  FatChain s.mem (s.table d k).cluster l

/-- Disjoint, terminated chains above the root's cluster. -/
structure WellFormed (s : State) : Prop where
  root : s.mem ROOT_CLUSTER_NUMBER = FAT32_FAT_END_OF_FILE
  self : ∀ d, LiveDir s d → (s.table d 0).Used ∧ (s.table d 0).filesize = 0
  chain : ∀ d k, LiveEntry s d k → ∃ l, EntryChain s d k l ∧
    l.length = (s.table d k).clusters ∧ ∀ c ∈ l, 3 ≤ c ∧ c < 512
  disjoint : ∀ d k l d' k' l', LiveEntry s d k → LiveEntry s d' k' → EntryChain s d k l →
    EntryChain s d' k' l' → ∀ c ∈ l, c ∈ l' → d = d' ∧ k = k'

section

variable {s : State} {n m d d' x : ℕ} {k k' : Fin 64} {l : List ℕ}

/-- The root folder is live. -/
theorem LiveDir.root : LiveDir s ROOT_CLUSTER_NUMBER := ⟨0, .root⟩

/-- A live folder's entry without a size is a live folder. -/
theorem LiveEntry.child (h : LiveEntry s d k) (h0 : (s.table d k).filesize = 0) :
    LiveDir s (s.table d k).cluster := by
  obtain ⟨n, hn⟩ := h.dir
  exact ⟨n + 1, .child hn h.slot h.used h0⟩

/-- A live directory is the root or the cluster of a live folder. -/
theorem LiveDir.cases (h : LiveDir s x) :
    x = ROOT_CLUSTER_NUMBER ∨
      ∃ d k, LiveEntry s d k ∧ (s.table d k).filesize = 0 ∧ (s.table d k).cluster = x := by
  obtain ⟨n, hn⟩ := h
  cases hn with
  | root => exact Or.inl rfl
  | child hd hk hu h0 => exact Or.inr ⟨_, _, ⟨⟨_, hd⟩, hk, hu⟩, h0, rfl⟩

/-- What holds of the root and of every live folder's cluster holds of every
live directory. -/
theorem LiveDir.induction {P : ℕ → Prop} (hroot : P ROOT_CLUSTER_NUMBER)
    (hchild : ∀ d k, LiveEntry s d k → (s.table d k).filesize = 0 → P d →
      P (s.table d k).cluster) (h : LiveDir s x) : P x := by
  obtain ⟨n, hn⟩ := h
  induction hn with
  | root => exact hroot
  | child hd hk hu h0 ih => exact hchild _ _ ⟨⟨_, hd⟩, hk, hu⟩ h0 ih

/-- Where the slots of all live entries are what they were, the directories stay. -/
theorem LiveDir.of_slots {s' : State} (h : LiveDir s x)
    (hslot : ∀ d k, LiveEntry s d k → s'.table d k = s.table d k) : LiveDir s' x := by
  refine LiveDir.induction (P := fun x => LiveDir s' x) .root (fun d k he h0 hd => ?_) h
  have hk := hslot d k he
  rw [← hk] at h0 ⊢
  exact LiveEntry.child ⟨hd, he.slot, hk ▸ he.used⟩ h0

/-- A folder's chain is its own cluster, and ends there. -/
theorem WellFormed.folder_chain (h : WellFormed s) (he : LiveEntry s d k)
    (h0 : (s.table d k).filesize = 0) :
    EntryChain s d k [(s.table d k).cluster] ∧
      s.mem (s.table d k).cluster = FAT32_FAT_END_OF_FILE := by
  obtain ⟨l, hl, hlen, -⟩ := h.chain d k he
  rw [DirectoryEntry.clusters, if_pos h0] at hlen
  obtain ⟨c, rfl⟩ := List.length_eq_one_iff.1 hlen
  obtain rfl := Chain.head_eq hl
  refine ⟨hl, ?_⟩
  cases hl with
  | last hn =>
      by_contra hne
      simp [fatNext, hne] at hn
  | link _ hb => exact absurd hb.ne_nil (by simp)

/-- The cluster of a live directory ends a chain of the table. -/
theorem WellFormed.live_end (h : WellFormed s) (hx : LiveDir s x) :
    s.mem x = FAT32_FAT_END_OF_FILE := by
  obtain rfl | ⟨d, k, he, h0, rfl⟩ := hx.cases
  · exact h.root
  · exact (h.folder_chain he h0).2

/-- The cell of a live folder is not empty. -/
theorem WellFormed.live_ne_empty (h : WellFormed s) (hx : LiveDir s x) :
    s.mem x ≠ FAT32_FAT_EMPTY_ENTRY := by
  rw [h.live_end hx]
  exact empty_ne_eof.symm

/-- A live folder is in a cluster of the data area. -/
theorem WellFormed.live_range (h : WellFormed s) (hx : LiveDir s x) : 2 ≤ x ∧ x < 512 := by
  obtain rfl | ⟨d, k, he, h0, rfl⟩ := hx.cases
  · decide
  · obtain ⟨l, hl, -, hlt⟩ := h.chain d k he
    have := hlt _ hl.head_mem
    omega

/-- The clusters of an entry's chain are clusters of the data area, after the root. -/
theorem WellFormed.chain_range (h : WellFormed s) (he : LiveEntry s d k) (hl : EntryChain s d k l) :
    ∀ c ∈ l, 3 ≤ c ∧ c < 512 := by
  obtain ⟨l', hl', -, hlt⟩ := h.chain d k he
  rwa [Chain.unique hl hl']

/-- An entry's chain has as many clusters as its size needs. -/
theorem WellFormed.chain_length (h : WellFormed s) (he : LiveEntry s d k)
    (hl : EntryChain s d k l) : l.length = (s.table d k).clusters := by
  obtain ⟨l', hl', hlen, -⟩ := h.chain d k he
  rwa [Chain.unique hl hl']

/-- A chain visits at most the 509 clusters above the root's. -/
theorem WellFormed.chain_length_le (h : WellFormed s) (he : LiveEntry s d k)
    (hl : EntryChain s d k l) : l.length ≤ 509 := by
  have hsub : l ⊆ List.range' 3 509 := fun c hc => by
    have := h.chain_range he hl c hc
    rw [List.mem_range'_1]
    omega
  simpa using (List.Nodup.subperm (Chain.nodup hl) hsub).length_le

/-- No cluster of a live chain is EMPTY. -/
theorem WellFormed.chain_ne_empty (h : WellFormed s) (he : LiveEntry s d k)
    (hl : EntryChain s d k l) (hx : x ∈ l) : s.mem x ≠ FAT32_FAT_EMPTY_ENTRY :=
  FatChain.ne_empty hl (fun c hc => by have := h.chain_range he hl c hc; omega) hx

/-- A live directory on the chain of an entry is that entry's folder. -/
theorem WellFormed.live_mem_chain (h : WellFormed s) (he : LiveEntry s d k)
    (hl : EntryChain s d k l) (hx : x ∈ l) (hlive : LiveDir s x) :
    (s.table d k).filesize = 0 ∧ (s.table d k).cluster = x := by
  obtain rfl | ⟨d', k', he', h0, rfl⟩ := hlive.cases
  · exact absurd (h.chain_range he hl _ hx).1 (by decide)
  · obtain ⟨rfl, rfl⟩ := h.disjoint _ _ _ _ _ _ he he' hl (h.folder_chain he' h0).1 _ hx
      List.mem_cons_self
    exact ⟨h0, rfl⟩

/-! ### The tree of directories -/

/-- **A directory has one depth.**  Two ways down to it end in the same entry,
since no two entries share a cluster. -/
theorem LiveAt.unique (h : WellFormed s) (hn : LiveAt s n x) (hm : LiveAt s m x) : n = m := by
  have hroot : ∀ d k, LiveEntry s d k → (s.table d k).filesize = 0 →
      (s.table d k).cluster ≠ ROOT_CLUSTER_NUMBER := by
    intro d k he h0 heq
    have := h.chain_range he (h.folder_chain he h0).1 _ List.mem_cons_self
    rw [heq] at this
    exact absurd this.1 (by decide)
  induction n generalizing x m with
  | zero =>
      cases hn
      generalize hx : ROOT_CLUSTER_NUMBER = x at hm
      cases hm with
      | root => rfl
      | child hd hk hu h0 => exact absurd hx.symm (hroot _ _ ⟨⟨_, hd⟩, hk, hu⟩ h0)
  | succ n ih =>
      cases hn with
      | @child _ d k hd hk hu h0 =>
          have he : LiveEntry s d k := ⟨⟨_, hd⟩, hk, hu⟩
          generalize hx : (s.table d k).cluster = x at hm
          cases hm with
          | root => exact absurd hx (hroot _ _ he h0)
          | @child m d' k' hd' hk' hu' h0' =>
              have he' : LiveEntry s d' k' := ⟨⟨_, hd'⟩, hk', hu'⟩
              obtain ⟨rfl, rfl⟩ := h.disjoint _ _ _ _ _ _ he he' (h.folder_chain he h0).1
                (h.folder_chain he' h0').1 _ List.mem_cons_self (by simp [hx])
              rw [ih hd hd']

/-- A live directory on the chain of an entry lies one level below it. -/
theorem LiveAt.succ_of_mem (h : WellFormed s) (hd : LiveAt s n d) (hk : k ≠ 0)
    (hu : (s.table d k).Used) (hl : EntryChain s d k l) (hx : x ∈ l) (hlive : LiveDir s x) :
    LiveAt s (n + 1) x := by
  obtain ⟨h0, rfl⟩ := h.live_mem_chain ⟨⟨_, hd⟩, hk, hu⟩ hl hx hlive
  exact .child hd hk hu h0

/-- The chain of an entry does not contain the directory that holds the entry. -/
theorem WellFormed.parent_notMem (h : WellFormed s) (he : LiveEntry s d k)
    (hl : EntryChain s d k l) : d ∉ l := by
  intro hd
  obtain ⟨n, hn⟩ := he.dir
  have := LiveAt.unique h hn (.succ_of_mem h hn he.slot he.used hl hd he.dir)
  omega

/-- The chain of an entry does not contain the directory above the one that
holds the entry. -/
theorem WellFormed.grandparent_notMem (h : WellFormed s) (he : LiveEntry s d k)
    (hl : EntryChain s d k l) (he' : LiveEntry s d' k')
    (h0 : (s.table d' k').filesize = 0) (hd : (s.table d' k').cluster = d) : d' ∉ l := by
  intro hmem
  obtain ⟨n, hn⟩ := he'.dir
  have hn' : LiveAt s (n + 1) d := hd ▸ .child hn he'.slot he'.used h0
  have := LiveAt.unique h hn (.succ_of_mem h hn' he.slot he.used hl hmem he'.dir)
  omega

end

/-! ### What the mount and the directories themselves say -/

/-- The boot sector and the reserved entries are in place, and the disk has the
table of the memory. -/
structure Mounted (s : State) : Prop where
  boot : s.disk 0 = fsSignature
  entry0 : s.mem 0 = CLUSTER_0_VALUE
  entry1 : s.mem 1 = CLUSTER_1_VALUE
  fat : s.cluster FAT_CLUSTER_NUMBER = s.fatTable

/-- Slot 0 of every live directory has the directory's own name and points to
the directory above. -/
structure SelfEntries (s : State) : Prop where
  atRoot : (s.table ROOT_CLUSTER_NUMBER 0).name = rootName ∧
    (s.table ROOT_CLUSTER_NUMBER 0).cluster = ROOT_CLUSTER_NUMBER
  atChild : ∀ d k, LiveEntry s d k → (s.table d k).filesize = 0 →
    (s.table (s.table d k).cluster 0).name = (s.table d k).name ∧
      (s.table (s.table d k).cluster 0).cluster = d

end Fat32
end Jatos
