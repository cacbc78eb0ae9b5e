/-
# How a volume changes

A successful `write` into a live directory makes an entry (`Made`), a successful
`delete` drops one (`Dropped`), and every other request leaves the disk and the
table of clusters alone (`Kept`).  This module says what becomes of the live
directories and of their entries, and that well-formedness stays:

| change | live directories | live entries | chains |
| --- | --- | --- | --- |
| `Kept` | the same | the same | the same |
| `Made` | and the new folder | and the new one | the old, and free clusters |
| `Dropped` | no new ones | no new ones, less the dropped one | those of what is left |

A dropped folder that is not empty takes everything below it along.
-/

import Jatos.Fat32.Volume

namespace Jatos
namespace Fat32

open Linked

variable {r : Request} {s s' : State} {d x : ℕ} {k i j : Fin 64} {e : DirectoryEntry}
  {F l : List ℕ} {t : DirectoryTable}

/-! ### Tables -/

/-- An entry goes to the first free slot. -/
theorem insertEntry_free (hj : freeSlot t = some j) : insertEntry t e = Function.update t j e := by
  simp only [insertEntry, hj]

/-- A full table gets no entry. -/
theorem insertEntry_full (hj : freeSlot t = none) : insertEntry t e = t := by
  simp only [insertEntry, hj]

/-- A slot is left alone, or it was the first free one. -/
theorem insertEntry_cases (t : DirectoryTable) (e : DirectoryEntry) (k : Fin 64) :
    insertEntry t e k = t k ∨ freeSlot t = some k ∧ insertEntry t e k = e := by
  cases hj : freeSlot t with
  | none => exact Or.inl (by rw [insertEntry_full hj])
  | some j =>
      rw [insertEntry_free hj]
      by_cases hk : k = j
      · exact Or.inr ⟨by rw [hk], by rw [hk, Function.update_self]⟩
      · exact Or.inl (Function.update_of_ne hk _ _)

/-- The slot that `write` takes for a new entry is not in use. -/
theorem freeSlot_not_used (hj : freeSlot t = some j) : ¬(t j).Used := (freeSlot_eq_some_iff.1 hj).1

/-- The first free slot of a directory is behind its own entry. -/
theorem WellFormed.freeSlot_ne_zero (h : WellFormed s) (hd : LiveDir s d)
    (hj : freeSlot (s.table d) = some j) : j ≠ 0 := by
  rintro rfl
  exact freeSlot_not_used hj (h.self d hd).1

/-- A new entry goes to the first free slot of the parent. -/
theorem Created.table_parent (hc : Created r e F s s')
    (hj : freeSlot (s.table r.parent) = some j) :
    s'.table r.parent = Function.update (s.table r.parent) j e :=
  hc.parent.trans (insertEntry_free hj)

/-- The slot that was free holds the new entry afterwards. -/
theorem Created.slot_new (hc : Created r e F s s') (hj : freeSlot (s.table r.parent) = some j) :
    s'.table r.parent j = e := by
  rw [hc.table_parent hj, Function.update_self]

/-- A new folder's own entry has the folder's name. -/
@[simp] theorem initDirectoryTable_name (t : DirectoryTable) (n : Packed.Bytes 8) (p : ℕ) :
    (initDirectoryTable t n p 0).name = n := rfl

/-- A new folder's own entry has no size, which is what marks a folder. -/
@[simp] theorem initDirectoryTable_filesize (t : DirectoryTable) (n : Packed.Bytes 8) (p : ℕ) :
    (initDirectoryTable t n p 0).filesize = 0 := rfl

/-- A new folder's own entry is in use. -/
theorem initDirectoryTable_used (t : DirectoryTable) (n : Packed.Bytes 8) (p : ℕ) :
    (initDirectoryTable t n p 0).Used := rfl

/-- A new folder's own entry names the parent's cluster, not the folder's own. -/
theorem initDirectoryTable_cluster (t : DirectoryTable) (n : Packed.Bytes 8) {p : ℕ}
    (hp : p < 512) : (initDirectoryTable t n p 0).cluster = p :=
  DirectoryEntry.cluster_eq (by omega) rfl rfl

/-- A new table is empty behind slot 0. -/
theorem initDirectoryTable_of_ne (t : DirectoryTable) (n : Packed.Bytes 8) (p : ℕ) (hk : k ≠ 0) :
    initDirectoryTable t n p k = DirectoryEntry.zero :=
  if_neg hk

/-! ### The three changes -/

/-- The disk and the table of clusters are what they were. -/
structure Kept (s s' : State) : Prop where
  disk : s'.disk = s.disk
  mem : ∀ c < 512, s'.mem c = s.mem c

/-- An entry was created with as many clusters as it needs: a file's hold its
bytes, a folder's a new table. -/
structure Made (r : Request) (e : DirectoryEntry) (F : List ℕ) (s s' : State) : Prop
    extends Created r e F s s' where
  length : F.length = e.clusters
  folder : e.filesize = 0 → ∃ t, s'.table e.cluster = initDirectoryTable t r.name r.parent
  file : e.filesize ≠ 0 → Stored s' F r.bufferSize.toNat r.buf

/-- A live entry was given up: its slot was cleared and its whole chain freed. -/
structure Dropped (r : Request) (i : Fin 64) (F : List ℕ) (s s' : State) : Prop
    extends Removed r i F s s' where
  entry : LiveEntry s r.parent i
  chain : EntryChain s r.parent i F

/-! ### Nothing new -/

namespace Kept

/-- Every state is kept by doing nothing. -/
theorem refl (s : State) : Kept s s := ⟨rfl, fun _ _ => rfl⟩

/-- A kept state has the same clusters. -/
theorem cluster (h : Kept s s') (c : ℕ) : s'.cluster c = s.cluster c := State.cluster_congr h.disk c

/-- A kept state has the same directory tables. -/
theorem table (h : Kept s s') (d : ℕ) : s'.table d = s.table d :=
  State.table_congr (h.cluster d)

/-- Being kept goes both ways. -/
theorem symm (h : Kept s s') : Kept s' s := ⟨h.disk.symm, fun c hc => (h.mem c hc).symm⟩

/-- A live folder stays live in a kept state. -/
theorem live (h : Kept s s') (hx : LiveDir s x) : LiveDir s' x :=
  hx.of_slots fun d k _ => congrFun (h.table d) k

/-- The live folders of a kept state are the same. -/
theorem live_iff (h : Kept s s') : LiveDir s' x ↔ LiveDir s x := ⟨h.symm.live, h.live⟩

/-- The live entries of a kept state are the same. -/
theorem entry_iff (h : Kept s s') : LiveEntry s' d k ↔ LiveEntry s d k :=
  ⟨fun he => ⟨h.symm.live he.dir, he.slot, h.table d ▸ he.used⟩,
    fun he => ⟨h.live he.dir, he.slot, (h.table d).symm ▸ he.used⟩⟩

/-- The chain of a live entry is the same in a kept state, its clusters being below 512. -/
theorem entryChain (h : Kept s s') (hwf : WellFormed s) (he : LiveEntry s d k)
    (hl : EntryChain s d k l) : EntryChain s' d k l := by
  rw [EntryChain, h.table]
  exact hl.congr fun c hc => h.mem c (hwf.chain_range he hl c hc).2

/-- A kept state is as well formed as before. -/
theorem wellFormed (h : Kept s s') (hwf : WellFormed s) : WellFormed s' where
  root := (h.mem _ (by decide)).trans hwf.root
  self d hd := by
    rw [h.table]
    exact hwf.self d (h.live_iff.1 hd)
  chain d k he := by
    have he' := h.entry_iff.1 he
    obtain ⟨l, hl, hlen, hlt⟩ := hwf.chain d k he'
    exact ⟨l, h.entryChain hwf he' hl, by rw [h.table, hlen], hlt⟩
  disjoint d k l d' k' l' he he' hl hl' := by
    have hd := h.entry_iff.1 he
    have hd' := h.entry_iff.1 he'
    obtain ⟨m, hm, -, -⟩ := hwf.chain d k hd
    obtain ⟨m', hm', -, -⟩ := hwf.chain d' k' hd'
    rw [Chain.unique hl (h.entryChain hwf hd hm), Chain.unique hl' (h.entryChain hwf hd' hm')]
    exact hwf.disjoint d k m d' k' m' hd hd' hm hm'

/-- The boot sector, the reserved entries and the table on the disk stay in a kept state. -/
theorem mounted (h : Kept s s') (hm : Mounted s) : Mounted s' where
  boot := by rw [h.disk, hm.boot]
  entry0 := (h.mem 0 (by decide)).trans hm.entry0
  entry1 := (h.mem 1 (by decide)).trans hm.entry1
  fat := by rw [h.cluster, hm.fat, State.fatTable_congr h.mem]

/-- The folders' own entries stay in a kept state. -/
theorem selfEntries (h : Kept s s') (hs : SelfEntries s) : SelfEntries s' where
  atRoot := by
    rw [h.table]
    exact hs.atRoot
  atChild d k he h0 := by
    rw [h.table] at h0
    rw [h.table, h.table]
    exact hs.atChild d k (h.entry_iff.1 he) h0

end Kept

/-! ### A new entry -/

namespace Made

/-- A new entry goes to no reserved cluster, and not to the root's. -/
theorem range (hc : Made r e F s s') (h : WellFormed s) : ∀ c ∈ F, 3 ≤ c ∧ c < 512 := by
  intro c hF
  obtain ⟨⟨h2, hlt⟩, h0⟩ := mem_freeList.1 (hc.free c hF)
  have hne : c ≠ 2 := by
    rintro rfl
    exact empty_ne_eof (h0.symm.trans h.root)
  omega

/-- What a request makes is put into free clusters, so into none that holds a live folder. -/
theorem live_notMem (hc : Made r e F s s') (h : WellFormed s) (hd : LiveDir s d) : d ∉ F :=
  fun hF => h.live_ne_empty hd (mem_freeList.1 (hc.free d hF)).2

/-- The chains of the volume and the new one have no cluster in common. -/
theorem chain_notMem (hc : Made r e F s s') (h : WellFormed s) (he : LiveEntry s d k)
    (hl : EntryChain s d k l) (hx : x ∈ l) : x ∉ F :=
  fun hF => h.chain_ne_empty he hl hx (mem_freeList.1 (hc.free x hF)).2

/-- A slot of a live directory is left alone, or it was given to the new entry. -/
theorem slot_cases (hc : Made r e F s s') (h : WellFormed s) (hd : LiveDir s d) (k : Fin 64) :
    s'.table d k = s.table d k ∨
      d = r.parent ∧ freeSlot (s.table r.parent) = some k ∧ s'.table d k = e := by
  by_cases hdp : d = r.parent
  · subst hdp
    rw [hc.parent]
    rcases insertEntry_cases (s.table r.parent) e k with hk | ⟨hj, hk⟩
    · exact Or.inl hk
    · exact Or.inr ⟨rfl, hj, hk⟩
  · have hrange := h.live_range hd
    refine Or.inl (congrFun (State.table_congr ?_) k)
    exact hc.other d hrange.2 (by omega) hdp (hc.live_notMem h hd)

/-- Slots other than the one that is given to the new entry are left alone. -/
theorem slot_of_ne (hc : Made r e F s s') (h : WellFormed s) (hd : LiveDir s d)
    (hj : freeSlot (s.table r.parent) = some j) (hk : d = r.parent → k ≠ j) :
    s'.table d k = s.table d k := by
  refine (hc.slot_cases h hd k).resolve_right ?_
  rintro ⟨hdp, hfree, -⟩
  exact hk hdp (Option.some.inj (hfree.symm.trans hj))

/-- Used slots are left alone. -/
theorem table_used (hc : Made r e F s s') (h : WellFormed s) (hd : LiveDir s d)
    (hu : (s.table d k).Used) : s'.table d k = s.table d k := by
  rcases hc.slot_cases h hd k with hk | ⟨rfl, hj, -⟩
  · exact hk
  · exact absurd hu (freeSlot_not_used hj)

/-- A live folder is still live once the new object is there. -/
theorem live (hc : Made r e F s s') (h : WellFormed s) (hx : LiveDir s x) : LiveDir s' x :=
  hx.of_slots fun _ _ he => hc.table_used h he.dir he.used

/-- The new entry is a live one. -/
theorem entry_new (hc : Made r e F s s') (h : WellFormed s) (hp : LiveDir s r.parent)
    (hj : freeSlot (s.table r.parent) = some j) : LiveEntry s' r.parent j :=
  ⟨hc.live h hp, h.freeSlot_ne_zero hp hj, (hc.slot_new hj).symm ▸ hc.used⟩

/-- A live entry is still live once the new object is there. -/
theorem entry (hc : Made r e F s s') (h : WellFormed s) (he : LiveEntry s d k) :
    LiveEntry s' d k :=
  ⟨hc.live h he.dir, he.slot, hc.table_used h he.dir he.used ▸ he.used⟩

/-- A new object without a size is an empty folder. -/
theorem emptyDir (hc : Made r e F s s') (h0 : e.filesize = 0) : EmptyDir s' e.cluster := by
  obtain ⟨t, ht⟩ := hc.folder h0
  intro k hk
  rw [ht, initDirectoryTable_of_ne _ _ _ hk]
  exact zero_not_used

/-- The live directories are the old ones and the new folder. -/
theorem live_inv (hc : Made r e F s s') (h : WellFormed s) (hx : LiveDir s' x) :
    LiveDir s x ∨
      x = e.cluster ∧ e.filesize = 0 ∧ (freeSlot (s.table r.parent)).isSome := by
  refine LiveDir.induction (P := fun x => LiveDir s x ∨
    x = e.cluster ∧ e.filesize = 0 ∧ (freeSlot (s.table r.parent)).isSome)
    (Or.inl .root) (fun d k he h0 hd => ?_) hx
  rcases hd with hd | ⟨rfl, he0, -⟩
  · rcases hc.slot_cases h hd k with hk | ⟨rfl, hj, hk⟩
    · rw [hk] at h0 ⊢
      exact Or.inl (LiveEntry.child ⟨hd, he.slot, hk ▸ he.used⟩ h0)
    · exact Or.inr ⟨by rw [hk], hk ▸ h0, by rw [hj]; rfl⟩
  · exact absurd he.used (hc.emptyDir he0 k he.slot)

/-- The live entries are the old ones and the new one. -/
theorem entry_inv (hc : Made r e F s s') (h : WellFormed s) (he : LiveEntry s' d k) :
    LiveEntry s d k ∧ s'.table d k = s.table d k ∨
      d = r.parent ∧ freeSlot (s.table r.parent) = some k ∧ s'.table d k = e := by
  rcases hc.live_inv h he.dir with hd | ⟨rfl, h0, -⟩
  · rcases hc.slot_cases h hd k with hk | hk
    · exact Or.inl ⟨⟨hd, he.slot, hk ▸ he.used⟩, hk⟩
    · exact Or.inr hk
  · exact absurd he.used (hc.emptyDir h0 k he.slot)

/-- The chain of an old entry is what it was. -/
theorem entryChain (hc : Made r e F s s') (h : WellFormed s) (he : LiveEntry s d k)
    (hl : EntryChain s d k l) : EntryChain s' d k l := by
  rw [EntryChain, hc.table_used h he.dir he.used]
  exact hl.congr fun c hc' =>
    hc.mem c (h.chain_range he hl c hc').2 (hc.chain_notMem h he hl hc')

/-- A cluster of a file is left alone. -/
theorem cluster_file (hc : Made r e F s s') (h : WellFormed s) (hp : LiveDir s r.parent)
    (he : LiveEntry s d k) (hl : EntryChain s d k l) (h0 : (s.table d k).filesize ≠ 0)
    (hx : x ∈ l) : s'.cluster x = s.cluster x := by
  have hrange := h.chain_range he hl x hx
  refine hc.other x hrange.2 (by omega) ?_ (hc.chain_notMem h he hl hx)
  rintro rfl
  exact h0 (h.live_mem_chain he hl hx hp).1

/-- **A new entry keeps the volume well formed.** -/
theorem wellFormed (hc : Made r e F s s') (h : WellFormed s) :
    WellFormed s' := by
  have hnew : ∀ k, s'.table r.parent k = e → EntryChain s' r.parent k F := by
    intro k hk
    rw [EntryChain, hk]
    exact hc.chain
  -- every live entry is old, with its old chain, or the new one, with `F`
  have hcases : ∀ d k l, LiveEntry s' d k → EntryChain s' d k l →
      LiveEntry s d k ∧ EntryChain s d k l ∨
        (d = r.parent ∧ freeSlot (s.table r.parent) = some k) ∧ l = F := by
    intro d k l he hl
    rcases hc.entry_inv h he with ⟨he', -⟩ | ⟨rfl, hj, hk⟩
    · obtain ⟨m, hm, -, -⟩ := h.chain d k he'
      rw [Chain.unique hl (hc.entryChain h he' hm)]
      exact Or.inl ⟨he', hm⟩
    · exact Or.inr ⟨⟨rfl, hj⟩, Chain.unique hl (hnew k hk)⟩
  constructor
  case root =>
    rw [hc.mem 2 (by decide) (hc.live_notMem h .root)]
    exact h.root
  case self =>
    intro d hd
    rcases hc.live_inv h hd with hd | ⟨rfl, h0, -⟩
    · rw [hc.table_used h hd (h.self d hd).1]
      exact h.self d hd
    · obtain ⟨t, ht⟩ := hc.folder h0
      rw [ht]
      exact ⟨initDirectoryTable_used _ _ _, initDirectoryTable_filesize _ _ _⟩
  case chain =>
    intro d k he
    rcases hc.entry_inv h he with ⟨he', hk⟩ | ⟨rfl, hj, hk⟩
    · obtain ⟨l, hl, hlen, hlt⟩ := h.chain d k he'
      exact ⟨l, hc.entryChain h he' hl, by rw [hk, hlen], hlt⟩
    · exact ⟨F, hnew k hk, by rw [hk, hc.length], hc.range h⟩
  case disjoint =>
    intro d k l d' k' l' he he' hl hl' c hcl hcl'
    rcases hcases d k l he hl with ⟨ho, hol⟩ | ⟨⟨rfl, hj⟩, rfl⟩
    · rcases hcases d' k' l' he' hl' with ⟨ho', hol'⟩ | ⟨-, rfl⟩
      · exact h.disjoint d k l d' k' l' ho ho' hol hol' c hcl hcl'
      · exact absurd hcl' (hc.chain_notMem h ho hol hcl)
    · rcases hcases d' k' l' he' hl' with ⟨ho', hol'⟩ | ⟨⟨rfl, hj'⟩, rfl⟩
      · exact absurd hcl (hc.chain_notMem h ho' hol' hcl')
      · exact ⟨rfl, Option.some.inj (hj.symm.trans hj')⟩

/-- The boot sector, the reserved entries and the table on the disk are in place once the
new object is there. -/
theorem mounted (hc : Made r e F s s') (h : WellFormed s) (hm : Mounted s) : Mounted s' := by
  have hlow : ∀ c, c < 3 → c ∉ F := fun c hlt hF => absurd (hc.range h c hF).1 (by omega)
  constructor
  case boot => rw [hc.boot, hm.boot]
  case entry0 => rw [hc.mem 0 (by decide) (hlow 0 (by decide)), hm.entry0]
  case entry1 => rw [hc.mem 1 (by decide) (hlow 1 (by decide)), hm.entry1]
  case fat => exact hc.fat

/-- Every folder has its own entry in slot 0, the new one included. -/
theorem selfEntries (hc : Made r e F s s') (h : WellFormed s) (hp : LiveDir s r.parent)
    (hs : SelfEntries s) : SelfEntries s' := by
  constructor
  case atRoot =>
    rw [hc.table_used h .root (h.self _ .root).1]
    exact hs.atRoot
  case atChild =>
    intro d k he h0
    rcases hc.entry_inv h he with ⟨he', hk⟩ | ⟨rfl, -, hk⟩
    · have hd : LiveDir s (s.table d k).cluster := he'.child (hk ▸ h0)
      rw [hk, hc.table_used h hd (h.self _ hd).1]
      exact hs.atChild d k he' (hk ▸ h0)
    · obtain ⟨t, ht⟩ := hc.folder (hk ▸ h0)
      rw [hk, ht, hc.name]
      exact ⟨rfl, initDirectoryTable_cluster _ _ (h.live_range hp).2⟩

end Made

/-! ### An entry less -/

namespace Dropped

/-- The clusters that a deletion frees are clusters of the data area. -/
theorem range (hr : Dropped r i F s s') (h : WellFormed s) : ∀ c ∈ F, 3 ≤ c ∧ c < 512 := by
  exact h.chain_range hr.entry hr.chain

/-- Freed clusters were on the chain of the dropped entry, and on no other. -/
theorem eq_of_mem (hr : Dropped r i F s s') (h : WellFormed s) (he : LiveEntry s d k)
    (hl : EntryChain s d k l) (hx : x ∈ l) (hF : x ∈ F) : d = r.parent ∧ k = i := by
  exact h.disjoint d k l r.parent i F he hr.entry hl hr.chain x hx hF

/-- The directory that held the entry is not freed. -/
theorem parent_notMem (hr : Dropped r i F s s') (h : WellFormed s) : r.parent ∉ F := by
  exact h.parent_notMem hr.entry hr.chain

/-- The dropped slot is cleared. -/
theorem slot_eq (hr : Dropped r i F s s') : s'.table r.parent i = DirectoryEntry.zero := by
  rw [hr.parent, Function.update_self]

/-- A slot of a directory that was not freed is left alone, or it is the dropped
one. -/
theorem slot_cases (hr : Dropped r i F s s') (h : WellFormed s) (hd : LiveDir s d)
    (hdF : d ∉ F) (k : Fin 64) :
    s'.table d k = s.table d k ∨ (d = r.parent ∧ k = i) ∧ s'.table d k = DirectoryEntry.zero := by
  by_cases hdp : d = r.parent
  · subst hdp
    rw [hr.parent]
    by_cases hk : k = i
    · subst hk
      exact Or.inr ⟨⟨rfl, rfl⟩, Function.update_self _ _ _⟩
    · exact Or.inl (Function.update_of_ne hk _ _)
  · have hrange := h.live_range hd
    exact Or.inl (congrFun (State.table_congr
      (hr.other d hrange.2 (by omega) hdp hdF)) k)

/-- What is still live was live, and was not freed. -/
theorem live_inv (hr : Dropped r i F s s') (h : WellFormed s) (hx : LiveDir s' x) :
    LiveDir s x ∧ x ∉ F := by
  refine LiveDir.induction (P := fun x => LiveDir s x ∧ x ∉ F)
    ⟨.root, fun hF => absurd (hr.range h _ hF).1 (by decide)⟩ (fun d k he h0 hd => ?_) hx
  rcases hr.slot_cases h hd.1 hd.2 k with hk | ⟨-, hk⟩
  · rw [hk] at h0 ⊢
    have he' : LiveEntry s d k := ⟨hd.1, he.slot, hk ▸ he.used⟩
    refine ⟨he'.child h0, fun hF => ?_⟩
    -- only the dropped entry has a cluster in `F`, and it is not used any more
    obtain ⟨rfl, rfl⟩ := hr.eq_of_mem h he' (h.folder_chain he' h0).1 List.mem_cons_self hF
    exact zero_not_used (hr.slot_eq ▸ he.used)
  · exact absurd (hk ▸ he.used) zero_not_used

/-- The live entries are old ones, other than the dropped one. -/
theorem entry_inv (hr : Dropped r i F s s') (h : WellFormed s) (he : LiveEntry s' d k) :
    LiveEntry s d k ∧ s'.table d k = s.table d k ∧ ¬(d = r.parent ∧ k = i) := by
  obtain ⟨hd, hdF⟩ := hr.live_inv h he.dir
  have hne : ¬(d = r.parent ∧ k = i) := by
    rintro ⟨rfl, rfl⟩
    exact zero_not_used (hr.slot_eq ▸ he.used)
  rcases hr.slot_cases h hd hdF k with hk | ⟨hk, -⟩
  · exact ⟨⟨hd, he.slot, hk ▸ he.used⟩, hk, hne⟩
  · exact absurd hk hne

/-- Slot 0 of a directory that is still live is left alone. -/
theorem slot_zero (hr : Dropped r i F s s') (h : WellFormed s) (hd : LiveDir s' d) :
    s'.table d 0 = s.table d 0 := by
  obtain ⟨hd', hdF⟩ := hr.live_inv h hd
  rcases hr.slot_cases h hd' hdF 0 with hk | ⟨⟨-, hk⟩, -⟩
  · exact hk
  · exact absurd hk.symm hr.entry.slot

/-- The chain of an entry that a deletion leaves is the chain it had. -/
theorem entryChain (hr : Dropped r i F s s') (h : WellFormed s) (he : LiveEntry s' d k)
    (hl : EntryChain s d k l) : EntryChain s' d k l := by
  obtain ⟨he', hk, hne⟩ := hr.entry_inv h he
  rw [EntryChain, hk]
  refine hl.congr fun c hc => ?_
  rw [hr.mem c (h.chain_range he' hl c hc).2,
    if_neg fun hF => hne (hr.eq_of_mem h he' hl hc hF)]

/-- A cluster of a file that is left is left alone. -/
theorem cluster_file (hr : Dropped r i F s s') (h : WellFormed s) (he : LiveEntry s' d k)
    (hl : EntryChain s d k l) (h0 : (s.table d k).filesize ≠ 0) (hx : x ∈ l) :
    s'.cluster x = s.cluster x := by
  obtain ⟨he', -, hne⟩ := hr.entry_inv h he
  have hrange := h.chain_range he' hl x hx
  refine hr.other x hrange.2 (by omega) ?_ fun hF => hne (hr.eq_of_mem h he' hl hx hF)
  rintro rfl
  exact h0 (h.live_mem_chain he' hl hx hr.entry.dir).1

/-- If a file or an empty folder is dropped, the directories that were not freed
stay. -/
theorem live (hr : Dropped r i F s s') (h : WellFormed s)
    (hempty : (s.table r.parent i).filesize = 0 → EmptyDir s (s.table r.parent i).cluster)
    (hx : LiveDir s x) (hF : x ∉ F) : LiveDir s' x := by
  refine LiveDir.induction (P := fun x => x ∉ F → LiveDir s' x) (fun _ => .root)
    (fun d k he h0 ih hkF => ?_) hx hF
  -- the directory above was not freed either: it holds an entry
  have hdF : d ∉ F := by
    intro hdF
    obtain ⟨hfold, hcl⟩ := h.live_mem_chain hr.entry hr.chain hdF he.dir
    exact hempty hfold k he.slot (hcl ▸ he.used)
  rcases hr.slot_cases h he.dir hdF k with hk | ⟨⟨rfl, rfl⟩, -⟩
  · rw [← hk] at h0 ⊢
    exact LiveEntry.child ⟨ih hdF, he.slot, hk ▸ he.used⟩ h0
  · exact absurd hr.chain.head_mem hkF

/-- The directories no deeper than the one that held the entry stay. -/
theorem live_above {n m : ℕ} (hr : Dropped r i F s s') (h : WellFormed s)
    (hp : LiveAt s n r.parent) (hx : LiveAt s m x) (hm : m ≤ n) : LiveDir s' x := by
  induction hx with
  | root => exact .root
  | @child m d k hd hk hu h0 ih =>
      -- what hangs below the dropped entry is deeper than its directory
      have hdF : d ∉ F := by
        intro hdF
        have hdeep := LiveAt.succ_of_mem h hp hr.entry.slot hr.entry.used hr.chain hdF ⟨_, hd⟩
        have := LiveAt.unique h hd hdeep
        omega
      rcases hr.slot_cases h ⟨_, hd⟩ hdF k with hk' | ⟨⟨rfl, rfl⟩, -⟩
      · rw [← hk'] at h0 ⊢
        exact LiveEntry.child ⟨ih (by omega), hk, hk' ▸ hu⟩ h0
      · have := LiveAt.unique h hd hp
        omega

/-- The directory that held the entry stays. -/
theorem parent_live (hr : Dropped r i F s s') (h : WellFormed s) : LiveDir s' r.parent := by
  obtain ⟨n, hn⟩ := hr.entry.dir
  exact hr.live_above h hn hn le_rfl

/-- **Dropping an entry keeps the volume well formed.** -/
theorem wellFormed (hr : Dropped r i F s s') (h : WellFormed s) : WellFormed s' := by
  constructor
  case root =>
    rw [hr.mem 2 (by decide), if_neg fun hF => absurd (hr.range h _ hF).1 (by decide)]
    exact h.root
  case self =>
    intro d hd
    rw [hr.slot_zero h hd]
    exact h.self d (hr.live_inv h hd).1
  case chain =>
    intro d k he
    obtain ⟨he', hk, -⟩ := hr.entry_inv h he
    obtain ⟨l, hl, hlen, hlt⟩ := h.chain d k he'
    exact ⟨l, hr.entryChain h he hl, by rw [hk, hlen], hlt⟩
  case disjoint =>
    intro d k l d' k' l' he he' hl hl'
    obtain ⟨ho, -, -⟩ := hr.entry_inv h he
    obtain ⟨ho', -, -⟩ := hr.entry_inv h he'
    obtain ⟨m, hm, -, -⟩ := h.chain d k ho
    obtain ⟨m', hm', -, -⟩ := h.chain d' k' ho'
    rw [Chain.unique hl (hr.entryChain h he hm), Chain.unique hl' (hr.entryChain h he' hm')]
    exact h.disjoint d k m d' k' m' ho ho' hm hm'

/-- The boot sector, the reserved entries and the table on the disk are in place after a
deletion. -/
theorem mounted (hr : Dropped r i F s s') (h : WellFormed s) (hm : Mounted s) : Mounted s' := by
  have hlow : ∀ c, c < 3 → c ∉ F := fun c hlt hF => absurd (hr.range h c hF).1 (by omega)
  constructor
  case boot => rw [hr.boot, hm.boot]
  case entry0 => rw [hr.mem 0 (by decide), if_neg (hlow 0 (by decide)), hm.entry0]
  case entry1 => rw [hr.mem 1 (by decide), if_neg (hlow 1 (by decide)), hm.entry1]
  case fat => exact hr.fat

/-- Every folder has its own entry in slot 0 after a deletion. -/
theorem selfEntries (hr : Dropped r i F s s') (h : WellFormed s) (hs : SelfEntries s) :
    SelfEntries s' := by
  constructor
  case atRoot =>
    rw [hr.slot_zero h .root]
    exact hs.atRoot
  case atChild =>
    intro d k he h0
    obtain ⟨he', hk, -⟩ := hr.entry_inv h he
    rw [hr.slot_zero h (he.child h0), hk]
    exact hs.atChild d k he' (hk ▸ h0)

end Dropped

end Fat32
end Jatos
