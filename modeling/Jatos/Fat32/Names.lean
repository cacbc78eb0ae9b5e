/-
# Names and contents

The three lookups of the driver compare the eight bytes of a name with every
slot of the table, used or not, slot 0 included.  They find what an entry's name
says only under conditions that the driver does not keep by itself:

* `Distinct`: no two used slots of a live directory have the same name;
* `Clean`: unused slots have the empty name;
* `Titled`: used slots have a name.

Each is kept by every change under the condition of its lemma here.  `Holds`
says what an entry stores, and no change to other entries disturbs it.
-/

import Jatos.Fat32.Boot

namespace Jatos
namespace Fat32

open Linked Packed

variable {r : Request} {s s' : State} {d : ℕ} {i j k : Fin 64} {e : DirectoryEntry}
  {F l : List ℕ} {n : Bytes 8} {size : ℕ} {buf : Buffer} {fuel : ℕ}

/-- No two used slots of a live directory have the same name. -/
def Distinct (s : State) : Prop :=
  ∀ d, LiveDir s d → ∀ k k', (s.table d k).Used → (s.table d k').Used →
    (s.table d k).name = (s.table d k').name → k = k'

/-- Unused slots of live directories have the empty name. -/
def Clean (s : State) : Prop :=
  ∀ d, LiveDir s d → ∀ k, ¬(s.table d k).Used → (s.table d k).name = 0

/-- Used slots of live directories have a name. -/
def Titled (s : State) : Prop :=
  ∀ d, LiveDir s d → ∀ k, (s.table d k).Used → (s.table d k).name ≠ 0

/-- No slot of the directory has the name, used or not. -/
def Unnamed (s : State) (d : ℕ) (n : Bytes 8) : Prop := ∀ k, (s.table d k).name ≠ n

/-- No used slot of the directory has the name. -/
def NoEntry (s : State) (d : ℕ) (n : Bytes 8) : Prop :=
  ∀ k, (s.table d k).Used → (s.table d k).name ≠ n

/-- A name that no slot has is no entry's. -/
theorem Unnamed.noEntry (h : Unnamed s d n) : NoEntry s d n := fun k _ => h k

/-! ### Lookup -/

/-- In a clean volume a lookup by a name finds a used slot. -/
theorem Clean.used (h : Clean s) (hd : LiveDir s d) (hn : n ≠ 0)
    (hi : findSlot (s.table d) n = some i) : (s.table d i).Used := by
  by_contra hu
  exact hn ((findSlot_eq_some_iff.1 hi).1.symm.trans (h d hd i hu))

/-- **A name finds its entry.** -/
theorem findSlot_eq (hdist : Distinct s) (hclean : Clean s) (hd : LiveDir s d) (hn : n ≠ 0)
    (hu : (s.table d k).Used) (hk : (s.table d k).name = n) :
    findSlot (s.table d) n = some k := by
  cases hi : findSlot (s.table d) n with
  | none => exact absurd hk (findSlot_eq_none_iff.1 hi k)
  | some i =>
      have hiu := hclean.used hd hn hi
      rw [hdist d hd i k hiu hu ((findSlot_eq_some_iff.1 hi).1.trans hk.symm)]

/-- A name that no entry has, and that is not the directory's own, is not found. -/
theorem findSlot_eq_none (hclean : Clean s) (hd : LiveDir s d) (hn : n ≠ 0)
    (h0 : n ≠ (s.table d 0).name) (h : ∀ k, LiveEntry s d k → (s.table d k).name ≠ n) :
    findSlot (s.table d) n = none := by
  refine findSlot_eq_none_iff.2 fun k hk => ?_
  by_cases hk0 : k = 0
  · subst hk0
    exact h0 hk.symm
  · refine h k ⟨hd, hk0, ?_⟩ hk
    by_contra hu
    exact hn (hk.symm.trans (hclean d hd k hu))

/-- A search for a name that no slot has finds nothing. -/
theorem Unnamed.not_found (h : Unnamed s d n) : findSlot (s.table d) n = none :=
  findSlot_eq_none_iff.2 h

/-! ### The fresh volume -/

/-- After a format, the one slot in use is the root's own. -/
theorem createFat32_cases (hd : LiveDir (createFat32 s) d) (k : Fin 64) :
    k = 0 ∧ ((createFat32 s).table d k).Used ∧ ((createFat32 s).table d k).name = rootName ∨
      k ≠ 0 ∧ (createFat32 s).table d k = DirectoryEntry.zero := by
  obtain rfl := createFat32_live hd
  by_cases hk : k = 0
  · subst hk
    rw [createFat32_table]
    exact Or.inl ⟨rfl, initDirectoryTable_used _ _ _, initDirectoryTable_name _ _ _⟩
  · exact Or.inr ⟨hk, createFat32_slot hk⟩

/-- After a format, no entry of the root has another name than the root's. -/
theorem createFat32_noEntry (hn : n ≠ rootName) :
    NoEntry (createFat32 s) ROOT_CLUSTER_NUMBER n := by
  intro k hu
  rcases createFat32_cases .root k with ⟨-, -, hname⟩ | ⟨-, hzero⟩
  · exact fun heq => hn (heq.symm.trans hname)
  · exact absurd (hzero ▸ hu) zero_not_used

/-- After a format, no two entries of a folder have one name. -/
theorem createFat32_distinct (s : State) : Distinct (createFat32 s) := by
  intro d hd k k' hu hu' _
  rcases createFat32_cases hd k with ⟨rfl, -⟩ | ⟨-, hk⟩
  · rcases createFat32_cases hd k' with ⟨rfl, -⟩ | ⟨-, hk'⟩
    · rfl
    · exact absurd (hk' ▸ hu') zero_not_used
  · exact absurd (hk ▸ hu) zero_not_used

/-- After a format, no slot out of use has a name. -/
theorem createFat32_clean (s : State) : Clean (createFat32 s) := by
  intro d hd k hu
  rcases createFat32_cases hd k with ⟨-, hk, -⟩ | ⟨-, hk⟩
  · exact absurd hk hu
  · rw [hk]
    rfl

/-- After a format, every folder's own entry has a name. -/
theorem createFat32_titled (s : State) : Titled (createFat32 s) := by
  intro d hd k hu
  rcases createFat32_cases hd k with ⟨-, -, hk⟩ | ⟨-, hk⟩
  · rw [hk]
    exact rootName_ne_zero
  · exact absurd (hk ▸ hu) zero_not_used

/-! ### Contents -/

/-- What is stored under a name. -/
inductive Node
  | file (bytes : List UInt8)
  | dir

/-- The bytes that a write is given. -/
def Request.bytes (r : Request) : List UInt8 := List.ofFn fun i : Fin r.bufferSize.toNat => r.buf i

/-- What a write stores. -/
def Request.node (r : Request) : Node := if r.bufferSize = 0 then .dir else .file r.bytes

/-- A request's bytes are as many as its buffer's size says. -/
theorem Request.length_bytes (r : Request) : r.bytes.length = r.bufferSize.toNat := by
  simp [bytes]

/-- A request's bytes are those of its buffer. -/
theorem Request.bytes_getD (r : Request) (h : size < r.bufferSize.toNat) :
    r.bytes.getD size 0 = r.buf size := by
  simp [bytes, List.getD_eq_getElem?_getD, h]

/-- Slot `k` of directory `d` stores the node. -/
def Holds (s : State) (d : ℕ) (k : Fin 64) : Node → Prop
  | .dir => (s.table d k).filesize = 0
  | .file B => (s.table d k).filesize ≠ 0 ∧ (s.table d k).filesize.toNat = B.length ∧
      ∃ l, EntryChain s d k l ∧ Stored s l B.length fun i => B.getD i 0

/-- What a chain stores depends on the clusters of the chain only. -/
theorem Stored.congr {B : Buffer} (h : Stored s l size B)
    (hl : ∀ c ∈ l, s'.cluster c = s.cluster c) : Stored s' l size B := by
  intro m c hm j hj
  rw [hl c (List.mem_of_getElem? hm)]
  exact h m c hm j hj

/-- A file is read whole. -/
theorem Holds.read {B : List UInt8} (h : WellFormed s) (he : LiveEntry s r.parent i)
    (hB : Holds s r.parent i (.file B)) (hn : r.name ≠ 0)
    (hi : findSlot (s.table r.parent) r.name = some i) (hsize : B.length ≤ r.bufferSize.toNat)
    (hfuel : 512 ≤ fuel) :
    ∃ buf, Fat32.read fuel r s = some (⟨0, buf⟩, s) ∧ ∀ i (hi : i < B.length), buf i = B[i] := by
  obtain ⟨h0, hlen, l, hl, hst⟩ := hB
  have hclusters := h.chain_length he hl
  rw [DirectoryEntry.clusters, if_neg h0] at hclusters
  have hfit := h.chain_length_le he hl
  obtain ⟨buf, hread, hcopy⟩ := read_file hn hi h0 hl
    (fun c hc => (h.chain_range he hl c hc).2) hclusters (hlen ▸ hsize) (by omega : l.length ≤ fuel)
  refine ⟨buf, hread, fun j hj => ?_⟩
  have hle := le_clusterNeed (s.table r.parent i).filesize.toNat
  rw [hcopy _ _ hst (by omega) j hj]
  simp [List.getD_eq_getElem?_getD, hj]

/-- `read` answers 1 for a folder, and changes nothing. -/
theorem Holds.read_dir (hB : Holds s r.parent i .dir) (hn : r.name ≠ 0)
    (hi : findSlot (s.table r.parent) r.name = some i) :
    Fat32.read fuel r s = some (⟨1, r.buf⟩, s) :=
  read_folder hn hi hB

/-! ### Kept -/

namespace Kept

/-- Names stay distinct in a kept state. -/
theorem distinct (h : Kept s s') (hs : Distinct s) : Distinct s' := by
  intro d hd
  rw [h.table]
  exact hs d (h.live_iff.1 hd)

/-- The slots out of use stay nameless in a kept state. -/
theorem clean (h : Kept s s') (hs : Clean s) : Clean s' := by
  intro d hd
  rw [h.table]
  exact hs d (h.live_iff.1 hd)

/-- A name that no slot has is still no slot's in a kept state. -/
theorem unnamed (h : Kept s s') (hs : Unnamed s d n) : Unnamed s' d n := by
  intro k
  rw [h.table]
  exact hs k

/-- A name that no entry has is still no entry's in a kept state. -/
theorem noEntry (h : Kept s s') (hs : NoEntry s d n) : NoEntry s' d n := by
  intro k
  rw [h.table]
  exact hs k

/-- An entry holds the same in a kept state. -/
theorem holds (h : Kept s s') (hwf : WellFormed s) (he : LiveEntry s d k) {x : Node}
    (hx : Holds s d k x) : Holds s' d k x := by
  cases x with
  | dir =>
      rw [Holds, h.table]
      exact hx
  | file B =>
      obtain ⟨h0, hlen, l, hl, hst⟩ := hx
      rw [Holds, h.table]
      exact ⟨h0, hlen, l, h.entryChain hwf he hl, hst.congr fun c _ => h.cluster c⟩

end Kept

/-! ### A new entry -/

namespace Made

/-- A slot of a live directory: an old one, the new entry, or one of the new
table. -/
theorem slot (hc : Made r e F s s') (h : WellFormed s) (hd : LiveDir s' d) (k : Fin 64) :
    LiveDir s d ∧ s'.table d k = s.table d k ∨
      d = r.parent ∧ freeSlot (s.table r.parent) = some k ∧ s'.table d k = e ∨
      d = e.cluster ∧ ∃ t, s'.table d k = initDirectoryTable t r.name r.parent k := by
  rcases hc.live_inv h hd with hd' | ⟨rfl, h0, -⟩
  · rcases hc.slot_cases h hd' k with hk | hk
    · exact Or.inl ⟨hd', hk⟩
    · exact Or.inr (Or.inl hk)
  · obtain ⟨t, ht⟩ := hc.folder h0
    exact Or.inr (Or.inr ⟨rfl, t, by rw [ht]⟩)

/-- The slots out of use are nameless once the new object is there. -/
theorem clean (hc : Made r e F s s') (h : WellFormed s) (hs : Clean s) : Clean s' := by
  intro d hd k hu
  rcases hc.slot h hd k with ⟨hd', hk⟩ | ⟨-, -, hk⟩ | ⟨-, t, hk⟩
  · rw [hk] at hu ⊢
    exact hs d hd' k hu
  · rw [hk] at hu
    exact absurd hc.used hu
  · rw [hk] at hu ⊢
    by_cases hk0 : k = 0
    · subst hk0
      exact absurd (initDirectoryTable_used t r.name r.parent) hu
    · rw [initDirectoryTable_of_ne _ _ _ hk0]
      rfl

/-- Every folder's own entry has a name, the new folder's included. -/
theorem titled (hc : Made r e F s s') (h : WellFormed s) (hn : r.name ≠ 0) (hs : Titled s) :
    Titled s' := by
  intro d hd k hu
  rcases hc.slot h hd k with ⟨hd', hk⟩ | ⟨-, -, hk⟩ | ⟨-, t, hk⟩
  · rw [hk] at hu ⊢
    exact hs d hd' k hu
  · rw [hk, hc.name]
    exact hn
  · rw [hk] at hu ⊢
    by_cases hk0 : k = 0
    · subst hk0
      exact hn
    · rw [initDirectoryTable_of_ne _ _ _ hk0] at hu
      exact absurd hu zero_not_used

/-- Names stay distinct if no used slot has the name of the new entry. -/
theorem distinct (hc : Made r e F s s') (h : WellFormed s) (hfresh : NoEntry s r.parent r.name)
    (hs : Distinct s) : Distinct s' := by
  intro d hd k k' hu hu' hkk'
  rcases hc.live_inv h hd with hd' | ⟨rfl, h0, -⟩
  · rcases hc.slot_cases h hd' k with hk | ⟨rfl, hj, hk⟩
    · rcases hc.slot_cases h hd' k' with hk' | ⟨rfl, -, hk'⟩
      · rw [hk] at hu hkk'
        rw [hk'] at hu' hkk'
        exact hs d hd' k k' hu hu' hkk'
      · rw [hk, hk', hc.name] at hkk'
        exact absurd hkk' (hfresh k (hk ▸ hu))
    · rcases hc.slot_cases h hd' k' with hk' | ⟨-, hj', -⟩
      · rw [hk, hk', hc.name] at hkk'
        exact absurd hkk'.symm (hfresh k' (hk' ▸ hu'))
      · exact Option.some.inj (hj.symm.trans hj')
  · have hzero : ∀ k, (s'.table e.cluster k).Used → k = 0 := fun k hk => by
      by_contra hk0
      exact hc.emptyDir h0 k hk0 hk
    rw [hzero k hu, hzero k' hu']

/-- A name that is not the new entry's does not appear. -/
theorem unnamed (hc : Made r e F s s') (h : WellFormed s) (hd : LiveDir s d)
    (hne : ¬(d = r.parent ∧ r.name = n)) (hs : Unnamed s d n) : Unnamed s' d n := by
  intro k hk
  rcases hc.slot_cases h hd k with hk' | ⟨rfl, -, hk'⟩
  · exact hs k (hk' ▸ hk)
  · exact hne ⟨rfl, by rw [← hc.name, ← hk', hk]⟩

/-- What an old entry stores stays. -/
theorem holds (hc : Made r e F s s') (h : WellFormed s) (hp : LiveDir s r.parent)
    (he : LiveEntry s d k) {x : Node} (hx : Holds s d k x) : Holds s' d k x := by
  have hk := hc.table_used h he.dir he.used
  cases x with
  | dir =>
      rw [Holds, hk]
      exact hx
  | file B =>
      obtain ⟨h0, hlen, l, hl, hst⟩ := hx
      rw [Holds, hk]
      exact ⟨h0, hlen, l, hc.entryChain h he hl,
        hst.congr fun c hcl => hc.cluster_file h hp he hl h0 hcl⟩

/-- The new entry stores what the write was given. -/
theorem holds_new (hc : Made r e F s s') (hk : s'.table r.parent k = e) :
    Holds s' r.parent k r.node := by
  by_cases hs : r.bufferSize = 0
  · rw [Request.node, if_pos hs, Holds, hk, hc.filesize, hs]
  · have h0 : e.filesize ≠ 0 := hc.filesize ▸ hs
    have hchain : EntryChain s' r.parent k F := by
      rw [EntryChain, hk]
      exact hc.chain
    rw [Request.node, if_neg hs, Holds, hk, r.length_bytes]
    refine ⟨h0, by rw [hc.filesize], F, hchain, ?_⟩
    intro m c hm j hj
    exact (hc.file h0 m c hm j hj).trans (r.bytes_getD hj).symm

end Made

/-! ### An entry less -/

namespace Dropped

/-- A slot of a live directory is an old one, or the dropped one, cleared. -/
theorem slot (hr : Dropped r i F s s') (h : WellFormed s) (hd : LiveDir s' d) (k : Fin 64) :
    LiveDir s d ∧ (s'.table d k = s.table d k ∨
      (d = r.parent ∧ k = i) ∧ s'.table d k = DirectoryEntry.zero) := by
  obtain ⟨hd', hdF⟩ := hr.live_inv h hd
  exact ⟨hd', hr.slot_cases h hd' hdF k⟩

/-- A used slot of a live directory is what it was. -/
theorem slot_used (hr : Dropped r i F s s') (h : WellFormed s) (hd : LiveDir s' d)
    (hu : (s'.table d k).Used) : LiveDir s d ∧ s'.table d k = s.table d k := by
  obtain ⟨hd', hk | ⟨-, hk⟩⟩ := hr.slot h hd k
  · exact ⟨hd', hk⟩
  · exact absurd (hk ▸ hu) zero_not_used

/-- Names are distinct after a deletion. -/
theorem distinct (hr : Dropped r i F s s') (h : WellFormed s) (hs : Distinct s) :
    Distinct s' := by
  intro d hd k k' hu hu' hkk'
  obtain ⟨hd', hk⟩ := hr.slot_used h hd hu
  obtain ⟨-, hk'⟩ := hr.slot_used h hd hu'
  rw [hk] at hu hkk'
  rw [hk'] at hu' hkk'
  exact hs d hd' k k' hu hu' hkk'

/-- Every folder's own entry has a name after a deletion. -/
theorem titled (hr : Dropped r i F s s') (h : WellFormed s) (hs : Titled s) : Titled s' := by
  intro d hd k hu
  obtain ⟨hd', hk⟩ := hr.slot_used h hd hu
  rw [hk] at hu ⊢
  exact hs d hd' k hu

/-- The slots out of use are nameless after a deletion. -/
theorem clean (hr : Dropped r i F s s') (h : WellFormed s) (hs : Clean s) : Clean s' := by
  intro d hd k hu
  obtain ⟨hd', hk | ⟨-, hk⟩⟩ := hr.slot h hd k
  · rw [hk] at hu ⊢
    exact hs d hd' k hu
  · exact congrArg DirectoryEntry.name hk

/-- No name appears. -/
theorem unnamed (hr : Dropped r i F s s') (h : WellFormed s) (hd : LiveDir s' d) (hn : n ≠ 0)
    (hs : Unnamed s d n) : Unnamed s' d n := by
  intro k hk
  rcases (hr.slot h hd k).2 with hk' | ⟨-, hk'⟩
  · exact hs k (hk' ▸ hk)
  · exact hn (hk.symm.trans (congrArg DirectoryEntry.name hk'))

/-- An entry other than the dropped one stays, if the dropped one is a file or
an empty folder. -/
theorem entry_of_ne (hr : Dropped r i F s s') (h : WellFormed s)
    (hempty : (s.table r.parent i).filesize = 0 → EmptyDir s (s.table r.parent i).cluster)
    (he : LiveEntry s d k) (hne : ¬(d = r.parent ∧ k = i)) :
    LiveEntry s' d k ∧ s'.table d k = s.table d k := by
  have hdF : d ∉ F := by
    intro hdF
    obtain ⟨h0, hcl⟩ := h.live_mem_chain hr.entry hr.chain hdF he.dir
    exact hempty h0 k he.slot (hcl ▸ he.used)
  rcases hr.slot_cases h he.dir hdF k with hk | ⟨hk, -⟩
  · exact ⟨⟨hr.live h hempty he.dir hdF, he.slot, hk ▸ he.used⟩, hk⟩
  · exact absurd hk hne

/-- What an entry stores that is left stays. -/
theorem holds (hr : Dropped r i F s s') (h : WellFormed s) (he : LiveEntry s' d k) {x : Node}
    (hx : Holds s d k x) : Holds s' d k x := by
  obtain ⟨-, hk, -⟩ := hr.entry_inv h he
  cases x with
  | dir =>
      rw [Holds, hk]
      exact hx
  | file B =>
      obtain ⟨h0, hlen, l, hl, hst⟩ := hx
      rw [Holds, hk]
      exact ⟨h0, hlen, l, hr.entryChain h he hl,
        hst.congr fun c hc => hr.cluster_file h he hl h0 hc⟩

end Dropped

end Fat32
end Jatos
