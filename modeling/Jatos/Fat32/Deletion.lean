/-
# Which entry a delete takes away

`src/header/filesystem/fat32.h`: `delete` answers 0 on success, 1 when nothing
is found, 2 when a folder is not empty.  The code chooses its branch by
`request.ext` and not by the entry it has found.  Any extension but the empty one
takes the file branch, which frees the whole chain and tests nothing.  The empty
extension takes the folder branch, which tests for emptiness through a pointer
that does not point to the folder's table, frees one cluster, and stores that
cluster's bytes, four behind, in the place of the parent's table (`unmark`).

`Occupied` is the documented test, `GivenUp` the documented effect, and
`delete_follows_iff` says for which requests the code has both.  The folder branch
has the effect only where the other entries of the parent happen to stand in the
cluster that it reads (`Spared`).
-/

import Jatos.Fat32.Names

namespace Jatos
namespace Fat32

open Linked

variable {r : Request} {s s' : State} {peek : ℕ → Option UInt8} {fuel d : ℕ} {i k : Fin 64}
  {l : List ℕ} {c : ℤ}

/-- A delete that answers 0 cleared the slot it found, or went through the folder
branch. -/
theorem delete_zero (h : delete fuel peek r s = some (0, s')) : r.name ≠ 0 ∧
    ∃ i, findSlot (s.table r.parent) r.name = some i ∧
      (r.ext ≠ 0 ∧ s'.table r.parent =
          Function.update (s.table r.parent) i DirectoryEntry.zero ∨
        r.ext = 0 ∧ emptinessTest peek s r.parent i = some false ∧ s' = unmark r i s) := by
  generalize hc : (0 : ℤ) = c at h
  cases delete_returns h with
  | unnamed => exact absurd hc (by decide)
  | missing => exact absurd hc (by decide)
  | refused => exact absurd hc (by decide)
  | folder i hn hi hx htest => exact ⟨hn, i, hi, Or.inr ⟨hx, htest, rfl⟩⟩
  | file i s₁ hn hi hx =>
      exact ⟨hn, i, hi, Or.inl ⟨hx, State.table_of_cluster (State.cluster_writeCluster_self _ _)⟩⟩

/-- The answer 2 comes from the emptiness test alone. -/
theorem delete_two (h : delete fuel peek r s = some (2, s')) : r.name ≠ 0 ∧ r.ext = 0 ∧
    ∃ i, findSlot (s.table r.parent) r.name = some i ∧
      emptinessTest peek s r.parent i = some true := by
  generalize hc : (2 : ℤ) = c at h
  cases delete_returns h with
  | unnamed => exact absurd hc (by decide)
  | missing => exact absurd hc (by decide)
  | refused i hn hi hx ht => exact ⟨hn, hx, i, hi, ht⟩
  | folder => exact absurd hc (by decide)
  | file => exact absurd hc (by decide)

/-! ### What a delete should do -/

/-- A folder that is not empty. -/
def Occupied (s : State) (d : ℕ) (k : Fin 64) : Prop :=
  (s.table d k).filesize = 0 ∧ ¬EmptyDir s (s.table d k).cluster

/-- Slot `k` of directory `d` was given up: all clusters of its chain are EMPTY,
no other entry of the table of clusters changed, and every other live entry is
what it was and stores what it stored. -/
structure GivenUp (s s' : State) (d : ℕ) (k : Fin 64) : Prop where
  unused : ¬(s'.table d k).Used
  freed : ∀ l, EntryChain s d k l → ∀ c ∈ l, s'.mem c = FAT32_FAT_EMPTY_ENTRY
  kept : ∀ l, EntryChain s d k l → ∀ c < 512, c ∉ l → s'.mem c = s.mem c
  others : ∀ d' i, LiveEntry s d' i → ¬(d' = d ∧ i = k) → LiveEntry s' d' i ∧
    s'.table d' i = s.table d' i ∧ ∀ x, Holds s d' i x → Holds s' d' i x

/-- The answer to a delete of entry `k`, as documented. -/
structure Follows (fuel : ℕ) (peek : ℕ → Option UInt8) (r : Request) (k : Fin 64) (s : State) :
    Prop where
  refused : Occupied s r.parent k → delete fuel peek r s = some (2, s)
  done : ¬Occupied s r.parent k → ∃ s', delete fuel peek r s = some (0, s') ∧
    GivenUp s s' r.parent k

/-- What a drop of a file or an empty folder leaves. -/
theorem Dropped.givenUp (hr : Dropped r k l s s') (h : WellFormed s)
    (hfree : ¬Occupied s r.parent k) : GivenUp s s' r.parent k where
  unused := by
    rw [hr.slot_eq]
    exact zero_not_used
  freed m hm c hc := by
    obtain rfl := Chain.unique hr.chain hm
    rw [hr.mem c (hr.range h c hc).2, if_pos hc]
  kept m hm c hc hcm := by
    obtain rfl := Chain.unique hr.chain hm
    rw [hr.mem c hc, if_neg hcm]
  others d' i he hne := by
    have hempty : (s.table r.parent k).filesize = 0 → EmptyDir s (s.table r.parent k).cluster :=
      fun h0 => by_contra fun hocc => hfree ⟨h0, hocc⟩
    obtain ⟨he', htab⟩ := hr.entry_of_ne h hempty he hne
    exact ⟨he', htab, fun x hx => hr.holds h he' hx⟩

/-- A table that differs in slots without an entry has the entries that the volume
had, and what they store. -/
theorem GivenUp.congr {s₀ : State} (hg : GivenUp s s₀ d k) (h : WellFormed s₀)
    (hd : LiveDir s₀ d) (hmem : s'.mem = s₀.mem)
    (hcl : ∀ c, 2 ≤ c → c < 512 → c ≠ d → s'.cluster c = s₀.cluster c)
    (hk : ¬(s'.table d k).Used)
    (htab : ∀ j, LiveEntry s₀ d j → s'.table d j = s₀.table d j) : GivenUp s s' d k where
  unused := hk
  freed l hl c hc := by rw [hmem, hg.freed l hl c hc]
  kept l hl c hlt hc := by rw [hmem, hg.kept l hl c hlt hc]
  others d' i he hne := by
    obtain ⟨he₀, hold, hholds⟩ := hg.others d' i he hne
    have hslot : ∀ d' i, LiveEntry s₀ d' i → s'.table d' i = s₀.table d' i := by
      intro d' i he
      by_cases hdd : d' = d
      · subst hdd
        exact htab i he
      · have hrange := h.live_range he.dir
        exact congrFun (State.table_congr (hcl d' hrange.1 hrange.2 hdd)) i
    have hlive : LiveDir s' d' := he₀.dir.of_slots hslot
    refine ⟨⟨hlive, he₀.slot, hslot d' i he₀ ▸ he₀.used⟩, (hslot d' i he₀).trans hold,
      fun x hx => ?_⟩
    have hx₀ := hholds x hx
    cases x with
    | dir =>
        rw [Holds, hslot d' i he₀]
        exact hx₀
    | file B =>
        obtain ⟨h0, hlen, l, hl, hst⟩ := hx₀
        rw [Holds, hslot d' i he₀]
        refine ⟨h0, hlen, l, ?_, hst.congr fun c hc => ?_⟩
        · rw [EntryChain, hmem, hslot d' i he₀]
          exact hl
        · have hrange := h.chain_range he₀ hl c hc
          refine hcl c (by omega) hrange.2 ?_
          rintro rfl
          exact h0 (h.live_mem_chain he₀ hl hc hd).1

/-! ### The folder branch -/

/-- Slot `k` of the table of `d` stands in cluster `c` as well, four bytes further
on. -/
def Repeated (s : State) (c d : ℕ) (k : Fin 64) : Prop :=
  ∀ m : Fin 2048, m.val / 32 = k.val → ∀ h : m.val + 4 < 2048,
    s.cluster c ⟨m.val + 4, h⟩ = s.cluster d m

/-- **What the folder branch must find at slot `i`** to give up entry `k` and
nothing else: the entry has the one cluster that is freed, this cluster does not
mark slot `k`, and every other entry of the directory stands in it. -/
structure Spared (s : State) (d : ℕ) (i k : Fin 64) : Prop where
  single : (s.table d k).clusters = 1
  same : mapWord (s.table d i).cluster = (s.table d k).cluster
  cleared : i = k ∨ ∀ h : 32 * k.val + 16 < 2048,
    s.cluster (s.table d i).cluster ⟨32 * k.val + 16, h⟩ ≠ UATTR_NOT_EMPTY
  others : ∀ j, j ≠ 0 → j ≠ k → (s.table d j).Used → Repeated s (s.table d i).cluster d j

/-- Reading the folder over the parent's table keeps an entry if and only if the folder
repeats it. -/
theorem overwritten_eq_iff {c : ℕ} {j : Fin 64} :
    overwritten (s.cluster c) (s.table d) j = s.table d j ↔ Repeated s c d j := by
  have htab : s.table d j = tableLayout.symm (s.cluster d) j := rfl
  have hbytes : tableLayout (s.table d) = s.cluster d := tableLayout.apply_symm_apply _
  rw [overwritten, hbytes, htab, tableLayout, Packed.array_symm_eq_iff]
  refine forall_congr' fun m => ?_
  have hj : m.divNat = j ↔ m.val / 32 = j.val := Fin.ext_iff
  rw [hj]
  refine imp_congr_right fun _ => ?_
  split_ifs with h
  · exact ⟨fun heq _ => heq, fun heq => heq h⟩
  · exact iff_of_true rfl fun h' => absurd h' h

/-- The mark of an overwritten slot is the cluster's byte four behind it. -/
theorem overwritten_used_iff {data : Cluster} {t : DirectoryTable} :
    (overwritten data t k).Used ↔
      ∃ h : 32 * k.val + 16 < 2048, data ⟨32 * k.val + 16, h⟩ = UATTR_NOT_EMPTY := by
  have hk : 32 * k.val + 16 < 2048 := by omega
  have hmark : ∀ x : Cluster, (tableLayout.symm x k).userAttribute =
      x ⟨32 * k.val + 12, by omega⟩ := fun x => congrArg x (Fin.ext (Nat.add_comm _ _))
  rw [DirectoryEntry.Used, overwritten, hmark, dif_pos hk]
  exact ⟨fun h => ⟨hk, h⟩, fun ⟨_, h⟩ => h⟩

/-- A live entry is the only one whose cluster is the first of its chain. -/
theorem slot_eq_of_same (h : WellFormed s) (he : LiveEntry s d k) (hi : LiveEntry s d i)
    (hsame : mapWord (s.table d i).cluster = (s.table d k).cluster) : i = k := by
  obtain ⟨l, hl, -, -⟩ := h.chain _ _ he
  obtain ⟨m, hm, -, hrange⟩ := h.chain _ _ hi
  have hlt := (hrange _ hm.head_mem).2
  rw [mapWord, Nat.mod_eq_of_lt (by omega)] at hsame
  exact (h.disjoint d i m d k l hi he hm hl _ hm.head_mem (hsame ▸ hl.head_mem)).2

/-- What the folder branch meets then, it gives up. -/
theorem Spared.givenUp (hsp : Spared s r.parent i k) (h : WellFormed s)
    (he : LiveEntry s r.parent k) (hfree : ¬Occupied s r.parent k) :
    GivenUp s (unmark r i s) r.parent k := by
  have hrange := h.live_range he.dir
  obtain ⟨l, hl, hlen, hlt⟩ := h.chain _ _ he
  obtain ⟨c, rfl⟩ := List.length_eq_one_iff.1 (hlen.trans hsp.single)
  obtain rfl := Chain.head_eq hl
  -- the state with this entry dropped differs in the table of the parent alone
  have hrem : Removed r k [(s.table r.parent k).cluster] s _ := removed_of_store
    { s with mem := Function.update s.mem (s.table r.parent k).cluster FAT32_FAT_EMPTY_ENTRY }
    hrange (fun c _ => by simp only [Function.update_apply, List.mem_singleton]) rfl rfl
    fun c _ _ => rfl
  have hdr : Dropped r k [(s.table r.parent k).cluster] s _ :=
    { hrem with entry := he, chain := hl }
  refine (hdr.givenUp h hfree).congr (hdr.wellFormed h) (hdr.parent_live h) ?_ ?_ ?_ ?_
  · rw [unmark_mem, hsp.same]
    rfl
  · intro c h2 hc hcd
    rw [unmark_cluster hrange hc (by omega) hcd, State.cluster_store _ _ hrange hc (by omega) hcd]
    rfl
  · rw [unmark_table]
    by_cases hik : i = k
    · exact hik ▸ unmarked_not_used s _ _
    · rw [unmarked_of_ne s (Ne.symm hik), overwritten_used_iff]
      rintro ⟨hb, hmark⟩
      exact hsp.cleared.resolve_left hik hb hmark
  · intro j hj
    obtain ⟨hj', hold, hne⟩ := hdr.entry_inv h hj
    have hjk : j ≠ k := fun hjk => hne ⟨rfl, hjk⟩
    have hji : j ≠ i := fun hji => hjk (slot_eq_of_same h he hj' (hji ▸ hsp.same))
    rw [hold, unmark_table, unmarked_of_ne s hji, overwritten_eq_iff]
    exact hsp.others j hj.slot hjk hj'.used

/-- What it gives up, it has met. -/
theorem Spared.of_givenUp (hg : GivenUp s (unmark r i s) r.parent k) (h : WellFormed s)
    (he : LiveEntry s r.parent k) : Spared s r.parent i k := by
  obtain ⟨l, hl, hlen, hlt⟩ := h.chain _ _ he
  -- one entry of the table of clusters is freed
  have honly : ∀ c ∈ l, c = mapWord (s.table r.parent i).cluster := by
    intro c hc
    by_contra hne
    have hfree := hg.freed l hl c hc
    rw [unmark_mem, Function.update_of_ne hne] at hfree
    exact h.chain_ne_empty he hl hc hfree
  have hle := (List.Nodup.subperm (Chain.nodup hl)
    (fun c hc => List.mem_singleton.2 (honly c hc))).length_le
  have hpos := hl.length_pos
  simp only [List.length_singleton] at hle
  constructor
  case single => omega
  case same => exact (honly _ hl.head_mem).symm
  case cleared =>
    by_cases hik : i = k
    · exact Or.inl hik
    · refine Or.inr fun hb hmark => hg.unused ?_
      rw [unmark_table, unmarked_of_ne s (Ne.symm hik), overwritten_used_iff]
      exact ⟨hb, hmark⟩
  case others =>
    intro j hj0 hjk hu
    obtain ⟨-, hold, -⟩ := hg.others r.parent j ⟨he.dir, hj0, hu⟩ fun hjk' => hjk hjk'.2
    rw [unmark_table] at hold
    have hji : j ≠ i := by
      rintro rfl
      exact unmarked_not_used s _ _ (hold ▸ hu)
    rwa [unmarked_of_ne s hji, overwritten_eq_iff] at hold

/-! ### When the answer follows the entry -/

/-- A delete with an extension that gives up entry `k` has found slot `k`. -/
theorem found_of_givenUp (hd : delete fuel peek r s = some (0, s')) (hx : r.ext ≠ 0)
    (hu : (s.table r.parent k).Used) (hg : GivenUp s s' r.parent k) :
    r.name ≠ 0 ∧ findSlot (s.table r.parent) r.name = some k := by
  obtain ⟨hn, i, hi, ⟨-, htab⟩ | ⟨hx', -⟩⟩ := delete_zero hd
  · refine ⟨hn, ?_⟩
    by_cases hik : k = i
    · rw [hik, hi]
    · have hold : s'.table r.parent k = s.table r.parent k := by
        rw [htab, Function.update_of_ne hik]
      exact absurd (hold ▸ hu) hg.unused
  · exact absurd hx' hx

/-- **When a delete follows the stored entry.**  A folder that is not empty is
refused exactly when the request has no extension and the emptiness test meets
the mark of a used slot.  Any other live entry is given up exactly when the request
has an extension and the lookup stops at the entry, or it has none, the emptiness
test meets no mark and the read over the parent's table spares the other entries. -/
theorem delete_follows_iff (h : WellFormed s) (he : LiveEntry s r.parent k)
    (hfuel : 512 ≤ fuel) :
    Follows fuel peek r k s ↔ r.name ≠ 0 ∧ ∃ i, findSlot (s.table r.parent) r.name = some i ∧
      (Occupied s r.parent k ∧ r.ext = 0 ∧ emptinessTest peek s r.parent i = some true ∨
        ¬Occupied s r.parent k ∧ (r.ext ≠ 0 ∧ i = k ∨
          r.ext = 0 ∧ emptinessTest peek s r.parent i = some false ∧
            Spared s r.parent i k)) := by
  constructor
  · intro hf
    by_cases hocc : Occupied s r.parent k
    · obtain ⟨hn, hx, i, hi, htest⟩ := delete_two (hf.refused hocc)
      exact ⟨hn, i, hi, Or.inl ⟨hocc, hx, htest⟩⟩
    · obtain ⟨s', hd, hg⟩ := hf.done hocc
      obtain ⟨hn, i, hi, ⟨hx, -⟩ | ⟨hx, htest, rfl⟩⟩ := delete_zero hd
      · obtain ⟨-, hk⟩ := found_of_givenUp hd hx he.used hg
        exact ⟨hn, k, hk, Or.inr ⟨hocc, Or.inl ⟨hx, rfl⟩⟩⟩
      · exact ⟨hn, i, hi, Or.inr ⟨hocc, Or.inr ⟨hx, htest, Spared.of_givenUp hg h he⟩⟩⟩
  · rintro ⟨hn, i, hi, ⟨hocc, hx, htest⟩ | ⟨hocc, ⟨hx, rfl⟩ | ⟨hx, htest, hsp⟩⟩⟩
    · refine ⟨fun _ => ?_, fun hfree => absurd hocc hfree⟩
      rw [delete_of_folder hn hx hi, htest]
      rfl
    · refine ⟨fun h => absurd h hocc, fun hfree => ?_⟩
      obtain ⟨l, hl, -, -⟩ := h.chain _ _ he
      obtain ⟨s', hd, hr⟩ := delete_dropped peek h he hn hx hi hl hfuel
      exact ⟨s', hd, hr.givenUp h hfree⟩
    · exact ⟨fun h => absurd h hocc, fun hfree =>
        ⟨_, delete_folder hn hx hi htest, hsp.givenUp h he hfree⟩⟩

/-- The condition at a file that was just written to a blank volume. -/
theorem delete_follows_iff_sample :
    ∃ o s, write 512 blankStack (request 2 0x61 0x78 3000) (createFat32 blank) = some (o, s) ∧
      (Follows 512 (fun _ => none) (request 2 0x61 0x78 3000) 1 s ↔
        (request 2 0x61 0x78 3000).name ≠ 0 ∧
        ∃ i, findSlot (s.table 2) (request 2 0x61 0x78 3000).name = some i ∧
          (Occupied s 2 1 ∧ (request 2 0x61 0x78 3000).ext = 0 ∧
              emptinessTest (fun _ => none) s 2 i = some true ∨
            ¬Occupied s 2 1 ∧ ((request 2 0x61 0x78 3000).ext ≠ 0 ∧ i = 1 ∨
              (request 2 0x61 0x78 3000).ext = 0 ∧
                emptinessTest (fun _ => none) s 2 i = some false ∧ Spared s 2 i 1))) := by
  obtain ⟨o, F, s, hw, -, hm, he, -⟩ := createFat32_write
    (r := request 2 0x61 0x78 3000) blankStack blank_zeroed rfl (by decide) (by decide : 2 ≤ 512)
  exact ⟨o, s, hw, delete_follows_iff (hm.wellFormed (createFat32_sound blank).toWellFormed) he
    le_rfl⟩

/-- A program of 3000 bytes, which has no extension, is written to a blank volume
and deleted by its name: no mark of a used slot is met, the delete answers 0, and
its second cluster is not freed. -/
theorem not_follows_sample :
    ∃ o s, write 512 blankStack (request 2 0x61 0 3000) (createFat32 blank) = some (o, s) ∧
      WellFormed s ∧ LiveEntry s 2 1 ∧
      (s.table 2 1).name = (request 2 0x61 0 3000).name ∧
      ¬Follows 512 (fun _ => some 0) (request 2 0x61 0 3000) 1 s := by
  obtain ⟨o, F, s, hw, -, hm, he, hslot⟩ := createFat32_write
    (r := request 2 0x61 0 3000) blankStack blank_zeroed rfl (by decide) (by decide : 2 ≤ 512)
  have hwf : WellFormed s := hm.wellFormed (createFat32_sound blank).toWellFormed
  have hsize : (s.table (request 2 0x61 0 3000).parent 1).filesize = 3000 := by
    rw [hslot, hm.filesize]
    rfl
  refine ⟨o, s, hw, hwf, he, ?_, fun hf => ?_⟩
  · exact (congrArg DirectoryEntry.name hslot).trans hm.name
  · have hfile : ¬Occupied s (request 2 0x61 0 3000).parent 1 := fun hocc => by
      have h0 := hocc.1
      rw [hsize] at h0
      exact absurd h0 (by decide)
    obtain ⟨s', hd, hg⟩ := hf.done hfile
    obtain ⟨-, i, -, ⟨hx, -⟩ | ⟨-, -, rfl⟩⟩ := delete_zero hd
    · exact hx (by decide)
    · have hone := (Spared.of_givenUp hg hwf he).single
      rw [DirectoryEntry.clusters, hsize] at hone
      exact absurd hone (by decide)

end Fat32
end Jatos
