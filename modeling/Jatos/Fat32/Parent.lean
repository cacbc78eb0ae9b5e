/-
# The test of the parent

The only test that `write` makes of `parent_cluster_number` is that its entry is
not EMPTY.  A number that is no directory's is refused exactly then
(`parentRefused_iff`): the reserved clusters and the clusters of files pass the
test, and numbers past the table are tested against whatever lies there.
-/

import Jatos.Fat32.Boot

namespace Jatos
namespace Fat32

variable {r : Request} {k : Stack} {s s' : State} {o : Reply} {fuel : ℕ}

/-- What a write to no directory should do: answer 2 and leave the boot sector,
the table on disk and in memory, and every file alone. -/
def ParentRefused (fuel : ℕ) (k : Stack) (r : Request) (s : State) : Prop :=
  ∃ o s', write fuel k r s = some (o, s') ∧ o.code = 2 ∧ s'.disk 0 = s.disk 0 ∧
    s'.cluster FAT_CLUSTER_NUMBER = s.cluster FAT_CLUSTER_NUMBER ∧ (∀ c < 512, s'.mem c = s.mem c) ∧
    ∀ d i l, LiveEntry s d i → (s.table d i).filesize ≠ 0 → EntryChain s d i l →
      EntryChain s' d i l ∧ ∀ c ∈ l, s'.cluster c = s.cluster c

/-- No other branch of `write` answers 2. -/
theorem write_code_two (hw : write fuel k r s = some (o, s')) (hcode : o.code = 2) :
    s.clusterMap r.parent = FAT32_FAT_EMPTY_ENTRY := by
  by_contra h0
  by_cases hs : r.bufferSize = 0
  · simp only [write, if_neg h0, if_pos hs] at hw
    obtain ⟨rfl, -⟩ := Prod.mk.inj (Option.some.inj hw)
    cases hslot : (scanFolder k r scanIndices
        ((s.touch r.parent).fill 512 ((s.touch r.parent).cluster r.parent))).2 with
    | true => simp [hslot] at hcode
    | false => simp [hslot] at hcode
  · simp only [write, if_neg h0, if_neg hs, Option.map_eq_some_iff] at hw
    obtain ⟨⟨code, q⟩, hloop, hq⟩ := hw
    obtain ⟨rfl, -⟩ := Prod.mk.inj hq
    obtain rfl : code = 2 := hcode
    rcases writeLoop_code hloop with h | h
    · exact absurd h (by decide)
    · exact absurd h (by decide)

/-- An EMPTY entry refuses the write, whatever the number. -/
theorem parentRefused_of_empty (h0 : s.clusterMap r.parent = FAT32_FAT_EMPTY_ENTRY) :
    ParentRefused fuel k r s := by
  have hkept : Kept s (s.touch r.parent) :=
    ⟨State.touch_disk, fun c _ => congrFun State.touch_mem c⟩
  refine ⟨_, _, write_empty_parent h0, rfl, congrFun hkept.disk 0, hkept.cluster _, hkept.mem, ?_⟩
  intro d i l _ _ hl
  refine ⟨?_, fun c _ => hkept.cluster c⟩
  rw [EntryChain, hkept.table]
  exact hl.congr fun c _ => congrFun State.touch_mem c

/-- **When a parent is refused**: when the word that
`cluster_map[parent_cluster_number]` names is EMPTY. -/
theorem parentRefused_iff (fuel : ℕ) (k : Stack) (r : Request) (s : State) :
    ParentRefused fuel k r s ↔ s.clusterMap r.parent = FAT32_FAT_EMPTY_ENTRY := by
  constructor
  · rintro ⟨o, s', hw, hcode, -⟩
    exact write_code_two hw hcode
  · exact parentRefused_of_empty

/-- Cluster 0 passes for a directory in a blank volume. -/
theorem not_parentRefused_sample :
    WellFormed (createFat32 blank) ∧ ¬LiveDir (createFat32 blank) 0 ∧
      ¬ParentRefused 512 blankStack (request 0 0x61 0x78 100) (createFat32 blank) := by
  refine ⟨(createFat32_sound blank).toWellFormed, fun h => ?_, ?_⟩
  · exact absurd (createFat32_live h) (by decide)
  · rintro ⟨o, s', hw, hcode, -⟩
    have h0 : (createFat32 blank).clusterMap 0 = FAT32_FAT_EMPTY_ENTRY := write_code_two hw hcode
    rw [State.clusterMap_of_lt (by decide), (createFat32_sound blank).entry0] at h0
    exact absurd h0 (by decide)

end Fat32
end Jatos
