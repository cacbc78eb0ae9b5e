/-
# Going round a ring of slots

`rotation c` lists the slots of a ring from the one after `c` round to `c`
itself.  A search that starts after `c` and wraps around, with `c` as its last
candidate, is a search of that list (`scan_rotation`).  Serving the first slot
found and searching on from there takes the slots that qualify in the order of
the list, because the list from there has the same ones in the same order, with
the one just served at the end (`filter_rotation`).
-/

import Mathlib.Algebra.Group.Fin.Basic
import Mathlib.Data.List.FinRange
import Mathlib.Tactic.Abel

namespace Cyclic

variable {n : ℕ} {c x : Fin (n + 1)} {p : Fin (n + 1) → Bool}

/-- The slots from the one after `c` round to `c`. -/
def rotation (c : Fin (n + 1)) : List (Fin (n + 1)) :=
  (List.finRange (n + 1)).map fun i => c + 1 + i

/-- `while (!p(i)) i = i + 1`, for at most the given number of rounds. -/
def scan (p : Fin (n + 1) → Bool) : ℕ → Fin (n + 1) → Option (Fin (n + 1))
  | 0, _ => none
  | fuel + 1, i => if p i then some i else scan p fuel (i + 1)

/-- A rotation meets every place. -/
theorem mem_rotation (c x : Fin (n + 1)) : x ∈ rotation c :=
  List.mem_map.2 ⟨x - (c + 1), List.mem_finRange _, by abel⟩

/-- It meets each of them once. -/
theorem nodup_rotation (c : Fin (n + 1)) : (rotation c).Nodup :=
  (List.nodup_finRange _).map (add_right_injective (c + 1))

/-- The rotation begins after its slot. -/
theorem rotation_eq_cons (c : Fin (n + 1)) :
    rotation c = (c + 1) :: (List.finRange n).map fun i => c + 1 + i.succ := by
  rw [rotation, List.finRange_succ, List.map_cons, add_zero, List.map_map]
  rfl

/-- The rotation ends at its slot. -/
theorem rotation_eq_append (c : Fin (n + 1)) :
    rotation c = ((List.finRange n).map fun i => c + 1 + i.castSucc) ++ [c] := by
  have hlast : c + 1 + Fin.last n = c := by
    rw [add_assoc, add_comm 1, Fin.last_add_one, add_zero]
  rw [rotation, List.finRange_succ_last, List.map_append, List.map_map, List.map_singleton, hlast]
  rfl

/-- One step on, the first slot has become the last one. -/
theorem rotation_succ {t : List (Fin (n + 1))} (h : rotation c = x :: t) :
    rotation x = t ++ [x] := by
  rw [rotation_eq_cons, List.cons.injEq] at h
  obtain ⟨rfl, rfl⟩ := h
  rw [rotation_eq_append]
  refine congrArg (· ++ [c + 1]) (List.map_congr_left fun i _ => ?_)
  rw [← Fin.coeSucc_eq_succ]
  abel

/-- From a slot on, the rotation goes through the slots behind it and those in front. -/
theorem rotation_shift {t u : List (Fin (n + 1))} (h : rotation c = t ++ x :: u) :
    rotation x = u ++ t ++ [x] := by
  induction t generalizing c u with
  | nil =>
      rw [List.append_nil]
      exact rotation_succ h
  | cons a t ih =>
      have hn : rotation a = t ++ x :: (u ++ [a]) := by
        rw [rotation_succ h]
        simp
      rw [ih hn]
      simp

/-- **Serving the first slot that qualifies** puts it behind the others. -/
theorem filter_rotation {t : List (Fin (n + 1))} (h : (rotation c).filter p = x :: t) :
    (rotation x).filter p = t ++ [x] := by
  obtain ⟨l, r, hl, hnot, hx, rfl⟩ := List.filter_eq_cons_iff.1 h
  have hnone : l.filter p = [] := List.filter_eq_nil_iff.2 hnot
  rw [rotation_shift hl, List.filter_append, List.filter_append, hnone, List.append_nil]
  simp [hx]

/-- A step of one, `k` times, counts modulo the number of places. -/
theorem val_nsmul_one (k : ℕ) : (k • (1 : Fin (n + 1))).val = k % (n + 1) := by
  induction k with
  | zero => simp
  | succ k ih => rw [succ_nsmul, Fin.val_add, ih, Fin.val_one', ← Nat.add_mod]

/-- The rotation, as the steps of one behind `c`. -/
theorem rotation_eq_map (c : Fin (n + 1)) :
    rotation c = (List.range (n + 1)).map fun k => c + 1 + k • 1 := by
  refine List.ext_getElem (by simp [rotation]) fun k hk _ => ?_
  have hlt : k < n + 1 := by simpa [rotation] using hk
  have hval : (⟨k, hlt⟩ : Fin (n + 1)) = k • 1 := by
    rw [Fin.ext_iff, val_nsmul_one]
    exact (Nat.mod_eq_of_lt hlt).symm
  simp [rotation, ← hval]

/-- A scan stops at the first place on its way that has the property. -/
theorem scan_eq_find (p : Fin (n + 1) → Bool) (fuel : ℕ) (i : Fin (n + 1)) :
    scan p fuel i = ((List.range fuel).map fun k => i + k • 1).find? p := by
  induction fuel generalizing i with
  | zero => rfl
  | succ fuel ih =>
      have hstep : (fun k : ℕ => i + 1 + k • (1 : Fin (n + 1))) = fun k => i + (k + 1) • 1 := by
        funext k
        rw [succ_nsmul']
        abel
      rw [scan, ih, List.range_succ_eq_map, List.map_cons, List.find?_cons, List.map_map, hstep,
        zero_nsmul, add_zero]
      cases p i with
      | true => rfl
      | false => rfl

/-- **The wrapping search** finds the first slot of the rotation that qualifies. -/
theorem scan_rotation (p : Fin (n + 1) → Bool) (c : Fin (n + 1)) :
    scan p (n + 1) (c + 1) = (rotation c).find? p := by
  rw [scan_eq_find, rotation_eq_map]

end Cyclic
