/-
# First-fit bitmaps and exclusive holders

A manager of `n` equal resources keeps one bit for each, hands out the first
whose bit is clear and sets it.  `firstFree` is that search and `freeCount` what
is left to hand out.

`Exclusive reserved taken held` says what the users of such a manager rely on:
a held resource is taken and not reserved, and has one holder.  It survives
handing out a resource that is not taken (`assign`), also to a holder that
loses another one by it, losing resources (`forget`), and giving one back
(`release`).
-/

import Mathlib.Data.Fin.Tuple.Basic
import Mathlib.Data.Fintype.Card
import Mathlib.Data.Set.Insert

namespace Bitmap

variable {n : ℕ} {b : Fin n → Bool} {i : Fin n}

/-- The first resource whose bit is clear. -/
def firstFree (b : Fin n → Bool) : Option (Fin n) := Fin.find? fun i => !b i

/-- How many bits are clear. -/
def freeCount (b : Fin n → Bool) : ℕ := (Finset.univ.filter fun i => b i = false).card

/-- How many bits are set. -/
def usedCount (b : Fin n → Bool) : ℕ := (Finset.univ.filter fun i => b i = true).card

/-- The resources whose bit is set. -/
def taken (b : Fin n → Bool) : Set (Fin n) := {i | b i = true}

/-- A place is in the set of those taken if its bit is set. -/
theorem mem_taken : i ∈ taken b ↔ b i = true := Iff.rfl

/-- The first free place is free. -/
theorem firstFree_clear (h : firstFree b = some i) : b i = false := by
  simpa using Fin.eq_true_of_find?_eq_some h

/-- The search fails only if nothing is left. -/
theorem exists_firstFree (h : 0 < freeCount b) : ∃ i, firstFree b = some i := by
  obtain ⟨i, hi⟩ := Finset.card_pos.1 h
  have hb : b i = false := (Finset.mem_filter.1 hi).2
  have hn : (!b i) = true := by rw [hb]; rfl
  exact Option.isSome_iff_exists.1 (Fin.isSome_find?_of_eq_true hn)

/-- Once nothing is left, the search fails. -/
theorem firstFree_none (h : freeCount b = 0) : firstFree b = none := by
  refine Option.eq_none_iff_forall_ne_some.2 fun i hi => ?_
  have hempty := Finset.card_eq_zero.1 h
  exact Finset.notMem_empty i
    (hempty ▸ Finset.mem_filter.2 ⟨Finset.mem_univ i, firstFree_clear hi⟩)

/-- The free places once one more is taken. -/
theorem filter_update_true (b : Fin n → Bool) (i : Fin n) :
    (Finset.univ.filter fun j => Function.update b i true j = false) =
      (Finset.univ.filter fun j => b j = false).erase i := by
  ext j
  simp only [Finset.mem_filter, Finset.mem_univ, true_and, Finset.mem_erase,
    Function.update_apply]
  split_ifs with h <;> simp [h]

/-- Taking a free place costs one. -/
theorem freeCount_take (h : b i = false) :
    freeCount (Function.update b i true) + 1 = freeCount b := by
  unfold freeCount
  rw [filter_update_true]
  exact Finset.card_erase_add_one (Finset.mem_filter.2 ⟨Finset.mem_univ i, h⟩)

/-- Giving a taken place back brings one. -/
theorem freeCount_give (h : b i = true) :
    freeCount (Function.update b i false) = freeCount b + 1 := by
  have hi : Function.update b i false i = false := Function.update_self i false b
  rw [← freeCount_take hi, Function.update_idem, ← h, Function.update_eq_self]

/-- Every place is either used or free. -/
theorem usedCount_add_freeCount (b : Fin n → Bool) : usedCount b + freeCount b = n := by
  have h := Finset.card_filter_add_card_filter_not (s := Finset.univ) fun i => b i = true
  rw [Finset.card_univ, Fintype.card_fin] at h
  simp only [Bool.not_eq_true] at h
  exact h

/-- Taking a place adds it to the set of those taken. -/
theorem taken_take (b : Fin n → Bool) (i : Fin n) :
    taken (Function.update b i true) = insert i (taken b) := by
  ext j
  simp only [mem_taken, Set.mem_insert_iff, Function.update_apply]
  split_ifs with h <;> simp [h]

/-- Giving a place back takes it out of the set. -/
theorem taken_give (b : Fin n → Bool) (i : Fin n) :
    taken (Function.update b i false) = taken b \ {i} := by
  ext j
  simp only [mem_taken, Set.mem_sdiff, Set.mem_singleton_iff, Function.update_apply]
  split_ifs with h <;> simp [h]

end Bitmap

variable {κ ρ : Type*} {reserved taken : Set ρ} {held held' : κ → Option ρ} {k k' : κ} {r : ρ}

/-- Every held resource is taken, is not reserved and has one holder. -/
structure Exclusive (reserved taken : Set ρ) (held : κ → Option ρ) : Prop where
  reserved_taken : reserved ⊆ taken
  held_taken : ∀ {k r}, held k = some r → r ∈ taken
  not_reserved : ∀ {k r}, held k = some r → r ∉ reserved
  unique : ∀ {k k' r}, held k = some r → held k' = some r → k = k'

namespace Exclusive

/-- Nothing is held. -/
theorem of_none (hr : reserved ⊆ taken) (hn : ∀ k, held k = none) :
    Exclusive reserved taken held := by
  have hne : ∀ {k r}, held k ≠ some r := fun {k r} hk =>
    Option.some_ne_none r (hk.symm.trans (hn k))
  exact ⟨hr, fun hk => absurd hk hne, fun hk => absurd hk hne, fun hk => absurd hk hne⟩

/-- **Handing out.**  A resource that is not taken may be given to anyone. -/
theorem assign [DecidableEq κ] (h : Exclusive reserved taken held) (hr : r ∉ taken) (k : κ) :
    Exclusive reserved (insert r taken) (Function.update held k (some r)) := by
  -- the other holders keep what they had, which is not the new resource
  have hold : ∀ {k' r'}, Function.update held k (some r) k' = some r' →
      k' = k ∧ r' = r ∨ k' ≠ k ∧ r' ≠ r ∧ held k' = some r' := by
    intro k' r' hk
    rw [Function.update_apply] at hk
    split_ifs at hk with he
    · exact .inl ⟨he, (Option.some.inj hk).symm⟩
    · exact .inr ⟨he, fun hrr => hr (hrr ▸ h.held_taken hk), hk⟩
  constructor
  · exact fun x hx => Set.mem_insert_of_mem r (h.reserved_taken hx)
  · intro k' r' hk
    rcases hold hk with ⟨-, rfl⟩ | ⟨-, -, hk⟩
    · exact Set.mem_insert _ _
    · exact Set.mem_insert_of_mem r (h.held_taken hk)
  · intro k' r' hk
    rcases hold hk with ⟨-, rfl⟩ | ⟨-, -, hk⟩
    · exact fun hx => hr (h.reserved_taken hx)
    · exact h.not_reserved hk
  · intro k₁ k₂ r' h₁ h₂
    rcases hold h₁ with ⟨rfl, rfl⟩ | ⟨-, hne, h₁⟩ <;> rcases hold h₂ with ⟨rfl, he⟩ | ⟨-, hne', h₂⟩
    · rfl
    · exact absurd rfl hne'
    · exact absurd he hne
    · exact h.unique h₁ h₂

/-- Holders may lose what they hold; it stays taken. -/
theorem forget (h : Exclusive reserved taken held)
    (hf : ∀ k r, held' k = some r → held k = some r) : Exclusive reserved taken held' where
  reserved_taken := h.reserved_taken
  held_taken hk := h.held_taken (hf _ _ hk)
  not_reserved hk := h.not_reserved (hf _ _ hk)
  unique h₁ h₂ := h.unique (hf _ _ h₁) (hf _ _ h₂)

/-- **Giving back.**  What one holder gives back nobody else holds. -/
theorem release [DecidableEq κ] (h : Exclusive reserved taken held) (hk : held k = some r) :
    Exclusive reserved (taken \ {r}) (Function.update held k none) := by
  have hold : ∀ {k' r'}, Function.update held k none k' = some r' → k' ≠ k ∧ held k' = some r' := by
    intro k' r' hk'
    rw [Function.update_apply] at hk'
    split_ifs at hk' with he
    exact ⟨he, hk'⟩
  constructor
  · exact fun x hx => ⟨h.reserved_taken hx, fun he => h.not_reserved hk (he ▸ hx)⟩
  · intro k' r' hk'
    obtain ⟨hne, hk'⟩ := hold hk'
    exact ⟨h.held_taken hk', fun he => hne (h.unique hk' (he ▸ hk))⟩
  · exact fun hk' => h.not_reserved (hold hk').2
  · exact fun h₁ h₂ => h.unique (hold h₁).2 (hold h₂).2

end Exclusive
