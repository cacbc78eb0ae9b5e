/-
# Text in rows

A page is text in rows: those that are done, and the one that is written to.  `Page.cell`
is what a cell shows, the blank where there is no character.  A character goes behind the
last one (`cell_add`), the end of a row leaves what is shown alone (`cell_endRow`), and
behind the text all cells are blank (`cell_behind`).
-/

import Mathlib.Data.List.GetD
import Mathlib.Order.Nat
import Mathlib.Tactic.SplitIfs

/-- The rows that are done, and the last one. -/
structure Page (α : Type*) where
  rows : List (List α)
  row : List α

namespace Page

variable {α : Type*} {p : Page α} {blank a : α} {r c : ℕ}

/-- Nothing is written. -/
def fresh : Page α := ⟨[], []⟩

/-- One more character in the last row. -/
def add (p : Page α) (a : α) : Page α := ⟨p.rows, p.row ++ [a]⟩

/-- The last row is done. -/
def endRow (p : Page α) : Page α := ⟨p.rows ++ [p.row], []⟩

/-- The last character of the row is taken back. -/
def erase (p : Page α) : Page α := ⟨p.rows, p.row.dropLast⟩

/-- What is in a cell. -/
def cell (blank : α) (p : Page α) (r c : ℕ) : α := ((p.rows ++ [p.row]).getD r []).getD c blank

/-- The cells of the last row are those that are being written. -/
theorem cell_last (blank : α) (p : Page α) (c : ℕ) :
    p.cell blank p.rows.length c = p.row.getD c blank := by
  rw [Page.cell, List.getD_append_right _ _ _ _ le_rfl, Nat.sub_self]
  rfl

/-- The rows that are done do not depend on the last one. -/
theorem cell_of_ne (blank : α) (rows : List (List α)) (row row' : List α) (h : r ≠ rows.length) :
    (⟨rows, row⟩ : Page α).cell blank r c = (⟨rows, row'⟩ : Page α).cell blank r c := by
  rcases Nat.lt_or_gt_of_ne h with hlt | hgt
  · rw [Page.cell, Page.cell, List.getD_append _ _ _ _ hlt, List.getD_append _ _ _ _ hlt]
  · have hnone : ∀ row : List α, (rows ++ [row]).getD r [] = [] := fun row =>
      List.getD_eq_default _ _ (by simp; omega)
    rw [Page.cell, Page.cell, hnone, hnone]

/-- The cells of a fresh page are blank. -/
theorem cell_fresh (blank : α) (r c : ℕ) : (fresh : Page α).cell blank r c = blank := by
  cases r <;> simp [Page.cell, fresh]

/-- **A character** goes behind the last one. -/
theorem cell_add (blank : α) (p : Page α) (a : α) (r c : ℕ) : (p.add a).cell blank r c =
    if r = p.rows.length ∧ c = p.row.length then a else p.cell blank r c := by
  by_cases hr : r = p.rows.length
  · subst hr
    rw [cell_last blank p, show p.rows.length = (p.add a).rows.length from rfl,
      cell_last blank (p.add a)]
    change (p.row ++ [a]).getD c blank = _
    rcases Nat.lt_trichotomy c p.row.length with hlt | rfl | hgt
    · rw [List.getD_append _ _ _ _ hlt, if_neg (by omega)]
    · rw [List.getD_append_right _ _ _ _ le_rfl, if_pos ⟨rfl, rfl⟩, Nat.sub_self]
      rfl
    · rw [List.getD_append_right _ _ _ _ hgt.le, if_neg (by omega),
        List.getD_eq_default _ _ hgt.le, List.getD_eq_default _ _ (by simp; omega)]
  · rw [if_neg fun h => hr h.1]
    exact cell_of_ne blank p.rows _ _ hr

/-- **The end of a row** leaves what is shown alone. -/
theorem cell_endRow (blank : α) (p : Page α) (r c : ℕ) :
    p.endRow.cell blank r c = p.cell blank r c := by
  have hrows : p.endRow.rows ++ [p.endRow.row] = p.rows ++ [p.row] ++ [[]] := rfl
  rw [Page.cell, Page.cell, hrows]
  by_cases hr : r < (p.rows ++ [p.row]).length
  · rw [List.getD_append _ _ _ _ hr]
  · rw [List.getD_append_right _ _ _ _ (not_lt.1 hr),
      List.getD_eq_default (p.rows ++ [p.row]) _ (not_lt.1 hr)]
    cases r - (p.rows ++ [p.row]).length <;> simp

/-- **The last character** is taken back. -/
theorem cell_erase (blank : α) (p : Page α) (r c : ℕ) : p.erase.cell blank r c =
    if r = p.rows.length ∧ c = p.row.length - 1 then blank else p.cell blank r c := by
  by_cases hr : r = p.rows.length
  · subst hr
    rw [cell_last blank p, show p.rows.length = p.erase.rows.length from rfl,
      cell_last blank p.erase]
    change p.row.dropLast.getD c blank = _
    simp only [List.getD_eq_getElem?_getD, List.getElem?_dropLast]
    by_cases hc : c < p.row.length - 1
    · rw [if_pos hc, if_neg (by omega)]
    · rw [if_neg hc, Option.getD_none]
      split_ifs with hlast
      · rfl
      · simp only [true_and] at hlast
        rw [List.getElem?_eq_none (by omega), Option.getD_none]
  · rw [if_neg fun h => hr h.1]
    exact cell_of_ne blank p.rows _ _ hr

/-- Behind the text there is nothing. -/
theorem cell_behind (blank : α) (p : Page α)
    (h : p.rows.length < r ∨ r = p.rows.length ∧ p.row.length ≤ c) : p.cell blank r c = blank := by
  rcases h with h | ⟨rfl, h⟩
  · have hrow : (p.rows ++ [p.row]).getD r [] = [] := List.getD_eq_default _ _ (by simp; omega)
    rw [Page.cell, hrow]
    rfl
  · rw [cell_last, List.getD_eq_default _ _ h]

end Page
