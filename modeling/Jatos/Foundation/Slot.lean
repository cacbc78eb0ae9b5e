/-
# A slot for one item

A slot holds one item at most: what is put into it replaces what it held, and
who takes from it empties it.  `run` serves puts and takes in turn, and answers
what was taken and what is left.

`kept` reads off the operations which items are not replaced before they are
taken: those that no other put follows directly.  `run_kept` says that these
are the items that are taken or left, in their order.
-/

import Mathlib.Data.List.Basic

namespace Slot

variable {α : Type*}

/-- Something is put into the slot, or what it holds is taken. -/
inductive Op (α : Type*)
  | put (a : α)
  | take

/-- What is taken, and what is left. -/
def run : List (Op α) → Option α → List α × Option α
  | [], held => ([], held)
  | .put a :: ops, _ => run ops (some a)
  | .take :: ops, held => (held.toList ++ (run ops none).1, (run ops none).2)

/-- The items that are not replaced. -/
def kept : List (Op α) → List α
  | [] => []
  | .put _ :: .put b :: ops => kept (.put b :: ops)
  | .put a :: ops => a :: kept ops
  | .take :: ops => kept ops

/-- The operations that fill the slot with what it holds. -/
def filled (held : Option α) : List (Op α) := held.toList.map .put

/-- **What is taken or left** was not replaced. -/
theorem run_kept (ops : List (Op α)) (held : Option α) :
    (run ops held).1 ++ (run ops held).2.toList = kept (filled held ++ ops) := by
  induction ops generalizing held with
  | nil => cases held <;> rfl
  | cons op ops ih =>
      cases op with
      | put a =>
          have h : kept (filled held ++ .put a :: ops) = kept (.put a :: ops) := by
            cases held <;> rfl
          rw [h]
          exact ih (some a)
      | take =>
          have h : kept (filled held ++ .take :: ops) = held.toList ++ kept ops := by
            cases held <;> rfl
          have ih' : (run ops none).1 ++ (run ops none).2.toList = kept ops := ih none
          rw [h, run, List.append_assoc, ih']

end Slot
