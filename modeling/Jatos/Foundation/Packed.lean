/-
# Packed binary layouts

A `__attribute__((packed))` C record is a bijection between its values and the
byte strings of its size: every byte belongs to exactly one field and no byte
is padding.  `Layout α n` is that bijection, and the combinators below build
the layout of a record from those of its members: `pair` puts one member after
the other, `array` repeats one, `u16` and `u32` are the little-endian integers
of an x86 machine.  Reading back what was stored, and storing what was read,
are then `Equiv.symm_apply_apply` and `Equiv.apply_symm_apply`, for every
record at once.
-/

import Mathlib.Logic.Equiv.Fin.Basic
import Mathlib.Logic.Equiv.Prod
import Mathlib.Data.UInt

namespace Packed

/-- A string of `n` bytes, by offset. -/
abbrev Bytes (n : ℕ) := Fin n → UInt8

/-- A packed layout of the values of `α` in `n` bytes. -/
abbrev Layout (α : Type*) (n : ℕ) := α ≃ Bytes n

variable {α β : Type*} {m n : ℕ}

/-- A byte string is its own layout. -/
def bytes (n : ℕ) : Layout (Bytes n) n := Equiv.refl _

/-- A single byte. -/
def u8 : Layout UInt8 1 := (Equiv.funUnique (Fin 1) UInt8).symm

/-- A little-endian 16-bit word. -/
def u16 : Layout UInt16 2 where
  toFun v i := UInt8.ofNat (v.toNat / 256 ^ i.val)
  invFun b := UInt16.ofNat ((b 0).toNat + 256 * (b 1).toNat)
  left_inv v := by
    have h := v.toNat_lt
    refine UInt16.toNat_inj.1 ?_
    simp
    omega
  right_inv b := by
    have h₀ := (b 0).toNat_lt
    have h₁ := (b 1).toNat_lt
    funext i
    refine UInt8.toNat_inj.1 ?_
    match i with
    | 0 => simp
    | 1 => simp; omega

/-- A little-endian 32-bit word. -/
def u32 : Layout UInt32 4 where
  toFun v i := UInt8.ofNat (v.toNat / 256 ^ i.val)
  invFun b := UInt32.ofNat ((b 0).toNat + 256 * (b 1).toNat + 65536 * (b 2).toNat +
    16777216 * (b 3).toNat)
  left_inv v := by
    have h := v.toNat_lt
    refine UInt32.toNat_inj.1 ?_
    simp
    omega
  right_inv b := by
    have h₀ := (b 0).toNat_lt
    have h₁ := (b 1).toNat_lt
    have h₂ := (b 2).toNat_lt
    have h₃ := (b 3).toNat_lt
    funext i
    refine UInt8.toNat_inj.1 ?_
    match i with
    | 0 => simp; omega
    | 1 => simp; omega
    | 2 => simp; omega
    | 3 => simp; omega

/-- Two members, one after the other. -/
def pair (f : Layout α m) (g : Layout β n) : Layout (α × β) (m + n) :=
  (f.prodCongr g).trans (Fin.appendEquiv m n)

/-- `k` members of one layout in a row. -/
def array (k : ℕ) (f : Layout α n) : Layout (Fin k → α) (k * n) :=
  (Equiv.piCongrRight fun _ => f).trans
    ((Equiv.curry (Fin k) (Fin n) UInt8).symm.trans
      (Equiv.arrowCongr finProdFinEquiv (Equiv.refl UInt8)))

/-- The bytes of one member after the other. -/
theorem array_apply (k : ℕ) (f : Layout α n) (v : Fin k → α) (x : Fin (k * n)) :
    array k f v x = f (v x.divNat) x.modNat := rfl

/-- A member is read from its own bytes, the `i`-th group of `n`. -/
theorem array_symm_apply (k : ℕ) (f : Layout α n) (x : Bytes (k * n)) (i : Fin k) :
    (array k f).symm x i = f.symm fun j => x (finProdFinEquiv (i, j)) := rfl

/-- Two byte strings hold one member exactly when they agree on its bytes. -/
theorem array_symm_eq_iff {k : ℕ} (f : Layout α n) {x y : Bytes (k * n)} {i : Fin k} :
    (array k f).symm x i = (array k f).symm y i ↔ ∀ m : Fin (k * n), m.divNat = i → x m = y m := by
  rw [array_symm_apply, array_symm_apply, f.symm.apply_eq_iff_eq]
  constructor
  · rintro h m rfl
    have hm : finProdFinEquiv (m.divNat, m.modNat) = m := finProdFinEquiv.apply_symm_apply m
    simpa only [hm] using congrFun h m.modNat
  · intro h
    funext j
    exact h _ (congrArg Prod.fst (finProdFinEquiv.symm_apply_apply (i, j)))

end Packed
