/-
# The string functions

`src/stdlib/string.c` on the byte memory.  Pointers are addresses, and `size_t`
has 32 bits.

| function | what it leaves at `dest + k`, `k < n` |
| --- | --- |
| `memset` | the low byte of `c` |
| `memcpy` | byte `k % (dest - src)` of what was at `src` |
| `memmove` | byte `k` of what was at `src` |

So the two copies differ where `dest` is inside the source, behind its first
byte: there `memcpy` repeats the bytes in front of `dest` (`memcpy_eq_fill`).
-/

import Jatos.Fat32.Layout
import Jatos.Foundation.Memory

namespace Jatos
namespace Stdlib

open Packed Memory

variable {α : Type*} {n k : ℕ} {dest src : UInt32}

/-- `buf[i] = (uint8_t) c` -/
def memset (s : UInt32) (c : UInt32) (n : ℕ) (m : ByteMemory) : ByteMemory :=
  assignUp s (fun _ _ => c.toUInt8) n 0 m

/-- `dstbuf[i] = srcbuf[i]` -/
def memcpy (dest src : UInt32) (n : ℕ) (m : ByteMemory) : ByteMemory :=
  assignUp dest (fun m i => m (src + UInt32.ofNat i)) n 0 m

/-- `memmove` -/
def memmove (dest src : UInt32) (n : ℕ) (m : ByteMemory) : ByteMemory :=
  if dest < src then assignUp dest (fun m i => m (src + UInt32.ofNat i)) n 0 m
  else assignDown dest (fun m i => m (src + UInt32.ofNat i)) n m

/-- The rounds of `memcmp` from byte `i` on. -/
def memcmpFrom (s1 s2 : UInt32) (m : ByteMemory) : ℕ → ℕ → ℤ
  | 0, _ => 0
  | left + 1, i =>
      if m (s1 + UInt32.ofNat i) < m (s2 + UInt32.ofNat i) then -1
      else if m (s1 + UInt32.ofNat i) > m (s2 + UInt32.ofNat i) then 1
      else memcmpFrom s1 s2 m left (i + 1)

/-- `memcmp` -/
def memcmp (s1 s2 : UInt32) (n : ℕ) (m : ByteMemory) : ℤ := memcmpFrom s1 s2 m n 0

/-! ### Filling and copying -/

/-- `memset` fills with the low byte of `c`. -/
theorem memset_eq_fill (s c : UInt32) (m : ByteMemory) (hn : n ≤ 2 ^ 32) :
    memset s c n m = fill m s (fun _ => c.toUInt8) n :=
  assignUp_eq_fill hn fun _ _ => rfl

/-- **What `memcpy` does**, wherever its two buffers lie. -/
theorem memcpy_eq_fill (dest src : UInt32) (m : ByteMemory) (hn : n ≤ 2 ^ 32) :
    memcpy dest src n m =
      fill m dest (fun k => m (src + UInt32.ofNat (k % (dest - src).toNat))) n := by
  refine assignUp_eq_fill hn fun i hi => ?_
  have hd := dest.toNat_lt
  have hs := src.toNat_lt
  have hδ := (dest - src).toNat_lt
  have hdist : (src + UInt32.ofNat i - dest).toNat =
      if (dest - src).toNat ≤ i then i - (dest - src).toNat
      else 2 ^ 32 + i - (dest - src).toNat := by
    rw [UInt32.toNat_sub, UInt32.toNat_add, UInt32.toNat_ofNat', UInt32.toNat_sub]
    split_ifs <;> omega
  rw [fill, hdist]
  split_ifs with hle hlt hlt
  · -- the byte was written in an earlier round
    rw [← Nat.mod_eq_sub_mod hle]
  · have hzero : (dest - src).toNat = 0 := by omega
    rw [hzero, Nat.mod_zero]
  · omega
  · rw [Nat.mod_eq_of_lt (by omega)]

/-- **What `memmove` does**, for buffers that do not wrap around. -/
theorem memmove_eq_fill (m : ByteMemory) (hdest : dest.toNat + n ≤ 2 ^ 32)
    (hsrc : src.toNat + n ≤ 2 ^ 32) :
    memmove dest src n m = fill m dest (fun k => m (src + UInt32.ofNat k)) n := by
  have hdist : ∀ i < n, (src + UInt32.ofNat i - dest).toNat =
      if dest.toNat ≤ src.toNat + i then src.toNat + i - dest.toNat
      else 2 ^ 32 + src.toNat + i - dest.toNat := by
    intro i hi
    rw [UInt32.toNat_sub, UInt32.toNat_add, UInt32.toNat_ofNat']
    split_ifs <;> omega
  rw [memmove]
  split_ifs with hlt
  · rw [UInt32.lt_iff_toNat_lt] at hlt
    refine assignUp_eq_fill (by omega) fun i hi => ?_
    rw [fill, hdist i hi]
    refine if_neg ?_
    split_ifs <;> omega
  · rw [UInt32.lt_iff_toNat_lt] at hlt
    refine assignDown_eq_fill (by omega) fun i hi => ?_
    rw [fillFrom, hdist i hi]
    refine if_neg ?_
    split_ifs <;> omega

/-- **The two copies.**  For buffers that do not wrap around: `memmove` assigns the value of
every layout in the buffer, whatever the overlap, and changes nothing else.  `memcpy` changes
nothing else either, and byte `k` becomes byte `k % (dest - src)` of the source; it does what
`memmove` does to every memory exactly if `dest` is not inside the source behind its first
byte. -/
theorem copies_spec (hdest : dest.toNat + n ≤ 2 ^ 32) (hsrc : src.toNat + n ≤ 2 ^ 32) :
    (∀ (f : Layout α n) (m : ByteMemory), load f (memmove dest src n m) dest = load f m src) ∧
      (∀ m x, n ≤ (x - dest).toNat → memmove dest src n m x = m x) ∧
      (∀ m, (∀ k < n, memcpy dest src n m (dest + UInt32.ofNat k) =
          m (src + UInt32.ofNat (k % (dest - src).toNat))) ∧
        ∀ x, n ≤ (x - dest).toNat → memcpy dest src n m x = m x) ∧
      ((∀ m, memcpy dest src n m = memmove dest src n m) ↔
        ¬(src < dest ∧ dest.toNat < src.toNat + n)) := by
  refine ⟨fun f m => ?_, fun m x hx => ?_, fun m => ⟨fun k hk => ?_, fun x hx => ?_⟩,
    fun h => ?_, fun h m => ?_⟩
  · rw [memmove_eq_fill m hdest hsrc, load_fill _ _ _ _ (by omega)]
    rfl
  · rw [memmove_eq_fill m hdest hsrc, fill, if_neg (by omega)]
  · rw [memcpy_eq_fill _ _ _ (by omega), fill_apply _ hk (by omega)]
  · rw [memcpy_eq_fill _ _ _ (by omega), fill, if_neg (by omega)]
  · rintro ⟨hlt, hin⟩
    rw [UInt32.lt_iff_toNat_lt] at hlt
    -- a memory in which only the first byte of the source is zero
    have hsame := congrFun (h fun x => if x = src then 0 else 1)
      (dest + UInt32.ofNat (dest - src).toNat)
    have hdist : (dest - src).toNat = dest.toNat - src.toNat := by
      rw [UInt32.toNat_sub]
      have := dest.toNat_lt
      omega
    have hne : src + UInt32.ofNat (dest - src).toNat ≠ src := by
      rw [UInt32.ofNat_toNat, UInt32.add_comm, UInt32.sub_add_cancel]
      exact fun heq => by rw [heq] at hlt; omega
    rw [memcpy_eq_fill _ _ _ (by omega), memmove_eq_fill _ hdest hsrc,
      fill_apply _ (by omega) (by omega), fill_apply _ (by omega) (by omega), Nat.mod_self,
      if_neg hne] at hsame
    simp at hsame
  · rw [UInt32.lt_iff_toNat_lt] at h
    rw [memcpy_eq_fill _ _ _ (by omega), memmove_eq_fill _ hdest hsrc]
    funext x
    have hdist := UInt32.toNat_sub dest src
    have hd := dest.toNat_lt
    simp only [fill]
    split_ifs with hx
    · by_cases hzero : (dest - src).toNat = 0
      · rw [hzero, Nat.mod_zero]
      · rw [Nat.mod_eq_of_lt (by omega)]
    · rfl

/-- Sixteen bytes, four further on in the same buffer. -/
theorem copies_spec_sample :
    (∀ (f : Layout (Bytes 16) 16) (m : ByteMemory),
      load f (memmove 0x1004 0x1000 16 m) 0x1004 = load f m 0x1000) ∧
    (∀ m x, 16 ≤ (x - 0x1004 : UInt32).toNat → memmove 0x1004 0x1000 16 m x = m x) ∧
    (∀ m, (∀ k < 16, memcpy 0x1004 0x1000 16 m (0x1004 + UInt32.ofNat k) =
        m (0x1000 + UInt32.ofNat (k % (0x1004 - 0x1000 : UInt32).toNat))) ∧
      ∀ x, 16 ≤ (x - 0x1004 : UInt32).toNat → memcpy 0x1004 0x1000 16 m x = m x) ∧
    ((∀ m, memcpy 0x1004 0x1000 16 m = memmove 0x1004 0x1000 16 m) ↔
      ¬((0x1000 : UInt32) < 0x1004 ∧ (0x1004 : UInt32).toNat < (0x1000 : UInt32).toNat + 16)) :=
  copies_spec (by decide) (by decide)

/-! ### Comparing -/

/-- The bytes of a buffer from its byte `i` on. -/
def bytesFrom (m : ByteMemory) (a : UInt32) (i left : ℕ) : List UInt8 :=
  (List.range' i left).map fun k => m (a + UInt32.ofNat k)

/-- The rounds of `memcmp` compare the lists of the bytes. -/
theorem memcmpFrom_eq (s1 s2 : UInt32) (m : ByteMemory) (left i : ℕ) :
    memcmpFrom s1 s2 m left i =
      Fat32.memcmp (bytesFrom m s1 i left) (bytesFrom m s2 i left) := by
  induction left generalizing i with
  | zero => rfl
  | succ left ih =>
      rw [memcmpFrom, bytesFrom, bytesFrom, List.range'_succ, List.map_cons, List.map_cons,
        Fat32.memcmp, ih (i + 1)]
      rfl

/-- The comparison of two buffers is that of the lists of their bytes. -/
theorem memcmp_eq (s1 s2 : UInt32) (n : ℕ) (m : ByteMemory) :
    memcmp s1 s2 n m = Fat32.memcmp (bytesFrom m s1 0 n) (bytesFrom m s2 0 n) :=
  memcmpFrom_eq s1 s2 m n 0

/-- **`memcmp` answers 0 for equal buffers**, as values of every layout. -/
theorem memcmp_eq_zero_iff (f : Layout α n) (s1 s2 : UInt32) (m : ByteMemory) :
    memcmp s1 s2 n m = 0 ↔ load f m s1 = load f m s2 := by
  rw [memcmp_eq, Fat32.memcmp_eq_zero (by simp [bytesFrom]), load, load, f.symm.injective.eq_iff,
    bytesFrom, bytesFrom, List.map_inj_left, funext_iff, Fin.forall_iff]
  simp

end Stdlib
end Jatos
