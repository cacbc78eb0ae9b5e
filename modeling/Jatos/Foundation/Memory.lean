/-
# Words in a byte memory

The memory has a byte at every address of 32 bits, and addresses count modulo
`2 ^ 32`.  `load f m a` reads what lies from `a` on in the layout `f`, `store`
writes it.  `Holds m a l` says that the doublewords `l` lie from `a` on, which
is what pushing one in front of them extends (`Holds.push`).
-/

import Jatos.Foundation.Packed
import Mathlib.Logic.Function.Basic

namespace Memory

open Packed

/-- The byte at each address. -/
abbrev ByteMemory := UInt32 → UInt8

variable {α β : Type*} {n k : ℕ} {m m' : ByteMemory} {a b x : UInt32} {v w : UInt32}
  {l l' : List UInt32}

/-- The value that lies from an address on. -/
def load (f : Layout α n) (m : ByteMemory) (a : UInt32) : α :=
  f.symm fun i => m (a + UInt32.ofNat i)

/-- The memory with a value from an address on. -/
def store (f : Layout α n) (m : ByteMemory) (a : UInt32) (v : α) : ByteMemory := fun x =>
  if h : (x - a).toNat < n then f v ⟨(x - a).toNat, h⟩ else m x

/-- Address `a + k` is `k` bytes behind `a`. -/
theorem toNat_add_sub (a : UInt32) (hk : k < 2 ^ 32) : (a + UInt32.ofNat k - a).toNat = k := by
  rw [UInt32.toNat_sub, UInt32.toNat_add, UInt32.toNat_ofNat']
  have := a.toNat_lt
  omega

/-- An address a whole number of doublewords further on. -/
theorem add_four_mul_div (h : (b - a).toNat % 4 = 0) :
    a + UInt32.ofNat (4 * ((b - a).toNat / 4)) = b := by
  rw [Nat.mul_div_cancel' (Nat.dvd_of_mod_eq_zero h), UInt32.ofNat_toNat, UInt32.add_comm,
    UInt32.sub_add_cancel]

/-- What is stored is loaded. -/
theorem load_store (f : Layout α n) (m : ByteMemory) (a : UInt32) (v : α) (hn : n ≤ 2 ^ 32) :
    load f (store f m a v) a = v := by
  rw [load, Equiv.symm_apply_eq]
  funext i
  have hi := toNat_add_sub a (lt_of_lt_of_le i.isLt hn)
  rw [store, dif_pos (by rw [hi]; exact i.isLt)]
  exact congrArg _ (Fin.ext hi)

/-- A byte behind the value stays, and so does one in front of it. -/
theorem store_of_le (f : Layout α n) (m : ByteMemory) (v : α) (h : n ≤ (x - a).toNat) :
    store f m a v x = m x :=
  dif_neg (Nat.not_lt.2 h)

/-- A load depends on its own bytes only. -/
theorem load_congr (f : Layout α n) (hn : n ≤ 2 ^ 32)
    (h : ∀ x, (x - a).toNat < n → m' x = m x) : load f m' a = load f m a := by
  refine congrArg f.symm (funext fun i => h _ ?_)
  rw [toNat_add_sub a (lt_of_lt_of_le i.isLt hn)]
  exact i.isLt

/-- A record in the layout of its members. -/
theorem load_trans (e : α ≃ β) (f : Layout β n) (m : ByteMemory) (a : UInt32) :
    load (e.trans f : Layout α n) m a = e.symm (load f m a) := rfl

/-- Two members in a row. -/
theorem load_pair (f : Layout α k) (g : Layout β n) (m : ByteMemory) (a : UInt32) :
    load (pair f g) m a = (load f m a, load g m (a + UInt32.ofNat k)) := by
  rw [load, Equiv.symm_apply_eq]
  funext i
  show _ = Fin.append _ _ i
  refine Fin.addCases (fun i => ?_) (fun i => ?_) i
  · rw [Fin.append_left]
    show _ = f (f.symm _) i
    rw [Equiv.apply_symm_apply]
    rfl
  · rw [Fin.append_right]
    show _ = g (g.symm _) i
    rw [Equiv.apply_symm_apply, Fin.val_natAdd, UInt32.ofNat_add, UInt32.add_assoc]

/-- Members in a row. -/
theorem load_array (k : ℕ) (f : Layout α n) (m : ByteMemory) (a : UInt32) (i : Fin k) :
    load (array k f) m a i = load f m (a + UInt32.ofNat (n * i)) := by
  suffices h : load (array k f) m a = fun i : Fin k => load f m (a + UInt32.ofNat (n * i)) from
    congrFun h i
  rw [load, Equiv.symm_apply_eq]
  funext x
  rw [array_apply, load, Equiv.apply_symm_apply, Fin.coe_modNat, UInt32.add_assoc,
    ← UInt32.ofNat_add, Fin.coe_divNat, Nat.div_add_mod]

/-! ### A string of bytes, from its first on -/

/-- The memory with the first `k` bytes of a string from an address on. -/
def fill (m : ByteMemory) (a : UInt32) (c : ℕ → UInt8) (k : ℕ) : ByteMemory := fun x =>
  if (x - a).toNat < k then c (x - a).toNat else m x

/-- A fill of no bytes changes nothing. -/
@[simp] theorem fill_zero (m : ByteMemory) (a : UInt32) (c : ℕ → UInt8) : fill m a c 0 = m :=
  funext fun _ => if_neg (Nat.not_lt_zero _)

/-- How far an address is behind `a + k`. -/
theorem toNat_sub_add (x a : UInt32) (hk : k < 2 ^ 32) : (x - (a + UInt32.ofNat k)).toNat =
    if k ≤ (x - a).toNat then (x - a).toNat - k else 2 ^ 32 + (x - a).toNat - k := by
  have := x.toNat_lt
  have := a.toNat_lt
  rw [UInt32.toNat_sub, UInt32.toNat_add, UInt32.toNat_ofNat', UInt32.toNat_sub]
  split_ifs <;> omega

/-- The bytes of the next value. -/
theorem store_fill (f : Layout α n) (m : ByteMemory) {c : ℕ → UInt8} {v : α}
    (hv : ∀ i : Fin n, f v i = c (k + i)) (hk : k + n ≤ 2 ^ 32) (hn : 0 < n) :
    store f (fill m a c k) (a + UInt32.ofNat k) v = fill m a c (k + n) := by
  funext x
  have hx := toNat_sub_add x a (k := k) (by omega)
  have hlt := (x - a).toNat_lt
  simp only [store, fill]
  by_cases hle : k ≤ (x - a).toNat
  · rw [if_pos hle] at hx
    rw [if_neg (by omega)]
    split_ifs with h h' h'
    · rw [hv]
      exact congrArg c (by simp only [hx]; omega)
    · omega
    · omega
    · rfl
  · rw [if_neg hle] at hx
    rw [if_pos (by omega), dif_neg (by omega), if_pos (by omega)]

/-- A store fills with the bytes of its value. -/
theorem store_eq_fill (f : Layout α n) (m : ByteMemory) {c : ℕ → UInt8} {v : α}
    (hv : ∀ i : Fin n, f v i = c i) : store f m a v = fill m a c n := by
  funext x
  simp only [store, fill]
  split_ifs with h
  · exact hv _
  · rfl

/-- The bytes of a string from byte `lo` on, up to byte `k`. -/
def fillFrom (m : ByteMemory) (a : UInt32) (c : ℕ → UInt8) (lo k : ℕ) : ByteMemory := fun x =>
  if lo ≤ (x - a).toNat ∧ (x - a).toNat < k then c (x - a).toNat else m x

/-- A fill from the first byte on is a fill. -/
theorem fillFrom_zero (m : ByteMemory) (a : UInt32) (c : ℕ → UInt8) (k : ℕ) :
    fillFrom m a c 0 k = fill m a c k := by
  funext x
  simp [fillFrom, fill]

/-- A fill from the last byte on changes nothing. -/
theorem fillFrom_self (m : ByteMemory) (a : UInt32) (c : ℕ → UInt8) (k : ℕ) :
    fillFrom m a c k k = m := by
  funext x
  exact if_neg (by omega)

/-- What a fill leaves at a byte of the string. -/
theorem fill_apply (m : ByteMemory) {c : ℕ → UInt8} {i : ℕ} (hi : i < k) (hk : k ≤ 2 ^ 32) :
    fill m a c k (a + UInt32.ofNat i) = c i := by
  rw [fill, toNat_add_sub a (by omega), if_pos hi]

/-- A load of what was filled is the value with these bytes. -/
theorem load_fill (f : Layout α n) (m : ByteMemory) (a : UInt32) (c : ℕ → UInt8)
    (hn : n ≤ 2 ^ 32) : load f (fill m a c n) a = f.symm fun i => c i :=
  congrArg f.symm (funext fun i => fill_apply m i.isLt hn)

/-- An address is that of byte `i` if that is how far it is from the first. -/
theorem eq_add_ofNat_iff {i : ℕ} (hi : i < 2 ^ 32) :
    x = a + UInt32.ofNat i ↔ (x - a).toNat = i := by
  constructor
  · rintro rfl
    exact toNat_add_sub a hi
  · rintro rfl
    rw [UInt32.ofNat_toNat, UInt32.add_comm, UInt32.sub_add_cancel]

/-! ### Loops over the bytes of a buffer -/

/-- `left` rounds of `for (i = first; ..; i++) a[i] = value;`. -/
def assignUp (a : UInt32) (value : ByteMemory → ℕ → UInt8) : ℕ → ℕ → ByteMemory → ByteMemory
  | 0, _, m => m
  | left + 1, i, m =>
      assignUp a value left (i + 1) (Function.update m (a + UInt32.ofNat i) (value m i))

/-- `for (i = n; i != 0; i--) a[i-1] = value;`. -/
def assignDown (a : UInt32) (value : ByteMemory → ℕ → UInt8) : ℕ → ByteMemory → ByteMemory
  | 0, m => m
  | i + 1, m => assignDown a value i (Function.update m (a + UInt32.ofNat i) (value m i))

variable {value : ByteMemory → ℕ → UInt8} {c : ℕ → UInt8}

/-- One more byte at the end of a fill. -/
theorem update_fill (m : ByteMemory) {i : ℕ} (hi : i < 2 ^ 32) :
    Function.update (fill m a c i) (a + UInt32.ofNat i) (c i) = fill m a c (i + 1) := by
  funext x
  rw [Function.update_apply]
  simp only [eq_add_ofNat_iff hi, fill]
  by_cases hx : (x - a).toNat = i
  · rw [if_pos hx, if_pos (by omega), hx]
  · rw [if_neg hx]
    by_cases hlt : (x - a).toNat < i
    · rw [if_pos hlt, if_pos (by omega)]
    · rw [if_neg hlt, if_neg (by omega)]

/-- One more byte at the front of a fill. -/
theorem update_fillFrom (m : ByteMemory) {i : ℕ} (hi : i < n) (hn : n ≤ 2 ^ 32) :
    Function.update (fillFrom m a c (i + 1) n) (a + UInt32.ofNat i) (c i) =
      fillFrom m a c i n := by
  funext x
  rw [Function.update_apply]
  simp only [eq_add_ofNat_iff (show i < 2 ^ 32 by omega), fillFrom]
  by_cases hx : (x - a).toNat = i
  · rw [if_pos hx, if_pos (by omega), hx]
  · rw [if_neg hx]
    by_cases hin : i + 1 ≤ (x - a).toNat ∧ (x - a).toNat < n
    · rw [if_pos hin, if_pos (by omega)]
    · rw [if_neg hin, if_neg (by omega)]

/-- The rest of an upward loop whose values are those of the fill. -/
theorem assignUp_of_le {m : ByteMemory} (hn : n ≤ 2 ^ 32)
    (hvalue : ∀ i < n, value (fill m a c i) i = c i) {left i : ℕ} (hi : i + left = n) :
    assignUp a value left i (fill m a c i) = fill m a c n := by
  induction left generalizing i with
  | zero => rw [assignUp, ← hi, Nat.add_zero]
  | succ left ih =>
      rw [assignUp, hvalue i (by omega), update_fill m (by omega)]
      exact ih (by omega)

/-- **A loop upwards fills the buffer** with a string of which every byte is what the
loop reads when the bytes in front of it are there. -/
theorem assignUp_eq_fill {m : ByteMemory} (hn : n ≤ 2 ^ 32)
    (hvalue : ∀ i < n, value (fill m a c i) i = c i) : assignUp a value n 0 m = fill m a c n := by
  have hall := assignUp_of_le hn hvalue (Nat.zero_add n)
  rwa [fill_zero] at hall

/-- The rest of a downward loop whose values are those of the fill. -/
theorem assignDown_of_le {m : ByteMemory} (hn : n ≤ 2 ^ 32)
    (hvalue : ∀ i < n, value (fillFrom m a c (i + 1) n) i = c i) {i : ℕ} (hi : i ≤ n) :
    assignDown a value i (fillFrom m a c i n) = fill m a c n := by
  induction i with
  | zero => rw [assignDown, fillFrom_zero]
  | succ i ih =>
      rw [assignDown, hvalue i hi, update_fillFrom m hi hn]
      exact ih (by omega)

/-- **A loop downwards fills the buffer** with a string of which every byte is what the
loop reads when the bytes behind it are there. -/
theorem assignDown_eq_fill {m : ByteMemory} (hn : n ≤ 2 ^ 32)
    (hvalue : ∀ i < n, value (fillFrom m a c (i + 1) n) i = c i) :
    assignDown a value n m = fill m a c n := by
  have hall := assignDown_of_le hn hvalue le_rfl
  rwa [fillFrom_self] at hall

/-! ### Doublewords in a row -/

/-- The doublewords lie from the address on. -/
def Holds (m : ByteMemory) : UInt32 → List UInt32 → Prop
  | _, [] => True
  | a, v :: l => load u32 m a = v ∧ Holds m (a + 4) l

/-- Words behind words lie four bytes further on each. -/
theorem holds_append : Holds m a (l ++ l') ↔
    Holds m a l ∧ Holds m (a + UInt32.ofNat (4 * l.length)) l' := by
  induction l generalizing a with
  | nil => simp [Holds]
  | cons v l ih =>
      have hnext : a + 4 + UInt32.ofNat (4 * l.length) =
          a + UInt32.ofNat (4 * (v :: l).length) := by
        rw [List.length_cons, Nat.mul_succ, Nat.add_comm, UInt32.ofNat_add, ← UInt32.add_assoc]
        rfl
      rw [List.cons_append, Holds, Holds, ih, and_assoc, hnext]

/-- One of the doublewords. -/
theorem Holds.get (h : Holds m a l) (hk : l[k]? = some v) :
    load u32 m (a + UInt32.ofNat (4 * k)) = v := by
  induction l generalizing a k with
  | nil => simp at hk
  | cons w l ih =>
      cases k with
      | zero =>
          obtain rfl : w = v := by simpa using hk
          simpa using h.1
      | succ k =>
          have hnext := ih h.2 (by simpa using hk)
          rw [Nat.mul_succ, Nat.add_comm, UInt32.ofNat_add, ← UInt32.add_assoc]
          exact hnext

/-- Only their bytes matter. -/
theorem Holds.congr (h : Holds m a l) (hl : 4 * l.length ≤ 2 ^ 32)
    (hm : ∀ x, (x - a).toNat < 4 * l.length → m' x = m x) : Holds m' a l := by
  induction l generalizing a with
  | nil => trivial
  | cons v l ih =>
      rw [List.length_cons] at hl hm
      refine ⟨(load_congr u32 (by decide) fun x hx => hm x (by omega)).trans h.1,
        ih h.2 (by omega) fun x hx => hm x ?_⟩
      have hfour : (4 : UInt32).toNat = 4 := rfl
      have := a.toNat_lt
      have := x.toNat_lt
      rw [UInt32.toNat_sub, UInt32.toNat_add, hfour] at hx
      rw [UInt32.toNat_sub]
      omega

/-- **A doubleword in front of the others.** -/
theorem Holds.push (h : Holds m a l) (hl : 4 * (l.length + 1) ≤ 2 ^ 32) (v : UInt32) :
    Holds (store u32 m (a - 4) v) (a - 4) (v :: l) := by
  have hback : a - 4 + 4 = a := UInt32.sub_add_cancel a 4
  refine ⟨load_store u32 m _ v (by decide), ?_⟩
  rw [hback]
  refine h.congr (by omega) fun x hx => store_of_le _ _ _ ?_
  have hfour : (4 : UInt32).toNat = 4 := rfl
  have := a.toNat_lt
  have := x.toNat_lt
  rw [UInt32.toNat_sub] at hx
  rw [UInt32.toNat_sub, UInt32.toNat_sub, hfour]
  omega

/-- **One of the doublewords is replaced.** -/
theorem Holds.set (h : Holds m a l) (hl : 4 * l.length ≤ 2 ^ 32) (hk : k < l.length) (v : UInt32) :
    Holds (store u32 m (a + UInt32.ofNat (4 * k)) v) a (l.set k v) := by
  induction l generalizing a k with
  | nil => simp at hk
  | cons w l ih =>
      rw [List.length_cons] at hl hk
      have hfour : (4 : UInt32).toNat = 4 := rfl
      have := a.toNat_lt
      cases k with
      | zero =>
          have hzero : a + UInt32.ofNat (4 * 0) = a := by simp
          rw [hzero, List.set_cons_zero]
          refine ⟨load_store u32 m a v (by decide), ?_⟩
          refine h.2.congr (by omega) fun x hx => store_of_le _ _ _ ?_
          have := x.toNat_lt
          rw [UInt32.toNat_sub, UInt32.toNat_add, hfour] at hx
          rw [UInt32.toNat_sub]
          omega
      | succ k =>
          have hnext : a + UInt32.ofNat (4 * (k + 1)) = a + 4 + UInt32.ofNat (4 * k) := by
            rw [Nat.mul_succ, Nat.add_comm, UInt32.ofNat_add, ← UInt32.add_assoc]
            rfl
          rw [hnext, List.set_cons_succ]
          refine ⟨(load_congr u32 (by decide) fun x hx => store_of_le _ _ _ ?_).trans h.1,
            ih h.2 (by omega) (by omega)⟩
          have := x.toNat_lt
          rw [UInt32.toNat_sub] at hx
          rw [UInt32.toNat_sub, UInt32.toNat_add, UInt32.toNat_add, hfour, UInt32.toNat_ofNat']
          omega

end Memory
