/-
# The line editor

The loop of `main` in `src/user-shell.c`: the characters that the kernel delivers go
to a buffer of 256 bytes, a backspace takes the last one away, and a newline hands
the buffer and the index to `executeCommand` and starts over.

The line is what is left of the characters when the backspaces have been applied.
Index and buffer always agree with it (`Editor.Holds`), and the code puts no bound on
it: the bytes that are stored are those of the buffer as long as no character comes
when the line has 256 of them already (`editor_exact_iff`).  `Editor.buf` is the memory
from the buffer on; what else lies there is not modelled.
-/

import Jatos.Foundation.Runs
import Mathlib.Data.List.GetD
import Mathlib.Logic.Function.Basic

namespace Jatos
namespace Shell

/-- Bytes of the line that is edited. -/
def KEYBOARD_BUFFER_SIZE : ℕ := 256

/-- `buf` and `i`. -/
structure Editor where
  buf : ℕ → UInt8
  i : ℕ

/-- The arguments of `executeCommand`. -/
structure Command where
  command : ℕ → UInt8
  length : ℕ

variable {m m' : Editor} {line : List UInt8} {c : UInt8} {keys : List UInt8}

namespace Editor

/-- The editor before the loop, when the stack is as it is. -/
def start (stack : ℕ → UInt8) : Editor :=
  ⟨fun j => if j < KEYBOARD_BUFFER_SIZE then 0 else stack j, 0⟩

/-- One round of the loop, with the `keyboard_input` that the system call delivers:
`executeCommand` is called, or not. -/
def round (keyboardInput : UInt8) (m : Editor) : Option Command × Editor :=
  if keyboardInput = 0 then (none, m)
  else if keyboardInput = 0x08 then
    if 0 < m.i then (none, ⟨Function.update m.buf (m.i - 1) 0, m.i - 1⟩) else (none, m)
  else if keyboardInput = 0x0A then
    (some ⟨m.buf, m.i⟩, ⟨fun j => if j < KEYBOARD_BUFFER_SIZE then 0 else m.buf j, 0⟩)
  else (none, ⟨Function.update m.buf m.i keyboardInput, m.i + 1⟩)

/-- The index at which the round stores a byte, behind a key that edits the line. -/
def stored (keyboardInput : UInt8) (m : Editor) : Option ℕ :=
  if keyboardInput = 0 ∨ keyboardInput = 0x0A then none
  else if keyboardInput = 0x08 then if 0 < m.i then some (m.i - 1) else none
  else some m.i

/-- The buffer holds the line: its bytes, the index behind them, and zeros. -/
structure Holds (m : Editor) (line : List UInt8) : Prop where
  index : m.i = line.length
  fits : line.length ≤ KEYBOARD_BUFFER_SIZE
  bytes : ∀ j < KEYBOARD_BUFFER_SIZE, m.buf j = line.getD j 0

end Editor

/-- A character is no key, or it edits the line, or it ends it. -/
def edit (line : List UInt8) (c : UInt8) : List UInt8 :=
  if c = 0 then line else if c = 0x08 then line.dropLast else if c = 0x0A then [] else line ++ [c]

/-- The loop, beside the line. -/
def type (c : UInt8) (x : Editor × List UInt8) : Option (Option Command × Editor × List UInt8) :=
  some ((x.1.round c).1, (x.1.round c).2, edit x.2 c)

/-- What the editor should do: it stores inside the buffer, and at a newline, and only
there, it calls `executeCommand` with the line, its length, and zeros up to the end of
the buffer. -/
structure Exact (x : Editor × List UInt8) (c : UInt8) : Prop where
  within : ∀ j ∈ x.1.stored c, j < KEYBOARD_BUFFER_SIZE
  call : ((x.1.round c).1.isSome ↔ c = 0x0A) ∧ ∀ cmd ∈ (x.1.round c).1,
    cmd.length = x.2.length ∧ (∀ j (h : j < x.2.length), cmd.command j = x.2[j]) ∧
      ∀ j, x.2.length ≤ j → j < KEYBOARD_BUFFER_SIZE → cmd.command j = 0

/-- No character comes to a line of 256 bytes, backspace and newline apart. -/
def Room (x : Editor × List UInt8) (c : UInt8) : Prop :=
  x.2.length = KEYBOARD_BUFFER_SIZE → c = 0 ∨ c = 0x08 ∨ c = 0x0A

instance {x : Editor × List UInt8} : Decidable (Room x c) := inferInstanceAs (Decidable (_ → _))

/-! ### One round -/

namespace Editor

/-- At the start the line is empty. -/
theorem start_holds (stack : ℕ → UInt8) : (start stack).Holds [] :=
  ⟨rfl, Nat.zero_le _, fun _ hj => if_pos hj⟩

/-- A backspace takes the last byte away. -/
theorem Holds.backspace (h : m.Holds line) (hi : 0 < m.i) :
    Holds ⟨Function.update m.buf (m.i - 1) 0, m.i - 1⟩ line.dropLast := by
  obtain ⟨hindex, hfits, hbytes⟩ := h
  refine ⟨by rw [List.length_dropLast, hindex], by rw [List.length_dropLast]; omega,
    fun j hj => ?_⟩
  rw [hindex] at hi ⊢
  simp only [Function.update_apply, List.getD_eq_getElem?_getD, List.getElem?_dropLast]
  by_cases hlast : j = line.length - 1
  · rw [if_pos hlast, if_neg (by omega)]
    rfl
  · rw [if_neg hlast, hbytes j hj, List.getD_eq_getElem?_getD]
    split_ifs with hlt
    · rfl
    · rw [List.getElem?_eq_none (by omega)]

/-- Any other character goes behind the line. -/
theorem Holds.insert (h : m.Holds line) (hroom : line.length < KEYBOARD_BUFFER_SIZE) (c : UInt8) :
    Holds ⟨Function.update m.buf m.i c, m.i + 1⟩ (line ++ [c]) := by
  obtain ⟨hindex, hfits, hbytes⟩ := h
  refine ⟨by simp [hindex], by simpa [Nat.succ_le_iff] using hroom, fun j hj => ?_⟩
  rw [hindex]
  simp only [Function.update_apply, List.getD_eq_getElem?_getD]
  by_cases hnew : j = line.length
  · simp [hnew]
  · rw [if_neg hnew, hbytes j hj, List.getD_eq_getElem?_getD]
    by_cases hlt : j < line.length
    · rw [List.getElem?_append_left hlt]
    · rw [List.getElem?_eq_none (by omega), List.getElem?_eq_none (by simp; omega)]

/-- **A round edits the line**, while there is room. -/
theorem Holds.round (h : m.Holds line) (hroom : Room (m, line) c) :
    (m.round c).2.Holds (edit line c) := by
  unfold Editor.round edit
  split_ifs with h0 hback hi hnew
  · exact h
  · exact h.backspace hi
  · have hnil : line = [] := List.eq_nil_of_length_eq_zero (by have := h.index; omega)
    rw [hnil, List.dropLast_nil]
    exact hnil ▸ h
  · exact ⟨rfl, Nat.zero_le _, fun j hj => if_pos hj⟩
  · have hne : line.length ≠ KEYBOARD_BUFFER_SIZE := fun hfull =>
      (hroom hfull).elim h0 fun h => h.elim hback hnew
    exact h.insert (Nat.lt_of_le_of_ne h.fits hne) c

/-- A newline, and nothing else, calls `executeCommand`. -/
theorem round_call (m : Editor) (c : UInt8) :
    (m.round c).1 = if c = 0x0A then some ⟨m.buf, m.i⟩ else none := by
  unfold Editor.round
  split_ifs with h0 hback hi hnew
  all_goals simp_all

end Editor

/-- **When a round is exact.** -/
theorem exact_iff (h : m.Holds line) : Exact (m, line) c ↔ Room (m, line) c := by
  constructor
  · rintro ⟨hwithin, -⟩ hfull
    by_contra hc
    obtain ⟨h0, hback, hnew⟩ : c ≠ 0 ∧ c ≠ 0x08 ∧ c ≠ 0x0A := by tauto
    have hstored : m.stored c = some m.i := by simp [Editor.stored, h0, hback, hnew]
    have := hwithin m.i hstored
    have hindex := h.index
    simp only at hfull
    omega
  · intro hroom
    refine ⟨fun j hj => ?_, ?_⟩
    · have hindex := h.index
      have hfits := h.fits
      unfold Editor.stored at hj
      split_ifs at hj with h0 hback hi
      · cases hj
      · obtain rfl := Option.some.inj hj
        change 0 < m.i at hi
        change m.i - 1 < KEYBOARD_BUFFER_SIZE
        omega
      · cases hj
      · obtain rfl := Option.some.inj hj
        have hne : line.length ≠ KEYBOARD_BUFFER_SIZE := fun hfull =>
          (hroom hfull).elim (fun h => h0 (Or.inl h)) fun h => h.elim hback fun h => h0 (Or.inr h)
        simp only
        omega
    · rw [Editor.round_call]
      split_ifs with hnew
      · refine ⟨by simp [hnew], fun cmd hcmd => ?_⟩
        obtain rfl := Option.some.inj hcmd
        refine ⟨h.index, fun j hj => ?_, fun j hj hlt => ?_⟩
        · have hbyte := h.bytes j (Nat.lt_of_lt_of_le hj h.fits)
          rwa [List.getD_eq_getElem?_getD, List.getElem?_eq_getElem hj, Option.getD_some] at hbyte
        · have hbyte := h.bytes j hlt
          rwa [List.getD_eq_getElem?_getD, List.getElem?_eq_none hj, Option.getD_none] at hbyte
      · exact ⟨by simp [hnew], fun cmd hcmd => by cases hcmd⟩

/-! ### All rounds -/

/-- From a line that the buffer holds on. -/
theorem Editor.Holds.guarded_iff (h : m.Holds line) (keys : List UInt8) :
    Runs.Guarded type Exact keys (m, line) ↔ Runs.Guarded type Room keys (m, line) := by
  have hkeep : ∀ (x : Editor × List UInt8) c o x', x.1.Holds x.2 → True → Exact x c →
      type c x = some (o, x') → x'.1.Holds x'.2 := by
    intro x c o x' h _ hx hstep
    obtain ⟨-, rfl⟩ := Prod.mk.inj (Option.some.inj hstep)
    exact h.round ((exact_iff h).1 hx)
  have hiff : ∀ (x : Editor × List UInt8) c, x.1.Holds x.2 → True → (Exact x c ↔ Room x c) :=
    fun x c h _ => exact_iff h
  exact Runs.guarded_iff hiff hkeep h Runs.guarded_true

/-- **When the editor is exact.**  Whatever keys come, every round stores inside the
buffer and every newline calls `executeCommand` with the line, if and only if no
character comes to a line of 256 bytes. -/
theorem editor_exact_iff (stack : ℕ → UInt8) (keys : List UInt8) :
    Runs.Guarded type Exact keys (Editor.start stack, []) ↔
      Runs.Guarded type Room keys (Editor.start stack, []) :=
  (Editor.start_holds stack).guarded_iff keys

/-- 257 characters without a newline: the last one is stored behind the buffer. -/
theorem editor_overflow_sample :
    ¬Runs.Guarded type Exact (List.replicate 257 0x61) (Editor.start fun _ => 0, []) := by
  rw [(Editor.start_holds _).guarded_iff]
  decide +kernel

end Shell
end Jatos
