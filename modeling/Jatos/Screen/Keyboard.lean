/-
# The keyboard

`src/keyboard.c`.  `Keyboard` is `keyboard_state` and the static variables of
`keyboard_isr`, which also writes to the screen.  It works from the cursor on
the screen, not from that of `puts`.  The scancode is an argument, in place of
the port; the interrupt's acknowledgement is no part of the state.
-/

import Jatos.Screen.Framebuffer

namespace Jatos
namespace Screen

/-- The state of the keyboard's driver. -/
structure Keyboard where
  keyboardInputOn : Bool
  keyboardBuffer : UInt8
  isShift : Bool
  isCapsLock : Bool
  maxCol : ℤ
  maxRow : ℤ

/-- The state of the screen and the keyboard. -/
structure Console where
  keyboard : Keyboard
  framebuffer : Framebuffer

variable {m : Console} {k : Keyboard} {scancode : UInt8}

/-! ### Scancodes -/

/-- A map of scancodes, from the four rows of keys that differ between the maps; it is
0 behind `0x4E`. -/
def toAsciiMap (digits top home bottom : List UInt8) : List UInt8 :=
  [0, 0x1B] ++ digits ++ [0x08, 0x09] ++ top ++ [0x0A, 0] ++ home ++ [0, 0x5C] ++ bottom ++
    [0, 0x2A, 0, 0x20] ++ List.replicate 16 0 ++ [0x2D, 0, 0, 0, 0x2B]

/-- `1234567890-=`. -/
def digits : List UInt8 :=
  [0x31, 0x32, 0x33, 0x34, 0x35, 0x36, 0x37, 0x38, 0x39, 0x30, 0x2D, 0x3D]

/-- `!@#$%^&*()_+`. -/
def shiftedDigits : List UInt8 :=
  [0x21, 0x40, 0x23, 0x24, 0x25, 0x5E, 0x26, 0x2A, 0x28, 0x29, 0x5F, 0x2B]

/-- `qwertyuiop`. -/
def topLetters : List UInt8 := [0x71, 0x77, 0x65, 0x72, 0x74, 0x79, 0x75, 0x69, 0x6F, 0x70]

/-- `asdfghjkl`. -/
def homeLetters : List UInt8 := [0x61, 0x73, 0x64, 0x66, 0x67, 0x68, 0x6A, 0x6B, 0x6C]

/-- `zxcvbnm`. -/
def bottomLetters : List UInt8 := [0x7A, 0x78, 0x63, 0x76, 0x62, 0x6E, 0x6D]

/-- Capital letters. -/
def capitals (letters : List UInt8) : List UInt8 := letters.map (· - 0x20)

/-- `keyboard_scancode_1_to_ascii_map`. -/
def keyboardScancode1ToAsciiMap : List UInt8 :=
  toAsciiMap digits (topLetters ++ [0x5B, 0x5D]) (homeLetters ++ [0x3B, 0x27, 0x60])
    (bottomLetters ++ [0x2C, 0x2E, 0x2F])

/-- `keyboard_scancode_shift_to_ascii_map`. -/
def keyboardScancodeShiftToAsciiMap : List UInt8 :=
  toAsciiMap shiftedDigits (capitals topLetters ++ [0x7B, 0x7D])
    (capitals homeLetters ++ [0x3A, 0x22, 0x60]) (capitals bottomLetters ++ [0x3C, 0x3E, 0x3F])

/-- `keyboard_scancode_capslock_to_ascii_map`. -/
def keyboardScancodeCapslockToAsciiMap : List UInt8 :=
  toAsciiMap digits (capitals topLetters ++ [0x5B, 0x5D])
    (capitals homeLetters ++ [0x3B, 0x27, 0x60]) (capitals bottomLetters ++ [0x2C, 0x2E, 0x2F])

/-- `keyboard_scancode_shift_capslock_to_ascii_map`. -/
def keyboardScancodeShiftCapslockToAsciiMap : List UInt8 :=
  toAsciiMap shiftedDigits (topLetters ++ [0x7B, 0x7D]) (homeLetters ++ [0x3A, 0x22, 0x60])
    (bottomLetters ++ [0x3C, 0x3E, 0x3F])

/-- The map that shift and caps lock select. -/
def Keyboard.toAsciiMap (k : Keyboard) : List UInt8 :=
  if k.isShift ∧ !k.isCapsLock then keyboardScancodeShiftToAsciiMap
  else if !k.isShift ∧ k.isCapsLock then keyboardScancodeCapslockToAsciiMap
  else if k.isShift ∧ k.isCapsLock then keyboardScancodeShiftCapslockToAsciiMap
  else keyboardScancode1ToAsciiMap

/-- The character of a scancode. -/
def Keyboard.toAscii (k : Keyboard) (scancode : UInt8) : UInt8 :=
  k.toAsciiMap.getD scancode.toNat 0

/-! ### The handler -/

/-- `maxCol` and `maxRow` when the cursor goes on to a row. -/
def Keyboard.startRow (k : Keyboard) (row : ℤ) : Keyboard :=
  { k with maxRow := if row > k.maxRow then row else k.maxRow, maxCol := 0 }

/-- The backspace key. -/
def backspace (cursor : Cursor) (k : Keyboard) (s : Framebuffer) : Console :=
  let k := { k with keyboardBuffer := 0x08 }
  if cursor.col > 0 ∧ cursor.col ≤ 79 then
    let cursor := ⟨cursor.row, cursor.col - 1⟩
    ⟨{ k with maxCol := if cursor.col ≥ k.maxCol then k.maxCol - 1 else k.maxCol },
      showCursor cursor (writeAt cursor 0 0xF 0 s)⟩
  else if cursor.row > 0 then
    let cursor := ⟨cursor.row - 1, 79⟩
    ⟨k, showCursor cursor (writeAt cursor 0 0xF 0 s)⟩
  else ⟨k, showCursor cursor s⟩

/-- The enter key. -/
def enter (cursor : Cursor) (k : Keyboard) (s : Framebuffer) : Console :=
  let k := { k with keyboardBuffer := 0x0A }
  ⟨k.startRow (cursor.row + 1), showCursor ⟨cursor.row + 1, 0⟩ s⟩

/-- The other keys. -/
def typeKey (scancode : UInt8) (cursor : Cursor) (k : Keyboard) (s : Framebuffer) : Console :=
  let k := { k with keyboardBuffer := k.toAscii scancode }
  if scancode ≠ 0 ∧ k.keyboardBuffer = 0 then ⟨k, s⟩
  else
    let s := writeAt cursor k.keyboardBuffer 0xF 0 s
    if cursor.col + 1 ≥ 80 then
      ⟨k.startRow (cursor.row + 1), showCursor ⟨cursor.row + 1, 0⟩ s⟩
    else ⟨k, showCursor ⟨cursor.row, cursor.col + 1⟩ s⟩

/-- The state of the keyboard behind the first test of `keyboard_isr`. -/
def Console.seen (m : Console) : Keyboard :=
  let cursor := framebufferGetCursor m.framebuffer
  { m.keyboard with maxCol := if cursor.col ≠ 0 then cursor.col else m.keyboard.maxCol }

/-- `keyboard_isr`. -/
def keyboardIsr (scancode : UInt8) (m : Console) : Console :=
  let k := m.seen
  let s := m.framebuffer
  if scancode = 0x3A then ⟨{ k with isCapsLock := !k.isCapsLock }, s⟩
  else if (scancode = 0x2A ∨ scancode = 0x36) ∧ !k.isShift then ⟨{ k with isShift := true }, s⟩
  else if (scancode = 0xAA ∨ scancode = 0xB6) ∧ k.isShift then ⟨{ k with isShift := false }, s⟩
  else
    let cursor := framebufferGetCursor s
    if k.keyboardInputOn ∧ scancode < 0x80 then
      if scancode = 0x0E then backspace cursor k s
      -- the arrows to the left and to the right
      else if scancode = 0x4B ∨ scancode = 0x4D then ⟨{ k with keyboardBuffer := 0 }, s⟩
      else if scancode = 0x1C then enter cursor k s
      else typeKey scancode cursor k s
    else ⟨k, s⟩

/-- `keyboard_state_activate`. -/
def keyboardStateActivate (m : Console) : Console :=
  { m with keyboard := { m.keyboard with keyboardInputOn := true } }

/-- `get_keyboard_buffer`. -/
def getKeyboardBuffer (m : Console) : UInt8 × Console :=
  (m.keyboard.keyboardBuffer, { m with keyboard := { m.keyboard with keyboardBuffer := 0 } })

/-- The state when `kernel_setup` has cleared the screen. -/
def Console.boot : Console where
  keyboard := ⟨false, 0, false, false, -1, 0⟩
  framebuffer := framebufferSetCursor 0 0 (framebufferWrite 0 0 0 0xF 0
    (framebufferClear ⟨[], ⟨0, 0⟩, 0, 0⟩))

/-! ### What a key does -/

/-- The table in use is one of four. -/
theorem toAsciiMap_mem (k : Keyboard) : k.toAsciiMap ∈ [keyboardScancode1ToAsciiMap,
    keyboardScancodeShiftToAsciiMap, keyboardScancodeCapslockToAsciiMap,
    keyboardScancodeShiftCapslockToAsciiMap] := by
  unfold Keyboard.toAsciiMap
  split_ifs <;> simp

/-- The keys that the handler tells apart have the characters that it stores for them, in
every map: the modifiers and the arrows none. -/
theorem toAscii_special (k : Keyboard) :
    k.toAscii 0x0E = 0x08 ∧ k.toAscii 0x1C = 0x0A ∧
      ∀ scancode ∈ [0x2A, 0x36, 0x3A, 0x4B, 0x4D], k.toAscii scancode = 0 := by
  have key : ∀ map ∈ [keyboardScancode1ToAsciiMap, keyboardScancodeShiftToAsciiMap,
      keyboardScancodeCapslockToAsciiMap, keyboardScancodeShiftCapslockToAsciiMap],
      map.getD 0x0E 0 = 0x08 ∧ map.getD 0x1C 0 = 0x0A ∧
        ∀ scancode ∈ ([0x2A, 0x36, 0x3A, 0x4B, 0x4D] : List UInt8),
          map.getD scancode.toNat 0 = 0 := by
    decide +kernel
  exact key _ (toAsciiMap_mem k)

/-- The handler stores to the buffer. -/
def Keyboard.Handles (k : Keyboard) (scancode : UInt8) : Prop :=
  k.keyboardInputOn ∧ scancode < 0x80 ∧ scancode ≠ 0x3A ∧
    ¬((scancode = 0x2A ∨ scancode = 0x36) ∧ !k.isShift)

instance : Decidable (k.Handles scancode) := inferInstanceAs (Decidable (_ ∧ _ ∧ _ ∧ _))

/-- Erasing stores the character of the key. -/
theorem backspace_buffer (cursor : Cursor) (k : Keyboard) (s : Framebuffer) :
    (backspace cursor k s).keyboard.keyboardBuffer = 0x08 := by
  unfold backspace
  dsimp only
  split_ifs <;> rfl

/-- A key that is typed stores its character. -/
theorem typeKey_buffer (scancode : UInt8) (cursor : Cursor) (k : Keyboard) (s : Framebuffer) :
    (typeKey scancode cursor k s).keyboard.keyboardBuffer = k.toAscii scancode := by
  unfold typeKey
  dsimp only
  split_ifs <;> rfl

/-- **What is left in the buffer** is the character of the map. -/
theorem keyboardIsr_buffer (scancode : UInt8) (m : Console) :
    (keyboardIsr scancode m).keyboard.keyboardBuffer =
      if m.keyboard.Handles scancode then m.keyboard.toAscii scancode
      else m.keyboard.keyboardBuffer := by
  obtain ⟨hback, henter, hnone⟩ := toAscii_special m.keyboard
  unfold keyboardIsr
  dsimp only
  by_cases hcaps : scancode = 0x3A
  · rw [if_pos hcaps, if_neg fun h => h.2.2.1 hcaps]
    rfl
  by_cases hshift : (scancode = 0x2A ∨ scancode = 0x36) ∧ !m.seen.isShift
  · rw [if_neg hcaps, if_pos hshift, if_neg fun h => h.2.2.2 hshift]
    rfl
  by_cases hrelease : (scancode = 0xAA ∨ scancode = 0xB6) ∧ m.seen.isShift
  · have hhigh : ¬scancode < 0x80 := by rcases hrelease.1 with rfl | rfl <;> decide
    rw [if_neg hcaps, if_neg hshift, if_pos hrelease, if_neg fun h => hhigh h.2.1]
    rfl
  rw [if_neg hcaps, if_neg hshift, if_neg hrelease]
  by_cases hon : m.seen.keyboardInputOn ∧ scancode < 0x80
  · have hh : m.keyboard.Handles scancode := ⟨hon.1, hon.2, hcaps, hshift⟩
    rw [if_pos hon, if_pos hh]
    split_ifs with hb ha he
    · rw [backspace_buffer, hb, hback]
    · have hmem : scancode ∈ [0x2A, 0x36, 0x3A, 0x4B, 0x4D] := by
        rcases ha with rfl | rfl <;> decide
      exact (hnone scancode hmem).symm
    · rw [he, henter]
      rfl
    · exact typeKey_buffer scancode _ _ _
  · rw [if_neg hon, if_neg fun h => hon ⟨h.1, h.2.1⟩]
    rfl

/-- A key without a character leaves the screen alone. -/
theorem typeKey_quiet (h : scancode ≠ 0 ∧ k.toAscii scancode = 0) (cursor : Cursor)
    (s : Framebuffer) : (typeKey scancode cursor k s).framebuffer = s := by
  unfold typeKey
  exact congrArg Console.framebuffer (if_pos h)

/-- What a key does to the screen, were there no modifiers and no arrows. -/
def Console.written (m : Console) (scancode : UInt8) : Framebuffer :=
  let cursor := framebufferGetCursor m.framebuffer
  if m.keyboard.keyboardInputOn ∧ scancode < 0x80 then
    if scancode = 0x0E then (backspace cursor m.seen m.framebuffer).framebuffer
    else if scancode = 0x1C then (enter cursor m.seen m.framebuffer).framebuffer
    else (typeKey scancode cursor m.seen m.framebuffer).framebuffer
  else m.framebuffer

/-- They write as little as any other key without a character. -/
theorem written_special (h : scancode ∈ [0x2A, 0x36, 0x3A, 0x4B, 0x4D]) (m : Console) :
    m.written scancode = m.framebuffer := by
  have hne : scancode ≠ 0 ∧ scancode ≠ 0x0E ∧ scancode ≠ 0x1C := by
    refine ⟨?_, ?_, ?_⟩ <;> rintro rfl <;> revert h <;> decide
  obtain ⟨hzero, hback, henter⟩ := hne
  unfold Console.written
  dsimp only
  split_ifs
  · exact typeKey_quiet ⟨hzero, (toAscii_special m.seen).2.2 scancode h⟩ _ _
  · rfl

/-- **What the handler writes.** -/
theorem keyboardIsr_framebuffer (scancode : UInt8) (m : Console) :
    (keyboardIsr scancode m).framebuffer = m.written scancode := by
  have hoff : ¬(m.seen.keyboardInputOn ∧ scancode < 0x80) → m.written scancode = m.framebuffer :=
    fun hoff => if_neg hoff
  unfold keyboardIsr
  dsimp only
  by_cases hcaps : scancode = 0x3A
  · rw [if_pos hcaps, written_special (by rw [hcaps]; decide)]
  by_cases hshift : (scancode = 0x2A ∨ scancode = 0x36) ∧ !m.seen.isShift
  · rw [if_neg hcaps, if_pos hshift,
      written_special (by rcases hshift.1 with rfl | rfl <;> decide)]
  by_cases hrelease : (scancode = 0xAA ∨ scancode = 0xB6) ∧ m.seen.isShift
  · have hhigh : ¬scancode < 0x80 := by rcases hrelease.1 with rfl | rfl <;> decide
    rw [if_neg hcaps, if_neg hshift, if_pos hrelease, hoff fun hon => hhigh hon.2]
  rw [if_neg hcaps, if_neg hshift, if_neg hrelease]
  by_cases hon : m.seen.keyboardInputOn ∧ scancode < 0x80
  · rw [if_pos hon]
    by_cases harrow : scancode = 0x4B ∨ scancode = 0x4D
    · have hback : scancode ≠ 0x0E := by rcases harrow with rfl | rfl <;> decide
      rw [if_neg hback, if_pos harrow,
        written_special (by rcases harrow with rfl | rfl <;> decide)]
    · rw [if_neg harrow, apply_ite Console.framebuffer, apply_ite Console.framebuffer]
      exact (if_pos hon).symm
  · rw [if_neg hon, hoff hon]

end Screen
end Jatos
