/-
# The modifier keys

`keyboard_isr` keeps one flag for the two shift keys: the press of either sets it,
the release of either clears it.  `Keys` is what a typist does: which of the three
modifier keys are down, and how often caps lock went down.  The flags follow the
keys as long as no shift key is released while the other one is down
(`modifiers_follow_iff`); such a release clears the flag, and what is typed with the
other shift key down comes from the map without shift.
-/

import Jatos.Foundation.Runs
import Jatos.Screen.Keyboard

namespace Jatos
namespace Screen

variable {m m' : Console} {keys : Keys} {scancode : UInt8} {scancodes : List UInt8}

/-- The modifier keys that are down, and the presses of caps lock. -/
structure Keys where
  left : Bool
  right : Bool
  caps : Bool
  presses : ℕ

namespace Keys

/-- No key is down. -/
def start : Keys := ⟨false, false, false, 0⟩

/-- A shift key is down. -/
def shift (keys : Keys) : Bool := keys.left || keys.right

/-- Caps lock is on: it was pressed an odd number of times. -/
def capsLock (keys : Keys) : Bool := keys.presses % 2 = 1

/-- A press, or a release, as its scancode tells it.  The other keys, whose scancodes
are all the other bytes, are not followed. -/
def next (keys : Keys) (scancode : UInt8) : Keys :=
  if scancode = 0x2A then { keys with left := true }
  else if scancode = 0xAA then { keys with left := false }
  else if scancode = 0x36 then { keys with right := true }
  else if scancode = 0xB6 then { keys with right := false }
  else if scancode = 0x3A then { keys with caps := true, presses := keys.presses + 1 }
  else if scancode = 0xBA then { keys with caps := false }
  else keys

/-- What a keyboard sends: a modifier key is released when it is down, and caps lock,
which does not repeat, is pressed when it is up. -/
def Legal (keys : Keys) (scancode : UInt8) : Prop :=
  (scancode = 0xAA → keys.left) ∧ (scancode = 0xB6 → keys.right) ∧
    (scancode = 0x3A → !keys.caps) ∧ (scancode = 0xBA → keys.caps)

/-- No shift key is released while the other one is down. -/
def Alone (keys : Keys) (scancode : UInt8) : Prop :=
  (scancode = 0xAA → !keys.right) ∧ (scancode = 0xB6 → !keys.left)

instance : Decidable (keys.Legal scancode) := inferInstanceAs (Decidable (_ ∧ _ ∧ _ ∧ _))

instance : Decidable (keys.Alone scancode) := inferInstanceAs (Decidable (_ ∧ _))

/-- The character of a scancode in the map that the keys select. -/
def toAscii (keys : Keys) (k : Keyboard) (scancode : UInt8) : UInt8 :=
  Keyboard.toAscii { k with isShift := keys.shift, isCapsLock := keys.capsLock } scancode

/-- The flags say what the keys are. -/
structure Tracked (keys : Keys) (m : Console) : Prop where
  shift : m.keyboard.isShift = keys.shift
  capsLock : m.keyboard.isCapsLock = keys.capsLock

end Keys

/-- The handler takes a scancode that the keyboard sends. -/
def send (scancode : UInt8) (x : Console × Keys) : Option (Unit × Console × Keys) :=
  some ((), keyboardIsr scancode x.1, x.2.next scancode)

/-- The scancode is that of a key with a character, and the handler takes characters. -/
def Types (m : Console) (scancode : UInt8) : Prop :=
  m.keyboard.keyboardInputOn ∧ scancode < 0x80 ∧
    scancode ≠ 0x2A ∧ scancode ≠ 0x36 ∧ scancode ≠ 0x3A

/-- Behind a scancode the flags say what the keys are, and a character that it delivers
came from the map that they select; no other character is delivered. -/
structure Follows (x : Console × Keys) (scancode : UInt8) : Prop where
  tracked : (x.2.next scancode).Tracked (keyboardIsr scancode x.1)
  typed : Types x.1 scancode → (keyboardIsr scancode x.1).keyboard.keyboardBuffer =
    (x.2.next scancode).toAscii x.1.keyboard scancode
  untyped : ¬Types x.1 scancode →
    (keyboardIsr scancode x.1).keyboard.keyboardBuffer = x.1.keyboard.keyboardBuffer ∨
      (keyboardIsr scancode x.1).keyboard.keyboardBuffer = 0

/-! ### The flags -/

/-- Erasing leaves the modifiers alone. -/
theorem backspace_flags (cursor : Cursor) (k : Keyboard) (s : Framebuffer) :
    (backspace cursor k s).keyboard.isShift = k.isShift ∧
      (backspace cursor k s).keyboard.isCapsLock = k.isCapsLock := by
  unfold backspace
  dsimp only
  split_ifs <;> exact ⟨rfl, rfl⟩

/-- Typing a character leaves the modifiers alone. -/
theorem typeKey_flags (scancode : UInt8) (cursor : Cursor) (k : Keyboard) (s : Framebuffer) :
    (typeKey scancode cursor k s).keyboard.isShift = k.isShift ∧
      (typeKey scancode cursor k s).keyboard.isCapsLock = k.isCapsLock := by
  unfold typeKey
  dsimp only
  split_ifs <;> exact ⟨rfl, rfl⟩

/-- **What a scancode does to the flags.** -/
theorem keyboardIsr_flags (scancode : UInt8) (m : Console) :
    (keyboardIsr scancode m).keyboard.isShift =
        (if scancode = 0x2A ∨ scancode = 0x36 then true
        else if scancode = 0xAA ∨ scancode = 0xB6 then false else m.keyboard.isShift) ∧
      (keyboardIsr scancode m).keyboard.isCapsLock =
        if scancode = 0x3A then !m.keyboard.isCapsLock else m.keyboard.isCapsLock := by
  have hseen : m.seen.isShift = m.keyboard.isShift ∧ m.seen.isCapsLock = m.keyboard.isCapsLock :=
    ⟨rfl, rfl⟩
  unfold keyboardIsr
  dsimp only
  by_cases hcaps : scancode = 0x3A
  · subst hcaps
    exact ⟨rfl, rfl⟩
  rw [if_neg hcaps, if_neg hcaps]
  by_cases hshift : (scancode = 0x2A ∨ scancode = 0x36) ∧ !m.seen.isShift
  · rw [if_pos hshift, if_pos hshift.1]
    exact ⟨rfl, rfl⟩
  by_cases hrelease : (scancode = 0xAA ∨ scancode = 0xB6) ∧ m.seen.isShift
  · have hpress : ¬(scancode = 0x2A ∨ scancode = 0x36) := by
      rcases hrelease.1 with rfl | rfl <;> decide
    rw [if_neg hshift, if_pos hrelease, if_neg hpress, if_pos hrelease.1]
    exact ⟨rfl, rfl⟩
  rw [if_neg hshift, if_neg hrelease]
  -- the rest of the handler leaves the flags alone, and here they are as they should be
  have hrest : m.keyboard.isShift = if scancode = 0x2A ∨ scancode = 0x36 then true
      else if scancode = 0xAA ∨ scancode = 0xB6 then false else m.keyboard.isShift := by
    rw [hseen.1] at hshift hrelease
    split_ifs with h h'
    · simpa [h] using hshift
    · simpa [h'] using hrelease
    · rfl
  rw [← hrest]
  have hback := backspace_flags (framebufferGetCursor m.framebuffer) m.seen m.framebuffer
  have htype := typeKey_flags scancode (framebufferGetCursor m.framebuffer) m.seen m.framebuffer
  split_ifs
  · exact ⟨hback.1, hback.2⟩
  · exact hseen
  · exact hseen
  · exact ⟨htype.1, htype.2⟩
  · exact hseen

/-! ### One scancode -/

/-- The caps lock flag always follows. -/
theorem Keys.Tracked.capsLock_next (h : keys.Tracked m) (scancode : UInt8) :
    (keyboardIsr scancode m).keyboard.isCapsLock = (keys.next scancode).capsLock := by
  rw [(keyboardIsr_flags scancode m).2, h.capsLock]
  unfold Keys.next Keys.capsLock
  by_cases hcaps : scancode = 0x3A
  · subst hcaps
    rcases Nat.mod_two_eq_zero_or_one keys.presses with h0 | h1
    · simp [h0, Nat.add_mod]
    · simp [h1, Nat.add_mod]
  · rw [if_neg hcaps]
    split_ifs <;> rfl

/-- **When the shift flag follows.** -/
theorem Keys.Tracked.shift_next (h : keys.Tracked m) (hl : keys.Legal scancode) :
    (keyboardIsr scancode m).keyboard.isShift = (keys.next scancode).shift ↔
      keys.Alone scancode := by
  rw [(keyboardIsr_flags scancode m).1, h.shift]
  obtain ⟨hleft, hright, -⟩ := hl
  unfold Keys.next Keys.shift Keys.Alone
  by_cases h₁ : scancode = 0x2A
  · subst h₁
    simp
  by_cases h₂ : scancode = 0x36
  · subst h₂
    simp
  by_cases h₃ : scancode = 0xAA
  · subst h₃
    simp
  by_cases h₄ : scancode = 0xB6
  · subst h₄
    simp
  simp only [h₁, h₂, h₃, h₄, or_self, if_false, false_implies, and_self, iff_true]
  split_ifs <;> rfl

/-- While the keys are followed, characters come from their map. -/
theorem Keys.Tracked.toAscii_eq (h : keys.Tracked m) (scancode : UInt8) :
    m.keyboard.toAscii scancode = keys.toAscii m.keyboard scancode := by
  rw [Keys.toAscii, ← h.shift, ← h.capsLock]

/-- **One scancode** of a legal history. -/
theorem follows_iff (h : keys.Tracked m) (hl : keys.Legal scancode) :
    Follows (m, keys) scancode ↔ keys.Alone scancode := by
  constructor
  · intro hf
    exact (h.shift_next hl).1 hf.tracked.shift
  · intro ha
    refine ⟨⟨(h.shift_next hl).2 ha, h.capsLock_next scancode⟩, fun ht => ?_, fun ht => ?_⟩
    · obtain ⟨hon, hlow, h₁, h₂, h₃⟩ := ht
      have hhandles : m.keyboard.Handles scancode :=
        ⟨hon, hlow, h₃, fun h => h.1.elim h₁ h₂⟩
      have hnext : keys.next scancode = keys := by
        have hhigh : scancode ≠ 0xAA ∧ scancode ≠ 0xB6 ∧ scancode ≠ 0xBA := by
          refine ⟨?_, ?_, ?_⟩ <;> rintro rfl <;> revert hlow <;> decide
        simp [Keys.next, h₁, h₂, h₃, hhigh]
      rw [keyboardIsr_buffer, if_pos hhandles, hnext]
      exact h.toAscii_eq scancode
    · rw [keyboardIsr_buffer]
      split_ifs with hh
      · obtain ⟨-, -, hnone⟩ := toAscii_special m.keyboard
        refine Or.inr (hnone scancode ?_)
        by_contra hmem
        refine ht ⟨hh.1, hh.2.1, ?_, ?_, hh.2.2.1⟩ <;> rintro rfl <;> exact hmem (by decide)
      · exact Or.inl rfl

/-! ### Histories -/

/-- **When the modifiers follow the keys.**  In a legal history from the start, the
flags say what the keys are after every scancode, and every character comes from the
map that they select, if and only if no shift key is released while the other one is
down. -/
theorem modifiers_follow_iff (hs : m.keyboard.isShift = false) (hc : m.keyboard.isCapsLock = false)
    (hl : Runs.Guarded send (fun x scancode => x.2.Legal scancode) scancodes (m, Keys.start)) :
    Runs.Guarded send Follows scancodes (m, Keys.start) ↔
      Runs.Guarded send (fun x scancode => x.2.Alone scancode) scancodes (m, Keys.start) := by
  have hkeep : ∀ (x : Console × Keys) scancode o x', x.2.Tracked x.1 → x.2.Legal scancode →
      Follows x scancode → send scancode x = some (o, x') → x'.2.Tracked x'.1 := by
    intro x scancode o x' _ _ hf hx
    obtain ⟨-, rfl⟩ := Prod.mk.inj (Option.some.inj hx)
    exact hf.tracked
  have hiff : ∀ (x : Console × Keys) scancode, x.2.Tracked x.1 → x.2.Legal scancode →
      (Follows x scancode ↔ x.2.Alone scancode) := fun x scancode h hl => follows_iff h hl
  exact Runs.guarded_iff hiff hkeep ⟨hs, hc⟩ hl

/-- A shift key is pressed and released, and a letter is typed. -/
theorem modifiers_follow_iff_sample :
    Runs.Guarded send Follows [0x2A, 0x1E, 0xAA, 0x1E] (Console.boot, Keys.start) ↔
      Runs.Guarded send (fun x scancode => x.2.Alone scancode) [0x2A, 0x1E, 0xAA, 0x1E]
        (Console.boot, Keys.start) :=
  modifiers_follow_iff rfl rfl (by decide)

/-- The left shift key goes down, the right one too, and the left one up: the history is
legal, the right shift key is down and the flag is not set, and the next letter is a
small one. -/
theorem modifiers_lost_sample :
    Runs.Guarded send (fun x scancode => x.2.Legal scancode) [0x2A, 0x36, 0xAA, 0x1E]
        (keyboardStateActivate Console.boot, Keys.start) ∧
      ¬Runs.Guarded send Follows [0x2A, 0x36, 0xAA, 0x1E]
        (keyboardStateActivate Console.boot, Keys.start) ∧
      (Runs.run send [0x2A, 0x36, 0xAA, 0x1E]
        (keyboardStateActivate Console.boot, Keys.start)).map (fun x =>
          (x.2.2.shift, x.2.1.keyboard.isShift, x.2.1.keyboard.keyboardBuffer)) =
        some (true, false, 0x61) := by
  have hl : Runs.Guarded send (fun x scancode => x.2.Legal scancode) [0x2A, 0x36, 0xAA, 0x1E]
      (keyboardStateActivate Console.boot, Keys.start) := by decide
  refine ⟨hl, fun hf => ?_, by decide⟩
  obtain ⟨-, h₁⟩ := hf
  obtain ⟨-, h₂⟩ := h₁ _ _ rfl
  obtain ⟨h₃, -⟩ := h₂ _ _ rfl
  exact absurd h₃.tracked.shift (by decide)

end Screen
end Jatos
