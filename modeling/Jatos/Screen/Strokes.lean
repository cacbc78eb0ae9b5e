/-
# How a character is typed

`strokes` are the scancodes with which a typist gives a character: those of its key, or
of its key while the left shift key is down, whichever of the two maps has it.  In
either state of caps lock every character that any key gives in any state of the
modifiers has strokes (`strokes_isSome_iff`), and they leave it in the keyboard's buffer
(`strokes_spec`).
-/

import Jatos.Screen.Modifiers

namespace Jatos
namespace Screen

/-- The map for a state of shift and caps lock. -/
def mapOf (isShift isCapsLock : Bool) : List UInt8 :=
  (⟨true, 0, isShift, isCapsLock, 0, 0⟩ : Keyboard).toAsciiMap

/-- The key that has a character. -/
def keyOf (isShift isCapsLock : Bool) (c : UInt8) : Option UInt8 :=
  ((mapOf isShift isCapsLock).idxOf? c).map UInt8.ofNat

/-- A press and the release. -/
def press (scancode : UInt8) : List UInt8 := [scancode, scancode + 0x80]

/-- The scancodes that a typist gives for a character. -/
def strokes (isCapsLock : Bool) (c : UInt8) : Option (List UInt8) :=
  match keyOf false isCapsLock c with
  | some scancode => some (press scancode)
  | none => (keyOf true isCapsLock c).map fun scancode => 0x2A :: press scancode ++ [0xAA]

/-- The handler takes scancodes one after the other. -/
def Console.strike (m : Console) (scancodes : List UInt8) : Console :=
  scancodes.foldl (fun m scancode => keyboardIsr scancode m) m

/-- The keyboard's input is on, and no shift key is down. -/
structure Console.Ready (m : Console) (isCapsLock : Bool) : Prop where
  on : m.keyboard.keyboardInputOn = true
  shift : m.keyboard.isShift = false
  capsLock : m.keyboard.isCapsLock = isCapsLock

variable {m : Console} {k : Keyboard} {isShift isCapsLock : Bool} {scancode c : UInt8}
  {scancodes : List UInt8}

/-- No strokes do nothing. -/
@[simp] theorem strike_nil (m : Console) : m.strike [] = m := rfl

/-- The first stroke comes first. -/
@[simp] theorem strike_cons (m : Console) (scancode : UInt8) (scancodes : List UInt8) :
    m.strike (scancode :: scancodes) = (keyboardIsr scancode m).strike scancodes := rfl

/-- Strokes one after another are their texts one after another. -/
@[simp] theorem strike_append (m : Console) (scancodes scancodes' : List UInt8) :
    m.strike (scancodes ++ scancodes') = (m.strike scancodes).strike scancodes' :=
  List.foldl_append

/-- The table in use depends on the two modifiers. -/
theorem Keyboard.toAsciiMap_eq (k : Keyboard) : k.toAsciiMap = mapOf k.isShift k.isCapsLock := rfl

/-- Erasing leaves the keyboard switched on or off. -/
theorem backspace_on (cursor : Cursor) (k : Keyboard) (s : Framebuffer) :
    (backspace cursor k s).keyboard.keyboardInputOn = k.keyboardInputOn := by
  unfold backspace
  dsimp only
  split_ifs <;> rfl

/-- Typing a character leaves the keyboard switched on or off. -/
theorem typeKey_on (scancode : UInt8) (cursor : Cursor) (k : Keyboard) (s : Framebuffer) :
    (typeKey scancode cursor k s).keyboard.keyboardInputOn = k.keyboardInputOn := by
  unfold typeKey
  dsimp only
  split_ifs <;> rfl

/-- No key turns the input off. -/
theorem keyboardIsr_on (scancode : UInt8) (m : Console) :
    (keyboardIsr scancode m).keyboard.keyboardInputOn = m.keyboard.keyboardInputOn := by
  have hseen : m.seen.keyboardInputOn = m.keyboard.keyboardInputOn := rfl
  unfold keyboardIsr
  dsimp only
  split_ifs
  all_goals first | exact hseen | exact (backspace_on _ _ _).trans hseen |
    exact (typeKey_on _ _ _ _).trans hseen

/-- The tables have no key from 0x4F on. -/
theorem mapOf_length (isShift isCapsLock : Bool) : (mapOf isShift isCapsLock).length ≤ 0x4F := by
  revert isShift isCapsLock
  decide

/-- The key of a character has it, and is no modifier. -/
theorem keyOf_spec (h : keyOf isShift isCapsLock c = some scancode) (hc : c ≠ 0) :
    scancode < 0x4F ∧ scancode ∉ [0x2A, 0x36, 0x3A] ∧
      (mapOf isShift isCapsLock).getD scancode.toNat 0 = c := by
  obtain ⟨i, hi, rfl⟩ := Option.map_eq_some_iff.1 h
  obtain ⟨hlt, hget, -⟩ := List.idxOf?_eq_some_iff.1 hi
  have hlength := mapOf_length isShift isCapsLock
  have hnat : (UInt8.ofNat i).toNat = i := by
    rw [UInt8.toNat_ofNat']
    omega
  have hchar : (mapOf isShift isCapsLock).getD (UInt8.ofNat i).toNat 0 = c := by
    rw [hnat, List.getD_eq_getElem?_getD, List.getElem?_eq_getElem hlt, hget, Option.getD_some]
  refine ⟨UInt8.lt_iff_toNat_lt.2 (by rw [hnat]; exact hlt.trans_le hlength), fun hmem => hc ?_,
    hchar⟩
  have hspecial : UInt8.ofNat i ∈ [0x2A, 0x36, 0x3A, 0x4B, 0x4D] :=
    List.mem_append_left [0x4B, 0x4D] hmem
  have hnone := (toAscii_special ⟨true, 0, isShift, isCapsLock, 0, 0⟩).2.2 _ hspecial
  rw [← hchar]
  exact hnone

/-- A character can be typed if and only if one of the two tables has it. -/
theorem strokes_isSome (isCapsLock : Bool) (c : UInt8) : (strokes isCapsLock c).isSome ↔
    c ∈ mapOf false isCapsLock ∨ c ∈ mapOf true isCapsLock := by
  have hkey : ∀ isShift, (keyOf isShift isCapsLock c).isSome ↔ c ∈ mapOf isShift isCapsLock := by
    intro isShift
    rw [keyOf, Option.isSome_map, List.isSome_idxOf?]
  rw [← hkey, ← hkey, strokes]
  cases keyOf false isCapsLock c with
  | some scancode => simp
  | none => simp

/-- Shift gives the letters that caps lock gives. -/
theorem mapOf_swap (isShift isCapsLock : Bool) (hc : c ∈ mapOf isShift !isCapsLock) :
    c ∈ mapOf false isCapsLock ∨ c ∈ mapOf true isCapsLock := by
  have hall : ∀ isShift isCapsLock, ∀ c ∈ mapOf isShift !isCapsLock,
      c ∈ mapOf false isCapsLock ∨ c ∈ mapOf true isCapsLock := by
    decide +kernel
  exact hall isShift isCapsLock c hc

/-- **Every character has strokes** that a key has in some state of the modifiers. -/
theorem strokes_isSome_iff (isCapsLock : Bool) (hc : c ≠ 0) :
    (strokes isCapsLock c).isSome ↔ ∃ k : Keyboard, ∃ scancode, k.toAscii scancode = c := by
  rw [strokes_isSome]
  constructor
  · have hof : ∀ isShift, c ∈ mapOf isShift isCapsLock →
        ∃ k : Keyboard, ∃ scancode, k.toAscii scancode = c := by
      intro isShift hmem
      obtain ⟨i, hi⟩ := Option.isSome_iff_exists.1 (List.isSome_idxOf?.2 hmem)
      have hkey : keyOf isShift isCapsLock c = some (UInt8.ofNat i) := by
        rw [keyOf, hi, Option.map_some]
      exact ⟨⟨true, 0, isShift, isCapsLock, 0, 0⟩, _, (keyOf_spec hkey hc).2.2⟩
    rintro (h | h)
    · exact hof false h
    · exact hof true h
  · rintro ⟨k, scancode, rfl⟩
    have hmem : k.toAscii scancode ∈ mapOf k.isShift k.isCapsLock := by
      rw [Keyboard.toAscii, Keyboard.toAsciiMap_eq, List.getD_eq_getElem?_getD] at hc ⊢
      cases hget : (mapOf k.isShift k.isCapsLock)[scancode.toNat]? with
      | none => exact absurd (by rw [hget, Option.getD_none]) hc
      | some c => exact List.mem_of_getElem? hget
    by_cases hcaps : k.isCapsLock = isCapsLock
    · rw [← hcaps]
      cases hshift : k.isShift with
      | false => exact Or.inl (hshift ▸ hmem)
      | true => exact Or.inr (hshift ▸ hmem)
    · rw [Bool.eq_not.2 hcaps] at hmem
      exact mapOf_swap _ _ hmem

/-! ### What strokes do -/

/-- A poll leaves the keyboard ready. -/
theorem Console.Ready.poll (h : m.Ready isCapsLock) : (getKeyboardBuffer m).2.Ready isCapsLock :=
  ⟨h.on, h.shift, h.capsLock⟩

/-- A scancode that is no modifier's leaves the flags alone. -/
theorem keyboardIsr_keeps (h : scancode ∉ [0x2A, 0x36, 0xAA, 0xB6, 0x3A]) (m : Console) :
    (keyboardIsr scancode m).keyboard.isShift = m.keyboard.isShift ∧
      (keyboardIsr scancode m).keyboard.isCapsLock = m.keyboard.isCapsLock := by
  simp only [List.mem_cons, List.not_mem_nil, or_false, not_or] at h
  obtain ⟨h₁, h₂, h₃, h₄, h₅⟩ := h
  obtain ⟨hshift, hcaps⟩ := keyboardIsr_flags scancode m
  rw [if_neg (not_or.2 ⟨h₁, h₂⟩), if_neg (not_or.2 ⟨h₃, h₄⟩)] at hshift
  rw [if_neg h₅] at hcaps
  exact ⟨hshift, hcaps⟩

/-- The release of a key is not that of a shift key, and stores nothing. -/
theorem release_spec (h : scancode < 0x4F) (hmod : scancode ∉ [0x2A, 0x36, 0x3A]) :
    scancode + 0x80 ∉ [0x2A, 0x36, 0xAA, 0xB6, 0x3A] ∧ ¬scancode + 0x80 < 0x80 := by
  have hnat : (scancode + 0x80).toNat = scancode.toNat + 128 := by
    have := UInt8.lt_iff_toNat_lt.1 h
    rw [UInt8.toNat_add]
    have h80 : (0x80 : UInt8).toNat = 128 := rfl
    have h4F : (0x4F : UInt8).toNat = 79 := rfl
    omega
  simp only [List.mem_cons, List.not_mem_nil, or_false, not_or, UInt8.lt_iff_toNat_lt,
    ← UInt8.toNat_inj, hnat] at hmod ⊢
  have hvalues : (0x2A : UInt8).toNat = 42 ∧ (0x36 : UInt8).toNat = 54 ∧
      (0xAA : UInt8).toNat = 170 ∧ (0xB6 : UInt8).toNat = 182 ∧ (0x3A : UInt8).toNat = 58 ∧
      (0x80 : UInt8).toNat = 128 := ⟨rfl, rfl, rfl, rfl, rfl, rfl⟩
  omega

/-- **A press of the key**, in the state of shift for which its map has the character. -/
theorem press_spec (hon : m.keyboard.keyboardInputOn = true)
    (hkey : keyOf m.keyboard.isShift m.keyboard.isCapsLock c = some scancode) (hc : c ≠ 0) :
    (m.strike (press scancode)).keyboard.keyboardInputOn = true ∧
      (m.strike (press scancode)).keyboard.isShift = m.keyboard.isShift ∧
      (m.strike (press scancode)).keyboard.isCapsLock = m.keyboard.isCapsLock ∧
      (m.strike (press scancode)).keyboard.keyboardBuffer = c := by
  obtain ⟨hlt, hmod, hchar⟩ := keyOf_spec hkey hc
  obtain ⟨hrel, hhigh⟩ := release_spec hlt hmod
  have hlow : scancode < 0x80 := UInt8.lt_trans hlt (by decide)
  have hplain : scancode ∉ [0x2A, 0x36, 0xAA, 0xB6, 0x3A] := by
    have hne : scancode ≠ 0xAA ∧ scancode ≠ 0xB6 := by
      constructor <;> rintro rfl <;> revert hlow <;> decide
    simp only [List.mem_cons, List.not_mem_nil, or_false, not_or] at hmod ⊢
    exact ⟨hmod.1, hmod.2.1, hne.1, hne.2, hmod.2.2⟩
  obtain ⟨hshift, hcaps⟩ := keyboardIsr_keeps hplain m
  obtain ⟨hshift', hcaps'⟩ := keyboardIsr_keeps hrel (keyboardIsr scancode m)
  have hhandles : m.keyboard.Handles scancode := by
    simp only [List.mem_cons, List.not_mem_nil, or_false, not_or] at hmod
    exact ⟨hon, hlow, hmod.2.2, fun h => h.1.elim hmod.1 hmod.2.1⟩
  have hstrike : m.strike (press scancode) =
      keyboardIsr (scancode + 0x80) (keyboardIsr scancode m) := by simp [press]
  rw [hstrike]
  refine ⟨?_, hshift'.trans hshift, hcaps'.trans hcaps, ?_⟩
  · rw [keyboardIsr_on, keyboardIsr_on, hon]
  · rw [keyboardIsr_buffer, if_neg fun h => hhigh h.2.1, keyboardIsr_buffer, if_pos hhandles]
    exact hchar

/-- **The strokes of a character** leave it in the buffer, and no shift key down. -/
theorem strokes_spec (hm : m.Ready isCapsLock) (hs : strokes isCapsLock c = some scancodes)
    (hc : c ≠ 0) : (m.strike scancodes).Ready isCapsLock ∧
      (m.strike scancodes).keyboard.keyboardBuffer = c := by
  obtain ⟨hon, hshift, rfl⟩ := hm
  unfold strokes at hs
  split at hs
  · rename_i scancode hkey
    obtain rfl := Option.some.inj hs
    obtain ⟨hon', hshift', hcaps, hbuffer⟩ := press_spec hon (hshift ▸ hkey) hc
    exact ⟨⟨hon', hshift'.trans hshift, hcaps⟩, hbuffer⟩
  · obtain ⟨scancode, hkey, rfl⟩ := Option.map_eq_some_iff.1 hs
    -- with the left shift key down
    obtain ⟨hdown, hsame⟩ := keyboardIsr_flags 0x2A m
    rw [if_pos (Or.inl rfl)] at hdown
    rw [if_neg (by decide)] at hsame
    have hon₁ := (keyboardIsr_on 0x2A m).trans hon
    rw [← hsame, ← hdown] at hkey
    obtain ⟨hon', hshift', hcaps, hbuffer⟩ := press_spec hon₁ hkey hc
    have hstrike : m.strike (0x2A :: press scancode ++ [0xAA]) =
        keyboardIsr 0xAA ((keyboardIsr 0x2A m).strike (press scancode)) := by simp
    obtain ⟨hup, hcaps'⟩ := keyboardIsr_flags 0xAA ((keyboardIsr 0x2A m).strike (press scancode))
    rw [if_neg (by decide), if_pos (Or.inl rfl)] at hup
    rw [if_neg (by decide)] at hcaps'
    rw [hstrike]
    refine ⟨⟨(keyboardIsr_on _ _).trans hon', hup, hcaps'.trans (hcaps.trans hsame)⟩, ?_⟩
    rw [keyboardIsr_buffer, if_neg fun h => absurd h.2.1 (by decide), hbuffer]

end Screen
end Jatos
