/-
# Two writers of one screen

`puts` and the keyboard's handler write to the screen from two cursors.  That of
`puts` never leaves it, for it clears the screen behind row 23.  The handler has
no such limit: in the last row of the 25, the enter key and a character in the
last column take its cursor off the screen.

The two interrupt no one another, so a run is a list of events.
-/

import Jatos.Foundation.Runs
import Jatos.Screen.Keyboard

namespace Jatos
namespace Screen

variable {m m' : Console} {k : Keyboard} {s : Framebuffer} {scancode : UInt8} {e : Event}

/-- What happens to the screen and the keyboard. -/
inductive Event
  | puts (str : List UInt8) (color : UInt8)
  | clear
  | key (scancode : UInt8)
  | poll
  deriving DecidableEq

/-- What comes of it: the character of a key, 0 if it has none, and that which a poll
gets. -/
inductive Output
  | done
  | key (c : UInt8)
  | polled (c : UInt8)
  deriving DecidableEq

/-- The character that the handler takes from a key. -/
def Keyboard.accepted (k : Keyboard) (scancode : UInt8) : UInt8 :=
  if k.Handles scancode then k.toAscii scancode else 0

/-- One event. -/
def handle : Event → Console → Option (Output × Console)
  | .puts str color, m => some (.done, { m with framebuffer := puts str color m.framebuffer })
  | .clear, m => some (.done, { m with framebuffer := framebufferClear m.framebuffer })
  | .key scancode, m => some (.key (m.keyboard.accepted scancode), keyboardIsr scancode m)
  | .poll, m => some (.polled (getKeyboardBuffer m).1, (getKeyboardBuffer m).2)

/-- The screen is in order behind the event. -/
def StaysOnScreen (m : Console) (e : Event) : Prop := ∃ r ∈ handle e m, OnScreen r.2.framebuffer

/-- The handler's cursor can go on: in row 24 it is not the enter key, and in the last
cell of the screen no key that prints a character, as scancode 0 does. -/
def HasRoom (m : Console) : Event → Prop
  | .key scancode =>
      let cursor := framebufferGetCursor m.framebuffer
      m.keyboard.keyboardInputOn → scancode < 0x80 → scancode ≠ 0x0E → cursor.row = 24 →
        scancode ≠ 0x1C ∧ (cursor.col = 79 → scancode ≠ 0 ∧ m.keyboard.toAscii scancode = 0)
  | .puts _ _ => True
  | .clear => True
  | .poll => True

instance : Decidable (StaysOnScreen m e) :=
  inferInstanceAs (Decidable (∃ r ∈ handle e m, OnScreen r.2.framebuffer))

instance : (e : Event) → Decidable (HasRoom m e)
  | .key scancode => inferInstanceAs (Decidable (m.keyboard.keyboardInputOn → scancode < 0x80 →
      scancode ≠ 0x0E → (framebufferGetCursor m.framebuffer).row = 24 → scancode ≠ 0x1C ∧
        ((framebufferGetCursor m.framebuffer).col = 79 →
          scancode ≠ 0 ∧ m.keyboard.toAscii scancode = 0)))
  | .puts _ _ => isTrue trivial
  | .clear => isTrue trivial
  | .poll => isTrue trivial

/-! ### The keys -/

/-- The cursor on the screen is on the screen. -/
theorem shown_bounds (h : OnScreen s) :
    (0 ≤ (framebufferGetCursor s).row ∧ (framebufferGetCursor s).row ≤ 24) ∧
      0 ≤ (framebufferGetCursor s).col ∧ (framebufferGetCursor s).col ≤ 79 := by
  have hcell := cell_nonneg s
  have hshown := h.shown
  rw [getCursor_eq] at hshown ⊢
  dsimp only at hshown ⊢
  omega

/-- Erasing a character leaves everything on the screen. -/
theorem onScreen_backspace (h : OnScreen s) (k : Keyboard) :
    OnScreen (backspace (framebufferGetCursor s) k s).framebuffer := by
  obtain ⟨hrow, hcol⟩ := shown_bounds h
  -- the cell that is cleared is shown
  have key : ∀ row col : ℤ, 0 ≤ row ∧ row < 256 → 0 ≤ col ∧ col < 256 → row * 80 + col < 2000 →
      OnScreen (showCursor ⟨row, col⟩ (writeAt ⟨row, col⟩ 0 0xF 0 s)) := by
    intro row col hr hc hcell
    exact (onScreen_showCursor (onScreen_writeAt h hr hc hcell 0 0xF 0) hr hc).2 hcell
  unfold backspace
  dsimp only
  by_cases hback : (framebufferGetCursor s).col > 0 ∧ (framebufferGetCursor s).col ≤ 79
  · rw [if_pos hback]
    exact key _ _ ⟨hrow.1, by omega⟩ ⟨by omega, by omega⟩ (by omega)
  · rw [if_neg hback]
    split_ifs with hup
    · exact key _ _ ⟨by omega, by omega⟩ (by decide) (by omega)
    · exact (onScreen_showCursor h ⟨hrow.1, by omega⟩ ⟨hcol.1, by omega⟩).2 (by omega)

/-- The enter key goes to the next row, of which there is none behind row 24. -/
theorem onScreen_enter (h : OnScreen s) (k : Keyboard) :
    OnScreen (enter (framebufferGetCursor s) k s).framebuffer ↔
      (framebufferGetCursor s).row ≠ 24 := by
  obtain ⟨hrow, -⟩ := shown_bounds h
  refine (onScreen_showCursor h ⟨by omega, by omega⟩ (by decide)).trans ?_
  omega

/-- A character goes to the next cell, of which there is none behind the last. -/
theorem onScreen_typeKey (h : OnScreen s) (scancode : UInt8) (k : Keyboard) :
    OnScreen (typeKey scancode (framebufferGetCursor s) k s).framebuffer ↔
      ((framebufferGetCursor s).row = 24 → (framebufferGetCursor s).col = 79 →
        scancode ≠ 0 ∧ k.toAscii scancode = 0) := by
  obtain ⟨hrow, hcol⟩ := shown_bounds h
  have hw : OnScreen (writeAt (framebufferGetCursor s) (k.toAscii scancode) 0xF 0 s) :=
    onScreen_writeAt h ⟨hrow.1, by omega⟩ ⟨hcol.1, by omega⟩ (by omega) _ _ _
  unfold typeKey
  dsimp only
  by_cases hnone : scancode ≠ 0 ∧ k.toAscii scancode = 0
  · rw [if_pos hnone]
    exact iff_of_true h fun _ _ => hnone
  · rw [if_neg hnone]
    have hlast : ((framebufferGetCursor s).row = 24 → (framebufferGetCursor s).col = 79 →
        scancode ≠ 0 ∧ k.toAscii scancode = 0) ↔
        ¬((framebufferGetCursor s).row = 24 ∧ (framebufferGetCursor s).col = 79) :=
      ⟨fun hl hc => hnone (hl hc.1 hc.2), fun hl h₁ h₂ => absurd ⟨h₁, h₂⟩ hl⟩
    rw [hlast]
    by_cases hwrap : (framebufferGetCursor s).col + 1 ≥ 80
    · rw [if_pos hwrap]
      refine (onScreen_showCursor hw ⟨by omega, by omega⟩ (by decide)).trans ?_
      omega
    · rw [if_neg hwrap]
      refine (onScreen_showCursor hw ⟨hrow.1, by omega⟩ ⟨by omega, by omega⟩).trans ?_
      omega

/-- **The handler** stays on the screen just when its cursor has room. -/
theorem onScreen_keyboardIsr (h : OnScreen m.framebuffer) (scancode : UInt8) :
    OnScreen (keyboardIsr scancode m).framebuffer ↔ HasRoom m (.key scancode) := by
  rw [keyboardIsr_framebuffer, Console.written]
  by_cases hon : m.keyboard.keyboardInputOn ∧ scancode < 0x80
  · rw [if_pos hon]
    by_cases hback : scancode = 0x0E
    · rw [if_pos hback]
      exact iff_of_true (onScreen_backspace h _) fun _ _ hne => absurd hback hne
    rw [if_neg hback]
    by_cases hent : scancode = 0x1C
    · rw [if_pos hent, onScreen_enter h]
      exact ⟨fun hrow _ _ _ h24 => absurd h24 hrow,
        fun hroom h24 => (hroom hon.1 hon.2 hback h24).1 hent⟩
    · rw [if_neg hent, onScreen_typeKey h]
      exact ⟨fun hlast _ _ _ h24 => ⟨hent, hlast h24⟩,
        fun hroom h24 => (hroom hon.1 hon.2 hback h24).2⟩
  · rw [if_neg hon]
    exact iff_of_true h fun hin hlt => absurd ⟨hin, hlt⟩ hon

/-! ### Runs -/

/-- An event stays on the screen if and only if it has room. -/
theorem staysOnScreen_iff (h : OnScreen m.framebuffer) (e : Event) :
    StaysOnScreen m e ↔ HasRoom m e := by
  have hstays : ∀ {o m'}, handle e m = some (o, m') →
      (StaysOnScreen m e ↔ OnScreen m'.framebuffer) := by
    intro o m' he
    unfold StaysOnScreen
    rw [he]
    simp
  cases e with
  | puts str color => exact (hstays rfl).trans (iff_of_true (onScreen_puts h) trivial)
  | clear => exact (hstays rfl).trans (iff_of_true (onScreen_clear h) trivial)
  | key scancode => exact (hstays rfl).trans (onScreen_keyboardIsr h scancode)
  | poll => exact (hstays rfl).trans (iff_of_true h trivial)

/-- At the boot everything is on the screen. -/
theorem onScreen_boot : OnScreen Console.boot.framebuffer := by decide

/-- **The screen is kept** in just the runs in which the keys find room.  The run starts
from the boot with the keyboard's input on. -/
theorem on_screen_iff (events : List Event) :
    OnScreen (keyboardStateActivate .boot).framebuffer ∧
      (Runs.Guarded handle StaysOnScreen events (keyboardStateActivate .boot) ↔
        Runs.Guarded handle HasRoom events (keyboardStateActivate .boot)) := by
  refine ⟨onScreen_boot, ?_⟩
  have hdom : Runs.Guarded handle (fun _ _ => True) events (keyboardStateActivate .boot) :=
    Runs.guarded_true
  refine Runs.guarded_iff (fun m e (h : OnScreen m.framebuffer) _ => staysOnScreen_iff h e)
    (fun m e o m' h _ hs he => ?_) onScreen_boot hdom
  obtain ⟨r, hr, hscreen⟩ := hs
  obtain rfl : (o, m') = r := Option.some.inj (he.symm.trans hr)
  exact hscreen

/-- 25 times the enter key. -/
theorem not_on_screen_sample :
    ¬Runs.Guarded handle StaysOnScreen (List.replicate 25 (.key 0x1C))
      (keyboardStateActivate .boot) := by
  decide +kernel

end Screen
end Jatos
