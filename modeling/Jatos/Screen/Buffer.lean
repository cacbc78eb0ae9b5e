/-
# The one character of the keyboard's buffer

The handler leaves the character of a key in `keyboard_buffer`, where a poll
takes it from.  The buffer holds one, and a key replaces what no poll has taken.
So what the polls get, and what is left for the next one, are the characters of
the keys but for those that another one replaces.

That is `Slot.run_kept`, for runs in which no key without a character comes on
one that waits: an arrow, a second shift or a key that the map leaves out stores
a 0 over it.
-/

import Jatos.Foundation.Slot
import Jatos.Screen.Console

namespace Jatos
namespace Screen

variable {m m' t : Console} {k : Keyboard} {scancode : UInt8} {e : Event} {o : Output}
  {events : List Event} {os : List Output}

/-- A character, of which 0 is none. -/
def character (c : UInt8) : Option UInt8 := if c = 0 then none else some c

/-- What the buffer holds. -/
def Console.pending (m : Console) : Option UInt8 := character m.keyboard.keyboardBuffer

/-- What a key stores for the next poll. -/
def Output.accepted : Output → Option UInt8
  | .key c => character c
  | .polled _ => none
  | .done => none

/-- What a poll gives. -/
def Output.got : Output → Option UInt8
  | .polled c => character c
  | .key _ => none
  | .done => none

/-- What the event does to the buffer. -/
def Output.op : Output → Option (Slot.Op UInt8)
  | .key c => (character c).map .put
  | .polled _ => some .take
  | .done => none

/-- The characters that the polls get, and the one that is left. -/
def delivered (os : List Output) (t : Console) : List UInt8 :=
  os.filterMap Output.got ++ t.pending.toList

/-- No key without a character comes on one that waits. -/
def NothingErased (m : Console) : Event → Prop
  | .key scancode =>
      m.keyboard.Handles scancode → m.keyboard.accepted scancode = 0 → m.pending = none
  | .puts _ _ => True
  | .clear => True
  | .poll => True

instance : (e : Event) → Decidable (NothingErased m e)
  | .key scancode => inferInstanceAs (Decidable (m.keyboard.Handles scancode →
      m.keyboard.accepted scancode = 0 → m.pending = none))
  | .puts _ _ => isTrue trivial
  | .clear => isTrue trivial
  | .poll => isTrue trivial

/-! ### One event -/

/-- Behind a key, its character waits if the handler got as far. -/
theorem pending_key (scancode : UInt8) (m : Console) :
    (keyboardIsr scancode m).pending =
      if m.keyboard.Handles scancode then character (m.keyboard.accepted scancode)
      else m.pending := by
  unfold Console.pending Keyboard.accepted
  rw [keyboardIsr_buffer]
  split_ifs <;> rfl

/-- A key that is not handled stores nothing. -/
theorem accepted_of_not_handles (h : ¬k.Handles scancode) : k.accepted scancode = 0 := if_neg h

/-- What a key stores: the character of its table, for a key pressed while the keyboard is
on. -/
theorem accepted_eq (k : Keyboard) (scancode : UInt8) : k.accepted scancode =
    if k.keyboardInputOn ∧ scancode < 0x80 then k.toAscii scancode else 0 := by
  obtain ⟨-, -, hnone⟩ := toAscii_special k
  by_cases hh : k.Handles scancode
  · rw [Keyboard.accepted, if_pos hh, if_pos ⟨hh.1, hh.2.1⟩]
  · rw [accepted_of_not_handles hh]
    split_ifs with hon
    · have hmem : scancode ∈ [0x2A, 0x36, 0x3A, 0x4B, 0x4D] := by
        by_cases hcaps : scancode = 0x3A
        · rw [hcaps]
          decide
        · have hshift := not_not.1 fun hs => hh ⟨hon.1, hon.2, hcaps, hs⟩
          rcases hshift.1 with rfl | rfl <;> decide
      exact (hnone scancode hmem).symm
    · rfl

/-- What has been written to is another screen. -/
theorem ne_of_longer {s s' : Framebuffer} (h : s.stores.length < s'.stores.length) : s' ≠ s := by
  rintro rfl
  exact lt_irrefl _ h

/-- Writing a character makes two stores. -/
@[simp] theorem length_writeAt (c : Cursor) (b fg bg : UInt8) (s : Framebuffer) :
    (writeAt c b fg bg s).stores.length = s.stores.length + 2 := rfl

/-- Showing the cursor makes two stores. -/
@[simp] theorem length_showCursor (c : Cursor) (s : Framebuffer) :
    (showCursor c s).stores.length = s.stores.length + 2 := rfl

/-- Erasing changes the screen. -/
theorem backspace_ne (cursor : Cursor) (k : Keyboard) (s : Framebuffer) :
    (backspace cursor k s).framebuffer ≠ s := by
  apply ne_of_longer
  unfold backspace
  dsimp only
  split_ifs
  all_goals
    simp only [length_showCursor, length_writeAt]
    omega

/-- A key that shows something changes the screen. -/
theorem typeKey_ne (h : ¬(scancode ≠ 0 ∧ k.toAscii scancode = 0)) (cursor : Cursor)
    (s : Framebuffer) : (typeKey scancode cursor k s).framebuffer ≠ s := by
  apply ne_of_longer
  unfold typeKey
  dsimp only
  rw [if_neg h]
  split_ifs
  all_goals
    simp only [length_showCursor, length_writeAt]
    omega

/-- **The accepted keys are echoed**, and of the others only scancode 0 writes to the
screen. -/
theorem echoed_iff (scancode : UInt8) (m : Console) :
    (keyboardIsr scancode m).framebuffer ≠ m.framebuffer ↔
      m.keyboard.accepted scancode ≠ 0 ∨ m.keyboard.keyboardInputOn ∧ scancode = 0 := by
  obtain ⟨hback, henter, -⟩ := toAscii_special m.keyboard
  rw [keyboardIsr_framebuffer, Console.written, accepted_eq]
  by_cases hon : m.keyboard.keyboardInputOn ∧ scancode < 0x80
  · rw [if_pos hon, if_pos hon]
    by_cases hb : scancode = 0x0E
    · rw [if_pos hb, hb, hback]
      exact iff_of_true (backspace_ne _ _ _) (.inl (by decide))
    by_cases he : scancode = 0x1C
    · rw [if_neg hb, if_pos he, he, henter]
      refine iff_of_true (ne_of_longer ?_) (.inl (by decide))
      simp [enter]
    rw [if_neg hb, if_neg he]
    by_cases hnone : scancode ≠ 0 ∧ m.keyboard.toAscii scancode = 0
    · rw [typeKey_quiet (k := m.seen) hnone]
      refine iff_of_false (fun h => h rfl) ?_
      rintro (h | ⟨-, h⟩)
      · exact h hnone.2
      · exact hnone.1 h
    · refine iff_of_true (typeKey_ne (k := m.seen) hnone _ _) ?_
      by_cases hzero : scancode = 0
      · exact .inr ⟨hon.1, hzero⟩
      · exact .inl fun h => hnone ⟨hzero, h⟩
  · rw [if_neg hon, if_neg hon]
    refine iff_of_false (fun h => h rfl) ?_
    rintro (h | ⟨hin, rfl⟩)
    · exact h rfl
    · exact hon ⟨hin, by decide⟩

/-- **The buffer is a slot**: an event that erases nothing does its operation. -/
theorem slot_step (he : handle e m = some (o, m')) (hn : NothingErased m e)
    (ops : List (Slot.Op UInt8)) :
    Slot.run (o.op.toList ++ ops) m.pending =
      (o.got.toList ++ (Slot.run ops m'.pending).1, (Slot.run ops m'.pending).2) := by
  cases e with
  | puts str color =>
      obtain ⟨rfl, rfl⟩ := Prod.mk.inj (Option.some.inj he)
      rfl
  | clear =>
      obtain ⟨rfl, rfl⟩ := Prod.mk.inj (Option.some.inj he)
      rfl
  | poll =>
      obtain ⟨rfl, rfl⟩ := Prod.mk.inj (Option.some.inj he)
      rfl
  | key scancode =>
      obtain ⟨rfl, rfl⟩ := Prod.mk.inj (Option.some.inj he)
      rw [pending_key]
      by_cases hh : m.keyboard.Handles scancode
      · rw [if_pos hh]
        by_cases hc : m.keyboard.accepted scancode = 0
        · rw [hn hh hc, hc]
          rfl
        · have hsome : character (m.keyboard.accepted scancode) =
              some (m.keyboard.accepted scancode) := if_neg hc
          simp only [Output.op, Output.got, hsome]
          rfl
      · rw [if_neg hh, accepted_of_not_handles hh]
        rfl

/-- **Nothing is made up**: what an event delivers or leaves was pending, or is accepted. -/
theorem pending_step (he : handle e m = some (o, m')) :
    (o.got.toList ++ m'.pending.toList).Sublist (m.pending.toList ++ o.accepted.toList) := by
  have hsame : m'.pending = m.pending → o.got = none →
      (o.got.toList ++ m'.pending.toList).Sublist (m.pending.toList ++ o.accepted.toList) := by
    intro hp hg
    rw [hp, hg]
    exact List.sublist_append_left _ _
  cases e with
  | puts str color =>
      obtain ⟨rfl, rfl⟩ := Prod.mk.inj (Option.some.inj he)
      exact hsame rfl rfl
  | clear =>
      obtain ⟨rfl, rfl⟩ := Prod.mk.inj (Option.some.inj he)
      exact hsame rfl rfl
  | poll =>
      obtain ⟨rfl, rfl⟩ := Prod.mk.inj (Option.some.inj he)
      exact List.Sublist.refl _
  | key scancode =>
      obtain ⟨rfl, rfl⟩ := Prod.mk.inj (Option.some.inj he)
      have hp := pending_key scancode m
      by_cases hh : m.keyboard.Handles scancode
      · rw [hp, if_pos hh]
        exact List.sublist_append_right _ _
      · exact hsame (hp.trans (if_neg hh)) rfl

/-! ### Runs -/

/-- What is kept of a list is what is kept of its first element, and then of the rest. -/
theorem filterMap_cons_toList {α β : Type*} (f : α → Option β) (a : α) (l : List α) :
    (a :: l).filterMap f = (f a).toList ++ l.filterMap f := by
  rw [List.filterMap_cons]
  cases f a <;> rfl

/-- A run that erases nothing is one of the slot. -/
theorem run_slot (hr : Runs.run handle events m = some (os, t))
    (hg : Runs.Guarded handle NothingErased events m) :
    Slot.run (os.filterMap Output.op) m.pending = (os.filterMap Output.got, t.pending) := by
  induction events generalizing m os with
  | nil =>
      obtain ⟨rfl, rfl⟩ := Prod.mk.inj (Option.some.inj hr)
      rfl
  | cons e events ih =>
      obtain ⟨o, os, m', he, hr', rfl⟩ := Runs.run_cons hr
      rw [filterMap_cons_toList, filterMap_cons_toList, slot_step he hg.1, ih hr' (hg.2 o m' he)]

/-- What a run delivers is some of what was stored, in order. -/
theorem run_sublist (hr : Runs.run handle events m = some (os, t)) :
    (delivered os t).Sublist (m.pending.toList ++ os.filterMap Output.accepted) := by
  induction events generalizing m os with
  | nil =>
      obtain ⟨rfl, rfl⟩ := Prod.mk.inj (Option.some.inj hr)
      exact List.sublist_append_left _ _
  | cons e events ih =>
      obtain ⟨o, os, m', he, hr', rfl⟩ := Runs.run_cons hr
      have hrest := (ih hr').append_left o.got.toList
      have hstep := (pending_step he).append_right (os.filterMap Output.accepted)
      rw [List.append_assoc] at hstep
      rw [delivered, filterMap_cons_toList, filterMap_cons_toList, List.append_assoc,
        ← List.append_assoc m.pending.toList]
      exact hrest.trans hstep

/-- Every run returns. -/
theorem run_returns (events : List Event) (m : Console) :
    ∃ os t, Runs.run handle events m = some (os, t) := by
  have hstep : ∀ m e, True → True → ∃ o m', handle e m = some (o, m') ∧ True := by
    intro m e _ _
    cases e <;> exact ⟨_, _, rfl, trivial⟩
  have hdom : Runs.Guarded handle (fun _ _ => True) events m := Runs.guarded_true
  obtain ⟨os, t, hr, -⟩ := Runs.run_total hstep trivial hdom
  exact ⟨os, t, hr⟩

/-- **The keys are delivered**, in their order and each once at most.  Those are missing
that another key replaces before a poll, and no others if none without a character
comes on one that waits. -/
theorem keys_delivered (events : List Event) :
    ∃ os t, Runs.run handle events (keyboardStateActivate .boot) = some (os, t) ∧
      (delivered os t).Sublist (os.filterMap Output.accepted) ∧
      (Runs.Guarded handle NothingErased events (keyboardStateActivate .boot) →
        delivered os t = Slot.kept (os.filterMap Output.op)) := by
  obtain ⟨os, t, hr⟩ := run_returns events (keyboardStateActivate .boot)
  refine ⟨os, t, hr, run_sublist hr, fun hg => ?_⟩
  have hkept := Slot.run_kept (os.filterMap Output.op) (keyboardStateActivate .boot).pending
  rw [run_slot hr hg] at hkept
  exact hkept

/-- Two letters, of which the second replaces the first, a poll and the shift key, twice. -/
theorem keys_delivered_sample :
    ∃ os t, Runs.run handle [.key 0x1E, .key 0x30, .poll, .key 0x2A, .key 0x2A, .key 0x1E]
        (keyboardStateActivate .boot) = some (os, t) ∧
      delivered os t = Slot.kept (os.filterMap Output.op) := by
  obtain ⟨os, t, hr, -, hd⟩ :=
    keys_delivered [.key 0x1E, .key 0x30, .poll, .key 0x2A, .key 0x2A, .key 0x1E]
  exact ⟨os, t, hr, hd (by decide +kernel)⟩

/-- Of two letters in a row only the second is delivered, and none of a letter that an
arrow follows. -/
theorem not_keys_delivered_sample :
    (∃ r ∈ Runs.run handle [.key 0x1E, .key 0x30] (keyboardStateActivate .boot),
      delivered r.1 r.2 ≠ r.1.filterMap Output.accepted) ∧
    ∃ r ∈ Runs.run handle [.key 0x1E, .key 0x4B] (keyboardStateActivate .boot),
      delivered r.1 r.2 ≠ r.1.filterMap Output.accepted := by
  decide +kernel

end Screen
end Jatos
