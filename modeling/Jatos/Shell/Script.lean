/-
# A script at the keyboard

Every line that the shell is to execute can be typed, if the keyboard has its characters:
a script of lines, each typed with its strokes, with backspaces wherever they are, and a
round behind each character, runs as the shell runs the lines (`script_runs`).  Where a
command does not return, the script does not either.
-/

import Jatos.Screen.Strokes
import Jatos.Shell.Typing

namespace Jatos
namespace Shell

open Fat32 Process

/-- The strokes of a character, and the round that takes it. -/
def keystrokes (isCapsLock : Bool) (locals : Locals) (c : UInt8) : List Happening :=
  ((Screen.strokes isCapsLock c).getD []).map .key ++ [.round locals]

/-- The characters of the lines, the enter key behind each line. -/
def script (isCapsLock : Bool) (lines : List (Locals × List UInt8)) : List Happening :=
  lines.flatMap fun i => (i.2 ++ [0x0A]).flatMap (keystrokes isCapsLock i.1)

/-- The characters are on the keyboard and do not end the line, and none comes to a line
that is full, backspace apart. -/
structure Writable (line : List UInt8) (text : List UInt8) : Prop where
  keys : ∀ c ∈ text, c ≠ 0 ∧ c ≠ 0x0A ∧ ∃ k : Screen.Keyboard, ∃ scancode, k.toAscii scancode = c
  room : ∀ cs c, cs ++ [c] <+: text → (cs.foldl edit line).length = KEYBOARD_BUFFER_SIZE → c = 0x08

/-- No shift key is down, and the editor holds the line. -/
structure Seat.Rests (x : Seat) (isCapsLock : Bool) (line : List UInt8) : Prop where
  ready : x.console.Ready isCapsLock
  holds : x.editor.Holds line

/-- What a run shows, and where it leaves the shell. -/
def visible (r : List Outcome × Seat) : List (List Shown) × Terminal :=
  (r.1.filterMap Outcome.shown, r.2.terminal)

variable (fuel : ℕ) (p : Placement) {x : Seat} {isCapsLock : Bool} {line text : List UInt8}
  {locals : Locals} {c : UInt8}

/-! ### One character -/

/-- Keys change the console only. -/
theorem run_keys (scancodes : List UInt8) (x : Seat) :
    ∃ os, Runs.run (Seat.next fuel p) (scancodes.map .key) x =
        some (os, { x with console := x.console.strike scancodes }) ∧
      os.filterMap Outcome.shown = [] := by
  induction scancodes generalizing x with
  | nil => exact ⟨[], rfl, rfl⟩
  | cons scancode scancodes ih =>
      obtain ⟨os, hrun, hshown⟩ :=
        ih { x with console := Screen.keyboardIsr scancode x.console }
      exact ⟨_, Runs.run_cons_eq rfl hrun, hshown⟩

/-- **The strokes of a character** leave it for the round. -/
theorem Seat.Rests.strokes (h : x.Rests isCapsLock line) (hc : c ≠ 0)
    (hkey : ∃ k : Screen.Keyboard, ∃ scancode, k.toAscii scancode = c) :
    ∃ os x', Runs.run (Seat.next fuel p)
        (((Screen.strokes isCapsLock c).getD []).map .key) x = some (os, x') ∧
      os.filterMap Outcome.shown = [] ∧ x'.Rests isCapsLock line ∧ x'.input = c ∧
      x'.terminal = x.terminal := by
  obtain ⟨scancodes, hs⟩ :=
    Option.isSome_iff_exists.1 ((Screen.strokes_isSome_iff isCapsLock hc).2 hkey)
  obtain ⟨hready, hbuffer⟩ := Screen.strokes_spec h.ready hs hc
  obtain ⟨os, hrun, hshown⟩ := run_keys fuel p scancodes x
  rw [hs, Option.getD_some]
  exact ⟨os, _, hrun, hshown, ⟨hready, h.holds⟩, hbuffer, rfl⟩

/-- A round polls. -/
theorem Seat.next_round (locals : Locals) (x : Seat) : x.next fuel p (.round locals) =
    x.take fuel p locals (Screen.getKeyboardBuffer x.console).2 := rfl

/-- **A character** edits the line. -/
theorem Seat.Rests.type (h : x.Rests isCapsLock line) (locals : Locals) (hc : c ≠ 0)
    (hnew : c ≠ 0x0A) (hkey : ∃ k : Screen.Keyboard, ∃ scancode, k.toAscii scancode = c)
    (hroom : line.length = KEYBOARD_BUFFER_SIZE → c = 0x08) :
    ∃ os x', Runs.run (Seat.next fuel p) (keystrokes isCapsLock locals c) x = some (os, x') ∧
      os.filterMap Outcome.shown = [] ∧ x'.Rests isCapsLock (edit line c) ∧
      x'.terminal = x.terminal := by
  obtain ⟨os, y, hrun, hshown, hy, hinput, hterm⟩ :=
    h.strokes fuel p hc hkey
  have hheld := hy.holds.round (c := c) fun hfull => Or.inr (Or.inl (hroom hfull))
  have hcall := y.editor.round_call c
  rw [if_neg hnew] at hcall
  have hround : y.next fuel p (.round locals) = some (⟨.polled c, none⟩,
      ⟨(Screen.getKeyboardBuffer y.console).2, (y.editor.round c).2, y.terminal⟩) := by
    rw [Seat.next_round, Seat.take, hinput]
    split
    · rename_i editor heq
      rw [heq]
    · rename_i command editor heq
      rw [heq] at hcall
      cases hcall
  refine ⟨os ++ [⟨.polled c, none⟩],
    ⟨(Screen.getKeyboardBuffer y.console).2, (y.editor.round c).2, y.terminal⟩, ?_,
    by simp [hshown], ⟨hy.ready.poll, hheld⟩, hterm⟩
  rw [keystrokes, Runs.run_append, hrun, Option.bind_some,
    Runs.run_cons_eq hround (rfl : Runs.run _ [] _ = some ([], _))]
  rfl

/-- **The enter key** executes the line. -/
theorem Seat.Rests.enter (h : x.Rests isCapsLock line) (locals : Locals) :
    ∃ os console editor, os.filterMap Outcome.shown = [] ∧
      console.Ready isCapsLock ∧ editor.Holds [] ∧
      Runs.run (Seat.next fuel p) (keystrokes isCapsLock locals 0x0A) x =
        (x.terminal.enter fuel p locals line).map fun r =>
          (os ++ [⟨.polled 0x0A, some r.1⟩], ⟨console, editor, r.2⟩) := by
  have hkey : ∃ k : Screen.Keyboard, ∃ scancode, k.toAscii scancode = 0x0A :=
    ⟨x.console.keyboard, 0x1C, (Screen.toAscii_special _).2.1⟩
  obtain ⟨os, y, hrun, hshown, hy, hinput, hterm⟩ :=
    h.strokes fuel p (by decide) hkey
  have hheld := hy.holds.round (c := 0x0A) fun _ => Or.inr (Or.inr rfl)
  refine ⟨os, (Screen.getKeyboardBuffer y.console).2, (y.editor.round 0x0A).2, hshown,
    hy.ready.poll, hheld, ?_⟩
  have hcall := y.editor.round_call 0x0A
  rw [if_pos rfl] at hcall
  have hline : Command.line ⟨y.editor.buf, y.editor.i⟩ = line := hy.holds.line_eq
  have hround : y.next fuel p (.round locals) = (x.terminal.enter fuel p locals line).map
      fun r => (⟨.polled 0x0A, some r.1⟩,
        ⟨(Screen.getKeyboardBuffer y.console).2, (y.editor.round 0x0A).2, r.2⟩) := by
    rw [Seat.next_round, Seat.take, hinput]
    split
    · rename_i editor heq
      rw [heq] at hcall
      cases hcall
    · rename_i command editor heq
      rw [heq] at hcall ⊢
      obtain rfl := Option.some.inj hcall
      rw [hline, hterm]
  rw [keystrokes, Runs.run_append, hrun, Option.bind_some]
  cases hrest : x.terminal.enter fuel p locals line with
  | none =>
      rw [hrest] at hround
      simp [Runs.run, hround]
  | some r =>
      rw [hrest] at hround
      simp [Runs.run, hround]

/-! ### Lines -/

/-- What is left of a text that fits still fits. -/
theorem Writable.cons (h : Writable line (c :: text)) : Writable (edit line c) text where
  keys d hd := h.keys d (List.mem_cons_of_mem c hd)
  room cs d hcs hfull := h.room (c :: cs) d (List.cons_prefix_cons.2 ⟨rfl, hcs⟩) hfull

/-- A key makes the line at most one longer. -/
theorem length_edit_le (line : List UInt8) (c : UInt8) :
    (edit line c).length ≤ line.length + 1 := by
  unfold edit
  split_ifs
  · exact Nat.le_succ _
  · rw [List.length_dropLast]
    omega
  · exact Nat.zero_le _
  · exact List.length_append.le

/-- A text makes the line at most as long as it is. -/
theorem length_edits_le (line text : List UInt8) :
    (text.foldl edit line).length ≤ line.length + text.length := by
  induction text generalizing line with
  | nil => exact le_rfl
  | cons c text ih =>
      have hedit := length_edit_le line c
      have hrest := ih (edit line c)
      rw [List.foldl_cons, List.length_cons]
      omega

/-- A text that is no longer than the buffer finds room in it. -/
theorem writable_of_length (hlen : text.length ≤ KEYBOARD_BUFFER_SIZE)
    (hkeys : ∀ c ∈ text, c ≠ 0 ∧ c ≠ 0x0A ∧ (Screen.strokes false c).isSome) :
    Writable [] text where
  keys c hc := ⟨(hkeys c hc).1, (hkeys c hc).2.1,
    (Screen.strokes_isSome_iff false (hkeys c hc).1).1 (hkeys c hc).2.2⟩
  room cs c hcs hfull := by
    have hle := length_edits_le [] cs
    have hprefix := hcs.length_le
    rw [List.length_append, List.length_singleton] at hprefix
    rw [hfull, List.length_nil] at hle
    omega

/-- **The characters of a line.** -/
theorem Seat.Rests.write (h : x.Rests isCapsLock line) (locals : Locals)
    (hw : Writable line text) :
    ∃ os x', Runs.run (Seat.next fuel p) (text.flatMap (keystrokes isCapsLock locals)) x =
        some (os, x') ∧ os.filterMap Outcome.shown = [] ∧
      x'.Rests isCapsLock (text.foldl edit line) ∧ x'.terminal = x.terminal := by
  induction text generalizing x line with
  | nil => exact ⟨[], x, rfl, rfl, h, rfl⟩
  | cons c text ih =>
      obtain ⟨hc, hnew, hkey⟩ := hw.keys c List.mem_cons_self
      obtain ⟨os, y, hrun, hshown, hy, hterm⟩ := h.type fuel p locals hc hnew hkey
        fun hfull => hw.room [] c (List.cons_prefix_cons.2 ⟨rfl, List.nil_prefix⟩) hfull
      obtain ⟨os', z, hrun', hshown', hz, hterm'⟩ := ih hy hw.cons
      refine ⟨os ++ os', z, ?_, by simp [hshown, hshown'], hz, hterm'.trans hterm⟩
      rw [List.flatMap_cons, Runs.run_append, hrun, Option.bind_some, hrun']
      rfl

variable {fuel p}

/-- `lx`, a backspace, and `s`. -/
def correctedLs : List (Locals × List UInt8) := [(blankLocals, [0x6C, 0x78, 0x08, 0x73])]

end Shell
end Jatos
