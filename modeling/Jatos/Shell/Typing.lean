/-
# Typing at the shell

What is typed goes a long way: from the keyboard's handler to its buffer of one
character, by system call 4 to the line editor, at a newline to `executeCommand`, and
from there to the disk.  A `Seat` has all of it, and a run is what happens there: keys,
writes to the screen by whichever process, and rounds of the loop of `main`, each of
which polls the keyboard once.

Whatever the order, the shell does with the lines that the characters make what the desk
does with them (`typing_refines`).  A character is lost in one place only, the
keyboard's buffer, when another key replaces it before a round takes it.
-/

import Jatos.Screen.Buffer
import Jatos.Shell.Desk
import Jatos.Shell.Editor

namespace Jatos
namespace Shell

open Fat32 Process

/-! ### The seat -/

/-- The console with the keyboard, the editor in `main`, and the shell behind it. -/
structure Seat where
  console : Screen.Console
  editor : Editor
  terminal : Terminal

/-- The interrupt of a key, a write to the screen, or a round of the loop. -/
inductive Happening
  | key (scancode : UInt8)
  | puts (str : List UInt8) (color : UInt8)
  | clear
  | round (locals : Locals)

/-- What comes of it at the console, and what is shown if a line ends. -/
structure Outcome where
  output : Screen.Output
  shown : Option (List Shown)

/-- What it is to the console: a round polls. -/
def Happening.event : Happening → Screen.Event
  | key scancode => .key scancode
  | puts str color => .puts str color
  | clear => .clear
  | round _ => .poll

/-- The bytes of a command. -/
def Command.line (c : Command) : List UInt8 := (List.range c.length).map c.command

/-- The bytes in front of the index. -/
def Editor.line (m : Editor) : List UInt8 := Command.line ⟨m.buf, m.i⟩

/-- The character that the next round takes. -/
def Seat.input (x : Seat) : UInt8 := x.console.keyboard.keyboardBuffer

variable (fuel : ℕ) (p : Placement)

/-- The rest of a round, behind system call 4. -/
def Seat.take (locals : Locals) (console : Screen.Console) (x : Seat) :
    Option (Outcome × Seat) :=
  match x.editor.round x.input with
  | (none, editor) => some (⟨.polled x.input, none⟩, ⟨console, editor, x.terminal⟩)
  | (some command, editor) =>
      (x.terminal.enter fuel p locals command.line).map fun (shown, terminal) =>
        (⟨.polled x.input, some shown⟩, ⟨console, editor, terminal⟩)

/-- One of the happenings. -/
def Seat.next (h : Happening) (x : Seat) : Option (Outcome × Seat) :=
  (Screen.handle h.event x.console).bind fun (output, console) =>
    match h with
    | .round locals => x.take fuel p locals console
    | _ => some (⟨output, none⟩, { x with console := console })

/-- The seat in front of the loop, the disk formatted. -/
def Seat.start (s₀ : State) (machine : Machine) (stack : ℕ → UInt8) : Seat :=
  ⟨Screen.keyboardStateActivate .boot, Editor.start stack, Terminal.start s₀ machine⟩

/-! ### What the desk answers -/

/-- A line is a command of the desk, or it makes no call but for the refusal of a name
that is too long. -/
inductive Replies (line : List UInt8) (t : Desk) : List Shown → Desk → Prop
  | command {c : Cmd} {shown : List Shown} {t' : Desk} : c.line = line → c.Answers t shown t' →
      Replies line t shown t'
  | refused {texts : List String} : calls line = texts.map .tooLong →
      Replies line t (.text "\n" :: texts.map .text ++ [.text (promptText t.cwd)]) t

/-- A line that the desk knows. -/
def Known (locals : Locals) (t : Terminal) (line : List UInt8) : Prop :=
  (∃ c : Cmd, c.line = line ∧ c.Typed locals t) ∨ ∃ texts : List String,
    calls line = texts.map .tooLong

/-- No character comes to a full line, and a line that ends is known. -/
def Seat.Fits (x : Seat) : Happening → Prop
  | .round locals => Room (x.editor, x.editor.line) x.input ∧
      (x.input = 0x0A → Known locals x.terminal x.editor.line)
  | _ => True

/-- The lines that the characters end, and the line that is left. -/
def entered : List UInt8 → List UInt8 → List (List UInt8) × List UInt8
  | line, [] => ([], line)
  | line, c :: cs =>
      if c = 0x0A then (line :: (entered [] cs).1, (entered [] cs).2) else entered (edit line c) cs

/-- The characters that the rounds take. -/
def taken (os : List Outcome) : List UInt8 := os.filterMap fun o => o.output.got

variable {fuel p} {m : Editor} {x x' : Seat} {desk desk' : Desk} {h : Happening} {o : Outcome}
  {line : List UInt8} {locals : Locals} {s₀ : State} {machine : Machine} {t : Terminal}
  {stack : ℕ → UInt8} {placement : Placement}

/-! ### One happening -/

/-- The line that is edited is the one that is held. -/
theorem Editor.Holds.line_eq (hm : m.Holds line) : m.line = line := by
  obtain ⟨hindex, hfits, hbytes⟩ := hm
  refine List.ext_getElem (by simp [Editor.line, Command.line, hindex]) fun j hj hj' => ?_
  rw [show m.line[j] = m.buf j by simp [Editor.line, Command.line], hbytes j (by omega),
    List.getD_eq_getElem?_getD, List.getElem?_eq_getElem hj', Option.getD_some]

/-- What a happening is to the console. -/
theorem Seat.next_console (hx : x.next fuel p h = some (o, x')) :
    Screen.handle h.event x.console = some (o.output, x'.console) := by
  cases h with
  | key scancode =>
      obtain ⟨rfl, rfl⟩ := Prod.mk.inj (Option.some.inj hx)
      rfl
  | puts str color =>
      obtain ⟨rfl, rfl⟩ := Prod.mk.inj (Option.some.inj hx)
      rfl
  | clear =>
      obtain ⟨rfl, rfl⟩ := Prod.mk.inj (Option.some.inj hx)
      rfl
  | round locals =>
      change x.take fuel p locals (Screen.getKeyboardBuffer x.console).2 = some (o, x') at hx
      change some (Screen.Output.polled x.input, (Screen.getKeyboardBuffer x.console).2) = _
      unfold Seat.take at hx
      split at hx
      · obtain ⟨rfl, rfl⟩ := Prod.mk.inj (Option.some.inj hx)
        rfl
      · obtain ⟨r, -, hr⟩ := Option.map_eq_some_iff.1 hx
        obtain ⟨rfl, rfl⟩ := Prod.mk.inj hr
        rfl

/-- A line that the desk knows is answered as the desk answers it. -/
theorem Shows.replies (hs : Shows t desk) (hk : Known locals t line) (hfuel : 512 ≤ fuel) :
    ∃ shown t' desk', t.enter fuel p locals line = some (shown, t') ∧
      Replies line desk shown desk' ∧ Shows t' desk' := by
  obtain ⟨c, rfl, hc⟩ | ⟨texts, hcalls⟩ := hk
  · obtain ⟨shown, t', desk', hrun, hans, hs'⟩ := hs.enter hc hfuel
    exact ⟨shown, t', desk', hrun, .command rfl hans, hs'⟩
  · have hrun : ∀ texts : List String,
        Runs.run (perform fuel p locals line) (texts.map .tooLong) t =
          some (texts.map .text, t) := by
      intro texts
      induction texts with
      | nil => rfl
      | cons text texts ih => exact Runs.run_cons_eq rfl ih
    refine ⟨_, t, desk, ?_, .refused hcalls, hs⟩
    rw [Terminal.enter, Terminal.executeCommand, hcalls, hrun, ← hs.names,
      ← printTerminalText_eq]
    rfl

/-- The line and the desk behind a happening: a round edits the line, and a newline hands
it to the desk. -/
inductive Step : Happening → List UInt8 × Desk → Outcome → List UInt8 × Desk → Prop
  | idle {h : Happening} {y : List UInt8 × Desk} {o : Screen.Output} : o.got = none →
      Step h y ⟨o, none⟩ y
  | edit {h : Happening} {line : List UInt8} {t : Desk} {c : UInt8} : c ≠ 0x0A →
      Step h (line, t) ⟨.polled c, none⟩ (Shell.edit line c, t)
  | enter {h : Happening} {line : List UInt8} {t t' : Desk} {shown : List Shown} :
      Replies line t shown t' → Step h (line, t) ⟨.polled 0x0A, some shown⟩ ([], t')

/-- The editor holds the line, and the terminal shows the desk. -/
def Seat.Keeps (x : Seat) (y : List UInt8 × Desk) : Prop :=
  x.editor.Holds y.1 ∧ Shows x.terminal y.2

/-- **One happening.** -/
theorem Seat.Keeps.next {y : List UInt8 × Desk} (hk : x.Keeps y) (hf : x.Fits h)
    (hfuel : 512 ≤ fuel) :
    ∃ o x' y', x.next fuel p h = some (o, x') ∧ Step h y o y' ∧ x'.Keeps y' := by
  obtain ⟨line, desk⟩ := y
  obtain ⟨hm, hs⟩ := hk
  cases h with
  | key scancode => exact ⟨_, _, _, rfl, .idle rfl, hm, hs⟩
  | puts str color => exact ⟨_, _, _, rfl, .idle rfl, hm, hs⟩
  | clear => exact ⟨_, _, _, rfl, .idle rfl, hm, hs⟩
  | round locals =>
      obtain ⟨hroom, hknown⟩ := hf
      rw [hm.line_eq] at hroom hknown
      have hm' := hm.round hroom
      have hcall := x.editor.round_call x.input
      have htake : x.next fuel p (.round locals) =
          x.take fuel p locals (Screen.getKeyboardBuffer x.console).2 := rfl
      rw [htake, Seat.take]
      by_cases hnew : x.input = 0x0A
      · obtain ⟨shown, t', desk', hrun, hrep, hs'⟩ := hs.replies (p := p) (hknown hnew) hfuel
        rw [if_pos hnew] at hcall
        have hnil : Shell.edit line x.input = [] := by
          rw [hnew]
          rfl
        rw [hnil] at hm'
        split
        · rename_i editor hround
          rw [hround] at hcall
          cases hcall
        · rename_i command editor hround
          rw [hround] at hcall hm'
          obtain rfl := Option.some.inj hcall
          have hline : Command.line ⟨x.editor.buf, x.editor.i⟩ = line := hm.line_eq
          rw [hline, hrun, hnew]
          exact ⟨_, _, _, rfl, .enter hrep, hm', hs'⟩
      · rw [if_neg hnew] at hcall
        split
        · rename_i editor hround
          rw [hround] at hm'
          exact ⟨_, _, _, rfl, .edit hnew, hm', hs⟩
        · rename_i command editor hround
          rw [hround] at hcall
          cases hcall

/-! ### Runs -/

/-- What is taken of a run is what its first answer gave, and then the rest. -/
theorem taken_cons (o : Outcome) (os : List Outcome) :
    taken (o :: os) = o.output.got.toList ++ taken os :=
  Screen.filterMap_cons_toList _ o os

/-- A poll that finds a character gives it. -/
theorem got_polled {c : UInt8} (hc : c ≠ 0) : (Screen.Output.polled c).got = some c := if_neg hc

/-- **The lines that the characters end** are those that the desk is given. -/
theorem entered_of_trace {hs : List Happening} {y y' : List UInt8 × Desk} {os : List Outcome}
    (ht : Runs.Trace Step hs y os y') :
    (entered y.1 (taken os)).2 = y'.1 ∧
      Runs.Trace Replies (entered y.1 (taken os)).1 y.2 (os.filterMap Outcome.shown) y'.2 := by
  induction ht with
  | nil y => exact ⟨rfl, .nil _⟩
  | @cons _ _ _ _ _ o os hstep hrest ih =>
      rw [taken_cons]
      cases hstep with
      | idle hgot =>
          rw [hgot]
          exact ih
      | @edit line t c hnew =>
          by_cases hc : c = 0
          · subst hc
            exact ih
          · rw [got_polled hc, Option.toList_some, List.singleton_append, entered, if_neg hnew]
            exact ih
      | @enter line t t' shown hrep =>
          exact ⟨ih.1, .cons hrep ih.2⟩

/-- The seat in front of the loop shows the desk of a formatted disk. -/
theorem start_keeps (s₀ : State) (machine : Machine) (stack : ℕ → UInt8) :
    (Seat.start s₀ machine stack).Keeps ([], Desk.start) :=
  ⟨Editor.start_holds stack, start_shows s₀ machine⟩

/-- **The shell at the keyboard.**  From a seat whose terminal shows a desk, with any line
begun, whatever the order of keys, writes to the screen and rounds: if no character comes to a
full line and the desk knows the lines, the run comes to its end, and the shell has done what
the desk does with the lines that the characters of the rounds end.  Those characters, and the
one that waits, are the one that waited and characters of the keys in their order; if no key
without a character comes on one that waits, all are there but for those that another key
replaces. -/
theorem typing_refines (hk : x.Keeps (line, desk)) (hfuel : 512 ≤ fuel) {hs : List Happening}
    (hg : Runs.Guarded (Seat.next fuel placement) Seat.Fits hs x) :
    ∃ os x' desk', Runs.run (Seat.next fuel placement) hs x = some (os, x') ∧
      x'.editor.Holds (entered line (taken os)).2 ∧ Shows x'.terminal desk' ∧
      Runs.Trace Replies (entered line (taken os)).1 desk (os.filterMap Outcome.shown) desk' ∧
      (taken os ++ x'.console.pending.toList).Sublist
        (x.console.pending.toList ++ os.filterMap fun o => o.output.accepted) ∧
      (Runs.Guarded (Seat.next fuel placement)
          (fun x h => Screen.NothingErased x.console h.event) hs x →
        taken os ++ x'.console.pending.toList =
          Slot.kept (Slot.filled x.console.pending ++ os.filterMap fun o => o.output.op)) := by
  have hstep : ∀ (x : Seat) (y : List UInt8 × Desk) (h : Happening), x.Keeps y → x.Fits h →
      ∃ o x' y', x.next fuel placement h = some (o, x') ∧ Step h y o y' ∧ x'.Keeps y' :=
    fun x y h hk hf => hk.next hf hfuel
  obtain ⟨os, x', y, hrun, htrace, hm, hshows⟩ := Runs.run_refines hstep hk hg
  obtain ⟨hline, hlines⟩ := entered_of_trace htrace
  have hpart : ∀ (x : Seat) (h : Happening) (o : Outcome) (x' : Seat),
      x.next fuel placement h = some (o, x') →
      Screen.handle h.event x.console = some (o.output, x'.console) :=
    fun x h o x' => Seat.next_console
  have hconsole := Runs.run_part hpart hrun
  refine ⟨os, x', y.2, hrun, hline ▸ hm, hshows, hlines, ?_, fun hquiet => ?_⟩
  · have hsub := Screen.run_sublist hconsole
    rw [Screen.delivered, List.filterMap_map, List.filterMap_map] at hsub
    exact hsub
  · have hkept := Slot.run_kept ((os.map Outcome.output).filterMap Screen.Output.op)
      x.console.pending
    rw [Screen.run_slot hconsole (Runs.guarded_part hpart hrun hquiet), List.filterMap_map,
      List.filterMap_map] at hkept
    exact hkept

/-- The seat at boot, on a volume with a file `a.x` in the root. -/
def oneFileSeat : Seat :=
  { Seat.start blank blankMachine fun _ => 0 with terminal := oneFileTerminal }

/-- `l`, which `c` replaces, then `at a` and the enter key. -/
def hastyCat : List Happening :=
  [.key 0x26, .key 0x2E, .round blankLocals, .key 0x1E, .round blankLocals, .key 0x14,
    .round blankLocals, .key 0x39, .round blankLocals, .key 0x1E, .round blankLocals, .key 0x1C]

/-- The line `cat a` is there in front of the last round. -/
theorem hastyCat_run {os : List Outcome} {x : Seat}
    (h : Runs.run (Seat.next 512 afterCode) hastyCat oneFileSeat = some (os, x)) :
    x.editor.line = (Cmd.cat [0x61]).line ∧ x.terminal.session.names = [] := by
  have hmap : (Runs.run (Seat.next 512 afterCode) hastyCat oneFileSeat).map
      (fun r => (r.2.editor.line, r.2.terminal.session.names)) =
        some ((Cmd.cat [0x61]).line, []) := by
    decide +kernel
  rw [h] at hmap
  exact Prod.mk.inj (Option.some.inj hmap)

/-- The file is shown, and one character is missing. -/
theorem typing_refines_sample : ∃ os x desk,
    Runs.run (Seat.next 512 afterCode) (hastyCat ++ [.round blankLocals]) oneFileSeat =
        some (os, x) ∧
      Runs.Trace Replies (entered [] (taken os)).1 oneFileDesk (os.filterMap Outcome.shown)
        desk ∧
      taken os ++ x.console.pending.toList = Slot.kept (os.filterMap fun o => o.output.op) := by
  have hquick : Runs.Guarded (Seat.next 512 afterCode)
      (fun x _ => Room (x.editor, x.editor.line) x.input ∧ x.input ≠ 0x0A) hastyCat
      oneFileSeat := by
    decide +kernel
  have hg : Runs.Guarded (Seat.next 512 afterCode) Seat.Fits (hastyCat ++ [.round blankLocals])
      oneFileSeat := by
    refine Runs.guarded_append.2 ⟨Runs.guarded_of_invariant (I := fun _ => True)
      (fun x h _ hx => ⟨?_, fun _ _ _ => trivial⟩) trivial hquick,
      fun os x hr => ⟨?_, fun _ _ _ => trivial⟩⟩
    · cases h with
      | key scancode => exact trivial
      | puts str color => exact trivial
      | clear => exact trivial
      | round locals => exact ⟨hx.1, fun hnew => absurd hnew hx.2⟩
    · obtain ⟨hline, hnames⟩ := hastyCat_run hr
      refine ⟨fun hfull => ?_, fun _ => .inl ⟨.cat [0x61], hline.symm,
        ⟨by decide, by decide, by decide⟩, ?_⟩⟩
      · rw [hline] at hfull
        exact absurd hfull (by decide : (Cmd.cat [0x61]).line.length ≠ KEYBOARD_BUFFER_SIZE)
      · rw [hnames]
        decide
  have hquiet : Runs.Guarded (Seat.next 512 afterCode)
      (fun x h => Screen.NothingErased x.console h.event) hastyCat oneFileSeat := by
    decide +kernel
  have hk : oneFileSeat.Keeps ([], oneFileDesk) := ⟨Editor.start_holds _, oneFile_shows⟩
  have hempty : oneFileSeat.console.pending = none := rfl
  obtain ⟨os, x, desk, hrun, -, -, htrace, -, hkept⟩ := typing_refines hk le_rfl hg
  rw [hempty] at hkept
  exact ⟨os, x, desk, hrun, htrace, hkept (Runs.guarded_append.2
    ⟨hquiet, fun _ _ _ => ⟨trivial, fun _ _ _ => trivial⟩⟩)⟩

end Shell
end Jatos
