/-
# Interrupts from request to end

The functions of `src/interrupt.c` that talk to the interrupt controllers and the
timer, and the acknowledgements of `main_interrupt_handler` and `keyboard_isr`,
against the two controllers of `Pc`.

A `System` is the board, `IF` and the handlers under way.  Devices raise their
lines at any time, also between two acknowledgements of a handler; the processor
takes an interrupt when `IF` is set; a program of the user may execute any
`int`.  `keyboard_isr` acknowledges most keys twice, and the second time there is
nothing in service (`Orderly`).
-/

import Jatos.Foundation.Pc
import Jatos.Foundation.Runs
import Jatos.Interrupt.Tables
import Jatos.Screen.Keyboard

namespace Jatos
namespace Interrupt

open Ports Pc X86

variable {σ : Type*}

/-! ### The controllers' functions -/

/-- Where the first controller's vectors start. -/
abbrev PIC1_OFFSET : UInt8 := 0x20

/-- Where the second controller's vectors start. -/
abbrev PIC2_OFFSET : UInt8 := 0x28

/-- The command that ends an interrupt. -/
abbrev PIC_ACK : UInt8 := 0x20

/-- The timer's line. -/
abbrev IRQ_TIMER : UInt8 := 0

/-- The keyboard's line. -/
abbrev IRQ_KEYBOARD : UInt8 := 1

/-- `PIT_MAX_FREQUENCY / PIT_TIMER_FREQUENCY`. -/
abbrev PIT_TIMER_COUNTER : UInt32 := 1193182 / 1000

/-- `PIT_COMMAND_VALUE`: square wave, both bytes, channel 0. -/
abbrev PIT_COMMAND_VALUE : UInt8 := ((0b011 : UInt8) <<< 1) ||| ((0b11 : UInt8) <<< 4)

/-- `io_wait`. -/
def ioWait (bus : Bus σ) (s : σ) : Option σ := bus.outb 0x80 0 s

/-- `pic_ack`. -/
def picAck (bus : Bus σ) (irq : UInt8) (s : σ) : Option σ := do
  let s ← if irq ≥ 8 then bus.outb 0xA0 PIC_ACK s else some s
  bus.outb 0x20 PIC_ACK s

/-- `pic_remap`. -/
def picRemap (bus : Bus σ) (s : σ) : Option σ := do
  let s ← bus.outb 0x20 (0x10 ||| 0x01) s
  let s ← ioWait bus s
  let s ← bus.outb 0xA0 (0x10 ||| 0x01) s
  let s ← ioWait bus s
  let s ← bus.outb 0x21 PIC1_OFFSET s
  let s ← ioWait bus s
  let s ← bus.outb 0xA1 PIC2_OFFSET s
  let s ← ioWait bus s
  let s ← bus.outb 0x21 0x04 s
  let s ← ioWait bus s
  let s ← bus.outb 0xA1 0x02 s
  let s ← ioWait bus s
  let s ← bus.outb 0x21 0x01 s
  let s ← ioWait bus s
  let s ← bus.outb 0xA1 0x01 s
  let s ← ioWait bus s
  let s ← bus.outb 0x21 0xFF s
  bus.outb 0xA1 0xFF s

/-- `activate_keyboard_interrupt`. -/
def activateKeyboardInterrupt (bus : Bus σ) (s : σ) : Option σ := do
  let (mask, s) ← bus.inb 0x21 s
  bus.outb 0x21 (mask &&& ~~~(1 <<< IRQ_KEYBOARD)) s

/-- `activate_timer_interrupt`, behind its `cli`. -/
def activateTimerInterrupt (bus : Bus σ) (s : σ) : Option σ := do
  let s ← bus.outb 0x43 PIT_COMMAND_VALUE s
  let s ← bus.outb 0x40 (PIT_TIMER_COUNTER &&& 0xFF).toUInt8 s
  let s ← bus.outb 0x40 ((PIT_TIMER_COUNTER >>> 8) &&& 0xFF).toUInt8 s
  let (mask, s) ← bus.inb 0x21 s
  bus.outb 0x21 (mask &&& ~~~(1 <<< IRQ_TIMER)) s

/-- The calls of `pic_ack` on the way of `keyboard_isr` through a scancode. -/
def keyboardAcks (scancode : UInt8) (m : Screen.Console) : List UInt8 :=
  let k := m.seen
  if scancode = 0x3A then [IRQ_KEYBOARD]
  else if (scancode = 0x2A ∨ scancode = 0x36) ∧ !k.isShift then [IRQ_KEYBOARD]
  else if (scancode = 0xAA ∨ scancode = 0xB6) ∧ k.isShift then [IRQ_KEYBOARD]
  else if k.keyboardInputOn ∧ scancode < 0x80 then
    if scancode = 0x0E then [IRQ_KEYBOARD, IRQ_KEYBOARD]
    else if scancode = 0x4B ∨ scancode = 0x4D then [IRQ_KEYBOARD]
    else if scancode = 0x1C then [IRQ_KEYBOARD, IRQ_KEYBOARD]
    else if scancode ≠ 0 ∧ k.toAscii scancode = 0 then [IRQ_KEYBOARD]
    else [IRQ_KEYBOARD, IRQ_KEYBOARD]
  else [IRQ_KEYBOARD]

/-- The calls of `pic_ack` in `main_interrupt_handler`. -/
def handlerAcks (intNumber scancode : UInt8) (m : Screen.Console) : List UInt8 :=
  if intNumber = PIC1_OFFSET + IRQ_KEYBOARD then keyboardAcks scancode m
  else if intNumber = 0x30 then []
  else if intNumber = PIC1_OFFSET + IRQ_TIMER then [IRQ_TIMER]
  else []

/-! ### The system -/

/-- A handler under way: what it has still to acknowledge, and `IF` of the code that it
interrupted. -/
structure Frame where
  vector : UInt8
  acks : List UInt8
  interruptFlag : Bool

/-- The board, `IF` and the handlers, the innermost first; `taken` are the vectors that the
processor got from the controllers, the last first. -/
structure System where
  board : Board
  interruptFlag : Bool
  frames : List Frame
  taken : List UInt8

/-- What happens to the system: lines rise and fall, interrupts are delivered or raised, and
the handlers go on. -/
inductive Event
  | raise (line : Fin 16)
  | withdraw (line : Fin 16)
  | deliver (scancode : UInt8) (m : Screen.Console)
  | spurious
  | int (vector : UInt8)
  | fault (vector : Fin 32)
  | proceed
  | activateKeyboard
  | activateTimer
  | enterUser

/-- Through the gate of a vector. -/
def enter (gates : UInt8 → GateDescriptor) (vector : UInt8) (acks : List UInt8) (s : System) :
    Option System :=
  if (gates vector).access.present = true then
    some { s with
      frames := ⟨vector, acks, s.interruptFlag⟩ :: s.frames
      interruptFlag := if (gates vector).access.kind = interruptGate32 then false
        else s.interruptFlag }
  else none

/-- `int` at the user's level: a gate of another level is a fault. -/
def softwareInterrupt (gates : UInt8 → GateDescriptor) (vector : UInt8) (s : System) :
    Option System :=
  if 3 ≤ (gates vector).access.dpl then enter gates vector [] s else enter gates 13 [] s

/-- The next acknowledgement of the innermost handler, or its `iret`. -/
def proceed (s : System) : Option System :=
  match s.frames with
  | [] => none
  | ⟨_, [], flag⟩ :: frames => some { s with frames := frames, interruptFlag := flag }
  | ⟨vector, irq :: acks, flag⟩ :: frames =>
      (picAck Pc.board irq s.board).map fun b =>
        { s with board := b, frames := ⟨vector, acks, flag⟩ :: frames }

/-- One event, or none if it cannot happen. -/
def happen (gates : UInt8 → GateDescriptor) (e : Event) (s : System) : Option System :=
  match e with
  | .raise line => some { s with board.pics := s.board.pics.setLine line true }
  | .withdraw line => some { s with board.pics := s.board.pics.setLine line false }
  | .deliver scancode m =>
      if s.interruptFlag then
        s.board.pics.acknowledge.bind fun r =>
          enter gates r.1 (handlerAcks r.1 scancode m)
            { s with board.pics := r.2, taken := r.1 :: s.taken }
      else none
  | .spurious => if s.interruptFlag then enter gates s.board.pics.spurious [] s else none
  | .int vector => if s.frames.isEmpty then softwareInterrupt gates vector s else none
  | .fault vector => enter gates (UInt8.ofNat vector) [] s
  | .proceed => proceed s
  | .activateKeyboard =>
      if s.frames.isEmpty then
        (activateKeyboardInterrupt Pc.board s.board).map fun b => { s with board := b }
      else none
  | .activateTimer =>
      if s.frames.isEmpty then
        (activateTimerInterrupt Pc.board s.board).map fun b =>
          { s with board := b, interruptFlag := false }
      else none
  | .enterUser => if s.frames.isEmpty then some { s with interruptFlag := true } else none

/-- A run of events. -/
def history (gates : UInt8 → GateDescriptor) (es : List Event) (s : System) : Option System :=
  es.foldlM (fun s e => happen gates e s) s

/-- The kernel behind `pic_remap` and `initialize_idt`, which ends with `sti`. -/
def booted (b : Board) : Option System :=
  (picRemap Pc.board b).map fun b => ⟨b, true, [], []⟩

/-! ### Setting up -/

/-- The board behind `pic_remap`. -/
def remapped (b : Board) : Board :=
  { b with pics := ⟨⟨fun _ => false, fun _ => false, 0xFF, PIC1_OFFSET, 0x04, .ready⟩,
    ⟨fun _ => false, fun _ => false, 0xFF, PIC2_OFFSET, 0x02, .ready⟩⟩ }

/-- **`pic_remap` works from any state of the controllers.** -/
theorem picRemap_eq (b : Board) : picRemap Pc.board b = some (remapped b) := by
  have hinit : (0x10 ||| 0x01 : UInt8) = 0x11 := by decide
  have hmaster : PIC1_OFFSET &&& 248 = PIC1_OFFSET := by decide
  have hslave : PIC2_OFFSET &&& 248 = PIC2_OFFSET := by decide
  simp [picRemap, ioWait, Pc.board, Board.outb, Controller.command, Controller.data, remapped,
    hinit, hmaster, hslave]

/-- What the kernel relies on: the vectors, and that only the timer's and the keyboard's
lines get through. -/
structure Wired (p : Pair) : Prop where
  masterReady : p.master.stage = .ready
  offset : p.master.offset = PIC1_OFFSET
  masterMasked : ∀ i : Fin 8, 2 ≤ i.val → p.master.masked i = true
  slaveMasked : ∀ i, p.slave.masked i = true
  slaveQuiet : p.slave.Quiet

/-- The remapped controllers are wired as the kernel expects. -/
theorem remapped_wired (b : Board) : Wired (remapped b).pics := by
  refine ⟨rfl, rfl, fun i _ => ?_, fun i => ?_, fun _ => rfl⟩
  · show (0xFF : UInt8).toBitVec.getLsbD i = true
    revert i
    decide
  · show (0xFF : UInt8).toBitVec.getLsbD i = true
    revert i
    decide

/-! ### One handler at a time -/

variable {gates : UInt8 → GateDescriptor} {s s' : System} {e : Event} {es : List Event}
  {c : Controller} {p : Pair}

/-- The gates of `initialize_idt`. -/
def StubGates (gates : UInt8 → GateDescriptor) : Prop :=
  ∃ isrStubTable : ℕ → UInt32, ∀ v : UInt8, gates v =
    if v.toNat < 64 then stubGate (isrStubTable v.toNat) v.toNat else IDTGate.zero.meaning

/-- The handler has still to acknowledge the line in service, or none is. -/
def Owes (c : Controller) (f : Frame) : Prop :=
  (∀ irq ∈ f.acks, irq < 8) ∧
    (c.Quiet ∨ ∃ i, c.Serves i ∧ f.acks ≠ [] ∧ f.vector = PIC1_OFFSET + UInt8.ofNat i)

/-- Only the outermost handler acknowledges; those inside are of faults. -/
inductive Nested (c : Controller) : Bool → List Frame → Prop
  | idle (flag : Bool) : c.Quiet → Nested c flag []
  | outermost (f : Frame) : Owes c f → Nested c false [f]
  | fault (f g : Frame) (frames : List Frame) : f.acks = [] → f.interruptFlag = false →
      Nested c false (g :: frames) → Nested c false (f :: g :: frames)

/-- What holds whatever happens. -/
structure Orderly (s : System) : Prop where
  wired : Wired s.board.pics
  nested : Nested s.board.pics.master s.interruptFlag s.frames
  taken : ∀ v ∈ s.taken, v = PIC1_OFFSET + IRQ_TIMER ∨ v = PIC1_OFFSET + IRQ_KEYBOARD

/-- Where no handler is at work, the controller has nothing in service. -/
theorem Nested.quiet {flag : Bool} {frames : List Frame} (h : Nested c flag frames)
    (hframes : frames = []) : c.Quiet := by
  subst hframes
  cases h with
  | idle flag hq => exact hq

/-- While interrupts are let in, no handler is at work. -/
theorem Nested.of_flag {flag : Bool} {frames : List Frame} (h : Nested c flag frames)
    (hflag : flag = true) : frames = [] := by
  cases h with
  | idle flag hq => rfl
  | outermost f hf => simp at hflag
  | fault f g frames hacks hf hrest => simp at hflag

/-- Only the lines in service matter. -/
theorem Nested.congr {flag : Bool} {frames : List Frame} (h : Nested c flag frames)
    {c' : Controller} (hisr : c'.isr = c.isr) : Nested c' flag frames := by
  have hquiet : c.Quiet → c'.Quiet := fun hq i => by rw [hisr]; exact hq i
  induction h with
  | idle flag hq => exact .idle flag (hquiet hq)
  | outermost f hf =>
      refine .outermost f ⟨hf.1, ?_⟩
      obtain hq | ⟨i, hs, hrest⟩ := hf.2
      · exact Or.inl (hquiet hq)
      · exact Or.inr ⟨i, fun j => by rw [hisr]; exact hs j, hrest⟩
  | fault f g frames hacks hflag hrest ih => exact .fault f g frames hacks hflag ih

/-- A handler without acknowledgements starts. -/
theorem Nested.push {flag : Bool} {frames : List Frame} (h : Nested c flag frames)
    (vector : UInt8) : Nested c false (⟨vector, [], flag⟩ :: frames) := by
  cases h with
  | idle flag hq => exact .outermost _ ⟨by simp, Or.inl hq⟩
  | outermost f hf => exact .fault _ _ _ rfl rfl (.outermost f hf)
  | fault f g frames hacks hf hrest => exact .fault _ _ _ rfl rfl (.fault f g frames hacks hf hrest)

/-- Every gate that is there clears `IF`. -/
theorem enter_cases (hgates : StubGates gates) {vector : UInt8} {acks : List UInt8}
    (h : enter gates vector acks s = some s') : vector.toNat < 64 ∧
      s' = { s with
        frames := ⟨vector, acks, s.interruptFlag⟩ :: s.frames, interruptFlag := false } := by
  obtain ⟨stubs, hstubs⟩ := hgates
  rw [enter, hstubs vector] at h
  by_cases hv : vector.toNat < 64
  · simp only [if_pos hv, stubGate, if_true, Option.some.injEq] at h
    exact ⟨hv, h.symm⟩
  · simp only [if_neg hv, IDTGate.meaning, IDTGate.zero] at h
    simp at h

/-- Entering a vector of the stubs pushes its frame and clears the flag. -/
theorem enter_eq (hgates : StubGates gates) {vector : UInt8} (hv : vector.toNat < 64)
    (acks : List UInt8) (s : System) : enter gates vector acks s =
      some { s with
        frames := ⟨vector, acks, s.interruptFlag⟩ :: s.frames, interruptFlag := false } := by
  obtain ⟨stubs, hstubs⟩ := hgates
  rw [enter, hstubs vector, if_pos hv]
  simp [stubGate]

/-! ### Requests and acknowledgements -/

/-- Only the first two lines of a wired controller are let through. -/
theorem Wired.line_lt (h : Wired p) {i : Fin 8} (hi : p.master.masked i = false) : i.val < 2 := by
  by_contra hlt
  rw [h.masterMasked i (by omega)] at hi
  simp at hi

/-- The processor gets the vector of an unmasked line. -/
theorem Wired.acknowledge_cases (h : Wired p) {r : UInt8 × Pair} (hr : p.acknowledge = some r) :
    ∃ i : Fin 8, i.val < 2 ∧
      r = (PIC1_OFFSET + UInt8.ofNat i, { p with master := p.master.serve i }) := by
  rw [Pair.acknowledge] at hr
  cases hreq : p.upstream.request with
  | none => simp [hreq] at hr
  | some i =>
      have hlt : i.val < 2 := h.line_lt (Controller.request_eq_some hreq).2.1
      have hne : i ≠ cascadeLine := fun heq => by simp [heq, cascadeLine] at hlt
      simp only [hreq, if_neg hne, Option.some.injEq, h.offset] at hr
      exact ⟨i, hlt, hr.symm⟩

/-- A line that asks and is not masked, and no line before it is another. -/
structure Foremost (c : Controller) (i : Fin 8) : Prop where
  irr : c.irr i = true
  unmasked : c.masked i = false
  first : ∀ j < i, c.irr j = true → c.masked j = true

/-- When nothing is in service the foremost line is taken. -/
theorem Wired.acknowledge_foremost (h : Wired p) (hq : p.master.Quiet) {i : Fin 8}
    (hirr : p.master.irr i = true) (hi : p.master.masked i = false) :
    ∃ k, Foremost p.master k ∧ k.val < 2 ∧ p.acknowledge =
      some (PIC1_OFFSET + UInt8.ofNat k, { p with master := p.master.serve k }) := by
  have hup : ∀ j : Fin 8, j.val < 2 → p.upstream.irr j = p.master.irr j := fun j hj =>
    Function.update_of_ne (fun heq => by simp [heq, cascadeLine] at hj) _ _
  have hquiet : p.upstream.Quiet := hq
  have hasks := hquiet.request ((hup i (h.line_lt hi)).trans hirr) hi
  obtain ⟨k, hk⟩ := Option.isSome_iff_exists.1 hasks
  obtain ⟨hirr', hmasked, -⟩ := Controller.request_eq_some hk
  have hlt : k.val < 2 := h.line_lt hmasked
  refine ⟨k, ⟨(hup k hlt).symm.trans hirr', hmasked, fun j hj hjirr => ?_⟩, hlt, ?_⟩
  · exact hquiet.request_first hk hj ((hup j (by omega)).trans hjirr)
  · have hne : k ≠ cascadeLine := fun heq => by simp [heq, cascadeLine] at hlt
    rw [Pair.acknowledge, hk]
    exact (if_neg hne).trans (by rw [h.offset])

/-- The keyboard's handler acknowledges once or twice. -/
theorem keyboardAcks_eq (scancode : UInt8) (m : Screen.Console) :
    keyboardAcks scancode m = [IRQ_KEYBOARD] ∨
      keyboardAcks scancode m = [IRQ_KEYBOARD, IRQ_KEYBOARD] := by
  simp only [keyboardAcks]
  split_ifs <;> simp

/-- The handlers acknowledge lines of the first controller. -/
theorem handlerAcks_lt (vector scancode : UInt8) (m : Screen.Console) :
    ∀ irq ∈ handlerAcks vector scancode m, irq < 8 := by
  have hkey : IRQ_KEYBOARD < 8 := by decide
  have htimer : IRQ_TIMER < 8 := by decide
  unfold handlerAcks
  split_ifs
  · obtain h | h := keyboardAcks_eq scancode m <;> rw [h] <;> simp [hkey]
  · simp
  · simp [htimer]
  · simp

/-- The handlers of the two lines acknowledge at least once. -/
theorem handlerAcks_ne_nil {i : Fin 8} (hi : i.val < 2) (scancode : UInt8) (m : Screen.Console) :
    handlerAcks (PIC1_OFFSET + UInt8.ofNat i) scancode m ≠ [] := by
  obtain rfl | rfl : i = 0 ∨ i = 1 := by
    simp only [Fin.ext_iff]
    show i.val = 0 ∨ i.val = 1
    omega
  · have htimer : PIC1_OFFSET + UInt8.ofNat (0 : Fin 8).val = PIC1_OFFSET + IRQ_TIMER := by decide
    rw [htimer, handlerAcks, if_neg (by decide), if_neg (by decide), if_pos rfl]
    simp
  · have hkey : PIC1_OFFSET + UInt8.ofNat (1 : Fin 8).val = PIC1_OFFSET + IRQ_KEYBOARD := by decide
    rw [hkey, handlerAcks, if_pos rfl]
    obtain h | h := keyboardAcks_eq scancode m <;> rw [h] <;> simp

/-- `pic_ack` for a line of the master is an end of interrupt there. -/
theorem picAck_eq {irq : UInt8} (hirq : irq < 8) {b : Board}
    (hready : b.pics.master.stage = .ready) : picAck Pc.board irq b =
      some { b with pics.master := b.pics.master.endOfInterrupt } := by
  have hge : ¬irq ≥ 8 := UInt8.not_le.2 hirq
  have hack : PIC_ACK ≠ 0x11 := by decide
  simp [picAck, hge, Pc.board, Board.outb, Controller.command, hready, hack]

/-- An acknowledgement ends what is in service. -/
theorem Owes.quiet {f : Frame} (h : Owes c f) : c.endOfInterrupt.Quiet := by
  obtain hq | ⟨i, hs, -⟩ := h.2
  · rw [hq.endOfInterrupt]
    exact hq
  · rw [hs.endOfInterrupt]
    exact fun _ => rfl

/-- After an acknowledgement a handler owes those that are left. -/
theorem Owes.ack {f : Frame} {irq : UInt8} {acks : List UInt8} (h : Owes c f)
    (hacks : f.acks = irq :: acks) :
    Owes c.endOfInterrupt ⟨f.vector, acks, f.interruptFlag⟩ :=
  ⟨fun a ha => h.1 a (by rw [hacks]; exact List.mem_cons_of_mem irq ha), Or.inl h.quiet⟩

/-- Only the outermost handler has something to acknowledge. -/
theorem Nested.owes {flag : Bool} {f : Frame} {frames : List Frame}
    (h : Nested c flag (f :: frames)) (hne : f.acks ≠ []) : Owes c f := by
  cases h with
  | outermost f hf => exact hf
  | fault f g frames hacks _ _ => exact absurd hacks hne

/-- A handler that owes nothing returns to those below. -/
theorem Nested.pop {flag : Bool} {f : Frame} {frames : List Frame}
    (h : Nested c flag (f :: frames)) (hacks : f.acks = []) : Nested c f.interruptFlag frames := by
  cases h with
  | outermost f hf =>
      obtain hq | ⟨i, -, hne, -⟩ := hf.2
      · exact .idle _ hq
      · exact absurd hacks hne
  | fault f g frames _ hflag hrest =>
      rw [hflag]
      exact hrest

/-- An acknowledgement of the only handler at work is one less that it owes. -/
theorem Nested.acknowledge {flag : Bool} {f : Frame} {irq : UInt8} {acks : List UInt8}
    (h : Nested c flag [f]) (hacks : f.acks = irq :: acks) :
    Nested c.endOfInterrupt flag [⟨f.vector, acks, f.interruptFlag⟩] := by
  cases h with
  | outermost f hf => exact .outermost _ (hf.ack hacks)

/-! ### Every event keeps order -/

/-- A line's level changes nothing that is in service. -/
theorem setLine_isr (p : Pair) (line : Fin 16) (v : Bool) :
    (p.setLine line v).master.isr = p.master.isr := by
  unfold Pair.setLine
  split_ifs <;> rfl

/-- A line's level leaves the controllers wired. -/
theorem Wired.setLine (h : Wired p) (line : Fin 16) (v : Bool) : Wired (p.setLine line v) := by
  unfold Pair.setLine
  split_ifs <;> exact ⟨h.masterReady, h.offset, h.masterMasked, h.slaveMasked, h.slaveQuiet⟩

/-- A mask of the master in which the lines from 2 on stay as they are. -/
theorem Wired.unmask (h : Wired p) {v : UInt8}
    (hv : ∀ i < 8, 2 ≤ i → v.toBitVec.getLsbD i = true) :
    Wired { p with master := { p.master with imr := p.master.imr &&& v } } := by
  refine ⟨h.masterReady, h.offset, fun i hi => ?_, h.slaveMasked, h.slaveQuiet⟩
  show (p.master.imr &&& v).toBitVec.getLsbD i = true
  rw [UInt8.toBitVec_and, BitVec.getLsbD_and, hv i i.isLt hi, Bool.and_true]
  exact h.masterMasked i hi

/-- Activating the keyboard clears its bit of the mask. -/
theorem activateKeyboardInterrupt_eq {b : Board} (hready : b.pics.master.stage = .ready) :
    activateKeyboardInterrupt Pc.board b = some { b with
      pics.master.imr := b.pics.master.imr &&& ~~~(1 <<< IRQ_KEYBOARD) } := by
  simp [activateKeyboardInterrupt, Pc.board, Board.inb, Board.outb, Controller.data, hready]

/-- The timer fires every 1193 ticks. -/
theorem activateTimerInterrupt_eq {b : Board} (hready : b.pics.master.stage = .ready) :
    activateTimerInterrupt Pc.board b = some { b with
      pics.master.imr := b.pics.master.imr &&& ~~~(1 <<< IRQ_TIMER)
      timer := ⟨PIT_COMMAND_VALUE, none, 1193⟩ } := by
  have hcommand : PIT_COMMAND_VALUE &&& 0xF0 = 0x30 := by decide
  have hlow : (PIT_TIMER_COUNTER &&& 0xFF).toUInt8 = 169 := by decide
  have hhigh : ((PIT_TIMER_COUNTER >>> 8) &&& 0xFF).toUInt8 = 4 := by decide
  simp [activateTimerInterrupt, Pc.board, Board.inb, Board.outb, Controller.data, hready,
    Counter.command, Counter.data, hcommand, hlow, hhigh]

/-- What an event can do to a system that is in order. -/
inductive Change (e : Event) (s : System) : System → Prop
  | line (line : Fin 16) (v : Bool) : v = true ∨ e = .withdraw line →
      Change e s { s with board.pics := s.board.pics.setLine line v }
  | take (i : Fin 8) (acks : List UInt8) : i.val < 2 → s.frames = [] → acks ≠ [] →
      (∀ irq ∈ acks, irq < 8) →
      Change e s
        { board := { s.board with pics.master := s.board.pics.master.serve i }
          interruptFlag := false
          frames := [⟨PIC1_OFFSET + UInt8.ofNat i, acks, s.interruptFlag⟩]
          taken := (PIC1_OFFSET + UInt8.ofNat i) :: s.taken }
  | push (vector : UInt8) :
      Change e s { s with
        frames := ⟨vector, [], s.interruptFlag⟩ :: s.frames, interruptFlag := false }
  | pop (f : Frame) (frames : List Frame) : s.frames = f :: frames → f.acks = [] →
      Change e s { s with frames := frames, interruptFlag := f.interruptFlag }
  | acknowledge (f : Frame) (irq : UInt8) (acks : List UInt8) : s.frames = [f] →
      f.acks = irq :: acks →
      Change e s { s with
        board := { s.board with pics.master := s.board.pics.master.endOfInterrupt }
        frames := [⟨f.vector, acks, f.interruptFlag⟩] }
  | mask (v : UInt8) (timer : Counter) (flag : Bool) :
      (∀ i < 8, 2 ≤ i → v.toBitVec.getLsbD i = true) → s.frames = [] →
      Change e s { s with
        board := { s.board with
          pics.master.imr := s.board.pics.master.imr &&& v, timer := timer }
        interruptFlag := flag }
  | flag (flag : Bool) : s.frames = [] → Change e s { s with interruptFlag := flag }

/-- An entry without acknowledgements changes as an event may. -/
theorem enter_change (hgates : StubGates gates) {vector : UInt8}
    (hs : enter gates vector [] s = some s') : Change e s s' := by
  obtain ⟨-, rfl⟩ := enter_cases hgates hs
  exact .push vector

/-- A delivery changes as an event may. -/
theorem Orderly.deliver_change (hgates : StubGates gates) (h : Orderly s) {scancode : UInt8}
    {m : Screen.Console} (hs : happen gates (.deliver scancode m) s = some s') :
    Change (.deliver scancode m) s s' := by
  simp only [happen] at hs
  split_ifs at hs with hflag
  have hnil := h.nested.of_flag hflag
  obtain ⟨r, hr, henter⟩ := Option.bind_eq_some_iff.1 hs
  obtain ⟨i, hi, rfl⟩ := h.wired.acknowledge_cases hr
  obtain ⟨-, rfl⟩ := enter_cases hgates henter
  simp only [hnil]
  exact .take i _ hi hnil (handlerAcks_ne_nil hi scancode m) (handlerAcks_lt _ _ _)

/-- A handler acknowledges. -/
theorem proceed_acknowledge {vector irq : UInt8} {acks : List UInt8} {saved : Bool}
    {frames : List Frame} (hready : s.board.pics.master.stage = .ready) (hirq : irq < 8)
    (hframes : s.frames = ⟨vector, irq :: acks, saved⟩ :: frames) :
    Interrupt.proceed s = some { s with
      board.pics.master := s.board.pics.master.endOfInterrupt
      frames := ⟨vector, acks, saved⟩ :: frames } := by
  simp only [Interrupt.proceed, hframes, picAck_eq hirq hready, Option.map_some]

/-- A handler that goes on changes as an event may. -/
theorem Orderly.proceed_change (h : Orderly s) (hs : proceed s = some s') :
    Change .proceed s s' := by
  obtain ⟨board, flag, frames, taken⟩ := s
  obtain ⟨hwired, hnested, htaken⟩ := h
  cases hnested with
  | idle flag hq => simp [Interrupt.proceed] at hs
  | outermost f hf =>
      obtain ⟨vector, acks, saved⟩ := f
      cases acks with
      | nil =>
          obtain rfl := Option.some.inj hs
          exact .pop ⟨vector, [], saved⟩ [] rfl rfl
      | cons irq acks =>
          have hirq : irq < 8 := hf.1 irq List.mem_cons_self
          obtain rfl := Option.some.inj
            ((proceed_acknowledge hwired.masterReady hirq rfl).symm.trans hs)
          exact .acknowledge ⟨vector, irq :: acks, saved⟩ irq acks rfl rfl
  | fault f g frames hacks hflag hrest =>
      obtain ⟨vector, acks, saved⟩ := f
      obtain rfl : acks = [] := hacks
      obtain rfl := Option.some.inj hs
      exact .pop ⟨vector, [], saved⟩ (g :: frames) rfl rfl

/-- **The events of a system that is in order.** -/
theorem Orderly.change (hgates : StubGates gates) (h : Orderly s)
    (hs : happen gates e s = some s') : Change e s s' := by
  cases e with
  | raise line =>
      obtain rfl := Option.some.inj hs
      exact .line line true (Or.inl rfl)
  | withdraw line =>
      obtain rfl := Option.some.inj hs
      exact .line line false (Or.inr rfl)
  | deliver scancode m => exact h.deliver_change hgates hs
  | spurious =>
      simp only [Interrupt.happen] at hs
      split_ifs at hs
      exact enter_change hgates hs
  | int vector =>
      simp only [Interrupt.happen, softwareInterrupt] at hs
      split_ifs at hs
      · exact enter_change hgates hs
      · exact enter_change hgates hs
  | fault vector => exact enter_change hgates hs
  | proceed => exact h.proceed_change hs
  | activateKeyboard =>
      simp only [Interrupt.happen, activateKeyboardInterrupt_eq h.wired.masterReady,
        Option.map_some, List.isEmpty_iff] at hs
      split_ifs at hs with hnil
      obtain rfl := Option.some.inj hs
      exact .mask _ _ _ (by decide) hnil
  | activateTimer =>
      simp only [Interrupt.happen, activateTimerInterrupt_eq h.wired.masterReady,
        Option.map_some, List.isEmpty_iff] at hs
      split_ifs at hs with hnil
      obtain rfl := Option.some.inj hs
      exact .mask _ _ _ (by decide) hnil
  | enterUser =>
      simp only [Interrupt.happen, List.isEmpty_iff] at hs
      split_ifs at hs with hnil
      obtain rfl := Option.some.inj hs
      exact .flag true hnil

/-- The end of an interrupt changes what is in service only. -/
theorem endOfInterrupt_keeps (c : Controller) : c.endOfInterrupt.irr = c.irr ∧
    c.endOfInterrupt.imr = c.imr ∧ c.endOfInterrupt.offset = c.offset ∧
    c.endOfInterrupt.stage = c.stage := by
  unfold Controller.endOfInterrupt
  split <;> exact ⟨rfl, rfl, rfl, rfl⟩

/-- The end of an interrupt leaves the controllers wired. -/
theorem Wired.endOfInterrupt (h : Wired p) :
    Wired { p with master := p.master.endOfInterrupt } := by
  obtain ⟨-, himr, hoffset, hstage⟩ := endOfInterrupt_keeps p.master
  refine ⟨hstage.trans h.masterReady, hoffset.trans h.offset, fun i hi => ?_, h.slaveMasked,
    h.slaveQuiet⟩
  show p.master.endOfInterrupt.imr.toBitVec.getLsbD i = true
  rw [himr]
  exact h.masterMasked i hi

/-- The vectors of the first two lines are the timer's and the keyboard's. -/
theorem line_cases {i : Fin 8} (hi : i.val < 2) :
    PIC1_OFFSET + UInt8.ofNat i = PIC1_OFFSET + IRQ_TIMER ∨
      PIC1_OFFSET + UInt8.ofNat i = PIC1_OFFSET + IRQ_KEYBOARD := by
  have hcases : i.val = 0 ∨ i.val = 1 := by omega
  obtain hzero | hone := hcases
  · rw [hzero]
    exact Or.inl rfl
  · rw [hone]
    exact Or.inr rfl

/-- **Every event keeps order.** -/
theorem Orderly.happen (hgates : StubGates gates) (h : Orderly s)
    (hs : happen gates e s = some s') : Orderly s' := by
  cases h.change hgates hs with
  | line line v hv =>
      exact ⟨h.wired.setLine line v, h.nested.congr (setLine_isr _ _ _), h.taken⟩
  | take i acks hi hnil hne hlt =>
      refine ⟨⟨h.wired.masterReady, h.wired.offset, h.wired.masterMasked, h.wired.slaveMasked,
        h.wired.slaveQuiet⟩, .outermost _ ⟨hlt, Or.inr ⟨i, ?_, hne, rfl⟩⟩,
        List.forall_mem_cons.2 ⟨line_cases hi, h.taken⟩⟩
      exact (h.nested.quiet hnil).serve i
  | push vector => exact ⟨h.wired, h.nested.push vector, h.taken⟩
  | pop f frames hframes hacks =>
      have hnested := h.nested
      rw [hframes] at hnested
      exact ⟨h.wired, hnested.pop hacks, h.taken⟩
  | acknowledge f irq acks hframes hacks =>
      have hnested := h.nested
      rw [hframes] at hnested
      exact ⟨h.wired.endOfInterrupt, hnested.acknowledge hacks, h.taken⟩
  | mask v timer flag hv hnil =>
      refine ⟨h.wired.unmask hv, ?_, h.taken⟩
      simp only [hnil]
      exact .idle flag (h.nested.quiet hnil)
  | flag flag hnil =>
      refine ⟨h.wired, ?_, h.taken⟩
      simp only [hnil]
      exact .idle flag (h.nested.quiet hnil)

/-- A history is its first event and then the others. -/
theorem history_cons {s : System} : history gates (e :: es) s =
    (happen gates e s).bind fun s' => history gates es s' := by
  rw [history, List.foldlM_cons]
  rfl

/-- Order is kept over every history. -/
theorem Orderly.history (hgates : StubGates gates) (h : Orderly s)
    (hs : history gates es s = some s') : Orderly s' := by
  induction es generalizing s with
  | nil =>
      obtain rfl := Option.some.inj hs
      exact h
  | cons e es ih =>
      rw [history_cons] at hs
      obtain ⟨t, ht, hrest⟩ := Option.bind_eq_some_iff.1 hs
      exact ih (h.happen hgates ht) hrest

/-- The booted system is in order. -/
theorem booted_orderly {b : Board} (hboot : booted b = some s) : Orderly s := by
  rw [booted, picRemap_eq, Option.map_some] at hboot
  obtain rfl := Option.some.inj hboot
  exact ⟨remapped_wired b, .idle _ fun _ => rfl, by simp⟩

/-! ### What order is good for -/

/-- What the handlers under way have still to do. -/
def remaining (frames : List Frame) : ℕ := (frames.map fun f => f.acks.length + 1).sum

/-- The line in service is that of the outermost handler, which will acknowledge it. -/
theorem Nested.serving {flag : Bool} {frames : List Frame} (h : Nested c flag frames) {i : Fin 8}
    (hi : c.isr i = true) : ∃ f, frames.getLast? = some f ∧
      f.vector = PIC1_OFFSET + UInt8.ofNat i ∧ f.acks ≠ [] := by
  induction h with
  | idle flag hq =>
      rw [hq i] at hi
      simp at hi
  | outermost f hf =>
      obtain hq | ⟨k, hs, hne, hv⟩ := hf.2
      · rw [hq i] at hi
        simp at hi
      · rw [hs i] at hi
        obtain rfl := of_decide_eq_true hi
        exact ⟨f, rfl, hv, hne⟩
  | fault f g frames hacks hflag hrest ih =>
      rw [List.getLast?_cons_cons]
      exact ih

/-- Only the last frame may owe acknowledgements. -/
theorem Nested.inner {flag : Bool} {frames : List Frame} (h : Nested c flag frames) :
    ∀ f ∈ frames.dropLast, f.acks = [] := by
  induction h with
  | idle flag hq => simp
  | outermost f hf => simp
  | fault f g frames hacks hflag hrest ih =>
      rw [List.dropLast_cons_cons, List.forall_mem_cons]
      exact ⟨hacks, ih⟩

/-- `IF` of the code that goes on when the handlers under way are through. -/
def System.outerFlag (s : System) : Bool :=
  (s.frames.getLast?.map Frame.interruptFlag).getD s.interruptFlag

/-- A handler under way can go on. -/
theorem Orderly.proceed_cases (h : Orderly s) (hne : s.frames ≠ []) :
    ∃ t, Interrupt.proceed s = some t ∧ remaining t.frames < remaining s.frames ∧
      t.outerFlag = s.outerFlag := by
  obtain ⟨board, flag, frames, taken⟩ := s
  obtain ⟨hwired, hnested, htaken⟩ := h
  cases hnested with
  | idle flag hq => exact absurd rfl hne
  | outermost f hf =>
      obtain ⟨vector, acks, saved⟩ := f
      cases acks with
      | nil => exact ⟨_, rfl, by simp [remaining], rfl⟩
      | cons irq acks =>
          have hirq : irq < 8 := hf.1 irq List.mem_cons_self
          exact ⟨_, proceed_acknowledge hwired.masterReady hirq rfl, by simp [remaining], rfl⟩
  | fault f g frames hacks hflag hrest =>
      obtain ⟨vector, acks, saved⟩ := f
      obtain rfl : acks = [] := hacks
      obtain rfl : saved = false := hflag
      refine ⟨_, rfl, by simp [remaining], ?_⟩
      simp only [System.outerFlag, List.getLast?_cons_cons]

/-- **The handlers under way come to their end**, and give `IF` back. -/
theorem Orderly.drain (hgates : StubGates gates) (h : Orderly s) :
    ∃ n t, Interrupt.history gates (List.replicate n .proceed) s = some t ∧ t.frames = [] ∧
      Orderly t ∧ t.interruptFlag = s.outerFlag := by
  induction hw : remaining s.frames using Nat.strong_induction_on generalizing s with
  | _ w ih =>
      by_cases hnil : s.frames = []
      · exact ⟨0, s, rfl, hnil, h, by simp [System.outerFlag, hnil]⟩
      · obtain ⟨s', hs', hlt, hflag⟩ := h.proceed_cases hnil
        obtain ⟨n, t, ht, hframes, horder, hback⟩ :=
          ih (remaining s'.frames) (by omega) (h.happen hgates (e := .proceed) hs') rfl
        refine ⟨n + 1, t, ?_, hframes, horder, hback.trans hflag⟩
        rw [List.replicate_succ, history_cons]
        show (Interrupt.proceed s).bind _ = some t
        rw [hs']
        exact ht

/-- The foremost line is taken when no handler is under way and `IF` is set. -/
theorem Orderly.deliver_foremost (hgates : StubGates gates) (h : Orderly s) (hnil : s.frames = [])
    (hflag : s.interruptFlag = true) {i : Fin 8} (hirr : s.board.pics.master.irr i = true)
    (hi : s.board.pics.master.masked i = false) (scancode : UInt8) (m : Screen.Console) :
    ∃ t k, Foremost s.board.pics.master k ∧
      Interrupt.happen gates (.deliver scancode m) s = some t ∧
      t.taken = (PIC1_OFFSET + UInt8.ofNat k) :: s.taken := by
  obtain ⟨k, hk, hklt, hr⟩ := h.wired.acknowledge_foremost (h.nested.quiet hnil) hirr hi
  have hlt : (PIC1_OFFSET + UInt8.ofNat k).toNat < 64 := by
    rw [UInt8.toNat_add, UInt8.toNat_ofNat']
    show (32 + k.val % 2 ^ 8) % 2 ^ 8 < 64
    omega
  simp only [Interrupt.happen, hflag, if_true, hr, Option.bind_some]
  exact ⟨_, k, hk, enter_eq hgates hlt _ _, rfl⟩

/-- **The first acknowledgement ends the interrupt in service, a second one ends nothing.** -/
theorem Orderly.acknowledge (h : Orderly s) {f : Frame} {frames : List Frame} {irq : UInt8}
    {acks : List UInt8} (hframes : s.frames = f :: frames) (hacks : f.acks = irq :: acks) :
    ∃ u, Interrupt.proceed s = some u ∧ u.board.pics.master.Quiet ∧
      (acks ≠ [] → ∃ w, Interrupt.proceed u = some w ∧ w.board = u.board) := by
  have hready := h.wired.masterReady
  have howes : Owes s.board.pics.master f :=
    Nested.owes (hframes ▸ h.nested) (hacks ▸ List.cons_ne_nil irq acks)
  obtain ⟨vector, acks', saved⟩ := f
  obtain rfl : acks' = irq :: acks := hacks
  have hquiet := howes.quiet
  refine ⟨_, proceed_acknowledge hready (howes.1 irq List.mem_cons_self) hframes, hquiet,
    fun hne => ?_⟩
  obtain ⟨irq', acks'', rfl⟩ := List.exists_cons_of_ne_nil hne
  have hirq' : irq' < 8 := howes.1 irq' (by simp)
  refine ⟨_, proceed_acknowledge h.wired.endOfInterrupt.masterReady hirq' rfl, ?_⟩
  simp only [hquiet.endOfInterrupt]

/-- What a program of the user gets by `int`. -/
theorem Orderly.int_eq (hgates : StubGates gates) (hnil : s.frames = []) (vector : UInt8) :
    ∃ t, Interrupt.happen gates (.int vector) s = some t ∧ t.frames.map Frame.vector =
      [if 0x30 ≤ vector.toNat ∧ vector.toNat ≤ 0x3F then vector else 13] := by
  have hdpl : 3 ≤ (gates vector).access.dpl ↔ 0x30 ≤ vector.toNat ∧ vector.toNat ≤ 0x3F := by
    obtain ⟨stubs, hstubs⟩ := hgates
    rw [hstubs]
    split_ifs with hv
    · simp only [stubGate]
      split_ifs <;> omega
    · simp only [IDTGate.meaning, IDTGate.zero]
      refine ⟨fun h => ?_, fun h => by omega⟩
      simp at h
  simp only [Interrupt.happen, hnil, List.isEmpty_nil, if_true, softwareInterrupt, hdpl]
  split_ifs with hv
  · exact ⟨_, enter_eq hgates (by omega) _ _, by simp [hnil]⟩
  · exact ⟨_, enter_eq hgates (by decide) _ _, by simp [hnil]⟩

/-- **Interrupts are served one at a time, and none gets stuck.**  Whatever the controllers
were at before `pic_remap`, in every state that any order of events leads to from there: of
the lines only the timer's and the keyboard's were ever taken; a line is in service only while
the outermost handler has still to acknowledge it, and the handlers inside acknowledge
nothing; its first acknowledgement leaves nothing in service, and a second one changes
nothing.  The handlers come to their end, with nothing in service and `IF` as it was; then,
if a line asks and is not masked, the foremost such line is taken, and an `int` of the user
starts a handler from `0x30` to `0x3F` or that of the general protection fault. -/
theorem interrupts_orderly (hgates : StubGates gates) {b : Board} {s₀ : System}
    (hboot : booted b = some s₀) (hrun : history gates es s₀ = some s) :
    (∀ v ∈ s.taken, v = PIC1_OFFSET + IRQ_TIMER ∨ v = PIC1_OFFSET + IRQ_KEYBOARD) ∧
    s.board.pics.slave.Quiet ∧
    (∀ i, s.board.pics.master.isr i = true → ∃ f, s.frames.getLast? = some f ∧
      f.vector = PIC1_OFFSET + UInt8.ofNat i ∧ f.acks ≠ []) ∧
    (∀ f ∈ s.frames.dropLast, f.acks = []) ∧
    (∀ f frames irq acks, s.frames = f :: frames → f.acks = irq :: acks →
      ∃ u, happen gates .proceed s = some u ∧ u.board.pics.master.Quiet ∧
        (acks ≠ [] → ∃ w, happen gates .proceed u = some w ∧ w.board = u.board)) ∧
    ∃ n t, history gates (List.replicate n .proceed) s = some t ∧ t.frames = [] ∧
      t.board.pics.master.Quiet ∧ t.interruptFlag = s.outerFlag ∧
      (t.interruptFlag = true → ∀ i, t.board.pics.master.irr i = true →
        t.board.pics.master.masked i = false → ∀ scancode m, ∃ u k,
          Foremost t.board.pics.master k ∧ happen gates (.deliver scancode m) t = some u ∧
          u.taken = (PIC1_OFFSET + UInt8.ofNat k) :: t.taken) ∧
      ∀ vector, ∃ u, happen gates (.int vector) t = some u ∧ u.frames.map Frame.vector =
        [if 0x30 ≤ vector.toNat ∧ vector.toNat ≤ 0x3F then vector else 13] := by
  have horder := (booted_orderly hboot).history hgates hrun
  obtain ⟨n, t, ht, hframes, horder', hback⟩ := horder.drain hgates
  refine ⟨horder.taken, horder.wired.slaveQuiet, fun i hi => horder.nested.serving hi,
    horder.nested.inner, fun f frames irq acks hf hacks => horder.acknowledge hf hacks, n, t, ht,
    hframes, horder'.nested.quiet hframes, hback, ?_,
    fun vector => Orderly.int_eq hgates hframes vector⟩
  exact fun hflag i hirr hmasked scancode m =>
    horder'.deliver_foremost hgates hframes hflag hirr hmasked scancode m

/-- The gates of `sampleStubs`. -/
def sampleGates (v : UInt8) : GateDescriptor :=
  if v.toNat < 64 then stubGate (sampleStubs v.toNat) v.toNat else IDTGate.zero.meaning

/-- A board that was left in the middle of things. -/
def sampleBoard : Board :=
  ⟨⟨⟨fun _ => true, fun i => i.val = 3, 0x0F, 0x08, 0, .icw3⟩,
    ⟨fun _ => true, fun _ => true, 0, 0x70, 0, .ready⟩⟩, ⟨0, some 7, 0⟩⟩

/-- A keyboard on, and a screen with its cursor in the corner. -/
def sampleConsole : Screen.Console :=
  ⟨⟨true, 0, false, false, -1, 0⟩, ⟨[], ⟨0, 0⟩, 0, 0⟩⟩

/-- A key that is acknowledged twice, the timer in between, and an `int 0x21` of the user. -/
def sampleEvents : List Event :=
  [.activateKeyboard, .raise 1, .deliver 0x1E sampleConsole, .raise 0, .proceed, .proceed, .proceed,
    .activateTimer, .enterUser, .int 0x21]

/-- That history on that board, from the boot on. -/
theorem interrupts_orderly_sample : ∃ s₀ s, booted sampleBoard = some s₀ ∧
    history sampleGates sampleEvents s₀ = some s ∧
    (∀ v ∈ s.taken, v = PIC1_OFFSET + IRQ_TIMER ∨ v = PIC1_OFFSET + IRQ_KEYBOARD) ∧
    s.board.pics.slave.Quiet ∧
    (∀ i, s.board.pics.master.isr i = true → ∃ f, s.frames.getLast? = some f ∧
      f.vector = PIC1_OFFSET + UInt8.ofNat i ∧ f.acks ≠ []) ∧
    (∀ f ∈ s.frames.dropLast, f.acks = []) ∧
    (∀ f frames irq acks, s.frames = f :: frames → f.acks = irq :: acks →
      ∃ u, happen sampleGates .proceed s = some u ∧ u.board.pics.master.Quiet ∧
        (acks ≠ [] → ∃ w, happen sampleGates .proceed u = some w ∧ w.board = u.board)) ∧
    ∃ n t, history sampleGates (List.replicate n .proceed) s = some t ∧ t.frames = [] ∧
      t.board.pics.master.Quiet ∧ t.interruptFlag = s.outerFlag ∧
      (t.interruptFlag = true → ∀ i, t.board.pics.master.irr i = true →
        t.board.pics.master.masked i = false → ∀ scancode m, ∃ u k,
          Foremost t.board.pics.master k ∧ happen sampleGates (.deliver scancode m) t = some u ∧
          u.taken = (PIC1_OFFSET + UInt8.ofNat k) :: t.taken) ∧
      ∀ vector, ∃ u, happen sampleGates (.int vector) t = some u ∧ u.frames.map Frame.vector =
        [if 0x30 ≤ vector.toNat ∧ vector.toNat ≤ 0x3F then vector else 13] := by
  obtain ⟨s₀, hboot⟩ := Option.isSome_iff_exists.1
    (show (booted sampleBoard).isSome = true by decide)
  have hrun : ((booted sampleBoard).bind (history sampleGates sampleEvents)).isSome = true := by
    decide
  rw [hboot] at hrun
  obtain ⟨s, hs⟩ := Option.isSome_iff_exists.1 hrun
  exact ⟨s₀, s, hboot, hs, interrupts_orderly ⟨sampleStubs, fun _ => rfl⟩ hboot hs⟩

/-! ### No request is lost -/

/-- A request is not taken back by what happens to another line. -/
theorem setLine_irr (p : Pair) {line : Fin 16} {v : Bool} {i : Fin 8}
    (h : v = true ∨ line.val ≠ i.val) (hirr : p.master.irr i = true) :
    (p.setLine line v).master.irr i = true := by
  unfold Pair.setLine
  split_ifs with hline
  · show Function.update p.master.irr _ v i = true
    rw [Function.update_apply]
    split_ifs with heq
    · obtain hv | hne := h
      · exact hv
      · rw [Fin.ext_iff] at heq
        simp only at heq
        omega
    · exact hirr
  · exact hirr

/-- A line that asks goes on asking, or is taken. -/
theorem Change.keeps (h : Change e s s') {i : Fin 8} (hirr : s.board.pics.master.irr i = true)
    (hkeep : ∀ line, e = .withdraw line → line.val ≠ i.val) :
    s'.board.pics.master.irr i = true ∨
      s'.taken = (PIC1_OFFSET + UInt8.ofNat i) :: s.taken := by
  cases h with
  | line line v hv => exact Or.inl (setLine_irr _ (hv.imp_right (hkeep line)) hirr)
  | take k acks hk hnil hne hlt =>
      by_cases hki : k = i
      · subst hki
        exact Or.inr rfl
      · left
        show Function.update s.board.pics.master.irr k false i = true
        rw [Function.update_of_ne (Ne.symm hki)]
        exact hirr
  | acknowledge f irq acks hframes hacks =>
      left
      show s.board.pics.master.endOfInterrupt.irr i = true
      rw [(endOfInterrupt_keeps _).1]
      exact hirr
  | push vector => exact Or.inl hirr
  | pop f frames hframes hacks => exact Or.inl hirr
  | mask v timer flag hv hnil => exact Or.inl hirr
  | flag flag hnil => exact Or.inl hirr

/-- What was taken stays on record. -/
theorem Change.taken_grows (h : Change e s s') : ∃ l, s'.taken = l ++ s.taken := by
  cases h with
  | take i acks hi hnil hne hlt => exact ⟨[_], rfl⟩
  | line line v hv => exact ⟨[], rfl⟩
  | push vector => exact ⟨[], rfl⟩
  | pop f frames hframes hacks => exact ⟨[], rfl⟩
  | acknowledge f irq acks hframes hacks => exact ⟨[], rfl⟩
  | mask v timer flag hv hnil => exact ⟨[], rfl⟩
  | flag flag hnil => exact ⟨[], rfl⟩

/-- What was taken stays taken. -/
theorem Orderly.taken_grows (hgates : StubGates gates) (h : Orderly s)
    (hs : Interrupt.history gates es s = some s') : ∃ l, s'.taken = l ++ s.taken := by
  induction es generalizing s with
  | nil =>
      obtain rfl := Option.some.inj hs
      exact ⟨[], rfl⟩
  | cons e es ih =>
      rw [history_cons] at hs
      obtain ⟨t, ht, hrest⟩ := Option.bind_eq_some_iff.1 hs
      obtain ⟨l, hl⟩ := ih (h.happen hgates ht) hrest
      obtain ⟨k, hk⟩ := (h.change hgates ht).taken_grows
      exact ⟨l ++ k, by rw [hl, hk, List.append_assoc]⟩

/-- **No request is lost.**  A line of the master that asks, in any state that the kernel
gets to, goes on asking in every order of events until its interrupt is taken, unless its own
device withdraws the request. -/
theorem requests_kept (hgates : StubGates gates) {b : Board} {s₀ : System} {es' : List Event}
    (hboot : booted b = some s₀) (hrun : history gates es s₀ = some s) {i : Fin 8}
    (hirr : s.board.pics.master.irr i = true) (hrun' : history gates es' s = some s')
    (hkeep : ∀ line, Event.withdraw line ∈ es' → line.val ≠ i.val) :
    s'.board.pics.master.irr i = true ∨
      ∃ l, s'.taken = l ++ s.taken ∧ PIC1_OFFSET + UInt8.ofNat i ∈ l := by
  have horder := (booted_orderly hboot).history hgates hrun
  clear hrun hboot
  induction es' generalizing s with
  | nil =>
      obtain rfl := Option.some.inj hrun'
      exact Or.inl hirr
  | cons e es' ih =>
      rw [history_cons] at hrun'
      obtain ⟨t, ht, hrest⟩ := Option.bind_eq_some_iff.1 hrun'
      have horder' := horder.happen hgates ht
      obtain hirr' | htaken := (horder.change hgates ht).keeps hirr fun line he =>
        hkeep line (by rw [he]; exact List.mem_cons_self)
      · obtain ⟨k, hk⟩ := (horder.change hgates ht).taken_grows
        obtain hend | ⟨l, hl, hmem⟩ := ih hirr' hrest
          (fun line hline => hkeep line (List.mem_cons_of_mem e hline)) horder'
        · exact Or.inl hend
        · refine Or.inr ⟨l ++ k, by rw [hl, hk, List.append_assoc], ?_⟩
          exact List.mem_append_left k hmem
      · obtain ⟨l, hl⟩ := horder'.taken_grows hgates hrest
        refine Or.inr ⟨l ++ [PIC1_OFFSET + UInt8.ofNat i], ?_, by simp⟩
        rw [hl, htaken, List.append_assoc]
        rfl

/-- The keyboard asks, and is served. -/
theorem requests_kept_sample : ∃ s₀ s s', booted sampleBoard = some s₀ ∧
    history sampleGates [.activateKeyboard, .raise 1] s₀ = some s ∧
    s.board.pics.master.irr 1 = true ∧
    history sampleGates [.raise 0, .deliver 0x1E sampleConsole, .withdraw 0] s = some s' ∧
    (s'.board.pics.master.irr 1 = true ∨
      ∃ l, s'.taken = l ++ s.taken ∧ PIC1_OFFSET + UInt8.ofNat (1 : Fin 8) ∈ l) := by
  obtain ⟨s₀, hboot⟩ := Option.isSome_iff_exists.1
    (show (booted sampleBoard).isSome = true by decide)
  have hall : (((booted sampleBoard).bind
      (history sampleGates [.activateKeyboard, .raise 1])).map fun s =>
        (s.board.pics.master.irr 1, (history sampleGates
          [.raise 0, .deliver 0x1E sampleConsole, .withdraw 0] s).isSome)) =
      some (true, true) := by
    decide
  rw [hboot] at hall
  obtain ⟨s, hs, hrest⟩ := Option.map_eq_some_iff.1 hall
  obtain ⟨hirr, hnext⟩ := Prod.mk.inj hrest
  obtain ⟨s', hs'⟩ := Option.isSome_iff_exists.1 hnext
  refine ⟨s₀, s, s', hboot, hs, hirr, hs', requests_kept ⟨sampleStubs, fun _ => rfl⟩ hboot hs hirr
    hs' ?_⟩
  intro line hline
  obtain rfl : line = 0 := by simpa using hline
  decide

end Interrupt
end Jatos
