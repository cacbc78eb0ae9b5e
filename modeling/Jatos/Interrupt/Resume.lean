/-
# The registers survive an interrupt

Two paths lead back to an interrupted program: the end of
`call_generic_handler`, and `process_context_switch` with a `struct Context`
that was filled from the frame.  The stub's pushes, the packed records and the
offsets in the switch agree on where each register lies, so both restore all
of them (`registers_resumed`).
-/

import Jatos.Interrupt.Code
import Jatos.Process.Invariant

namespace Jatos

open X86 Memory Packed

/-! ### Records in memory -/

/-- `struct CPURegister` as doublewords. -/
def Process.CPURegister.words (r : Process.CPURegister) : List UInt32 :=
  [r.edi, r.esi, r.ebp, r.esp, r.ebx, r.edx, r.ecx, r.eax, r.gs, r.fs, r.es, r.ds]

/-- `struct Context` as doublewords. -/
def Process.Context.words (ctx : Process.Context) : List UInt32 :=
  ctx.cpu.words ++ [ctx.eip, ctx.eflags, ctx.pageDirectoryVirtualAddr]

namespace Interrupt

open Process

/-- `struct InterruptFrame` as doublewords. -/
def InterruptFrame.words (frame : InterruptFrame) : List UInt32 :=
  frame.cpu.words ++ [frame.intNumber, frame.intStack.errorCode, frame.intStack.eip,
    frame.intStack.cs, frame.intStack.eflags]

variable {m m' : Machine} {u : Registers} {mem : ByteMemory} {a number : UInt32}
  {l : List UInt32} {flags : UInt32 → UInt32 → UInt32}

/-- The words of the general registers are where they were pushed. -/
theorem load_cpuRegister {cpu : CPURegister} :
    load cpuRegister mem a = cpu ↔ Holds mem a cpu.words := by
  rw [cpuRegister, load_trans, Equiv.symm_apply_eq]
  simp [load_pair, cpuRegisterMembers, CPURegister.words, Holds]

/-- The words of a context are where it lies. -/
theorem load_context {ctx : Context} : load context mem a = ctx ↔ Holds mem a ctx.words := by
  rw [Context.words, holds_append, ← load_cpuRegister, context, load_trans, Equiv.symm_apply_eq]
  simp [load_pair, CPURegister.words, Holds]

/-- The words of a frame are where they were pushed. -/
theorem load_interruptFrame {frame : InterruptFrame} :
    load interruptFrame mem a = frame ↔ Holds mem a frame.words := by
  obtain ⟨cpu, number, code, eip, cs, eflags⟩ := frame
  rw [InterruptFrame.words, holds_append, ← load_cpuRegister, interruptFrame, load_trans,
    Equiv.symm_apply_eq]
  simp [load_pair, interruptStack, load_trans, CPURegister.words, Holds]

/-! ### The frame -/

/-- A program at ring 3, with the segments that the kernel gives it. -/
structure Ring3 (r : Registers) : Prop where
  cs : r.cs = 0x1B
  ss : r.ss = 0x23
  ds : r.ds = 0x23
  es : r.es = 0x23
  fs : r.fs = 0x23
  gs : r.gs = 0x23

/-- The general registers and the data segments, as `struct CPURegister` has them. -/
def cpuOf (r : Registers) : CPURegister where
  edi := r.edi
  esi := r.esi
  ebp := r.ebp
  esp := r.esp
  ebx := r.ebx
  edx := r.edx
  ecx := r.ecx
  eax := r.eax
  gs := r.gs.toUInt32
  fs := r.fs.toUInt32
  es := r.es.toUInt32
  ds := r.ds.toUInt32

/-- The frame of an interrupt without an error code, with the registers of the
interrupted program. -/
def frameOf (r : Registers) (number : UInt32) : InterruptFrame where
  cpu := cpuOf r
  intNumber := number
  intStack := ⟨0, r.eip, r.cs.toUInt32, r.eflags⟩

/-- The stack that `main_interrupt_handler` is called on, behind the return address. -/
def handlerStack (r : Registers) (number : UInt32) : List UInt32 :=
  (frameOf r number).words ++ [r.esp, r.ss.toUInt32]

/-- What `main_interrupt_handler` finds. -/
def handlerView (g : Gate) (r : Registers) (number returnAddress : UInt32) : View :=
  { r with
    cs := g.cs
    eip := g.offset
    ss := g.ss0
    ds := 0x10
    es := 0x10
    fs := 0x10
    gs := 0x10
    eflags := g.flags r.eflags
    ebp := g.esp0 - 76
    esp := g.esp0 - 80
    stack := returnAddress :: handlerStack r number }

/-- The flags after a result that is not zero. -/
theorem flagsOf_and_zeroFlag {result : UInt32} (c : Processor) (eflags : UInt32)
    (h : result ≠ 0) : c.flagsOf eflags result &&& zeroFlag = 0 := by
  rw [Processor.flagsOf, if_neg h, UInt32.and_assoc]
  have hz : ~~~zeroFlag &&& zeroFlag = 0 := by decide
  rw [hz, UInt32.and_zero]

/-- `ax` behind `mov ax, 0x10`. -/
theorem toUInt16_movLow (x : UInt32) : (x &&& 0xFFFF0000 ||| 0x10).toUInt16 = 0x10 := by
  rw [UInt32.toUInt16_or, UInt32.toUInt16_and]
  have hz : (0xFFFF0000 : UInt32).toUInt16 = 0 := by decide
  rw [hz, UInt16.and_zero, UInt16.zero_or]
  rfl

/-- The view behind the pushes of the stub. -/
def stubView (c : Processor) (g : Gate) (r : Registers) (number : UInt32) : View :=
  { View.interrupted g r with
    eax := r.ds.toUInt32 &&& 3
    eflags := c.flagsOf (g.flags r.eflags) (r.ds.toUInt32 &&& 3)
    esp := g.esp0 - 84
    stack := [r.eax, g.flags r.eflags, r.edi, r.esi, r.ebp,
      g.esp0 - 44, r.ebx, r.edx, r.ecx, r.eax,
      r.gs.toUInt32, r.fs.toUInt32, r.es.toUInt32, r.ds.toUInt32, number, 0,
      r.eip, r.cs.toUInt32, r.eflags, r.esp, r.ss.toUInt32] }

/-- The stub pushes the number, the registers and the segments. -/
theorem run_stub (c : Processor) (g : Gate) (r : Registers) (number : UInt32) :
    (View.interrupted g r).run c (noErrorCodeInterruptHandler number ++ callGenericHandler) =
      some (stubView c g r number) := by
  simp [noErrorCodeInterruptHandler, callGenericHandler, View.run, View.step, View.push,
    Registers.getSegment, Registers.next, Registers.get, Registers.set, View.word, View.enter,
    View.interrupted, stubView, sub_sub]

/-- The handler is called on the kernel's segments. -/
theorem run_interprivilege (c : Processor) (g : Gate) (r : Registers)
    (number returnAddress : UInt32) :
    (stubView c g r number).run c (interprivilegeInterrupt ++ segmentRegisterSetup ++
      [.pushImmediate returnAddress]) = some (handlerView g r number returnAddress) := by
  have hcall : g.esp0 - 76 - 4 = g.esp0 - 80 := by
    rw [sub_sub]
    rfl
  simp [interprivilegeInterrupt, segmentRegisterSetup, View.run, View.step, View.push,
    Registers.setSegment, Registers.next, Registers.get, Registers.set, View.word, View.enter,
    View.store, View.interrupted, stubView, handlerView, handlerStack, frameOf, cpuOf,
    InterruptFrame.words, CPURegister.words, toUInt16_movLow, sub_add, hcall,
    -UInt32.toUInt16_or]

/-- **What the stub leaves on the stack.** -/
theorem sees_enterHandler {u : Machine} (h : Ring3 u.toRegisters) (c : Processor) (g : Gate)
    (number returnAddress : UInt32) : (enterHandler c g number returnAddress u).Sees
      (handlerView g u.toRegisters number returnAddress) := by
  have hstub := (u.sees_interrupt g).run (by simp [View.interrupted, noErrorCodeInterruptHandler,
    callGenericHandler]) (run_stub c g u.toRegisters number)
  rw [Machine.run_append] at hstub
  -- the selector of `ds` is the program's: the jump over the user's `esp` is not taken
  have hflags : (((u.interrupt g).run c (noErrorCodeInterruptHandler number)).run c
      callGenericHandler).eflags &&& zeroFlag = 0 := by
    rw [hstub.registers]
    exact flagsOf_and_zeroFlag c _ (by rw [h.ds]; decide)
  have henter := hstub.run (by simp [stubView, interprivilegeInterrupt, segmentRegisterSetup])
    (run_interprivilege c g u.toRegisters number returnAddress)
  rw [Machine.run_append, Machine.run_append] at henter
  simp only [enterHandler, hflags, ne_eq, not_true_eq_false, if_false]
  exact henter

/-! ### The two ways back -/

/-- The stack that `iret` resumes the program from. -/
def iretStack (u : Registers) : List UInt32 :=
  [u.eip, u.cs.toUInt32, u.eflags, u.esp, u.ss.toUInt32]

/-- **The return to ring 3**, when all the other registers are the program's. -/
theorem next_iret {s : View} {cs ss : UInt16} {eip eflags esp : UInt32} (h : Ring3 u)
    (hs : s = { u with
      cs := cs, ss := ss, eip := eip, eflags := eflags, esp := esp, stack := iretStack u ++ l })
    (hcs : level cs = 0) : s.next (processor flags) s.word .iret = some u := by
  obtain rfl := hs
  obtain ⟨hcs₃, hss, hds, hes, hfs, hgs⟩ := h
  have hout : level 0x1B = 3 := rfl
  have hsegment : (processor flags).outerSegment 3 0x23 = 0x23 := rfl
  obtain ⟨eax, ecx, edx, ebx, esp, ebp, esi, edi, eip, eflags, cs', ss', ds, es, fs, gs⟩ := u
  obtain rfl : cs' = 0x1B := hcs₃
  obtain rfl : ds = 0x23 := hds
  obtain rfl : es = 0x23 := hes
  obtain rfl : fs = 0x23 := hfs
  obtain rfl : gs = 0x23 := hgs
  simp [Registers.next, View.word, iretStack, hcs, hout, Processor.outer, hsegment]

/-- Restoring gives the registers back, all but the code segment. -/
theorem run_restoreRegisters (c : Processor) (r u : Registers) (number : UInt32) :
    View.run c ⟨r, handlerStack u number⟩ restoreRegisters.dropLast =
      some
        { u with
          cs := r.cs
          ss := r.ss
          eip := r.eip
          eflags := c.flagsOf r.eflags (r.esp + 56)
          esp := r.esp + 56
          stack := iretStack u } := by
  simp [restoreRegisters, View.run, View.step, Registers.setSegment, Registers.next, Registers.get,
    Registers.set, View.word, View.enter, handlerStack, frameOf, cpuOf, iretStack, add_assoc,
    InterruptFrame.words, CPURegister.words]

/-- The addresses that `process_context_switch` reads, from the top of its stack. -/
theorem add_sub_sub (e a b d : UInt32) : e + a - (d - b) = e + a - d + b := by
  rw [sub_sub_eq_add_sub, add_sub_right_comm]

@[inherit_doc add_sub_sub]
theorem add_add_sub (e a b : UInt32) : e + a + b - e = a + b := by
  rw [add_assoc, add_sub_cancel_left]

/-- A context switch loads the registers of the context. -/
theorem run_processContextSwitch (h : Ring3 u) (c : Processor) (r : Registers)
    (returnAddress pageDir : UInt32) :
    View.run c ⟨r, returnAddress :: Context.words ⟨cpuOf u, u.eip, u.eflags, pageDir⟩⟩
      processContextSwitch.dropLast = some
        { u with
          cs := r.cs
          ss := r.ss
          eip := r.eip
          eflags := r.eflags
          esp := r.esp - 20
          stack := iretStack u ++
            returnAddress :: Context.words ⟨cpuOf u, u.eip, u.eflags, pageDir⟩ } := by
  have hcs : (0x18 ||| 0x3 : UInt32) = 0x1B := by decide
  have hss : (0x20 ||| 0x3 : UInt32) = 0x23 := by decide
  simp [processContextSwitch, View.run, View.step, View.push, Registers.next, Registers.get,
    Registers.set, Registers.setSegment, View.word, View.enter, Context.words, CPURegister.words,
    cpuOf, iretStack, sub_sub, add_sub_sub, add_add_sub, hcs, hss, h.cs, h.ss]

/-- `main_interrupt_handler` returns, and the frame it was given and the stack of the
interrupted program behind it are as they were. -/
structure Returns (m m' : Machine) : Prop where
  esp : m'.esp = m.esp + 4
  cs : m'.cs = m.cs
  frame : ∀ x, (x - m'.esp).toNat < 76 → m'.mem x = m.mem x

/-- The end of `call_generic_handler`. -/
theorem resumed_by_return {g : Gate} {returnAddress : UInt32} (h : Ring3 u)
    (hm : m.Sees (handlerView g u number returnAddress)) (hg : level g.cs = 0)
    (hr : Returns m m') : (m'.run (processor flags) restoreRegisters).toRegisters = u := by
  have hstack : Holds m'.mem m'.esp (handlerStack u number) := by
    have hesp : m.esp = (handlerView g u number returnAddress).esp :=
      congrArg Registers.esp hm.registers
    have hlen : 4 * (handlerStack u number).length = 76 := rfl
    rw [hr.esp, hesp]
    refine hm.stack.2.congr (by rw [hlen]; decide) fun x hx => hr.frame x ?_
    rwa [hr.esp, hesp, ← hlen]
  have hs : m'.Sees ⟨m'.toRegisters, handlerStack u number⟩ := ⟨rfl, hstack⟩
  have hlen : (handlerStack u number).length + 8 * restoreRegisters.dropLast.length ≤ 2 ^ 30 := by
    rw [show (handlerStack u number).length = 19 from rfl]
    decide
  refine hs.run_iret hlen (run_restoreRegisters _ _ u number) (next_iret h rfl ?_)
  rw [hr.cs, congrArg Registers.cs hm.registers]
  exact hg

/-- `process_context_switch`. -/
theorem resumed_by_switch {pageDir : UInt32} (h : Ring3 u) (hcs : level m.cs = 0)
    (hm : load context m.mem (m.esp + 4) = ⟨cpuOf u, u.eip, u.eflags, pageDir⟩) :
    (m.run (processor flags) processContextSwitch).toRegisters = u := by
  have hs : m.Sees ⟨m.toRegisters,
      m.word m.esp :: Context.words ⟨cpuOf u, u.eip, u.eflags, pageDir⟩⟩ :=
    ⟨rfl, rfl, load_context.1 hm⟩
  have hlen : (Context.words ⟨cpuOf u, u.eip, u.eflags, pageDir⟩).length + 1 +
      8 * processContextSwitch.dropLast.length ≤ 2 ^ 30 := by
    rw [show (Context.words ⟨cpuOf u, u.eip, u.eflags, pageDir⟩).length = 15 from rfl]
    decide
  have hcode : processContextSwitch = processContextSwitch.dropLast ++ [.iret] := by
    simp [processContextSwitch]
  rw [hcode]
  exact hs.run_iret hlen (run_processContextSwitch h _ _ _ pageDir) (next_iret h rfl hcs)

/-- **The registers survive an interrupt**: the frame of a program at ring 3 holds its
registers, and both ways back restore all of them, the return from the handler and the
switch to a context that was filled from the frame. -/
theorem registers_resumed (flags : UInt32 → UInt32 → UInt32) (entryFlags : UInt32 → UInt32)
    (number offset esp0 returnAddress : UInt32) (user : Machine) (h : Ring3 user.toRegisters) :
    let c := processor flags
    let entered := enterHandler c (gate offset esp0 entryFlags) number returnAddress user
    let frame := load interruptFrame entered.mem (entered.esp + 4)
    frame = frameOf user.toRegisters number ∧
      (∀ m, Returns entered m → (m.run c restoreRegisters).toRegisters = user.toRegisters) ∧
      ∀ (k : Kernel) (m : Machine), level m.cs = 0 →
        load context m.mem (m.esp + 4) = frame.saved.context k →
        (m.run c processContextSwitch).toRegisters = user.toRegisters := by
  intro c entered frame
  have hentered := sees_enterHandler h c (gate offset esp0 entryFlags) number returnAddress
  have hframe : frame = frameOf user.toRegisters number := by
    have hesp : entered.esp = _ := congrArg Registers.esp hentered.registers
    refine load_interruptFrame.2 ?_
    rw [hesp]
    exact (holds_append.1 hentered.stack.2).1
  have hgate : level (gate offset esp0 entryFlags).cs = 0 := show level 0x8 = 0 by decide
  refine ⟨hframe, fun m hm => resumed_by_return h hentered hgate hm, fun k m hcs hm => ?_⟩
  rw [hframe] at hm
  exact resumed_by_switch h hcs hm

/-- A program at ring 3. -/
def program : Machine where
  eax := 1
  ecx := 2
  edx := 3
  ebx := 4
  esp := 0xBFFFFFFC
  ebp := 6
  esi := 7
  edi := 8
  eip := 0x1000
  eflags := 0x246
  cs := 0x1B
  ss := 0x23
  ds := 0x23
  es := 0x23
  fs := 0x23
  gs := 0x23
  mem _ := 0

/-- The timer's interrupt of the program. -/
def interrupted : Machine :=
  enterHandler (processor fun _ result => result) (gate 0xC0101000 0xC0300000 fun _ => 2) 0x20
    0xC0102000 program

/-- Behind the return from a handler. -/
def returned (m : Machine) : Machine := { m with esp := m.esp + 4 }

/-- The machine returned is one that the interrupted machine returns to. -/
theorem returns_returned (m : Machine) : Returns m (returned m) :=
  ⟨rfl, rfl, fun _ _ => rfl⟩

/-- A switch to the context that was saved. -/
def switching : Machine :=
  { program with
    cs := 0x8
    esp := 0xC0200000
    mem := Memory.store context program.mem (0xC0200000 + 4)
      ((frameOf program.toRegisters 0x20).saved.context (Kernel.boot afterCode)) }

/-- The timer's interrupt of the program, the way back, and a switch to what was saved. -/
theorem registers_resumed_sample :
    load interruptFrame interrupted.mem (interrupted.esp + 4) =
        frameOf program.toRegisters 0x20 ∧
      ((returned interrupted).run (processor fun _ result => result) restoreRegisters).toRegisters =
        program.toRegisters ∧
      (switching.run (processor fun _ result => result) processContextSwitch).toRegisters =
        program.toRegisters := by
  obtain ⟨hframe, hreturn, hswitch⟩ := registers_resumed (fun _ result => result) (fun _ => 2) 0x20
    0xC0101000 0xC0300000 0xC0102000 program ⟨rfl, rfl, rfl, rfl, rfl, rfl⟩
  have hcs : level switching.cs = 0 := rfl
  have hsaved : load context switching.mem (switching.esp + 4) =
      (frameOf program.toRegisters 0x20).saved.context (Kernel.boot afterCode) :=
    load_store context _ _ _ (by decide)
  refine ⟨hframe, hreturn _ (returns_returned interrupted),
    hswitch (Kernel.boot afterCode) switching hcs ?_⟩
  rw [hframe]
  exact hsaved

end Interrupt
end Jatos
