/-
# Interrupt entry and context switch

The stubs without an error code and `call_generic_handler` of
`header/interrupt/intsetup.s`, `process_context_switch` of `ctx_switch.s`, and
the packed records of `header/interrupt/interrupt.h` that the C code reads the
stack with.  The one branch of the code, around the part for an interrupt of
another privilege level, is spelled out in `enterHandler`; the code in front of
a label bears the name of the label before it.
-/

import Jatos.Foundation.X86
import Jatos.Process.Scheduler

namespace Jatos
namespace Interrupt

open X86 Memory Packed Process

/-! ### Code -/

/-- `no_error_code_interrupt_handler`. -/
def noErrorCodeInterruptHandler (number : UInt32) : List Instruction :=
  [.pushImmediate 0, .pushImmediate number]

/-- `call_generic_handler`, up to the branch. -/
def callGenericHandler : List Instruction :=
  [.pushSegment .ds, .pushSegment .es, .pushSegment .fs, .pushSegment .gs, .pushad, .pushf,
    .push .eax, .load .eax .esp 52, .and .eax 0x3]

/-- `interprivilege_interrupt`. -/
def interprivilegeInterrupt : List Instruction :=
  [.load .eax .esp 76, .store .esp 20 .eax]

/-- `segment_register_setup`, up to the call. -/
def segmentRegisterSetup : List Instruction :=
  [.movLow .eax 0x10, .movSegment .ds .eax, .movSegment .es .eax, .movSegment .fs .eax,
    .movSegment .gs .eax, .pop .eax, .popf, .mov .ebp .esp]

/-- `segment_register_setup`, behind the call. -/
def restoreRegisters : List Instruction :=
  [.popad, .popSegment .gs, .popSegment .fs, .popSegment .es, .popSegment .ds, .add .esp 8, .iret]

/-- `process_context_switch`. -/
def processContextSwitch : List Instruction :=
  [.lea .ecx .esp 0x04,
    .movImmediate .eax (0x20 ||| 0x3), .push .eax,
    .load .eax .ecx 12, .push .eax,
    .load .eax .ecx 52, .push .eax,
    .movImmediate .eax (0x18 ||| 0x3), .push .eax,
    .load .eax .ecx 48, .push .eax,
    .load .edi .ecx 0, .load .esi .ecx 4, .load .ebp .ecx 8, .load .ebx .ecx 16,
    .load .edx .ecx 20, .load .eax .ecx 28,
    .loadSegment .gs .ecx 32, .loadSegment .fs .ecx 36, .loadSegment .es .ecx 40,
    .loadSegment .ds .ecx 44,
    .load .ecx .ecx 24,
    .iret]

/-- The privilege levels of `global_descriptor_table`: its entries 3 and 4 are the
user's. -/
def descriptorLevel (selector : UInt16) : UInt16 :=
  if selector >>> 3 = 3 ∨ selector >>> 3 = 4 then 3 else 0

/-- The processor with that table. -/
def processor (flags : UInt32 → UInt32 → UInt32) : Processor := ⟨flags, descriptorLevel⟩

/-- A gate of the interrupt descriptor table, with the stack of `_interrupt_tss_entry`. -/
def gate (offset esp0 : UInt32) (flags : UInt32 → UInt32) : Gate where
  cs := 0x8
  offset := offset
  ss0 := 0x10
  esp0 := esp0
  flags := flags

/-- From an interrupt to the first instruction of `main_interrupt_handler`. -/
def enterHandler (c : Processor) (g : Gate) (number returnAddress : UInt32) (m : Machine) :
    Machine :=
  let m := (m.interrupt g).run c (noErrorCodeInterruptHandler number)
  let m := m.run c callGenericHandler
  -- `jz segment_register_setup`
  let m := if m.eflags &&& zeroFlag ≠ 0 then m else m.run c interprivilegeInterrupt
  (m.run c segmentRegisterSetup).push returnAddress

/-! ### Records -/

/-- `struct InterruptStack`. -/
structure InterruptStack where
  errorCode : UInt32
  eip : UInt32
  cs : UInt32
  eflags : UInt32
  deriving DecidableEq

/-- `struct InterruptFrame`. -/
structure InterruptFrame where
  cpu : CPURegister
  intNumber : UInt32
  intStack : InterruptStack
  deriving DecidableEq

/-- The part of the frame that the timer's case reads. -/
def InterruptFrame.saved (frame : InterruptFrame) : Process.InterruptFrame :=
  ⟨frame.cpu, frame.intStack.eip, frame.intStack.eflags⟩

/-- The members of `struct CPURegister`, in their order. -/
def cpuRegisterMembers : CPURegister ≃ UInt32 × UInt32 × UInt32 × UInt32 × UInt32 × UInt32 ×
    UInt32 × UInt32 × UInt32 × UInt32 × UInt32 × UInt32 where
  toFun r := (r.edi, r.esi, r.ebp, r.esp, r.ebx, r.edx, r.ecx, r.eax, r.gs, r.fs, r.es, r.ds)
  invFun := fun (edi, esi, ebp, esp, ebx, edx, ecx, eax, gs, fs, es, ds) =>
    ⟨edi, esi, ebp, esp, ebx, edx, ecx, eax, gs, fs, es, ds⟩
  left_inv _ := rfl
  right_inv _ := rfl

/-- `struct CPURegister` in memory. -/
def cpuRegister : Layout CPURegister 48 :=
  cpuRegisterMembers.trans (pair u32 (pair u32 (pair u32 (pair u32 (pair u32 (pair u32 (pair u32
    (pair u32 (pair u32 (pair u32 (pair u32 u32)))))))))))

/-- `struct InterruptStack` in memory. -/
def interruptStack : Layout InterruptStack 16 :=
  Equiv.trans
    { toFun := fun s => (s.errorCode, s.eip, s.cs, s.eflags)
      invFun := fun (errorCode, eip, cs, eflags) => ⟨errorCode, eip, cs, eflags⟩
      left_inv := fun _ => rfl
      right_inv := fun _ => rfl }
    (pair u32 (pair u32 (pair u32 u32)))

/-- `struct InterruptFrame` in memory. -/
def interruptFrame : Layout InterruptFrame 68 :=
  Equiv.trans
    { toFun := fun frame => (frame.cpu, frame.intNumber, frame.intStack)
      invFun := fun (cpu, intNumber, intStack) => ⟨cpu, intNumber, intStack⟩
      left_inv := fun _ => rfl
      right_inv := fun _ => rfl }
    (pair cpuRegister (pair u32 interruptStack))

/-- `struct Context` in memory. -/
def context : Layout Context 60 :=
  Equiv.trans
    { toFun := fun ctx => (ctx.cpu, ctx.eip, ctx.eflags, ctx.pageDirectoryVirtualAddr)
      invFun := fun (cpu, eip, eflags, pageDir) => ⟨cpu, eip, eflags, pageDir⟩
      left_inv := fun _ => rfl
      right_inv := fun _ => rfl }
    (pair cpuRegister (pair u32 (pair u32 u32)))

end Interrupt
end Jatos
