/-
# Processes

`src/process.c` and `header/process/process.h`, and `kernel_setup` of
`src/kernel.c` up to the creation of the shell.

A process control block keeps the members that the code sets; `memory` is never
written.  `process_create_user_process` runs `read(request)` while the new page
directory is active: that fills the memory of the new process, which is no part
of this state, and its code is dropped.  A step that goes through a `NULL`
process control block answers `none`, like one of `paging.c` that goes astray.
-/

import Jatos.Foundation.Packed
import Jatos.Foundation.Runs
import Jatos.Process.Paging

namespace Jatos
namespace Process

open Packed

/-- Bytes of a process's name. -/
abbrev PROCESS_NAME_LENGTH_MAX : ℕ := 32
/-- Frames that a process may have. -/
abbrev PROCESS_PAGE_FRAME_COUNT_MAX : UInt32 := 8
/-- Processes that there may be. -/
abbrev PROCESS_COUNT_MAX : ℕ := 16
/-- The flag that is always set. -/
abbrev CPU_EFLAGS_BASE_FLAG : UInt32 := 0x2
/-- The flag that lets interrupts in. -/
abbrev CPU_EFLAGS_FLAG_INTERRUPT_ENABLE : UInt32 := 0x200
/-- The selector of the user's data segment. -/
abbrev GDT_USER_DATA_SEGMENT_SELECTOR : UInt32 := 0x20

/-- What a creation answers when it succeeds. -/
abbrev PROCESS_CREATE_SUCCESS : ℤ := 0
/-- What a creation answers when there are as many processes as there may be. -/
abbrev PROCESS_CREATE_FAIL_MAX_PROCESS_EXCEEDED : ℤ := 1
/-- What a creation answers for an entry point in the kernel's half. -/
abbrev PROCESS_CREATE_FAIL_INVALID_ENTRYPOINT : ℤ := 2
/-- What a creation answers when frames are missing. -/
abbrev PROCESS_CREATE_FAIL_NOT_ENOUGH_MEMORY : ℤ := 3

/-- A numeral denotes a slot. -/
instance : NeZero PROCESS_COUNT_MAX := ⟨by decide⟩

/-- `struct FAT32DriverRequest`, with `buf` as the address that it is. -/
structure ReadRequest where
  buf : UInt32
  name : Bytes 8
  ext : Bytes 3
  parentClusterNumber : UInt32
  bufferSize : UInt32

/-- `struct CPURegister`. -/
structure CPURegister where
  edi : UInt32
  esi : UInt32
  ebp : UInt32
  esp : UInt32
  ebx : UInt32
  edx : UInt32
  ecx : UInt32
  eax : UInt32
  gs : UInt32
  fs : UInt32
  es : UInt32
  ds : UInt32
  deriving DecidableEq

/-- `struct Context`. -/
structure Context where
  cpu : CPURegister
  eip : UInt32
  eflags : UInt32
  pageDirectoryVirtualAddr : UInt32
  deriving DecidableEq

/-- `PROCESS_STATE`. -/
inductive ProcessState
  | noProcess
  | ready
  | running
  | blocked
  deriving DecidableEq

/-- `struct ProcessControlBlock`. -/
structure ProcessControlBlock where
  pid : UInt32
  name : Bytes PROCESS_NAME_LENGTH_MAX
  state : ProcessState
  context : Context
  deriving DecidableEq

/-- A process control block of zeros. -/
def ProcessControlBlock.zero : ProcessControlBlock where
  pid := 0
  name := 0
  state := .noProcess
  context := ⟨⟨0, 0, 0, 0, 0, 0, 0, 0, 0, 0, 0, 0⟩, 0, 0, 0⟩

/-- The static variables of `paging.c` and `process.c`. -/
structure Kernel where
  paging : Paging
  listOfProcess : Fin PROCESS_COUNT_MAX → Bool
  activeProcessCount : UInt32
  processList : Fin PROCESS_COUNT_MAX → ProcessControlBlock

/-- What `process_create_user_process` assigns to `*new_pcb`; the other registers and
the other bits of `eflags` stay. -/
def ProcessControlBlock.setUp (newPcb : ProcessControlBlock) (request : ReadRequest)
    (pageDir pIndex : UInt32) : ProcessControlBlock where
  pid := pIndex
  name i := if h : i.val < 8 then request.name ⟨i, h⟩ else newPcb.name i
  state := .ready
  context :=
    { cpu :=
        { newPcb.context.cpu with
          ds := GDT_USER_DATA_SEGMENT_SELECTOR ||| 0x3
          es := GDT_USER_DATA_SEGMENT_SELECTOR ||| 0x3
          fs := GDT_USER_DATA_SEGMENT_SELECTOR ||| 0x3
          gs := GDT_USER_DATA_SEGMENT_SELECTOR ||| 0x3
          ebp := 0xBFFFFFFC
          esp := 0xBFFFFFFC }
      eip := request.buf
      eflags := newPcb.context.eflags |||
        (CPU_EFLAGS_BASE_FLAG ||| CPU_EFLAGS_FLAG_INTERRUPT_ENABLE)
      pageDirectoryVirtualAddr := pageDir }

/-- The body of `process_create_user_process`.  `loaded` is what its call `read(request)`
comes to, `none` where that does not return; an answer without it was given before. -/
def createWith {τ : Type} (loaded : Option τ) (p : Placement) (request : ReadRequest)
    (k : Kernel) : Option (ℤ × Kernel × Option τ) :=
  if h : k.activeProcessCount.toNat ≥ 16 then
    some (PROCESS_CREATE_FAIL_MAX_PROCESS_EXCEEDED, k, none)
  else if request.buf ≥ KERNEL_VIRTUAL_ADDRESS_BASE then
    some (PROCESS_CREATE_FAIL_INVALID_ENTRYPOINT, k, none)
  else
    let pageFrameCountNeeded := ceilDiv (request.bufferSize + PAGE_FRAME_SIZE) PAGE_FRAME_SIZE
    if !pagingAllocateCheck pageFrameCountNeeded k.paging ∨
        pageFrameCountNeeded > PROCESS_PAGE_FRAME_COUNT_MAX then
      some (PROCESS_CREATE_FAIL_NOT_ENOUGH_MEMORY, k, none)
    else do
      let pIndex : Fin 16 := ⟨k.activeProcessCount.toNat, by omega⟩
      let (pageDir, s) := pagingCreateNewPageDirectory p k.paging
      let oldPageDir := pagingGetCurrentPageDirectoryAddr s
      let s := pagingUsePageDirectory pageDir s
      let (_, s) ← pagingAllocateUserPageFrame p pageDir request.buf s
      let (_, s) ← pagingAllocateUserPageFrame p pageDir 0xBFFFFFFC s
      let read ← loaded
      let s := pagingUsePageDirectory oldPageDir s
      some (PROCESS_CREATE_SUCCESS,
        { k with
          paging := s
          processList := Function.update k.processList pIndex
            ((k.processList pIndex).setUp request pageDir k.activeProcessCount)
          activeProcessCount := k.activeProcessCount + 1 },
        some read)

/-- `process_create_user_process`, as far as the kernel goes: `read` returns. -/
def processCreateUserProcess (p : Placement) (request : ReadRequest) (k : Kernel) :
    Option (ℤ × Kernel) :=
  (createWith (some ()) p request k).map fun r => (r.1, r.2.1)

/-- The process control block that `process_destroy` looks up. -/
def Kernel.pcbOf (k : Kernel) (pid : UInt32) : Option (Fin 16) :=
  Fin.find? fun i => (k.processList i).pid = pid

/-- `process_destroy`. -/
def processDestroy (p : Placement) (pid : UInt32) (k : Kernel) : Option (Bool × Kernel) :=
  if h : pid.toNat ≥ 16 then some (false, k)
  else
    let slot : Fin 16 := ⟨pid.toNat, by omega⟩
    if k.listOfProcess slot then some (false, k)
    else
      match k.pcbOf pid with
      -- `pcb` is `NULL`
      | none => none
      | some i =>
          let pageDir := (k.processList i).context.pageDirectoryVirtualAddr
          some (true,
            { k with
              paging := (pagingFreePageDirectory p pageDir k.paging).2
              listOfProcess := Function.update k.listOfProcess slot false
              processList := Function.update k.processList slot .zero
              activeProcessCount := k.activeProcessCount - 1 })

/-- The static variables when `kernel_setup` creates the shell: one page frame is
allocated at address 0 of the kernel's page directory. -/
def kernelSetup (p : Placement) : Option Kernel :=
  (pagingAllocateUserPageFrame p p.pagingKernelPageDirectory 0 (Paging.initial p)).map fun r =>
    { paging := r.2
      listOfProcess := fun _ => false
      activeProcessCount := 0
      processList := fun _ => .zero }

/-! ### Calls -/

/-- The calls that the rest of the kernel makes. -/
inductive Call
  | create (request : ReadRequest)
  | destroy (pid : UInt32)

/-- What a call returns. -/
inductive Answer
  | created (code : ℤ)
  | destroyed (done : Bool)
  deriving DecidableEq

/-- One call. -/
def serve (p : Placement) : Call → Kernel → Option (Answer × Kernel)
  | .create request, k =>
      (processCreateUserProcess p request k).map fun r => (.created r.1, r.2)
  | .destroy pid, k => (processDestroy p pid k).map fun r => (.destroyed r.1, r.2)

/-- A program of 1 MiB at address 0, as the shell asks for. -/
def program : ReadRequest := ⟨0, 0, 0, 2, 0x100000⟩

end Process
end Jatos
