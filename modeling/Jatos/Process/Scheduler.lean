/-
# The scheduler

`src/scheduler.c`, the timer's case of `main_interrupt_handler` in
`src/interrupt.c`, and the rest of `kernel_setup`.

`process_context_switch` loads a context and does not return; a switch answers
the slot that it went to and the context it handed over.  The acknowledgement
of the interrupt is no part of the state.  The search for the next slot runs
for 16 rounds at most, which `switch_eq` shows to be enough.
-/

import Jatos.Foundation.Cyclic
import Jatos.Process.Control

namespace Jatos
namespace Process

open Cyclic

variable {p : Placement} {k k' : Kernel} {slot cur next : Fin 16} {d : Dispatch}

/-- The members of `struct InterruptFrame` that the handler of the timer reads. -/
structure InterruptFrame where
  cpu : CPURegister
  eip : UInt32
  eflags : UInt32

/-- The process that a switch went to, and the context it handed over. -/
structure Dispatch where
  slot : Fin 16
  context : Context
  deriving DecidableEq

/-- `process_get_current_running_pcb_pointer`. -/
def Kernel.processGetCurrentRunningPcbPointer (k : Kernel) : Option (Fin 16) :=
  Fin.find? fun i => (k.processList i).state = .running

/-- `scheduler_save_context_to_current_running_pcb`. -/
def schedulerSaveContextToCurrentRunningPcb (ctx : Context) (k : Kernel) : Kernel :=
  match k.processGetCurrentRunningPcbPointer with
  | none => k
  | some current =>
      { k with
        processList :=
          Function.update k.processList current { k.processList current with context := ctx } }

/-- `_process_list[slot].metadata.state = state`. -/
def setState (list : Fin 16 → ProcessControlBlock) (slot : Fin 16) (state : ProcessState) :
    Fin 16 → ProcessControlBlock :=
  Function.update list slot { list slot with state := state }

/-- `scheduler_switch_to_next_process`; `idx_next + 1` is taken in `Fin 16`, where it
wraps around. -/
def schedulerSwitchToNextProcess (k : Kernel) : Option (Dispatch × Kernel) := do
  let (idxRun, list) :=
    match k.processGetCurrentRunningPcbPointer with
    | some current => (current, k.processList)
    | none => (0, setState k.processList 0 .running)
  let idxNext ← scan (fun i => !((list i).state ≠ .ready ∧ i ≠ idxRun)) 16 (idxRun + 1)
  let list := setState list idxRun .ready
  let list := setState list idxNext .running
  let pageDir := (list idxNext).context.pageDirectoryVirtualAddr
  some (⟨idxNext, (list idxNext).context⟩,
    { k with processList := list, paging := pagingUsePageDirectory pageDir k.paging })

/-- `ctx` of `main_interrupt_handler`. -/
def InterruptFrame.context (frame : InterruptFrame) (k : Kernel) : Context where
  cpu := frame.cpu
  eip := frame.eip
  eflags := frame.eflags
  pageDirectoryVirtualAddr := pagingGetCurrentPageDirectoryAddr k.paging

/-- The timer's case of `main_interrupt_handler`. -/
def timerInterrupt (frame : InterruptFrame) (k : Kernel) : Option (Dispatch × Kernel) :=
  schedulerSwitchToNextProcess (schedulerSaveContextToCurrentRunningPcb (frame.context k) k)

/-- What `kernel_setup` loads as the shell. -/
def shell : ReadRequest where
  buf := 0
  name := ![0x73, 0x68, 0x65, 0x6C, 0x6C, 0, 0, 0]
  ext := 0
  parentClusterNumber := 2
  bufferSize := 0x100000

/-- Two timer interrupts. -/
def tick : InterruptFrame := ⟨⟨1, 2, 3, 4, 5, 6, 7, 8, 0x23, 0x23, 0x23, 0x23⟩, 0x1000, 0x202⟩

@[inherit_doc tick]
def tock : InterruptFrame := ⟨⟨8, 7, 6, 5, 4, 3, 2, 1, 0x23, 0x23, 0x23, 0x23⟩, 0x2000, 0x246⟩

/-- `kernel_setup`, up to the switch to the shell. -/
def kernelSetupShell (p : Placement) : Option (Dispatch × Kernel) := do
  let k ← kernelSetup p
  let (_, k) ← processCreateUserProcess p shell k
  schedulerSwitchToNextProcess k

/-! ### Events -/

/-- What happens to the kernel. -/
inductive Event
  | call (c : Call)
  | switch
  | timer (frame : InterruptFrame)

/-- What comes of it. -/
inductive Outcome
  | answered (a : Answer)
  | dispatched (d : Dispatch)
  deriving DecidableEq

/-- One event. -/
def handle (p : Placement) : Event → Kernel → Option (Outcome × Kernel)
  | .call c, k => (serve p c k).map fun r => (.answered r.1, r.2)
  | .switch, k => (schedulerSwitchToNextProcess k).map fun r => (.dispatched r.1, r.2)
  | .timer frame, k => (timerInterrupt frame k).map fun r => (.dispatched r.1, r.2)

/-- A call that is handled was served. -/
theorem handle_call {c : Call} {o : Outcome} (h : handle p (.call c) k = some (o, k')) :
    ∃ a, serve p c k = some (a, k') ∧ o = .answered a := by
  obtain ⟨⟨a, k₁⟩, hs, he⟩ := Option.map_eq_some_iff.1 h
  obtain ⟨ho, hk⟩ := Prod.mk.inj he
  exact ⟨a, hs.trans (congrArg some (Prod.ext rfl hk)), ho.symm⟩

/-- A switch that is handled dispatches. -/
theorem handle_switch {o : Outcome} (h : handle p .switch k = some (o, k')) :
    ∃ d, schedulerSwitchToNextProcess k = some (d, k') ∧ o = .dispatched d := by
  obtain ⟨⟨d, k₁⟩, hs, he⟩ := Option.map_eq_some_iff.1 h
  obtain ⟨ho, hk⟩ := Prod.mk.inj he
  exact ⟨d, hs.trans (congrArg some (Prod.ext rfl hk)), ho.symm⟩

/-- An interrupt of the timer that is handled dispatches. -/
theorem handle_timer {frame : InterruptFrame} {o : Outcome}
    (h : handle p (.timer frame) k = some (o, k')) :
    ∃ d, timerInterrupt frame k = some (d, k') ∧ o = .dispatched d := by
  obtain ⟨⟨d, k₁⟩, hs, he⟩ := Option.map_eq_some_iff.1 h
  obtain ⟨ho, hk⟩ := Prod.mk.inj he
  exact ⟨d, hs.trans (congrArg some (Prod.ext rfl hk)), ho.symm⟩

/-! ### What a switch does -/

/-- The slot that a switch starts from. -/
def Kernel.idxRun (k : Kernel) : Fin 16 := k.processGetCurrentRunningPcbPointer.getD 0

/-- The slots that a switch may go to: those of the processes that are ready, and the
one it starts from. -/
def Kernel.eligible (k : Kernel) (slot : Fin 16) : Bool :=
  (k.processList slot).state = .ready ∨ slot = k.idxRun

/-- The state after a switch from `cur` to `next`. -/
def Kernel.switched (k : Kernel) (cur next : Fin 16) : Kernel :=
  { k with
    processList := setState (setState k.processList cur .ready) next .running
    paging :=
      pagingUsePageDirectory (k.processList next).context.pageDirectoryVirtualAddr k.paging }

/-- Setting a state changes that slot's state only. -/
theorem setState_apply (list : Fin 16 → ProcessControlBlock) (i slot : Fin 16)
    (st : ProcessState) : setState list i st slot =
      { list slot with state := if slot = i then st else (list slot).state } := by
  unfold setState
  rw [Function.update_apply]
  split_ifs with h <;> simp [h]

/-- Setting a state leaves the contexts alone. -/
@[simp] theorem setState_context (list : Fin 16 → ProcessControlBlock) (i slot : Fin 16)
    (st : ProcessState) : (setState list i st slot).context = (list slot).context := by
  rw [setState_apply]

/-- The states after one is set. -/
theorem setState_state (list : Fin 16 → ProcessControlBlock) (i slot : Fin 16)
    (st : ProcessState) : (setState list i st slot).state =
      if slot = i then st else (list slot).state := by
  rw [setState_apply]

/-- Of two settings of one slot the second counts. -/
theorem setState_setState (list : Fin 16 → ProcessControlBlock) (i : Fin 16)
    (st st' : ProcessState) : setState (setState list i st) i st' = setState list i st' := by
  funext slot
  simp only [setState_apply]
  split_ifs <;> rfl

/-- The states after a switch. -/
theorem switched_state (k : Kernel) (cur next slot : Fin 16) :
    ((k.switched cur next).processList slot).state =
      if slot = next then .running
      else if slot = cur then .ready else (k.processList slot).state := by
  show (setState _ next .running slot).state = _
  rw [setState_state, setState_state]

/-- A switch leaves the map of the frames alone. -/
theorem switched_pageFrameMap (k : Kernel) (cur next : Fin 16) :
    (k.switched cur next).paging.pageFrameMap = k.paging.pageFrameMap := rfl

/-- The search starts after the running process. -/
theorem idxRun_some (h : k.processGetCurrentRunningPcbPointer = some slot) :
    k.idxRun = slot := by
  rw [Kernel.idxRun, h]
  rfl

/-- Without a running process the search starts after slot 0. -/
theorem idxRun_none (h : k.processGetCurrentRunningPcbPointer = none) : k.idxRun = 0 := by
  rw [Kernel.idxRun, h]
  rfl

/-- The loop stops at the eligible slots, also where the first block was entered as
running before. -/
theorem eligible_eq {list : Fin 16 → ProcessControlBlock}
    (hlist : ∀ slot, slot ≠ k.idxRun → list slot = k.processList slot) :
    (fun i => !decide ((list i).state ≠ .ready ∧ i ≠ k.idxRun)) = k.eligible := by
  funext i
  unfold Kernel.eligible
  by_cases hi : i = k.idxRun
  · simp [hi]
  · rw [hlist i hi]
    simp [hi]

/-- **A switch** goes to the first eligible slot behind the one it starts from. -/
theorem switch_eq (k : Kernel) : ∃ next, (rotation k.idxRun).find? k.eligible = some next ∧
    schedulerSwitchToNextProcess k =
      some (⟨next, (k.processList next).context⟩, k.switched k.idxRun next) := by
  have hfound : ((rotation k.idxRun).find? k.eligible).isSome := by
    rw [List.find?_isSome]
    exact ⟨k.idxRun, mem_rotation _ _, decide_eq_true (.inr rfl)⟩
  obtain ⟨next, hnext⟩ := Option.isSome_iff_exists.1 hfound
  refine ⟨next, hnext, ?_⟩
  unfold schedulerSwitchToNextProcess
  cases hcur : k.processGetCurrentRunningPcbPointer with
  | some cur =>
      obtain rfl := idxRun_some hcur
      dsimp only
      rw [eligible_eq fun _ _ => rfl, scan_rotation, hnext]
      simp only [Option.bind_eq_bind, Option.bind_some, setState_context]
      rfl
  | none =>
      have hzero := idxRun_none hcur
      dsimp only
      rw [← hzero, eligible_eq fun _ hne => Function.update_of_ne hne _ _, scan_rotation, hnext]
      simp only [Option.bind_eq_bind, Option.bind_some, setState_context, setState_setState]
      rfl

/-! ### What an event does -/

/-- The state in which an event switches: the timer saves a context before. -/
def Event.saved : Event → Kernel → Kernel
  | .timer frame, k => schedulerSaveContextToCurrentRunningPcb (frame.context k) k
  | _, k => k

/-- **An event that returns** is a call, or it switches from the state in which a context
was saved. -/
theorem handle_cases {e : Event} {o : Outcome} (h : handle p e k = some (o, k')) :
    (∃ c a, e = .call c ∧ serve p c k = some (a, k')) ∨
      (∀ c, e ≠ .call c) ∧ ∃ next,
        (rotation (e.saved k).idxRun).find? (e.saved k).eligible = some next ∧
        k' = (e.saved k).switched (e.saved k).idxRun next := by
  have hswitch : ∀ {k d}, schedulerSwitchToNextProcess k = some (d, k') → ∃ next,
      (rotation k.idxRun).find? k.eligible = some next ∧ k' = k.switched k.idxRun next := by
    intro k d hs
    obtain ⟨next, hnext, heq⟩ := switch_eq k
    exact ⟨next, hnext, (congrArg Prod.snd (Option.some.inj (heq.symm.trans hs))).symm⟩
  match e with
  | .call c =>
      obtain ⟨a, hc, -⟩ := handle_call h
      exact .inl ⟨c, a, rfl, hc⟩
  | .switch =>
      obtain ⟨d, hd, -⟩ := handle_switch h
      exact .inr ⟨fun _ => Event.noConfusion, hswitch hd⟩
  | .timer frame =>
      obtain ⟨d, hd, -⟩ := handle_timer h
      exact .inr ⟨fun _ => Event.noConfusion, hswitch hd⟩

end Process
end Jatos
