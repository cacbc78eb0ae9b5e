/-
# What the processor runs

`Scheduled` ties the process table to the processor: at most one block is
running, the page directory in CR3 is one of the kernel image, and it is that of
the block that is running.  Calls keep it.  A switch keeps it while it is
`Anchored`: some block is running, or slot 0, from which a switch starts
otherwise, holds a process.
-/

import Jatos.Process.Fairness

namespace Jatos
namespace Process

open Cyclic

variable {p : Placement} {k k' : Kernel} {c : Call} {a : Answer} {slot cur next : Fin 16}
  {i f g : Fin 32} {d : Dispatch} {request : ReadRequest} {frame : InterruptFrame}

/-- What the scheduler relies on: the books, at most one process running and none blocked,
and a directory in CR3, which is the running process's. -/
structure Scheduled (p : Placement) (k : Kernel) : Prop where
  ledger : Ledger p k
  one : AtMostOneRunning k
  unblocked : ∀ slot, (k.processList slot).state ≠ .blocked
  loaded : ∃ d, p.address d = pagingGetCurrentPageDirectoryAddr k.paging
  active : ∀ slot, k.Running slot → (k.processList slot).context.pageDirectoryVirtualAddr =
    pagingGetCurrentPageDirectoryAddr k.paging

/-- A switch starts from a process. -/
def Anchored (k : Kernel) : Prop := (∃ slot, k.Running slot) ∨ (k.processList 0).Live

instance : Decidable (Anchored k) := inferInstanceAs (Decidable (_ ∨ _))

/-! ### Page directories in CR3 -/

/-- Every directory lies above the kernel's base. -/
theorem Placement.above (p : Placement) (d : Directory) :
    KERNEL_VIRTUAL_ADDRESS_BASE < p.address d := by
  match d with
  | .kernel => exact p.kernel_above
  | .listed i =>
      have ha := UInt32.lt_iff_toNat_lt.1 p.list_above
      rw [UInt32.lt_iff_toNat_lt, p.toNat_listed]
      exact Nat.lt_add_right _ ha

/-- Which page directory was loaded can be told from CR3. -/
theorem getCurrent_usePageDirectory (d : Directory) (s : Paging) :
    pagingGetCurrentPageDirectoryAddr (pagingUsePageDirectory (p.address d) s) = p.address d := by
  unfold pagingGetCurrentPageDirectoryAddr pagingUsePageDirectory
  dsimp only
  rw [if_pos (p.above d), UInt32.sub_add_cancel]

/-- A creation loads the old page directory again. -/
theorem getCurrent_created
    (hl : ∃ d, p.address d = pagingGetCurrentPageDirectoryAddr k.paging) :
    pagingGetCurrentPageDirectoryAddr (k.created p request slot i f g).paging =
      pagingGetCurrentPageDirectoryAddr k.paging := by
  obtain ⟨d, hd⟩ := hl
  unfold Kernel.created
  rw [← hd]
  exact getCurrent_usePageDirectory d _

/-- Destroying a process leaves CR3 alone. -/
theorem getCurrent_destroyed (p : Placement) (k : Kernel) (slot : Fin 16) :
    pagingGetCurrentPageDirectoryAddr (k.destroyed p slot).paging =
      pagingGetCurrentPageDirectoryAddr k.paging := by
  unfold Kernel.destroyed pagingFreePageDirectory
  dsimp only
  split <;> rfl

/-! ### Calls -/

/-- A block that is entered as ready, or cleared, disturbs nothing. -/
theorem Scheduled.entered {pcb : ProcessControlBlock} (h : Scheduled p k) (hl : Ledger p k')
    (hk : k'.processList = Function.update k.processList slot pcb)
    (hpcb : pcb.state = .ready ∨ pcb.state = .noProcess)
    (hcur : pagingGetCurrentPageDirectoryAddr k'.paging =
      pagingGetCurrentPageDirectoryAddr k.paging) : Scheduled p k' := by
  have hnot : pcb.state ≠ .running := by rcases hpcb with hs | hs <;> rw [hs] <;> decide
  have hold : ∀ slot', k'.Running slot' →
      k.Running slot' ∧ k'.processList slot' = k.processList slot' := by
    intro slot' hr
    unfold Kernel.Running at hr
    rw [hk, Function.update_apply] at hr
    split_ifs at hr with he
    · exact absurd hr hnot
    · exact ⟨hr, by rw [hk, Function.update_of_ne he]⟩
  refine ⟨hl, fun slot₁ slot₂ h₁ h₂ => h.one slot₁ slot₂ (hold _ h₁).1 (hold _ h₂).1,
    fun slot' => ?_, ?_, fun slot' hr => ?_⟩
  · rw [hk, Function.update_apply]
    split_ifs
    · rcases hpcb with hs | hs <;> rw [hs] <;> decide
    · exact h.unblocked slot'
  · rw [hcur]
    exact h.loaded
  · obtain ⟨hr, he⟩ := hold slot' hr
    rw [he, hcur]
    exact h.active slot' hr

/-- The calls keep what the scheduler relies on. -/
theorem Scheduled.served (h : Scheduled p k) (hs : serve p c k = some (a, k')) :
    Scheduled p k' := by
  have hl := h.ledger.served hs
  cases Process.served h.ledger.kept hs with
  | refused => exact h
  | created ht => exact h.entered hl rfl (.inl rfl) (getCurrent_created h.loaded)
  | kept => exact h
  | destroyed => exact h.entered hl rfl (.inr rfl) (getCurrent_destroyed p k _)

/-! ### Saving a context and switching -/

/-- A block may change its context, but for the page directory, and its state, but for
having a process or not. -/
structure Alike (pcb pcb' : ProcessControlBlock) : Prop where
  pid : pcb'.pid = pcb.pid
  directory : pcb'.context.pageDirectoryVirtualAddr = pcb.context.pageDirectoryVirtualAddr
  live : pcb'.Live ↔ pcb.Live
  dead : ¬pcb.Live → pcb' = pcb

/-- The ledger is about what alike blocks have in common, and not about CR3. -/
theorem Ledger.congr {cr3 : UInt32} (h : Ledger p k)
    (hpaging : k'.paging = { k.paging with cr3 := cr3 })
    (hlist : k'.listOfProcess = k.listOfProcess)
    (halike : ∀ slot, Alike (k.processList slot) (k'.processList slot)) : Ledger p k' := by
  have hdir : directoryOf p k' = directoryOf p k := by
    funext slot
    unfold directoryOf
    rw [(halike slot).directory]
  refine ⟨⟨?_, ?_, ?_, ?_, fun slot hl => ?_, fun slot => ?_⟩, ?_, fun slot => ⟨fun hd => ?_,
    fun hl => ?_⟩, ?_, ?_⟩
  · rw [hpaging]
    exact ⟨h.kept.frames.counted, h.kept.frames.exclusive, h.kept.frames.kernelHalf⟩
  · rw [hpaging]
    exact h.kept.even
  · rw [hpaging]
    exact h.kept.directories
  · rw [hpaging, hdir]
    exact h.kept.owned
  · rw [(halike slot).directory]
    exact h.kept.live slot ((halike slot).live.1 hl)
  · unfold InSlot
    rw [(halike slot).pid]
    exact h.kept.pid slot
  · rw [hlist]
    exact h.unlisted
  · have hd' : ¬(k.processList slot).Live := fun hl => hd ((halike slot).live.2 hl)
    exact ((halike slot).dead hd').trans ((h.numbered slot).dead hd')
  · rw [(halike slot).pid]
    exact (h.numbered slot).live ((halike slot).live.1 hl)
  · rw [hpaging]
    exact h.clean
  · rw [hpaging]
    exact h.stack

/-- The context that the timer saves names the page directory that its block has. -/
theorem Scheduled.saved (h : Scheduled p k) {ctx : Context}
    (hctx : ctx.pageDirectoryVirtualAddr = pagingGetCurrentPageDirectoryAddr k.paging) :
    Scheduled p (schedulerSaveContextToCurrentRunningPcb ctx k) := by
  have hdir : ∀ slot, ((schedulerSaveContextToCurrentRunningPcb ctx k).processList
      slot).context.pageDirectoryVirtualAddr =
        (k.processList slot).context.pageDirectoryVirtualAddr := by
    intro slot
    rw [saveContext_apply]
    dsimp only
    split_ifs with hcur
    · exact hctx.trans (h.active slot (running_of_current hcur)).symm
    · rfl
  have hpaging : (schedulerSaveContextToCurrentRunningPcb ctx k).paging = k.paging := by
    unfold schedulerSaveContextToCurrentRunningPcb
    split <;> rfl
  have hlist : (schedulerSaveContextToCurrentRunningPcb ctx k).listOfProcess =
      k.listOfProcess := by
    unfold schedulerSaveContextToCurrentRunningPcb
    split <;> rfl
  have hstate := saveContext_state ctx k
  have hcr3 : (schedulerSaveContextToCurrentRunningPcb ctx k).paging =
      { k.paging with cr3 := k.paging.cr3 } := hpaging
  refine ⟨h.ledger.congr hcr3 hlist fun slot => ?_,
    fun slot₁ slot₂ h₁ h₂ => ?_, fun slot => ?_, ?_, fun slot hr => ?_⟩
  · refine ⟨by rw [saveContext_apply], hdir slot, ?_, fun hd => ?_⟩
    · unfold ProcessControlBlock.Live
      rw [hstate]
    · rw [saveContext_apply]
      have hne : k.processGetCurrentRunningPcbPointer ≠ some slot := fun hcur =>
        hd (running_of_current hcur).live
      rw [if_neg hne]
  · exact h.one slot₁ slot₂ ((hstate slot₁).symm.trans h₁) ((hstate slot₂).symm.trans h₂)
  · rw [hstate]
    exact h.unblocked slot
  · rw [hpaging]
    exact h.loaded
  · rw [hdir, hpaging]
    exact h.active slot ((hstate slot).symm.trans hr)

/-- A live process has a page directory of the list. -/
theorem Scheduled.directory (h : Scheduled p k) (hl : (k.processList slot).Live) :
    ∃ i, (k.processList slot).context.pageDirectoryVirtualAddr = p.address (.listed i) ∧
      k.paging.pageDirectoryUsed i = true := by
  obtain ⟨i, hi, hused⟩ := h.ledger.directory hl
  exact ⟨i, (Placement.listedAt_eq_some.1 hi).symm, hused⟩

/-- A switch starts from a process if it is anchored. -/
theorem Anchored.live (h : AtMostOneRunning k) (ha : Anchored k) :
    (k.processList k.idxRun).Live := by
  rcases ha with ⟨slot, hr⟩ | hz
  · rw [idxRun_eq h hr]
    exact hr.live
  · cases hcur : k.processGetCurrentRunningPcbPointer with
    | none => rwa [idxRun_none hcur]
    | some cur =>
        rw [idxRun_some hcur]
        exact (running_of_current hcur).live

/-- Where a switch goes is ready, or where it starts from. -/
theorem eligible_next (h : (rotation k.idxRun).find? k.eligible = some next) :
    (k.processList next).state = .ready ∨ next = k.idxRun := by
  have hp := List.find?_some h
  exact of_decide_eq_true hp

/-- **An anchored switch** goes to a process and keeps everything. -/
theorem Scheduled.switched (h : Scheduled p k) (ha : Anchored k)
    (hnext : (rotation k.idxRun).find? k.eligible = some next) :
    (k.processList next).Live ∧ Scheduled p (k.switched k.idxRun next) := by
  have hcur := ha.live h.one
  have hlive : (k.processList next).Live := by
    rcases eligible_next hnext with hs | rfl
    · exact fun he => ProcessState.noConfusion (he.symm.trans hs)
    · exact hcur
  obtain ⟨i, hi, -⟩ := h.directory hlive
  have hloaded : pagingGetCurrentPageDirectoryAddr (k.switched k.idxRun next).paging =
      p.address (.listed i) := by
    unfold Kernel.switched
    dsimp only
    rw [hi, getCurrent_usePageDirectory]
  have honly := onlyStates_switched k k.idxRun next
  refine ⟨hlive, ⟨h.ledger.congr rfl rfl fun slot => ?_, fun slot₁ slot₂ h₁ h₂ => ?_,
    fun slot => ?_, ⟨_, hloaded.symm⟩, fun slot hr => ?_⟩⟩
  · have hsame : ((k.switched k.idxRun next).processList slot).Live ↔
        (k.processList slot).Live := switched_live hcur hlive
    refine ⟨by rw [honly slot], by rw [honly slot], hsame, fun hd => ?_⟩
    have hn : slot ≠ next := fun he => hd (he ▸ hlive)
    have hc : slot ≠ k.idxRun := fun he => hd (he ▸ hcur)
    have hs : ((k.switched k.idxRun next).processList slot).state = (k.processList slot).state := by
      rw [switched_state, if_neg hn, if_neg hc]
    rw [honly slot, hs]
  · exact ((switched_running h.one).1 h₁).trans ((switched_running h.one).1 h₂).symm
  · rw [switched_state]
    split_ifs
    · decide
    · decide
    · exact h.unblocked slot
  · obtain rfl := (switched_running h.one).1 hr
    rw [hloaded, honly slot]
    exact hi

/-! ### Events -/

/-- Saving the context keeps what the scheduler relies on. -/
theorem Scheduled.event_saved (h : Scheduled p k) (e : Event) : Scheduled p (e.saved k) := by
  match e with
  | .timer frame => exact h.saved rfl
  | .call _ => exact h
  | .switch => exact h

/-- Saving the context keeps the anchor. -/
theorem anchored_saved (e : Event) (k : Kernel) : Anchored (e.saved k) ↔ Anchored k := by
  unfold Anchored Kernel.Running ProcessControlBlock.Live
  simp only [saved_state]

/-- Saving the context leaves the paging alone. -/
theorem saved_paging (e : Event) (k : Kernel) : (e.saved k).paging = k.paging := by
  match e with
  | .timer frame =>
      show (schedulerSaveContextToCurrentRunningPcb _ k).paging = _
      unfold schedulerSaveContextToCurrentRunningPcb
      split <;> rfl
  | .call _ => rfl
  | .switch => rfl

/-- Saving the context leaves the count alone. -/
theorem saved_count (e : Event) (k : Kernel) :
    (e.saved k).activeProcessCount = k.activeProcessCount := by
  match e with
  | .timer frame =>
      show (schedulerSaveContextToCurrentRunningPcb _ k).activeProcessCount = _
      unfold schedulerSaveContextToCurrentRunningPcb
      split <;> rfl
  | .call _ => rfl
  | .switch => rfl

/-- **A timer interrupt** while some process can be switched from keeps everything, and
with it which slots hold processes, their number and the frames. -/
theorem Scheduled.timer (h : Scheduled p k) (ha : Anchored k) (frame : InterruptFrame) :
    ∃ d k', timerInterrupt frame k = some (d, k') ∧ Scheduled p k' ∧
      (∀ slot, (k'.processList slot).Live ↔ (k.processList slot).Live) ∧
      k'.activeProcessCount = k.activeProcessCount ∧
      k'.paging.pageFrameMap = k.paging.pageFrameMap := by
  let k₁ := (Event.timer frame).saved k
  have h₁ : Scheduled p k₁ := h.event_saved (.timer frame)
  have ha₁ : Anchored k₁ := (anchored_saved _ k).2 ha
  obtain ⟨next, hnext, hs⟩ := switch_eq k₁
  obtain ⟨hl, h₂⟩ := h₁.switched ha₁ hnext
  refine ⟨⟨next, (k₁.processList next).context⟩, k₁.switched k₁.idxRun next, hs, h₂,
    fun slot => ?_, saved_count (.timer frame) k, ?_⟩
  · refine (switched_live (ha₁.live h₁.one) hl).trans ?_
    unfold ProcessControlBlock.Live
    rw [saved_state]
  · rw [switched_pageFrameMap, saved_paging]

/-- The scheduler's assumptions hold at the boot. -/
theorem boot_scheduled (p : Placement) : Scheduled p (Kernel.boot p) where
  ledger := boot_ledger p
  one := atMostOneRunning_boot p
  unblocked _ hb := ProcessState.noConfusion hb
  loaded := ⟨.kernel, (UInt32.sub_add_cancel _ _).symm⟩
  active _ hr := ProcessState.noConfusion hr

end Process
end Jatos
