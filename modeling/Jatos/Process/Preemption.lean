/-
# Preemption

A process is preempted when the timer saves its context into the block that is
running, and resumed when a switch hands over the context of its block.  An
`Observer` beside the kernel notes which process was dispatched last and what
context each is due to be resumed with: the one captured at its last
preemption, or the one that its creation set up.  Every dispatch agrees with it.
-/

import Jatos.Process.Startup

namespace Jatos
namespace Process

open Cyclic

variable {p : Placement} {k k' : Kernel} {obs : Observer} {frame : InterruptFrame}
  {slot next : Fin 16}

/-- The slot dispatched last, and the context that each process is due. -/
structure Observer where
  current : Fin 16
  due : Fin 16 → Context

/-- What the observer notes of an event from `k` to `k'`. -/
def Observer.observe (obs : Observer) (k : Kernel) (e : Event) (o : Outcome) (k' : Kernel) :
    Observer :=
  match e, o with
  | .timer frame, .dispatched d =>
      { current := d.slot
        due := Function.update obs.due obs.current (frame.context k) }
  | .call (.create _), .answered (.created code) =>
      if h : code = PROCESS_CREATE_SUCCESS ∧ k.activeProcessCount.toNat < 16 then
        let slot : Fin 16 := ⟨k.activeProcessCount.toNat, h.2⟩
        { obs with due := Function.update obs.due slot (k'.processList slot).context }
      else obs
  | _, _ => obs

/-- One event, under observation. -/
def watch (p : Placement) (e : Event) (s : Kernel × Observer) :
    Option (Outcome × (Kernel × Observer)) :=
  (handle p e s.1).map fun r => (r.1, (r.2, s.2.observe s.1 e r.1 r.2))

/-- Timer interrupts, and creations. -/
def Preemptive : Event → Prop
  | .call (.create _) => True
  | .timer _ => True
  | _ => False

/-- One block is running, and CR3 holds the physical address of its page directory. -/
def RunsOn (p : Placement) (k : Kernel) : Prop :=
  ∃ slot i, (∀ slot', k.Running slot' ↔ slot' = slot) ∧
    (k.processList slot).context.pageDirectoryVirtualAddr = p.address (.listed i) ∧
    k.paging.cr3 = p.address (.listed i) - KERNEL_VIRTUAL_ADDRESS_BASE

/-- A timer interrupt returns.  A dispatch hands over the context that its process is
due, and CR3 agrees with the block that is running afterwards. -/
def Unnoticed (p : Placement) (s : Kernel × Observer) (e : Event) : Prop :=
  (∀ frame, e = .timer frame → (watch p e s).isSome) ∧
    ∀ r ∈ watch p e s, RunsOn p r.2.1 ∧
      ∀ d, r.1 = .dispatched d → d.context = r.2.2.due d.slot

instance : DecidablePred Preemptive
  | .call (.create _) => isTrue trivial
  | .call (.destroy _) => isFalse id
  | .switch => isFalse id
  | .timer _ => isTrue trivial

/-- What every such event keeps: the processes fill the slots below the count, the one
dispatched last is running, and the others' blocks hold the contexts they are due. -/
structure Observed (p : Placement) (s : Kernel × Observer) : Prop where
  scheduled : Scheduled p s.1
  filled : ∀ slot, (s.1.processList slot).Live → slot.val < s.1.activeProcessCount.toNat
  current : s.1.Running s.2.current
  due : ∀ slot, (s.1.processList slot).Live → slot ≠ s.2.current →
    (s.1.processList slot).context = s.2.due slot

/-- Between two events one process runs, on its own page directory. -/
theorem Observed.runsOn (h : Observed p (k, obs)) : RunsOn p k := by
  obtain ⟨i, hi, -⟩ := h.scheduled.directory h.current.live
  refine ⟨obs.current, i, fun slot => ⟨fun hr => h.scheduled.one _ _ hr h.current, ?_⟩, hi, ?_⟩
  · rintro rfl
    exact h.current
  · rw [← hi, h.scheduled.active obs.current h.current]
    exact (UInt32.add_sub_cancel _ _).symm

/-- What the observer notes of a creation. -/
theorem observe_created {request : ReadRequest} {i f g : Fin 32}
    (ht : Taken k request slot i f g) (obs : Observer) :
    obs.observe k (.call (.create request)) (.answered (.created PROCESS_CREATE_SUCCESS)) k' =
      { obs with due := Function.update obs.due slot (k'.processList slot).context } := by
  have hcount := ht.accepted.count
  have hslot : (⟨k.activeProcessCount.toNat, hcount⟩ : Fin 16) = slot := Fin.ext ht.slot.symm
  unfold Observer.observe
  dsimp only
  rw [dif_pos ⟨rfl, hcount⟩, hslot]

/-- **A creation** enters a slot that is free, and its context as due. -/
theorem Observed.created {request : ReadRequest} {i f g : Fin 32} (h : Observed p (k, obs))
    (ht : Taken k request slot i f g) (hs : Scheduled p (k.created p request slot i f g)) :
    Observed p (k.created p request slot i f g,
      obs.observe k (.call (.create request)) (.answered (.created PROCESS_CREATE_SUCCESS))
        (k.created p request slot i f g)) := by
  have hcount := ht.accepted.count
  have hdead : ¬(k.processList slot).Live := fun hl =>
    absurd (h.filled slot hl) (by rw [ht.slot]; exact lt_irrefl _)
  have hpcb : ∀ {slot'}, slot' ≠ slot →
      (k.created p request slot i f g).processList slot' = k.processList slot' := fun hn =>
    Function.update_of_ne hn _ _
  have hcur : (k.processList obs.current).Live := Kernel.Running.live h.current
  rw [observe_created ht]
  refine ⟨hs, fun slot' hl => ?_, ?_, fun slot' hl hn => ?_⟩
  · have hnew : (k.created p request slot i f g).activeProcessCount.toNat =
        k.activeProcessCount.toNat + 1 := by
      show (k.activeProcessCount + 1).toNat = _
      rw [UInt32.toNat_add, UInt32.toNat_one]
      omega
    show slot'.val < (k.created p request slot i f g).activeProcessCount.toNat
    rw [hnew]
    rcases eq_or_ne slot' slot with rfl | hn
    · rw [ht.slot]
      exact Nat.lt_succ_self _
    · exact Nat.lt_succ_of_lt (h.filled slot' (hpcb hn ▸ hl))
  · show ((k.created p request slot i f g).processList obs.current).state = .running
    rw [hpcb fun he => hdead (he ▸ hcur)]
    exact h.current
  · show ((k.created p request slot i f g).processList slot').context =
      Function.update obs.due slot _ slot'
    rcases eq_or_ne slot' slot with rfl | hn'
    · rw [Function.update_self]
    · rw [Function.update_of_ne hn', hpcb hn']
      exact h.due slot' (hpcb hn' ▸ hl) hn

/-- Once the timer has saved, every block of a process holds what is due. -/
theorem Observed.saved_due (h : Observed p (k, obs)) (frame : InterruptFrame)
    {slot : Fin PROCESS_COUNT_MAX} (hl : (k.processList slot).Live) :
    (((Event.timer frame).saved k).processList slot).context =
      Function.update obs.due obs.current (frame.context k) slot := by
  have hrunning : k.processGetCurrentRunningPcbPointer = some obs.current :=
    current_eq h.scheduled.one h.current
  show ((schedulerSaveContextToCurrentRunningPcb _ k).processList slot).context = _
  rw [saveContext_apply]
  dsimp only
  rw [hrunning]
  rcases eq_or_ne slot obs.current with rfl | hn
  · rw [if_pos rfl]
    exact (Function.update_self obs.current (frame.context k) obs.due).symm
  · rw [if_neg fun he => hn (Option.some.inj he).symm, Function.update_of_ne hn]
    exact h.due slot hl hn

/-- **A timer interrupt** hands over the context that is due: the one just captured if it
goes back to the same process, and else the one that its block holds. -/
theorem Observed.timer (h : Observed p (k, obs)) (frame : InterruptFrame) :
    ∃ d k', handle p (.timer frame) k = some (.dispatched d, k') ∧
      Observed p (k', obs.observe k (.timer frame) (.dispatched d) k') ∧
      d.context = (obs.observe k (.timer frame) (.dispatched d) k').due d.slot := by
  let k₁ := (Event.timer frame).saved k
  have h₁ : Scheduled p k₁ := h.scheduled.event_saved (.timer frame)
  have hanchored : Anchored k₁ := (anchored_saved (.timer frame) k).2 (.inl ⟨_, h.current⟩)
  have hlive₁ : ∀ slot, (k₁.processList slot).Live → (k.processList slot).Live := by
    intro slot hl
    unfold ProcessControlBlock.Live at hl ⊢
    rwa [← saved_state (.timer frame) k slot]
  obtain ⟨next, hnext, hsw⟩ := switch_eq k₁
  obtain ⟨hnextLive, h₂⟩ := h₁.switched hanchored hnext
  have hcurLive := hanchored.live h₁.one
  have honly := onlyStates_switched k₁ k₁.idxRun next
  refine ⟨⟨next, (k₁.processList next).context⟩, k₁.switched k₁.idxRun next,
    congrArg (Option.map _) hsw, ⟨h₂, fun slot hl => ?_, ?_, fun slot hl _ => ?_⟩, ?_⟩
  · have hl₁ := (switched_live hcurLive hnextLive).1 hl
    have hcount : (k₁.switched k₁.idxRun next).activeProcessCount = k.activeProcessCount :=
      saved_count (.timer frame) k
    show slot.val < (k₁.switched k₁.idxRun next).activeProcessCount.toNat
    rw [hcount]
    exact h.filled slot (hlive₁ slot hl₁)
  · exact (switched_running h₁.one).2 rfl
  · have hl₁ := (switched_live hcurLive hnextLive).1 hl
    show ((k₁.switched k₁.idxRun next).processList slot).context = _
    rw [honly slot]
    exact h.saved_due frame (hlive₁ slot hl₁)
  · exact h.saved_due frame (hlive₁ next hnextLive)

/-- **Every timer interrupt and every creation goes unnoticed**, and keeps the
observation. -/
theorem Observed.unnoticed {s : Kernel × Observer} {e : Event} (h : Observed p s)
    (he : Preemptive e) : Unnoticed p s e ∧
      ∀ o s', watch p e s = some (o, s') → Observed p s' := by
  obtain ⟨k, obs⟩ := s
  match e with
  | .call (.create request) =>
      have key : ∀ r ∈ watch p (.call (.create request)) (k, obs), Observed p r.2 ∧
          ∀ d, r.1 ≠ .dispatched d := by
        intro r hr
        obtain ⟨⟨o, k'⟩, hh, rfl⟩ := Option.map_eq_some_iff.1 hr
        obtain ⟨a, hs, rfl⟩ := handle_call hh
        have hs' := h.scheduled.served hs
        refine ⟨?_, fun d hd => Outcome.noConfusion hd⟩
        cases served h.scheduled.ledger.kept hs with
        | refused hna hcode =>
            have hsame : obs.observe k (.call (.create request)) (.answered (.created _)) k = obs :=
              dif_neg fun hc => hcode hc.1
            exact hsame.symm ▸ h
        | created ht => exact h.created ht hs'
      refine ⟨⟨fun _ hf => Event.noConfusion hf, fun r hr => ?_⟩, fun o s' hs => (key _ hs).1⟩
      exact ⟨(key r hr).1.runsOn, fun d hd => absurd hd ((key r hr).2 d)⟩
  | .call (.destroy _) => exact he.elim
  | .switch => exact he.elim
  | .timer frame =>
      obtain ⟨d, k', hh, h', hd⟩ := h.timer frame
      have hw : watch p (.timer frame) (k, obs) =
          some (.dispatched d, (k', obs.observe k (.timer frame) (.dispatched d) k')) :=
        congrArg (Option.map _) hh
      refine ⟨⟨fun f hf => ?_, fun r hr => ?_⟩, fun o s' hs => ?_⟩
      · obtain rfl := Event.timer.inj hf
        rw [hw]
        rfl
      · obtain rfl := Option.some.inj (hw.symm.trans hr)
        refine ⟨h'.runsOn, fun d' hd' => ?_⟩
        obtain rfl := Outcome.dispatched.inj hd'
        exact hd
      · obtain ⟨-, rfl⟩ := Prod.mk.inj (Option.some.inj (hw.symm.trans hs))
        exact h'

/-- A process that was started is the first to be observed. -/
theorem Started.observed {d : Dispatch} (h : Started p d k) :
    Observed p (k, { current := d.slot, due := fun _ => d.context }) := by
  have honly : ∀ slot, (k.processList slot).Live → slot = d.slot := by
    intro slot hl
    exact ((h.live slot).1 hl).trans ((h.live d.slot).1 h.running.live).symm
  refine ⟨h.scheduled, fun slot hl => ?_, h.running, fun slot hl hn => absurd (honly slot hl) hn⟩
  show slot.val < k.activeProcessCount.toNat
  rw [(h.live slot).1 hl, h.count]
  decide

/-- **Preemption is invisible to a process.**  From the state in which the kernel has
switched to the shell, in every run of timer interrupts and creations, every timer
interrupt returns and dispatches a process with the context that it is due: the one
captured at its last preemption, or the one that its creation set up if it never ran.
From the start on and after every event one block is running, and CR3 holds the physical
address of its page directory. -/
theorem preemption_unnoticed (p : Placement) : ∃ d k, kernelSetupShell p = some (d, k) ∧
    RunsOn p k ∧ ∀ events : List Event, (∀ e ∈ events, Preemptive e) →
      Runs.Guarded (watch p) (Unnoticed p) events
        (k, { current := d.slot, due := fun _ => d.context }) := by
  obtain ⟨d, k, hk, h⟩ := kernelSetupShell_started p
  refine ⟨d, k, hk, h.observed.runsOn, fun events he => ?_⟩
  have hasked : Runs.Guarded (watch p) (fun _ e => Preemptive e) events
      (k, { current := d.slot, due := fun _ => d.context }) :=
    Runs.guarded_of_forall fun e hm _ => he e hm
  exact Runs.guarded_of_invariant (fun s e hs he => hs.unnoticed he) h.observed hasked

/-- The shell creates a process between two interrupts, and both take turns. -/
theorem preemption_unnoticed_sample : ∃ d k, kernelSetupShell afterCode = some (d, k) ∧
    Runs.Guarded (watch afterCode) (Unnoticed afterCode)
      [.timer tick, .call (.create program), .timer tock, .timer tick, .timer tock]
      (k, { current := d.slot, due := fun _ => d.context }) := by
  obtain ⟨d, k, hk, -, h⟩ := preemption_unnoticed afterCode
  exact ⟨d, k, hk, h _ (by decide)⟩

end Process
end Jatos
