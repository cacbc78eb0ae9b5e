/-
# Who is dispatched

`scheduler_switch_to_next_process` starts from slot 0 when no block is running,
and enters that block as running and then as ready without a look at whether it
holds a process.  When slot 0 is empty, a block of zeros becomes ready, and one
of the next switches loads its page directory, which is `NULL`.
-/

import Jatos.Process.Scheduled
import Jatos.Process.Table

namespace Jatos
namespace Process

open Cyclic

variable {p : Placement} {k k' k₁ : Kernel} {d : Dispatch} {e : Event}

/-- A destruction names a live process. -/
def EventOnLive (k : Kernel) : Event → Prop
  | .call c => OnLive k c
  | .switch => True
  | .timer _ => True

/-- A switch that went from `k` to `k'` by the dispatch `d` has dispatched a process. -/
structure DispatchOfLive (k : Kernel) (d : Dispatch) (k' : Kernel) : Prop where
  /-- No block without a process becomes ready or running. -/
  dead : ∀ slot, (k.processList slot).state = .noProcess →
    (k'.processList slot).state ≠ .ready ∧ (k'.processList slot).state ≠ .running
  candidate : (k.processList d.slot).state = .ready ∨ (k.processList d.slot).state = .running
  directory : d.context.pageDirectoryVirtualAddr ≠ 0
  live : (∃ slot, (k.processList slot).Live) → (k.processList d.slot).Live

instance : Decidable (DispatchOfLive k d k') :=
  decidable_of_iff
    ((∀ slot, (k.processList slot).state = .noProcess →
        (k'.processList slot).state ≠ .ready ∧ (k'.processList slot).state ≠ .running) ∧
      ((k.processList d.slot).state = .ready ∨ (k.processList d.slot).state = .running) ∧
      d.context.pageDirectoryVirtualAddr ≠ 0 ∧
      ((∃ slot, (k.processList slot).Live) → (k.processList d.slot).Live))
    ⟨fun ⟨h₁, h₂, h₃, h₄⟩ => ⟨h₁, h₂, h₃, h₄⟩,
      fun h => ⟨h.dead, h.candidate, h.directory, h.live⟩⟩

/-- A switch returns and dispatches a process. -/
def DispatchesLive (k : Kernel) : Event → Prop
  | .call _ => True
  | .switch => ∃ r ∈ schedulerSwitchToNextProcess k, DispatchOfLive k r.1 r.2
  | .timer frame => ∃ r ∈ timerInterrupt frame k, DispatchOfLive k r.1 r.2

/-- A switch comes while some block is running, or slot 0 holds a process. -/
def StartsAnchored (k : Kernel) : Event → Prop
  | .call _ => True
  | .switch => Anchored k
  | .timer _ => Anchored k

instance : (e : Event) → Decidable (EventOnLive k e)
  | .call c => inferInstanceAs (Decidable (OnLive k c))
  | .switch => isTrue trivial
  | .timer _ => isTrue trivial

instance : (e : Event) → Decidable (DispatchesLive k e)
  | .call _ => isTrue trivial
  | .switch => inferInstanceAs
      (Decidable (∃ r ∈ schedulerSwitchToNextProcess k, DispatchOfLive k r.1 r.2))
  | .timer frame => inferInstanceAs
      (Decidable (∃ r ∈ timerInterrupt frame k, DispatchOfLive k r.1 r.2))

instance : (e : Event) → Decidable (StartsAnchored k e)
  | .call _ => isTrue trivial
  | .switch => inferInstanceAs (Decidable (Anchored k))
  | .timer _ => inferInstanceAs (Decidable (Anchored k))

/-- Whether a dispatch is of a live process depends on the states before it only. -/
theorem dispatchOfLive_congr
    (h : ∀ slot, (k₁.processList slot).state = (k.processList slot).state) :
    DispatchOfLive k₁ d k' ↔ DispatchOfLive k d k' := by
  have hlive : ∀ slot, (k₁.processList slot).Live ↔ (k.processList slot).Live := fun slot => by
    unfold ProcessControlBlock.Live
    rw [h]
  constructor
  · rintro ⟨h₁, h₂, h₃, h₄⟩
    refine ⟨fun slot hs => h₁ slot ((h slot).trans hs), by rwa [← h], h₃, ?_⟩
    rintro ⟨slot, hs⟩
    exact (hlive _).1 (h₄ ⟨slot, (hlive slot).2 hs⟩)
  · rintro ⟨h₁, h₂, h₃, h₄⟩
    refine ⟨fun slot hs => h₁ slot ((h slot).symm.trans hs), by rwa [h], h₃, ?_⟩
    rintro ⟨slot, hs⟩
    exact (hlive _).2 (h₄ ⟨slot, (hlive slot).1 hs⟩)

/-- A switch that starts from a process dispatches a process. -/
theorem Scheduled.dispatchOfLive {next : Fin PROCESS_COUNT_MAX} (h : Scheduled p k)
    (ha : Anchored k)
    (hnext : (rotation k.idxRun).find? k.eligible = some next) :
    DispatchOfLive k ⟨next, (k.processList next).context⟩ (k.switched k.idxRun next) := by
  obtain ⟨hlive, -⟩ := h.switched ha hnext
  obtain ⟨i, hi, -⟩ := h.directory hlive
  refine ⟨fun slot hs => ?_, ?_, ?_, fun _ => hlive⟩
  · have hdead : ¬((k.switched k.idxRun next).processList slot).Live := fun hl =>
      (switched_live (ha.live h.one) hlive).1 hl hs
    have hstate : ((k.switched k.idxRun next).processList slot).state = .noProcess :=
      not_not.1 hdead
    rw [hstate]
    decide
  · show (k.processList next).state = .ready ∨ (k.processList next).state = .running
    have hb := h.unblocked next
    unfold ProcessControlBlock.Live at hlive
    cases hst : (k.processList next).state with
    | noProcess => exact absurd hst hlive
    | ready => exact .inl rfl
    | running => exact .inr rfl
    | blocked => exact absurd hst hb
  · show (k.processList next).context.pageDirectoryVirtualAddr ≠ 0
    rw [hi]
    exact p.address_ne_null _

/-- With no running block and slot 0 empty, the switch turns slot 0 into a block of a
process that nobody created. -/
theorem not_dispatchOfLive {next : Fin PROCESS_COUNT_MAX} (ha : ¬Anchored k) :
    ¬DispatchOfLive k ⟨next, (k.processList next).context⟩ (k.switched k.idxRun next) := by
  intro hd
  obtain ⟨hrun, hzero⟩ := not_or.1 ha
  have hnone : k.processGetCurrentRunningPcbPointer = none :=
    Option.eq_none_iff_forall_ne_some.2 fun slot hcur =>
      hrun ⟨slot, running_of_current hcur⟩
  have hidx := idxRun_none hnone
  obtain ⟨hready, hrunning⟩ := hd.dead 0 (not_not.1 hzero)
  rw [switched_state, hidx] at hready hrunning
  by_cases hn : 0 = next
  · rw [if_pos hn] at hrunning
    exact hrunning rfl
  · rw [if_neg hn, if_pos rfl] at hready
    exact hready rfl

/-- **A switch dispatches a process** just when it starts from one. -/
theorem dispatchOfLive_iff (h : Scheduled p k) :
    (∃ r ∈ schedulerSwitchToNextProcess k, DispatchOfLive k r.1 r.2) ↔ Anchored k := by
  obtain ⟨next, hnext, hs⟩ := switch_eq k
  have hiff : (∃ r ∈ schedulerSwitchToNextProcess k, DispatchOfLive k r.1 r.2) ↔
      DispatchOfLive k ⟨next, (k.processList next).context⟩ (k.switched k.idxRun next) := by
    rw [hs]
    simp
  rw [hiff]
  exact ⟨fun hd => not_not.1 fun ha => not_dispatchOfLive ha hd,
    fun ha => h.dispatchOfLive ha hnext⟩

/-- An event dispatches live processes if and only if it starts from an anchor. -/
theorem dispatchesLive_iff (h : Scheduled p k) (e : Event) :
    DispatchesLive k e ↔ StartsAnchored k e := by
  match e with
  | .call _ => exact Iff.rfl
  | .switch => exact dispatchOfLive_iff h
  | .timer frame =>
      have hs := dispatchOfLive_iff (h.event_saved (.timer frame))
      rw [anchored_saved] at hs
      refine Iff.trans (exists_congr fun r => and_congr_right fun _ => ?_) hs
      exact (dispatchOfLive_congr (saved_state (.timer frame) k)).symm

/-- **What an anchored event keeps.** -/
theorem Scheduled.handled {o : Outcome} (h : Scheduled p k) (ha : StartsAnchored k e)
    (hs : handle p e k = some (o, k')) : Scheduled p k' := by
  rcases handle_cases hs with ⟨c, a, -, hc⟩ | ⟨hne, next, hnext, rfl⟩
  · exact h.served hc
  · have hanchored : Anchored k := by
      match e with
      | .call c => exact absurd rfl (hne c)
      | .switch => exact ha
      | .timer _ => exact ha
    exact ((h.event_saved e).switched ((anchored_saved e k).2 hanchored) hnext).2

/-- **Live processes are dispatched exactly while switches are anchored.**  In every run
of creations, destructions of live processes, switches and timer interrupts from the
boot, every switch dispatches a process, and revives none that was destroyed, just when
each comes at a time when some block is running, or slot 0 holds a process. -/
theorem dispatches_live_iff (p : Placement) (events : List Event) :
    ∀ k₀ ∈ kernelSetup p, Runs.Guarded (handle p) EventOnLive events k₀ →
      (Runs.Guarded (handle p) DispatchesLive events k₀ ↔
        Runs.Guarded (handle p) StartsAnchored events k₀) := by
  intro k₀ hk hd
  obtain rfl := Option.some.inj ((kernelSetup_eq p).symm.trans hk)
  refine Runs.guarded_iff (fun k e h _ => dispatchesLive_iff h e) ?_ (boot_scheduled p) hd
  intro k e o k' h _ hdisp hs
  exact h.handled ((dispatchesLive_iff h e).1 hdisp) hs

/-- The shell creates a process, which destroys itself. -/
theorem dispatches_live_iff_sample :
    Runs.Guarded (handle afterCode) DispatchesLive
      [.call (.create shell), .switch, .call (.create program), .timer tick, .call (.destroy 1),
        .timer tick, .timer tick] (Kernel.boot afterCode) :=
  (dispatches_live_iff afterCode _ _ (kernelSetup_eq afterCode) (by decide +kernel)).2
    (by decide +kernel)

/-- The shell creates a process and is destroyed: its block of zeros becomes ready, and
the second switch goes to it with no page directory. -/
theorem not_dispatches_live_sample :
    Runs.Guarded (handle afterCode) EventOnLive
        [.call (.create shell), .switch, .call (.create program), .call (.destroy 0),
          .timer tick, .timer tick] (Kernel.boot afterCode) ∧
      ¬Runs.Guarded (handle afterCode) DispatchesLive
        [.call (.create shell), .switch, .call (.create program), .call (.destroy 0),
          .timer tick, .timer tick] (Kernel.boot afterCode) ∧
      (Runs.run (handle afterCode)
          [.call (.create shell), .switch, .call (.create program), .call (.destroy 0),
            .timer tick, .timer tick] (Kernel.boot afterCode)).map (fun r => r.1.getLast?) =
        some (some (.dispatched ⟨0, ProcessControlBlock.zero.context⟩)) := by
  decide +kernel

end Process
end Jatos
