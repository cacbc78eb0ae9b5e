/-
# Fairness of the scheduler

A switch makes the block it goes to the only one that is running: the one that
was running becomes ready, and creations and destructions enter no block as
running.  So from the boot on at most one block is running.

While there is one that is running and the others are ready, the eligible slots
are the live ones, and a switch takes the first of them in the rotation of the
slots.  The rotation from there has the same live slots with that one at the
end, so as many switches as there are processes serve each of them once, in the
order of the slots, and end where they began.
-/

import Jatos.Process.Ledger
import Jatos.Process.Scheduler

namespace Jatos
namespace Process

open Cyclic

variable {p : Placement} {k k' : Kernel} {c : Call} {a : Answer} {slot cur next : Fin 16}
  {d : Dispatch}

/-- The block of a slot is running. -/
def Kernel.Running (k : Kernel) (slot : Fin 16) : Prop := (k.processList slot).state = .running

instance : Decidable (k.Running slot) :=
  inferInstanceAs (Decidable ((k.processList slot).state = .running))

/-- A block that is running is that of a process. -/
theorem Kernel.Running.live (h : k.Running slot) : (k.processList slot).Live := fun he =>
  ProcessState.noConfusion (he.symm.trans h)

/-- The block that the lookup finds is running. -/
theorem running_of_current (h : k.processGetCurrentRunningPcbPointer = some slot) :
    k.Running slot :=
  of_decide_eq_true (Fin.eq_true_of_find?_eq_some h)

/-- At most one block is running. -/
def AtMostOneRunning (k : Kernel) : Prop :=
  ∀ slot slot', k.Running slot → k.Running slot' → slot = slot'

/-- The block of `cur` is running, and every other one is ready or holds no process. -/
structure Turn (k : Kernel) (cur : Fin 16) : Prop where
  running : k.Running cur
  others : ∀ slot, slot ≠ cur →
    (k.processList slot).state = .ready ∨ (k.processList slot).state = .noProcess

/-- The slots of the processes, in the order of their turns after `cur`. -/
def turns (k : Kernel) (cur : Fin 16) : List (Fin 16) :=
  (rotation cur).filter fun slot => (k.processList slot).Live

/-! ### At most one block is running -/

/-- A call enters at most one block, and not as running. -/
theorem serve_processList (hs : serve p c k = some (a, k')) :
    k'.processList = k.processList ∨ ∃ slot pcb, pcb.state ≠ .running ∧
      k'.processList = Function.update k.processList slot pcb := by
  match c with
  | .create request =>
      obtain ⟨⟨code, k₁⟩, hc, he⟩ := Option.map_eq_some_iff.1 hs
      obtain ⟨-, rfl⟩ := Prod.mk.inj he
      obtain rfl | ⟨slot, pageDir, -, -, hlist⟩ := create_cases hc
      · exact .inl rfl
      · exact .inr ⟨slot, _, fun h => ProcessState.noConfusion h, hlist⟩
  | .destroy pid =>
      obtain ⟨⟨done, k₁⟩, hc, he⟩ := Option.map_eq_some_iff.1 hs
      obtain ⟨-, rfl⟩ := Prod.mk.inj he
      unfold processDestroy at hc
      dsimp only at hc
      split_ifs at hc
      · exact .inl (congrArg (fun r => r.2.processList) (Option.some.inj hc)).symm
      · exact .inl (congrArg (fun r => r.2.processList) (Option.some.inj hc)).symm
      · cases hp : k.pcbOf pid with
        | none =>
            rw [hp] at hc
            exact absurd hc (Option.some_ne_none _).symm
        | some i =>
            rw [hp] at hc
            refine .inr ⟨_, _, ?_,
              (congrArg (fun r => r.2.processList) (Option.some.inj hc)).symm⟩
            exact fun h => ProcessState.noConfusion h

/-- The calls keep at most one process running. -/
theorem AtMostOneRunning.served (h : AtMostOneRunning k) (hs : serve p c k = some (a, k')) :
    AtMostOneRunning k' := by
  rcases serve_processList hs with hk | ⟨slot, pcb, hpcb, hk⟩
  · unfold AtMostOneRunning Kernel.Running
    rw [hk]
    exact h
  · have hold : ∀ slot', k'.Running slot' → k.Running slot' := by
      intro slot' hr
      unfold Kernel.Running at hr
      rw [hk, Function.update_apply] at hr
      split_ifs at hr
      · exact absurd hr hpcb
      · exact hr
    exact fun slot₁ slot₂ h₁ h₂ => h slot₁ slot₂ (hold slot₁ h₁) (hold slot₂ h₂)

/-- The block that is running is the one that the lookup finds. -/
theorem current_eq (h : AtMostOneRunning k) (hr : k.Running slot) :
    k.processGetCurrentRunningPcbPointer = some slot := by
  have hfound : k.processGetCurrentRunningPcbPointer.isSome :=
    Fin.isSome_find?_of_eq_true (decide_eq_true hr)
  obtain ⟨i, hi⟩ := Option.isSome_iff_exists.1 hfound
  rw [hi, h i slot (running_of_current hi) hr]

/-- It is also the one that a switch starts from. -/
theorem idxRun_eq (h : AtMostOneRunning k) (hr : k.Running slot) : k.idxRun = slot :=
  idxRun_some (current_eq h hr)

/-- After a switch the block that it went to is running, and no other one. -/
theorem switched_running (h : AtMostOneRunning k) :
    (k.switched k.idxRun next).Running slot ↔ slot = next := by
  unfold Kernel.Running
  rw [switched_state]
  split_ifs with hn hc
  · exact iff_of_true rfl hn
  · exact iff_of_false (by decide) hn
  · exact iff_of_false (fun hr => hc (idxRun_eq h hr).symm) hn

/-- Saving a context changes contexts only. -/
theorem saveContext_apply (ctx : Context) (k : Kernel) (slot : Fin 16) :
    (schedulerSaveContextToCurrentRunningPcb ctx k).processList slot =
      { k.processList slot with
        context :=
          if k.processGetCurrentRunningPcbPointer = some slot then ctx
          else (k.processList slot).context } := by
  unfold schedulerSaveContextToCurrentRunningPcb
  cases hcur : k.processGetCurrentRunningPcbPointer with
  | none => simp
  | some cur =>
      simp only [Option.some.injEq, Function.update_apply]
      rcases eq_or_ne slot cur with rfl | hne
      · simp
      · simp [hne, hne.symm]

/-- Saving the context changes no state. -/
theorem saveContext_state (ctx : Context) (k : Kernel) (slot : Fin 16) :
    ((schedulerSaveContextToCurrentRunningPcb ctx k).processList slot).state =
      (k.processList slot).state := by
  rw [saveContext_apply]

/-- A switch leaves the process dispatched as the only one running. -/
theorem AtMostOneRunning.switch (h : AtMostOneRunning k) : ∃ d k',
    schedulerSwitchToNextProcess k = some (d, k') ∧ ∀ slot, k'.Running slot ↔ slot = d.slot := by
  obtain ⟨next, -, hs⟩ := switch_eq k
  exact ⟨_, _, hs, fun slot => switched_running h⟩

/-- What is saved before an event changes no state. -/
theorem saved_state (e : Event) (k : Kernel) (slot : Fin 16) :
    ((e.saved k).processList slot).state = (k.processList slot).state := by
  match e with
  | .timer frame => exact saveContext_state _ k slot
  | .call _ => rfl
  | .switch => rfl

/-- At the boot nothing runs. -/
theorem atMostOneRunning_boot (p : Placement) : AtMostOneRunning (Kernel.boot p) :=
  fun _ _ hr => ProcessState.noConfusion hr

/-- **Every event leaves at most one block running.** -/
theorem AtMostOneRunning.handled {e : Event} {o : Outcome} (h : AtMostOneRunning k)
    (hs : handle p e k = some (o, k')) : AtMostOneRunning k' := by
  rcases handle_cases hs with ⟨c, a, -, hc⟩ | ⟨-, next, -, rfl⟩
  · exact h.served hc
  · have hsaved : AtMostOneRunning (e.saved k) := by
      unfold AtMostOneRunning Kernel.Running
      simp only [saved_state]
      exact h
    exact fun slot₁ slot₂ h₁ h₂ =>
      ((switched_running hsaved).1 h₁).trans ((switched_running hsaved).1 h₂).symm

/-! ### The turns -/

/-- In a turn at most one process runs. -/
theorem Turn.atMostOneRunning (h : Turn k cur) : AtMostOneRunning k := by
  have hcur : ∀ slot, k.Running slot → slot = cur := by
    intro slot hr
    by_contra hne
    unfold Kernel.Running at hr
    rcases h.others slot hne with hs | hs <;> rw [hs] at hr <;> exact ProcessState.noConfusion hr
  exact fun slot₁ slot₂ h₁ h₂ => (hcur slot₁ h₁).trans (hcur slot₂ h₂).symm

/-- While one block is running and the others are ready, the eligible slots are those of
the processes. -/
theorem Turn.eligible (h : Turn k cur) :
    k.eligible = fun slot => decide (k.processList slot).Live := by
  have hcur := idxRun_eq h.atMostOneRunning h.running
  funext slot
  refine decide_eq_decide.2 ?_
  rw [hcur]
  unfold ProcessControlBlock.Live
  rcases eq_or_ne slot cur with rfl | hne
  · have hr : (k.processList slot).state = .running := h.running
    rw [hr]
    simp
  · rcases h.others slot hne with hs | hs <;> rw [hs] <;> simp [hne]

/-- A switch leaves the live processes live. -/
theorem switched_live (hcur : (k.processList cur).Live) (hnext : (k.processList next).Live) :
    ((k.switched cur next).processList slot).Live ↔ (k.processList slot).Live := by
  unfold ProcessControlBlock.Live at *
  rw [switched_state]
  split_ifs with hn hc
  · exact iff_of_true (by decide) (hn ▸ hnext)
  · exact iff_of_true (by decide) (hc ▸ hcur)
  · exact Iff.rfl

/-- **One turn.**  The first of the turns is served and becomes the last one. -/
theorem Turn.switch {t : List (Fin 16)} (h : Turn k cur) (ht : turns k cur = next :: t) :
    schedulerSwitchToNextProcess k =
        some (⟨next, (k.processList next).context⟩, k.switched cur next) ∧
      Turn (k.switched cur next) next ∧ turns (k.switched cur next) next = t ++ [next] ∧
      ∀ slot, ((k.switched cur next).processList slot).Live ↔ (k.processList slot).Live := by
  have hidx := idxRun_eq h.atMostOneRunning h.running
  have hlive : (k.processList cur).Live := h.running.live
  have hnext : (k.processList next).Live := by
    have hmem : next ∈ turns k cur := ht ▸ List.mem_cons_self
    exact of_decide_eq_true (List.mem_filter.1 hmem).2
  have hfind : (rotation cur).find? k.eligible = some next := by
    rw [h.eligible, ← List.head?_filter]
    exact congrArg List.head? ht
  refine ⟨?_, ⟨?_, fun slot hne => ?_⟩, ?_, fun slot => switched_live hlive hnext⟩
  · obtain ⟨next', hnext', hs⟩ := switch_eq k
    rw [hidx] at hnext' hs
    obtain rfl := Option.some.inj (hnext'.symm.trans hfind)
    exact hs
  · show _ = _
    rw [switched_state, if_pos rfl]
  · rw [switched_state, if_neg hne]
    split_ifs with hc
    · exact .inl rfl
    · exact h.others slot hc
  · unfold turns
    rw [List.filter_congr fun slot _ => decide_eq_decide.2 (switched_live hlive hnext)]
    exact filter_rotation ht

/-- The states apart, the blocks are the same ones. -/
def OnlyStates (k k' : Kernel) : Prop :=
  ∀ slot, k'.processList slot =
    { k.processList slot with state := (k'.processList slot).state }

/-- A switch changes states only. -/
theorem onlyStates_switched (k : Kernel) (cur next : Fin 16) :
    OnlyStates k (k.switched cur next) := by
  intro slot
  rw [switched_state]
  show setState (setState _ cur .ready) next .running slot = _
  simp only [setState_apply]

/-- Two changes of states only are one. -/
theorem OnlyStates.trans {k'' : Kernel} (h : OnlyStates k k') (h' : OnlyStates k' k'') :
    OnlyStates k k'' := by
  intro slot
  have h₁ := h slot
  have h₂ := h' slot
  rw [h₁] at h₂
  exact h₂

/-- **Turn after turn.**  A beginning of the turns is served in order. -/
theorem Turn.run {l r : List (Fin 16)} (h : Turn k cur) (hl : turns k cur = l ++ r) :
    ∃ k', Runs.run (handle p) (List.replicate l.length .switch) k =
        some (l.map fun slot => .dispatched ⟨slot, (k.processList slot).context⟩, k') ∧
      Turn k' (l.getLast?.getD cur) ∧ OnlyStates k k' ∧
      ∀ slot, (k'.processList slot).Live ↔ (k.processList slot).Live := by
  induction l generalizing k cur r with
  | nil => exact ⟨k, rfl, h, fun _ => rfl, fun _ => Iff.rfl⟩
  | cons next t ih =>
      have hcons : turns k cur = next :: (t ++ r) := hl
      obtain ⟨hs, hturn, hturns, hsame⟩ := h.switch hcons
      rw [List.append_assoc] at hturns
      obtain ⟨k', hr, hturn', hstates, hlive⟩ := ih hturn hturns
      have hcontext : ∀ slot, ((k.switched cur next).processList slot).context =
          (k.processList slot).context := fun slot => by
        rw [onlyStates_switched k cur next slot]
      refine ⟨k', ?_, ?_, (onlyStates_switched k cur next).trans hstates, fun slot => ?_⟩
      · simp only [hcontext] at hr
        refine Runs.run_cons_eq ?_ hr
        rw [handle, hs]
        rfl
      · rw [List.getLast?_cons]
        exact hturn'
      · exact (hlive slot).trans (hsame slot)

/-- There are as many turns as live processes. -/
theorem length_turns (k : Kernel) (cur : Fin 16) : (turns k cur).length = k.liveSlots.card := by
  have hset : (turns k cur).toFinset = k.liveSlots := by
    ext slot
    simp [turns, mem_rotation, mem_liveSlots]
  have hnodup : (turns k cur).Nodup := (nodup_rotation cur).filter _
  rw [← hset, List.toFinset_card_of_nodup hnodup]

/-- The turns end with the block that was running at first. -/
theorem Turn.getLast (h : Turn k cur) : (turns k cur).getLast? = some cur := by
  have hlive : (k.processList cur).Live := h.running.live
  unfold turns
  rw [rotation_eq_append, List.filter_append]
  simp [hlive]

/-- Two kernels in the same turn with the same processes have the same blocks, if all
but the states is the same. -/
theorem Turn.processList_eq (h : Turn k cur) (h' : Turn k' cur) (hs : OnlyStates k k')
    (hlive : ∀ slot, (k'.processList slot).Live ↔ (k.processList slot).Live) :
    k'.processList = k.processList := by
  funext slot
  have hstate : (k'.processList slot).state = (k.processList slot).state := by
    rcases eq_or_ne slot cur with rfl | hne
    · exact h'.running.trans h.running.symm
    · have hl := hlive slot
      unfold ProcessControlBlock.Live at hl
      rcases h.others slot hne with ho | ho <;> rcases h'.others slot hne with ho' | ho' <;>
        simp [ho, ho'] at hl ⊢
  rw [hs slot, hstate]

/-- **The scheduler is fair.**  In every state that any creations, destructions, switches
and timer interrupts reach from the boot at most one block is running, and a switch
returns and leaves exactly one, the one it went to.  A switch changes the states of the
blocks and nothing else of them.  From every state in which one block is running and the
other processes are ready, as many switches as there are processes go to each of them
once, in the order of the slots after the one that was running, with the context of its
block, and end in the same blocks. -/
theorem scheduler_fair (p : Placement) :
    (∀ k₀ ∈ kernelSetup p, ∀ events os k, Runs.run (handle p) events k₀ = some (os, k) →
      AtMostOneRunning k ∧ ∃ d k', schedulerSwitchToNextProcess k = some (d, k') ∧
        ∀ slot, k'.Running slot ↔ slot = d.slot) ∧
    (∀ k d k', schedulerSwitchToNextProcess k = some (d, k') → OnlyStates k k') ∧
    ∀ k cur, Turn k cur →
      (turns k cur).Nodup ∧ (∀ slot, slot ∈ turns k cur ↔ (k.processList slot).Live) ∧
      (turns k cur).getLast? = some cur ∧
      ∃ k', Runs.run (handle p) (List.replicate k.liveSlots.card .switch) k =
          some ((turns k cur).map fun slot =>
            .dispatched ⟨slot, (k.processList slot).context⟩, k') ∧
        k'.processList = k.processList := by
  refine ⟨fun k₀ hk events os k hr => ?_, fun k d k' hs => ?_, fun k cur h => ?_⟩
  · obtain rfl := Option.some.inj ((kernelSetup_eq p).symm.trans hk)
    have hone : AtMostOneRunning k := Runs.run_invariant
      (fun _ _ _ _ h _ hs => AtMostOneRunning.handled h hs) (atMostOneRunning_boot p)
      Runs.guarded_true hr
    exact ⟨hone, hone.switch⟩
  · obtain ⟨next, -, hs'⟩ := switch_eq k
    obtain ⟨-, rfl⟩ := Prod.mk.inj (Option.some.inj (hs'.symm.trans hs))
    exact onlyStates_switched k _ next
  · refine ⟨(nodup_rotation cur).filter _, fun slot => ?_, h.getLast, ?_⟩
    · simp [turns, mem_rotation]
    · obtain ⟨k', hr, hturn, hstates, hlive⟩ := h.run (p := p) (List.append_nil _).symm
      rw [length_turns] at hr
      rw [h.getLast] at hturn
      exact ⟨k', hr, h.processList_eq hturn hstates hlive⟩

/-- Processes in slots 2, which is running, 5 and 9. -/
def spread : Kernel :=
  { Kernel.boot afterCode with
    processList := fun slot =>
      { ProcessControlBlock.zero with
        pid := UInt32.ofNat slot
        state :=
          if slot = 2 then .running else if slot = 5 ∨ slot = 9 then .ready else .noProcess } }

/-- The process in slot 2 of `spread` has its turn. -/
theorem turn_spread : Turn spread 2 := ⟨rfl, by decide⟩

example : turns spread 2 = [5, 9, 2] := by decide

/-- Two processes, of which the first is destroyed while it is running, and the three
processes above. -/
theorem scheduler_fair_sample :
    (∃ os k, Runs.run (handle afterCode)
        [.call (.create program), .call (.create program), .switch, .call (.destroy 0)]
        (Kernel.boot afterCode) = some (os, k) ∧ AtMostOneRunning k) ∧
      (∃ d k', schedulerSwitchToNextProcess spread = some (d, k') ∧ OnlyStates spread k') ∧
      ∃ k', Runs.run (handle afterCode) (List.replicate spread.liveSlots.card .switch) spread =
          some ((turns spread 2).map fun slot =>
            .dispatched ⟨slot, (spread.processList slot).context⟩, k') ∧
        k'.processList = spread.processList := by
  obtain ⟨hreach, honly, hturns⟩ := scheduler_fair afterCode
  refine ⟨?_, ?_, (hturns spread 2 turn_spread).2.2.2⟩
  · obtain ⟨⟨os, k⟩, hr⟩ : ∃ r, Runs.run (handle afterCode)
        [.call (.create program), .call (.create program), .switch, .call (.destroy 0)]
        (Kernel.boot afterCode) = some r := Option.isSome_iff_exists.1 (by decide +kernel)
    exact ⟨os, k, hr, (hreach _ (kernelSetup_eq afterCode) _ os k hr).1⟩
  · obtain ⟨next, -, hs⟩ := switch_eq spread
    exact ⟨_, _, hs, honly spread _ _ hs⟩

end Process
end Jatos
