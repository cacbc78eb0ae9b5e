/-
# What a destruction changes

`process_destroy` tests an array that nothing ever sets, and looks for the `pid`
in all blocks, of which those without a process carry 0.  So below 16 it answers
true for a process and for `pid` 0, and goes through `NULL` for any other; and it
decrements a counter that it does not test.

Whatever the kernel does before, a block without a process holds zeros and any
other carries the number of its slot (`Numbered`, `handle_slotted`), which
decides every `pid` (`destroy_exact_iff`).
-/

import Jatos.Process.Scheduled

namespace Jatos
namespace Process

variable {p : Placement} {k k' : Kernel} {pid : UInt32} {slot : Fin 16} {e : Event} {o : Outcome}
  {request : ReadRequest} {code : ℤ} {events : List Event}

/-- The block in the slot is that of a process: it has a state, and a page
directory of the list. -/
def Kernel.HasProcess (p : Placement) (k : Kernel) (slot : Fin 16) : Prop :=
  (k.processList slot).Live ∧ ∃ i, directoryOf p k slot = some i

/-- The process in the slot, its page directory and the count are what changed. -/
structure OnlyDestroyed (p : Placement) (k k' : Kernel) (slot : Fin 16) : Prop where
  gone : ¬(k'.processList slot).Live
  others : ∀ slot', slot' ≠ slot → k'.processList slot' = k.processList slot'
  list : k'.listOfProcess = k.listOfProcess
  count : k'.activeProcessCount.toNat + 1 = k.activeProcessCount.toNat
  frames : k'.paging.pageFrameMap = k.paging.pageFrameMap
  free : k'.paging.freePageFrameCount = k.paging.freePageFrameCount
  cr3 : k'.paging.cr3 = k.paging.cr3
  used : ∀ i, directoryOf p k slot ≠ some i →
    k'.paging.pageDirectoryUsed i = k.paging.pageDirectoryUsed i
  kernelDirectory : k'.paging.pageDirectory .kernel = k.paging.pageDirectory .kernel
  directories : ∀ i, directoryOf p k slot ≠ some i →
    k'.paging.pageDirectory (.listed i) = k.paging.pageDirectory (.listed i)

/-- A destruction takes away the process of that `pid`, if there is one, and is
refused otherwise. -/
structure Exact (p : Placement) (k : Kernel) (pid : UInt32) : Prop where
  done : ∀ slot, k.HasProcess p slot → (k.processList slot).pid = pid →
    ∃ k', processDestroy p pid k = some (true, k') ∧ OnlyDestroyed p k k' slot
  refused : (∀ slot, k.HasProcess p slot → (k.processList slot).pid ≠ pid) →
    processDestroy p pid k = some (false, k)

/-! ### The numbers of the blocks -/

/-- What every event keeps, whatever came before. -/
structure Slotted (k : Kernel) : Prop where
  unlisted : ∀ slot, k.listOfProcess slot = false
  numbered : ∀ slot, Numbered slot (k.processList slot)

/-- A numbered process is in the slot that its number says. -/
theorem Numbered.inSlot {pcb : ProcessControlBlock} (h : Numbered slot pcb) : InSlot slot pcb := by
  by_cases hl : pcb.Live
  · exact .inr (h.live hl)
  · exact .inl (congrArg ProcessControlBlock.pid (h.dead hl))

/-- A destruction that returns changes nothing, or clears the block of its number and
frees a page directory. -/
theorem destroy_cases {done : Bool} (h : processDestroy p pid k = some (done, k')) :
    k' = k ∨ ∃ (slot : Fin 16) (pageDir : UInt32),
      k'.paging = (pagingFreePageDirectory p pageDir k.paging).2 ∧
      k'.listOfProcess = Function.update k.listOfProcess slot false ∧
      k'.processList = Function.update k.processList slot .zero := by
  unfold processDestroy at h
  dsimp only at h
  split_ifs at h with hpid hlist
  · exact .inl (congrArg Prod.snd (Option.some.inj h)).symm
  · exact .inl (congrArg Prod.snd (Option.some.inj h)).symm
  · cases hpcb : k.pcbOf pid with
    | none =>
        rw [hpcb] at h
        cases h
    | some i =>
        rw [hpcb] at h
        obtain rfl := congrArg Prod.snd (Option.some.inj h)
        exact .inr ⟨⟨pid.toNat, not_le.1 hpid⟩, _, rfl, rfl, rfl⟩

/-- The calls keep every process in its slot. -/
theorem Slotted.served {c : Call} {a : Answer} (h : Slotted k)
    (hs : serve p c k = some (a, k')) : Slotted k' := by
  cases c with
  | create request =>
      obtain ⟨⟨code, k₁⟩, hc, he⟩ := Option.map_eq_some_iff.1 hs
      obtain ⟨-, rfl⟩ := Prod.mk.inj he
      rcases create_cases hc with rfl | ⟨slot, pageDir, hslot, hlist, hk⟩
      · exact h
      · refine ⟨hlist ▸ h.unlisted, fun slot' => ?_⟩
        rw [hk]
        exact (Function.forall_update_iff _ Numbered).2
          ⟨⟨fun hd => absurd (live_setUp _ _ _ _) hd, fun _ => hslot.symm⟩,
            fun slot'' _ => h.numbered slot''⟩ slot'
  | destroy pid =>
      obtain ⟨⟨done, k₁⟩, hd, he⟩ := Option.map_eq_some_iff.1 hs
      obtain ⟨-, rfl⟩ := Prod.mk.inj he
      rcases destroy_cases hd with rfl | ⟨slot, -, -, hlist, hk⟩
      · exact h
      · refine ⟨fun slot' => ?_, fun slot' => ?_⟩
        · rw [hlist]
          exact (Function.forall_update_iff _ fun _ b => b = false).2
            ⟨rfl, fun slot'' _ => h.unlisted slot''⟩ slot'
        · rw [hk]
          exact (Function.forall_update_iff _ Numbered).2
            ⟨⟨fun _ => rfl, fun hl => absurd hl not_live_zero⟩,
              fun slot'' _ => h.numbered slot''⟩ slot'

/-- Saving a context changes the block of a process. -/
theorem Slotted.saved (h : Slotted k) (e : Event) : Slotted (e.saved k) := by
  match e with
  | .call _ => exact h
  | .switch => exact h
  | .timer frame =>
      refine ⟨fun slot => ?_, fun slot => ⟨fun hd => ?_, fun hl => ?_⟩⟩
      · show (schedulerSaveContextToCurrentRunningPcb _ k).listOfProcess slot = false
        unfold schedulerSaveContextToCurrentRunningPcb
        split <;> exact h.unlisted slot
      · have hdead : ¬(k.processList slot).Live := fun hl => hd (by
          unfold ProcessControlBlock.Live
          rw [saved_state]
          exact hl)
        have hne : k.processGetCurrentRunningPcbPointer ≠ some slot := fun hcur =>
          hdead (running_of_current hcur).live
        have hsame : ((Event.timer frame).saved k).processList slot = k.processList slot := by
          refine (saveContext_apply (frame.context k) k slot).trans ?_
          rw [if_neg hne]
        rw [hsame]
        exact (h.numbered slot).dead hdead
      · have hpid : (((Event.timer frame).saved k).processList slot).pid =
            (k.processList slot).pid := by
          refine (congrArg _ (saveContext_apply (frame.context k) k slot)).trans rfl
        rw [hpid]
        refine (h.numbered slot).live ?_
        unfold ProcessControlBlock.Live at hl ⊢
        rwa [saved_state] at hl

/-- A switch enters a state into the block it starts from and the one it goes to:
blocks of processes, or that of slot 0. -/
theorem Slotted.switched {next : Fin 16} (h : Slotted k)
    (hnext : (Cyclic.rotation k.idxRun).find? k.eligible = some next) :
    Slotted (k.switched k.idxRun next) := by
  have hcur : (k.processList k.idxRun).pid.toNat = k.idxRun := by
    cases hrun : k.processGetCurrentRunningPcbPointer with
    | some cur =>
        rw [idxRun_some hrun]
        exact (h.numbered cur).live (running_of_current hrun).live
    | none =>
        rw [idxRun_none hrun]
        by_cases hl : (k.processList 0).Live
        · exact (h.numbered 0).live hl
        · rw [(h.numbered 0).dead hl]
          rfl
  have hgoal : (k.processList next).pid.toNat = next := by
    rcases eligible_next hnext with hs | rfl
    · exact (h.numbered next).live fun he => ProcessState.noConfusion (he.symm.trans hs)
    · exact hcur
  have honly := onlyStates_switched k k.idxRun next
  refine ⟨h.unlisted, fun slot => ⟨fun hd => ?_, fun hl => ?_⟩⟩
  · unfold ProcessControlBlock.Live at hd
    rw [switched_state] at hd
    split_ifs at hd with hn hc
    · exact absurd (by decide) hd
    · exact absurd (by decide) hd
    · rw [honly slot, switched_state, if_neg hn, if_neg hc]
      exact (h.numbered slot).dead hd
  · rw [honly slot]
    unfold ProcessControlBlock.Live at hl
    rw [switched_state] at hl
    split_ifs at hl with hn hc
    · exact hn ▸ hgoal
    · exact hc ▸ hcur
    · exact (h.numbered slot).live hl

/-- **Every event.** -/
theorem Slotted.handled (h : Slotted k) (hs : handle p e k = some (o, k')) : Slotted k' := by
  rcases handle_cases hs with ⟨c, a, -, hc⟩ | ⟨-, next, hnext, rfl⟩
  · exact h.served hc
  · exact (h.saved e).switched hnext

/-- At the boot every process is in its slot. -/
theorem boot_slotted (p : Placement) : Slotted (Kernel.boot p) :=
  ⟨fun _ => rfl, fun _ => ⟨fun _ => rfl, fun hl => absurd hl not_live_zero⟩⟩

/-! ### Exactness -/

/-- **The process in a slot is destroyed**, and nothing else, if the counter counts
it. -/
theorem onlyDestroyed (h : Slotted k) (hp : k.HasProcess p slot)
    (hcount : 0 < k.activeProcessCount.toNat) : OnlyDestroyed p k (k.destroyed p slot) slot := by
  obtain ⟨-, i, hi⟩ := hp
  have hpaging := destroyed_paging_some hi
  refine ⟨?_, fun slot' hne => Function.update_of_ne hne _ _, ?_, ?_, ?_, ?_, ?_, fun j hj => ?_,
    ?_, fun j hj => ?_⟩
  · show ¬(Function.update k.processList slot .zero slot).Live
    rw [Function.update_self]
    exact not_live_zero
  · show Function.update k.listOfProcess slot false = k.listOfProcess
    rw [← h.unlisted slot, Function.update_eq_self]
  · have hone : (1 : UInt32) ≤ k.activeProcessCount := UInt32.le_iff_toNat_le.2 hcount
    show (k.activeProcessCount - 1).toNat + 1 = _
    rw [UInt32.toNat_sub_of_le _ _ hone, UInt32.toNat_one]
    omega
  · rw [hpaging]
    rfl
  · rw [hpaging]
    rfl
  · rw [hpaging]
    rfl
  · rw [hpaging]
    exact Function.update_of_ne (fun he : j = i => hj (he ▸ hi)) _ _
  · rw [hpaging]
    exact dropDirectory_pageDirectory fun he => Directory.noConfusion he
  · rw [hpaging]
    exact dropDirectory_pageDirectory fun he => hj (Directory.listed.inj he ▸ hi)

/-- A `pid` below 16 is answered with true, or the code goes through `NULL`. -/
theorem destroy_not_refused (h : Slotted k) (hlt : pid.toNat < 16) :
    processDestroy p pid k ≠ some (false, k) := by
  let slot : Fin 16 := ⟨pid.toNat, hlt⟩
  have hslot : slot.val = pid.toNat := rfl
  have hpids : ∀ slot, InSlot slot (k.processList slot) := fun slot => (h.numbered slot).inSlot
  by_cases hpid : (k.processList slot).pid = pid
  · rw [destroy_found hpids hslot (h.unlisted slot) hpid]
    exact fun he => Bool.noConfusion (congrArg Prod.fst (Option.some.inj he))
  · rw [destroy_lost hpids hslot (h.unlisted slot) hpid]
    exact (Option.some_ne_none _).symm

/-- **When a destruction is exact.**  In every state that the kernel reaches, by any
calls, switches and timer interrupts: for a `pid` from 16 on, and for the `pid`
of a process while the count is not 0. -/
theorem destroy_exact_iff (p : Placement) (events : List Event) : ∀ k₀ ∈ kernelSetup p, ∀ os k,
    Runs.run (handle p) events k₀ = some (os, k) → ∀ pid : UInt32, Exact p k pid ↔
      16 ≤ pid.toNat ∨ (∃ slot : Fin 16, slot.val = pid.toNat ∧ k.HasProcess p slot) ∧
        0 < k.activeProcessCount.toNat := by
  intro k₀ hk₀ os k hrun pid
  obtain rfl := Option.some.inj ((kernelSetup_eq p).symm.trans hk₀)
  have h : Slotted k := Runs.run_invariant (fun _ _ _ _ hi _ hs => hi.handled hs) (boot_slotted p)
    Runs.guarded_true hrun
  have hslot : ∀ slot, k.HasProcess p slot → (k.processList slot).pid = pid →
      slot.val = pid.toNat := fun slot hp hpid =>
    ((h.numbered slot).live hp.1).symm.trans (congrArg UInt32.toNat hpid)
  constructor
  · intro hex
    by_cases hge : 16 ≤ pid.toNat
    · exact .inl hge
    · right
      by_contra hnot
      have hlt := not_le.1 hge
      by_cases hp : ∃ slot, k.HasProcess p slot ∧ (k.processList slot).pid = pid
      · obtain ⟨slot, hp, hpid⟩ := hp
        obtain ⟨k', -, honly⟩ := hex.done slot hp hpid
        exact hnot ⟨⟨slot, hslot slot hp hpid, hp⟩, by have := honly.count; omega⟩
      · exact destroy_not_refused h hlt
          (hex.refused fun slot hs hpid => hp ⟨slot, hs, hpid⟩)
  · rintro (hge | ⟨⟨slot, hs, hp⟩, hcount⟩)
    · refine ⟨fun slot hp hpid => ?_, fun _ => destroy_refused hge⟩
      have := hslot slot hp hpid
      omega
    · have hpid : (k.processList slot).pid = pid :=
        UInt32.toNat_inj.1 (((h.numbered slot).live hp.1).trans hs)
      refine ⟨fun slot' hp' hpid' => ?_, fun hnone => absurd hpid (hnone slot hp)⟩
      obtain rfl : slot' = slot := Fin.ext ((hslot slot' hp' hpid').trans hs.symm)
      exact ⟨_, destroy_found (fun slot => (h.numbered slot).inSlot) hs (h.unlisted _) hpid,
        onlyDestroyed h hp hcount⟩

/-- After two creations and a switch. -/
theorem destroy_exact_iff_sample : ∃ os k, Runs.run (handle afterCode)
      [.call (.create program), .call (.create program), .switch] (Kernel.boot afterCode) =
        some (os, k) ∧
    ∀ pid : UInt32, Exact afterCode k pid ↔
      16 ≤ pid.toNat ∨ (∃ slot : Fin 16, slot.val = pid.toNat ∧ k.HasProcess afterCode slot) ∧
        0 < k.activeProcessCount.toNat := by
  have hsome : (Runs.run (handle afterCode)
      [.call (.create program), .call (.create program), .switch]
      (Kernel.boot afterCode)).isSome = true := by decide +kernel
  obtain ⟨⟨os, k⟩, hrun⟩ := Option.isSome_iff_exists.1 hsome
  exact ⟨os, k, hrun, destroy_exact_iff afterCode _ _ (kernelSetup_eq afterCode) os k hrun⟩

/-- Before any process was created, `pid` 0 is answered with true, and the count
wraps around. -/
theorem not_destroy_exact_sample :
    (processDestroy afterCode 0 (Kernel.boot afterCode)).map
        (fun r => (r.1, r.2.activeProcessCount)) = some (true, 0xFFFFFFFF) ∧
      ¬Exact afterCode (Kernel.boot afterCode) 0 := by
  refine ⟨by decide +kernel, fun hex => ?_⟩
  refine destroy_not_refused (boot_slotted afterCode) (by decide) (hex.refused fun slot hp => ?_)
  exact absurd rfl hp.1

end Process
end Jatos
