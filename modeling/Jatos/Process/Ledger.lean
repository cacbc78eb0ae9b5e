/-
# The page directories and blocks of the process table

`Ledger` adds to `Invariant` what the tables hold besides: an unused page
directory maps nothing, one in use maps the frame of a stack, a block without a
process holds zeros, a live process carries the number of its slot, and
`list_of_process`, which nothing ever sets, is clear.  Every call keeps it.
-/

import Jatos.Process.Directories
import Jatos.Process.Invariant

namespace Jatos
namespace Process

variable {p : Placement} {k k' : Kernel} {c : Call} {a : Answer} {request : ReadRequest}
  {slot : Fin 16} {i f g : Fin 32} {s : Paging}

/-- The entry of a process's stack. -/
abbrev stackIndex : Fin 1024 := pageIndex 0xBFFFFFFC

/-- The block is that of a process. -/
def ProcessControlBlock.Live (pcb : ProcessControlBlock) : Prop := pcb.state ≠ .noProcess

instance (pcb : ProcessControlBlock) : Decidable pcb.Live :=
  inferInstanceAs (Decidable (pcb.state ≠ .noProcess))

/-- A zeroed block is no live process. -/
theorem not_live_zero : ¬ProcessControlBlock.zero.Live := fun h => h rfl

/-- A block set up is a live process. -/
theorem live_setUp (pcb : ProcessControlBlock) (request : ReadRequest) (pageDir pIndex : UInt32) :
    (pcb.setUp request pageDir pIndex).Live := by
  show ProcessState.ready ≠ .noProcess
  decide

/-- The slots of the processes. -/
def Kernel.liveSlots (k : Kernel) : Finset (Fin 16) :=
  Finset.univ.filter fun slot => (k.processList slot).Live

/-- The live slots are those of live processes. -/
theorem mem_liveSlots : slot ∈ k.liveSlots ↔ (k.processList slot).Live := by
  simp [Kernel.liveSlots]

/-- Setting a live process into a slot makes the slot live. -/
theorem liveSlots_insert {pcb : ProcessControlBlock}
    (hk : k'.processList = Function.update k.processList slot pcb) (hl : pcb.Live) :
    k'.liveSlots = insert slot k.liveSlots := by
  ext slot'
  rw [mem_liveSlots, hk, Finset.mem_insert, mem_liveSlots, Function.update_apply]
  split_ifs with he <;> simp [he, hl]

/-- Setting a dead process into a slot makes the slot dead. -/
theorem liveSlots_erase {pcb : ProcessControlBlock}
    (hk : k'.processList = Function.update k.processList slot pcb) (hl : ¬pcb.Live) :
    k'.liveSlots = k.liveSlots.erase slot := by
  ext slot'
  rw [mem_liveSlots, hk, Finset.mem_erase, mem_liveSlots, Function.update_apply]
  split_ifs with he <;> simp [he, hl]

/-- A block without a process holds zeros, one with a process its slot's number. -/
structure Numbered (slot : Fin 16) (pcb : ProcessControlBlock) : Prop where
  dead : ¬pcb.Live → pcb = .zero
  live : pcb.Live → pcb.pid.toNat = slot

/-- The books of the processes: the invariant, which slots are listed, the numbers, what the
directories out of use hold, and the stack of those in use. -/
structure Ledger (p : Placement) (k : Kernel) : Prop where
  kept : Invariant p k
  unlisted : ∀ slot, k.listOfProcess slot = false
  numbered : ∀ slot, Numbered slot (k.processList slot)
  clean : ∀ i, k.paging.pageDirectoryUsed i = false →
    k.paging.pageDirectory (.listed i) = fun _ => .zero
  stack : ∀ i, k.paging.pageDirectoryUsed i = true →
    k.paging.userFrame (.listed i, stackIndex) ≠ none

/-- A live process has a page directory in use. -/
theorem Ledger.directory (h : Ledger p k) (hl : (k.processList slot).Live) :
    ∃ i, directoryOf p k slot = some i ∧ k.paging.pageDirectoryUsed i = true := by
  obtain ⟨i, hi⟩ := h.kept.live slot hl
  exact ⟨i, hi, h.kept.owned.held_taken (k := slot) hi⟩

/-! ### The page directories after a call -/

/-- A creation leaves the other directories alone. -/
theorem created_pageDirectory {d : Directory} (hd : d ≠ .listed i) :
    (k.created p request slot i f g).paging.pageDirectory d = k.paging.pageDirectory d := by
  unfold Kernel.created
  rw [pageDirectory_usePageDirectory, mapFrame_pageDirectory hd, mapFrame_pageDirectory hd,
    pageDirectory_usePageDirectory, useDirectory_pageDirectory hd]

/-- A creation maps two frames, for the program and for its stack. -/
theorem created_userFrame (p : Placement) (k : Kernel) (request : ReadRequest) (slot : Fin 16)
    (i f g : Fin 32) : (k.created p request slot i f g).paging.userFrame =
      Function.update (Function.update (k.paging.useDirectory i).userFrame
        (.listed i, pageIndex request.buf) (some f)) (.listed i, stackIndex) (some g) := by
  unfold Kernel.created
  rw [userFrame_usePageDirectory, userFrame_mapFrame, userFrame_mapFrame,
    userFrame_usePageDirectory]

/-- Taking a page directory that maps nothing maps nothing for a user. -/
theorem userFrame_useDirectory (h : s.pageDirectory (.listed i) = fun _ => .zero) (j : Fin 1024) :
    (s.useDirectory i).userFrame (.listed i, j) = none := by
  show PageDirectoryEntry.userFrame (Function.update s.pageDirectory _ _ (.listed i) j) = none
  rw [setEntry_apply, h]
  split_ifs <;> rfl

/-- **The new page directory** maps two frames, or one if the program lies in the page of
its stack. -/
theorem created_userFrame_self (h : Cleared k.paging) (ht : Taken k request slot i f g)
    (j : Fin 1024) : (k.created p request slot i f g).paging.userFrame (.listed i, j) =
      if j = stackIndex then some g.val
      else if j = pageIndex request.buf then some f.val else none := by
  rw [created_userFrame, Function.update_apply, Function.update_apply,
    userFrame_useDirectory (h i ht.directory)]
  simp

/-- The directories out of use are clear after a creation. -/
theorem Cleared.created (h : Cleared k.paging) :
    Cleared (k.created p request slot i f g).paging := by
  intro i' hi'
  change Function.update k.paging.pageDirectoryUsed i true i' = false at hi'
  have hne : i' ≠ i := by
    rintro rfl
    rw [Function.update_self] at hi'
    exact Bool.noConfusion hi'
  rw [created_pageDirectory fun he => hne (Directory.listed.inj he)]
  exact h i' (by rwa [Function.update_of_ne hne] at hi')

/-! ### Every call keeps the ledger -/

/-- A creation keeps the books. -/
theorem Ledger.created (h : Ledger p k) (ht : Taken k request slot i f g) :
    Ledger p (k.created p request slot i f g) where
  kept := h.kept.created ht
  unlisted := h.unlisted
  numbered := (Function.forall_update_iff _ Numbered).2
    ⟨⟨fun hd => absurd (live_setUp _ _ _ _) hd, fun _ => ht.slot.symm⟩,
      fun slot' _ => h.numbered slot'⟩
  clean := Cleared.created h.clean
  stack i' hi' := by
    change Function.update k.paging.pageDirectoryUsed i true i' = true at hi'
    rcases eq_or_ne i' i with rfl | hne
    · rw [created_userFrame, Function.update_self]
      exact Option.some_ne_none _
    · have hd : Directory.listed i' ≠ .listed i := fun he => hne (Directory.listed.inj he)
      rw [Function.update_of_ne hne] at hi'
      show PageDirectoryEntry.userFrame ((k.created p request slot i f g).paging.pageDirectory
        (.listed i') stackIndex) ≠ none
      rw [created_pageDirectory hd]
      exact h.stack i' hi'

/-- A destruction keeps the books. -/
theorem Ledger.destroyed (h : Ledger p k) (slot : Fin 16) : Ledger p (k.destroyed p slot) := by
  have hnumbered : ∀ slot', Numbered slot' ((k.destroyed p slot).processList slot') :=
    (Function.forall_update_iff _ Numbered).2
      ⟨⟨fun _ => rfl, fun hl => absurd hl not_live_zero⟩, fun slot' _ => h.numbered slot'⟩
  have hlist : ∀ slot', (k.destroyed p slot).listOfProcess slot' = false :=
    (Function.forall_update_iff _ fun _ b => b = false).2 ⟨rfl, fun slot' _ => h.unlisted slot'⟩
  refine ⟨h.kept.destroyed slot, hlist, hnumbered, Cleared.freed h.clean _, fun i' hi' => ?_⟩
  rcases hd : directoryOf p k slot with _ | i
  · rw [destroyed_paging_none hd] at hi' ⊢
    exact h.stack i' hi'
  · rw [destroyed_paging_some hd] at hi' ⊢
    have hne : i' ≠ i := by
      rintro rfl
      exact Bool.noConfusion ((Function.update_self ..).symm.trans hi')
    show PageDirectoryEntry.userFrame ((k.paging.dropDirectory i).pageDirectory _ _) ≠ none
    rw [dropDirectory_pageDirectory fun he => hne (Directory.listed.inj he)]
    exact h.stack i' ((Function.update_of_ne hne _ _).symm.trans hi')

/-- The calls keep the books. -/
theorem Ledger.served (h : Ledger p k) (hs : serve p c k = some (a, k')) : Ledger p k' := by
  cases Process.served h.kept hs with
  | refused => exact h
  | created ht => exact h.created ht
  | kept => exact h
  | destroyed => exact h.destroyed _

/-- The books are right at the boot. -/
theorem boot_ledger (p : Placement) : Ledger p (Kernel.boot p) where
  kept := boot_invariant p
  unlisted _ := rfl
  numbered _ := ⟨fun _ => rfl, fun hl => absurd hl not_live_zero⟩
  clean i _ := by
    have hne : Directory.listed i ≠ .kernel := fun he => Directory.noConfusion he
    exact mapFrame_pageDirectory hne (Paging.initial p) (pageIndex 0) 1
  stack i hi := Bool.noConfusion hi

end Process
end Jatos
