/-
# Memory isolation

From the boot on, creations whose size leaves room for the stack's frame and
destructions whose lookup finds a block all return, and no page frame is ever
mapped for two users.  The check that the code makes is enough for that because
it shows that one frame is free, and `Invariant` that then two are.
-/

import Jatos.Process.Invariant

namespace Jatos
namespace Process

variable {p : Placement} {k : Kernel}

/-- `buffer_size` leaves room for the stack's frame in 32 bits, and the lookup of a
`pid` finds a process control block. -/
def Permitted (k : Kernel) : Call → Prop
  | .create request => request.bufferSize.toNat < 2 ^ 32 - 2 ^ 22
  | .destroy pid => pid.toNat < 16 → ∃ i, k.pcbOf pid = some i

instance (k : Kernel) : (c : Call) → Decidable (Permitted k c)
  | .create request => inferInstanceAs (Decidable (request.bufferSize.toNat < 2 ^ 32 - 2 ^ 22))
  | .destroy pid =>
      decidable_of_iff (pid.toNat < 16 → (k.pcbOf pid).isSome) <| by
        simp only [Option.isSome_iff_exists, Permitted]

/-- A permitted call is answered and keeps the invariant. -/
theorem step_kept {c : Call} (h : Invariant p k) (hc : Permitted k c) :
    ∃ a k', serve p c k = some (a, k') ∧ Invariant p k' := by
  match c with
  | .create request =>
      rcases serve_create h.stocked request with ⟨-, ha, hzero⟩ | ⟨a, k', hs, -⟩
      · have hone := freeCount_pos h.frames (pageFrameCountNeeded_pos hc) ha.check
        exact absurd hzero hone.ne'
      · exact ⟨a, k', hs, h.served hs⟩
  | .destroy pid =>
      rcases serve_destroy h pid with ⟨-, slot, hslot, hpid⟩ | ⟨a, k', hs, -⟩
      · obtain ⟨i, hi⟩ := hc (hslot ▸ slot.isLt)
        obtain ⟨hi, he⟩ := (pcbOf_eq_some_iff h.pid).1 hi
        rw [Fin.ext (hi.trans hslot.symm)] at he
        exact absurd he hpid
      · exact ⟨a, k', hs, h.served hs⟩

/-- What the memory of one process is kept apart by. -/
structure Isolated (p : Placement) (k : Kernel) : Prop where
  /-- The counter counts the clear bits of `page_frame_map`. -/
  counted : k.paging.freePageFrameCount.toNat = Bitmap.freeCount k.paging.pageFrameMap
  /-- No frame is mapped by two entries for a user, in whichever page directories. -/
  unshared : ∀ d d' j j' f, (k.paging.pageDirectory d j).userFrame = some f →
    (k.paging.pageDirectory d' j').userFrame = some f → d = d' ∧ j = j'
  /-- Frame 0 is mapped by no entry for a user. -/
  kernelFrame : ∀ d j, (k.paging.pageDirectory d j).userFrame ≠ some 0
  /-- The page directory of a live process maps the kernel's half. -/
  kernelHalf : ∀ slot, (k.processList slot).state ≠ .noProcess → ∃ i,
    (k.processList slot).context.pageDirectoryVirtualAddr = p.address (.listed i) ∧
    (k.paging.pageDirectory (.listed i) 0x300).flag.presentBit = true ∧
    (k.paging.pageDirectory (.listed i) 0x300).lowerAddress = 0

/-- Under the invariant the processes are isolated. -/
theorem Invariant.isolated (h : Invariant p k) : Isolated p k where
  counted := h.frames.counted
  unshared d d' j j' f hj hj' := by
    have he : (d, j) = (d', j') := h.frames.exclusive.unique hj hj'
    exact ⟨congrArg Prod.fst he, congrArg Prod.snd he⟩
  kernelFrame d j hj := h.frames.exclusive.not_reserved (k := (d, j)) hj rfl
  kernelHalf slot hs := by
    obtain ⟨i, hi⟩ := h.live slot hs
    have hentry := h.frames.kernelHalf i (h.owned.held_taken (k := slot) hi)
    refine ⟨i, (Placement.listedAt_eq_some.1 hi).symm, ?_, ?_⟩
    · rw [hentry]; rfl
    · rw [hentry]; rfl

/-- **Memory isolation.**  From the boot, every sequence of permitted creations and
destructions returns from each call, so the search for a free frame never fails,
and leaves the memory of the processes isolated. -/
theorem isolated_after_run (p : Placement) (calls : List Call)
    (h : ∀ k₀ ∈ kernelSetup p, Runs.Guarded (serve p) Permitted calls k₀) :
    ∃ answers k, (kernelSetup p).bind (Runs.run (serve p) calls) = some (answers, k) ∧
      Isolated p k := by
  have hstep : ∀ k c, Invariant p k → Permitted k c →
      ∃ a k', serve p c k = some (a, k') ∧ Invariant p k' := fun k c => step_kept
  obtain ⟨answers, k, hr, hk'⟩ := Runs.run_total hstep (boot_invariant p) (h _ (kernelSetup_eq p))
  rw [kernelSetup_eq]
  exact ⟨answers, k, hr, hk'.isolated⟩

/-- Two processes; then the slot of the second is destroyed and taken again, and then
the first one's, which leaves the count at 1 and has the next creation overwrite slot 1. -/
theorem isolated_after_run_sample :
    ∃ answers k, (kernelSetup afterCode).bind (Runs.run (serve afterCode)
        [.create program, .create program, .destroy 1, .create program, .destroy 0,
          .create program]) = some (answers, k) ∧ Isolated afterCode k :=
  isolated_after_run afterCode _ (by decide +kernel)

end Process
end Jatos
