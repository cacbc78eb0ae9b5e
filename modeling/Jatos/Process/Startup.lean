/-
# The shell is started

`kernel_setup` creates the shell, in slot 0, and switches to it.  Its creation
passes the checks and finds its frames, and no block is running at the switch,
which starts from slot 0 for that reason and finds the shell there.
-/

import Jatos.Process.Scheduled
import Jatos.Process.Table

namespace Jatos
namespace Process

variable {p : Placement} {k : Kernel}

/-- The state in which `kernel_setup` leaves the kernel. -/
structure Started (p : Placement) (d : Dispatch) (k : Kernel) : Prop where
  scheduled : Scheduled p k
  running : k.Running d.slot
  count : k.activeProcessCount = 1
  live : ∀ slot, (k.processList slot).Live ↔ slot = 0
  free : Bitmap.freeCount k.paging.pageFrameMap = 28

/-- The shell's request is accepted at the boot. -/
theorem accepted_shell (p : Placement) : Accepted (Kernel.boot p) shell where
  count := by
    show (0 : UInt32).toNat < 16
    decide
  entrypoint := by decide
  check := by
    have hpos : 0 < Bitmap.freeCount (Kernel.boot p).paging.pageFrameMap := by
      rw [freeCount_boot]
      decide
    exact allocateCheck_of_pos (boot_ledger p).kept.frames hpos (by decide +kernel)
  max := by decide +kernel

/-- **The shell runs.** -/
theorem kernelSetupShell_started (p : Placement) :
    ∃ d k, kernelSetupShell p = some (d, k) ∧ Started p d k := by
  have hboot := boot_scheduled p
  have ha := accepted_shell p
  have hpos : 0 < Bitmap.freeCount (Kernel.boot p).paging.pageFrameMap := by
    rw [freeCount_boot]
    decide
  obtain ⟨slot, i, f, g, ht, hc⟩ := create_accepted hboot.ledger.kept.stocked ha hpos
  obtain rfl : slot = 0 := Fin.ext ht.slot
  let k₁ := (Kernel.boot p).created p shell 0 i f g
  have hs : serve p (.create shell) (Kernel.boot p) =
      some (.created PROCESS_CREATE_SUCCESS, k₁) := by
    rw [serve, hc]
    rfl
  have h₁ : Scheduled p k₁ := hboot.served hs
  have hslots : k₁.liveSlots = {0} := by
    have hinsert : k₁.liveSlots = insert 0 (Kernel.boot p).liveSlots :=
      liveSlots_insert rfl (live_setUp _ _ _ _)
    have hempty : (Kernel.boot p).liveSlots = ∅ :=
      Finset.filter_false_of_mem fun _ _ => not_live_zero
    rw [hinsert, hempty]
    rfl
  have hlive : ∀ slot, (k₁.processList slot).Live ↔ slot = 0 := fun slot => by
    rw [← mem_liveSlots, hslots, Finset.mem_singleton]
  have hanchored : Anchored k₁ := .inr ((hlive 0).2 rfl)
  obtain ⟨next, hnext, hsw⟩ := switch_eq k₁
  obtain ⟨hl, h₂⟩ := h₁.switched hanchored hnext
  refine ⟨⟨next, (k₁.processList next).context⟩, k₁.switched k₁.idxRun next, ?_, h₂, ?_, ?_,
    fun slot => ?_, ?_⟩
  · unfold kernelSetupShell
    rw [kernelSetup_eq]
    simp only [Option.bind_eq_bind, Option.bind_some, hc]
    exact hsw
  · exact (switched_running h₁.one).2 rfl
  · rfl
  · exact (switched_live (hanchored.live h₁.one) hl).trans (hlive slot)
  · have hfree := freeCount_created (p := p) ht
    rw [freeCount_boot] at hfree
    rw [switched_pageFrameMap]
    exact Nat.add_right_cancel (m := 2) hfree

end Process
end Jatos
