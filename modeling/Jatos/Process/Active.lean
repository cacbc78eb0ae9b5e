/-
# The page directory in CR3

`paging_free_page_directory` clears the page directory that it is given, also
when it is the one in CR3, as it is when the process that is running is
destroyed.  Nothing else writes to the page directory in CR3, which maps the
kernel's half as long as switches go to processes.
-/

import Jatos.Process.Dispatch

namespace Jatos
namespace Process

open Cyclic

variable {p : Placement} {k k' : Kernel} {e : Event} {slot next : Fin 16} {d : Directory}

/-- The page directory in CR3. -/
def activeDirectory (p : Placement) (k : Kernel) : Option Directory :=
  p.directoryAt (pagingGetCurrentPageDirectoryAddr k.paging)

/-- The page directory is the kernel's, or is marked as used. -/
def Marked (k : Kernel) : Directory → Prop
  | .kernel => True
  | .listed i => k.paging.pageDirectoryUsed i = true

/-- The page directory in CR3 is the kernel's or used, and its entry `0x300` maps
frame 0. -/
def MapsKernel (p : Placement) (k : Kernel) : Prop :=
  ∃ d ∈ activeDirectory p k, Marked k d ∧
    (k.paging.pageDirectory d 0x300).flag.presentBit = true ∧
    (k.paging.pageDirectory d 0x300).lowerAddress = 0

/-- What was in CR3 is as it was. -/
def LeavesActive (p : Placement) (k k' : Kernel) : Prop :=
  ∀ d ∈ activeDirectory p k, k'.paging.pageDirectory d = k.paging.pageDirectory d

/-- The event returns, leaves the page directory in CR3 alone, and has one that maps
the kernel in CR3 afterwards. -/
def KernelMapped (p : Placement) (k : Kernel) (e : Event) : Prop :=
  ∃ r ∈ handle p e k, MapsKernel p r.2 ∧ LeavesActive p k r.2

/-- A creation that passes the checks finds a free frame, a destruction is not of the
process whose page directory is in CR3, and a switch starts from a process. -/
def SparesActive (k : Kernel) : Event → Prop
  | .call (.create request) =>
      Accepted k request → 0 < Bitmap.freeCount k.paging.pageFrameMap
  | .call (.destroy pid) => ∀ slot, (k.processList slot).Live → (k.processList slot).pid = pid →
      (k.processList slot).context.pageDirectoryVirtualAddr ≠
        pagingGetCurrentPageDirectoryAddr k.paging
  | .switch => Anchored k
  | .timer _ => Anchored k

instance : DecidablePred (Marked k)
  | .kernel => isTrue trivial
  | .listed i => inferInstanceAs (Decidable (k.paging.pageDirectoryUsed i = true))

instance : Decidable (MapsKernel p k) :=
  inferInstanceAs (Decidable (∃ d ∈ activeDirectory p k, Marked k d ∧
    (k.paging.pageDirectory d 0x300).flag.presentBit = true ∧
    (k.paging.pageDirectory d 0x300).lowerAddress = 0))

instance : Decidable (LeavesActive p k k') :=
  inferInstanceAs (Decidable (∀ d ∈ activeDirectory p k,
    k'.paging.pageDirectory d = k.paging.pageDirectory d))

instance : Decidable (KernelMapped p k e) :=
  inferInstanceAs (Decidable (∃ r ∈ handle p e k, MapsKernel p r.2 ∧ LeavesActive p k r.2))

instance : (e : Event) → Decidable (SparesActive k e)
  | .call (.create request) => inferInstanceAs
      (Decidable (Accepted k request → 0 < Bitmap.freeCount k.paging.pageFrameMap))
  | .call (.destroy pid) => inferInstanceAs (Decidable
      (∀ slot, (k.processList slot).Live → (k.processList slot).pid = pid →
        (k.processList slot).context.pageDirectoryVirtualAddr ≠
          pagingGetCurrentPageDirectoryAddr k.paging))
  | .switch => inferInstanceAs (Decidable (Anchored k))
  | .timer _ => inferInstanceAs (Decidable (Anchored k))

/-- The state is scheduled, and the page directory in CR3 is one that is marked. -/
structure Active (p : Placement) (k : Kernel) : Prop where
  scheduled : Scheduled p k
  kernel : k.paging.pageDirectory .kernel 0x300 = kernelEntry
  marked : ∃ d, p.address d = pagingGetCurrentPageDirectoryAddr k.paging ∧ Marked k d

/-- The active directory is the one whose address is in CR3. -/
theorem activeDirectory_eq (h : p.address d = pagingGetCurrentPageDirectoryAddr k.paging) :
    activeDirectory p k = some d := by
  unfold activeDirectory
  rw [← h, p.directoryAt_address]

/-- The active directory maps the kernel. -/
theorem Active.mapsKernel (h : Active p k) : MapsKernel p k := by
  obtain ⟨d, hd, hm⟩ := h.marked
  have hentry : k.paging.pageDirectory d 0x300 = kernelEntry := by
    match d with
    | .kernel => exact h.kernel
    | .listed i => exact h.scheduled.ledger.kept.frames.kernelHalf i hm
  refine ⟨d, activeDirectory_eq hd, hm, ?_, ?_⟩
  · rw [hentry]; rfl
  · rw [hentry]; rfl

/-! ### Calls -/

/-- A creation writes into a page directory that is not in CR3. -/
theorem Active.created {request : ReadRequest} {i f g : Fin 32} (h : Active p k)
    (ht : Taken k request slot i f g) (hs : Scheduled p (k.created p request slot i f g)) :
    Active p (k.created p request slot i f g) ∧
      LeavesActive p k (k.created p request slot i f g) := by
  obtain ⟨d, hd, hm⟩ := h.marked
  have hne : d ≠ .listed i := by
    rintro rfl
    exact Bool.noConfusion (ht.directory.symm.trans hm)
  refine ⟨⟨hs, ?_, d, ?_, ?_⟩, fun d' hd' => ?_⟩
  · rw [created_pageDirectory fun he => Directory.noConfusion he]
    exact h.kernel
  · rw [getCurrent_created ⟨d, hd⟩]
    exact hd
  · match d with
    | .kernel => trivial
    | .listed i' =>
        have hi : i' ≠ i := fun he => hne (congrArg _ he)
        exact (Function.update_of_ne hi _ _).trans hm
  · rw [activeDirectory_eq hd] at hd'
    obtain rfl := Option.some.inj hd'
    exact created_pageDirectory hne

/-- A destruction clears a page directory that is not in CR3, if it is not that of the
process. -/
theorem Active.destroyed (h : Active p k)
    (hne : (k.processList slot).context.pageDirectoryVirtualAddr ≠
      pagingGetCurrentPageDirectoryAddr k.paging) (hs : Scheduled p (k.destroyed p slot)) :
    Active p (k.destroyed p slot) ∧ LeavesActive p k (k.destroyed p slot) := by
  obtain ⟨d, hd, hm⟩ := h.marked
  rcases hi : directoryOf p k slot with _ | i
  · have hpaging := destroyed_paging_none hi
    refine ⟨⟨hs, ?_, d, ?_, ?_⟩, fun d' _ => ?_⟩
    · rw [hpaging]
      exact h.kernel
    · rw [hpaging]
      exact hd
    · match d with
      | .kernel => trivial
      | .listed i' =>
          unfold Marked
          rw [hpaging]
          exact hm
    · rw [hpaging]
  · have hpaging := destroyed_paging_some hi
    have hdi : d ≠ .listed i := by
      rintro rfl
      exact hne ((Placement.listedAt_eq_some.1 hi).symm.trans hd)
    refine ⟨⟨hs, ?_, d, ?_, ?_⟩, fun d' hd' => ?_⟩
    · rw [hpaging, dropDirectory_pageDirectory fun he => Directory.noConfusion he]
      exact h.kernel
    · rw [getCurrent_destroyed]
      exact hd
    · match d with
      | .kernel => trivial
      | .listed i' =>
          have hi' : i' ≠ i := fun he => hdi (congrArg _ he)
          unfold Marked
          rw [hpaging]
          exact (Function.update_of_ne hi' _ _).trans hm
    · rw [activeDirectory_eq hd] at hd'
      obtain rfl := Option.some.inj hd'
      rw [hpaging, dropDirectory_pageDirectory hdi]

/-! ### Switches -/

/-- A switch to a process loads a page directory that is used. -/
theorem Active.switched (h : Active p k) (ha : Anchored k)
    (hnext : (rotation k.idxRun).find? k.eligible = some next) :
    Active p (k.switched k.idxRun next) := by
  obtain ⟨hlive, hs⟩ := h.scheduled.switched ha hnext
  obtain ⟨i, hi, hused⟩ := h.scheduled.directory hlive
  refine ⟨hs, h.kernel, .listed i, ?_, hused⟩
  unfold Kernel.switched
  dsimp only
  rw [hi, getCurrent_usePageDirectory]

/-- Saving the interrupted context keeps the directory active. -/
theorem Active.event_saved (h : Active p k) (e : Event) : Active p (e.saved k) := by
  have hpaging := saved_paging e k
  refine ⟨h.scheduled.event_saved e, by rw [hpaging]; exact h.kernel, ?_⟩
  obtain ⟨d, hd, hm⟩ := h.marked
  refine ⟨d, by rw [hpaging]; exact hd, ?_⟩
  match d with
  | .kernel => trivial
  | .listed i =>
      unfold Marked
      rw [hpaging]
      exact hm

/-! ### Runs -/

/-- **Every event that spares the active page directory** returns, leaves it alone and
keeps everything. -/
theorem Active.handled (h : Active p k) (hd : EventOnLive k e) (hs : SparesActive k e) :
    ∃ o k', handle p e k = some (o, k') ∧ Active p k' ∧ LeavesActive p k k' := by
  have hkept := h.scheduled.ledger.kept
  have hswitch : ∀ e : Event, Anchored k →
      ∃ d k', schedulerSwitchToNextProcess (e.saved k) = some (d, k') ∧ Active p k' ∧
        LeavesActive p k k' := by
    intro e ha
    obtain ⟨next, hnext, hsw⟩ := switch_eq (e.saved k)
    refine ⟨_, _, hsw, (h.event_saved e).switched ((anchored_saved e k).2 ha) hnext, ?_⟩
    intro d' _
    show (pagingUsePageDirectory _ (e.saved k).paging).pageDirectory d' = _
    rw [pageDirectory_usePageDirectory, saved_paging]
  match e with
  | .call (.create request) =>
      rcases serve_create hkept.stocked request with ⟨-, ha, hzero⟩ | ⟨a, k', hc, hserved⟩
      · exact absurd hzero (hs ha).ne'
      · refine ⟨.answered a, k', by rw [handle, hc]; rfl, ?_⟩
        have hsch := h.scheduled.served hc
        cases hserved with
        | refused => exact ⟨h, fun _ _ => rfl⟩
        | created ht => exact h.created ht hsch
  | .call (.destroy pid) =>
      obtain ⟨slot, hlive, hpid⟩ := hd
      have hslot : slot.val = pid.toNat :=
        hpid ▸ ((h.scheduled.ledger.numbered slot).live hlive).symm
      have hc : serve p (.destroy pid) k = some (.destroyed true, k.destroyed p slot) := by
        rw [serve, destroy_found hkept.pid hslot (h.scheduled.ledger.unlisted slot) hpid]
        rfl
      refine ⟨_, _, by rw [handle, hc]; rfl, ?_⟩
      exact h.destroyed (hs slot hlive hpid) (h.scheduled.served hc)
  | .switch =>
      obtain ⟨d, k', hsw, hk'⟩ := hswitch .switch hs
      exact ⟨.dispatched d, k', congrArg (Option.map _) hsw, hk'⟩
  | .timer frame =>
      obtain ⟨d, k', hsw, hk'⟩ := hswitch (.timer frame) hs
      exact ⟨.dispatched d, k', congrArg (Option.map _) hsw, hk'⟩

/-- At the boot the kernel's directory is active. -/
theorem boot_active (p : Placement) : Active p (Kernel.boot p) where
  scheduled := boot_scheduled p
  kernel :=
    mapFrame_entry (pageIndex_ne_kernel (by decide)).symm (Paging.initial p) .kernel .kernel 1
  marked := ⟨.kernel, (UInt32.sub_add_cancel _ _).symm, trivial⟩

/-- **The active page directory maps the kernel** in every run of creations, destructions
of live processes, switches and timer interrupts from the boot in which no destruction is
of the process whose page directory is in CR3, every switch starts from a process, and
every creation that passes the checks finds a free frame: every event returns and leaves
the page directory in CR3 alone, and the one in CR3 afterwards is the kernel's or used,
and maps frame 0 at entry `0x300`. -/
theorem active_maps_kernel (p : Placement) (events : List Event) :
    ∀ k₀ ∈ kernelSetup p, Runs.Guarded (handle p) EventOnLive events k₀ →
      Runs.Guarded (handle p) SparesActive events k₀ →
        MapsKernel p k₀ ∧ Runs.Guarded (handle p) (KernelMapped p) events k₀ := by
  intro k₀ hk hd hs
  obtain rfl := Option.some.inj ((kernelSetup_eq p).symm.trans hk)
  refine ⟨(boot_active p).mapsKernel, ?_⟩
  refine Runs.guarded_of_invariant (I := Active p) ?_ (boot_active p) (Runs.guarded_and hd hs)
  rintro k e h ⟨hd, hs⟩
  obtain ⟨o, k', hk', h', hleaves⟩ := h.handled hd hs
  refine ⟨⟨(o, k'), hk', h'.mapsKernel, hleaves⟩, fun o₁ k₁ hk₁ => ?_⟩
  obtain ⟨-, rfl⟩ := Prod.mk.inj (Option.some.inj (hk'.symm.trans hk₁))
  exact h'

/-- The shell creates a process, which the shell destroys after both have run. -/
theorem active_maps_kernel_sample :
    MapsKernel afterCode (Kernel.boot afterCode) ∧ Runs.Guarded (handle afterCode)
      (KernelMapped afterCode)
      [.call (.create shell), .switch, .call (.create program), .timer tick, .timer tick,
        .call (.destroy 1), .timer tick] (Kernel.boot afterCode) :=
  active_maps_kernel afterCode _ _ (kernelSetup_eq afterCode) (by decide +kernel)
    (by decide +kernel)

/-- The shell destroys itself: the page directory in CR3 is cleared and not in use. -/
theorem not_active_maps_kernel_sample :
    Runs.Guarded (handle afterCode) EventOnLive
        [.call (.create shell), .switch, .call (.destroy 0)] (Kernel.boot afterCode) ∧
      ¬Runs.Guarded (handle afterCode) (KernelMapped afterCode)
        [.call (.create shell), .switch, .call (.destroy 0)] (Kernel.boot afterCode) :=
  ⟨by decide +kernel, Runs.not_guarded_cons (by decide +kernel)⟩

end Process
end Jatos
