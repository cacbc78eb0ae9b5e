/-
# The frame manager by its own contract

`header/memory/paging.h` says that the two calls on single frames return `true`
if they succeed and `false` otherwise.  They always return `true`.
`paging_allocate_user_page_frame` does not look whether its search succeeded,
nor whether the entry already maps a frame, which it then forgets;
`paging_free_user_page_frame` does not look whether the entry is present, and
gives frame 0, the kernel's, back when it is not.
-/

import Jatos.Foundation.Runs
import Jatos.Process.Frames

namespace Jatos
namespace Process

variable {p : Placement} {s s' : Paging} {d : Directory} {j : Fin 1024} {f : Fin 32}
  {e : Directory × Fin 1024}

/-- The calls on single frames, on the page directory `d`. -/
inductive FrameCall
  | allocate (d : Directory) (virtualAddr : UInt32)
  | free (d : Directory) (virtualAddr : UInt32)

/-- The entry that a call is about. -/
def FrameCall.entry : FrameCall → Directory × Fin 1024
  | .allocate d virtualAddr => (d, pageIndex virtualAddr)
  | .free d virtualAddr => (d, pageIndex virtualAddr)

/-- One call. -/
def manage (p : Placement) : FrameCall → Paging → Option (Bool × Paging)
  | .allocate d virtualAddr, s => pagingAllocateUserPageFrame p (p.address d) virtualAddr s
  | .free d virtualAddr, s => pagingFreeUserPageFrame p (p.address d) virtualAddr s

/-- The address lies below the kernel's half. -/
def UserAddress (_ : Paging) : FrameCall → Prop
  | .allocate _ virtualAddr => virtualAddr < KERNEL_VIRTUAL_ADDRESS_BASE
  | .free _ virtualAddr => virtualAddr < KERNEL_VIRTUAL_ADDRESS_BASE

/-- The entry maps a frame. -/
def Paging.Present (s : Paging) (e : Directory × Fin 1024) : Prop :=
  (s.pageDirectory e.1 e.2).flag.presentBit = true

/-- The entry maps frame `f`. -/
def Paging.MapsTo (s : Paging) (e : Directory × Fin 1024) (f : Fin 32) : Prop :=
  s.Present e ∧ (s.pageDirectory e.1 e.2).lowerAddress.val = f

/-- The bitmap and the counter agree with the page directories. -/
structure FrameManager (s : Paging) : Prop where
  marked : ∀ f, s.pageFrameMap f = true ↔ f = 0 ∨ ∃! e, s.MapsTo e f
  counted : s.freePageFrameCount.toNat = Bitmap.freeCount s.pageFrameMap
  kernel : s.pageFrameMap 0 = true

/-- There is nothing to do: no frame is free, or the entry maps none. -/
def Vain (s : Paging) : FrameCall → Prop
  | .allocate _ _ => Bitmap.freeCount s.pageFrameMap = 0
  | .free d virtualAddr => ¬s.Present (d, pageIndex virtualAddr)

/-- The call returns and keeps the frame manager, and returns `false` and changes
nothing when there is nothing to do. -/
def MeetsContract (p : Placement) (s : Paging) (c : FrameCall) : Prop :=
  ∃ r ∈ manage p c s, FrameManager r.2 ∧ (Vain s c → r = (false, s))

/-- A frame is free for an entry that maps none; an entry that is freed maps one. -/
def Careful (s : Paging) : FrameCall → Prop
  | .allocate d virtualAddr =>
      0 < Bitmap.freeCount s.pageFrameMap ∧ ¬s.Present (d, pageIndex virtualAddr)
  | .free d virtualAddr => s.Present (d, pageIndex virtualAddr)

instance (s : Paging) (e : Directory × Fin 1024) : Decidable (s.Present e) :=
  inferInstanceAs (Decidable (_ = _))

instance (s : Paging) : (c : FrameCall) → Decidable (UserAddress s c)
  | .allocate _ virtualAddr => inferInstanceAs (Decidable (virtualAddr < _))
  | .free _ virtualAddr => inferInstanceAs (Decidable (virtualAddr < _))

instance (s : Paging) : (c : FrameCall) → Decidable (Careful s c)
  | .allocate _ _ => inferInstanceAs (Decidable (_ ∧ _))
  | .free d virtualAddr => inferInstanceAs (Decidable (s.Present (d, pageIndex virtualAddr)))

/-! ### What careful calls keep -/

/-- If the entry is present it is a user's, or the kernel's half. -/
def ForUser (e : Directory × Fin 1024) (v : PageDirectoryEntry) : Prop :=
  v.flag.presentBit = true → v.userFrame ≠ none ∨ e.2 = 0x300 ∧ v.lowerAddress = 0

/-- Every present entry is a user's, or the kernel's half; every marked frame but the
kernel's has an entry. -/
structure Tracked (s : Paging) : Prop where
  frames : Frames s
  entry : ∀ e, ForUser e (s.pageDirectory e.1 e.2)
  held : ∀ f : Fin 32, s.pageFrameMap f = true → f = 0 ∨ ∃ e, s.userFrame e = some f.val

/-- A frame of the user's is one that a present entry names. -/
theorem present_of_userFrame {n : ℕ} (h : s.userFrame e = some n) :
    s.Present e ∧ (s.pageDirectory e.1 e.2).lowerAddress.val = n := by
  unfold Paging.userFrame PageDirectoryEntry.userFrame at h
  split_ifs at h with hp
  exact ⟨hp.1, Option.some.inj h⟩

/-- Who maps a frame other than the kernel's maps it for a user. -/
theorem Tracked.mapsTo_iff (h : Tracked s) (hf : f ≠ 0) :
    s.MapsTo e f ↔ s.userFrame e = some f.val := by
  constructor
  · rintro ⟨hp, ha⟩
    rcases h.entry e hp with hn | ⟨-, hz⟩
    · obtain ⟨n, hn⟩ := Option.ne_none_iff_exists'.1 hn
      rw [← ha, (present_of_userFrame hn).2]
      exact hn
    · refine absurd (Fin.ext ?_) hf
      rw [← ha, hz]
      rfl
  · exact present_of_userFrame

/-- Where the map tracks the entries, the paging is a manager of frames. -/
theorem Tracked.frameManager (h : Tracked s) : FrameManager s := by
  have hkernel : s.pageFrameMap 0 = true :=
    mem_usedFrames.1 (h.frames.exclusive.reserved_taken rfl)
  refine ⟨fun f => ?_, h.frames.counted, hkernel⟩
  by_cases hf : f = 0
  · exact iff_of_true (hf ▸ hkernel) (.inl hf)
  · constructor
    · intro hm
      obtain ⟨e, he⟩ := (h.held f hm).resolve_left hf
      refine .inr ⟨e, (h.mapsTo_iff hf).2 he, fun e' he' => ?_⟩
      exact h.frames.exclusive.unique ((h.mapsTo_iff hf).1 he') he
    · intro hm
      obtain ⟨e, he, -⟩ := hm.resolve_left hf
      exact mem_usedFrames.1 (h.frames.exclusive.held_taken ((h.mapsTo_iff hf).1 he))

/-- A present entry below the kernel's half maps a frame for a user. -/
theorem Tracked.userFrame (h : Tracked s) (hj : j ≠ 0x300) (hp : s.Present (d, j)) :
    ∃ f : Fin 32, f ≠ 0 ∧ s.userFrame (d, j) = some f.val := by
  obtain ⟨n, hn⟩ := Option.ne_none_iff_exists'.1
    ((h.entry (d, j) hp).resolve_right fun hk => hj hk.1)
  obtain ⟨f, -, rfl⟩ := h.frames.exclusive.held_taken hn
  refine ⟨f, ?_, hn⟩
  rintro rfl
  exact h.frames.exclusive.not_reserved hn rfl

/-- Replacing one entry leaves the others. -/
theorem setEntry_of_ne {t : Directory → PageDirectory} (v : PageDirectoryEntry)
    (he : e ≠ (d, j)) :
    Function.update t d (Function.update (t d) j v) e.1 e.2 = t e.1 e.2 := by
  rw [setEntry_apply, if_neg fun h => he (Prod.ext h.1 h.2)]

/-- What holds of every entry and of the new one holds after it was replaced. -/
theorem forall_setEntry {t : Directory → PageDirectory} {v : PageDirectoryEntry}
    {P : Directory × Fin 1024 → PageDirectoryEntry → Prop} (hv : P (d, j) v)
    (h : ∀ e, P e (t e.1 e.2)) (e : Directory × Fin 1024) :
    P e (Function.update t d (Function.update (t d) j v) e.1 e.2) := by
  rcases eq_or_ne e (d, j) with rfl | hne
  · rwa [setEntry_apply, if_pos ⟨rfl, rfl⟩]
  · rw [setEntry_of_ne v hne]
    exact h e

/-- **An entry that maps nothing may get a frame.** -/
theorem Tracked.mapFrame (h : Tracked s) (hf : s.pageFrameMap f = false) (hj : j ≠ 0x300)
    (hp : ¬s.Present (d, j)) : Tracked (s.mapFrame d j f) where
  frames := h.frames.mapFrame hf hj
  entry := forall_setEntry (P := ForUser) (fun _ => .inl (Option.some_ne_none _)) h.entry
  held f' hf' := by
    change Function.update s.pageFrameMap f true f' = true at hf'
    rcases eq_or_ne f' f with rfl | hne
    · exact .inr ⟨(d, j), by rw [userFrame_mapFrame, Function.update_self]⟩
    · rw [Function.update_of_ne hne] at hf'
      refine (h.held f' hf').imp_right ?_
      rintro ⟨e, he⟩
      have hne' : e ≠ (d, j) := by
        rintro rfl
        exact hp (present_of_userFrame he).1
      exact ⟨e, by rwa [userFrame_mapFrame, Function.update_of_ne hne']⟩

/-- An entry that gets another frame leaves its old one marked without an entry. -/
theorem Tracked.not_frameManager (h : Tracked s) (hf : s.pageFrameMap f = false)
    (hj : j ≠ 0x300) (hp : s.Present (d, j)) : ¬FrameManager (s.mapFrame d j f) := by
  obtain ⟨f₀, hf₀, hu⟩ := h.userFrame hj hp
  have hused := mem_usedFrames.1 (h.frames.exclusive.held_taken hu)
  have hne : f₀ ≠ f := fun he => Bool.noConfusion (hf.symm.trans (he ▸ hused))
  intro hm
  have hmarked : (s.mapFrame d j f).pageFrameMap f₀ = true :=
    (Function.update_of_ne hne _ _).trans hused
  obtain ⟨e, ⟨he, ha⟩, -⟩ := ((hm.marked f₀).1 hmarked).resolve_left hf₀
  unfold Paging.Present at he
  change (Function.update s.pageDirectory d _ e.1 e.2).lowerAddress.val = _ at ha
  change (Function.update s.pageDirectory d _ e.1 e.2).flag.presentBit = true at he
  rcases eq_or_ne e (d, j) with rfl | hne'
  · rw [setEntry_apply, if_pos ⟨rfl, rfl⟩] at ha
    exact hne (Fin.ext (ha.symm.trans (pageIndex_frame f)))
  · rw [setEntry_of_ne _ hne'] at he ha
    exact hne' (h.frames.exclusive.unique ((h.mapsTo_iff hf₀).1 ⟨he, ha⟩) hu)

/-- **An entry may give its frame back.** -/
theorem Tracked.unmapFrame (h : Tracked s) (hu : s.userFrame (d, j) = some f.val)
    (hj : j ≠ 0x300) : Tracked (s.unmapFrame d j f) where
  frames := h.frames.unmapFrame hu hj
  entry := forall_setEntry (P := ForUser) (fun hp => Bool.noConfusion hp) h.entry
  held f' hf' := by
    change Function.update s.pageFrameMap f false f' = true at hf'
    have hne : f' ≠ f := by
      rintro rfl
      exact Bool.noConfusion ((Function.update_self ..).symm.trans hf')
    rw [Function.update_of_ne hne] at hf'
    refine (h.held f' hf').imp_right ?_
    rintro ⟨e, he⟩
    have hne' : e ≠ (d, j) := by
      rintro rfl
      exact hne (Fin.ext (Option.some.inj (he.symm.trans hu)))
    exact ⟨e, by rwa [userFrame_unmapFrame, Function.update_of_ne hne']⟩

/-! ### One call -/

/-- **An allocation** meets the contract just when it is careful, and keeps the
bookkeeping then. -/
theorem allocate_iff (h : Tracked s) {virtualAddr : UInt32}
    (hv : virtualAddr < KERNEL_VIRTUAL_ADDRESS_BASE) :
    (MeetsContract p s (.allocate d virtualAddr) ↔ Careful s (.allocate d virtualAddr)) ∧
      (Careful s (.allocate d virtualAddr) →
        ∃ s', manage p (.allocate d virtualAddr) s = some (true, s') ∧ Tracked s') := by
  have hj := pageIndex_ne_kernel hv
  rcases Nat.eq_zero_or_pos (Bitmap.freeCount s.pageFrameMap) with hzero | hpos
  · refine ⟨iff_of_false ?_ fun hc => hc.1.ne' hzero, fun hc => absurd hzero hc.1.ne'⟩
    rintro ⟨r, hr, -⟩
    rw [manage, pagingAllocateUserPageFrame_starved hzero] at hr
    exact absurd hr (Option.not_mem_none r)
  · obtain ⟨f, hf, hs⟩ := pagingAllocateUserPageFrame_eq (p := p) d virtualAddr hpos
    have hiff : MeetsContract p s (.allocate d virtualAddr) ↔
        FrameManager (s.mapFrame d (pageIndex virtualAddr) f) := by
      unfold MeetsContract
      rw [manage, hs]
      simp [Vain, hpos.ne']
    by_cases hp : s.Present (d, pageIndex virtualAddr)
    · refine ⟨iff_of_false ?_ fun hc => hc.2 hp, fun hc => absurd hp hc.2⟩
      exact fun hm => h.not_frameManager hf hj hp (hiff.1 hm)
    · have ht := h.mapFrame hf hj hp
      exact ⟨iff_of_true (hiff.2 ht.frameManager) ⟨hpos, hp⟩, fun _ => ⟨_, hs, ht⟩⟩

/-- A free of an entry that maps nothing breaks the contract in every state. -/
theorem free_not_present {virtualAddr : UInt32} (hp : ¬s.Present (d, pageIndex virtualAddr)) :
    ¬MeetsContract p s (.free d virtualAddr) := by
  rintro ⟨r, hr, -, hv⟩
  have htrue := pagingFreeUserPageFrame_true hr
  rw [hv hp] at htrue
  exact Bool.noConfusion htrue

/-- **A free** meets the contract just when it is careful, and keeps the bookkeeping
then. -/
theorem free_iff (h : Tracked s) {virtualAddr : UInt32}
    (hv : virtualAddr < KERNEL_VIRTUAL_ADDRESS_BASE) :
    (MeetsContract p s (.free d virtualAddr) ↔ Careful s (.free d virtualAddr)) ∧
      (Careful s (.free d virtualAddr) →
        ∃ s', manage p (.free d virtualAddr) s = some (true, s') ∧ Tracked s') := by
  by_cases hp : s.Present (d, pageIndex virtualAddr)
  · obtain ⟨f, -, hu⟩ := h.userFrame (pageIndex_ne_kernel hv) hp
    have hs := pagingFreeUserPageFrame_eq (p := p) d virtualAddr (present_of_userFrame hu).2
    have ht := h.unmapFrame hu (pageIndex_ne_kernel hv)
    refine ⟨iff_of_true ⟨_, hs, ht.frameManager, fun hn => absurd hp hn⟩ hp, fun _ => ⟨_, hs, ht⟩⟩
  · exact ⟨iff_of_false (free_not_present hp) hp, fun hc => absurd hc hp⟩

/-! ### Runs -/

/-- At the start the map tracks the entries. -/
theorem tracked_initial (p : Placement) : Tracked (Paging.initial p) where
  frames := frames_initial p
  entry := by
    rintro ⟨_ | i, j⟩ he
    · change (if j = 0x300 then kernelEntry else PageDirectoryEntry.zero).flag.presentBit = true
        at he
      split_ifs at he with hj
      · refine .inr ⟨hj, ?_⟩
        show (if j = 0x300 then kernelEntry else PageDirectoryEntry.zero).lowerAddress = 0
        rw [if_pos hj]
        rfl
      · exact Bool.noConfusion he
    · exact Bool.noConfusion he
  held f hf := .inl (of_decide_eq_true hf)

/-- **The frame manager keeps its contract exactly for careful callers.**  In every
sequence of calls on user addresses, every call meets the contract just when every
allocation comes while a frame is free and is for an entry that maps none, and every
free is of an entry that maps one. -/
theorem frame_manager_iff (p : Placement) (calls : List FrameCall)
    (hv : Runs.Guarded (manage p) UserAddress calls (Paging.initial p)) :
    Runs.Guarded (manage p) (MeetsContract p) calls (Paging.initial p) ↔
      Runs.Guarded (manage p) Careful calls (Paging.initial p) := by
  have hstep : ∀ s c, Tracked s → UserAddress s c → (MeetsContract p s c ↔ Careful s c) ∧
      (Careful s c → ∃ s', manage p c s = some (true, s') ∧ Tracked s') := by
    intro s c h hv
    match c with
    | .allocate d virtualAddr => exact allocate_iff h hv
    | .free d virtualAddr => exact free_iff h hv
  refine Runs.guarded_iff (fun s c h hv => (hstep s c h hv).1) ?_ (tracked_initial p) hv
  intro s c o s' h hv hm hs
  obtain ⟨s₁, hs₁, ht⟩ := (hstep s c h hv).2 ((hstep s c h hv).1.1 hm)
  obtain ⟨-, rfl⟩ := Prod.mk.inj (Option.some.inj (hs₁.symm.trans hs))
  exact ht

/-- Two frames are mapped and the first one is given back. -/
theorem frame_manager_iff_sample : Runs.Guarded (manage afterCode) (MeetsContract afterCode)
    [.allocate .kernel 0, .allocate (.listed 3) 0x400000, .free .kernel 0]
    (Paging.initial afterCode) :=
  (frame_manager_iff afterCode _ (by decide +kernel)).2 (by decide +kernel)

/-- Address 0 is mapped nowhere: freeing it returns `true`, and frame 0 is free. -/
theorem not_frame_manager_sample :
    Runs.Guarded (manage afterCode) UserAddress [.free .kernel 0] (Paging.initial afterCode) ∧
      ¬Runs.Guarded (manage afterCode) (MeetsContract afterCode) [.free .kernel 0]
        (Paging.initial afterCode) ∧
      (manage afterCode (.free .kernel 0) (Paging.initial afterCode)).map
        (fun r => (r.1, r.2.pageFrameMap 0)) = some (true, false) := by
  refine ⟨by decide, fun hg => ?_, by decide +kernel⟩
  exact free_not_present (by decide +kernel) hg.1

end Process
end Jatos
