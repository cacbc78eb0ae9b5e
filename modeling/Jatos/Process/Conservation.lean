/-
# Where the page frames go

A page frame is found free, marked in `page_frame_map` and entered in the page
directory of the process that is created.  The way back is missing:
`process_destroy` clears the page directory without a look at the map, and
`paging_free_user_page_frame`, which would clear the bit, is called by nobody.
So the frames in use are those of the boot and those mapped for live processes
only as long as no process is destroyed or replaced, and no program is loaded
into the page of its own stack, where its frame is forgotten at once.
-/

import Jatos.Process.Ledger

namespace Jatos
namespace Process

variable {p : Placement} {k k₀ : Kernel} {request : ReadRequest} {slot slot' : Fin 16}
  {i f g f' : Fin 32}

/-- A frame is mapped in the page directory of the process in a slot. -/
def Maps (p : Placement) (k : Kernel) (slot : Fin 16) (f : Fin 32) : Prop :=
  (k.processList slot).Live ∧
    ∃ i ∈ directoryOf p k slot, ∃ j, k.paging.userFrame (.listed i, j) = some f.val

instance : Decidable (Maps p k slot f) :=
  inferInstanceAs (Decidable ((k.processList slot).Live ∧
    ∃ i ∈ directoryOf p k slot, ∃ j, k.paging.userFrame (.listed i, j) = some f.val))

/-- The frames mapped in the page directories of the live processes. -/
def mappedFrames (p : Placement) (k : Kernel) : Finset (Fin 32) :=
  Finset.univ.filter fun f => ∃ slot, Maps p k slot f

/-- The frames in use are those of the boot and those mapped for live processes. -/
def Conserved (p : Placement) (k₀ k : Kernel) : Prop :=
  Bitmap.usedCount k.paging.pageFrameMap =
    Bitmap.usedCount k₀.paging.pageFrameMap + (mappedFrames p k).card

instance : Decidable (Conserved p k₀ k) := inferInstanceAs (Decidable (_ = _))

/-- The call returns and leaves no frame in use that nobody has. -/
def FramesKept (p : Placement) (k₀ k : Kernel) (c : Call) : Prop :=
  ∃ r ∈ serve p c k, Conserved p k₀ r.2

instance {c : Call} : Decidable (FramesKept p k₀ k c) :=
  inferInstanceAs (Decidable (∃ r ∈ serve p c k, Conserved p k₀ r.2))

/-- No process is destroyed.  A creation that passes the checks finds a free frame and
no process in its slot, and does not load the program into the page of the stack. -/
def NoneLost (k : Kernel) : Call → Prop
  | .create request => Accepted k request → 0 < Bitmap.freeCount k.paging.pageFrameMap ∧
      pageIndex request.buf ≠ stackIndex ∧
      ∀ slot : Fin 16, slot.val = k.activeProcessCount.toNat → ¬(k.processList slot).Live
  | .destroy pid => pid.toNat < 16 → pid = 0 ∧ ¬(k.processList 0).Live

instance : (c : Call) → Decidable (NoneLost k c)
  | .create request => inferInstanceAs (Decidable (Accepted k request →
      0 < Bitmap.freeCount k.paging.pageFrameMap ∧ pageIndex request.buf ≠ stackIndex ∧
      ∀ slot : Fin 16, slot.val = k.activeProcessCount.toNat → ¬(k.processList slot).Live))
  | .destroy pid => inferInstanceAs (Decidable
      (pid.toNat < 16 → pid = 0 ∧ ¬(k.processList 0).Live))

/-! ### Who maps a frame -/

/-- The frames mapped are those that some process's directory maps. -/
theorem mem_mappedFrames : f ∈ mappedFrames p k ↔ ∃ slot, Maps p k slot f := by
  simp [mappedFrames]

/-- A frame is mapped for one process. -/
theorem maps_unique (h : Ledger p k) (hm : Maps p k slot f) (hm' : Maps p k slot' f) :
    slot = slot' := by
  obtain ⟨-, i, hi, j, hj⟩ := hm
  obtain ⟨-, i', hi', j', hj'⟩ := hm'
  have he := h.kept.frames.exclusive.unique hj hj'
  obtain rfl := Directory.listed.inj (congrArg Prod.fst he)
  exact h.kept.owned.unique (k := slot) hi hi'

/-- A mapped frame is in use. -/
theorem maps_used (h : Ledger p k) (hm : Maps p k slot f) : k.paging.pageFrameMap f = true := by
  obtain ⟨-, i, -, j, hj⟩ := hm
  by_contra hf
  exact notMem_usedFrames (Bool.not_eq_true _ ▸ hf) (h.kept.frames.exclusive.held_taken hj)

/-- A live process has a frame. -/
theorem exists_maps (h : Ledger p k) (hl : (k.processList slot).Live) : ∃ f, Maps p k slot f := by
  obtain ⟨i, hi, hused⟩ := h.directory hl
  obtain ⟨n, hn⟩ := Option.ne_none_iff_exists'.1 (h.stack i hused)
  obtain ⟨f, -, rfl⟩ := h.kept.frames.exclusive.held_taken hn
  exact ⟨f, hl, i, hi, stackIndex, hn⟩

/-! ### Creation -/

/-- A creation leaves what the other processes map. -/
theorem maps_created_of_ne (h : Ledger p k) (ht : Taken k request slot i f g)
    (hne : slot' ≠ slot) :
    Maps p (k.created p request slot i f g) slot' f' ↔ Maps p k slot' f' := by
  have hpcb : (k.created p request slot i f g).processList slot' = k.processList slot' :=
    Function.update_of_ne hne _ _
  have hdir : directoryOf p (k.created p request slot i f g) slot' = directoryOf p k slot' := by
    rw [directoryOf_created, Function.update_of_ne hne]
  unfold Maps
  rw [hpcb, hdir]
  refine and_congr_right fun hl => exists_congr fun i' => and_congr_right fun hi' => ?_
  obtain ⟨i₁, hi₁, hused⟩ := h.directory hl
  obtain rfl := Option.some.inj (hi₁.symm.trans hi')
  have hd : Directory.listed i₁ ≠ .listed i := by
    intro he
    rw [Directory.listed.inj he, ht.directory] at hused
    exact Bool.noConfusion hused
  refine exists_congr fun j => ?_
  show PageDirectoryEntry.userFrame ((k.created p request slot i f g).paging.pageDirectory
    (.listed i₁) j) = _ ↔ _
  rw [created_pageDirectory hd]
  rfl

/-- The new process maps the two frames, unless its program lies in the page of its
stack. -/
theorem maps_created_self (h : Ledger p k) (ht : Taken k request slot i f g) :
    Maps p (k.created p request slot i f g) slot f' ↔
      f' = g ∨ pageIndex request.buf ≠ stackIndex ∧ f' = f := by
  have hpcb : (k.created p request slot i f g).processList slot =
      (k.processList slot).setUp request (p.address (.listed i)) k.activeProcessCount :=
    Function.update_self ..
  have hdir : directoryOf p (k.created p request slot i f g) slot = some i := by
    rw [directoryOf_created, Function.update_self]
  have hframe := created_userFrame_self (p := p) h.clean ht
  unfold Maps
  rw [hpcb, hdir]
  constructor
  · rintro ⟨-, i', hi', j, hj⟩
    obtain rfl := Option.some.inj hi'
    rw [hframe] at hj
    split_ifs at hj with hs hb
    · exact .inl (Fin.ext (Option.some.inj hj).symm)
    · exact .inr ⟨hb ▸ hs, Fin.ext (Option.some.inj hj).symm⟩
  · rintro (rfl | ⟨hb, rfl⟩)
    · exact ⟨live_setUp _ _ _ _, i, rfl, stackIndex, by rw [hframe, if_pos rfl]⟩
    · exact ⟨live_setUp _ _ _ _, i, rfl, pageIndex request.buf, by
        rw [hframe, if_neg hb, if_pos rfl]⟩

/-- A creation in an empty slot maps its own frames beside those mapped before. -/
theorem mem_mappedFrames_created (h : Ledger p k)
    (ht : Taken k request slot i f g) (hdead : ¬(k.processList slot).Live) :
    f' ∈ mappedFrames p (k.created p request slot i f g) ↔
      (f' = g ∨ pageIndex request.buf ≠ stackIndex ∧ f' = f) ∨ f' ∈ mappedFrames p k := by
  rw [mem_mappedFrames, mem_mappedFrames, ← maps_created_self (p := p) h ht]
  constructor
  · rintro ⟨slot', hm⟩
    rcases eq_or_ne slot' slot with rfl | hne
    · exact .inl hm
    · exact .inr ⟨slot', (maps_created_of_ne h ht hne).1 hm⟩
  · rintro (hm | ⟨slot', hm⟩)
    · exact ⟨slot, hm⟩
    · have hne : slot' ≠ slot := fun he => hdead (he ▸ hm.1)
      exact ⟨slot', (maps_created_of_ne h ht hne).2 hm⟩

/-- A creation in an empty slot adds its frames, of which one is forgotten if the program
lies in the page of the stack. -/
theorem card_mappedFrames_created (h : Ledger p k) (ht : Taken k request slot i f g)
    (hdead : ¬(k.processList slot).Live) :
    (mappedFrames p (k.created p request slot i f g)).card =
      (mappedFrames p k).card + if pageIndex request.buf = stackIndex then 1 else 2 := by
  have hfg : f ≠ g := by
    rintro rfl
    exact Bool.noConfusion ((Function.update_self ..).symm.trans ht.second)
  have hg : k.paging.pageFrameMap g = false :=
    (Function.update_of_ne hfg.symm _ _).symm.trans ht.second
  have hfree : ∀ f', k.paging.pageFrameMap f' = false → f' ∉ mappedFrames p k := by
    intro f' hf' hm
    obtain ⟨slot', hm⟩ := mem_mappedFrames.1 hm
    exact Bool.noConfusion (hf'.symm.trans (maps_used h hm))
  split_ifs with hb
  · have hset : mappedFrames p (k.created p request slot i f g) =
        insert g (mappedFrames p k) := by
      ext f'
      rw [mem_mappedFrames_created h ht hdead, Finset.mem_insert]
      simp [hb]
    rw [hset, Finset.card_insert_of_notMem (hfree g hg)]
  · have hset : mappedFrames p (k.created p request slot i f g) =
        insert g (insert f (mappedFrames p k)) := by
      ext f'
      rw [mem_mappedFrames_created h ht hdead, Finset.mem_insert, Finset.mem_insert]
      simp [hb, or_assoc]
    have hg' : g ∉ insert f (mappedFrames p k) := by
      rw [Finset.mem_insert, not_or]
      exact ⟨hfg.symm, hfree g hg⟩
    rw [hset, Finset.card_insert_of_notMem hg', Finset.card_insert_of_notMem (hfree f ht.first)]

/-- A creation in the slot of a process loses a frame of that process. -/
theorem card_mappedFrames_replaced (h : Ledger p k) (ht : Taken k request slot i f g)
    (hlive : (k.processList slot).Live) :
    (mappedFrames p (k.created p request slot i f g)).card < (mappedFrames p k).card + 2 := by
  obtain ⟨f₀, hf₀⟩ := exists_maps h hlive
  have hmem : f₀ ∈ mappedFrames p k := mem_mappedFrames.2 ⟨slot, hf₀⟩
  have hsub : mappedFrames p (k.created p request slot i f g) ⊆
      insert g (insert f ((mappedFrames p k).erase f₀)) := by
    intro f' hf'
    obtain ⟨slot', hm⟩ := mem_mappedFrames.1 hf'
    rw [Finset.mem_insert, Finset.mem_insert, Finset.mem_erase]
    rcases eq_or_ne slot' slot with rfl | hne
    · rcases (maps_created_self h ht).1 hm with rfl | ⟨-, rfl⟩
      · exact .inl rfl
      · exact .inr (.inl rfl)
    · have hm' := (maps_created_of_ne h ht hne).1 hm
      refine .inr (.inr ⟨?_, mem_mappedFrames.2 ⟨slot', hm'⟩⟩)
      rintro rfl
      exact hne (maps_unique h hm' hf₀)
  have hle := Finset.card_le_card hsub
  have h₁ := Finset.card_insert_le g (insert f ((mappedFrames p k).erase f₀))
  have h₂ := Finset.card_insert_le f ((mappedFrames p k).erase f₀)
  have h₃ := Finset.card_erase_add_one hmem
  omega

/-- A process made takes two frames of the map. -/
theorem usedCount_created (ht : Taken k request slot i f g) :
    Bitmap.usedCount (k.created p request slot i f g).paging.pageFrameMap =
      Bitmap.usedCount k.paging.pageFrameMap + 2 := by
  have hfree := freeCount_created (p := p) ht
  have h₁ := Bitmap.usedCount_add_freeCount k.paging.pageFrameMap
  have h₂ := Bitmap.usedCount_add_freeCount (k.created p request slot i f g).paging.pageFrameMap
  omega

/-- **Creation conserves the frames** just when it takes an empty slot and two pages. -/
theorem conserved_created_iff (h : Ledger p k) (hc : Conserved p k₀ k)
    (ht : Taken k request slot i f g) : Conserved p k₀ (k.created p request slot i f g) ↔
      pageIndex request.buf ≠ stackIndex ∧ ¬(k.processList slot).Live := by
  have hused := usedCount_created (p := p) ht
  unfold Conserved at hc ⊢
  by_cases hlive : (k.processList slot).Live
  · have hlt := card_mappedFrames_replaced h ht hlive
    exact iff_of_false (by omega) fun hn => hn.2 hlive
  · have hcard := card_mappedFrames_created h ht hlive
    split_ifs at hcard with hb
    · exact iff_of_false (by omega) fun hn => hn.1 hb
    · exact iff_of_true (by omega) ⟨hb, hlive⟩

/-! ### Destruction -/

/-- What a destroyed process mapped is mapped no more, and everything else still is. -/
theorem maps_destroyed (h : Ledger p k) (slot : Fin 16) :
    Maps p (k.destroyed p slot) slot' f' ↔ slot' ≠ slot ∧ Maps p k slot' f' := by
  rcases eq_or_ne slot' slot with rfl | hne
  · refine iff_of_false (fun hm => ?_) fun hm => hm.1 rfl
    have hz : (k.destroyed p slot').processList slot' = .zero := Function.update_self ..
    exact not_live_zero (hz ▸ hm.1)
  · have hpcb : (k.destroyed p slot).processList slot' = k.processList slot' :=
      Function.update_of_ne hne _ _
    have hdir : directoryOf p (k.destroyed p slot) slot' = directoryOf p k slot' := by
      rw [directoryOf_destroyed, Function.update_of_ne hne]
    rw [and_iff_right hne]
    unfold Maps
    rw [hpcb, hdir]
    refine and_congr_right fun _ => exists_congr fun i' => and_congr_right fun hi' => ?_
    rcases hd : directoryOf p k slot with _ | i
    · rw [destroyed_paging_none hd]
    · have hi : Directory.listed i' ≠ .listed i := fun he => hne
        (h.kept.owned.unique (k := slot') hi' (Directory.listed.inj he ▸ hd))
      rw [destroyed_paging_some hd]
      refine exists_congr fun j => ?_
      show PageDirectoryEntry.userFrame ((k.paging.dropDirectory i).pageDirectory _ j) = _ ↔ _
      rw [dropDirectory_pageDirectory hi]
      rfl

/-- **Destruction conserves the frames** just when there is no process. -/
theorem conserved_destroyed_iff (h : Ledger p k) (hc : Conserved p k₀ k) (slot : Fin 16) :
    Conserved p k₀ (k.destroyed p slot) ↔ ¬(k.processList slot).Live := by
  unfold Conserved at hc ⊢
  rw [destroyed_pageFrameMap, hc, Nat.add_left_cancel_iff]
  by_cases hlive : (k.processList slot).Live
  · obtain ⟨f₀, hf₀⟩ := exists_maps h hlive
    have hsub : mappedFrames p (k.destroyed p slot) ⊆ (mappedFrames p k).erase f₀ := by
      intro f' hf'
      obtain ⟨slot', hm⟩ := mem_mappedFrames.1 hf'
      obtain ⟨hne, hm⟩ := (maps_destroyed h slot).1 hm
      refine Finset.mem_erase.2 ⟨?_, mem_mappedFrames.2 ⟨slot', hm⟩⟩
      rintro rfl
      exact hne (maps_unique h hm hf₀)
    have hle := Finset.card_le_card hsub
    have herase := Finset.card_erase_add_one (mem_mappedFrames.2 ⟨slot, hf₀⟩)
    exact iff_of_false (by omega) fun hn => hn hlive
  · have hset : mappedFrames p (k.destroyed p slot) = mappedFrames p k := by
      ext f'
      rw [mem_mappedFrames, mem_mappedFrames]
      refine exists_congr fun slot' => (maps_destroyed h slot).trans (and_iff_right_of_imp ?_)
      rintro hm rfl
      exact hlive hm.1
    exact iff_of_true (by rw [hset]) hlive

/-! ### Runs -/

/-- A creation conserves the frames if and only if none is lost by it. -/
theorem framesKept_create_iff (h : Ledger p k) (hc : Conserved p k₀ k) (request : ReadRequest) :
    FramesKept p k₀ k (.create request) ↔ NoneLost k (.create request) := by
  rcases serve_create h.kept.stocked request with ⟨hnone, ha, hzero⟩ | ⟨a, k', hs, hserved⟩
  · constructor
    · rintro ⟨r, hr, -⟩
      rw [hnone] at hr
      exact absurd hr (Option.not_mem_none r)
    · intro hn
      exact absurd hzero (hn ha).1.ne'
  · have hr : FramesKept p k₀ k (.create request) ↔ Conserved p k₀ k' := by
      unfold FramesKept
      rw [hs]
      simp
    rw [hr]
    cases hserved with
    | refused hna => exact iff_of_true hc fun ha => absurd ha hna
    | @created _ slot i f g ht =>
        rw [conserved_created_iff h hc ht]
        constructor
        · rintro ⟨hb, hdead⟩ -
          refine ⟨ht.freeCount_pos, hb, fun slot' hslot' => ?_⟩
          obtain rfl := Fin.ext (hslot'.trans ht.slot.symm)
          exact hdead
        · intro hn
          obtain ⟨-, hb, hdead⟩ := hn ht.accepted
          exact ⟨hb, hdead slot ht.slot⟩

/-- A destruction conserves the frames if and only if none is lost by it. -/
theorem framesKept_destroy_iff (h : Ledger p k) (hc : Conserved p k₀ k) (pid : UInt32) :
    FramesKept p k₀ k (.destroy pid) ↔ NoneLost k (.destroy pid) := by
  rcases Nat.lt_or_ge pid.toNat 16 with hlt | hge
  · let slot : Fin 16 := ⟨pid.toNat, hlt⟩
    by_cases hpid : (k.processList slot).pid = pid
    · have hr : FramesKept p k₀ k (.destroy pid) ↔ Conserved p k₀ (k.destroyed p slot) := by
        unfold FramesKept
        rw [serve, destroy_found h.kept.pid rfl (h.unlisted slot) hpid]
        simp
      rw [hr, conserved_destroyed_iff h hc slot]
      constructor
      · intro hdead _
        -- an empty block carries the number 0
        have hzero : pid = 0 := by rw [← hpid, (h.numbered slot).dead hdead]; rfl
        have hslot : slot = 0 := Fin.ext (congrArg UInt32.toNat hzero)
        exact ⟨hzero, hslot ▸ hdead⟩
      · intro hn
        obtain ⟨hzero, hdead⟩ := hn hlt
        have hslot : slot = 0 := Fin.ext (congrArg UInt32.toNat hzero)
        exact hslot ▸ hdead
    · have hnone : serve p (.destroy pid) k = none := by
        rw [serve, destroy_lost h.kept.pid rfl (h.unlisted slot) hpid]
        rfl
      refine iff_of_false ?_ fun hn => hpid ?_
      · rintro ⟨r, hr, -⟩
        rw [hnone] at hr
        exact absurd hr (Option.not_mem_none r)
      · obtain ⟨hzero, hdead⟩ := hn hlt
        have hslot : slot = 0 := Fin.ext (congrArg UInt32.toNat hzero)
        rw [hslot, (h.numbered 0).dead hdead, hzero]
        rfl
  · refine iff_of_true ⟨(.destroyed false, k), ?_, hc⟩ fun hlt => absurd hlt (not_lt.2 hge)
    rw [serve, destroy_refused hge]
    rfl

/-- At the boot the frames are conserved. -/
theorem boot_conserved (p : Placement) : Conserved p (Kernel.boot p) (Kernel.boot p) := by
  have hnone : mappedFrames p (Kernel.boot p) = ∅ := by
    refine Finset.filter_false_of_mem fun f _ => ?_
    rintro ⟨slot, hl, -⟩
    exact not_live_zero hl
  unfold Conserved
  rw [hnone]
  rfl

/-- **The frames are conserved exactly while no process is lost.**  In every sequence
of creations and destructions from the boot, every call returns and leaves the number
of frames in use at those of the boot plus those mapped for live processes, just when
no call destroys a process, and every creation that passes the checks finds a free
frame and an empty slot and does not load its program into the page of its stack. -/
theorem frames_conserved_iff (p : Placement) (calls : List Call) :
    ∀ k₀ ∈ kernelSetup p, Runs.Guarded (serve p) (FramesKept p k₀) calls k₀ ↔
      Runs.Guarded (serve p) NoneLost calls k₀ := by
  intro k₀ hk
  obtain rfl := Option.some.inj ((kernelSetup_eq p).symm.trans hk)
  have hdom : Runs.Guarded (serve p) (fun _ _ => True) calls (Kernel.boot p) := Runs.guarded_true
  refine Runs.guarded_iff (fun k c (hk : Ledger p k ∧ Conserved p (Kernel.boot p) k) _ => ?_) ?_
    ⟨boot_ledger p, boot_conserved p⟩ hdom
  · obtain ⟨hl, hc⟩ := hk
    match c with
    | .create request => exact framesKept_create_iff hl hc request
    | .destroy pid => exact framesKept_destroy_iff hl hc pid
  · rintro k c a k' ⟨hl, -⟩ - ⟨r, hr, hc⟩ hs
    obtain rfl := Option.some.inj (hr.symm.trans hs)
    exact ⟨hl.served hs, hc⟩

/-- Two processes that are never destroyed. -/
theorem frames_conserved_iff_sample :
    Runs.Guarded (serve afterCode) (FramesKept afterCode (Kernel.boot afterCode))
      [.create program, .create program, .destroy 16] (Kernel.boot afterCode) :=
  (frames_conserved_iff afterCode _ _ (kernelSetup_eq afterCode)).2 (by decide +kernel)

/-- A process is created and destroyed: its two frames stay in use.  After 15 such rounds
the next creation fails for want of memory. -/
theorem not_frames_conserved_sample :
    ¬Runs.Guarded (serve afterCode) (FramesKept afterCode (Kernel.boot afterCode))
        [.create program, .destroy 0] (Kernel.boot afterCode) ∧
      (Runs.run (serve afterCode)
          ((List.replicate 15 [.create program, .destroy 0]).flatten ++ [.create program])
          (Kernel.boot afterCode)).map (fun r => r.1.getLast?) =
        some (some (.created PROCESS_CREATE_FAIL_NOT_ENOUGH_MEMORY)) :=
  ⟨Runs.not_guarded_cons (by decide +kernel), by decide +kernel⟩

end Process
end Jatos
