/-
# What the process table keeps

`process_create_user_process` asks `paging_allocate_check` for a number of
frames where the check expects bytes, so it only learns that one frame is free,
and then takes two.  It is safe because the number of free frames is even
between the calls: the boot leaves 30, every creation takes two, and nothing
gives any back.  For the same reason at most 15 processes are ever created, so
a page directory is always left.

`Invariant` says so, and that no two process control blocks share a page
directory, which is what lets `process_destroy` clear the one it frees.
`Served` says once what a call that returns has done.
-/

import Jatos.Process.Control
import Jatos.Process.Frames
import Mathlib.Algebra.Group.Nat.Even

namespace Jatos
namespace Process

variable {p : Placement} {k k' : Kernel} {c : Call} {a : Answer} {request : ReadRequest}
  {pid : UInt32} {slot : Fin 16} {i f g : Fin 32}

/-- The page directory of a process control block. -/
def directoryOf (p : Placement) (k : Kernel) (slot : Fin 16) : Option (Fin 32) :=
  p.listedAt (k.processList slot).context.pageDirectoryVirtualAddr

/-- A live process has a page directory of the list, whatever its slot. -/
def HasDirectory (p : Placement) (_slot : Fin 16) (pcb : ProcessControlBlock) : Prop :=
  pcb.state ≠ .noProcess → ∃ i, p.listedAt pcb.context.pageDirectoryVirtualAddr = some i

/-- The `pid` is the number of the slot, or still 0. -/
def InSlot (slot : Fin 16) (pcb : ProcessControlBlock) : Prop :=
  pcb.pid = 0 ∨ pcb.pid.toNat = slot

/-- What every call keeps. -/
structure Invariant (p : Placement) (k : Kernel) : Prop where
  frames : Frames k.paging
  even : Even (Bitmap.freeCount k.paging.pageFrameMap)
  /-- Half a page directory is left for every frame that is. -/
  directories : Bitmap.freeCount k.paging.pageFrameMap + 34 ≤
    2 * Bitmap.freeCount k.paging.pageDirectoryUsed
  owned : Exclusive ∅ (Bitmap.taken k.paging.pageDirectoryUsed) (directoryOf p k)
  live : ∀ slot, HasDirectory p slot (k.processList slot)
  pid : ∀ slot, InSlot slot (k.processList slot)

/-- What every event keeps of the page frames and page directories. -/
structure Stocked (s : Paging) : Prop where
  frames : Frames s
  even : Even (Bitmap.freeCount s.pageFrameMap)
  directories : Bitmap.freeCount s.pageFrameMap + 34 ≤ 2 * Bitmap.freeCount s.pageDirectoryUsed

/-- The kernel's invariant keeps the paging in stock. -/
theorem Invariant.stocked (h : Invariant p k) : Stocked k.paging :=
  ⟨h.frames, h.even, h.directories⟩

/-! ### Creation -/

/-- `page_frame_count_needed`. -/
abbrev ReadRequest.pageFrameCountNeeded (request : ReadRequest) : UInt32 :=
  ceilDiv (request.bufferSize + PAGE_FRAME_SIZE) PAGE_FRAME_SIZE

/-- The request passes the checks of `process_create_user_process`. -/
structure Accepted (k : Kernel) (request : ReadRequest) : Prop where
  count : k.activeProcessCount.toNat < 16
  entrypoint : request.buf < KERNEL_VIRTUAL_ADDRESS_BASE
  check : pagingAllocateCheck request.pageFrameCountNeeded k.paging = true
  max : request.pageFrameCountNeeded ≤ PROCESS_PAGE_FRAME_COUNT_MAX

/-- A request is accepted if and only if the four tests of the source pass. -/
theorem accepted_iff : Accepted k request ↔
    k.activeProcessCount.toNat < 16 ∧ request.buf < KERNEL_VIRTUAL_ADDRESS_BASE ∧
      pagingAllocateCheck request.pageFrameCountNeeded k.paging = true ∧
      request.pageFrameCountNeeded ≤ PROCESS_PAGE_FRAME_COUNT_MAX :=
  ⟨fun h => ⟨h.count, h.entrypoint, h.check, h.max⟩, fun ⟨h₁, h₂, h₃, h₄⟩ => ⟨h₁, h₂, h₃, h₄⟩⟩

instance : Decidable (Accepted k request) := decidable_of_iff _ accepted_iff.symm

/-- An accepted request passes the test for memory. -/
theorem Accepted.enough (ha : Accepted k request) :
    ¬((!pagingAllocateCheck request.pageFrameCountNeeded k.paging) = true ∨
      request.pageFrameCountNeeded > PROCESS_PAGE_FRAME_COUNT_MAX) := by
  rw [ha.check]
  exact not_or.2 ⟨Bool.false_ne_true, UInt32.not_lt.2 ha.max⟩

/-- At least one page frame is needed. -/
theorem pageFrameCountNeeded_pos {size : UInt32} (h : size.toNat < 2 ^ 32 - 2 ^ 22) :
    0 < (ceilDiv (size + PAGE_FRAME_SIZE) PAGE_FRAME_SIZE).toNat := by
  have hsum : (size + PAGE_FRAME_SIZE).toNat = size.toNat + 4194304 := by
    rw [UInt32.toNat_add, show PAGE_FRAME_SIZE.toNat = 4194304 by decide]
    omega
  exact ceilDiv_pos (by omega)

/-- The check shows that one frame is free, whatever positive amount it is asked
for. -/
theorem freeCount_pos {s : Paging} (h : Frames s) {amount : UInt32} (ha : 0 < amount.toNat)
    (hc : pagingAllocateCheck amount s = true) : 0 < Bitmap.freeCount s.pageFrameMap := by
  have hpos := ceilDiv_pos ha
  have hge := UInt32.le_iff_toNat_le.1 (of_decide_eq_true hc)
  rw [h.counted] at hge
  exact lt_of_lt_of_le hpos hge

/-- The check lets pass a request of few frames while one is free. -/
theorem allocateCheck_of_pos (h : Frames k.paging)
    (hone : 0 < Bitmap.freeCount k.paging.pageFrameMap)
    (hmax : request.pageFrameCountNeeded ≤ PROCESS_PAGE_FRAME_COUNT_MAX) :
    pagingAllocateCheck request.pageFrameCountNeeded k.paging = true := by
  have hle : request.pageFrameCountNeeded.toNat ≤ 8 := UInt32.le_iff_toNat_le.1 hmax
  have hceil := ceilDiv_le_one (hle.trans (by norm_num))
  have hge : ceilDiv request.pageFrameCountNeeded PAGE_FRAME_SIZE ≤
      k.paging.freePageFrameCount := by
    rw [UInt32.le_iff_toNat_le, h.counted]
    omega
  exact decide_eq_true hge

/-- The state after a creation that put frames `f` and `g` into page directory `i`. -/
def Kernel.created (p : Placement) (k : Kernel) (request : ReadRequest) (slot : Fin 16)
    (i f g : Fin 32) : Kernel :=
  { k with
    paging := pagingUsePageDirectory (pagingGetCurrentPageDirectoryAddr k.paging)
      (((pagingUsePageDirectory (p.address (.listed i)) (k.paging.useDirectory i)).mapFrame
        (.listed i) (pageIndex request.buf) f).mapFrame (.listed i) (pageIndex 0xBFFFFFFC) g)
    processList := Function.update k.processList slot
      ((k.processList slot).setUp request (p.address (.listed i)) k.activeProcessCount)
    activeProcessCount := k.activeProcessCount + 1 }

/-- What a creation takes: the slot that the count names, a page directory that is not
in use and two free frames. -/
structure Taken (k : Kernel) (request : ReadRequest) (slot : Fin 16) (i f g : Fin 32) : Prop where
  accepted : Accepted k request
  slot : slot.val = k.activeProcessCount.toNat
  directory : k.paging.pageDirectoryUsed i = false
  first : k.paging.pageFrameMap f = false
  second : Function.update k.paging.pageFrameMap f true g = false

/-- The answer to a request that does not pass the checks. -/
structure Refused (k : Kernel) (request : ReadRequest) (code : ℤ) : Prop where
  failed : code ≠ PROCESS_CREATE_SUCCESS
  limit : 16 ≤ k.activeProcessCount.toNat → code = PROCESS_CREATE_FAIL_MAX_PROCESS_EXCEEDED
  entrypoint : k.activeProcessCount.toNat < 16 → KERNEL_VIRTUAL_ADDRESS_BASE ≤ request.buf →
    code = PROCESS_CREATE_FAIL_INVALID_ENTRYPOINT
  memory : k.activeProcessCount.toNat < 16 → request.buf < KERNEL_VIRTUAL_ADDRESS_BASE →
    code = PROCESS_CREATE_FAIL_NOT_ENOUGH_MEMORY

/-- A request that is not accepted changes nothing. -/
theorem create_refused (h : ¬Accepted k request) :
    ∃ code, Refused k request code ∧ processCreateUserProcess p request k = some (code, k) := by
  unfold processCreateUserProcess createWith
  dsimp only
  split_ifs with hcount hbuf hneed
  · refine ⟨PROCESS_CREATE_FAIL_MAX_PROCESS_EXCEEDED,
      ⟨by decide, fun _ => rfl, fun hlt => ?_, fun hlt => ?_⟩, rfl⟩ <;> omega
  · refine ⟨PROCESS_CREATE_FAIL_INVALID_ENTRYPOINT,
      ⟨by decide, fun hge => absurd hge hcount, fun _ _ => rfl, fun _ hlt => ?_⟩, rfl⟩
    exact absurd hlt (UInt32.not_lt.2 hbuf)
  · exact ⟨PROCESS_CREATE_FAIL_NOT_ENOUGH_MEMORY, ⟨by decide, fun hge => absurd hge hcount,
      fun _ hge => absurd hge hbuf, fun _ _ => rfl⟩, rfl⟩
  · obtain ⟨hcheck, hmax⟩ := not_or.1 hneed
    rw [Bool.not_eq_true', Bool.not_eq_false] at hcheck
    exact absurd ⟨not_le.1 hcount, UInt32.not_le.1 hbuf, hcheck, UInt32.not_lt.1 hmax⟩ h

/-- **Creation.**  Two frames that were free are mapped in a page directory that was
not in use. -/
theorem create_accepted (h : Stocked k.paging) (ha : Accepted k request)
    (hone : 0 < Bitmap.freeCount k.paging.pageFrameMap) :
    ∃ slot i f g, Taken k request slot i f g ∧ processCreateUserProcess p request k =
      some (PROCESS_CREATE_SUCCESS, k.created p request slot i f g) := by
  -- one frame is free and their number is even, so two are
  have htwo : 2 ≤ Bitmap.freeCount k.paging.pageFrameMap := by
    obtain ⟨n, hn⟩ := h.even
    omega
  have hdir : 0 < Bitmap.freeCount k.paging.pageDirectoryUsed := by
    have hd := h.directories
    omega
  obtain ⟨i, hi, hnew⟩ := pagingCreateNewPageDirectory_eq (p := p) hdir
  let s₀ := pagingUsePageDirectory (p.address (.listed i)) (k.paging.useDirectory i)
  obtain ⟨f, hf, hallocf⟩ :=
    pagingAllocateUserPageFrame_eq (p := p) (s := s₀) (.listed i) request.buf hone
  let s₁ := s₀.mapFrame (.listed i) (pageIndex request.buf) f
  have hleft : 0 < Bitmap.freeCount s₁.pageFrameMap := by
    have hc : Bitmap.freeCount s₁.pageFrameMap + 1 = Bitmap.freeCount k.paging.pageFrameMap :=
      freeCount_mapFrame hf (.listed i) (pageIndex request.buf)
    omega
  obtain ⟨g, hg, hallocg⟩ :=
    pagingAllocateUserPageFrame_eq (p := p) (s := s₁) (.listed i) 0xBFFFFFFC hleft
  refine ⟨⟨k.activeProcessCount.toNat, ha.count⟩, i, f, g, ⟨ha, rfl, hi, hf, hg⟩, ?_⟩
  unfold processCreateUserProcess createWith
  rw [dif_neg (not_le.2 ha.count), if_neg (UInt32.not_le.2 ha.entrypoint)]
  dsimp only
  rw [if_neg ha.enough]
  simp only [hnew]
  rw [hallocf]
  simp only [Option.bind_eq_bind, Option.bind_some]
  rw [hallocg]
  rfl

/-- Without a free frame the search fails, and the code writes in front of
`page_frame_map`. -/
theorem create_starved (ha : Accepted k request)
    (hzero : Bitmap.freeCount k.paging.pageFrameMap = 0) :
    processCreateUserProcess p request k = none := by
  have hmap : (pagingUsePageDirectory (pagingCreateNewPageDirectory p k.paging).1
      (pagingCreateNewPageDirectory p k.paging).2).pageFrameMap = k.paging.pageFrameMap := by
    unfold pagingCreateNewPageDirectory
    split <;> rfl
  unfold processCreateUserProcess createWith
  rw [dif_neg (not_le.2 ha.count), if_neg (UInt32.not_le.2 ha.entrypoint)]
  dsimp only
  rw [if_neg ha.enough, pagingAllocateUserPageFrame_starved (hmap ▸ hzero)]
  rfl

/-- A creation that returns changes nothing, or sets up the block that the count
names. -/
theorem create_cases (h : processCreateUserProcess p request k = some (code, k')) :
    k' = k ∨ ∃ (slot : Fin 16) (pageDir : UInt32), slot.val = k.activeProcessCount.toNat ∧
      k'.listOfProcess = k.listOfProcess ∧ k'.processList = Function.update k.processList slot
        ((k.processList slot).setUp request pageDir k.activeProcessCount) := by
  unfold processCreateUserProcess createWith at h
  dsimp only at h
  split_ifs at h with hcount hbuf hneed
  · exact .inl (congrArg Prod.snd (Option.some.inj h)).symm
  · exact .inl (congrArg Prod.snd (Option.some.inj h)).symm
  · exact .inl (congrArg Prod.snd (Option.some.inj h)).symm
  · simp only [Option.bind_eq_bind, Option.map_eq_some_iff, Option.bind_eq_some_iff] at h
    obtain ⟨r, ⟨_, _, _, _, _, _, hr⟩, h⟩ := h
    obtain rfl := Option.some.inj hr
    obtain rfl := congrArg Prod.snd h
    exact .inr ⟨⟨k.activeProcessCount.toNat, not_le.1 hcount⟩, _, rfl, rfl, rfl⟩

/-- Replacing a process replaces what directory its slot has. -/
theorem directoryOf_update (p : Placement) (slot : Fin 16) (pcb : ProcessControlBlock)
    (hk : k'.processList = Function.update k.processList slot pcb) :
    directoryOf p k' = Function.update (directoryOf p k) slot
      (p.listedAt pcb.context.pageDirectoryVirtualAddr) := by
  ext1 slot'
  unfold directoryOf
  rw [hk, Function.update_apply, Function.update_apply]
  split_ifs <;> rfl

/-- A process made has the directory that was taken for it. -/
theorem directoryOf_created (p : Placement) (k : Kernel) (request : ReadRequest) (slot : Fin 16)
    (i f g : Fin 32) : directoryOf p (k.created p request slot i f g) =
      Function.update (directoryOf p k) slot (some i) := by
  rw [directoryOf_update p slot _ rfl]
  exact congrArg _ (Placement.listedAt_eq_some.2 rfl)

/-- A creation takes two frames. -/
theorem freeCount_created (ht : Taken k request slot i f g) :
    Bitmap.freeCount (k.created p request slot i f g).paging.pageFrameMap + 2 =
      Bitmap.freeCount k.paging.pageFrameMap := by
  rw [← Bitmap.freeCount_take ht.first, ← Bitmap.freeCount_take ht.second]
  rfl

/-- Where frames are taken, one was free. -/
theorem Taken.freeCount_pos (ht : Taken k request slot i f g) :
    0 < Bitmap.freeCount k.paging.pageFrameMap :=
  Finset.card_pos.2 ⟨f, Finset.mem_filter.2 ⟨Finset.mem_univ f, ht.first⟩⟩

/-- A creation keeps the paging in stock. -/
theorem Stocked.created (h : Stocked k.paging) (ht : Taken k request slot i f g) :
    Stocked (k.created p request slot i f g).paging := by
  have hleft := freeCount_created (p := p) ht
  obtain ⟨ha, -, hi, hf, hg⟩ := ht
  have hused : Bitmap.freeCount (k.created p request slot i f g).paging.pageDirectoryUsed + 1 =
      Bitmap.freeCount k.paging.pageDirectoryUsed := Bitmap.freeCount_take hi
  constructor
  · have hnew := (h.frames.useDirectory i).usePageDirectory (p.address (.listed i))
    exact ((hnew.mapFrame hf (pageIndex_ne_kernel ha.entrypoint)).mapFrame hg
      (pageIndex_ne_kernel (by decide))).usePageDirectory _
  · obtain ⟨n, hn⟩ := h.even
    exact ⟨n - 1, by omega⟩
  · have hd := h.directories
    omega

/-- A creation keeps the invariant. -/
theorem Invariant.created (h : Invariant p k) (ht : Taken k request slot i f g) :
    Invariant p (k.created p request slot i f g) := by
  obtain ⟨hframes, heven, hdirs⟩ := h.stocked.created (p := p) ht
  obtain ⟨-, hslot, hi, -, -⟩ := ht
  refine ⟨hframes, heven, hdirs, ?_, ?_, ?_⟩
  · rw [directoryOf_created]
    have hi' : i ∉ Bitmap.taken k.paging.pageDirectoryUsed := by
      rw [Bitmap.mem_taken, hi]
      exact Bool.false_ne_true
    have ha := h.owned.assign hi' slot
    rwa [← Bitmap.taken_take] at ha
  · exact (Function.forall_update_iff _ (HasDirectory p)).2
      ⟨fun _ => ⟨i, Placement.listedAt_eq_some.2 rfl⟩, fun slot' _ => h.live slot'⟩
  · exact (Function.forall_update_iff _ InSlot).2 ⟨.inr hslot.symm, fun slot' _ => h.pid slot'⟩

/-! ### Destruction -/

/-- The block found for a `pid` is the one in the slot of that number. -/
theorem pcbOf_slot (h : ∀ slot, InSlot slot (k.processList slot)) {i : Fin 16}
    (hi : k.pcbOf pid = some i) : i.val = pid.toNat := by
  obtain ⟨hpid, hfirst⟩ := Fin.find?_eq_some_iff.1 hi
  have hpid : (k.processList i).pid = pid := of_decide_eq_true hpid
  rcases h i with hzero | hslot
  · -- every block carries 0 until it is created, the first one always
    have h0 : (k.processList 0).pid = pid := by
      rw [← hpid, hzero]
      rcases h 0 with h0 | h0
      · exact h0
      · exact UInt32.toNat_inj.1 h0
    have hi0 : ¬0 < i := fun hlt => of_decide_eq_false (hfirst 0 hlt) h0
    rw [← hpid, hzero]
    exact Fin.val_eq_zero_iff.2 (Fin.le_zero_iff.1 (not_lt.1 hi0))
  · rw [← hpid, hslot]

/-- The state after the process in a slot was destroyed. -/
def Kernel.destroyed (p : Placement) (k : Kernel) (slot : Fin 16) : Kernel :=
  { paging := (pagingFreePageDirectory p
      (k.processList slot).context.pageDirectoryVirtualAddr k.paging).2
    listOfProcess := Function.update k.listOfProcess slot false
    processList := Function.update k.processList slot .zero
    activeProcessCount := k.activeProcessCount - 1 }

/-- What the lookup finds. -/
theorem pcbOf_eq_some_iff (h : ∀ slot, InSlot slot (k.processList slot)) :
    k.pcbOf pid = some slot ↔ slot.val = pid.toNat ∧ (k.processList slot).pid = pid := by
  constructor
  · intro hs
    exact ⟨pcbOf_slot h hs, of_decide_eq_true (Fin.eq_true_of_find?_eq_some hs)⟩
  · rintro ⟨hslot, hpid⟩
    obtain ⟨i, hi⟩ := Option.isSome_iff_exists.1
      (Fin.isSome_find?_of_eq_true (p := fun i => decide ((k.processList i).pid = pid))
        (decide_eq_true hpid))
    have he : i = slot := Fin.ext ((pcbOf_slot h hi).trans hslot.symm)
    exact he ▸ hi

/-- A number past the slots destroys nothing. -/
theorem destroy_refused (h : 16 ≤ pid.toNat) : processDestroy p pid k = some (false, k) := by
  unfold processDestroy
  rw [dif_pos h]

/-- A slot that is listed is not destroyed. -/
theorem destroy_listed (hslot : slot.val = pid.toNat) (hl : k.listOfProcess slot = true) :
    processDestroy p pid k = some (false, k) := by
  have hlt : pid.toNat < 16 := hslot ▸ slot.isLt
  obtain rfl : slot = ⟨pid.toNat, hlt⟩ := Fin.ext hslot
  unfold processDestroy
  rw [dif_neg (not_le.2 hlt)]
  dsimp only
  rw [if_pos hl]

/-- **Destruction.**  The process in the slot that the `pid` names is destroyed. -/
theorem destroy_found (h : ∀ slot, InSlot slot (k.processList slot)) (hslot : slot.val = pid.toNat)
    (hl : k.listOfProcess slot = false) (hpid : (k.processList slot).pid = pid) :
    processDestroy p pid k = some (true, k.destroyed p slot) := by
  have hfound := (pcbOf_eq_some_iff h).2 ⟨hslot, hpid⟩
  have hlt : pid.toNat < 16 := hslot ▸ slot.isLt
  obtain rfl : slot = ⟨pid.toNat, hlt⟩ := Fin.ext hslot
  unfold processDestroy
  rw [dif_neg (not_le.2 hlt)]
  dsimp only
  rw [if_neg (by rw [hl]; exact Bool.false_ne_true), hfound]
  rfl

/-- Without a block of that `pid`, the code goes through `NULL`. -/
theorem destroy_lost (h : ∀ slot, InSlot slot (k.processList slot)) (hslot : slot.val = pid.toNat)
    (hl : k.listOfProcess slot = false) (hpid : (k.processList slot).pid ≠ pid) :
    processDestroy p pid k = none := by
  have hnone : k.pcbOf pid = none := by
    refine Option.eq_none_iff_forall_ne_some.2 fun i hi => ?_
    obtain ⟨hi, he⟩ := (pcbOf_eq_some_iff h).1 hi
    exact hpid (Fin.ext (hi.trans hslot.symm) ▸ he)
  have hlt : pid.toNat < 16 := hslot ▸ slot.isLt
  obtain rfl : slot = ⟨pid.toNat, hlt⟩ := Fin.ext hslot
  unfold processDestroy
  rw [dif_neg (not_le.2 hlt)]
  dsimp only
  rw [if_neg (by rw [hl]; exact Bool.false_ne_true), hnone]

/-- Destroying a slot without a directory leaves the paging alone. -/
theorem destroyed_paging_none (hd : directoryOf p k slot = none) :
    (k.destroyed p slot).paging = k.paging :=
  congrArg Prod.snd (pagingFreePageDirectory_none hd)

/-- Destroying a slot gives its directory back. -/
theorem destroyed_paging_some (hd : directoryOf p k slot = some i) :
    (k.destroyed p slot).paging = k.paging.dropDirectory i :=
  congrArg Prod.snd (pagingFreePageDirectory_some hd)

/-- A destruction gives no frame back. -/
theorem destroyed_pageFrameMap (p : Placement) (k : Kernel) (slot : Fin 16) :
    (k.destroyed p slot).paging.pageFrameMap = k.paging.pageFrameMap := by
  show (pagingFreePageDirectory p _ k.paging).2.pageFrameMap = _
  unfold pagingFreePageDirectory
  split <;> rfl

/-- A destroyed slot has no directory. -/
theorem directoryOf_destroyed (p : Placement) (k : Kernel) (slot : Fin 16) :
    directoryOf p (k.destroyed p slot) = Function.update (directoryOf p k) slot none := by
  rw [directoryOf_update p slot .zero rfl]
  exact congrArg _ p.listedAt_null

/-- A page directory given back, if it is one of the list, is left for others. -/
theorem Stocked.freed {s : Paging} (h : Stocked s) (pageDir : UInt32) :
    Stocked (pagingFreePageDirectory p pageDir s).2 := by
  cases hd : p.listedAt pageDir with
  | none =>
      rw [pagingFreePageDirectory_none hd]
      exact h
  | some i =>
      rw [pagingFreePageDirectory_some hd]
      refine ⟨h.frames.dropDirectory i, h.even, ?_⟩
      have hdirs := h.directories
      have hle : Bitmap.freeCount s.pageDirectoryUsed ≤
          Bitmap.freeCount (Function.update s.pageDirectoryUsed i false) := by
        cases hused : s.pageDirectoryUsed i with
        | true =>
            have hgive := Bitmap.freeCount_give hused
            omega
        | false => rw [← hused, Function.update_eq_self]
      change Bitmap.freeCount s.pageFrameMap + 34 ≤ 2 * Bitmap.freeCount (Function.update _ i false)
      omega

/-- A destruction keeps the invariant. -/
theorem Invariant.destroyed (h : Invariant p k) (slot : Fin 16) :
    Invariant p (k.destroyed p slot) := by
  obtain ⟨hframes, heven, hdirs⟩ :=
    h.stocked.freed (p := p) (k.processList slot).context.pageDirectoryVirtualAddr
  refine ⟨hframes, heven, hdirs, ?_, ?_, ?_⟩
  · rw [directoryOf_destroyed]
    rcases hd : directoryOf p k slot with _ | i
    · -- the block has no page directory, and none is dropped
      rw [destroyed_paging_none hd, ← hd, Function.update_eq_self]
      exact h.owned
    · rw [destroyed_paging_some hd]
      have hr := h.owned.release hd
      rwa [← Bitmap.taken_give] at hr
  · exact (Function.forall_update_iff _ (HasDirectory p)).2
      ⟨fun hs => absurd rfl hs, fun slot' _ => h.live slot'⟩
  · exact (Function.forall_update_iff _ InSlot).2 ⟨.inl rfl, fun slot' _ => h.pid slot'⟩

/-! ### Calls -/

/-- What a call that returns has answered and done. -/
inductive Served (p : Placement) (k : Kernel) : Call → Answer → Kernel → Prop
  | refused {request : ReadRequest} {code : ℤ} (h : ¬Accepted k request)
      (hc : code ≠ PROCESS_CREATE_SUCCESS) : Served p k (.create request) (.created code) k
  | created {request : ReadRequest} {slot : Fin 16} {i f g : Fin 32}
      (h : Taken k request slot i f g) :
      Served p k (.create request) (.created PROCESS_CREATE_SUCCESS)
        (k.created p request slot i f g)
  | kept {pid : UInt32} : Served p k (.destroy pid) (.destroyed false) k
  | destroyed {pid : UInt32} {slot : Fin 16} (hslot : slot.val = pid.toNat)
      (hpid : (k.processList slot).pid = pid) :
      Served p k (.destroy pid) (.destroyed true) (k.destroyed p slot)

/-- **A creation** goes astray only if it is accepted without a free frame. -/
theorem serve_create (h : Stocked k.paging) (request : ReadRequest) :
    serve p (.create request) k = none ∧ Accepted k request ∧
        Bitmap.freeCount k.paging.pageFrameMap = 0 ∨
      ∃ a k', serve p (.create request) k = some (a, k') ∧ Served p k (.create request) a k' := by
  by_cases ha : Accepted k request
  · rcases Nat.eq_zero_or_pos (Bitmap.freeCount k.paging.pageFrameMap) with hzero | hone
    · refine .inl ⟨?_, ha, hzero⟩
      rw [serve, create_starved ha hzero]
      rfl
    · obtain ⟨slot, i, f, g, ht, hc⟩ := create_accepted h ha hone
      refine .inr ⟨_, _, ?_, .created ht⟩
      rw [serve, hc]
      rfl
  · obtain ⟨code, href, hc⟩ := create_refused (p := p) ha
    refine .inr ⟨_, _, ?_, .refused ha href.failed⟩
    rw [serve, hc]
    rfl

/-- **A destruction** goes astray only if no block carries the `pid`. -/
theorem serve_destroy (h : Invariant p k) (pid : UInt32) :
    serve p (.destroy pid) k = none ∧ (∃ slot : Fin 16, slot.val = pid.toNat ∧
        (k.processList slot).pid ≠ pid) ∨
      ∃ a k', serve p (.destroy pid) k = some (a, k') ∧ Served p k (.destroy pid) a k' := by
  rcases Nat.lt_or_ge pid.toNat 16 with hlt | hge
  · let slot : Fin 16 := ⟨pid.toNat, hlt⟩
    cases hl : k.listOfProcess slot with
    | true =>
        refine .inr ⟨_, _, ?_, .kept⟩
        rw [serve, destroy_listed rfl hl]
        rfl
    | false =>
        by_cases hpid : (k.processList slot).pid = pid
        · refine .inr ⟨_, _, ?_, .destroyed (show slot.val = pid.toNat from rfl) hpid⟩
          rw [serve, destroy_found h.pid rfl hl hpid]
          rfl
        · refine .inl ⟨?_, slot, rfl, hpid⟩
          rw [serve, destroy_lost h.pid rfl hl hpid]
          rfl
  · refine .inr ⟨_, _, ?_, .kept⟩
    rw [serve, destroy_refused hge]
    rfl

/-- **What a call that returns has done.** -/
theorem served (h : Invariant p k) (hs : serve p c k = some (a, k')) : Served p k c a k' := by
  have key : serve p c k = none ∨ ∃ a k', serve p c k = some (a, k') ∧ Served p k c a k' := by
    match c with
    | .create request => exact (serve_create h.stocked request).imp_left And.left
    | .destroy pid => exact (serve_destroy h pid).imp_left And.left
  rcases key with hnone | ⟨a', k₁, hs', hserved⟩
  · exact absurd (hnone.symm.trans hs) (Option.some_ne_none _).symm
  · obtain ⟨rfl, rfl⟩ := Prod.mk.inj (Option.some.inj (hs'.symm.trans hs))
    exact hserved

/-- The calls keep the invariant. -/
theorem Invariant.served (h : Invariant p k) (hs : serve p c k = some (a, k')) :
    Invariant p k' := by
  cases Process.served h hs with
  | refused => exact h
  | created ht => exact h.created ht
  | kept => exact h
  | destroyed => exact h.destroyed _

/-! ### The boot -/

/-- The state in which `kernel_setup` creates the shell: frame 1 is mapped at address 0
of the kernel's page directory. -/
def Kernel.boot (p : Placement) : Kernel where
  paging := (Paging.initial p).mapFrame .kernel (pageIndex 0) 1
  listOfProcess _ := false
  activeProcessCount := 0
  processList _ := .zero

/-- The setup of the kernel returns. -/
theorem kernelSetup_eq (p : Placement) : kernelSetup p = some (Kernel.boot p) := by
  have hfree : Bitmap.firstFree (Paging.initial p).pageFrameMap = some 1 := by
    show Bitmap.firstFree (fun i : Fin 32 => decide (i = 0)) = some 1
    decide
  have hdir : p.directoryAt p.pagingKernelPageDirectory = some .kernel :=
    p.directoryAt_address .kernel
  unfold kernelSetup pagingAllocateUserPageFrame updatePageDirectoryEntry
  rw [hfree, hdir]
  rfl

/-- The boot leaves 30 frames. -/
theorem freeCount_boot (p : Placement) :
    Bitmap.freeCount (Kernel.boot p).paging.pageFrameMap = 30 := by
  have hc := freeCount_mapFrame (s := Paging.initial p) (f := 1) rfl .kernel (pageIndex 0)
  have hcount : Bitmap.freeCount (Paging.initial p).pageFrameMap = 31 := rfl
  show Bitmap.freeCount ((Paging.initial p).mapFrame .kernel (pageIndex 0) 1).pageFrameMap = 30
  omega

/-- The invariant holds at the boot. -/
theorem boot_invariant (p : Placement) : Invariant p (Kernel.boot p) := by
  have hleft := freeCount_boot p
  have hdirs : Bitmap.freeCount (Kernel.boot p).paging.pageDirectoryUsed = 32 := rfl
  constructor
  · exact (frames_initial p).mapFrame rfl (pageIndex_ne_kernel (by decide))
  · exact ⟨15, hleft⟩
  · omega
  · exact .of_none (Set.empty_subset _) fun _ => p.listedAt_null
  · exact fun _ hs => absurd rfl hs
  · exact fun _ => .inl rfl

end Process
end Jatos
