/-
# What the page manager keeps

`Frames s` is the invariant of `paging.c`: the counter counts the clear bits of
`page_frame_map`, every frame mapped for a user is marked there and has one
entry, frame 0 is the kernel's, and a page directory in use maps the kernel's
half.  The operations are described by the state they leave behind (`mapFrame`,
`unmapFrame`, `useDirectory`, `dropDirectory`), and each keeps it.
-/

import Jatos.Process.Paging

namespace Jatos
namespace Process

variable {p : Placement} {s : Paging} {d : Directory} {j : Fin 1024} {f i : Fin 32}

/-- The frame that an entry maps for a user. -/
def PageDirectoryEntry.userFrame (e : PageDirectoryEntry) : Option ℕ :=
  if e.flag.presentBit ∧ e.flag.userBit then some e.lowerAddress else none

/-- An entry with the user's flags maps its frame to the user. -/
theorem userFrame_user (e : PageDirectoryEntry) (f : Fin 1024) :
    PageDirectoryEntry.userFrame { e with flag := userFlag, lowerAddress := f } = some f.val := rfl

/-- The frame that each entry of each page directory maps for a user. -/
def Paging.userFrame (s : Paging) (e : Directory × Fin 1024) : Option ℕ :=
  (s.pageDirectory e.1 e.2).userFrame

/-- The frames marked in `page_frame_map`, by number. -/
def Paging.usedFrames (s : Paging) : Set ℕ := Fin.val '' Bitmap.taken s.pageFrameMap

/-- **The frames.** The count is right, no frame is mapped twice, and the directories in use
map the kernel. -/
structure Frames (s : Paging) : Prop where
  counted : s.freePageFrameCount.toNat = Bitmap.freeCount s.pageFrameMap
  exclusive : Exclusive {0} s.usedFrames s.userFrame
  kernelHalf : ∀ i, s.pageDirectoryUsed i = true → s.pageDirectory (.listed i) 0x300 = kernelEntry

/-- One entry of one page directory is replaced. -/
theorem setEntry_apply (t : Directory → PageDirectory) (d d' : Directory) (j j' : Fin 1024)
    (e : PageDirectoryEntry) :
    Function.update t d (Function.update (t d) j e) d' j' =
      if d' = d ∧ j' = j then e else t d' j' := by
  rcases eq_or_ne d' d with rfl | hd
  · rw [Function.update_self, Function.update_apply]
    simp
  · rw [Function.update_of_ne hd, if_neg fun h => hd h.1]

/-- The frames are in order at the start. -/
theorem frames_initial (p : Placement) : Frames (Paging.initial p) := by
  have hnone : ∀ e, (Paging.initial p).userFrame e = none := by
    rintro ⟨_ | i, j⟩
    · show PageDirectoryEntry.userFrame (if j = 0x300 then kernelEntry else .zero) = none
      split_ifs <;> rfl
    · rfl
  refine ⟨rfl, .of_none ?_ hnone, fun i hi => Bool.noConfusion hi⟩
  rintro r rfl
  exact ⟨0, rfl, rfl⟩

/-! ### Mapping a frame -/

/-- Frame `f` is mapped for a user at entry `j` of `d`. -/
def Paging.mapFrame (s : Paging) (d : Directory) (j : Fin 1024) (f : Fin 32) : Paging :=
  { s with
    pageFrameMap := Function.update s.pageFrameMap f true
    freePageFrameCount := s.freePageFrameCount - 1
    pageDirectory := Function.update s.pageDirectory d
      (Function.update (s.pageDirectory d) j
        { s.pageDirectory d j with
          flag := userFlag
          lowerAddress := pageIndex (UInt32.ofNat f * PAGE_FRAME_SIZE) }) }

/-- The search finds a frame while one is free, and that frame is mapped. -/
theorem pagingAllocateUserPageFrame_eq (d : Directory) (virtualAddr : UInt32)
    (h : 0 < Bitmap.freeCount s.pageFrameMap) : ∃ f, s.pageFrameMap f = false ∧
      pagingAllocateUserPageFrame p (p.address d) virtualAddr s =
        some (true, s.mapFrame d (pageIndex virtualAddr) f) := by
  obtain ⟨f, hf⟩ := Bitmap.exists_firstFree h
  refine ⟨f, Bitmap.firstFree_clear hf, ?_⟩
  unfold pagingAllocateUserPageFrame updatePageDirectoryEntry
  rw [hf, p.directoryAt_address]
  rfl

/-- Without a free frame the code writes in front of `page_frame_map`. -/
theorem pagingAllocateUserPageFrame_starved {pageDir virtualAddr : UInt32}
    (h : Bitmap.freeCount s.pageFrameMap = 0) :
    pagingAllocateUserPageFrame p pageDir virtualAddr s = none := by
  unfold pagingAllocateUserPageFrame
  rw [Bitmap.firstFree_none h]

/-- Mapping a frame leaves the other directories alone. -/
theorem mapFrame_pageDirectory {d' : Directory} (hd : d' ≠ d) (s : Paging) (j : Fin 1024)
    (f : Fin 32) : (s.mapFrame d j f).pageDirectory d' = s.pageDirectory d' :=
  Function.update_of_ne hd _ _

/-- Mapping a frame leaves the other entries alone. -/
theorem mapFrame_entry {j' : Fin 1024} (hj : j' ≠ j) (s : Paging) (d d' : Directory) (f : Fin 32) :
    (s.mapFrame d j f).pageDirectory d' j' = s.pageDirectory d' j' :=
  (setEntry_apply ..).trans (if_neg fun he => hj he.2)

/-- Mapping a frame that is free takes one. -/
theorem freeCount_mapFrame (hf : s.pageFrameMap f = false) (d : Directory) (j : Fin 1024) :
    Bitmap.freeCount (s.mapFrame d j f).pageFrameMap + 1 = Bitmap.freeCount s.pageFrameMap :=
  Bitmap.freeCount_take hf

/-- A mapped frame is the user's at its entry. -/
theorem userFrame_mapFrame (s : Paging) (d : Directory) (j : Fin 1024) (f : Fin 32) :
    (s.mapFrame d j f).userFrame = Function.update s.userFrame (d, j) (some f) := by
  ext1 ⟨d', j'⟩
  show PageDirectoryEntry.userFrame (Function.update s.pageDirectory d _ d' j') = _
  simp only [setEntry_apply, Function.update_apply, Prod.mk.injEq]
  split_ifs
  · exact (userFrame_user _ _).trans (congrArg some (pageIndex_frame f))
  · rfl

/-- A mapped frame is a used one. -/
theorem usedFrames_mapFrame (s : Paging) (d : Directory) (j : Fin 1024) (f : Fin 32) :
    (s.mapFrame d j f).usedFrames = insert f.val s.usedFrames := by
  unfold Paging.usedFrames
  rw [← Set.image_insert_eq, ← Bitmap.taken_take]
  rfl

/-- A frame is used if and only if the map says so. -/
theorem mem_usedFrames : f.val ∈ s.usedFrames ↔ s.pageFrameMap f = true := by
  refine ⟨?_, fun h => ⟨f, h, rfl⟩⟩
  rintro ⟨f', hf', he⟩
  exact Fin.ext he ▸ hf'

/-- A frame that the map has free is not used. -/
theorem notMem_usedFrames (hf : s.pageFrameMap f = false) : f.val ∉ s.usedFrames := fun hm =>
  Bool.noConfusion (hf.symm.trans (mem_usedFrames.1 hm))

/-- **A frame may be mapped outside the kernel's half.** -/
theorem Frames.mapFrame (h : Frames s) (hf : s.pageFrameMap f = false) (hj : j ≠ 0x300) :
    Frames (s.mapFrame d j f) where
  counted := by
    have hc := freeCount_mapFrame hf d j
    have hone : (1 : UInt32) ≤ s.freePageFrameCount := by
      rw [UInt32.le_iff_toNat_le, h.counted, ← hc]
      exact Nat.le_add_left _ _
    show (s.freePageFrameCount - 1).toNat = _
    rw [UInt32.toNat_sub_of_le _ _ hone, h.counted, ← hc]
    rfl
  exclusive := by
    rw [usedFrames_mapFrame, userFrame_mapFrame]
    exact h.exclusive.assign (notMem_usedFrames hf) (d, j)
  kernelHalf i hi := by
    show Function.update s.pageDirectory d _ (.listed i) 0x300 = _
    rw [setEntry_apply, if_neg fun he => hj he.2.symm]
    exact h.kernelHalf i hi

/-! ### Giving a frame back -/

/-- Frame `f` is free, and entry `j` of `d` maps nothing. -/
def Paging.unmapFrame (s : Paging) (d : Directory) (j : Fin 1024) (f : Fin 32) : Paging :=
  { s with
    pageFrameMap := Function.update s.pageFrameMap f false
    freePageFrameCount := s.freePageFrameCount + 1
    pageDirectory := Function.update s.pageDirectory d
      (Function.update (s.pageDirectory d) j
        { s.pageDirectory d j with flag := .zero, lowerAddress := 0 }) }

/-- The frame that the entry names is given back, whether the entry is present or not. -/
theorem pagingFreeUserPageFrame_eq (d : Directory) (virtualAddr : UInt32)
    (hf : (s.pageDirectory d (pageIndex virtualAddr)).lowerAddress.val = f) :
    pagingFreeUserPageFrame p (p.address d) virtualAddr s =
      some (true, s.unmapFrame d (pageIndex virtualAddr) f) := by
  have hlt : (s.pageDirectory d (pageIndex virtualAddr)).lowerAddress.val < 32 := hf ▸ f.isLt
  have hzero : pageIndex 0 = 0 := by decide
  obtain rfl : (⟨_, hlt⟩ : Fin 32) = f := Fin.ext hf
  unfold pagingFreeUserPageFrame updatePageDirectoryEntry
  rw [p.directoryAt_address]
  dsimp only [Option.bind_eq_bind, Option.bind_some]
  rw [dif_pos hlt, hzero]
  rfl

/-- What is given back is never refused. -/
theorem pagingFreeUserPageFrame_true {pageDir virtualAddr : UInt32} {r : Bool × Paging}
    (h : pagingFreeUserPageFrame p pageDir virtualAddr s = some r) : r.1 = true := by
  unfold pagingFreeUserPageFrame at h
  simp only [Option.bind_eq_bind, Option.bind_eq_some_iff] at h
  obtain ⟨d, -, h⟩ := h
  split_ifs at h
  obtain ⟨s', -, h⟩ := Option.bind_eq_some_iff.1 h
  exact congrArg Prod.fst (Option.some.inj h).symm

/-- An unmapped entry has no frame of the user's. -/
theorem userFrame_unmapFrame (s : Paging) (d : Directory) (j : Fin 1024) (f : Fin 32) :
    (s.unmapFrame d j f).userFrame = Function.update s.userFrame (d, j) none := by
  ext1 ⟨d', j'⟩
  show PageDirectoryEntry.userFrame (Function.update s.pageDirectory d _ d' j') = _
  simp only [setEntry_apply, Function.update_apply, Prod.mk.injEq]
  split_ifs <;> rfl

/-- An unmapped frame is not used. -/
theorem usedFrames_unmapFrame (s : Paging) (d : Directory) (j : Fin 1024) (f : Fin 32) :
    (s.unmapFrame d j f).usedFrames = s.usedFrames \ {f.val} := by
  unfold Paging.usedFrames
  rw [← Set.image_singleton, ← Set.image_sdiff Fin.val_injective, ← Bitmap.taken_give]
  rfl

/-- **A mapped frame may be given back.** -/
theorem Frames.unmapFrame (h : Frames s) (hf : s.userFrame (d, j) = some f.val) (hj : j ≠ 0x300) :
    Frames (s.unmapFrame d j f) where
  counted := by
    have hused := mem_usedFrames.1 (h.exclusive.held_taken hf)
    have hsum : Bitmap.usedCount s.pageFrameMap + Bitmap.freeCount s.pageFrameMap = 32 :=
      Bitmap.usedCount_add_freeCount s.pageFrameMap
    have hgive := Bitmap.freeCount_give hused
    have hcount := h.counted
    show (s.freePageFrameCount + 1).toNat = Bitmap.freeCount (Function.update _ f false)
    rw [hgive, UInt32.toNat_add, UInt32.toNat_one]
    omega
  exclusive := by
    rw [usedFrames_unmapFrame, userFrame_unmapFrame]
    exact h.exclusive.release hf
  kernelHalf i hi := by
    show Function.update s.pageDirectory d _ (.listed i) 0x300 = _
    rw [setEntry_apply, if_neg fun he => hj he.2.symm]
    exact h.kernelHalf i hi

/-! ### Taking and dropping a page directory -/

/-- Page directory `i` is in use and maps the kernel's half. -/
def Paging.useDirectory (s : Paging) (i : Fin 32) : Paging :=
  { s with
    pageDirectoryUsed := Function.update s.pageDirectoryUsed i true
    pageDirectory := Function.update s.pageDirectory (.listed i)
      (Function.update (s.pageDirectory (.listed i)) 0x300 kernelEntry) }

/-- Page directory `i` is not in use and maps nothing. -/
def Paging.dropDirectory (s : Paging) (i : Fin 32) : Paging :=
  { s with
    pageDirectoryUsed := Function.update s.pageDirectoryUsed i false
    pageDirectory := Function.update s.pageDirectory (.listed i) fun _ => .zero }

/-- Taking a directory leaves the others alone. -/
theorem useDirectory_pageDirectory (hd : d ≠ .listed i) :
    (s.useDirectory i).pageDirectory d = s.pageDirectory d :=
  Function.update_of_ne hd _ _

/-- Giving a directory back leaves the others alone. -/
theorem dropDirectory_pageDirectory (hd : d ≠ .listed i) :
    (s.dropDirectory i).pageDirectory d = s.pageDirectory d :=
  Function.update_of_ne hd _ _

/-- A new directory is the first that is free. -/
theorem pagingCreateNewPageDirectory_eq (h : 0 < Bitmap.freeCount s.pageDirectoryUsed) :
    ∃ i, s.pageDirectoryUsed i = false ∧
      pagingCreateNewPageDirectory p s = (p.address (.listed i), s.useDirectory i) := by
  obtain ⟨i, hi⟩ := Bitmap.exists_firstFree h
  refine ⟨i, Bitmap.firstFree_clear hi, ?_⟩
  unfold pagingCreateNewPageDirectory
  rw [hi]
  rfl

/-- An address that is no directory's is refused. -/
theorem pagingFreePageDirectory_none {a : UInt32} (h : p.listedAt a = none) :
    pagingFreePageDirectory p a s = (false, s) := by
  unfold pagingFreePageDirectory
  rw [h]

/-- A directory's address gives the directory back. -/
theorem pagingFreePageDirectory_some {a : UInt32} (h : p.listedAt a = some i) :
    pagingFreePageDirectory p a s = (true, s.dropDirectory i) := by
  unfold pagingFreePageDirectory
  rw [h]
  rfl

/-- **A page directory may be taken into use.** -/
theorem Frames.useDirectory (h : Frames s) (i : Fin 32) : Frames (s.useDirectory i) where
  counted := h.counted
  exclusive := by
    refine h.exclusive.forget fun e r he => ?_
    change PageDirectoryEntry.userFrame (Function.update s.pageDirectory _ _ e.1 e.2) = _ at he
    rw [setEntry_apply] at he
    split_ifs at he
    · exact absurd he.symm (Option.some_ne_none r)
    · exact he
  kernelHalf i' hi := by
    show Function.update s.pageDirectory (.listed i) _ (.listed i') 0x300 = _
    rw [setEntry_apply]
    split_ifs with he
    · rfl
    · have hne : i' ≠ i := fun h => he ⟨congrArg _ h, rfl⟩
      exact h.kernelHalf i' ((Function.update_of_ne hne _ _).symm.trans hi)

/-- **A page directory may be dropped.** -/
theorem Frames.dropDirectory (h : Frames s) (i : Fin 32) : Frames (s.dropDirectory i) where
  counted := h.counted
  exclusive := by
    refine h.exclusive.forget fun e r he => ?_
    change PageDirectoryEntry.userFrame (Function.update s.pageDirectory _ _ e.1 e.2) = _ at he
    rw [Function.update_apply] at he
    split_ifs at he
    · exact absurd he.symm (Option.some_ne_none r)
    · exact he
  kernelHalf i' hi := by
    change Function.update s.pageDirectoryUsed i false i' = true at hi
    have hne : i' ≠ i := by
      rintro rfl
      rw [Function.update_self] at hi
      exact Bool.noConfusion hi
    rw [Function.update_of_ne hne] at hi
    have hd : Directory.listed i' ≠ .listed i := fun he => hne (Directory.listed.inj he)
    show Function.update s.pageDirectory _ _ (.listed i') 0x300 = _
    rw [Function.update_of_ne hd]
    exact h.kernelHalf i' hi

/-- Loading a directory changes no table. -/
@[simp] theorem pageDirectory_usePageDirectory (a : UInt32) (s : Paging) :
    (pagingUsePageDirectory a s).pageDirectory = s.pageDirectory := rfl

/-- Loading a directory changes no mapping. -/
@[simp] theorem userFrame_usePageDirectory (a : UInt32) (s : Paging) :
    (pagingUsePageDirectory a s).userFrame = s.userFrame := rfl

/-- Which page directory is active does not matter. -/
theorem Frames.usePageDirectory (h : Frames s) (a : UInt32) : Frames (pagingUsePageDirectory a s) :=
  ⟨h.counted, h.exclusive, h.kernelHalf⟩

end Process
end Jatos
