/-
# Fresh page directories

`paging_create_new_page_directory` marks the first page directory of the list
that is not in use and enters the kernel's half, but clears nothing.  That it
hands out no mapping of an earlier owner rests on
`paging_free_page_directory`, which erases all entries, and on nobody writing
to a page directory that is not in use: then such a page directory is zero
(`Cleared`).

`Issued` adds to the page manager what its callers know: the addresses that
they were given and have not freed since.  These are the page directories that
are marked.
-/

import Jatos.Foundation.Runs
import Jatos.Process.Frames

namespace Jatos
namespace Process

variable {p : Placement} {i : Fin 32} {pageDir physicalAddr virtualAddr a : UInt32}
  {flag : PageDirectoryEntryFlag} {paging paging' : Paging}

/-- A page directory that is not in use maps nothing. -/
def Cleared (paging : Paging) : Prop :=
  ∀ i, paging.pageDirectoryUsed i = false → paging.pageDirectory (.listed i) = fun _ => .zero

/-- The calls on page directories. -/
inductive DirectoryCall
  | create
  | free (pageDir : UInt32)
  | update (pageDir physicalAddr virtualAddr : UInt32) (flag : PageDirectoryEntryFlag)
  | allocateFrame (pageDir virtualAddr : UInt32)
  | freeFrame (pageDir virtualAddr : UInt32)

/-- What a call returns. -/
inductive DirectoryAnswer
  | created (pageDir : UInt32)
  | done (result : Bool)
  | updated

/-- The page manager, and the addresses that it has handed out and not got back. -/
structure Issued where
  paging : Paging
  handedOut : Finset UInt32

variable {s s' : Issued} {c : DirectoryCall} {o : DirectoryAnswer}

/-- One call. -/
def direct (p : Placement) : DirectoryCall → Issued → Option (DirectoryAnswer × Issued)
  | .create, s =>
      let r := pagingCreateNewPageDirectory p s.paging
      some (.created r.1, ⟨r.2, if r.1 = 0 then s.handedOut else insert r.1 s.handedOut⟩)
  | .free pageDir, s =>
      let r := pagingFreePageDirectory p pageDir s.paging
      some (.done r.1, ⟨r.2, s.handedOut.erase pageDir⟩)
  | .update pageDir physicalAddr virtualAddr flag, s =>
      (updatePageDirectoryEntry p pageDir physicalAddr virtualAddr flag s.paging).map fun paging =>
        (.updated, ⟨paging, s.handedOut⟩)
  | .allocateFrame pageDir virtualAddr, s =>
      (pagingAllocateUserPageFrame p pageDir virtualAddr s.paging).map fun r =>
        (.done r.1, ⟨r.2, s.handedOut⟩)
  | .freeFrame pageDir virtualAddr, s =>
      (pagingFreeUserPageFrame p pageDir virtualAddr s.paging).map fun r =>
        (.done r.1, ⟨r.2, s.handedOut⟩)

/-- Only page directories that are handed out are written to, and not at the entry of
the kernel's half. -/
def OnHandedOut (s : Issued) : DirectoryCall → Prop
  | .create => True
  | .free _ => True
  | .update pageDir _ virtualAddr _ => pageDir ∈ s.handedOut ∧ pageIndex virtualAddr ≠ 0x300
  | .allocateFrame pageDir virtualAddr => pageDir ∈ s.handedOut ∧ pageIndex virtualAddr ≠ 0x300
  | .freeFrame pageDir virtualAddr => pageDir ∈ s.handedOut ∧ pageIndex virtualAddr ≠ 0x300

instance (s : Issued) : (c : DirectoryCall) → Decidable (OnHandedOut s c)
  | .create => isTrue trivial
  | .free _ => isTrue trivial
  | .update _ _ _ _ => inferInstanceAs (Decidable (_ ∧ _))
  | .allocateFrame _ _ => inferInstanceAs (Decidable (_ ∧ _))
  | .freeFrame _ _ => inferInstanceAs (Decidable (_ ∧ _))

/-- The static variables before anything was handed out. -/
structure Unissued (paging : Paging) : Prop where
  unused : ∀ i, paging.pageDirectoryUsed i = false
  zero : ∀ i, paging.pageDirectory (.listed i) = fun _ => .zero

/-! ### One call -/

/-- The page directory at an address is all that was written to. -/
structure OnlyWrites (p : Placement) (pageDir : UInt32) (paging paging' : Paging) : Prop where
  used : paging'.pageDirectoryUsed = paging.pageDirectoryUsed
  others : ∀ d, p.directoryAt pageDir ≠ some d →
    paging'.pageDirectory d = paging.pageDirectory d

/-- Updating an entry writes to the table of its own directory only. -/
theorem updatePageDirectoryEntry_writes
    (h : updatePageDirectoryEntry p pageDir physicalAddr virtualAddr flag paging = some paging') :
    OnlyWrites p pageDir paging paging' := by
  obtain ⟨d, hd, rfl⟩ := Option.map_eq_some_iff.1 h
  refine ⟨rfl, fun d' hd' => Function.update_of_ne (fun he : d' = d => hd' ?_) _ _⟩
  rw [hd, he]

/-- Taking a frame writes to the table of the directory it is for only. -/
theorem pagingAllocateUserPageFrame_writes {r : Bool × Paging}
    (h : pagingAllocateUserPageFrame p pageDir virtualAddr paging = some r) :
    OnlyWrites p pageDir paging r.2 := by
  unfold pagingAllocateUserPageFrame at h
  split at h
  · cases h
  · obtain ⟨paging', hu, rfl⟩ := Option.map_eq_some_iff.1 h
    have hw := updatePageDirectoryEntry_writes hu
    exact ⟨hw.used, hw.others⟩

/-- Giving a frame back writes to the table of the directory it is from only. -/
theorem pagingFreeUserPageFrame_writes {r : Bool × Paging}
    (h : pagingFreeUserPageFrame p pageDir virtualAddr paging = some r) :
    OnlyWrites p pageDir paging r.2 := by
  obtain ⟨d, -, h⟩ := Option.bind_eq_some_iff.1 h
  dsimp only at h
  split_ifs at h with hlt
  obtain ⟨paging', hu, he⟩ := Option.bind_eq_some_iff.1 h
  obtain rfl := Option.some.inj he
  have hw := updatePageDirectoryEntry_writes hu
  exact ⟨hw.used, hw.others⟩

/-- A creation takes a page directory that is not in use, or returns `NULL`. -/
theorem pagingCreateNewPageDirectory_cases (p : Placement) (paging : Paging) :
    (∀ i, paging.pageDirectoryUsed i = true) ∧
        pagingCreateNewPageDirectory p paging = (0, paging) ∨
      ∃ i, paging.pageDirectoryUsed i = false ∧
        pagingCreateNewPageDirectory p paging = (p.address (.listed i), paging.useDirectory i) := by
  rcases Nat.eq_zero_or_pos (Bitmap.freeCount paging.pageDirectoryUsed) with hzero | hpos
  · refine .inl ⟨fun i => ?_, ?_⟩
    · by_contra hi
      exact Finset.notMem_empty i (Finset.card_eq_zero.1 hzero ▸
        Finset.mem_filter.2 ⟨Finset.mem_univ i, Bool.eq_false_iff.2 hi⟩)
    · unfold pagingCreateNewPageDirectory
      rw [Bitmap.firstFree_none hzero]
  · exact .inr (pagingCreateNewPageDirectory_eq hpos)

/-! ### What the calls keep -/

/-- The directories out of use are clear after one is taken. -/
theorem Cleared.useDirectory (h : Cleared paging) (i : Fin 32) :
    Cleared (paging.useDirectory i) := by
  intro i' hi'
  change Function.update paging.pageDirectoryUsed i true i' = false at hi'
  have hne : i' ≠ i := by
    rintro rfl
    rw [Function.update_self] at hi'
    exact Bool.noConfusion hi'
  rw [Function.update_of_ne hne] at hi'
  rw [useDirectory_pageDirectory fun he => hne (Directory.listed.inj he)]
  exact h i' hi'

/-- The directories out of use are clear after one is given back. -/
theorem Cleared.dropDirectory (h : Cleared paging) (i : Fin 32) :
    Cleared (paging.dropDirectory i) := by
  intro i' hi'
  by_cases hne : i' = i
  · subst hne
    exact Function.update_self _ _ _
  · rw [dropDirectory_pageDirectory fun he => hne (Directory.listed.inj he)]
    exact h i' ((Function.update_of_ne hne _ _).symm.trans hi')

/-- Writing to a page directory that is in use does no harm. -/
theorem Cleared.written (h : Cleared paging) (hw : OnlyWrites p pageDir paging paging')
    (hi : p.directoryAt pageDir = some (.listed i)) (hused : paging.pageDirectoryUsed i = true) :
    Cleared paging' := by
  intro i' hi'
  rw [hw.used] at hi'
  rw [hw.others]
  · exact h i' hi'
  · rw [hi]
    rintro he
    obtain rfl := Directory.listed.inj (Option.some.inj he)
    exact Bool.noConfusion (hi'.symm.trans hused)

/-- A page directory given back, if it is one of the list, is erased. -/
theorem Cleared.freed (h : Cleared paging) (pageDir : UInt32) :
    Cleared (pagingFreePageDirectory p pageDir paging).2 := by
  cases hd : p.listedAt pageDir with
  | none =>
      rw [pagingFreePageDirectory_none hd]
      exact h
  | some i =>
      rw [pagingFreePageDirectory_some hd]
      exact h.dropDirectory i

/-- What every call keeps: the addresses that are handed out are those of the page
directories in use, and the others are zero. -/
structure Tidy (p : Placement) (s : Issued) : Prop where
  inUse : ∀ a, a ∈ s.handedOut ↔
    ∃ i, p.address (.listed i) = a ∧ s.paging.pageDirectoryUsed i = true
  cleared : Cleared s.paging

/-- Where no directory is issued, the tables are tidy. -/
theorem Unissued.tidy (h : Unissued paging) : Tidy p ⟨paging, ∅⟩ where
  inUse a := by
    refine iff_of_false (Finset.notMem_empty a) ?_
    rintro ⟨i, -, hi⟩
    exact Bool.noConfusion ((h.unused i).symm.trans hi)
  cleared i _ := h.zero i

/-- Taking a directory keeps the tables tidy. -/
theorem Tidy.create (h : Tidy p s) (hs : direct p .create s = some (o, s')) : Tidy p s' := by
  obtain rfl := congrArg Prod.snd (Option.some.inj hs)
  rcases pagingCreateNewPageDirectory_cases p s.paging with ⟨-, hnew⟩ | ⟨i, -, hnew⟩
  · rw [hnew]
    exact h
  · rw [hnew]
    dsimp only
    rw [if_neg (p.address_ne_null _)]
    refine ⟨fun a => ?_, h.cleared.useDirectory i⟩
    rw [Finset.mem_insert, h.inUse]
    constructor
    · rintro (rfl | ⟨i', ha, hi'⟩)
      · exact ⟨i, rfl, Function.update_self _ _ _⟩
      · refine ⟨i', ha, ?_⟩
        show Function.update s.paging.pageDirectoryUsed i true i' = true
        rw [Function.update_apply]
        split_ifs
        · rfl
        · exact hi'
    · rintro ⟨i', ha, hi'⟩
      by_cases hne : i' = i
      · exact .inl (hne ▸ ha.symm)
      · exact .inr ⟨i', ha, (Function.update_of_ne hne _ _).symm.trans hi'⟩

/-- Giving a directory back keeps the tables tidy. -/
theorem Tidy.free (h : Tidy p s) (hs : direct p (.free pageDir) s = some (o, s')) :
    Tidy p s' := by
  obtain rfl := congrArg Prod.snd (Option.some.inj hs)
  refine ⟨fun a => ?_, h.cleared.freed pageDir⟩
  rw [Finset.mem_erase, h.inUse]
  cases hd : p.listedAt pageDir with
  | none =>
      rw [pagingFreePageDirectory_none hd]
      refine ⟨And.right, fun ha => ⟨?_, ha⟩⟩
      rintro rfl
      obtain ⟨i, hi, -⟩ := ha
      exact Option.some_ne_none i ((Placement.listedAt_eq_some.2 hi).symm.trans hd)
  | some i =>
      rw [pagingFreePageDirectory_some hd]
      obtain rfl := Placement.listedAt_eq_some.1 hd
      constructor
      · rintro ⟨hne, i', rfl, hi'⟩
        exact ⟨i', rfl, (Function.update_of_ne (fun he : i' = i => hne (by rw [he])) _ _).trans hi'⟩
      · rintro ⟨i', rfl, hi'⟩
        change Function.update s.paging.pageDirectoryUsed i false i' = true at hi'
        have hne : i' ≠ i := by
          rintro rfl
          rw [Function.update_self] at hi'
          exact Bool.noConfusion hi'
        rw [Function.update_of_ne hne] at hi'
        exact ⟨fun he => hne (Directory.listed.inj (p.address_injective he)), i', rfl, hi'⟩

/-- Writing to a page directory that is handed out. -/
theorem Tidy.written (h : Tidy p s) (hmem : pageDir ∈ s.handedOut)
    (hw : OnlyWrites p pageDir s.paging paging') : Tidy p ⟨paging', s.handedOut⟩ := by
  refine ⟨fun a => ?_, ?_⟩
  · rw [h.inUse, hw.used]
  · obtain ⟨i, rfl, hused⟩ := (h.inUse pageDir).1 hmem
    exact h.cleared.written hw (p.directoryAt_address _) hused

/-- **Every call.** -/
theorem Tidy.directed (h : Tidy p s) (hc : OnHandedOut s c) (hs : direct p c s = some (o, s')) :
    Tidy p s' := by
  match c with
  | .create => exact h.create hs
  | .free _ => exact h.free hs
  | .update _ _ _ _ =>
      obtain ⟨paging', hu, he⟩ := Option.map_eq_some_iff.1 hs
      obtain ⟨-, rfl⟩ := Prod.mk.inj he
      exact h.written hc.1 (updatePageDirectoryEntry_writes hu)
  | .allocateFrame _ _ =>
      obtain ⟨r, hr, he⟩ := Option.map_eq_some_iff.1 hs
      obtain ⟨-, rfl⟩ := Prod.mk.inj he
      exact h.written hc.1 (pagingAllocateUserPageFrame_writes hr)
  | .freeFrame _ _ =>
      obtain ⟨r, hr, he⟩ := Option.map_eq_some_iff.1 hs
      obtain ⟨-, rfl⟩ := Prod.mk.inj he
      exact h.written hc.1 (pagingFreeUserPageFrame_writes hr)

/-! ### Fresh page directories -/

/-- What a creation returns: a page directory that is not handed out, with the kernel's
half as its only present entry. -/
structure Fresh (p : Placement) (s : Issued) (a : UInt32) (paging' : Paging) : Prop where
  notHandedOut : a ∉ s.handedOut
  listed : ∃ i, a = p.address (.listed i) ∧ s.paging.pageDirectoryUsed i = false ∧
    paging'.pageDirectory (.listed i) 0x300 = kernelEntry ∧
    ∀ j, (paging'.pageDirectory (.listed i) j).flag.presentBit = true ↔ j = 0x300

/-- The page directories that are not in use are zero, those in use are the ones handed
out, and the next creation returns a fresh one, or `NULL` when all are in use. -/
structure Clean (p : Placement) (s : Issued) : Prop where
  cleared : Cleared s.paging
  inUse : ∀ a, a ∈ s.handedOut ↔
    ∃ i, p.address (.listed i) = a ∧ s.paging.pageDirectoryUsed i = true
  fresh : ∀ a paging', pagingCreateNewPageDirectory p s.paging = (a, paging') → a ≠ 0 →
    Fresh p s a paging'
  null : (pagingCreateNewPageDirectory p s.paging).1 = 0 ↔
    ∀ i, s.paging.pageDirectoryUsed i = true

/-- A directory taken holds the kernel's entry and what it held before. -/
theorem useDirectory_entry (paging : Paging) (i : Fin 32) (j : Fin 1024) :
    (paging.useDirectory i).pageDirectory (.listed i) j =
      if j = 0x300 then kernelEntry else paging.pageDirectory (.listed i) j := by
  show Function.update paging.pageDirectory (.listed i) _ (.listed i) j = _
  rw [Function.update_self, Function.update_apply]

/-- Tidy tables are clean ones. -/
theorem Tidy.clean (h : Tidy p s) : Clean p s := by
  refine ⟨h.cleared, h.inUse, fun a paging' hnew hne => ?_, ?_⟩
  · rcases pagingCreateNewPageDirectory_cases p s.paging with ⟨-, heq⟩ | ⟨i, hi, heq⟩
    · exact absurd (congrArg Prod.fst (hnew.symm.trans heq)) hne
    · obtain ⟨rfl, rfl⟩ := Prod.mk.inj (heq.symm.trans hnew)
      refine ⟨fun hmem => ?_, i, rfl, hi, ?_, fun j => ?_⟩
      · obtain ⟨i', ha, hi'⟩ := (h.inUse _).1 hmem
        obtain rfl := Directory.listed.inj (p.address_injective ha)
        exact Bool.noConfusion (hi.symm.trans hi')
      · rw [useDirectory_entry, if_pos rfl]
      · rw [useDirectory_entry, h.cleared i hi]
        split_ifs with hj
        · exact iff_of_true rfl hj
        · exact iff_of_false Bool.false_ne_true hj
  · rcases pagingCreateNewPageDirectory_cases p s.paging with ⟨hall, heq⟩ | ⟨i, hi, heq⟩
    · exact iff_of_true (congrArg Prod.fst heq) hall
    · refine iff_of_false (fun h0 => ?_) fun hall => Bool.noConfusion (hi.symm.trans (hall i))
      exact p.address_ne_null (.listed i) ((congrArg Prod.fst heq).symm.trans h0)

/-- **Fresh page directories are clean.**  In every sequence of creations, of frees of
any pointer, and of updates and of allocations and frees of frames in page
directories that are handed out, beginning before any is.  `hrun` leaves out the sequences in
which a call reaches past `page_frame_map`: an allocation when no frame is free, and a free of
an entry that names a frame from 32 on. -/
theorem directories_clean (p : Placement) (calls : List DirectoryCall) (h : Unissued paging)
    (hg : Runs.Guarded (direct p) OnHandedOut calls ⟨paging, ∅⟩) {os : List DirectoryAnswer}
    (hrun : Runs.run (direct p) calls ⟨paging, ∅⟩ = some (os, s)) : Clean p s :=
  (Runs.run_invariant (fun _ _ _ _ hi hc hs => hi.directed hc hs) h.tidy hg hrun).clean

/-- No directory is issued at the start. -/
theorem initial_unissued (p : Placement) : Unissued (Paging.initial p) :=
  ⟨fun _ => rfl, fun _ => rfl⟩

/-- A page directory is handed out, written to, and freed together with a pointer to
none. -/
theorem directories_clean_sample : ∃ os s,
    Runs.run (direct afterCode)
      [.create, .allocateFrame 0xC0111000 0, .create, .free 0, .free 0xC0111000]
      ⟨Paging.initial afterCode, ∅⟩ = some (os, s) ∧ Clean afterCode s := by
  have hsome : (Runs.run (direct afterCode)
      [.create, .allocateFrame 0xC0111000 0, .create, .free 0, .free 0xC0111000]
      ⟨Paging.initial afterCode, ∅⟩).isSome = true := by decide +kernel
  obtain ⟨⟨os, s⟩, hrun⟩ := Option.isSome_iff_exists.1 hsome
  exact ⟨os, s, hrun, directories_clean afterCode _ (initial_unissued afterCode)
    (by decide +kernel) hrun⟩

end Process
end Jatos
