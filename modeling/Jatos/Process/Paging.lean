/-
# Page directories and page frames

`src/paging.c` and `header/memory/paging.h`.

The page directories are static objects: the kernel's own one and the 32 of
`page_directory_list`.  The code passes them by address and finds them by
comparing addresses, so `Placement` says where the linker put them (the script
links the kernel at `0xC0100000`) and a pointer is a `UInt32`.  A step that
writes through a pointer to no page directory, or in front of
`page_frame_map`, answers `none`.

Neither the translation lookaside buffer nor the bits that the processor sets in an
entry are modelled.  A `float` is a rational number in single precision; the only
divisor is a power of two, so it makes no difference whether a compiler rounds in
between.
-/

import Jatos.Foundation.Bitmap
import Jatos.Foundation.Single
import Mathlib.Algebra.Order.Floor.Semiring
import Mathlib.Algebra.Order.Ring.Rat
import Mathlib.Data.Rat.Floor
import Mathlib.Data.UInt

namespace Jatos
namespace Process

open Single

/-- Entries of a page directory. -/
abbrev PAGE_ENTRY_COUNT : ℕ := 1024
/-- Bytes of a page frame. -/
abbrev PAGE_FRAME_SIZE : UInt32 := 4194304
/-- Page frames that the kernel manages. -/
abbrev PAGE_FRAME_MAX_COUNT : ℕ := 32
/-- Page directories that there may be. -/
abbrev PAGING_DIRECTORY_TABLE_MAX_COUNT : ℕ := 32
/-- Where the kernel's half starts. -/
abbrev KERNEL_VIRTUAL_ADDRESS_BASE : UInt32 := 0xC0000000

/-- A numeral denotes a page frame. -/
instance : NeZero PAGE_FRAME_MAX_COUNT := ⟨by decide⟩

instance entries_neZero : NeZero 1024 := ⟨by decide⟩

/-! ### Addresses -/

/-- The page directories of the kernel image. -/
inductive Directory
  /-- `_paging_kernel_page_directory`. -/
  | kernel
  /-- An entry of `page_directory_list`. -/
  | listed (i : Fin 32)
  deriving DecidableEq

/-- Where the linker put `_paging_kernel_page_directory` and `page_directory_list`,
page directories of 4096 bytes. -/
structure Placement where
  pagingKernelPageDirectory : UInt32
  pageDirectoryList : UInt32
  kernel_above : KERNEL_VIRTUAL_ADDRESS_BASE < pagingKernelPageDirectory
  list_above : KERNEL_VIRTUAL_ADDRESS_BASE < pageDirectoryList
  list_end : pageDirectoryList.toNat + 32 * 4096 ≤ 2 ^ 32
  disjoint : pagingKernelPageDirectory.toNat + 4096 ≤ pageDirectoryList.toNat ∨
    pageDirectoryList.toNat + 32 * 4096 ≤ pagingKernelPageDirectory.toNat

variable {p : Placement}

/-- Page directories right behind the kernel's code. -/
def afterCode : Placement where
  pagingKernelPageDirectory := 0xC0110000
  pageDirectoryList := 0xC0111000
  kernel_above := by decide
  list_above := by decide
  list_end := by decide
  disjoint := by decide

/-- `&_paging_kernel_page_directory` and `&page_directory_list[i]`. -/
def Placement.address (p : Placement) : Directory → UInt32
  | .kernel => p.pagingKernelPageDirectory
  | .listed i => p.pageDirectoryList + UInt32.ofNat (4096 * i)

/-- The directories of the list follow each other in memory. -/
theorem Placement.toNat_listed (p : Placement) (i : Fin 32) :
    (p.address (.listed i)).toNat = p.pageDirectoryList.toNat + 4096 * i := by
  have h := p.list_end
  simp only [address, UInt32.toNat_add, UInt32.toNat_ofNat']
  omega

/-- Different page directories lie at different addresses. -/
theorem Placement.address_injective (p : Placement) : Function.Injective p.address := by
  have hk : ∀ i, p.address .kernel ≠ p.address (.listed i) := by
    intro i he
    have h := congrArg UInt32.toNat he
    have hd := p.disjoint
    rw [p.toNat_listed] at h
    simp only [address] at h
    omega
  intro d d' he
  match d, d' with
  | .kernel, .kernel => rfl
  | .kernel, .listed i => exact absurd he (hk i)
  | .listed i, .kernel => exact absurd he.symm (hk i)
  | .listed i, .listed j =>
      have h := congrArg UInt32.toNat he
      rw [p.toNat_listed, p.toNat_listed] at h
      rw [show i = j by omega]

/-- No page directory lies at `NULL`. -/
theorem Placement.address_ne_null (p : Placement) (d : Directory) : p.address d ≠ 0 := by
  intro he
  have h := congrArg UInt32.toNat he
  match d with
  | .kernel =>
      have ha := UInt32.lt_iff_toNat_lt.1 p.kernel_above
      simp only [address] at h
      simp [h] at ha
  | .listed i =>
      have ha := UInt32.lt_iff_toNat_lt.1 p.list_above
      rw [p.toNat_listed] at h
      simp only [UInt32.reduceToNat] at ha h
      omega

/-- The entry of `page_directory_list` at an address: the first whose address
compares equal. -/
def Placement.listedAt (p : Placement) (pageDir : UInt32) : Option (Fin 32) :=
  Fin.find? fun i => p.address (.listed i) = pageDir

/-- The page directory at an address. -/
def Placement.directoryAt (p : Placement) (pageDir : UInt32) : Option Directory :=
  if pageDir = p.address .kernel then some .kernel else (p.listedAt pageDir).map .listed

/-- A directory of the list is found at its address. -/
theorem Placement.listedAt_eq_some {a : UInt32} {i : Fin 32} :
    p.listedAt a = some i ↔ p.address (.listed i) = a := by
  rw [listedAt, Fin.find?_eq_some_iff]
  constructor
  · rintro ⟨h, -⟩
    exact of_decide_eq_true h
  · rintro rfl
    refine ⟨decide_eq_true rfl, fun j hj => decide_eq_false fun he => ?_⟩
    have h := Directory.listed.inj (p.address_injective he)
    exact absurd hj (h ▸ lt_irrefl j)

/-- The null pointer is no directory's address. -/
@[simp] theorem Placement.listedAt_null (p : Placement) : p.listedAt 0 = none :=
  Option.eq_none_iff_forall_ne_some.2 fun _ hi => p.address_ne_null _ (listedAt_eq_some.1 hi)

/-- Every directory is found at its address. -/
@[simp] theorem Placement.directoryAt_address (p : Placement) (d : Directory) :
    p.directoryAt (p.address d) = some d := by
  unfold directoryAt
  match d with
  | .kernel => rw [if_pos rfl]
  | .listed _ =>
      rw [if_neg fun he => Directory.noConfusion (p.address_injective he), listedAt_eq_some.2 rfl]
      rfl

/-- `(addr >> 22) & 0x3FF`: the entry, or the frame, that an address belongs to. -/
def pageIndex (addr : UInt32) : Fin 1024 :=
  ⟨((addr >>> 22) &&& 0x3FF).toNat, by
    rw [UInt32.toNat_and]
    exact lt_of_le_of_lt Nat.and_le_right (by decide)⟩

/-- The entry of an address is the number of its four MiB. -/
theorem pageIndex_val (addr : UInt32) : (pageIndex addr).val = addr.toNat / 4194304 := by
  have h := addr.toNat_lt
  have hmask : (0x3FF : UInt32).toNat = 2 ^ 10 - 1 := by decide
  have hshift : (22 : UInt32).toNat % 32 = 22 := by decide
  show ((addr >>> 22) &&& 0x3FF).toNat = _
  rw [UInt32.toNat_and, UInt32.toNat_shiftRight, hmask, hshift, Nat.shiftRight_eq_div_pow,
    Nat.and_two_pow_sub_one_eq_mod]
  omega

/-- An address below the kernel's half belongs to an entry before `0x300`. -/
theorem pageIndex_ne_kernel {addr : UInt32} (h : addr < KERNEL_VIRTUAL_ADDRESS_BASE) :
    pageIndex addr ≠ 0x300 := by
  intro he
  have hv := congrArg Fin.val he
  have hlt : addr.toNat < 3221225472 := UInt32.lt_iff_toNat_lt.1 h
  have h768 : ((0x300 : Fin 1024) : ℕ) = 768 := rfl
  rw [pageIndex_val] at hv
  omega

/-! ### Rounding up -/

/-- `ceil32`, of a number that is not negative. -/
def ceil32 (n : ℚ) : UInt32 :=
  if (⌊n⌋ : ℚ) = n then UInt32.ofNat ⌊n⌋.toNat else UInt32.ofNat (⌊n⌋.toNat + 1)

/-- `ceil_div`. -/
def ceilDiv (a b : UInt32) : UInt32 := ceil32 (single (single a.toNat / single b.toNat))

/-- Rounding up is the ceiling. -/
theorem ceil32_eq {n : ℚ} (h : 0 ≤ n) : ceil32 n = UInt32.ofNat ⌈n⌉₊ := by
  have hfloor : 0 ≤ ⌊n⌋ := Int.floor_nonneg.2 h
  have hcast : ((⌊n⌋.toNat : ℕ) : ℚ) = ⌊n⌋ := by
    exact_mod_cast congrArg (fun z : ℤ => (z : ℚ)) (Int.toNat_of_nonneg hfloor)
  unfold ceil32
  split_ifs with he
  · have hn : n = ((⌊n⌋.toNat : ℕ) : ℚ) := by rw [hcast, he]
    conv_rhs => rw [hn, Nat.ceil_natCast]
  · have hlt : (⌊n⌋ : ℚ) < n := lt_of_le_of_ne (Int.floor_le n) he
    have hceil : ⌈n⌉₊ = ⌊n⌋.toNat + 1 := by
      rw [Nat.ceil_eq_iff (Nat.succ_ne_zero _)]
      constructor
      · rwa [Nat.succ_sub_one, hcast]
      · push_cast
        rw [hcast]
        exact (Int.lt_floor_add_one n).le
    rw [hceil]

/-- The size of a frame is exact in single precision. -/
theorem single_page : single PAGE_FRAME_SIZE.toNat = 2 ^ 22 := by
  rw [show PAGE_FRAME_SIZE.toNat = 2 ^ 22 by decide, Nat.cast_pow, Nat.cast_ofNat, single_two_pow]

/-- A positive number of bytes needs a page frame. -/
theorem ceilDiv_pos {a : UInt32} (ha : 0 < a.toNat) :
    0 < (ceilDiv a PAGE_FRAME_SIZE).toNat := by
  have hcast : (0 : ℚ) < a.toNat := Nat.cast_pos.2 ha
  have hlt : (a.toNat : ℚ) < 2 ^ 32 := by exact_mod_cast a.toNat_lt
  have hquot : 0 < single (a.toNat : ℚ) / 2 ^ 22 := div_pos (single_pos hcast) (by norm_num)
  have hpos := single_pos hquot
  have hle : single (single (a.toNat : ℚ) / 2 ^ 22) ≤ (4096 : ℕ) := by
    have h₁ := single_le hquot
    have h₂ := single_le hcast
    push_cast
    linarith
  have hceil := Nat.ceil_pos.2 hpos
  have hmax := Nat.ceil_le.2 hle
  rw [ceilDiv, single_page, ceil32_eq hpos.le, UInt32.toNat_ofNat']
  omega

/-- At most a page frame of bytes, and few enough for single precision, need no more
than one. -/
theorem ceilDiv_le_one {a : UInt32} (ha : a.toNat ≤ 2 ^ 22) :
    (ceilDiv a PAGE_FRAME_SIZE).toNat ≤ 1 := by
  have hlt : a.toNat < 2 ^ 24 := by omega
  have hle : (a.toNat : ℚ) / 2 ^ 22 ≤ (1 : ℕ) := by
    rw [Nat.cast_one, div_le_one (by norm_num)]
    exact_mod_cast ha
  have hmax := Nat.ceil_le.2 hle
  rw [ceilDiv, single_page, single_natCast hlt, single_div_two_pow hlt, ceil32_eq (by positivity),
    UInt32.toNat_ofNat']
  omega

/-! ### The state of the page manager -/

/-- `struct PageDirectoryEntryFlag`. -/
structure PageDirectoryEntryFlag where
  presentBit : Bool
  writeBit : Bool
  userBit : Bool
  pageLevelWriteThroughBit : Bool
  pageLevelCacheDisableBit : Bool
  accessedBit : Bool
  dirtyBit : Bool
  usePagesize4Mb : Bool
  deriving DecidableEq

/-- `struct PageDirectoryEntry`. -/
structure PageDirectoryEntry where
  flag : PageDirectoryEntryFlag
  globalPage : Bool
  ignored : BitVec 3
  pat : Bool
  higherAddress : BitVec 8
  reserved2 : Bool
  lowerAddress : Fin 1024
  deriving DecidableEq

/-- `struct PageDirectory`. -/
abbrev PageDirectory := Fin PAGE_ENTRY_COUNT → PageDirectoryEntry

/-- No flag is set. -/
def PageDirectoryEntryFlag.zero : PageDirectoryEntryFlag :=
  ⟨false, false, false, false, false, false, false, false⟩

/-- The entry that maps nothing. -/
def PageDirectoryEntry.zero : PageDirectoryEntry := ⟨.zero, false, 0, false, 0, false, 0⟩

/-- The entry of the kernel's higher half. -/
def kernelEntry : PageDirectoryEntry :=
  { PageDirectoryEntry.zero with
    flag :=
      { PageDirectoryEntryFlag.zero with
        presentBit := true
        writeBit := true
        usePagesize4Mb := true } }

/-- The flags of a page frame of a user. -/
def userFlag : PageDirectoryEntryFlag :=
  { PageDirectoryEntryFlag.zero with
    presentBit := true
    writeBit := true
    userBit := true
    usePagesize4Mb := true }

/-- The static variables of `paging.c`, and the register that holds the physical
address of the active page directory. -/
structure Paging where
  pageDirectory : Directory → PageDirectory
  pageFrameMap : Fin PAGE_FRAME_MAX_COUNT → Bool
  freePageFrameCount : UInt32
  pageDirectoryUsed : Fin PAGING_DIRECTORY_TABLE_MAX_COUNT → Bool
  cr3 : UInt32

/-- The static variables as `kernel_setup` finds them: the loader has activated the
kernel's page directory and deleted its entry 0. -/
def Paging.initial (p : Placement) : Paging where
  pageDirectory
    | .kernel => fun j => if j = 0x300 then kernelEntry else .zero
    | .listed _ => fun _ => .zero
  pageFrameMap i := i = 0
  freePageFrameCount := 31
  pageDirectoryUsed _ := false
  cr3 := p.address .kernel - KERNEL_VIRTUAL_ADDRESS_BASE

/-! ### The operations -/

/-- `update_page_directory_entry`. -/
def updatePageDirectoryEntry (p : Placement) (pageDir physicalAddr virtualAddr : UInt32)
    (flag : PageDirectoryEntryFlag) (s : Paging) : Option Paging :=
  (p.directoryAt pageDir).map fun d =>
    { s with
      pageDirectory := Function.update s.pageDirectory d
        (Function.update (s.pageDirectory d) (pageIndex virtualAddr)
          { s.pageDirectory d (pageIndex virtualAddr) with
            flag := flag
            lowerAddress := pageIndex physicalAddr }) }

/-- `paging_allocate_check`. -/
def pagingAllocateCheck (amount : UInt32) (s : Paging) : Bool :=
  let requiredPages := ceil32 (single (single amount.toNat / single PAGE_FRAME_SIZE.toNat))
  s.freePageFrameCount ≥ requiredPages

/-- `paging_allocate_user_page_frame`. -/
def pagingAllocateUserPageFrame (p : Placement) (pageDir virtualAddr : UInt32) (s : Paging) :
    Option (Bool × Paging) :=
  match Bitmap.firstFree s.pageFrameMap with
  -- `idx` stays -1
  | none => none
  | some idx =>
      let physAddress := UInt32.ofNat idx * PAGE_FRAME_SIZE
      let s := { s with pageFrameMap := Function.update s.pageFrameMap idx true }
      (updatePageDirectoryEntry p pageDir physAddress virtualAddr userFlag s).map fun s =>
        (true, { s with freePageFrameCount := s.freePageFrameCount - 1 })

/-- `paging_free_user_page_frame`. -/
def pagingFreeUserPageFrame (p : Placement) (pageDir virtualAddr : UInt32) (s : Paging) :
    Option (Bool × Paging) := do
  let d ← p.directoryAt pageDir
  let physAddress := (s.pageDirectory d (pageIndex virtualAddr)).lowerAddress
  if h : physAddress.val < 32 then
    let s :=
      { s with
        pageFrameMap := Function.update s.pageFrameMap ⟨physAddress, h⟩ false
        freePageFrameCount := s.freePageFrameCount + 1 }
    let s ← updatePageDirectoryEntry p pageDir 0 virtualAddr .zero s
    some (true, s)
  -- a write behind `page_frame_map`
  else none

/-- `paging_create_new_page_directory`: the address, `NULL` without one. -/
def pagingCreateNewPageDirectory (p : Placement) (s : Paging) : UInt32 × Paging :=
  match Bitmap.firstFree s.pageDirectoryUsed with
  | none => (0, s)
  | some i =>
      (p.address (.listed i),
        { s with
          pageDirectoryUsed := Function.update s.pageDirectoryUsed i true
          pageDirectory := Function.update s.pageDirectory (.listed i)
            (Function.update (s.pageDirectory (.listed i)) 0x300 kernelEntry) })

/-- `paging_free_page_directory`. -/
def pagingFreePageDirectory (p : Placement) (pageDir : UInt32) (s : Paging) : Bool × Paging :=
  match p.listedAt pageDir with
  | none => (false, s)
  | some i =>
      (true,
        { s with
          pageDirectoryUsed := Function.update s.pageDirectoryUsed i false
          pageDirectory := Function.update s.pageDirectory (.listed i) fun _ => .zero })

/-- `paging_get_current_page_directory_addr`. -/
def pagingGetCurrentPageDirectoryAddr (s : Paging) : UInt32 :=
  s.cr3 + KERNEL_VIRTUAL_ADDRESS_BASE

/-- `paging_use_page_directory`. -/
def pagingUsePageDirectory (pageDirVirtualAddr : UInt32) (s : Paging) : Paging :=
  { s with cr3 :=
      if KERNEL_VIRTUAL_ADDRESS_BASE < pageDirVirtualAddr then
        pageDirVirtualAddr - KERNEL_VIRTUAL_ADDRESS_BASE
      else pageDirVirtualAddr }

/-- The frame that `paging_allocate_user_page_frame` enters is the one it found. -/
theorem pageIndex_frame (idx : Fin 32) :
    (pageIndex (UInt32.ofNat idx * PAGE_FRAME_SIZE)).val = idx := by
  have hsize : PAGE_FRAME_SIZE.toNat = 4194304 := by decide
  have h : (UInt32.ofNat idx * PAGE_FRAME_SIZE).toNat = idx * 4194304 := by
    rw [UInt32.toNat_mul, UInt32.toNat_ofNat', hsize]
    omega
  rw [pageIndex_val, h]
  omega

end Process
end Jatos
