/-
# The frames of a program

`process_create_user_process` computes how many page frames the program and its
stack need and passes the number to `paging_allocate_check`, which expects bytes
and so asks for a single frame.  Then it maps two, whatever the number: at
`request.buf` and at the stack.

So the number of frames that is checked is never the number that is taken.  The
bytes of the program are mapped where they lie in one page, or in the two below
the kernel's half (`imageMapped_iff`).
-/

import Jatos.Process.Loading

namespace Jatos
namespace Process

variable {p : Placement} {k k' : Kernel} {request : ReadRequest} {slot : Fin 16} {i f g : Fin 32}
  {fuel : ℕ} {s s' : System}

/-- Every byte of the program, and the page of the stack, lies in an entry of the page
directory that is present and a user's; these have different frames; and the
program ends below the kernel's half. -/
structure ImageMapped (paging : Paging) (i : Fin 32) (request : ReadRequest) : Prop where
  bytes : ∀ a, request.buf.toNat ≤ a → a < request.buf.toNat + request.bufferSize.toNat →
    ∃ f, paging.userFrame (.listed i, pageIndex (UInt32.ofNat a)) = some f
  stack : ∃ f, paging.userFrame (.listed i, stackIndex) = some f
  distinct : ∀ j j' f, paging.userFrame (.listed i, j) = some f →
    paging.userFrame (.listed i, j') = some f → j = j'
  below : request.buf.toNat + request.bufferSize.toNat ≤ KERNEL_VIRTUAL_ADDRESS_BASE.toNat

/-- The program and the stack are mapped in the page directory of the new process. -/
def NewImageMapped (p : Placement) (k k' : Kernel) (request : ReadRequest) : Prop :=
  ∃ (slot : Fin 16) (i : Fin 32), slot.val = k.activeProcessCount.toNat ∧
    directoryOf p k' slot = some i ∧ ImageMapped k'.paging i request

/-- `required_pages` of the check. -/
def framesChecked (request : ReadRequest) : ℕ :=
  (ceilDiv request.pageFrameCountNeeded PAGE_FRAME_SIZE).toNat

/-- The frames that are not free any more. -/
def framesTaken (k k' : Kernel) : ℕ :=
  Bitmap.freeCount k.paging.pageFrameMap - Bitmap.freeCount k'.paging.pageFrameMap

/-- The program is mapped, and as many frames were checked as were taken. -/
structure FullyMapped (p : Placement) (k k' : Kernel) (request : ReadRequest) : Prop where
  image : NewImageMapped p k k' request
  checked : framesTaken k k' ≤ framesChecked request

/-- The program lies in one page, or in the last two below the kernel's half. -/
def FitsPages (request : ReadRequest) : Prop :=
  let first := request.buf.toNat / PAGE_FRAME_SIZE.toNat
  let last := (request.buf.toNat + request.bufferSize.toNat - 1) / PAGE_FRAME_SIZE.toNat
  request.bufferSize = 0 ∨ last = first ∨ first = 0x2FE ∧ last = 0x2FF

instance : Decidable (FitsPages request) :=
  inferInstanceAs (Decidable (_ ∨ _ ∨ _ ∧ _))

/-! ### The pages of a program -/

/-- The stack is mapped by the last entry below the kernel's. -/
theorem stackIndex_val : stackIndex.val = 0x2FF := by
  rw [pageIndex_val]
  decide

/-- The page of a byte below the end of the address space. -/
theorem pageIndex_ofNat {a : ℕ} (ha : a < 2 ^ 32) :
    (pageIndex (UInt32.ofNat a)).val = a / 4194304 := by
  rw [pageIndex_val, UInt32.toNat_ofNat', Nat.mod_eq_of_lt ha]

/-- The pages that are mapped. -/
theorem created_mapped (h : Cleared k.paging) (ht : Taken k request slot i f g) (j : Fin 1024) :
    (∃ n, (k.created p request slot i f g).paging.userFrame (.listed i, j) = some n) ↔
      j.val = 0x2FF ∨ j.val = request.buf.toNat / 4194304 := by
  rw [created_userFrame_self h ht, ← stackIndex_val, ← pageIndex_val, Fin.val_inj, Fin.val_inj]
  split_ifs with hs hb
  · exact iff_of_true ⟨_, rfl⟩ (.inl hs)
  · exact iff_of_true ⟨_, rfl⟩ (.inr hb)
  · refine iff_of_false ?_ fun he => he.elim hs hb
    rintro ⟨n, hn⟩
    cases hn

/-- **When the image of an accepted program is mapped.** -/
theorem imageMapped_iff (h : Stocked k.paging) (hc : Cleared k.paging)
    (ht : Taken k request slot i f g) :
    ImageMapped (k.created p request slot i f g).paging i request ↔ FitsPages request := by
  have hmapped := created_mapped (p := p) hc ht
  have hbuf : request.buf.toNat < 3221225472 := UInt32.lt_iff_toNat_lt.1 ht.accepted.entrypoint
  have hbase : KERNEL_VIRTUAL_ADDRESS_BASE.toNat = 3221225472 := by decide
  have hframe : PAGE_FRAME_SIZE.toNat = 4194304 := by decide
  have hzero : request.bufferSize = 0 ↔ request.bufferSize.toNat = 0 := by
    rw [← UInt32.toNat_inj, UInt32.toNat_zero]
  unfold FitsPages
  rw [hframe, hzero]
  constructor
  · intro him
    have hbelow := hbase ▸ him.below
    have hpage : ∀ a, request.buf.toNat ≤ a → a < request.buf.toNat + request.bufferSize.toNat →
        a / 4194304 = 0x2FF ∨ a / 4194304 = request.buf.toNat / 4194304 := by
      intro a ha hlt
      have hm := (hmapped _).1 (him.bytes a ha hlt)
      rwa [pageIndex_ofNat (by omega)] at hm
    by_contra hnot
    -- the last byte lies in the page of the stack, and the page behind the first in neither
    have hlast := hpage (request.buf.toNat + request.bufferSize.toNat - 1) (by omega) (by omega)
    have hnext := hpage ((request.buf.toNat / 4194304 + 1) * 4194304) (by omega) (by omega)
    omega
  · intro hfit
    refine ⟨fun a ha hlt => (hmapped _).2 ?_, (hmapped _).2 (.inl stackIndex_val), ?_, ?_⟩
    · rw [pageIndex_ofNat (by omega)]
      omega
    · intro j j' n hj hj'
      have hunique := (h.created (p := p) ht).frames.exclusive.unique hj hj'
      exact (Prod.mk.inj hunique).2
    · omega

/-! ### One creation -/

/-- A creation that answers 0 has taken two frames and a page directory. -/
theorem System.create_success (h : Stocked s.kernel.paging)
    (hs : s.processCreateUserProcess fuel p request = some (PROCESS_CREATE_SUCCESS, s')) :
    ∃ slot i f g, Taken s.kernel request slot i f g ∧
      s'.kernel = s.kernel.created p request slot i f g := by
  by_cases ha : Accepted s.kernel request
  · rw [System.create_accepted ha] at hs
    rcases Nat.eq_zero_or_pos (Bitmap.freeCount s.kernel.paging.pageFrameMap) with hzero | hone
    · rw [create_starved ha hzero] at hs
      cases hs
    · obtain ⟨slot, i, f, g, ht, hc⟩ := Process.create_accepted (p := p) h ha hone
      rw [hc, Option.bind_some] at hs
      obtain ⟨q, -, hq⟩ := Option.map_eq_some_iff.1 hs
      exact ⟨slot, i, f, g, ht, congrArg (fun r => r.2.kernel) hq.symm⟩
  · obtain ⟨code, href, hc⟩ := Process.create_refused (p := p) ha
    rw [System.create_refused ha, hc] at hs
    exact absurd (congrArg Prod.fst (Option.some.inj hs)) href.failed

/-- One creation. -/
theorem newImageMapped_iff (h : Stocked s.kernel.paging) (hc : Cleared s.kernel.paging)
    (hs : s.processCreateUserProcess fuel p request = some (PROCESS_CREATE_SUCCESS, s')) :
    ¬FullyMapped p s.kernel s'.kernel request ∧
      (NewImageMapped p s.kernel s'.kernel request ↔ FitsPages request) := by
  obtain ⟨slot, i, f, g, ht, heq⟩ := System.create_success h hs
  rw [heq]
  constructor
  · intro hfull
    have htwo : framesTaken s.kernel (s.kernel.created p request slot i f g) = 2 := by
      have hleft := freeCount_created (p := p) ht
      unfold framesTaken
      omega
    have hmax : request.pageFrameCountNeeded.toNat ≤ 8 :=
      UInt32.le_iff_toNat_le.1 ht.accepted.max
    have hone : framesChecked request ≤ 1 := ceilDiv_le_one (hmax.trans (by norm_num))
    have hle := hfull.checked
    omega
  · rw [← imageMapped_iff (p := p) h hc ht]
    have hdir : directoryOf p (s.kernel.created p request slot i f g) slot = some i := by
      rw [directoryOf_created, Function.update_self]
    constructor
    · rintro ⟨slot', i', hslot', hi', him⟩
      obtain rfl : slot' = slot := Fin.ext (hslot'.trans ht.slot.symm)
      obtain rfl := Option.some.inj (hi'.symm.trans hdir)
      exact him
    · exact fun him => ⟨slot, i, ht.slot, hdir, him⟩

/-- **No accepted image is fully mapped.**  In every state that the kernel reaches, by
any calls, switches and timer interrupts, and with any file system and memory, a
creation that answers 0 has taken more frames than were checked; the program and
the stack are mapped exactly if the program lies in one page, or in the last two
below the kernel's half. -/
theorem image_never (p : Placement) (events : List Event) : ∀ k₀ ∈ kernelSetup p, ∀ os k,
    Runs.run (handle p) events k₀ = some (os, k) → ∀ fuel fileSystem memory request s',
      System.processCreateUserProcess fuel p request ⟨k, fileSystem, memory⟩ =
          some (PROCESS_CREATE_SUCCESS, s') →
        ¬FullyMapped p k s'.kernel request ∧
          (NewImageMapped p k s'.kernel request ↔ FitsPages request) := by
  intro k₀ hk₀ os k hrun fuel fileSystem memory request s' hs
  obtain rfl := Option.some.inj ((kernelSetup_eq p).symm.trans hk₀)
  obtain ⟨hstocked, hcleared⟩ := stocked_of_run hrun
  exact newImageMapped_iff (s := ⟨k, fileSystem, memory⟩) hstocked hcleared hs

/-- A program without a name is created at the boot. -/
theorem boot_creates (size : UInt32)
    (ha : Accepted (Kernel.boot afterCode) { program with bufferSize := size }) :
    ∃ s', System.processCreateUserProcess 0 afterCode { program with bufferSize := size }
        ⟨Kernel.boot afterCode, Fat32.createFat32 Fat32.blank, fun _ => 0⟩ =
      some (PROCESS_CREATE_SUCCESS, s') := by
  have hone : 0 < Bitmap.freeCount (Kernel.boot afterCode).paging.pageFrameMap := by
    rw [freeCount_boot]
    decide
  obtain ⟨slot, i, f, g, -, hc⟩ :=
    System.create_returns (p := afterCode)
      (s := ⟨Kernel.boot afterCode, Fat32.createFat32 Fat32.blank, fun _ => 0⟩)
      (boot_invariant afterCode).stocked ha hone (Fat32.read_empty_name rfl)
  exact ⟨_, hc⟩

/-- A program of 1 MiB at the boot. -/
theorem image_never_sample : ∃ s',
    System.processCreateUserProcess 0 afterCode program
        ⟨Kernel.boot afterCode, Fat32.createFat32 Fat32.blank, fun _ => 0⟩ =
      some (PROCESS_CREATE_SUCCESS, s') ∧
    ¬FullyMapped afterCode (Kernel.boot afterCode) s'.kernel program ∧
      (NewImageMapped afterCode (Kernel.boot afterCode) s'.kernel program ↔
        FitsPages program) := by
  obtain ⟨s', hs⟩ := boot_creates 0x100000 (by decide +kernel)
  exact ⟨s', hs, image_never afterCode [] _ (kernelSetup_eq afterCode) [] _ rfl 0 _ _ program s' hs⟩

/-- A program of 5 MiB: its second page is not mapped either. -/
theorem not_fully_mapped_sample : ∃ s',
    System.processCreateUserProcess 0 afterCode { program with bufferSize := 0x500000 }
        ⟨Kernel.boot afterCode, Fat32.createFat32 Fat32.blank, fun _ => 0⟩ =
      some (PROCESS_CREATE_SUCCESS, s') ∧
    ¬FullyMapped afterCode (Kernel.boot afterCode) s'.kernel
        { program with bufferSize := 0x500000 } ∧
      ¬NewImageMapped afterCode (Kernel.boot afterCode) s'.kernel
        { program with bufferSize := 0x500000 } := by
  obtain ⟨s', hs⟩ := boot_creates 0x500000 (by decide +kernel)
  obtain ⟨hnot, hiff⟩ := newImageMapped_iff
    (s := ⟨Kernel.boot afterCode, Fat32.createFat32 Fat32.blank, fun _ => 0⟩)
    (boot_invariant afterCode).stocked (boot_ledger afterCode).clean hs
  exact ⟨s', hs, hnot, fun him => absurd (hiff.1 him) (by decide)⟩

end Process
end Jatos
