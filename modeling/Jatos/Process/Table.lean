/-
# The process table in use

`process_create_user_process` puts the new process into the slot that
`active_process_count` names.  There is a search for a free slot,
`process_list_get_inactive_index`, but nothing calls it and nothing sets the
array it reads, so the count names a free slot only while the processes fill an
initial segment of the table.  A creation that comes after the destruction of a
process in front of another one replaces the latter.
-/

import Jatos.Process.Ledger

namespace Jatos
namespace Process

variable {p : Placement} {k k' : Kernel} {c : Call} {a : Answer} {request : ReadRequest}
  {slot : Fin 16}

/-- The table counts its processes, and each carries the number of its slot. -/
structure Consistent (k : Kernel) : Prop where
  counted : k.activeProcessCount.toNat = k.liveSlots.card
  numbered : ∀ slot, (k.processList slot).Live → (k.processList slot).pid.toNat = slot
  distinct : ∀ slot slot', (k.processList slot).Live → (k.processList slot').Live →
    (k.processList slot).pid = (k.processList slot').pid → slot = slot'

/-- Fewer than 16 processes are live, the entry point is a user's, and the frames that
the code asks for, and the two that it takes, are free. -/
structure Room (k : Kernel) (request : ReadRequest) : Prop where
  slots : k.liveSlots.card < 16
  entrypoint : request.buf < KERNEL_VIRTUAL_ADDRESS_BASE
  max : request.pageFrameCountNeeded ≤ PROCESS_PAGE_FRAME_COUNT_MAX
  frames : request.pageFrameCountNeeded.toNat ≤ Bitmap.freeCount k.paging.pageFrameMap
  two : 2 ≤ Bitmap.freeCount k.paging.pageFrameMap

/-- What a call does to the processes that are live: a creation writes into none of
their slots, and into a free one if there is room. -/
def KeepsLive (k : Kernel) : Call → Answer → Kernel → Prop
  | .create request, a, k' =>
      (∀ slot, (k.processList slot).Live → k'.processList slot = k.processList slot) ∧
      (Room k request → a = .created PROCESS_CREATE_SUCCESS ∧
        ∃ slot, ¬(k.processList slot).Live ∧ (k'.processList slot).Live)
  | .destroy _, _, _ => True

/-- The call returns, leaves the table consistent and keeps the live processes. -/
def TableKept (p : Placement) (k : Kernel) (c : Call) : Prop :=
  ∃ r ∈ serve p c k, Consistent r.2 ∧ KeepsLive k c r.1 r.2

/-- A destruction names a live process. -/
def OnLive (k : Kernel) : Call → Prop
  | .create _ => True
  | .destroy pid => ∃ slot, (k.processList slot).Live ∧ (k.processList slot).pid = pid

/-- A creation that passes the checks finds a free frame, and no process in the slot
that the count names. -/
def CountIsFree (k : Kernel) : Call → Prop
  | .create request => Accepted k request → 0 < Bitmap.freeCount k.paging.pageFrameMap ∧
      ∀ slot : Fin 16, slot.val = k.activeProcessCount.toNat → ¬(k.processList slot).Live
  | .destroy _ => True

instance : Decidable (Consistent k) :=
  decidable_of_iff (k.activeProcessCount.toNat = k.liveSlots.card ∧
      (∀ slot, (k.processList slot).Live → (k.processList slot).pid.toNat = slot) ∧
      ∀ slot slot', (k.processList slot).Live → (k.processList slot').Live →
        (k.processList slot).pid = (k.processList slot').pid → slot = slot')
    ⟨fun ⟨h₁, h₂, h₃⟩ => ⟨h₁, h₂, h₃⟩, fun h => ⟨h.counted, h.numbered, h.distinct⟩⟩

instance : Decidable (Room k request) :=
  decidable_of_iff (k.liveSlots.card < 16 ∧ request.buf < KERNEL_VIRTUAL_ADDRESS_BASE ∧
      request.pageFrameCountNeeded ≤ PROCESS_PAGE_FRAME_COUNT_MAX ∧
      request.pageFrameCountNeeded.toNat ≤ Bitmap.freeCount k.paging.pageFrameMap ∧
      2 ≤ Bitmap.freeCount k.paging.pageFrameMap)
    ⟨fun ⟨h₁, h₂, h₃, h₄, h₅⟩ => ⟨h₁, h₂, h₃, h₄, h₅⟩,
      fun h => ⟨h.slots, h.entrypoint, h.max, h.frames, h.two⟩⟩

instance (a : Answer) (k' : Kernel) : (c : Call) → Decidable (KeepsLive k c a k')
  | .create request => inferInstanceAs (Decidable (
      (∀ slot, (k.processList slot).Live → k'.processList slot = k.processList slot) ∧
      (Room k request → a = .created PROCESS_CREATE_SUCCESS ∧
        ∃ slot, ¬(k.processList slot).Live ∧ (k'.processList slot).Live)))
  | .destroy _ => isTrue trivial

instance : Decidable (TableKept p k c) :=
  inferInstanceAs (Decidable (∃ r ∈ serve p c k, Consistent r.2 ∧ KeepsLive k c r.1 r.2))

instance : (c : Call) → Decidable (OnLive k c)
  | .create _ => isTrue trivial
  | .destroy pid => inferInstanceAs
      (Decidable (∃ slot, (k.processList slot).Live ∧ (k.processList slot).pid = pid))

instance : (c : Call) → Decidable (CountIsFree k c)
  | .create request => inferInstanceAs (Decidable (Accepted k request →
      0 < Bitmap.freeCount k.paging.pageFrameMap ∧
        ∀ slot : Fin 16, slot.val = k.activeProcessCount.toNat → ¬(k.processList slot).Live))
  | .destroy _ => isTrue trivial

/-! ### One call -/

/-- Where there is room the code creates. -/
theorem Room.accepted (h : Frames k.paging) (hc : Consistent k) (hr : Room k request) :
    Accepted k request where
  count := hc.counted ▸ hr.slots
  entrypoint := hr.entrypoint
  check := allocateCheck_of_pos h (Nat.lt_of_lt_of_le Nat.two_pos hr.two) hr.max
  max := hr.max

/-- A creation into a slot without a process. -/
theorem Consistent.created {i f g : Fin 32} (hl : Ledger p k) (h : Consistent k)
    (ht : Taken k request slot i f g) (hfree : ¬(k.processList slot).Live) :
    Consistent (k.created p request slot i f g) := by
  have hnumbered := fun slot' => ((hl.created ht).numbered slot').live
  refine ⟨?_, hnumbered, fun slot₁ slot₂ h₁ h₂ he => ?_⟩
  · have hcount := ht.accepted.count
    have hslots : (k.created p request slot i f g).liveSlots = insert slot k.liveSlots :=
      liveSlots_insert rfl (live_setUp _ _ _ _)
    rw [hslots, Finset.card_insert_of_notMem fun hm => hfree (mem_liveSlots.1 hm), ← h.counted]
    show (k.activeProcessCount + 1).toNat = _
    rw [UInt32.toNat_add, UInt32.toNat_one]
    omega
  · exact Fin.ext ((hnumbered slot₁ h₁).symm.trans (he ▸ hnumbered slot₂ h₂))

/-- The destruction of a process. -/
theorem Consistent.destroyed (hl : Ledger p k) (h : Consistent k)
    (hlive : (k.processList slot).Live) : Consistent (k.destroyed p slot) := by
  have hnumbered := fun slot' => ((hl.destroyed slot).numbered slot').live
  refine ⟨?_, hnumbered, fun slot₁ slot₂ h₁ h₂ he => ?_⟩
  · have hslots : (k.destroyed p slot).liveSlots = k.liveSlots.erase slot :=
      liveSlots_erase rfl not_live_zero
    have hmem := mem_liveSlots.2 hlive
    have hpos := Finset.card_pos.2 ⟨slot, hmem⟩
    rw [hslots, Finset.card_erase_of_mem hmem, ← h.counted]
    rw [← h.counted] at hpos
    have hone : (1 : UInt32) ≤ k.activeProcessCount := UInt32.le_iff_toNat_le.2 hpos
    show (k.activeProcessCount - 1).toNat = _
    rw [UInt32.toNat_sub_of_le _ _ hone, UInt32.toNat_one]
  · exact Fin.ext ((hnumbered slot₁ h₁).symm.trans (he ▸ hnumbered slot₂ h₂))

/-- A creation into the slot of a process replaces its page directory. -/
theorem created_replaces {i f g : Fin 32} (hl : Ledger p k) (ht : Taken k request slot i f g)
    (hlive : (k.processList slot).Live) :
    (k.created p request slot i f g).processList slot ≠ k.processList slot := by
  intro he
  obtain ⟨i', hi', hused⟩ := hl.directory hlive
  have hi : directoryOf p (k.created p request slot i f g) slot = some i := by
    rw [directoryOf_created, Function.update_self]
  unfold directoryOf at hi hi'
  rw [he, hi'] at hi
  rw [Option.some.inj hi, ht.directory] at hused
  exact Bool.noConfusion hused

/-- **A creation keeps the table** just when the slot that the count names is free. -/
theorem tableKept_create (hl : Ledger p k) (hc : Consistent k) (request : ReadRequest) :
    TableKept p k (.create request) ↔ CountIsFree k (.create request) := by
  rcases serve_create hl.kept.stocked request with ⟨hnone, ha, hzero⟩ | ⟨a, k', hs, hserved⟩
  · constructor
    · rintro ⟨r, hr, -⟩
      rw [hnone] at hr
      exact absurd hr (Option.not_mem_none r)
    · intro hfree
      exact absurd hzero (hfree ha).1.ne'
  · have hr : TableKept p k (.create request) ↔
        Consistent k' ∧ KeepsLive k (.create request) a k' := by
      unfold TableKept
      rw [hs]
      simp
    rw [hr]
    cases hserved with
    | refused hna =>
        refine ⟨fun _ ha => absurd ha hna, fun _ => ⟨hc, fun _ _ => rfl, fun hroom => ?_⟩⟩
        exact absurd (hroom.accepted hl.kept.frames hc) hna
    | @created _ slot i f g ht =>
        constructor
        · rintro ⟨-, hkeep, -⟩ -
          refine ⟨ht.freeCount_pos, fun slot' hslot' hlive => ?_⟩
          obtain rfl := Fin.ext (hslot'.trans ht.slot.symm)
          exact created_replaces hl ht hlive (hkeep _ hlive)
        · intro hfree
          have hdead := (hfree ht.accepted).2 _ ht.slot
          refine ⟨hc.created hl ht hdead, fun slot' hlive => ?_, fun _ => ⟨rfl, _, hdead, ?_⟩⟩
          · have hne : slot' ≠ slot := fun he => hdead (he ▸ hlive)
            exact Function.update_of_ne hne _ _
          · show ProcessControlBlock.Live (Function.update k.processList _ _ _)
            rw [Function.update_self]
            exact live_setUp _ _ _ _

/-- The destruction of a live process keeps the table. -/
theorem tableKept_destroy (hl : Ledger p k) (hc : Consistent k) {pid : UInt32}
    (hlive : OnLive k (.destroy pid)) : TableKept p k (.destroy pid) := by
  obtain ⟨slot, hlive, hpid⟩ := hlive
  have hslot : slot.val = pid.toNat := hpid ▸ ((hl.numbered slot).live hlive).symm
  refine ⟨(.destroyed true, k.destroyed p slot), ?_, hc.destroyed hl hlive, trivial⟩
  rw [serve, destroy_found hl.kept.pid hslot (hl.unlisted slot) hpid]
  rfl

/-! ### Runs -/

/-- The table is consistent at the boot. -/
theorem boot_consistent (p : Placement) : Consistent (Kernel.boot p) where
  counted := by
    have hempty : (Kernel.boot p).liveSlots = ∅ :=
      Finset.filter_false_of_mem fun _ _ => not_live_zero
    rw [hempty]
    rfl
  numbered _ hl := absurd hl not_live_zero
  distinct _ _ hl := absurd hl not_live_zero

/-- **The table is consistent exactly while the count names free slots.**  In every
sequence of creations, and destructions of live processes, from the boot, every call
keeps the table just when every creation that passes the checks comes at a time when
the slot that `active_process_count` names holds no process. -/
theorem table_kept_iff (p : Placement) (calls : List Call) :
    ∀ k₀ ∈ kernelSetup p, Runs.Guarded (serve p) OnLive calls k₀ →
      (Runs.Guarded (serve p) (TableKept p) calls k₀ ↔
        Runs.Guarded (serve p) CountIsFree calls k₀) := by
  intro k₀ hk hd
  obtain rfl := Option.some.inj ((kernelSetup_eq p).symm.trans hk)
  refine Runs.guarded_iff (fun k c (hk : Ledger p k ∧ Consistent k) hlive => ?_) ?_
    ⟨boot_ledger p, boot_consistent p⟩ hd
  · obtain ⟨hl, hc⟩ := hk
    match c with
    | .create request => exact tableKept_create hl hc request
    | .destroy pid => exact iff_of_true (tableKept_destroy hl hc hlive) trivial
  · rintro k c a k' ⟨hl, -⟩ - ⟨r, hr, hc, -⟩ hs
    obtain rfl := Option.some.inj (hr.symm.trans hs)
    exact ⟨hl.served hs, hc⟩

/-- Two processes, of which the second is destroyed: the next one takes its slot. -/
theorem table_kept_iff_sample :
    Runs.Guarded (serve afterCode) (TableKept afterCode)
      [.create program, .create program, .destroy 1, .create program] (Kernel.boot afterCode) :=
  (table_kept_iff afterCode _ _ (kernelSetup_eq afterCode) (by decide +kernel)).2
    (by decide +kernel)

/-- Two processes, of which the first is destroyed: the next one replaces the second,
which is the only one left. -/
theorem not_table_kept_sample :
    Runs.Guarded (serve afterCode) OnLive
        [.create program, .create program, .destroy 0, .create program] (Kernel.boot afterCode) ∧
      ¬Runs.Guarded (serve afterCode) (TableKept afterCode)
        [.create program, .create program, .destroy 0, .create program]
        (Kernel.boot afterCode) := by
  decide +kernel

end Process
end Jatos
