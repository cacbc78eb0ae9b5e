/-
# Runs of disk requests

The kernel calls `read_blocks`, `write_blocks`, `read_clusters` and
`write_clusters` in some order and works on its memory in between.  Whatever
time the drive takes for each, such a run is one of an array of blocks, unless a
call asks for no block: `cluster_count*CLUSTER_BLOCK_COUNT` has eight bits, and
is zero for 64 clusters.
-/

import Jatos.Device.Disk

namespace Jatos
namespace Device

open Packed Memory Ports Ata

variable {σ : Type*}

/-- What the kernel does with its memory and the disk. -/
inductive Call
  | work (f : ByteMemory → ByteMemory)
  | readBlocks (ptr logicalBlockAddress : UInt32) (blockCount : UInt8)
  | writeBlocks (ptr logicalBlockAddress : UInt32) (blockCount : UInt8)
  | readClusters (ptr clusterNumber : UInt32) (clusterCount : UInt8)
  | writeClusters (ptr clusterNumber : UInt32) (clusterCount : UInt8)

/-- One call of the driver. -/
def Call.exec (bus : Bus σ) (fuel : ℕ) (p : ByteMemory × σ) : Call → Option (ByteMemory × σ)
  | .work f => some (f p.1, p.2)
  | .readBlocks ptr lba n => Device.readBlocks bus ptr lba n fuel p
  | .writeBlocks ptr lba n => Device.writeBlocks bus ptr lba n fuel p
  | .readClusters ptr c n => Device.readClusters bus ptr c n fuel p
  | .writeClusters ptr c n => Device.writeClusters bus ptr c n fuel p

/-- Calls of the driver, one after the other. -/
def run (bus : Bus σ) (fuel : ℕ) (calls : List Call) (p : ByteMemory × σ) :
    Option (ByteMemory × σ) :=
  calls.foldlM (Call.exec bus fuel) p

/-- What a call is for, on an array of blocks. -/
def Call.effect (p : ByteMemory × Fat32.Disk) : Call → ByteMemory × Fat32.Disk
  | .work f => (f p.1, p.2)
  | .readBlocks ptr lba n =>
      (store (array n.toNat (bytes 512)) p.1 ptr (Fat32.readBlocks p.2 lba.toNat n.toNat), p.2)
  | .writeBlocks ptr lba n =>
      (p.1, Fat32.writeBlocks p.2 lba.toNat (load (array n.toNat (bytes 512)) p.1 ptr))
  | .readClusters ptr c n =>
      (store (array (n.toNat % 64) (bytes 2048)) p.1 ptr
        fun i => Fat32.readClusters p.2 (c.toNat + i), p.2)
  | .writeClusters ptr c n => (p.1, storeClusters p.1 ptr c.toNat (n.toNat % 64) p.2)

/-- The first block of a transfer and the count that the drive gets. -/
def Call.blocks : Call → Option (ℕ × UInt8)
  | .work _ => none
  | .readBlocks _ lba n => some (Fat32.lba28 lba.toNat, n)
  | .writeBlocks _ lba n => some (Fat32.lba28 lba.toNat, n)
  | .readClusters _ c n => some (Fat32.lba28 (clusterToLba c).toNat, n * 4)
  | .writeClusters _ c n => some (Fat32.lba28 (clusterToLba c).toNat, n * 4)

/-- The drive has the sectors that the call asks for. -/
def Call.Within (capacity : ℕ) (c : Call) : Prop :=
  ∀ r, c.blocks = some r → r.1 + asked r.2 ≤ capacity

/-- The call asks for no block. -/
def Call.Empty (c : Call) : Prop := ∃ r, c.blocks = some r ∧ r.2.toNat = 0

variable {d : Drive} {m : ByteMemory} {c : Call} {calls : List Call}

/-- **A call that asks for some block.** -/
theorem Call.exec_returns (hidle : d.phase = .idle) (hwithin : c.Within d.capacity)
    (hsome : ¬c.Empty) :
    ∃ d', Returns (fun fuel => c.exec drive fuel (m, d)) ((c.effect (m, diskOf d)).1, d') ∧
      d'.phase = .idle ∧ d'.capacity = d.capacity ∧ diskOf d' = (c.effect (m, diskOf d)).2 := by
  have hcount : ∀ {lba count}, c.blocks = some (lba, count) →
      0 < count.toNat ∧ lba + count.toNat ≤ d.capacity := by
    intro lba count hc
    have hpos : 0 < count.toNat := Nat.pos_of_ne_zero fun h => hsome ⟨_, hc, h⟩
    have hfit := hwithin _ hc
    have hasked : asked count = count.toNat := if_neg (by omega)
    exact ⟨hpos, by rw [← hasked]; exact hfit⟩
  have hcap := d.capacity_le
  cases c with
  | work f => exact ⟨d, returns_of_forall fun _ => rfl, hidle, rfl, rfl⟩
  | readBlocks ptr lba n =>
      obtain ⟨hpos, hfit⟩ := hcount rfl
      exact readBlocks_returns m ptr hidle hpos hfit
  | writeBlocks ptr lba n =>
      obtain ⟨hpos, hfit⟩ := hcount rfl
      exact writeBlocks_returns m ptr hidle hpos hfit
  | readClusters ptr cl n =>
      obtain ⟨hpos, hfit⟩ := hcount rfl
      obtain ⟨d', hret, hrest⟩ := readBlocks_returns m ptr hidle hpos hfit
      refine ⟨d', ?_, hrest⟩
      rw [lba28_clusterToLba, toNat_mul_four] at hfit
      rw [toNat_mul_four, store_readClusters _ _ _ (by omega)] at hret
      exact hret
  | writeClusters ptr cl n =>
      obtain ⟨hpos, hfit⟩ := hcount rfl
      obtain ⟨d', hret, hphase, hcapacity, hdisk⟩ :=
        writeBlocks_returns m ptr hidle hpos hfit
      refine ⟨d', hret, hphase, hcapacity, ?_⟩
      rw [lba28_clusterToLba, toNat_mul_four] at hfit
      rw [toNat_mul_four, writeBlocks_eq_storeClusters _ _ _ (by omega)] at hdisk
      exact hdisk

/-- **Any run of requests is a run of an array of blocks.**  From an idle drive, whatever it
shows while it is busy and for however long, every list of calls within the drive that
each ask for some block comes to its end without a breach of the protocol; memory and disk
are then those to which the calls take the memory and the blocks that were there. -/
theorem disk_refines (hidle : d.phase = .idle)
    (hcalls : ∀ c ∈ calls, c.Within d.capacity ∧ ¬c.Empty) :
    ∃ d', Returns (fun fuel => run drive fuel calls (m, d))
        ((calls.foldl Call.effect (m, diskOf d)).1, d') ∧
      d'.phase = .idle ∧ diskOf d' = (calls.foldl Call.effect (m, diskOf d)).2 := by
  induction calls generalizing m d with
  | nil => exact ⟨d, returns_of_forall fun _ => rfl, hidle, rfl⟩
  | cons c calls ih =>
      obtain ⟨hc, hrest⟩ := List.forall_mem_cons.1 hcalls
      obtain ⟨d', hret, hidle', hcap, hdisk⟩ := Call.exec_returns (m := m) hidle hc.1 hc.2
      obtain ⟨d'', hret', hidle'', hdisk'⟩ :=
        ih (m := (c.effect (m, diskOf d)).1) hidle' fun c hc => by rw [hcap]; exact hrest c hc
      rw [hdisk] at hret' hdisk'
      exact ⟨d'', hret.bind hret', hidle'', hdisk'⟩

/-- A drive that shows `RDY` while it is still busy. -/
def slowDrive : Drive :=
  ⟨fun _ _ => 0, 2 ^ 28, le_rfl, 0, 0, 0, 0, 0, .idle, [0xFF, 0x40], fun i => [0x48, UInt8.ofNat i]⟩

/-- The cluster that is written is there after the memory is gone. -/
theorem disk_refines_sample : ∃ d',
    Returns (fun fuel => run drive fuel [.writeClusters 0x1000 2 1, .work fun _ _ => 0,
        .readClusters 0x5000 2 1] (fun x => x.toUInt8, slowDrive))
      ((([.writeClusters 0x1000 2 1, .work fun _ _ => 0, .readClusters 0x5000 2 1] :
        List Call).foldl Call.effect (fun x => x.toUInt8, diskOf slowDrive)).1, d') ∧
    d'.phase = .idle ∧ diskOf d' = (([.writeClusters 0x1000 2 1, .work fun _ _ => 0,
      .readClusters 0x5000 2 1] : List Call).foldl Call.effect
        (fun x => x.toUInt8, diskOf slowDrive)).2 := by
  refine disk_refines rfl ?_
  simp [Call.Within, Call.Empty, Call.blocks, slowDrive, Fat32.lba28, asked, clusterToLba]

/-! ### Calls for no block -/

/-- A read for no block leaves 256 sectors to be fetched. -/
theorem readBlocks_zero {ptr lba : UInt32} {count : UInt8} (hidle : d.phase = .idle)
    (hzero : count.toNat = 0) (hfit : Fat32.lba28 lba.toNat + asked count ≤ d.capacity) :
    Returns (fun fuel => Device.readBlocks drive ptr lba count fuel (m, d))
      (m, (select d lba count).start (begin 0x20 (Fat32.lba28 lba.toNat) count)) := by
  refine (ataCommand_returns hidle (Or.inl rfl) hfit).bind (returns_of_forall fun fuel => ?_)
  rw [hzero]
  rfl

/-- A write for no block leaves 256 sectors to be sent. -/
theorem writeBlocks_zero {ptr lba : UInt32} {count : UInt8} (hidle : d.phase = .idle)
    (hzero : count.toNat = 0) (hfit : Fat32.lba28 lba.toNat + asked count ≤ d.capacity) :
    Returns (fun fuel => Device.writeBlocks drive ptr lba count fuel (m, d))
      (m, (select d lba count).start (begin 0x30 (Fat32.lba28 lba.toNat) count)) := by
  refine (ataCommand_returns hidle (Or.inr rfl) hfit).bind (returns_of_forall fun fuel => ?_)
  rw [hzero]
  rfl

/-- A command that begins leaves the drive waiting for data. -/
theorem start_begin (d : Drive) (command : UInt8) (lba : ℕ) (count : UInt8) :
    (d.start (begin command lba count)).phase ≠ .idle := by
  show begin command lba count ≠ .idle
  unfold begin
  split_ifs <;> simp

/-- A call for no block leaves the drive waiting. -/
theorem Call.Empty.exec_returns (hidle : d.phase = .idle) (hwithin : c.Within d.capacity)
    (hempty : c.Empty) :
    ∃ d', Returns (fun fuel => c.exec drive fuel (m, d)) (m, d') ∧ d'.phase ≠ .idle := by
  obtain ⟨r, hr, hzero⟩ := hempty
  have hfit := hwithin r hr
  cases c with
  | work f => simp [Call.blocks] at hr
  | readBlocks ptr lba n =>
      obtain rfl := Option.some.inj hr
      exact ⟨_, readBlocks_zero hidle hzero hfit, start_begin _ _ _ _⟩
  | writeBlocks ptr lba n =>
      obtain rfl := Option.some.inj hr
      exact ⟨_, writeBlocks_zero hidle hzero hfit, start_begin _ _ _ _⟩
  | readClusters ptr cl n =>
      obtain rfl := Option.some.inj hr
      exact ⟨_, readBlocks_zero hidle hzero hfit, start_begin _ _ _ _⟩
  | writeClusters ptr cl n =>
      obtain rfl := Option.some.inj hr
      exact ⟨_, writeBlocks_zero hidle hzero hfit, start_begin _ _ _ _⟩

/-- In the middle of a transfer the drive does not take a command. -/
theorem ataCommand_pending {command : UInt8} {lba : UInt32} {count : UInt8}
    (hpending : d.phase ≠ .idle) (fuel : ℕ) :
    ataCommand drive command lba count fuel d = none := by
  rw [ataCommand]
  cases hwait : ataBusyWait drive fuel d with
  | none => rfl
  | some d' =>
      have hphase : d'.phase ≠ .idle := by rw [poll_phase hwait]; exact hpending
      show (drive.outb _ _ d').bind _ = none
      rw [outb_pending hphase]
      rfl

/-- A call that finds the drive waiting does not return. -/
theorem Call.exec_pending (hpending : d.phase ≠ .idle) (hc : c.blocks ≠ none) (fuel : ℕ) :
    c.exec drive fuel (m, d) = none := by
  have hread : ∀ {ptr lba : UInt32} {count : UInt8},
      Device.readBlocks drive ptr lba count fuel (m, d) = none := by
    intro ptr lba count
    rw [Device.readBlocks, ataCommand_pending hpending]
    rfl
  have hwrite : ∀ {ptr lba : UInt32} {count : UInt8},
      Device.writeBlocks drive ptr lba count fuel (m, d) = none := by
    intro ptr lba count
    rw [Device.writeBlocks, ataCommand_pending hpending]
    rfl
  cases c with
  | work f => exact absurd rfl hc
  | readBlocks ptr lba n => exact hread
  | writeBlocks ptr lba n => exact hwrite
  | readClusters ptr cl n => exact hread
  | writeClusters ptr cl n => exact hwrite

/-- From the middle of a transfer a run returns if it leaves the disk alone. -/
theorem run_pending_iff (hpending : d.phase ≠ .idle) :
    (∃ r, Returns (fun fuel => run drive fuel calls (m, d)) r) ↔ ∀ c ∈ calls, c.blocks = none := by
  induction calls generalizing m with
  | nil => simpa using ⟨m, d, returns_of_forall fun _ => rfl⟩
  | cons c calls ih =>
      rw [List.forall_mem_cons]
      by_cases hc : c.blocks = none
      · obtain ⟨f, rfl⟩ : ∃ f, c = .work f := by
          cases c <;> simp_all [Call.blocks]
        have hstep : Returns (fun fuel => (Call.work f).exec drive fuel (m, d)) (f m, d) :=
          returns_of_forall fun _ => rfl
        exact (hstep.bind_iff (g := fun fuel => run drive fuel calls)).trans (by simp [ih, hc])
      · refine ⟨?_, fun h => absurd h.1 hc⟩
        rintro ⟨r, hr⟩
        refine absurd (fun fuel => ?_) hr.not_none
        show (c.exec drive fuel (m, d)).bind _ = none
        rw [Call.exec_pending hpending hc]
        rfl

/-- **A call for no block ends the use of the disk.**  Over every list of calls within the
drive: the run returns exactly if no transfer comes after one that asks for no block. -/
theorem disk_returns_iff (hidle : d.phase = .idle) (hwithin : ∀ c ∈ calls, c.Within d.capacity) :
    (∃ r, Returns (fun fuel => run drive fuel calls (m, d)) r) ↔
      calls.Pairwise fun c c' => c.Empty → c'.blocks = none := by
  induction calls generalizing m d with
  | nil => simpa using ⟨m, d, returns_of_forall fun _ => rfl⟩
  | cons c calls ih =>
      obtain ⟨hc, hrest⟩ := List.forall_mem_cons.1 hwithin
      rw [List.pairwise_cons]
      by_cases hempty : c.Empty
      · obtain ⟨d', hret, hpending⟩ := hempty.exec_returns (m := m) hidle hc
        refine (hret.bind_iff (g := fun fuel => run drive fuel calls)).trans ?_
        rw [run_pending_iff hpending]
        refine ⟨fun h => ⟨fun c' hc' _ => h c' hc', ?_⟩, fun h c' hc' => h.1 c' hc' hempty⟩
        exact List.pairwise_of_forall_mem_list fun a _ b hb _ => h b hb
      · obtain ⟨d', hret, hidle', hcap, -⟩ := Call.exec_returns (m := m) hidle hc hempty
        refine (hret.bind_iff (g := fun fuel => run drive fuel calls)).trans ?_
        rw [ih hidle' fun c hc => by rw [hcap]; exact hrest c hc]
        simp [hempty]

/-- Sixty-four clusters are no block. -/
theorem disk_returns_iff_sample : ¬∃ r, Returns (fun fuel =>
    run drive fuel [.readClusters 0 2 64, .readClusters 0 2 1] (fun _ => 0, slowDrive)) r := by
  refine fun h => absurd ((disk_returns_iff rfl ?_).1 h) ?_
  · simp [Call.Within, Call.blocks, slowDrive, Fat32.lba28, asked, clusterToLba]
  · simp [Call.Empty, Call.blocks]

end Device
end Jatos
