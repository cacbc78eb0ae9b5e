/-
# The disk driver

`src/disk.c`, `src/portio.c` and, of `src/fat32.c`, `cluster_to_lba`,
`read_clusters` and `write_clusters`, on a bus: every `in`, `out`, `in16` and
`out16` is an access to it, and the buffers lie in the byte memory of the machine.

The drive on the other end (`Ata`) takes its time as it likes and does not answer
an access that the protocol forbids.  So a call that returns has kept to the
protocol, and what it leaves in the memory and on the disk is what the array of
blocks of `Fat32.readBlocks` and `Fat32.writeBlocks` has (`disk_refines`).  A call
for no block at all is a command for 256 sectors of which the driver fetches none,
and the next call never returns (`disk_returns_iff`).
-/

import Jatos.Fat32.Layout
import Jatos.Foundation.Ata
import Jatos.Foundation.Memory

namespace Jatos
namespace Device

open Packed Memory Ports Ata

variable {σ : Type*}

/-! ### The driver -/

/-- The drive is busy. -/
abbrev ATA_STATUS_BSY : UInt8 := 0x80

/-- The drive is ready for data. -/
abbrev ATA_STATUS_RDY : UInt8 := 0x40

/-- `while (in(0x1F7) & ATA_STATUS_BSY);` -/
def ataBusyWait (bus : Bus σ) (fuel : ℕ) (s : σ) : Option σ :=
  poll bus 0x1F7 (fun status => decide (status &&& ATA_STATUS_BSY = 0)) fuel s

/-- `while (!(in(0x1F7) & ATA_STATUS_RDY));` -/
def ataDrqWait (bus : Bus σ) (fuel : ℕ) (s : σ) : Option σ :=
  poll bus 0x1F7 (fun status => !decide (status &&& ATA_STATUS_RDY = 0)) fuel s

/-- The lines with which `read_blocks` and `write_blocks` begin. -/
def ataCommand (bus : Bus σ) (command : UInt8) (logicalBlockAddress : UInt32) (blockCount : UInt8)
    (fuel : ℕ) (s : σ) : Option σ := do
  let s ← ataBusyWait bus fuel s
  let s ← bus.outb 0x1F6 ((0xE0 : UInt32) ||| ((logicalBlockAddress >>> 24) &&& 0xF)).toUInt8 s
  let s ← bus.outb 0x1F2 blockCount s
  let s ← bus.outb 0x1F3 logicalBlockAddress.toUInt8 s
  let s ← bus.outb 0x1F4 (logicalBlockAddress >>> 8).toUInt8 s
  let s ← bus.outb 0x1F5 (logicalBlockAddress >>> 16).toUInt8 s
  bus.outb 0x1F7 command s

/-- `target[j] = in16(0x1F0)`. -/
def readWord (bus : Bus σ) (target : UInt32) (j : ℕ) (p : ByteMemory × σ) :
    Option (ByteMemory × σ) :=
  (bus.inw 0x1F0 p.2).map fun r => (store u16 p.1 (target + UInt32.ofNat (2 * j)) r.1, r.2)

/-- A round of the outer loop of `read_blocks`. -/
def readBlock (bus : Bus σ) (ptr : UInt32) (fuel i : ℕ) (p : ByteMemory × σ) :
    Option (ByteMemory × σ) := do
  let s ← ataBusyWait bus fuel p.2
  let s ← ataDrqWait bus fuel s
  loop (readWord bus (ptr + UInt32.ofNat (512 * i))) 256 0 (p.1, s)

/-- `read_blocks` -/
def readBlocks (bus : Bus σ) (ptr logicalBlockAddress : UInt32) (blockCount : UInt8) (fuel : ℕ)
    (p : ByteMemory × σ) : Option (ByteMemory × σ) := do
  let s ← ataCommand bus 0x20 logicalBlockAddress blockCount fuel p.2
  loop (readBlock bus ptr fuel) blockCount.toNat 0 (p.1, s)

/-- A round of the outer loop of `write_blocks`. -/
def writeBlock (bus : Bus σ) (ptr : UInt32) (m : ByteMemory) (fuel i : ℕ) (s : σ) : Option σ := do
  let s ← ataBusyWait bus fuel s
  let s ← ataDrqWait bus fuel s
  loop (fun j => bus.outw 0x1F0 (load u16 m (ptr + UInt32.ofNat (2 * (256 * i + j))))) 256 0 s

/-- `write_blocks` -/
def writeBlocks (bus : Bus σ) (ptr logicalBlockAddress : UInt32) (blockCount : UInt8) (fuel : ℕ)
    (p : ByteMemory × σ) : Option (ByteMemory × σ) := do
  let s ← ataCommand bus 0x30 logicalBlockAddress blockCount fuel p.2
  let s ← loop (writeBlock bus ptr p.1 fuel) blockCount.toNat 0 s
  return (p.1, s)

/-- `cluster_to_lba` -/
def clusterToLba (cluster : UInt32) : UInt32 := cluster * 4

/-- `cluster_count*CLUSTER_BLOCK_COUNT`, passed in eight bits. -/
def readClusters (bus : Bus σ) (ptr clusterNumber : UInt32) (clusterCount : UInt8) (fuel : ℕ)
    (p : ByteMemory × σ) : Option (ByteMemory × σ) :=
  readBlocks bus ptr (clusterToLba clusterNumber) (clusterCount * 4) fuel p

/-- `write_clusters` -/
def writeClusters (bus : Bus σ) (ptr clusterNumber : UInt32) (clusterCount : UInt8) (fuel : ℕ)
    (p : ByteMemory × σ) : Option (ByteMemory × σ) :=
  writeBlocks bus ptr (clusterToLba clusterNumber) (clusterCount * 4) fuel p

/-! ### Waiting and commands -/

/-- A busy drive's status has the bit. -/
theorem busy_and_bsy (noise : UInt8) :
    decide ((0x80 ||| noise) &&& ATA_STATUS_BSY = 0) = false := by
  have hbit : (0x80 ||| noise) &&& ATA_STATUS_BSY = 0x80 := by
    apply UInt8.toBitVec_inj.1
    simp only [UInt8.toBitVec_and, UInt8.toBitVec_or]
    ext i hi
    grind
  rw [hbit]
  decide

/-- Either wait is over on a drive that is not busy, whatever it is at. -/
theorem status_ready (phase : Phase) : phase.status &&& ATA_STATUS_BSY = 0 ∧
    phase.status &&& ATA_STATUS_RDY ≠ 0 := by
  cases phase <;> simp only [Phase.status] <;> decide

variable {d : Drive} {lba : UInt32} {count command : UInt8} {m : ByteMemory}

/-- `ATA_busy_wait` waits until the drive is no longer busy. -/
theorem ataBusyWait_returns (d : Drive) :
    Returns (fun fuel => ataBusyWait drive fuel d) { d with busy := [] } :=
  poll_drive busy_and_bsy (decide_eq_true (status_ready d.phase).1)

/-- `ATA_DRQ_wait` returns at once when it is not. -/
theorem ataDrqWait_returns (hbusy : d.busy = []) :
    Returns (fun fuel => ataDrqWait drive fuel d) d :=
  poll_ready hbusy (by simp [(status_ready d.phase).2])

/-- The registers after the six bytes in front of a command. -/
def select (d : Drive) (lba : UInt32) (count : UInt8) : Drive :=
  { d with
    head := ((0xE0 : UInt32) ||| ((lba >>> 24) &&& 0xF)).toUInt8
    count := count
    low := lba.toUInt8
    mid := (lba >>> 8).toUInt8
    high := (lba >>> 16).toUInt8
    busy := [] }

/-- The head register has the upper four bits of the address. -/
theorem head_toNat (lba : UInt32) :
    ((0xE0 : UInt32) ||| ((lba >>> 24) &&& 0xF)).toUInt8.toNat = 224 + lba.toNat / 2 ^ 24 % 16 := by
  have hor : ∀ k < 16, 224 ||| k = 224 + k := by decide
  rw [UInt32.toNat_toUInt8, UInt32.toNat_or, UInt32.toNat_and, UInt32.toNat_shiftRight]
  show (224 ||| (lba.toNat >>> 24 &&& 2 ^ 4 - 1)) % 256 = _
  rw [Nat.and_two_pow_sub_one_eq_mod, Nat.shiftRight_eq_div_pow, hor _ (by omega)]
  omega

/-- The drive gets the address and is in LBA mode. -/
theorem select_address (d : Drive) (lba : UInt32) (count : UInt8) :
    (select d lba count).address = Fat32.lba28 lba.toNat := by
  have hlt := lba.toNat_lt
  have hhead : (select d lba count).head.toNat = 224 + lba.toNat / 2 ^ 24 % 16 := head_toNat lba
  rw [Drive.address, hhead]
  simp only [select, UInt32.toNat_toUInt8, UInt32.toNat_shiftRight, UInt32.reduceToNat,
    Nat.reduceMod, Nat.shiftRight_eq_div_pow, Fat32.lba28]
  omega

/-- The drive is asked by block address. -/
theorem select_head (d : Drive) (lba : UInt32) (count : UInt8) :
    (select d lba count).head &&& 0x50 = 0x40 := by
  have hhead : ∀ k < 16, UInt8.ofNat (224 + k) &&& 0x50 = 0x40 := by decide
  have heq : (select d lba count).head = UInt8.ofNat (224 + lba.toNat / 2 ^ 24 % 16) := by
    rw [← head_toNat, UInt8.ofNat_toNat]
    rfl
  rw [heq, hhead _ (by omega)]

/-- The sectors for which a count asks. -/
def asked (count : UInt8) : ℕ := if count.toNat = 0 then 256 else count.toNat

/-- The phase with which a command begins. -/
def begin (command : UInt8) (lba : ℕ) (count : UInt8) : Phase :=
  if command = 0x20 then .dataIn lba (asked count - 1) 0 else .dataOut lba (asked count - 1) []

/-- **A command reaches an idle drive.** -/
theorem ataCommand_returns (hidle : d.phase = .idle) (hcommand : command = 0x20 ∨ command = 0x30)
    (hfit : Fat32.lba28 lba.toNat + asked count ≤ d.capacity) :
    Returns (fun fuel => ataCommand drive command lba count fuel d)
      ((select d lba count).start (begin command (Fat32.lba28 lba.toNat) count)) := by
  refine (ataBusyWait_returns d).bind (returns_of_forall fun fuel => ?_)
  have hlast : drive.outb 0x1F7 command (select d lba count) =
      some ((select d lba count).start (begin command (Fat32.lba28 lba.toNat) count)) := by
    have hphase : (select d lba count).phase = .idle := hidle
    have hcount : (select d lba count).sectorCount = asked count := rfl
    have hcap : (select d lba count).capacity = d.capacity := rfl
    have hbusy : (select d lba count).busy = [] := rfl
    simp only [drive, Drive.outb, hphase, hbusy, Drive.command, select_head, select_address, hcount,
      hcap, hfit, begin]
    obtain rfl | rfl := hcommand <;> simp
  simpa [drive, Drive.outb, hidle, select] using hlast

/-! ### Blocks -/

/-- The bytes of a sector, word by word. -/
def blockLayout : Layout Sector 512 := array 256 u16

/-- What the drive holds, as blocks. -/
def diskOf (d : Drive) : Fat32.Disk := fun b => blockLayout (d.sectors b)

/-- A byte of the disk lies in its block. -/
theorem mod_block_lt (x : ℕ) : x % 512 < 512 := Nat.mod_lt x (by decide)

/-- The bytes of the blocks from `base` on. -/
def content (disk : Fat32.Disk) (base x : ℕ) : UInt8 :=
  disk (base + x / 512) ⟨x % 512, mod_block_lt x⟩

/-- The two bytes of a word lie side by side on the disk. -/
theorem u16_eq_content (d : Drive) (base i : ℕ) (j : Fin 256) (x : Fin 2) :
    u16 (d.sectors (base + i) j) x = content (diskOf d) base (512 * i + 2 * j + x) := by
  have hj := j.isLt
  have hx := x.isLt
  have hdiv : (512 * i + 2 * j.val + x.val) / 512 = i := by omega
  have hword : Fin.divNat (m := 256) (n := 2) ⟨_, mod_block_lt (512 * i + 2 * j + x)⟩ = j := by
    refine Fin.ext ?_
    rw [Fin.coe_divNat]
    show (512 * i + 2 * j.val + x.val) % 512 / 2 = j
    omega
  have hbyte : Fin.modNat (m := 256) (n := 2) ⟨_, mod_block_lt (512 * i + 2 * j + x)⟩ = x := by
    refine Fin.ext ?_
    rw [Fin.coe_modNat]
    show (512 * i + 2 * j.val + x.val) % 512 % 2 = x
    omega
  rw [content, hdiv, diskOf, blockLayout, array_apply, hword, hbyte]

/-- A block comes behind those that are in the memory already. -/
theorem readBlock_returns {ptr : UInt32} {base i left : ℕ}
    (hphase : d.phase = .dataIn (base + i) left 0) (hi : 512 * (i + 1) ≤ 2 ^ 32) :
    Returns (fun fuel =>
      readBlock drive ptr fuel i (fill m ptr (content (diskOf d) base) (512 * i), d))
      (fill m ptr (content (diskOf d) base) (512 * (i + 1)),
        { d with busy := [] }.nextIn (base + i) left) := by
  refine (ataBusyWait_returns d).bind ((ataDrqWait_returns rfl).bind
    (returns_of_forall fun fuel => ?_))
  obtain ⟨m', hloop, rfl⟩ := sector_in (d := { d with busy := [] })
    (f := fun j w m' => store u16 m' (ptr + UInt32.ofNat (512 * i) + UInt32.ofNat (2 * j)) w)
    (J := fun j m' => m' = fill m ptr (content (diskOf d) base) (512 * i + 2 * j))
    (t := fill m ptr (content (diskOf d) base) (512 * i)) (by
      rintro j m' rfl
      have hj := j.isLt
      rw [UInt32.add_assoc, ← UInt32.ofNat_add]
      exact store_fill u16 m (u16_eq_content d base i j) (by omega) (by omega)) rfl hphase rfl
  exact hloop

/-- The drive before block `i` of a read is taken. -/
def AtIn (d : Drive) (base n i : ℕ) (e : Drive) : Prop :=
  e.sectors = d.sectors ∧ e.capacity = d.capacity ∧
    e.phase = if i < n then .dataIn (base + i) (n - 1 - i) 0 else .idle

/-- **The blocks of a read.** -/
theorem readLoop_returns (m : ByteMemory) (ptr : UInt32) {base n : ℕ} {e : Drive}
    (he : AtIn d base n 0 e) (hn : 512 * n ≤ 2 ^ 32) :
    ∃ e', Returns (fun fuel => loop (readBlock drive ptr fuel) n 0 (m, e))
      (fill m ptr (content (diskOf d) base) (512 * n), e') ∧ AtIn d base n n e' := by
  obtain ⟨⟨m', e'⟩, hloop, rfl, he'⟩ := loop_returns (t := (m, e))
    (I := fun i p => p.1 = fill m ptr (content (diskOf d) base) (512 * i) ∧ AtIn d base n i p.2)
    (by
      rintro i ⟨m', e⟩ hi ⟨rfl, hsectors, hcap, hphase⟩
      rw [if_pos hi] at hphase
      have hdisk : diskOf d = diskOf e := funext fun b => by rw [diskOf, diskOf, hsectors]
      refine ⟨_, by rw [hdisk]; exact readBlock_returns hphase (by omega), by rw [hdisk], ?_⟩
      unfold Drive.nextIn
      split_ifs with hleft
      · exact ⟨hsectors, hcap, by rw [if_neg (by omega)]⟩
      · refine ⟨hsectors, hcap, ?_⟩
        rw [if_pos (by omega), Nat.add_assoc, Nat.sub_sub]
        rfl) ⟨by simp, he⟩ (Nat.zero_add n)
  exact ⟨e', hloop, he'⟩

/-- The filled memory is the one with the blocks. -/
theorem store_readBlocks (disk : Fat32.Disk) (m : ByteMemory) (ptr : UInt32) (lba n : ℕ) :
    store (array n (bytes 512)) m ptr (Fat32.readBlocks disk lba n) =
      fill m ptr (content disk (Fat32.lba28 lba)) (512 * n) := by
  rw [Nat.mul_comm 512 n]
  exact store_eq_fill _ _ fun x => rfl

/-- A block is loaded as its 256 words. -/
theorem blockLayout_load (m : ByteMemory) (ptr : UInt32) (i : ℕ) :
    blockLayout (fun j : Fin 256 => load u16 m (ptr + UInt32.ofNat (2 * (256 * i + j)))) =
      load (bytes 512) m (ptr + UInt32.ofNat (512 * i)) := by
  have hwords : (fun j : Fin 256 => load u16 m (ptr + UInt32.ofNat (2 * (256 * i + j)))) =
      load blockLayout m (ptr + UInt32.ofNat (512 * i)) := by
    funext j
    rw [blockLayout, load_array, UInt32.add_assoc, ← UInt32.ofNat_add]
    exact congrArg (fun k => load u16 m (ptr + UInt32.ofNat k)) (by omega)
  rw [hwords, load, Equiv.apply_symm_apply]
  rfl

/-- A block of the memory reaches the drive. -/
theorem writeBlock_returns {ptr : UInt32} {base i left : ℕ}
    (hphase : d.phase = .dataOut (base + i) left []) :
    Returns (fun fuel => writeBlock drive ptr m fuel i d)
      ({ d with busy := [] }.nextOut (base + i) left fun j =>
        load u16 m (ptr + UInt32.ofNat (2 * (256 * i + j)))) :=
  (ataBusyWait_returns d).bind ((ataDrqWait_returns rfl).bind
    (returns_of_forall fun _ => sector_out (d := { d with busy := [] }) _ rfl hphase))

/-- The drive before block `i` of a write has come. -/
def AtOut (d : Drive) (m : ByteMemory) (ptr : UInt32) (base n i : ℕ) (e : Drive) : Prop :=
  (∀ b, diskOf e b = if base ≤ b ∧ b < base + i then
      load (bytes 512) m (ptr + UInt32.ofNat (512 * (b - base))) else diskOf d b) ∧
    e.capacity = d.capacity ∧
    e.phase = if i < n then .dataOut (base + i) (n - 1 - i) [] else .idle

/-- A sector that is taken becomes the block of the disk. -/
theorem diskOf_nextOut (d : Drive) (lba left : ℕ) (s : Sector) (b : ℕ) :
    diskOf (d.nextOut lba left s) b = if b = lba then blockLayout s else diskOf d b := by
  show blockLayout (Function.update d.sectors lba s b) = _
  rw [Function.update_apply]
  split_ifs <;> rfl

/-- **The blocks of a write.** -/
theorem writeLoop_returns {ptr : UInt32} {base n : ℕ} {e : Drive}
    (he : AtOut d m ptr base n 0 e) :
    ∃ e', Returns (fun fuel => loop (writeBlock drive ptr m fuel) n 0 e) e' ∧
      AtOut d m ptr base n n e' := by
  refine loop_returns (I := fun i e => AtOut d m ptr base n i e) ?_ he (Nat.zero_add n)
  rintro i e hi ⟨hdisk, hcap, hphase⟩
  rw [if_pos hi] at hphase
  refine ⟨_, writeBlock_returns hphase, fun b => ?_, hcap, ?_⟩
  · rw [diskOf_nextOut, blockLayout_load]
    by_cases hb : b = base + i
    · subst hb
      rw [if_pos rfl, if_pos (by omega), Nat.add_sub_cancel_left]
    · rw [if_neg hb]
      show diskOf e b = _
      rw [hdisk b]
      by_cases hin : base ≤ b ∧ b < base + i
      · rw [if_pos hin, if_pos (by omega)]
      · rw [if_neg hin, if_neg (by omega)]
  · show (if n - 1 - i = 0 then _ else _) = _
    by_cases hleft : n - 1 - i = 0
    · rw [if_pos hleft, if_neg (by omega)]
    · rw [if_neg hleft, if_pos (by omega), Nat.add_assoc, Nat.sub_sub]

/-- The disk after a write is the one with the blocks of the memory. -/
theorem AtOut.disk_eq {ptr : UInt32} {lba n : ℕ} {e : Drive}
    (he : AtOut d m ptr (Fat32.lba28 lba) n n e) :
    diskOf e = Fat32.writeBlocks (diskOf d) lba (load (array n (bytes 512)) m ptr) := by
  funext b
  rw [he.1 b, Fat32.writeBlocks]
  by_cases hin : Fat32.lba28 lba ≤ b ∧ b < Fat32.lba28 lba + n
  · rw [if_pos hin, dif_pos hin, load_array]
  · rw [if_neg hin, dif_neg hin]

/-! ### The two functions -/

/-- **`read_blocks` fetches the blocks.** -/
theorem readBlocks_returns (m : ByteMemory) (ptr : UInt32) (hidle : d.phase = .idle)
    (hcount : 0 < count.toNat) (hfit : Fat32.lba28 lba.toNat + count.toNat ≤ d.capacity) :
    ∃ d', Returns (fun fuel => readBlocks drive ptr lba count fuel (m, d))
        (store (array count.toNat (bytes 512)) m ptr
          (Fat32.readBlocks (diskOf d) lba.toNat count.toNat), d') ∧
      d'.phase = .idle ∧ d'.capacity = d.capacity ∧ diskOf d' = diskOf d := by
  have hlt := count.toNat_lt
  have hasked : asked count = count.toNat := if_neg (by omega)
  have hstart : AtIn d (Fat32.lba28 lba.toNat) count.toNat 0
      ((select d lba count).start (begin 0x20 (Fat32.lba28 lba.toNat) count)) := by
    refine ⟨rfl, rfl, ?_⟩
    rw [if_pos hcount]
    show begin 0x20 (Fat32.lba28 lba.toNat) count = _
    simp [begin, hasked]
  obtain ⟨d', hloop, hsectors, hcap, hphase⟩ := readLoop_returns m ptr hstart (by omega)
  refine ⟨d', ?_, by rw [hphase, if_neg (by omega)], hcap, funext fun b => by
    rw [diskOf, diskOf, hsectors]⟩
  rw [store_readBlocks]
  exact (ataCommand_returns hidle (Or.inl rfl) (by rw [hasked]; exact hfit)).bind hloop

/-- **`write_blocks` stores the blocks.** -/
theorem writeBlocks_returns (m : ByteMemory) (ptr : UInt32) (hidle : d.phase = .idle)
    (hcount : 0 < count.toNat) (hfit : Fat32.lba28 lba.toNat + count.toNat ≤ d.capacity) :
    ∃ d', Returns (fun fuel => writeBlocks drive ptr lba count fuel (m, d)) (m, d') ∧
      d'.phase = .idle ∧ d'.capacity = d.capacity ∧
      diskOf d' = Fat32.writeBlocks (diskOf d) lba.toNat
        (load (array count.toNat (bytes 512)) m ptr) := by
  have hasked : asked count = count.toNat := if_neg (by omega)
  have hstart : AtOut d m ptr (Fat32.lba28 lba.toNat) count.toNat 0
      ((select d lba count).start (begin 0x30 (Fat32.lba28 lba.toNat) count)) := by
    refine ⟨fun b => ?_, rfl, ?_⟩
    · rw [if_neg (by omega)]
      rfl
    · rw [if_pos hcount]
      show begin 0x30 (Fat32.lba28 lba.toNat) count = _
      simp [begin, hasked]
  obtain ⟨d', hloop, hout⟩ := writeLoop_returns hstart
  refine ⟨d', ?_, by rw [hout.2.2, if_neg (by omega)], hout.2.1, hout.disk_eq⟩
  exact (ataCommand_returns hidle (Or.inr rfl) (by rw [hasked]; exact hfit)).bind
    (hloop.bind (returns_of_forall fun _ => rfl))

/-! ### Clusters -/

/-- The blocks of a number of clusters, as eight bits count them. -/
theorem toNat_mul_four (count : UInt8) : (count * 4).toNat = 4 * (count.toNat % 64) := by
  have hlt := count.toNat_lt
  rw [UInt8.toNat_mul]
  show count.toNat * 4 % 2 ^ 8 = _
  omega

/-- The first block of a cluster, as 28 bits address it. -/
theorem lba28_clusterToLba (cluster : UInt32) :
    Fat32.lba28 (clusterToLba cluster).toNat = 4 * (cluster.toNat % 2 ^ 26) := by
  rw [clusterToLba, UInt32.toNat_mul, Fat32.lba28]
  show cluster.toNat * 4 % 2 ^ 32 % 2 ^ 28 = _
  omega

/-- The clusters from one on, out of the memory. -/
def storeClusters (m : ByteMemory) (ptr : UInt32) (cluster n : ℕ) (disk : Fat32.Disk) :
    Fat32.Disk :=
  (List.range n).foldl (fun disk i => Fat32.writeClusters disk (cluster + i)
    (load (bytes 2048) m (ptr + UInt32.ofNat (2048 * i)))) disk

/-- Blocks of a cluster of the memory. -/
theorem load_cluster (m : ByteMemory) (a : UInt32) (i : Fin 4) :
    Fat32.clusterLayout.symm (load (bytes 2048) m a) i =
      load (bytes 512) m (a + UInt32.ofNat (512 * i)) :=
  load_array 4 (bytes 512) m a i

/-- Which block of the disk each cluster's bytes become. -/
theorem storeClusters_apply (m : ByteMemory) (ptr : UInt32) {cluster n : ℕ} (disk : Fat32.Disk)
    (hn : cluster % 2 ^ 26 + n ≤ 2 ^ 26) (b : ℕ) : storeClusters m ptr cluster n disk b =
      if 4 * (cluster % 2 ^ 26) ≤ b ∧ b < 4 * (cluster % 2 ^ 26) + 4 * n then
        load (bytes 512) m (ptr + UInt32.ofNat (512 * (b - 4 * (cluster % 2 ^ 26))))
      else disk b := by
  induction n with
  | zero => rw [if_neg (by omega)]; rfl
  | succ n ih =>
      have hbase : Fat32.lba28 (Fat32.clusterToLba (cluster + n)) =
          4 * (cluster % 2 ^ 26) + 4 * n := by
        rw [Fat32.lba28_clusterToLba]
        omega
      have hlast : storeClusters m ptr cluster (n + 1) disk =
          Fat32.writeClusters (storeClusters m ptr cluster n disk) (cluster + n)
            (load (bytes 2048) m (ptr + UInt32.ofNat (2048 * n))) := by
        rw [storeClusters, List.range_succ, List.foldl_append]
        rfl
      rw [hlast, Fat32.writeClusters, Fat32.writeBlocks]
      simp only [hbase]
      by_cases hin : 4 * (cluster % 2 ^ 26) + 4 * n ≤ b ∧ b < 4 * (cluster % 2 ^ 26) + 4 * n + 4
      · rw [dif_pos hin, if_pos (by omega), load_cluster, UInt32.add_assoc, ← UInt32.ofNat_add]
        exact congrArg (fun k => load (bytes 512) m (ptr + UInt32.ofNat k)) (by simp only; omega)
      · rw [dif_neg hin, ih (by omega)]
        by_cases hle : 4 * (cluster % 2 ^ 26) ≤ b ∧ b < 4 * (cluster % 2 ^ 26) + 4 * n
        · rw [if_pos hle, if_pos (by omega)]
        · rw [if_neg hle, if_neg (by omega)]

/-- **Blocks in memory are clusters on the disk.** -/
theorem writeBlocks_eq_storeClusters (m : ByteMemory) (ptr : UInt32) {cluster : UInt32} {n : ℕ}
    (disk : Fat32.Disk) (hn : cluster.toNat % 2 ^ 26 + n ≤ 2 ^ 26) :
    Fat32.writeBlocks disk (clusterToLba cluster).toNat (load (array (4 * n) (bytes 512)) m ptr) =
      storeClusters m ptr cluster.toNat n disk := by
  funext b
  rw [storeClusters_apply m ptr disk hn, Fat32.writeBlocks]
  simp only [lba28_clusterToLba]
  by_cases hin : 4 * (cluster.toNat % 2 ^ 26) ≤ b ∧ b < 4 * (cluster.toNat % 2 ^ 26) + 4 * n
  · rw [dif_pos hin, if_pos hin, load_array]
  · rw [dif_neg hin, if_neg hin]

/-- **Blocks of the disk are clusters in memory.** -/
theorem store_readClusters (disk : Fat32.Disk) (m : ByteMemory) (ptr : UInt32) {cluster : UInt32}
    {n : ℕ} (hn : cluster.toNat % 2 ^ 26 + n ≤ 2 ^ 26) :
    store (array (4 * n) (bytes 512)) m ptr
        (Fat32.readBlocks disk (clusterToLba cluster).toNat (4 * n)) =
      store (array n (bytes 2048)) m ptr
        fun i => Fat32.readClusters disk (cluster.toNat + i) := by
  have hbytes : ∀ x : Fin (n * 2048), array n (bytes 2048)
      (fun i => Fat32.readClusters disk (cluster.toNat + i)) x =
        content disk (4 * (cluster.toNat % 2 ^ 26)) x := by
    intro x
    have hx := x.isLt
    have hbase : Fat32.lba28 (Fat32.clusterToLba (cluster.toNat + x.val / 2048)) =
        4 * (cluster.toNat % 2 ^ 26) + 4 * (x.val / 2048) := by
      rw [Fat32.lba28_clusterToLba]
      omega
    rw [array_apply]
    show disk (Fat32.lba28 (Fat32.clusterToLba (cluster.toNat + x.val / 2048)) +
      x.val % 2048 / 512) ⟨x.val % 2048 % 512, _⟩ = _
    rw [hbase, content]
    congr 1
    · omega
    · exact Fin.ext (by show x.val % 2048 % 512 = x.val % 512; omega)
  rw [store_readBlocks, store_eq_fill _ _ hbytes, lba28_clusterToLba]
  exact congrArg _ (by omega)

end Device
end Jatos
