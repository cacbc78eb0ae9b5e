/-
# The disk of the inserter

`read_blocks` and `write_blocks` of `src/external-inserter.c`, which is linked with the
kernel's `src/fat32.c` in place of `src/disk.c`.  Its disk is `image_storage`, 4 MiB on
the heap that are the file of the drive; an access behind them is answered by nothing
here.

On the image, calls do to the memory and to the blocks what they do through the
driver to a drive with the same blocks (`image_agrees`), so that what either program
writes the other one reads.  A call for no block is harmless here.
-/

import Jatos.Device.Requests

namespace Jatos
namespace Device

open Packed Memory Ports Ata

/-- The bytes of the image. -/
abbrev IMAGE_SIZE : ℕ := 4 * 1024 * 1024

/-- The bytes from `image_storage` on. -/
abbrev Image := ℕ → UInt8

/-- `BLOCK_SIZE*(logical_block_address+i)`, in 32 bits. -/
def imageOffset (logicalBlockAddress : UInt32) (i : ℕ) : ℕ :=
  (512 * (logicalBlockAddress + UInt32.ofNat i)).toNat

/-- What `memcpy` leaves of the image, of which it overwrites `n` bytes from one on. -/
def Image.fill (image : Image) (offset : ℕ) (c : ℕ → UInt8) (n : ℕ) : Image := fun x =>
  if offset ≤ x ∧ x < offset + n then c (x - offset) else image x

/-- A round of `read_blocks`. -/
def imageReadBlock (ptr logicalBlockAddress : UInt32) (i : ℕ) (p : ByteMemory × Image) :
    Option (ByteMemory × Image) :=
  let offset := imageOffset logicalBlockAddress i
  if offset + 512 ≤ IMAGE_SIZE then
    some (Memory.fill p.1 (ptr + UInt32.ofNat (512 * i)) (fun j => p.2 (offset + j)) 512, p.2)
  else none

/-- A round of `write_blocks`. -/
def imageWriteBlock (ptr logicalBlockAddress : UInt32) (i : ℕ) (p : ByteMemory × Image) :
    Option (ByteMemory × Image) :=
  let offset := imageOffset logicalBlockAddress i
  if offset + 512 ≤ IMAGE_SIZE then
    some (p.1, p.2.fill offset (fun j => p.1 (ptr + UInt32.ofNat (512 * i) + UInt32.ofNat j)) 512)
  else none

/-- `read_blocks` of the inserter. -/
def imageReadBlocks (ptr logicalBlockAddress : UInt32) (blockCount : UInt8)
    (p : ByteMemory × Image) : Option (ByteMemory × Image) :=
  loop (imageReadBlock ptr logicalBlockAddress) blockCount.toNat 0 p

/-- `write_blocks` of the inserter. -/
def imageWriteBlocks (ptr logicalBlockAddress : UInt32) (blockCount : UInt8)
    (p : ByteMemory × Image) : Option (ByteMemory × Image) :=
  loop (imageWriteBlock ptr logicalBlockAddress) blockCount.toNat 0 p

/-- A call in the inserter. -/
def Call.onImage (p : ByteMemory × Image) : Call → Option (ByteMemory × Image)
  | .work f => some (f p.1, p.2)
  | .readBlocks ptr lba n => imageReadBlocks ptr lba n p
  | .writeBlocks ptr lba n => imageWriteBlocks ptr lba n p
  | .readClusters ptr c n => imageReadBlocks ptr (clusterToLba c) (n * 4) p
  | .writeClusters ptr c n => imageWriteBlocks ptr (clusterToLba c) (n * 4) p

/-- Calls of the inserter, one after the other. -/
def runImage (calls : List Call) (p : ByteMemory × Image) : Option (ByteMemory × Image) :=
  calls.foldlM Call.onImage p

/-- The image as blocks. -/
def imageDisk (image : Image) : Fat32.Disk := fun b j => image (512 * b + j)

/-- The blocks of the image. -/
abbrev IMAGE_BLOCKS : ℕ := 8192

/-- The block address and the count that a call passes on. -/
def Call.asks : Call → Option (UInt32 × UInt8)
  | .work _ => none
  | .readBlocks _ lba n => some (lba, n)
  | .writeBlocks _ lba n => some (lba, n)
  | .readClusters _ c n => some (clusterToLba c, n * 4)
  | .writeClusters _ c n => some (clusterToLba c, n * 4)

/-- The call stays in the image. -/
def Call.InImage (c : Call) : Prop := ∀ r, c.asks = some r → r.1.toNat + r.2.toNat ≤ IMAGE_BLOCKS

variable {m : ByteMemory} {image : Image} {ptr lba : UInt32} {count : UInt8} {c : Call}
  {calls : List Call} {d : Drive} {disk disk' : Fat32.Disk}

/-! ### The two functions -/

/-- A block of the image starts where the multiplication says, and ends in the image. -/
theorem imageOffset_eq {i n : ℕ} (hfit : lba.toNat + n ≤ IMAGE_BLOCKS) (hi : i < n) :
    imageOffset lba i = 512 * (lba.toNat + i) ∧ imageOffset lba i + 512 ≤ IMAGE_SIZE := by
  have hlt : lba.toNat + i < 8192 := Nat.lt_of_lt_of_le (Nat.add_lt_add_left hi _) hfit
  have heq : imageOffset lba i = 512 * (lba.toNat + i) := by
    rw [imageOffset, UInt32.toNat_mul, UInt32.toNat_add, UInt32.toNat_ofNat']
    show 512 * ((lba.toNat + i % 2 ^ 32) % 2 ^ 32) % 2 ^ 32 = _
    omega
  refine ⟨heq, ?_⟩
  rw [heq]
  show _ ≤ 4194304
  omega

/-- A block of the image is within 28 bits. -/
theorem lba28_eq {n : ℕ} (hfit : lba.toNat + n ≤ IMAGE_BLOCKS) :
    Fat32.lba28 lba.toNat = lba.toNat :=
  Nat.mod_eq_of_lt (Nat.lt_of_le_of_lt ((Nat.le_add_right _ n).trans hfit) (by decide))

/-- The bytes of the blocks are those of the image. -/
theorem content_imageDisk (image : Image) (base x : ℕ) :
    content (imageDisk image) base x = image (512 * base + x) := by
  show image (512 * (base + x / 512) + x % 512) = _
  exact congrArg image (by omega)

/-- **The blocks of a read.** -/
theorem imageReadBlocks_eq (m : ByteMemory) (image : Image) (ptr : UInt32)
    (hfit : lba.toNat + count.toNat ≤ IMAGE_BLOCKS) :
    imageReadBlocks ptr lba count (m, image) =
      some (store (array count.toNat (bytes 512)) m ptr
        (Fat32.readBlocks (imageDisk image) lba.toNat count.toNat), image) := by
  rw [store_readBlocks, lba28_eq hfit]
  have hround : ∀ i p, i < count.toNat →
      p = (Memory.fill m ptr (content (imageDisk image) lba.toNat) (512 * i), image) →
      ∃ p', imageReadBlock ptr lba i p = some p' ∧
        p' = (Memory.fill m ptr (content (imageDisk image) lba.toNat) (512 * (i + 1)), image) := by
    rintro i p hi rfl
    refine ⟨_, ?_, rfl⟩
    obtain ⟨hoffset, hend⟩ := imageOffset_eq hfit hi
    unfold imageReadBlock
    dsimp only
    rw [if_pos hend, hoffset, ← store_eq_fill (bytes 512) _ (v := fun j =>
      image (512 * (lba.toNat + i) + j)) fun _ => rfl]
    refine congrArg (fun m => some (m, image)) (store_fill _ m (fun j => ?_) ?_ (by decide))
    · rw [content_imageDisk]
      exact congrArg image (by omega)
    · have := count.toNat_lt
      omega
  obtain ⟨t, hloop, rfl⟩ := loop_eq_some
    (I := fun i p => p = (Memory.fill m ptr (content (imageDisk image) lba.toNat) (512 * i), image))
    hround (t := (m, image)) (by simp) (Nat.zero_add _)
  exact hloop

/-- **The blocks of a write.** -/
theorem imageWriteBlocks_eq (m : ByteMemory) (image : Image) (ptr : UInt32)
    (hfit : lba.toNat + count.toNat ≤ IMAGE_BLOCKS) :
    ∃ image', imageWriteBlocks ptr lba count (m, image) = some (m, image') ∧
      imageDisk image' = Fat32.writeBlocks (imageDisk image) lba.toNat
        (load (array count.toNat (bytes 512)) m ptr) := by
  have hround : ∀ i (p : ByteMemory × Image), i < count.toNat →
      (p.1 = m ∧ ∀ b, imageDisk p.2 b =
        if lba.toNat ≤ b ∧ b < lba.toNat + i then
          load (bytes 512) m (ptr + UInt32.ofNat (512 * (b - lba.toNat)))
        else imageDisk image b) →
      ∃ p', imageWriteBlock ptr lba i p = some p' ∧ p'.1 = m ∧ ∀ b, imageDisk p'.2 b =
        if lba.toNat ≤ b ∧ b < lba.toNat + (i + 1) then
          load (bytes 512) m (ptr + UInt32.ofNat (512 * (b - lba.toNat)))
        else imageDisk image b := by
    rintro i ⟨m', image'⟩ hi ⟨rfl, hdisk⟩
    obtain ⟨hoffset, hend⟩ := imageOffset_eq hfit hi
    unfold imageWriteBlock
    dsimp only at hdisk ⊢
    rw [if_pos hend, hoffset]
    refine ⟨_, rfl, rfl, fun b => ?_⟩
    by_cases hb : b = lba.toNat + i
    · subst hb
      rw [if_pos (by omega), Nat.add_sub_cancel_left]
      funext j
      have hj := j.isLt
      show (if _ then _ else _) = _
      rw [if_pos (by omega), Nat.add_sub_cancel_left]
      rfl
    · have hkeep : imageDisk (image'.fill (512 * (lba.toNat + i)) (fun j =>
          m' (ptr + UInt32.ofNat (512 * i) + UInt32.ofNat j)) 512) b = imageDisk image' b := by
        funext j
        have hj := j.isLt
        exact if_neg (by omega)
      rw [hkeep, hdisk b]
      by_cases hin : lba.toNat ≤ b ∧ b < lba.toNat + i
      · rw [if_pos hin, if_pos (by omega)]
      · rw [if_neg hin, if_neg (by omega)]
  obtain ⟨⟨m', image'⟩, hloop, rfl, hdisk⟩ := loop_eq_some
    (I := fun i p => p.1 = m ∧ ∀ b, imageDisk p.2 b =
      if lba.toNat ≤ b ∧ b < lba.toNat + i then
        load (bytes 512) m (ptr + UInt32.ofNat (512 * (b - lba.toNat)))
      else imageDisk image b) hround (t := (m, image))
    ⟨rfl, fun b => (if_neg (by omega)).symm⟩ (Nat.zero_add _)
  refine ⟨image', hloop, funext fun b => ?_⟩
  rw [hdisk b, Fat32.writeBlocks]
  simp only [lba28_eq hfit]
  by_cases hin : lba.toNat ≤ b ∧ b < lba.toNat + count.toNat
  · rw [if_pos hin, dif_pos hin, load_array]
  · rw [if_neg hin, dif_neg hin]

/-! ### Calls -/

/-- A call for clusters as one for blocks. -/
def Call.plain : Call → Call
  | .readClusters ptr c n => .readBlocks ptr (clusterToLba c) (n * 4)
  | .writeClusters ptr c n => .writeBlocks ptr (clusterToLba c) (n * 4)
  | c => c

/-- In the image a call needs no wrapping. -/
theorem Call.plain_effect (hin : c.InImage) (p : ByteMemory × Fat32.Disk) :
    c.plain.effect p = c.effect p := by
  have hcluster : ∀ {cl : UInt32} {n : UInt8},
      (clusterToLba cl).toNat + (n * 4).toNat ≤ IMAGE_BLOCKS →
      cl.toNat % 2 ^ 26 + n.toNat % 64 ≤ 2 ^ 26 := by
    intro cl n hfit
    have hlba := lba28_eq hfit
    rw [lba28_clusterToLba] at hlba
    rw [toNat_mul_four, ← hlba] at hfit
    have hblocks : 4 * (cl.toNat % 2 ^ 26) + 4 * (n.toNat % 64) ≤ 8192 := hfit
    omega
  cases c with
  | work f => rfl
  | readBlocks ptr lba n => rfl
  | writeBlocks ptr lba n => rfl
  | readClusters ptr cl n =>
      have hread := store_readClusters p.2 p.1 ptr (hcluster (hin _ rfl))
      rw [← toNat_mul_four] at hread
      exact congrArg (fun m => (m, p.2)) hread
  | writeClusters ptr cl n =>
      have hwrite := writeBlocks_eq_storeClusters p.1 ptr p.2 (hcluster (hin _ rfl))
      rw [← toNat_mul_four] at hwrite
      exact congrArg (fun disk => (p.1, disk)) hwrite

/-- **A call in the image** does what it is for. -/
theorem Call.onImage_eq (hin : c.InImage) (m : ByteMemory) (image : Image) :
    ∃ image', c.onImage (m, image) = some ((c.effect (m, imageDisk image)).1, image') ∧
      imageDisk image' = (c.effect (m, imageDisk image)).2 := by
  rw [← Call.plain_effect hin]
  have hread : ∀ {ptr lba n}, lba.toNat + n.toNat ≤ IMAGE_BLOCKS →
      ∃ image', imageReadBlocks ptr lba n (m, image) =
        some (((Call.readBlocks ptr lba n).effect (m, imageDisk image)).1, image') ∧
        imageDisk image' = imageDisk image :=
    fun hfit => ⟨image, imageReadBlocks_eq m image _ hfit, rfl⟩
  cases c with
  | work f => exact ⟨image, rfl, rfl⟩
  | readBlocks ptr lba n => exact hread (hin _ rfl)
  | writeBlocks ptr lba n => exact imageWriteBlocks_eq m image ptr (hin _ rfl)
  | readClusters ptr cl n => exact hread (hin _ rfl)
  | writeClusters ptr cl n => exact imageWriteBlocks_eq m image ptr (hin _ rfl)

/-- The disks have the same blocks in the image. -/
def SameBlocks (disk disk' : Fat32.Disk) : Prop := ∀ b < IMAGE_BLOCKS, disk b = disk' b

/-- A call in the image does not depend on other blocks. -/
theorem Call.effect_congr (hin : c.InImage) (h : SameBlocks disk disk') (m : ByteMemory) :
    (c.effect (m, disk)).1 = (c.effect (m, disk')).1 ∧
      SameBlocks (c.effect (m, disk)).2 (c.effect (m, disk')).2 := by
  rw [← Call.plain_effect hin, ← Call.plain_effect hin]
  have hread : ∀ {lba : UInt32} {n : UInt8}, lba.toNat + n.toNat ≤ IMAGE_BLOCKS →
      Fat32.readBlocks disk lba.toNat n.toNat = Fat32.readBlocks disk' lba.toNat n.toNat := by
    intro lba n hfit
    funext i
    rw [Fat32.readBlocks, Fat32.readBlocks, lba28_eq hfit]
    exact h _ (Nat.lt_of_lt_of_le (Nat.add_lt_add_left i.isLt _) hfit)
  have hwrite : ∀ {lba n : ℕ} (data : Fin n → Fat32.Block),
      SameBlocks (Fat32.writeBlocks disk lba data) (Fat32.writeBlocks disk' lba data) := by
    intro lba n data b hb
    unfold Fat32.writeBlocks
    rw [h b hb]
  cases c with
  | work f => exact ⟨rfl, h⟩
  | readBlocks ptr lba n => exact ⟨congrArg (store _ m ptr) (hread (hin _ rfl)), h⟩
  | writeBlocks ptr lba n => exact ⟨rfl, hwrite _⟩
  | readClusters ptr cl n => exact ⟨congrArg (store _ m ptr) (hread (hin _ rfl)), h⟩
  | writeClusters ptr cl n => exact ⟨rfl, hwrite _⟩

/-- A call in the image is one within a drive of its size. -/
theorem Call.InImage.within (hin : c.InImage) (hsome : ¬c.Empty)
    (hcap : IMAGE_BLOCKS ≤ d.capacity) : c.Within d.capacity := by
  have hfit : ∀ {lba : UInt32} {n : UInt8}, c.asks = some (lba, n) →
      c.blocks = some (Fat32.lba28 lba.toNat, n) → c.Within d.capacity := by
    intro lba n hasks hblocks r hr
    obtain rfl := Option.some.inj (hblocks.symm.trans hr)
    have hle := hin _ hasks
    have hpos : n.toNat ≠ 0 := fun h0 => hsome ⟨_, hblocks, h0⟩
    rw [asked, if_neg hpos, lba28_eq hle]
    exact hle.trans hcap
  cases c with
  | work f => exact fun r hr => by cases hr
  | readBlocks ptr lba n => exact hfit rfl rfl
  | writeBlocks ptr lba n => exact hfit rfl rfl
  | readClusters ptr cl n => exact hfit rfl rfl
  | writeClusters ptr cl n => exact hfit rfl rfl

/-- **The two disks agree.**  Any calls in the image that each ask for some block come to
their end on it and, through the driver, on an idle drive with the same blocks, however
slow; they leave the same memory, and the same blocks. -/
theorem image_agrees (hidle : d.phase = .idle) (hcap : IMAGE_BLOCKS ≤ d.capacity)
    (hsame : SameBlocks (diskOf d) (imageDisk image))
    (hcalls : ∀ c ∈ calls, c.InImage ∧ ¬c.Empty) :
    ∃ m' d' image', Returns (fun fuel => run drive fuel calls (m, d)) (m', d') ∧
      runImage calls (m, image) = some (m', image') ∧ d'.phase = .idle ∧
      SameBlocks (diskOf d') (imageDisk image') := by
  induction calls generalizing m d image with
  | nil => exact ⟨m, d, image, returns_of_forall fun _ => rfl, rfl, hidle, hsame⟩
  | cons c calls ih =>
      obtain ⟨⟨hin, hsome⟩, hrest⟩ := List.forall_mem_cons.1 hcalls
      obtain ⟨d', hret, hidle', hcap', hdisk⟩ :=
        Call.exec_returns (m := m) hidle (hin.within hsome hcap) hsome
      obtain ⟨image', himage, hdisk'⟩ := Call.onImage_eq hin m image
      obtain ⟨hmem, hblocks⟩ := Call.effect_congr hin hsame m
      have hnext : SameBlocks (diskOf d') (imageDisk image') := by rwa [hdisk, hdisk']
      obtain ⟨m'', d'', image'', hret', himage', hidle'', hsame'⟩ :=
        ih (m := (c.effect (m, diskOf d)).1) hidle' (hcap'.symm ▸ hcap) hnext hrest
      refine ⟨m'', d'', image'', hret.bind hret', ?_, hidle'', hsame'⟩
      rw [runImage, List.foldlM_cons, himage, ← hmem]
      exact himage'

/-- Every disk has its image. -/
theorem imageDisk_content (disk : Fat32.Disk) : imageDisk (content disk 0) = disk := by
  funext b j
  have hj := j.isLt
  have hblock : 0 + (512 * b + j.val) / 512 = b := by omega
  show disk (0 + (512 * b + j.val) / 512) ⟨(512 * b + j.val) % 512, _⟩ = disk b j
  rw [hblock]
  exact congrArg (disk b) (Fin.ext (by show (512 * b + j.val) % 512 = j; omega))

/-- A cluster is written on both, and read. -/
theorem image_agrees_sample : ∃ m' d' image',
    Returns (fun fuel => run drive fuel [.writeClusters 0x1000 2 1, .work fun _ _ => 0,
      .readClusters 0x5000 2 1] (fun x => x.toUInt8, slowDrive)) (m', d') ∧
    runImage [.writeClusters 0x1000 2 1, .work fun _ _ => 0, .readClusters 0x5000 2 1]
      (fun x => x.toUInt8, content (diskOf slowDrive) 0) = some (m', image') ∧
    d'.phase = .idle ∧ SameBlocks (diskOf d') (imageDisk image') := by
  refine image_agrees rfl (by decide) (fun b _ => by rw [imageDisk_content]) ?_
  simp [Call.InImage, Call.asks, IMAGE_BLOCKS, Call.Empty, Call.blocks, Fat32.lba28, clusterToLba]

end Device
end Jatos
