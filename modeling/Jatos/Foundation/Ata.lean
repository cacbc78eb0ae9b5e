/-
# A drive behind the ATA ports

The programmed input and output of one ATA drive in 28-bit LBA mode.  The drive
answers every access to its ports or, where the protocol forbids the access,
does not (`none`): the command block may be written only to a drive that is
neither busy nor in the middle of a transfer, a command must lie within the
drive, and a word is due only after the drive has shown that it is not busy.

| port | access | register |
| --- | --- | --- |
| `0x1F0` | word | data |
| `0x1F2` | byte, out | sector count, 0 for 256 |
| `0x1F3` … `0x1F5` | byte, out | bits 0 to 23 of the block address |
| `0x1F6` | byte, out | drive, LBA mode, bits 24 to 27 of the address |
| `0x1F7` | byte, in and out | status, command |

After a command and after every sector the drive is busy for a while.  How long
is up to the drive: `delays` has, for each such time, the status bytes that it
shows until it is done, of which only the bit `BSY` means anything.
-/

import Jatos.Foundation.Ports
import Mathlib.Data.List.OfFn

namespace Ata

open Ports

/-- The words of a sector. -/
abbrev Sector := Fin 256 → UInt16

/-- What the drive is at: `left` more sectors follow the one of which word `next` is due. -/
inductive Phase
  | idle
  | dataIn (lba left next : ℕ)
  | dataOut (lba left : ℕ) (taken : List UInt16)

/-- An ATA drive on the primary bus: its registers, the phase of its command, and the
sectors. -/
structure Drive where
  sectors : ℕ → Sector
  capacity : ℕ
  capacity_le : capacity ≤ 2 ^ 28
  head : UInt8
  count : UInt8
  low : UInt8
  mid : UInt8
  high : UInt8
  phase : Phase
  busy : List UInt8
  delays : ℕ → List UInt8

variable {d : Drive} {v : UInt8} {w : UInt16} {lba left next : ℕ} {taken : List UInt16}

/-- The next thing that takes the drive some time. -/
def Drive.start (d : Drive) (phase : Phase) : Drive :=
  { d with phase := phase, busy := d.delays 0, delays := fun i => d.delays (i + 1) }

/-- The 28-bit block address in the registers. -/
def Drive.address (d : Drive) : ℕ :=
  d.low.toNat + 2 ^ 8 * d.mid.toNat + 2 ^ 16 * d.high.toNat + 2 ^ 24 * (d.head.toNat % 16)

/-- A sector count of 0 asks for 256 sectors. -/
def Drive.sectorCount (d : Drive) : ℕ := if d.count.toNat = 0 then 256 else d.count.toNat

/-- `READ SECTORS` and `WRITE SECTORS`, of the first drive and in LBA mode. -/
def Drive.command (d : Drive) (v : UInt8) : Option Drive :=
  if d.head &&& 0x50 = 0x40 ∧ d.address + d.sectorCount ≤ d.capacity then
    if v = 0x20 then some (d.start (.dataIn d.address (d.sectorCount - 1) 0))
    else if v = 0x30 then some (d.start (.dataOut d.address (d.sectorCount - 1) []))
    else none
  else none

/-- `RDY` and, in a transfer, `DRQ`. -/
def Phase.status : Phase → UInt8
  | .idle => 0x50
  | .dataIn _ _ _ => 0x58
  | .dataOut _ _ _ => 0x58

/-- What a read of one of the drive's ports gives. -/
def Drive.inb (port : UInt16) (d : Drive) : Option (UInt8 × Drive) :=
  if port = 0x1F7 then
    match d.busy with
    | noise :: busy => some (0x80 ||| noise, { d with busy := busy })
    | [] => some (d.phase.status, d)
  else none

/-- What a write to one of the drive's ports does. -/
def Drive.outb (port : UInt16) (v : UInt8) (d : Drive) : Option Drive :=
  match d.busy, d.phase with
  | [], .idle =>
      if port = 0x1F2 then some { d with count := v }
      else if port = 0x1F3 then some { d with low := v }
      else if port = 0x1F4 then some { d with mid := v }
      else if port = 0x1F5 then some { d with high := v }
      else if port = 0x1F6 then some { d with head := v }
      else if port = 0x1F7 then d.command v
      else none
  | _, _ => none

/-- The last word of a sector makes way for the next sector. -/
def Drive.inw (port : UInt16) (d : Drive) : Option (UInt16 × Drive) :=
  match d.busy, d.phase with
  | [], .dataIn lba left next =>
      if port = 0x1F0 then
        some (d.sectors lba (Fin.ofNat 256 next),
          if next < 255 then { d with phase := .dataIn lba left (next + 1) }
          else if left = 0 then { d with phase := .idle }
          else d.start (.dataIn (lba + 1) (left - 1) 0))
      else none
  | _, _ => none

/-- The words of a list, as far as they go. -/
def sectorOf (words : List UInt16) : Sector := fun i => words.getD i 0

/-- A sector is written when its last word has come. -/
def Drive.outw (port : UInt16) (w : UInt16) (d : Drive) : Option Drive :=
  match d.busy, d.phase with
  | [], .dataOut lba left taken =>
      if port = 0x1F0 then
        if taken.length < 255 then some { d with phase := .dataOut lba left (taken ++ [w]) }
        else
          let sectors := Function.update d.sectors lba (sectorOf (taken ++ [w]))
          if left = 0 then some ({ d with sectors := sectors }.start .idle)
          else some ({ d with sectors := sectors }.start (.dataOut (lba + 1) (left - 1) []))
      else none
  | _, _ => none

/-- The drive, from the side of the processor. -/
def drive : Bus Drive := ⟨Drive.inb, Drive.outb, Drive.inw, Drive.outw⟩

/-! ### Waiting -/

/-- A host waits for a drive that shows fewer bytes than it has fuel. -/
theorem poll_of_length_lt {done : UInt8 → Bool} (hnoise : ∀ noise, done (0x80 ||| noise) = false)
    {busy : List UInt8} (hbusy : d.busy = busy) (hdone : done d.phase.status = true) {fuel : ℕ}
    (hfuel : busy.length < fuel) :
    poll drive 0x1F7 done fuel d = some { d with busy := [] } := by
  induction busy generalizing d fuel with
  | nil =>
      obtain ⟨fuel, rfl⟩ := Nat.exists_eq_succ_of_ne_zero (Nat.ne_of_gt hfuel)
      have hin : drive.inb 0x1F7 d = some (d.phase.status, d) := by simp [drive, Drive.inb, hbusy]
      simp [poll, hin, hdone, ← hbusy]
  | cons noise busy ih =>
      obtain ⟨fuel, rfl⟩ := Nat.exists_eq_succ_of_ne_zero (Nat.ne_zero_of_lt hfuel)
      have hin : drive.inb 0x1F7 d = some (0x80 ||| noise, { d with busy := busy }) := by
        simp [drive, Drive.inb, hbusy]
      rw [List.length_cons] at hfuel
      rw [poll, hin]
      simpa [hnoise] using ih (d := { d with busy := busy }) rfl hdone (by omega)

/-- **Waiting ends.**  Whatever a busy drive shows, a host that looks for a byte without
`BSY` gets past it. -/
theorem poll_drive {done : UInt8 → Bool} (hnoise : ∀ noise, done (0x80 ||| noise) = false)
    (hdone : done d.phase.status = true) :
    Returns (fun fuel => poll drive 0x1F7 done fuel d) { d with busy := [] } :=
  ⟨d.busy.length + 1, fun _ hfuel => poll_of_length_lt hnoise rfl hdone (by omega)⟩

/-- A drive that is not busy does not keep the host waiting. -/
theorem poll_ready {done : UInt8 → Bool} (hbusy : d.busy = [])
    (hdone : done d.phase.status = true) :
    Returns (fun fuel => poll drive 0x1F7 done fuel d) d := by
  have hin : drive.inb 0x1F7 d = some (d.phase.status, d) := by simp [drive, Drive.inb, hbusy]
  refine ⟨1, fun fuel hfuel => ?_⟩
  obtain ⟨fuel, rfl⟩ := Nat.exists_eq_succ_of_ne_zero (Nat.ne_of_gt hfuel)
  simp [poll, hin, hdone]

/-- Waiting moves no word. -/
theorem poll_phase {port : UInt16} {done : UInt8 → Bool} {d' : Drive} {fuel : ℕ}
    (h : poll drive port done fuel d = some d') : d'.phase = d.phase := by
  induction fuel generalizing d with
  | zero => simp [poll] at h
  | succ fuel ih =>
      rw [poll] at h
      cases hin : drive.inb port d with
      | none => simp [hin] at h
      | some r =>
          obtain ⟨b, e⟩ := r
          have he : e.phase = d.phase := by
            simp only [drive, Drive.inb] at hin
            split at hin
            · split at hin
              · rw [Option.some.injEq, Prod.mk.injEq] at hin
                rw [← hin.2]
              · rw [Option.some.injEq, Prod.mk.injEq] at hin
                rw [← hin.2]
            · simp at hin
          simp only [hin] at h
          split_ifs at h with hb
          · rw [← Option.some.inj h, he]
          · rw [ih h, he]

/-- The command block is closed while a transfer is pending. -/
theorem outb_pending {port : UInt16} (h : d.phase ≠ .idle) : drive.outb port v d = none := by
  cases hb : d.busy with
  | nil =>
      cases hp : d.phase with
      | idle => exact absurd hp h
      | dataIn lba left next => simp [drive, Drive.outb, hb, hp]
      | dataOut lba left taken => simp [drive, Drive.outb, hb, hp]
  | cons noise busy => simp [drive, Drive.outb, hb]

/-! ### Sectors -/

variable {τ : Type*}

/-- The sector that follows, or the end of the transfer. -/
def Drive.nextIn (d : Drive) (lba left : ℕ) : Drive :=
  if left = 0 then { d with phase := .idle } else d.start (.dataIn (lba + 1) (left - 1) 0)

/-- The sector is written, and the next one follows or the transfer is over. -/
def Drive.nextOut (d : Drive) (lba left : ℕ) (sector : Sector) : Drive :=
  { d with sectors := Function.update d.sectors lba sector }.start
    (if left = 0 then .idle else .dataOut (lba + 1) (left - 1) [])

/-- The drive of which word `j` is due, of the sector in which word 0 was. -/
def Drive.wordIn (d : Drive) (lba left j : ℕ) : Drive :=
  if j < 256 then { d with phase := .dataIn lba left j } else d.nextIn lba left

/-- The drive that waits for word `j` of a list. -/
def Drive.wordOut (d : Drive) (lba left : ℕ) (word : ℕ → UInt16) (j : ℕ) : Drive :=
  if j < 256 then { d with phase := .dataOut lba left ((List.range j).map word) }
  else d.nextOut lba left fun j => word j

/-- While the drive is ready, word `j` of the sector comes next. -/
theorem inw_wordIn (hbusy : d.busy = []) {j : ℕ} (hj : j < 256) :
    drive.inw 0x1F0 (d.wordIn lba left j) =
      some (d.sectors lba ⟨j, hj⟩, d.wordIn lba left (j + 1)) := by
  have hword : Fin.ofNat 256 j = ⟨j, hj⟩ := Fin.ext (Nat.mod_eq_of_lt hj)
  simp only [Drive.wordIn, if_pos hj, drive, Drive.inw, hbusy, hword, if_true]
  by_cases hlast : j < 255
  · rw [if_pos hlast, if_pos (show j + 1 < 256 by omega)]
  · rw [if_neg hlast, if_neg (show ¬j + 1 < 256 by omega)]
    simp only [Drive.nextIn, Drive.start, hbusy]

/-- The sector of 256 words is read back word by word. -/
theorem sectorOf_range (word : ℕ → UInt16) :
    sectorOf ((List.range 256).map word) = fun j : Fin 256 => word j := by
  funext j
  simp [sectorOf, List.getD]

/-- While the drive is ready, word `j` of the sector is taken next. -/
theorem outw_wordOut (word : ℕ → UInt16) (hbusy : d.busy = []) {j : ℕ} (hj : j < 256) :
    drive.outw 0x1F0 (word j) (d.wordOut lba left word j) =
      some (d.wordOut lba left word (j + 1)) := by
  have hnext : (List.range j).map word ++ [word j] = (List.range (j + 1)).map word := by
    rw [List.range_succ, List.map_append, List.map_singleton]
  simp only [Drive.wordOut, if_pos hj, drive, Drive.outw, hbusy, hnext, List.length_map,
    List.length_range, if_true]
  by_cases hlast : j < 255
  · rw [if_pos hlast, if_pos (show j + 1 < 256 by omega)]
  · obtain rfl : j = 255 := by omega
    rw [if_neg hlast, if_neg (show ¬255 + 1 < 256 by omega), sectorOf_range, Drive.nextOut]
    split_ifs <;> simp only [Drive.start]

/-- **A sector is read.**  A host that takes 256 words in a row puts away those of the sector
that is due. -/
theorem sector_in {f : ℕ → UInt16 → τ → τ} {J : ℕ → τ → Prop} {t : τ}
    (hf : ∀ (j : Fin 256) t, J j t → J (j + 1) (f j (d.sectors lba j) t))
    (hbusy : d.busy = []) (hphase : d.phase = .dataIn lba left 0) (hJ : J 0 t) :
    ∃ t', loop (fun j (p : τ × Drive) =>
      (drive.inw 0x1F0 p.2).map fun r => (f j r.1 p.1, r.2)) 256 0 (t, d) =
      some (t', d.nextIn lba left) ∧ J 256 t' := by
  have hround : ∀ j (p : τ × Drive), j < 256 → (J j p.1 ∧ p.2 = d.wordIn lba left j) →
      ∃ p', (drive.inw 0x1F0 p.2).map (fun r => (f j r.1 p.1, r.2)) = some p' ∧
        J (j + 1) p'.1 ∧ p'.2 = d.wordIn lba left (j + 1) := by
    rintro j ⟨t, e⟩ hj ⟨hJ, rfl⟩
    exact ⟨_, by rw [inw_wordIn hbusy hj, Option.map_some], hf ⟨j, hj⟩ t hJ, rfl⟩
  have hstart : d = d.wordIn lba left 0 := by simp [Drive.wordIn, ← hphase]
  obtain ⟨⟨t', e⟩, hloop, hJ', rfl⟩ :=
    loop_eq_some (t := (t, d)) hround ⟨hJ, hstart⟩ (Nat.zero_add 256)
  exact ⟨t', hloop, hJ'⟩

/-- **A sector is written.**  A drive that waits for a sector has it after 256 words. -/
theorem sector_out (word : ℕ → UInt16) (hbusy : d.busy = [])
    (hphase : d.phase = .dataOut lba left []) :
    loop (fun j => drive.outw 0x1F0 (word j)) 256 0 d =
      some (d.nextOut lba left fun j => word j) := by
  have hstart : d = d.wordOut lba left word 0 := by simp [Drive.wordOut, ← hphase]
  obtain ⟨e, hloop, rfl⟩ := loop_eq_some (I := fun j e => e = d.wordOut lba left word j)
    (fun j e hj he => ⟨_, (congrArg _ he).trans (outw_wordOut word hbusy hj), rfl⟩) hstart
    (Nat.zero_add 256)
  exact hloop

end Ata
