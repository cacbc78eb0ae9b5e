/-
# The time of day

`src/cmos.c` on a bus.  `read_cmos` waits until the clock is not at work on its registers,
reads the seconds, the minutes and the hours, and leaves two digits of each.  Where the clock
counts in decimal digits it adds seven hours, for the zone, and converts the seconds for a
second time: `bcd_to_binary` has been applied to them at once.

So what it leaves is the time of the zone for sixteen seconds of each minute, if the clock
counts in decimal digits and its hours from 0 to 23, as that of a PC does
(`time_right_iff`).
-/

import Jatos.Foundation.Rtc

namespace Jatos
namespace Device

open Ports Rtc

variable {σ : Type*}

/-- The port that selects a register. -/
abbrev CMOS_ADDRESS : UInt16 := 0x70

/-- The port of the selected register. -/
abbrev CMOS_DATA : UInt16 := 0x71

/-- The register of the seconds. -/
abbrev REG_SECONDS : UInt8 := 0x00

/-- The register of the minutes. -/
abbrev REG_MINUTES : UInt8 := 0x02

/-- The register of the hours. -/
abbrev REG_HOURS : UInt8 := 0x04

/-! ### The functions -/

/-- `get_cmos_reg` -/
def getCmosReg (bus : Bus σ) (reg : UInt8) (s : σ) : Option (UInt8 × σ) := do
  let s ← bus.outb CMOS_ADDRESS reg s
  bus.inb CMOS_DATA s

/-- `is_update_cmos`. -/
def isUpdateCmos (bus : Bus σ) (s : σ) : Option (Bool × σ) := do
  let (b, s) ← getCmosReg bus 0x0A s
  return (b &&& 0x80 ≠ 0, s)

/-- `while(is_update_cmos());` -/
def waitUpdate (bus : Bus σ) : ℕ → σ → Option σ
  | 0, _ => none
  | fuel + 1, s => do
      let (update, s) ← isUpdateCmos bus s
      if update then waitUpdate bus fuel s else return s

/-- `bcd_to_binary` -/
def bcdToBinary (bcd : UInt8) : UInt8 := (bcd &&& 0x0F) + (bcd / 16) * 10

/-- `numToStrLeft`, of a byte. -/
def numToStrLeft (num : UInt8) : UInt8 := if num < 10 then 0x30 else (num / 10) ||| 0x30

/-- `numToStrRight`, of a byte. -/
def numToStrRight (num : UInt8) : UInt8 := if num < 10 then num ||| 0x30 else (num % 10) ||| 0x30

/-- The hour of the zone, as the source takes it from the byte. -/
def zoneHour (hour : UInt8) : UInt8 :=
  ((((hour &&& 0x0F) + ((hour &&& 0x70) / 16) * 10) ||| (hour &&& 0x80)) + 7) % 24

/-- Two digits of the hours, the minutes and the seconds. -/
def timeArray (hour minute second : UInt8) : List UInt8 :=
  [numToStrLeft hour, numToStrRight hour, numToStrLeft minute, numToStrRight minute,
    numToStrLeft second, numToStrRight second]

/-- `read_cmos`: what it leaves in `time_array`. -/
def readCmos (bus : Bus σ) (fuel : ℕ) (s : σ) : Option (List UInt8 × σ) := do
  let s ← waitUpdate bus fuel s
  let (second, s) ← getCmosReg bus REG_SECONDS s
  let second := bcdToBinary second
  let (minute, s) ← getCmosReg bus REG_MINUTES s
  let minute := bcdToBinary minute
  let (hour, s) ← getCmosReg bus REG_HOURS s
  let (regB, s) ← getCmosReg bus 0x0B s
  if regB &&& 0x04 = 0 then
    return (timeArray (zoneHour hour) minute ((second &&& 0x0F) + (second / 16) * 10), s)
  else return (timeArray hour minute second, s)

/-! ### What it leaves -/

variable {d : Clock}

/-- While an update is under way, register A says so. -/
theorem getCmosReg_busy {noise : UInt8} {busy : List UInt8} (h : d.busy = noise :: busy) :
    getCmosReg rtc 0x0A d = some (0x80 ||| noise, { d with index := 0x0A, busy := busy }) := by
  show Clock.inb 0x71 { d with index := 0x0A } = _
  simp [Clock.inb, h]

/-- When none is, register A says so. -/
theorem getCmosReg_idle (h : d.busy = []) :
    getCmosReg rtc 0x0A d = some (0x26, { d with index := 0x0A }) := by
  show Clock.inb 0x71 { d with index := 0x0A } = _
  simp [Clock.inb, h]

/-- The byte of an update that is going on. -/
theorem busy_and (noise : UInt8) : (0x80 ||| noise) &&& 0x80 = 0x80 := by
  apply UInt8.toBitVec_inj.1
  ext i hi
  simpa using Or.inl

/-- **The wait** is over when the update is. -/
theorem waitUpdate_eq {fuel : ℕ} (h : d.busy.length < fuel) :
    waitUpdate rtc fuel d = some { d with busy := [], index := 0x0A } := by
  obtain ⟨index, time, mode, busy⟩ := d
  induction busy generalizing index fuel with
  | nil =>
      obtain ⟨fuel, rfl⟩ := Nat.exists_eq_add_of_lt h
      rw [waitUpdate, isUpdateCmos, getCmosReg_idle rfl]
      rfl
  | cons noise busy ih =>
      obtain ⟨fuel, rfl⟩ := Nat.exists_eq_add_of_lt h
      rw [waitUpdate, isUpdateCmos, getCmosReg_busy rfl]
      simp only [Option.bind_eq_bind, Option.bind_some, busy_and]
      exact ih _ (by dsimp only [List.length_cons]; omega)

/-- What is left of a time in a mode. -/
def leaves (binary hours24 : Bool) (t : Time) : List UInt8 :=
  let hour := encodeHour binary hours24 t.hour
  let minute := bcdToBinary (encode binary t.minute)
  let second := bcdToBinary (encode binary t.second)
  if binary then timeArray hour minute second
  else timeArray (zoneHour hour) minute (bcdToBinary second)

/-- When none is, a register of the time has its byte. -/
theorem getCmosReg_time {reg b : UInt8} (index : UInt8) (hreg : reg &&& 0x7F = index)
    (h0A : index ≠ 0x0A) (h0B : index ≠ 0x0B) (hbusy : d.busy = [])
    (hb : ({ d with index := index } : Clock).register = some b) :
    getCmosReg rtc reg d = some (b, { d with index := index }) := by
  show Clock.inb 0x71 { d with index := reg &&& 0x7F } = _
  rw [hreg, Clock.inb, if_pos rfl, if_neg h0A, if_neg h0B, if_pos hbusy, hb]
  rfl

/-- Register B has the mode. -/
theorem getCmosReg_mode (d : Clock) :
    getCmosReg rtc 0x0B d = some (d.mode, { d with index := 0x0B }) := rfl

/-- **`read_cmos`**, with enough fuel for the wait. -/
theorem readCmos_eq {fuel : ℕ} (h : d.busy.length < fuel) : readCmos rtc fuel d =
    some (leaves d.Binary d.Hours24 d.time, { d with busy := [], index := 0x0B }) := by
  rw [readCmos, waitUpdate_eq h]
  simp only [Option.bind_eq_bind, Option.bind_some]
  rw [getCmosReg_time 0x00 rfl (by decide) (by decide) rfl rfl]
  simp only [Option.bind_some]
  rw [getCmosReg_time 0x02 rfl (by decide) (by decide) rfl rfl]
  simp only [Option.bind_some]
  rw [getCmosReg_time 0x04 rfl (by decide) (by decide) rfl rfl]
  simp only [Option.bind_some, getCmosReg_mode]
  unfold leaves
  by_cases hbinary : d.mode &&& 4 = 0
  · have hb : ¬decide d.Binary = true := fun h => of_decide_eq_true h hbinary
    rw [if_pos hbinary, if_neg hb]
    rfl
  · have hb : decide d.Binary = true := decide_eq_true hbinary
    rw [if_neg hbinary, if_pos hb]
    rfl

/-! ### When it is right -/

/-- The two decimal digits of a number. -/
def digits (n : ℕ) : List UInt8 := [0x30 + UInt8.ofNat (n / 10), 0x30 + UInt8.ofNat (n % 10)]

/-- The digits of the time in the zone. -/
def zoneTime (t : Time) : List UInt8 :=
  digits ((t.hour + 7) % 24) ++ digits t.minute ++ digits t.second

/-- The array is right where each of the six digits is. -/
theorem timeArray_eq_iff (hour minute second : UInt8) (h m s : ℕ) :
    timeArray hour minute second = digits h ++ digits m ++ digits s ↔
      [numToStrLeft hour, numToStrRight hour] = digits h ∧
        [numToStrLeft minute, numToStrRight minute] = digits m ∧
          [numToStrLeft second, numToStrRight second] = digits s := by
  simp [timeArray, digits, and_assoc]

/-- Binary hours are not moved to the zone; of the hours from 1 to 12, noon, midnight and the
second half of the day are not converted. -/
theorem hour_right_iff : ∀ (binary hours24 : Bool) (hour : Fin 24),
    (let b := if binary then encodeHour binary hours24 hour
      else zoneHour (encodeHour binary hours24 hour)
    [numToStrLeft b, numToStrRight b] = digits ((hour + 7) % 24)) ↔
      binary = false ∧ (hours24 = true ∨ 1 ≤ hour.val ∧ hour.val < 12) := by
  decide +kernel

/-- Both digits of a minute come out right. -/
theorem minute_right : ∀ minute : Fin 60,
    let b := bcdToBinary (encode false minute)
    [numToStrLeft b, numToStrRight b] = digits minute := by
  decide +kernel

/-- Of the seconds, those below 16 are the same when they are converted again. -/
theorem second_right_iff : ∀ second : Fin 60,
    (let b := bcdToBinary (bcdToBinary (encode false second))
    [numToStrLeft b, numToStrRight b] = digits second) ↔ second.val < 16 := by
  decide +kernel

/-- What `read_cmos` leaves is the time in the zone in this mode and for these times only. -/
theorem leaves_eq_iff (binary hours24 : Bool) (t : Time) : leaves binary hours24 t = zoneTime t ↔
    binary = false ∧ (hours24 = true ∨ 1 ≤ t.hour.val ∧ t.hour.val < 12) ∧ t.second.val < 16 := by
  have hhour := hour_right_iff binary hours24 t.hour
  unfold leaves zoneTime
  cases binary with
  | true =>
      rw [if_pos rfl, timeArray_eq_iff]
      constructor
      · rintro ⟨h, -⟩
        exact absurd (hhour.1 h).1 Bool.noConfusion
      · rintro ⟨h, -⟩
        cases h
  | false =>
      rw [if_neg Bool.false_ne_true, timeArray_eq_iff]
      constructor
      · rintro ⟨hh, -, hs⟩
        exact ⟨rfl, (hhour.1 hh).2, (second_right_iff t.second).1 hs⟩
      · rintro ⟨-, hh, hs⟩
        exact ⟨hhour.2 ⟨rfl, hh⟩, minute_right t.minute, (second_right_iff t.second).2 hs⟩

/-- **When the time is right.**  However long the clock is at work on its registers,
`read_cmos` returns, and what it leaves is the time of the zone in just the first sixteen
seconds of a minute, of a clock that counts in decimal digits, and counts its hours from 0 to
23 unless it is between one and twelve in the morning. -/
theorem time_right_iff (d : Clock) :
    ∃ left d', Returns (fun fuel => readCmos rtc fuel d) (left, d') ∧ d'.time = d.time ∧
      (left = zoneTime d.time ↔ ¬d.Binary ∧
        (d.Hours24 ∨ 1 ≤ d.time.hour.val ∧ d.time.hour.val < 12) ∧ d.time.second.val < 16) := by
  refine ⟨_, _, ⟨d.busy.length + 1, fun fuel hfuel => readCmos_eq hfuel⟩, rfl, ?_⟩
  simpa using leaves_eq_iff d.Binary d.Hours24 d.time

end Device
end Jatos
