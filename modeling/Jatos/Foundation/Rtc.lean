/-
# A real-time clock behind two ports

The clock with its registers in a memory of which a byte is selected first, as in a PC.

| port | access | register |
| --- | --- | --- |
| `0x70` | byte, out | the number of the byte, seven bits |
| `0x71` | byte, in | the byte |

| byte | |
| --- | --- |
| `0x00`, `0x02`, `0x04` | seconds, minutes, hours |
| `0x0A` | bit 7: an update is due or going on |
| `0x0B` | bit 2: the numbers are binary and not decimal; bit 1: the hours are 0 to 23 |

While an update is going on the time is not to be read; `busy` has what `0x0A` shows until
it is over, for as long as it takes.  The next one is far enough away for the time to be
read in between.  Of the other bytes none is modelled.
-/

import Jatos.Foundation.Ports

namespace Rtc

open Ports

/-- A time of the day, hours to seconds. -/
structure Time where
  hour : Fin 24
  minute : Fin 60
  second : Fin 60

/-- The clock's registers, its mode, and how long an update still takes. -/
structure Clock where
  index : UInt8
  time : Time
  mode : UInt8
  busy : List UInt8

variable {d : Clock} {v : UInt8}

/-- Numbers are binary. -/
def Clock.Binary (d : Clock) : Prop := d.mode &&& 4 ≠ 0

/-- Hours are counted from 0 to 23. -/
def Clock.Hours24 (d : Clock) : Prop := d.mode &&& 2 ≠ 0

instance : Decidable d.Binary := inferInstanceAs (Decidable (_ ≠ _))

instance : Decidable d.Hours24 := inferInstanceAs (Decidable (_ ≠ _))

/-- A number as a byte, binary or with a decimal digit in each half. -/
def encode (binary : Bool) (n : ℕ) : UInt8 :=
  UInt8.ofNat (if binary then n else 16 * (n / 10) + n % 10)

/-- The byte of the hours: from 1 to 12 the upper bit tells the second half of the day. -/
def encodeHour (binary hours24 : Bool) (hour : ℕ) : UInt8 :=
  if hours24 then encode binary hour
  else encode binary (if hour % 12 = 0 then 12 else hour % 12) ||| (if 12 ≤ hour then 0x80 else 0)

/-- A byte of the time. -/
def Clock.register (d : Clock) : Option UInt8 :=
  if d.index = 0x00 then some (encode d.Binary d.time.second)
  else if d.index = 0x02 then some (encode d.Binary d.time.minute)
  else if d.index = 0x04 then some (encodeHour d.Binary d.Hours24 d.time.hour)
  else none

/-- What a read of one of the clock's ports gives. -/
def Clock.inb (port : UInt16) (d : Clock) : Option (UInt8 × Clock) :=
  if port = 0x71 then
    if d.index = 0x0A then
      match d.busy with
      | noise :: busy => some (0x80 ||| noise, { d with busy := busy })
      | [] => some (0x26, d)
    else if d.index = 0x0B then some (d.mode, d)
    else if d.busy = [] then d.register.map fun b => (b, d)
    else none
  else none

/-- What a write to one of the clock's ports does. -/
def Clock.outb (port : UInt16) (v : UInt8) (d : Clock) : Option Clock :=
  if port = 0x70 then some { d with index := v &&& 0x7F } else none

/-- The clock on its two ports. -/
def rtc : Bus Clock where
  inb := Clock.inb
  outb := Clock.outb
  inw _ _ := none
  outw _ _ _ := none

end Rtc
