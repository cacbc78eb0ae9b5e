/-
# The descriptors of the x86

How the processor in 32-bit mode reads the eight bytes of a segment descriptor
and of an interrupt gate.

| bytes | segment descriptor | interrupt gate |
| --- | --- | --- |
| 0, 1 | limit, bits 0 to 15 | offset, bits 0 to 15 |
| 2, 3 | base, bits 0 to 15 | selector |
| 4 | base, bits 16 to 23 | 0 in bits 5 to 7 |
| 5 | type and S, DPL, P | type, DPL, P |
| 6 | limit, bits 16 to 19, AVL, L, D, G | offset, bits 16 to 23 |
| 7 | base, bits 24 to 31 | offset, bits 24 to 31 |
-/

import Jatos.Foundation.Packed

namespace X86

open Packed

/-- A byte of a descriptor. -/
def byteAt (b : Bytes 8) (k : ℕ) : ℕ := if h : k < 8 then (b ⟨k, h⟩).toNat else 0

/-- Type and S in bits 0 to 4, the privilege level in bits 5 and 6, P in bit 7. -/
structure Access where
  kind : ℕ
  dpl : ℕ
  present : Bool
  deriving DecidableEq

/-- The access byte, taken apart. -/
def accessOf (b : ℕ) : Access where
  kind := b % 32
  dpl := b / 32 % 4
  present := decide (128 ≤ b)

/-- The meaning of a segment descriptor's eight bytes. -/
structure SegmentDescriptor where
  base : ℕ
  limit : ℕ
  access : Access
  long : Bool
  big : Bool
  granular : Bool
  deriving DecidableEq

/-- A segment descriptor, taken apart. -/
def segmentOf (b : Bytes 8) : SegmentDescriptor where
  base := byteAt b 2 + 2 ^ 8 * byteAt b 3 + 2 ^ 16 * byteAt b 4 + 2 ^ 24 * byteAt b 7
  limit := byteAt b 0 + 2 ^ 8 * byteAt b 1 + 2 ^ 16 * (byteAt b 6 % 16)
  access := accessOf (byteAt b 5)
  long := decide (byteAt b 6 / 32 % 2 = 1)
  big := decide (byteAt b 6 / 64 % 2 = 1)
  granular := decide (byteAt b 6 / 128 % 2 = 1)

/-- The last byte that the segment has, from its base on. -/
def SegmentDescriptor.last (s : SegmentDescriptor) : ℕ :=
  if s.granular then 4096 * s.limit + 4095 else s.limit

/-- The meaning of a gate's eight bytes. -/
structure GateDescriptor where
  offset : ℕ
  selector : ℕ
  reserved : ℕ
  access : Access
  deriving DecidableEq

/-- A gate descriptor, taken apart. -/
def gateOf (b : Bytes 8) : GateDescriptor where
  offset := byteAt b 0 + 2 ^ 8 * byteAt b 1 + 2 ^ 16 * byteAt b 6 + 2 ^ 24 * byteAt b 7
  selector := byteAt b 2 + 2 ^ 8 * byteAt b 3
  reserved := byteAt b 4 / 32
  access := accessOf (byteAt b 5)

/-- A gate of 32 bits that clears `IF`. -/
abbrev interruptGate32 : ℕ := 0x0E

/-! ### Fields of bits -/

variable {α β : Type*} {k l : ℕ}

/-- A field of some bits. -/
def bitField (w : ℕ) : BitVec w ≃ Fin (2 ^ w) where
  toFun := BitVec.toFin
  invFun := BitVec.ofFin
  left_inv _ := rfl
  right_inv _ := rfl

/-- Two fields in a row, the first in the low bits. -/
def fieldPair (f : α ≃ Fin k) (g : β ≃ Fin l) : α × β ≃ Fin (l * k) :=
  (Equiv.prodComm α β).trans ((g.prodCongr f).trans finProdFinEquiv)

/-- Two fields side by side, the lower one first. -/
@[simp] theorem fieldPair_val (f : α ≃ Fin k) (g : β ≃ Fin l) (x : α × β) :
    (fieldPair f g x).val = (f x.1).val + k * (g x.2).val := rfl

/-- The fields that make up a byte. -/
def fieldByte (h : k = 256) (f : α ≃ Fin k) : Layout α 1 :=
  f.trans <| (finCongr h).trans <| Equiv.trans
    { toFun := UInt8.ofFin, invFun := UInt8.toFin, left_inv := fun _ => rfl,
      right_inv := fun _ => rfl } u8

end X86
