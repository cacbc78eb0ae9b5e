/-
# The descriptor tables

`src/gdt.c` and `src/idt.c`, with the packed structures of `header/cpu/gdt.h` and
`header/interrupt/idt.h`.  `initialize_idt` is without its `lidt` and `sti`, the
stubs are at arbitrary addresses, and so are the tables in memory.

What the processor reads out of them is in `tables_spec`.
-/

import Jatos.Foundation.Descriptors
import Jatos.Interrupt.Code

namespace Jatos
namespace Interrupt

open X86 Memory Packed

/-! ### Segment descriptors -/

/-- `struct SegmentDescriptor`. -/
structure SegmentDescriptor where
  segmentLow : UInt16
  baseLow : UInt16
  baseMid : UInt8
  typeBit : BitVec 4
  nonSystem : BitVec 1
  dpl : BitVec 2
  p : BitVec 1
  segLimit : BitVec 4
  avl : BitVec 1
  l : BitVec 1
  defaultOp : BitVec 1
  g : BitVec 1
  baseHigh : UInt8

/-- The members of a descriptor, in the order of the struct. -/
def segmentMembers : SegmentDescriptor ≃ UInt16 × UInt16 × UInt8 ×
    (BitVec 4 × BitVec 1 × BitVec 2 × BitVec 1) ×
    (BitVec 4 × BitVec 1 × BitVec 1 × BitVec 1 × BitVec 1) × UInt8 where
  toFun s := (s.segmentLow, s.baseLow, s.baseMid, (s.typeBit, s.nonSystem, s.dpl, s.p),
    (s.segLimit, s.avl, s.l, s.defaultOp, s.g), s.baseHigh)
  invFun := fun (sl, bl, bm, (t, n, d, p), (lim, a, l, o, g), bh) =>
    ⟨sl, bl, bm, t, n, d, p, lim, a, l, o, g, bh⟩
  left_inv _ := rfl
  right_inv _ := rfl

/-- The bits of an access byte fill it. -/
theorem access_size : 2 ^ 1 * 2 ^ 2 * 2 ^ 1 * 2 ^ 4 = 256 := rfl

/-- The bits of the flags' byte fill it. -/
theorem flags_size : 2 ^ 1 * 2 ^ 1 * 2 ^ 1 * 2 ^ 1 * 2 ^ 4 = 256 := rfl

/-- The eight bytes of a descriptor. -/
def segmentLayout : Layout SegmentDescriptor 8 :=
  segmentMembers.trans <| pair u16 <| pair u16 <| pair u8 <|
    pair (fieldByte access_size (fieldPair (bitField 4) (fieldPair (bitField 1)
      (fieldPair (bitField 2) (bitField 1))))) <|
    pair (fieldByte flags_size (fieldPair (bitField 4) (fieldPair (bitField 1)
      (fieldPair (bitField 1) (fieldPair (bitField 1) (bitField 1)))))) u8

/-- What the processor makes of a descriptor. -/
def SegmentDescriptor.meaning (s : SegmentDescriptor) : X86.SegmentDescriptor where
  base := s.baseLow.toNat + 2 ^ 16 * s.baseMid.toNat + 2 ^ 24 * s.baseHigh.toNat
  limit := s.segmentLow.toNat + 2 ^ 16 * s.segLimit.toNat
  access := ⟨s.typeBit.toNat + 16 * s.nonSystem.toNat, s.dpl.toNat, decide (s.p = 1)⟩
  long := decide (s.l = 1)
  big := decide (s.defaultOp = 1)
  granular := decide (s.g = 1)

/-- A word of 16 bits is its two bytes. -/
theorem u16_toNat (v : UInt16) : (u16 v 0).toNat + 2 ^ 8 * (u16 v 1).toNat = v.toNat := by
  have hlt := v.toNat_lt
  show (UInt8.ofNat (v.toNat / 256 ^ 0)).toNat + 2 ^ 8 * (UInt8.ofNat (v.toNat / 256 ^ 1)).toNat = _
  rw [UInt8.toNat_ofNat', UInt8.toNat_ofNat']
  omega

/-- A bit is one if and only if its number is. -/
theorem bit_eq_one (b : BitVec 1) : b = 1 ↔ b.toNat = 1 := BitVec.toNat_inj.symm

/-- A segment descriptor is read from memory with its meaning. -/
theorem segmentOf_segmentLayout (s : SegmentDescriptor) :
    segmentOf (segmentLayout s) = s.meaning := by
  have hlow := u16_toNat s.segmentLow
  have hbase := u16_toNat s.baseLow
  have h5 : byteAt (segmentLayout s) 5 =
      s.typeBit.toNat + 16 * (s.nonSystem.toNat + 2 * (s.dpl.toNat + 4 * s.p.toNat)) := rfl
  have h6 : byteAt (segmentLayout s) 6 = s.segLimit.toNat + 16 * (s.avl.toNat + 2 * (s.l.toNat +
      2 * (s.defaultOp.toNat + 2 * s.g.toNat))) := rfl
  have := s.typeBit.isLt
  have := s.nonSystem.isLt
  have := s.dpl.isLt
  have := s.p.isLt
  have := s.segLimit.isLt
  have := s.avl.isLt
  have := s.l.isLt
  have := s.defaultOp.isLt
  have := s.g.isLt
  rw [segmentOf, accessOf, h5, h6]
  rw [SegmentDescriptor.meaning]
  congr 1
  · show (u16 s.baseLow 0).toNat + 2 ^ 8 * (u16 s.baseLow 1).toNat + 2 ^ 16 * s.baseMid.toNat +
      2 ^ 24 * s.baseHigh.toNat = _
    omega
  · show (u16 s.segmentLow 0).toNat + 2 ^ 8 * (u16 s.segmentLow 1).toNat + _ = _
    omega
  · congr 1
    · omega
    · omega
    · simp only [bit_eq_one, decide_eq_decide]
      omega
  · simp only [bit_eq_one, decide_eq_decide]
    omega
  · simp only [bit_eq_one, decide_eq_decide]
    omega
  · simp only [bit_eq_one, decide_eq_decide]
    omega

/-! ### The global descriptor table -/

/-- The global descriptor table. -/
abbrev GlobalDescriptorTable := Fin 32 → SegmentDescriptor

/-- A descriptor of zeros. -/
def SegmentDescriptor.zero : SegmentDescriptor := ⟨0, 0, 0, 0, 0, 0, 0, 0, 0, 0, 0, 0, 0⟩

/-- A segment from 0 on, of 2^20 pages. -/
def flatDescriptor (typeBit : BitVec 4) (dpl : BitVec 2) : SegmentDescriptor where
  segmentLow := 0xFFFF
  baseLow := 0
  baseMid := 0
  typeBit := typeBit
  nonSystem := 1
  dpl := dpl
  p := 1
  segLimit := 0xF
  avl := 0
  l := 0
  defaultOp := 1
  g := 1
  baseHigh := 0

/-- The entry of the TSS, which has 104 bytes. -/
def tssDescriptor : SegmentDescriptor where
  segmentLow := 104
  baseLow := 0
  baseMid := 0
  typeBit := 0x9
  nonSystem := 0
  dpl := 0
  p := 1
  segLimit := 0
  avl := 0
  l := 0
  defaultOp := 1
  g := 0
  baseHigh := 0

/-- The table of the source, before the task state is set. -/
def globalDescriptorTable : GlobalDescriptorTable := fun i =>
  match i.val with
  | 1 => flatDescriptor 0xA 0
  | 2 => flatDescriptor 0x2 0
  | 3 => flatDescriptor 0xA 3
  | 4 => flatDescriptor 0x2 3
  | 5 => tssDescriptor
  | _ => .zero

/-- The task state has an entry in the table. -/
theorem tssIndex_lt : 5 < 32 := by decide

/-- The entry of the TSS. -/
def tssIndex : Fin 32 := ⟨5, tssIndex_lt⟩

/-- `gdt_install_tss`, with the address of `_interrupt_tss_entry`. -/
def gdtInstallTss (base : UInt32) (table : GlobalDescriptorTable) : GlobalDescriptorTable :=
  Function.update table tssIndex { table tssIndex with
    baseHigh := ((base &&& 0xFF000000) >>> 24).toUInt8
    baseMid := ((base &&& 0xFF0000) >>> 16).toUInt8
    baseLow := (base &&& 0xFFFF).toUInt16 }

/-! ### Interrupt gates -/

/-- `struct IDTGate`. -/
structure IDTGate where
  offsetLow : UInt16
  segment : UInt16
  reserved : BitVec 5
  rBit1 : BitVec 3
  rBit2 : BitVec 3
  gate32 : BitVec 1
  rBit3 : BitVec 1
  dpl : BitVec 2
  validBit : BitVec 1
  offsetHigh : UInt16

/-- The members of a gate, in the order of the struct. -/
def gateMembers : IDTGate ≃ UInt16 × UInt16 × (BitVec 5 × BitVec 3) ×
    (BitVec 3 × BitVec 1 × BitVec 1 × BitVec 2 × BitVec 1) × UInt16 where
  toFun g := (g.offsetLow, g.segment, (g.reserved, g.rBit1),
    (g.rBit2, g.gate32, g.rBit3, g.dpl, g.validBit), g.offsetHigh)
  invFun := fun (ol, s, (r, r1), (r2, g32, r3, d, v), oh) => ⟨ol, s, r, r1, r2, g32, r3, d, v, oh⟩
  left_inv _ := rfl
  right_inv _ := rfl

/-- The bits of a gate's reserved byte fill it. -/
theorem reserved_size : 2 ^ 3 * 2 ^ 5 = 256 := rfl

/-- The bits of a gate's type byte fill it. -/
theorem type_size : 2 ^ 1 * 2 ^ 2 * 2 ^ 1 * 2 ^ 1 * 2 ^ 3 = 256 := rfl

/-- The eight bytes of a gate. -/
def gateLayout : Layout IDTGate 8 :=
  gateMembers.trans <| pair u16 <| pair u16 <|
    pair (fieldByte reserved_size (fieldPair (bitField 5) (bitField 3))) <|
    pair (fieldByte type_size (fieldPair (bitField 3) (fieldPair (bitField 1)
      (fieldPair (bitField 1) (fieldPair (bitField 2) (bitField 1)))))) u16

/-- What the processor makes of a gate. -/
def IDTGate.meaning (g : IDTGate) : GateDescriptor where
  offset := g.offsetLow.toNat + 2 ^ 16 * g.offsetHigh.toNat
  selector := g.segment.toNat
  reserved := g.rBit1.toNat
  access := ⟨g.rBit2.toNat + 8 * g.gate32.toNat + 16 * g.rBit3.toNat, g.dpl.toNat,
    decide (g.validBit = 1)⟩

/-- A gate is read from memory with its meaning. -/
theorem gateOf_gateLayout (g : IDTGate) : gateOf (gateLayout g) = g.meaning := by
  have hlow := u16_toNat g.offsetLow
  have hhigh := u16_toNat g.offsetHigh
  have hsegment := u16_toNat g.segment
  have h4 : byteAt (gateLayout g) 4 = g.reserved.toNat + 32 * g.rBit1.toNat := rfl
  have h5 : byteAt (gateLayout g) 5 = g.rBit2.toNat + 8 * (g.gate32.toNat + 2 * (g.rBit3.toNat +
      2 * (g.dpl.toNat + 4 * g.validBit.toNat))) := rfl
  have := g.reserved.isLt
  have := g.rBit2.isLt
  have := g.gate32.isLt
  have := g.rBit3.isLt
  have := g.dpl.isLt
  have := g.validBit.isLt
  rw [gateOf, accessOf, h4, h5, IDTGate.meaning]
  congr 1
  · show (u16 g.offsetLow 0).toNat + 2 ^ 8 * (u16 g.offsetLow 1).toNat +
      2 ^ 16 * (u16 g.offsetHigh 0).toNat + 2 ^ 24 * (u16 g.offsetHigh 1).toNat = _
    omega
  · omega
  · congr 1
    · omega
    · omega
    · simp only [bit_eq_one, decide_eq_decide]
      omega

/-- The interrupt descriptor table. -/
abbrev InterruptDescriptorTable := Fin 256 → IDTGate

/-- The table before it is set. -/
def IDTGate.zero : IDTGate := ⟨0, 0, 0, 0, 0, 0, 0, 0, 0, 0⟩

/-- Every vector has an entry in the table. -/
theorem index_lt (v : UInt8) : v.toNat < 256 := v.toNat_lt

/-- `set_interrupt_gate`. -/
def setInterruptGate (intVector : UInt8) (handlerAddress : UInt32) (gdtSegSelector : UInt16)
    (privilege : UInt8) (table : InterruptDescriptorTable) : InterruptDescriptorTable :=
  let i : Fin 256 := ⟨intVector.toNat, index_lt intVector⟩
  Function.update table i { table i with
    offsetLow := (handlerAddress &&& 0xFFFF).toUInt16
    offsetHigh := (handlerAddress >>> 16).toUInt16
    dpl := BitVec.ofNat 2 privilege.toNat
    segment := gdtSegSelector
    rBit1 := 0
    rBit2 := 6
    rBit3 := 0
    gate32 := 1
    validBit := 1 }

/-- The third argument of `set_interrupt_gate` for entry `i`. -/
def privilegeOf (i : ℕ) : UInt8 := if 0x30 ≤ i ∧ i ≤ 0x3F then 3 else 0

/-- The loop of `initialize_idt`, up to entry `n`. -/
def initializeIdtUpTo (isrStubTable : ℕ → UInt32) (n : ℕ) (table : InterruptDescriptorTable) :
    InterruptDescriptorTable :=
  (List.range n).foldl (fun table i =>
    setInterruptGate (UInt8.ofNat i) (isrStubTable i) 0x8 (privilegeOf i) table) table

/-- `initialize_idt`. -/
def initializeIdt (isrStubTable : ℕ → UInt32) (table : InterruptDescriptorTable) :
    InterruptDescriptorTable :=
  initializeIdtUpTo isrStubTable 64 table

/-- The gate that the loop sets. -/
def stubGate (offset : UInt32) (i : ℕ) : GateDescriptor where
  offset := offset.toNat
  selector := 0x8
  reserved := 0
  access := ⟨interruptGate32, if 0x30 ≤ i ∧ i ≤ 0x3F then 3 else 0, true⟩

/-- A gate that is set leads to its stub, and the others stay. -/
theorem setInterruptGate_meaning (i : ℕ) (hi : i < 256) (address : UInt32)
    (table : InterruptDescriptorTable) (v : Fin 256) :
    (setInterruptGate (UInt8.ofNat i) address 0x8 (privilegeOf i) table v).meaning =
      if v.val = i then stubGate address i else (table v).meaning := by
  have hindex : (UInt8.ofNat i).toNat = i := by
    rw [UInt8.toNat_ofNat']
    omega
  rw [setInterruptGate, Function.update_apply]
  simp only [Fin.ext_iff, hindex]
  split_ifs with hv
  · have hmod := Nat.and_two_pow_sub_one_eq_mod address.toNat 16
    have hlt := address.toNat_lt
    have hoffset : (address &&& 0xFFFF).toUInt16.toNat + 2 ^ 16 * (address >>> 16).toUInt16.toNat =
        address.toNat := by
      rw [UInt32.toNat_toUInt16, UInt32.toNat_toUInt16, UInt32.toNat_and, UInt32.toNat_shiftRight]
      show (address.toNat &&& 2 ^ 16 - 1) % 2 ^ 16 + 2 ^ 16 * (address.toNat >>> 16 % 2 ^ 16) = _
      rw [hmod, Nat.shiftRight_eq_div_pow]
      omega
    rw [IDTGate.meaning, stubGate]
    simp only [hoffset]
    congr 1
    congr 1
    unfold privilegeOf
    split_ifs <;> rfl
  · rfl

/-- **What `initialize_idt` leaves**, whatever was there. -/
theorem initializeIdtUpTo_meaning (isrStubTable : ℕ → UInt32) {n : ℕ} (hn : n ≤ 256)
    (table : InterruptDescriptorTable) (v : Fin 256) :
    (initializeIdtUpTo isrStubTable n table v).meaning =
      if v.val < n then stubGate (isrStubTable v) v else (table v).meaning := by
  induction n with
  | zero => rfl
  | succ n ih =>
      have hlast : initializeIdtUpTo isrStubTable (n + 1) table =
          setInterruptGate (UInt8.ofNat n) (isrStubTable n) 0x8 (privilegeOf n)
            (initializeIdtUpTo isrStubTable n table) := by
        rw [initializeIdtUpTo, List.range_succ, List.foldl_append]
        rfl
      rw [hlast, setInterruptGate_meaning n (by omega), ih (by omega)]
      by_cases hv : v.val = n
      · rw [if_pos hv, if_pos (by omega), hv]
      · by_cases hlt : v.val < n
        · rw [if_neg hv, if_pos hlt, if_pos (by omega)]
        · rw [if_neg hv, if_neg hlt, if_neg (by omega)]

/-! ### The tables in memory -/

/-- The gate that the processor finds for a vector. -/
def gateAt (m : ByteMemory) (idt : UInt32) (v : UInt8) : GateDescriptor :=
  gateOf (load (bytes 8) m (idt + UInt32.ofNat (8 * v.toNat)))

/-- The descriptor that the processor finds for a selector. -/
def segmentAt (m : ByteMemory) (gdt : UInt32) (selector : UInt16) : X86.SegmentDescriptor :=
  segmentOf (load (bytes 8) m (gdt + UInt32.ofNat (8 * (selector.toNat / 8))))

variable {m : ByteMemory} {idt gdt : UInt32}

/-- The gate of a vector is the entry of the table that was loaded. -/
theorem gateAt_eq {table : InterruptDescriptorTable}
    (h : load (array 256 gateLayout) m idt = table) (v : UInt8) :
    gateAt m idt v = (table ⟨v.toNat, index_lt v⟩).meaning := by
  rw [← h, load_array, ← gateOf_gateLayout, load, Equiv.apply_symm_apply]
  rfl

/-- The segment of a selector is the entry of the table that was loaded. -/
theorem segmentAt_eq {table : GlobalDescriptorTable}
    (h : load (array 32 segmentLayout) m gdt = table) {selector : UInt16}
    (hi : selector.toNat / 8 < 32) :
    segmentAt m gdt selector = (table ⟨selector.toNat / 8, hi⟩).meaning := by
  rw [← h, load_array, ← segmentOf_segmentLayout, load, Equiv.apply_symm_apply]
  rfl

/-- The mask of a base's high byte takes nothing away. -/
theorem base_high_eq (base : UInt32) :
    ((base &&& 0xFF000000) >>> 24).toUInt8 = (base >>> 24).toUInt8 := by
  have hmask : ∀ i < 8, (0xFF000000#32).getLsbD (24 + i) = true := by decide
  apply UInt8.toBitVec_inj.1
  ext i hi
  simpa using fun _ => hmask i hi

/-- The mask of a base's third byte takes nothing away that is looked at. -/
theorem base_mid_eq (base : UInt32) :
    ((base &&& 0xFF0000) >>> 16).toUInt8 = (base >>> 16).toUInt8 := by
  have hmask : ∀ i < 8, (0xFF0000#32).getLsbD (16 + i) = true := by decide
  apply UInt8.toBitVec_inj.1
  ext i hi
  simpa using fun _ => hmask i hi

/-- The low half of a base is cut to 16 bits. -/
theorem low_eq (base : UInt32) : (base &&& 0xFFFF).toUInt16 = base.toUInt16 := by
  apply UInt16.toNat_inj.1
  rw [UInt32.toNat_toUInt16, UInt32.toNat_toUInt16, UInt32.toNat_and]
  show (base.toNat &&& 2 ^ 16 - 1) % 2 ^ 16 = _
  rw [Nat.and_two_pow_sub_one_eq_mod, Nat.mod_mod]

/-- The address of the TSS, from its three parts. -/
theorem gdtInstallTss_base (base : UInt32) (table : GlobalDescriptorTable) :
    (gdtInstallTss base table tssIndex).meaning.base = base.toNat := by
  have hlt := base.toNat_lt
  rw [gdtInstallTss, Function.update_self, base_high_eq, base_mid_eq, low_eq]
  simp only [SegmentDescriptor.meaning, UInt32.toNat_toUInt8, UInt32.toNat_toUInt16,
    UInt32.toNat_shiftRight, UInt32.reduceToNat, Nat.reduceMod, Nat.shiftRight_eq_div_pow]
  omega

/-- The level of a selector, as the context switch takes it to be. -/
theorem gdtInstallTss_dpl (base : UInt32) (selector : UInt16) (hi : selector.toNat / 8 < 32) :
    (gdtInstallTss base globalDescriptorTable ⟨selector.toNat / 8, hi⟩).meaning.access.dpl =
      (descriptorLevel selector).toNat := by
  have hkeep : (gdtInstallTss base globalDescriptorTable ⟨selector.toNat / 8, hi⟩).dpl =
      (globalDescriptorTable ⟨selector.toNat / 8, hi⟩).dpl := by
    rw [gdtInstallTss, Function.update_apply]
    split_ifs with h
    · rw [h]
    · rfl
  have hshift : (selector >>> 3).toNat = selector.toNat / 8 := by
    rw [UInt16.toNat_shiftRight]
    exact Nat.shiftRight_eq_div_pow _ 3
  have hlevel : ∀ k : Fin 32, (globalDescriptorTable k).dpl.toNat =
      if k.val = 3 ∨ k.val = 4 then 3 else 0 := by decide
  show (gdtInstallTss base globalDescriptorTable ⟨selector.toNat / 8, hi⟩).dpl.toNat = _
  rw [hkeep, hlevel, descriptorLevel]
  simp only [← UInt16.toNat_inj, hshift]
  show (if selector.toNat / 8 = 3 ∨ selector.toNat / 8 = 4 then 3 else 0) =
    UInt16.toNat (if selector.toNat / 8 = 3 ∨ selector.toNat / 8 = 4 then 3 else 0)
  split_ifs <;> rfl

/-- A flat descriptor covers the four GiB. -/
theorem flatDescriptor_meaning (typeBit : BitVec 4) (dpl : BitVec 2) :
    (flatDescriptor typeBit dpl).meaning.base = 0 ∧
      (flatDescriptor typeBit dpl).meaning.last = 2 ^ 32 - 1 := by
  simp [flatDescriptor, SegmentDescriptor.meaning, X86.SegmentDescriptor.last]

/-- The gates, from the table in memory. -/
theorem gateAt_initializeIdt {isrStubTable : ℕ → UInt32}
    (hidt : load (array 256 gateLayout) m idt = initializeIdt isrStubTable fun _ => .zero)
    (v : UInt8) : gateAt m idt v = if v.toNat < 64 then stubGate (isrStubTable v.toNat) v.toNat
      else IDTGate.zero.meaning := by
  rw [gateAt_eq hidt, initializeIdt, initializeIdtUpTo_meaning _ (by omega)]

/-- **What the processor finds in the tables**, wherever they, the stubs and the TSS are.
Vectors below 64 lead to their stubs through gates of 32 bits that clear `IF`, and a
program of the user may raise those from `0x30` to `0x3F` only; the other vectors have no
gate.  The four segments are all of the memory, every selector has the level that
`process_context_switch` takes it to have, and the TSS is where it is. -/
theorem tables_spec {isrStubTable : ℕ → UInt32} {tss : UInt32}
    (hidt : load (array 256 gateLayout) m idt = initializeIdt isrStubTable fun _ => .zero)
    (hgdt : load (array 32 segmentLayout) m gdt = gdtInstallTss tss globalDescriptorTable) :
    (∀ v : UInt8, gateAt m idt v =
      if v.toNat < 64 then stubGate (isrStubTable v.toNat) v.toNat else IDTGate.zero.meaning) ∧
    (∀ v : UInt8, ((gateAt m idt v).access.present = true ∧ 3 ≤ (gateAt m idt v).access.dpl) ↔
      0x30 ≤ v.toNat ∧ v.toNat ≤ 0x3F) ∧
    (∀ selector : UInt16, selector.toNat / 8 < 32 →
      (segmentAt m gdt selector).access.dpl = (descriptorLevel selector).toNat) ∧
    (∀ selector ∈ ([0x8, 0x10, 0x18, 0x20] : List UInt16), (segmentAt m gdt selector).base = 0 ∧
      (segmentAt m gdt selector).last = 2 ^ 32 - 1) ∧
    (segmentAt m gdt 0x28).base = tss.toNat := by
  have hgate := gateAt_initializeIdt hidt
  refine ⟨hgate, fun v => ?_, fun selector hi => ?_, ?_, ?_⟩
  · rw [hgate]
    split_ifs with hv
    · simp only [stubGate, true_and]
      split_ifs <;> omega
    · simp only [IDTGate.meaning, IDTGate.zero]
      refine ⟨fun h => ?_, fun h => by omega⟩
      simp at h
  · rw [segmentAt_eq hgdt hi, gdtInstallTss_dpl]
  · intro selector hselector
    simp only [List.mem_cons, List.not_mem_nil, or_false] at hselector
    obtain rfl | rfl | rfl | rfl := hselector <;> rw [segmentAt_eq hgdt (by decide)]
    · exact flatDescriptor_meaning 0xA 0
    · exact flatDescriptor_meaning 0x2 0
    · exact flatDescriptor_meaning 0xA 3
    · exact flatDescriptor_meaning 0x2 3
  · rw [segmentAt_eq hgdt (by decide)]
    exact gdtInstallTss_base tss _

/-- Stubs of sixteen bytes from an address on. -/
def sampleStubs (i : ℕ) : UInt32 := UInt32.ofNat (0xC0100000 + 16 * i)

/-- A memory with both tables. -/
def sampleTables : ByteMemory :=
  store (array 256 gateLayout)
    (store (array 32 segmentLayout) (fun _ => 0) 0xC0103000
      (gdtInstallTss 0xC0104560 globalDescriptorTable)) 0xC0102000
    (initializeIdt sampleStubs fun _ => .zero)

/-- The tables of one placement, as the processor reads them. -/
theorem tables_spec_sample :
    (∀ v : UInt8, gateAt sampleTables 0xC0102000 v =
      if v.toNat < 64 then stubGate (sampleStubs v.toNat) v.toNat else IDTGate.zero.meaning) ∧
    (∀ v : UInt8, ((gateAt sampleTables 0xC0102000 v).access.present = true ∧
      3 ≤ (gateAt sampleTables 0xC0102000 v).access.dpl) ↔ 0x30 ≤ v.toNat ∧ v.toNat ≤ 0x3F) ∧
    (∀ selector : UInt16, selector.toNat / 8 < 32 →
      (segmentAt sampleTables 0xC0103000 selector).access.dpl =
        (descriptorLevel selector).toNat) ∧
    (∀ selector ∈ ([0x8, 0x10, 0x18, 0x20] : List UInt16),
      (segmentAt sampleTables 0xC0103000 selector).base = 0 ∧
      (segmentAt sampleTables 0xC0103000 selector).last = 2 ^ 32 - 1) ∧
    (segmentAt sampleTables 0xC0103000 0x28).base = (0xC0104560 : UInt32).toNat := by
  refine tables_spec (load_store _ _ _ _ (by decide)) ?_
  refine (load_congr _ (by decide) fun x hx => store_of_le _ _ _ ?_).trans
    (load_store _ _ _ _ (by decide))
  have hlt := x.toNat_lt
  rw [UInt32.toNat_sub] at hx ⊢
  simp only [UInt32.reduceToNat] at hx ⊢
  omega

end Interrupt
end Jatos
