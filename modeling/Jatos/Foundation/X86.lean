/-
# A fragment of the x86

The registers in 32-bit mode, the instructions that save and restore them, and
the two transfers of control between privilege levels.  All segments are flat,
nothing faults, and a selector is pushed with zeros above it; `iret` is the one
with NT and VM clear.  Of the code only the order of the instructions is kept,
so `eip` is that of the program that was interrupted.

The stack of a `Machine` lies in its memory.  A `View` has instead the
doublewords from the top of the stack on as a list, on which a sequence of
instructions can be computed; what it computes holds of every machine that it
is a view of (`run_sees`).
-/

import Jatos.Foundation.Memory

namespace X86

open Memory Packed

/-! ### Machines -/

/-- The general registers. -/
inductive Register
  | eax | ecx | edx | ebx | esp | ebp | esi | edi

/-- The segment registers that instructions load. -/
inductive Segment
  | ds | es | fs | gs

/-- The general registers, the segment registers, the flags and the instruction pointer. -/
structure Registers where
  eax : UInt32
  ecx : UInt32
  edx : UInt32
  ebx : UInt32
  esp : UInt32
  ebp : UInt32
  esi : UInt32
  edi : UInt32
  eip : UInt32
  eflags : UInt32
  cs : UInt16
  ss : UInt16
  ds : UInt16
  es : UInt16
  fs : UInt16
  gs : UInt16
  deriving DecidableEq

/-- The value of a general register. -/
def Registers.get (r : Registers) : Register → UInt32
  | .eax => r.eax
  | .ecx => r.ecx
  | .edx => r.edx
  | .ebx => r.ebx
  | .esp => r.esp
  | .ebp => r.ebp
  | .esi => r.esi
  | .edi => r.edi

/-- A general register is written. -/
def Registers.set (r : Registers) : Register → UInt32 → Registers
  | .eax, v => { r with eax := v }
  | .ecx, v => { r with ecx := v }
  | .edx, v => { r with edx := v }
  | .ebx, v => { r with ebx := v }
  | .esp, v => { r with esp := v }
  | .ebp, v => { r with ebp := v }
  | .esi, v => { r with esi := v }
  | .edi, v => { r with edi := v }

/-- The value of a segment register. -/
def Registers.getSegment (r : Registers) : Segment → UInt16
  | .ds => r.ds
  | .es => r.es
  | .fs => r.fs
  | .gs => r.gs

/-- A segment register is written. -/
def Registers.setSegment (r : Registers) : Segment → UInt16 → Registers
  | .ds, v => { r with ds := v }
  | .es, v => { r with es := v }
  | .fs, v => { r with fs := v }
  | .gs, v => { r with gs := v }

/-- The registers and the memory. -/
structure Machine extends Registers where
  mem : ByteMemory

/-- What depends on the processor and its descriptor tables: the flags after an
arithmetic instruction with a result, but for ZF, and the privilege level of the
descriptor that a selector names. -/
structure Processor where
  flags : UInt32 → UInt32 → UInt32
  descriptorLevel : UInt16 → UInt16

/-- ZF in `eflags`. -/
abbrev zeroFlag : UInt32 := 0x40

/-- The flags after an arithmetic instruction. -/
def Processor.flagsOf (c : Processor) (eflags result : UInt32) : UInt32 :=
  if result = 0 then c.flags eflags result ||| zeroFlag
  else c.flags eflags result &&& ~~~zeroFlag

/-- The privilege level in a selector. -/
def level (selector : UInt16) : UInt16 := selector &&& 3

/-- The instructions; `base` and `offset` stand for `[base + offset]`. -/
inductive Instruction
  | push (src : Register)
  | pushImmediate (v : UInt32)
  | pushSegment (src : Segment)
  | pushad
  | pushf
  | pop (dst : Register)
  | popSegment (dst : Segment)
  | popad
  | popf
  | mov (dst src : Register)
  | movImmediate (dst : Register) (v : UInt32)
  /-- `mov ax, v` and the like. -/
  | movLow (dst : Register) (v : UInt16)
  | load (dst base : Register) (offset : UInt32)
  | store (base : Register) (offset : UInt32) (src : Register)
  | lea (dst base : Register) (offset : UInt32)
  | movSegment (dst : Segment) (src : Register)
  | loadSegment (dst : Segment) (base : Register) (offset : UInt32)
  | and (dst : Register) (v : UInt32)
  | add (dst : Register) (v : UInt32)
  | iret

/-- A data segment that the outer level may not use is unloaded. -/
def Processor.outerSegment (c : Processor) (cpl selector : UInt16) : UInt16 :=
  if c.descriptorLevel selector < cpl then 0 else selector

/-- The registers after the return to an outer level. -/
def Processor.outer (c : Processor) (r : Registers) (eip cs eflags esp ss : UInt32) : Registers :=
  let cpl := level cs.toUInt16
  { r with
    eip := eip
    cs := cs.toUInt16
    eflags := eflags
    esp := esp
    ss := ss.toUInt16
    ds := c.outerSegment cpl r.ds
    es := c.outerSegment cpl r.es
    fs := c.outerSegment cpl r.fs
    gs := c.outerSegment cpl r.gs }

/-- The registers after an instruction that writes nothing to memory; `word` reads a
doubleword. -/
def Registers.next {M : Type → Type} [Monad M] (c : Processor) (word : UInt32 → M UInt32)
    (r : Registers) : Instruction → M Registers
  | .pop dst => do
      let v ← word r.esp
      pure ({ r with esp := r.esp + 4 }.set dst v)
  | .popSegment dst => do
      let v ← word r.esp
      pure ({ r with esp := r.esp + 4 }.setSegment dst v.toUInt16)
  | .popad => do
      let edi ← word r.esp
      let esi ← word (r.esp + 4)
      let ebp ← word (r.esp + 8)
      let ebx ← word (r.esp + 16)
      let edx ← word (r.esp + 20)
      let ecx ← word (r.esp + 24)
      let eax ← word (r.esp + 28)
      pure
        { r with
          edi := edi
          esi := esi
          ebp := ebp
          ebx := ebx
          edx := edx
          ecx := ecx
          eax := eax
          esp := r.esp + 32 }
  | .popf => do
      let v ← word r.esp
      pure { r with eflags := v, esp := r.esp + 4 }
  | .mov dst src => pure (r.set dst (r.get src))
  | .movImmediate dst v => pure (r.set dst v)
  | .movLow dst v => pure (r.set dst (r.get dst &&& 0xFFFF0000 ||| v.toUInt32))
  | .load dst base offset => do
      let v ← word (r.get base + offset)
      pure (r.set dst v)
  | .lea dst base offset => pure (r.set dst (r.get base + offset))
  | .movSegment dst src => pure (r.setSegment dst (r.get src).toUInt16)
  | .loadSegment dst base offset => do
      let v ← word (r.get base + offset)
      pure (r.setSegment dst v.toUInt16)
  | .and dst v =>
      let result := r.get dst &&& v
      pure { r.set dst result with eflags := c.flagsOf r.eflags result }
  | .add dst v =>
      let result := r.get dst + v
      pure { r.set dst result with eflags := c.flagsOf r.eflags result }
  | .iret => do
      let eip ← word r.esp
      let cs ← word (r.esp + 4)
      let eflags ← word (r.esp + 8)
      if level r.cs < level cs.toUInt16 then do
        let esp ← word (r.esp + 12)
        let ss ← word (r.esp + 16)
        pure (c.outer r eip cs eflags esp ss)
      else pure { r with eip := eip, cs := cs.toUInt16, eflags := eflags, esp := r.esp + 12 }
  | _ => pure r

namespace Machine

/-- A doubleword on top of the stack. -/
def push (m : Machine) (v : UInt32) : Machine :=
  { m with esp := m.esp - 4, mem := Memory.store u32 m.mem (m.esp - 4) v }

/-- The doubleword at an address. -/
def word (m : Machine) (a : UInt32) : UInt32 := Memory.load u32 m.mem a

/-- One instruction. -/
def step (c : Processor) (m : Machine) : Instruction → Machine
  | .push src => m.push (m.get src)
  | .pushImmediate v => m.push v
  | .pushSegment src => m.push (m.getSegment src).toUInt32
  | .pushad =>
      (((((((m.push m.eax).push m.ecx).push m.edx).push m.ebx).push m.esp).push m.ebp).push
        m.esi).push m.edi
  | .pushf => m.push m.eflags
  | .store base offset src =>
      { m with mem := Memory.store u32 m.mem (m.get base + offset) (m.get src) }
  | i => { m with toRegisters := m.next (M := Id) c m.word i }

/-- A sequence of instructions. -/
def run (c : Processor) (m : Machine) (code : List Instruction) : Machine := code.foldl (step c) m

/-- Code behind code. -/
theorem run_append (c : Processor) (m : Machine) (code code' : List Instruction) :
    m.run c (code ++ code') = (m.run c code).run c code' :=
  List.foldl_append

end Machine

/-- Where an interrupt leads to: the code segment and the offset of the gate, the stack
of the task state segment, and the flags that the handler begins with. -/
structure Gate where
  cs : UInt16
  offset : UInt32
  ss0 : UInt16
  esp0 : UInt32
  flags : UInt32 → UInt32

/-- An interrupt of a program at an outer level. -/
def Machine.interrupt (g : Gate) (m : Machine) : Machine :=
  let k := { m with ss := g.ss0, esp := g.esp0 }
  let k := ((((k.push m.ss.toUInt32).push m.esp).push m.eflags).push m.cs.toUInt32).push m.eip
  { k with cs := g.cs, eip := g.offset, eflags := g.flags m.eflags }

/-! ### Views -/

/-- The registers, and the doublewords from the top of the stack on. -/
structure View extends Registers where
  stack : List UInt32

namespace View

/-- A doubleword on top of the stack. -/
def push (s : View) (v : UInt32) : View := { s with esp := s.esp - 4, stack := v :: s.stack }

/-- The doubleword at an address, if it is known. -/
def word (s : View) (a : UInt32) : Option UInt32 :=
  if (a - s.esp).toNat % 4 = 0 then s.stack[(a - s.esp).toNat / 4]? else none

/-- The doubleword at an address, if it is known, is replaced. -/
def store (s : View) (a v : UInt32) : Option View :=
  if (a - s.esp).toNat % 4 = 0 ∧ (a - s.esp).toNat / 4 < s.stack.length then
    some { s with stack := s.stack.set ((a - s.esp).toNat / 4) v }
  else none

/-- The registers change, `esp` to the address of a doubleword that is known. -/
def enter (s : View) (r : Registers) : Option View :=
  if (r.esp - s.esp).toNat % 4 = 0 ∧ (r.esp - s.esp).toNat / 4 ≤ s.stack.length then
    some { toRegisters := r, stack := s.stack.drop ((r.esp - s.esp).toNat / 4) }
  else none

/-- One instruction, if what it reads is known. -/
def step (c : Processor) (s : View) : Instruction → Option View
  | .push src => some (s.push (s.get src))
  | .pushImmediate v => some (s.push v)
  | .pushSegment src => some (s.push (s.getSegment src).toUInt32)
  | .pushad =>
      some ((((((((s.push s.eax).push s.ecx).push s.edx).push s.ebx).push s.esp).push s.ebp).push
        s.esi).push s.edi)
  | .pushf => some (s.push s.eflags)
  | .store base offset src => s.store (s.get base + offset) (s.get src)
  | i => (s.next c s.word i).bind s.enter

/-- One instruction, if there is a view to begin with. -/
def advance (c : Processor) (o : Option View) (i : Instruction) : Option View := o.bind (step c · i)

/-- A view that is there takes a step. -/
@[simp]
theorem advance_some (c : Processor) (s : View) (i : Instruction) :
    advance c (some s) i = s.step c i := rfl

/-- Once a view is lost it stays lost. -/
theorem foldl_advance_none (c : Processor) (code : List Instruction) :
    code.foldl (advance c) none = none := by
  induction code with
  | nil => rfl
  | cons i code ih => exact ih

/-- A sequence of instructions, if what they read is known. -/
def run (c : Processor) (s : View) (code : List Instruction) : Option View :=
  code.foldl (advance c) (some s)

/-- The first instruction of a run, and the rest. -/
theorem run_cons (c : Processor) (s : View) (i : Instruction) (code : List Instruction) :
    s.run c (i :: code) = (s.step c i).bind fun s' => s'.run c code := by
  rw [run, List.foldl_cons, advance_some]
  cases s.step c i with
  | none => exact foldl_advance_none c code
  | some s' => rfl

end View

variable {c : Processor} {m : Machine} {s s' : View} {i : Instruction} {code : List Instruction}
  {r r' : Registers} {a v : UInt32} {α β : Type}

/-- The machine has these registers and this stack. -/
structure Machine.Sees (m : Machine) (s : View) : Prop where
  registers : m.toRegisters = s.toRegisters
  stack : Holds m.mem s.esp s.stack

/-- A word that the view has is in memory. -/
theorem Machine.Sees.word (h : m.Sees s) (hw : s.word a = some v) : m.word a = v := by
  unfold View.word at hw
  split_ifs at hw with halign
  rw [Machine.word, ← add_four_mul_div halign]
  exact h.stack.get hw

/-- What is known of a value is true. -/
def Agrees (o : Option α) (x : Id α) : Prop := ∀ v, o = some v → x = v

/-- A value agrees with itself. -/
theorem Agrees.pure (v : α) : Agrees (Pure.pure v) (Pure.pure v) := fun _ h => Option.some.inj h

/-- Agreement goes on through a bind. -/
theorem Agrees.bind {o : Option α} {x : Id α} {k : α → Option β} {k' : α → Id β}
    (h : Agrees o x) (hk : ∀ v, Agrees (k v) (k' v)) : Agrees (o >>= k) (x >>= k') := by
  intro w hw
  obtain ⟨v, hv, hw⟩ := Option.bind_eq_some_iff.1 hw
  obtain rfl := h v hv
  exact hk _ w hw

/-- What is known of the reads is all that the registers depend on. -/
theorem next_agrees {f : UInt32 → Option UInt32} {g : UInt32 → Id UInt32}
    (hf : ∀ a, Agrees (f a) (g a)) (r : Registers) (i : Instruction) :
    Agrees (r.next c f i) (r.next c g i) := by
  cases i with
  | pop => exact (hf _).bind fun _ => .pure _
  | popSegment => exact (hf _).bind fun _ => .pure _
  | popad =>
      exact (hf _).bind fun _ => (hf _).bind fun _ => (hf _).bind fun _ => (hf _).bind fun _ =>
        (hf _).bind fun _ => (hf _).bind fun _ => (hf _).bind fun _ => .pure _
  | popf => exact (hf _).bind fun _ => .pure _
  | load => exact (hf _).bind fun _ => .pure _
  | loadSegment => exact (hf _).bind fun _ => .pure _
  | iret =>
      refine (hf _).bind fun _ => (hf _).bind fun cs => (hf _).bind fun _ => ?_
      by_cases hout : level r.cs < level cs.toUInt16
      · simp only [if_pos hout]
        exact (hf _).bind fun _ => (hf _).bind fun _ => .pure _
      · simp only [if_neg hout]
        exact .pure _
  | _ => exact .pure _

/-- What the view computes next the machine computes. -/
theorem Machine.Sees.next (h : m.Sees s) (hn : s.next c s.word i = some r) :
    m.next (M := Id) c m.word i = r := by
  rw [h.registers]
  exact next_agrees (fun a v hv => h.word hv) s.toRegisters i r hn

/-- A push keeps the view. -/
theorem Machine.Sees.push (h : m.Sees s) (hl : 4 * (s.stack.length + 1) ≤ 2 ^ 32) (v : UInt32) :
    (m.push v).Sees (s.push v) := by
  obtain ⟨r, mem⟩ := m
  obtain ⟨r', l⟩ := s
  obtain ⟨he, hstack⟩ := h
  obtain rfl : r = r' := he
  exact ⟨rfl, hstack.push hl v⟩

/-- A store that the view allows keeps it. -/
theorem Machine.Sees.store (h : m.Sees s) (hl : 4 * s.stack.length ≤ 2 ^ 32)
    (hs : s.store a v = some s') :
    Machine.Sees { m with mem := Memory.store u32 m.mem a v } s' := by
  unfold View.store at hs
  split_ifs at hs with hin
  obtain rfl := Option.some.inj hs
  refine ⟨h.registers, ?_⟩
  have hset := h.stack.set hl hin.2 v
  rwa [add_four_mul_div hin.1] at hset

/-- New registers that the view allows keep it. -/
theorem Machine.Sees.enter (h : m.Sees s) (hs : s.enter r = some s') :
    Machine.Sees { m with toRegisters := r } s' := by
  unfold View.enter at hs
  split_ifs at hs with hin
  obtain rfl := Option.some.inj hs
  refine ⟨rfl, ?_⟩
  have hdrop := h.stack
  rw [← List.take_append_drop ((r.esp - s.esp).toNat / 4) s.stack, holds_append] at hdrop
  have hlen : (s.stack.take ((r.esp - s.esp).toNat / 4)).length = (r.esp - s.esp).toNat / 4 := by
    rw [List.length_take, Nat.min_eq_left hin.2]
  rw [hlen, add_four_mul_div hin.1] at hdrop
  exact hdrop.2

/-- A store does not change the height of the stack. -/
theorem View.length_store (hs : s.store a v = some s') : s'.stack.length = s.stack.length := by
  unfold View.store at hs
  split_ifs at hs
  obtain rfl := Option.some.inj hs
  exact List.length_set

/-- New registers may give up words of the stack, and add none. -/
theorem View.length_enter (hs : s.enter r = some s') : s'.stack.length ≤ s.stack.length := by
  unfold View.enter at hs
  split_ifs at hs
  obtain rfl := Option.some.inj hs
  rw [List.length_drop]
  exact Nat.sub_le _ _

/-- An instruction that writes nothing to memory. -/
theorem Machine.Sees.read (h : m.Sees s)
    (hm : m.step c i = { m with toRegisters := m.next (M := Id) c m.word i })
    (hv : s.step c i = (s.next c s.word i).bind s.enter) (hs : s.step c i = some s') :
    (m.step c i).Sees s' ∧ s'.stack.length ≤ s.stack.length + 8 := by
  rw [hv] at hs
  obtain ⟨r, hn, henter⟩ := Option.bind_eq_some_iff.1 hs
  rw [hm, h.next hn]
  exact ⟨h.enter henter, (View.length_enter henter).trans (Nat.le_add_right _ _)⟩

/-- **One instruction.** -/
theorem Machine.Sees.step (h : m.Sees s) (hl : s.stack.length + 8 ≤ 2 ^ 30)
    (hs : s.step c i = some s') : (m.step c i).Sees s' ∧ s'.stack.length ≤ s.stack.length + 8 := by
  obtain ⟨r, mem⟩ := m
  obtain ⟨r', l⟩ := s
  obtain ⟨he, hstack⟩ := h
  obtain rfl : r = r' := he
  have h : Machine.Sees ⟨r, mem⟩ ⟨r, l⟩ := ⟨rfl, hstack⟩
  dsimp only at hl
  have hpush : ∀ v, (Machine.push ⟨r, mem⟩ v).Sees (View.push ⟨r, l⟩ v) ∧
      (View.push ⟨r, l⟩ v).stack.length ≤ l.length + 8 := fun v =>
    ⟨h.push (by dsimp only; omega) v, by simp [View.push]⟩
  cases i with
  | push src =>
      obtain rfl := Option.some.inj hs
      exact hpush _
  | pushImmediate v =>
      obtain rfl := Option.some.inj hs
      exact hpush _
  | pushSegment src =>
      obtain rfl := Option.some.inj hs
      exact hpush _
  | pushf =>
      obtain rfl := Option.some.inj hs
      exact hpush _
  | pushad =>
      obtain rfl := Option.some.inj hs
      refine ⟨?_, by simp [View.push]⟩
      have hroom : ∀ n, n ≤ 7 → 4 * (l.length + n + 1) ≤ 2 ^ 32 := fun n hn => by omega
      exact (((((((h.push (hroom 0 (by omega)) _).push (hroom 1 (by omega)) _).push
        (hroom 2 (by omega)) _).push (hroom 3 (by omega)) _).push (hroom 4 (by omega)) _).push
        (hroom 5 (by omega)) _).push (hroom 6 (by omega)) _).push (hroom 7 (by omega)) _
  | store base offset src =>
      exact ⟨h.store (by dsimp only; omega) hs,
        (View.length_store hs).le.trans (Nat.le_add_right _ _)⟩
  | _ => exact h.read rfl rfl hs

/-- **A sequence of instructions.** -/
theorem Machine.Sees.run (h : m.Sees s) (hl : s.stack.length + 8 * code.length ≤ 2 ^ 30)
    (hs : s.run c code = some s') : (m.run c code).Sees s' := by
  induction code generalizing m s with
  | nil =>
      obtain rfl := Option.some.inj hs
      exact h
  | cons i code ih =>
      rw [View.run_cons] at hs
      obtain ⟨s₁, hi, hs⟩ := Option.bind_eq_some_iff.1 hs
      rw [List.length_cons] at hl
      obtain ⟨h₁, hlen⟩ := h.step (by omega) hi
      exact ih h₁ (by omega) hs

/-- A sequence of instructions that ends with the return from an interrupt. -/
theorem Machine.Sees.run_iret (h : m.Sees s) (hl : s.stack.length + 8 * code.length ≤ 2 ^ 30)
    (hs : s.run c code = some s') (hr : s'.next c s'.word .iret = some r) :
    (m.run c (code ++ [.iret])).toRegisters = r := by
  rw [Machine.run, List.foldl_concat]
  exact (h.run hl hs).next hr

/-- What the handler of an interrupt finds on its stack. -/
def View.interrupted (g : Gate) (r : Registers) : View :=
  { r with
    cs := g.cs
    eip := g.offset
    ss := g.ss0
    eflags := g.flags r.eflags
    esp := g.esp0 - 20
    stack := [r.eip, r.cs.toUInt32, r.eflags, r.esp, r.ss.toUInt32] }

/-- The machine behind an interrupt is seen as the gate says. -/
theorem Machine.sees_interrupt (g : Gate) (m : Machine) :
    (m.interrupt g).Sees (.interrupted g m.toRegisters) := by
  have h : Holds m.mem g.esp0 [] := trivial
  have h := h.push (by simp) m.ss.toUInt32
  have h := h.push (by simp) m.esp
  have h := h.push (by simp) m.eflags
  have h := h.push (by simp) m.cs.toUInt32
  have h := h.push (by simp) m.eip
  have hesp : g.esp0 - 4 - 4 - 4 - 4 - 4 = g.esp0 - 20 := by
    simp only [sub_sub]
    rfl
  unfold interrupt push View.interrupted
  simp only [hesp] at h ⊢
  exact ⟨rfl, h⟩

end X86
