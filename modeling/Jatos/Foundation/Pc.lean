/-
# The interrupt controllers and the timer of a PC

Two 8259 controllers in a cascade, the slave on line 2 of the master, and channel
0 of the 8254 counter, behind their ports.  A line that asks for service is
latched until the processor takes its interrupt, and a controller offers the
first of its unmasked lines unless it or one before it is in service.

| port | access | register |
| --- | --- | --- |
| `0x20`, `0xA0` | out | initialization (`ICW1`), end of interrupt |
| `0x21`, `0xA1` | out | the other words of the initialization, then the mask |
| `0x21`, `0xA1` | in | mask |
| `0x40`, `0x43` | out | counter, command of the counter |
| `0x80` | out | none |

Commands that are not for edges, the cascade, the 8086 mode and the plain end of an
interrupt have no result here.
-/

import Jatos.Foundation.Ports
import Mathlib.Data.List.FinRange
import Mathlib.Logic.Function.Basic

namespace Pc

open Ports

/-! ### One controller -/

/-- The word of its initialization that a controller expects. -/
inductive Stage
  | ready | icw2 | icw3 | icw4
  deriving DecidableEq

/-- An 8259: its requests, what is in service, its mask and its setting up. -/
structure Controller where
  irr : Fin 8 → Bool
  isr : Fin 8 → Bool
  imr : UInt8
  offset : UInt8
  cascade : UInt8
  stage : Stage

variable {c : Controller} {i j : Fin 8}

/-- Whether the mask holds a line back. -/
def Controller.masked (c : Controller) (i : Fin 8) : Bool := c.imr.toBitVec.getLsbD i

/-- No line up to `i` is in service. -/
def Controller.clear (c : Controller) (i : Fin 8) : Bool :=
  (List.finRange 8).all fun j => decide (i < j) || !c.isr j

/-- The line for which the controller asks. -/
def Controller.request (c : Controller) : Option (Fin 8) :=
  (List.finRange 8).find? fun i => c.irr i && !c.masked i && c.clear i

/-- The processor takes the interrupt of a line. -/
def Controller.serve (c : Controller) (i : Fin 8) : Controller :=
  { c with irr := Function.update c.irr i false, isr := Function.update c.isr i true }

/-- The first line in service is so no longer. -/
def Controller.endOfInterrupt (c : Controller) : Controller :=
  match (List.finRange 8).find? c.isr with
  | some i => { c with isr := Function.update c.isr i false }
  | none => c

/-- A write to the command port. -/
def Controller.command (c : Controller) (v : UInt8) : Option Controller :=
  if v = 0x11 then
    some { c with irr := fun _ => false, isr := fun _ => false, imr := 0, stage := .icw2 }
  else if v = 0x20 ∧ c.stage = .ready then some c.endOfInterrupt
  else none

/-- A write to the data port. -/
def Controller.data (c : Controller) (v : UInt8) : Option Controller :=
  match c.stage with
  | .ready => some { c with imr := v }
  | .icw2 => some { c with offset := v &&& 0xF8, stage := .icw3 }
  | .icw3 => some { c with cascade := v, stage := .icw4 }
  | .icw4 => if v = 0x01 then some { c with stage := .ready } else none

/-- No line is in service. -/
def Controller.Quiet (c : Controller) : Prop := ∀ i, c.isr i = false

/-- One line is in service. -/
def Controller.Serves (c : Controller) (i : Fin 8) : Prop := ∀ j, c.isr j = decide (j = i)

/-- The line asked for wants service, is not masked, and no line before it is in service. -/
theorem Controller.request_eq_some (h : c.request = some i) :
    c.irr i = true ∧ c.masked i = false ∧ ∀ j ≤ i, c.isr j = false := by
  have hfound := List.find?_some h
  simp only [Bool.and_eq_true, Bool.not_eq_true', Controller.clear, List.all_eq_true,
    List.mem_finRange, forall_const, Bool.or_eq_true, decide_eq_true_eq] at hfound
  obtain ⟨⟨hirr, hmasked⟩, hclear⟩ := hfound
  exact ⟨hirr, hmasked, fun j hj => (hclear j).resolve_left (not_lt.2 hj)⟩

/-- A quiet controller asks for a line that wants service and is not masked. -/
theorem Controller.Quiet.request (h : c.Quiet) (hirr : c.irr i = true)
    (hmasked : c.masked i = false) : c.request.isSome = true := by
  rw [Controller.request, List.find?_isSome]
  refine ⟨i, List.mem_finRange i, ?_⟩
  simp [hirr, hmasked, Controller.clear, h _]

/-- It asks for the first of them. -/
theorem Controller.Quiet.request_first (h : c.Quiet) (hr : c.request = some i) (hj : j < i)
    (hirr : c.irr j = true) : c.masked j = true := by
  obtain ⟨-, k, hk, hget, hbefore⟩ := List.find?_eq_some_iff_getElem.1 hr
  rw [List.getElem_finRange] at hget
  obtain rfl : (⟨k, by simpa using hk⟩ : Fin 8) = i := hget
  have hno := hbefore j.val hj
  simp only [List.getElem_finRange] at hno
  by_contra hmasked
  rw [Bool.not_eq_true] at hmasked
  simp [hirr, hmasked, Controller.clear, h _] at hno

/-- In a quiet controller the line that is taken is the one in service. -/
theorem Controller.Quiet.serve (h : c.Quiet) (i : Fin 8) : (c.serve i).Serves i := by
  intro j
  show Function.update c.isr i true j = _
  rw [Function.update_apply, h j]
  by_cases hj : j = i <;> simp [hj]

/-- An end of interrupt finds nothing in a quiet controller. -/
theorem Controller.Quiet.endOfInterrupt (h : c.Quiet) : c.endOfInterrupt = c := by
  have hnone : (List.finRange 8).find? c.isr = none := by
    rw [List.find?_eq_none]
    simp [h _]
  rw [Controller.endOfInterrupt, hnone]

/-- **The end of the one interrupt in service.** -/
theorem Controller.Serves.endOfInterrupt (h : c.Serves i) :
    c.endOfInterrupt = { c with isr := fun _ => false } := by
  have hsome : (List.finRange 8).find? c.isr = some i := by
    cases hfind : (List.finRange 8).find? c.isr with
    | none => simp [h _] at hfind
    | some j =>
        have hj := List.find?_some hfind
        rw [h j] at hj
        rw [of_decide_eq_true hj]
  rw [Controller.endOfInterrupt, hsome]
  have hisr : Function.update c.isr i false = fun _ => false := by
    funext j
    rw [Function.update_apply, h j]
    by_cases hj : j = i <;> simp [hj]
  exact congrArg (fun isr => { c with isr := isr }) hisr

/-! ### The cascade -/

/-- The master and the slave. -/
structure Pair where
  master : Controller
  slave : Controller

/-- The cascade is one of the eight lines. -/
theorem cascadeLine_lt : 2 < 8 := by decide

/-- The line of the master to which the slave is connected. -/
def cascadeLine : Fin 8 := ⟨2, cascadeLine_lt⟩

/-- The master, with the slave's request on its line 2. -/
def Pair.upstream (p : Pair) : Controller :=
  { p.master with irr := Function.update p.master.irr cascadeLine p.slave.request.isSome }

/-- The number of a line in its controller. -/
theorem mod_eight_lt (n : ℕ) : n % 8 < 8 := Nat.mod_lt n (by decide)

/-- One of the sixteen lines of the pair. -/
def Pair.setLine (p : Pair) (line : Fin 16) (v : Bool) : Pair :=
  if line.val < 8 then
    { p with master := { p.master with
      irr := Function.update p.master.irr ⟨line.val % 8, mod_eight_lt line⟩ v } }
  else
    { p with slave := { p.slave with
      irr := Function.update p.slave.irr ⟨line.val % 8, mod_eight_lt line⟩ v } }

/-- The processor asks for the vector. -/
def Pair.acknowledge (p : Pair) : Option (UInt8 × Pair) :=
  match p.upstream.request with
  | none => none
  | some i =>
      if i = cascadeLine then
        match p.slave.request with
        | none => none
        | some j =>
            if p.master.cascade = 0x04 ∧ p.slave.cascade = 0x02 then
              some (p.slave.offset + UInt8.ofNat j,
                { master := p.master.serve cascadeLine, slave := p.slave.serve j })
            else none
      else some (p.master.offset + UInt8.ofNat i, { p with master := p.master.serve i })

/-- The vector that the master gives when a request is gone before it was taken. -/
def Pair.spurious (p : Pair) : UInt8 := p.master.offset + 7

/-! ### The counter and the board -/

/-- Channel 0: the low byte that has come already, and the ticks in a period. -/
structure Counter where
  control : UInt8
  low : Option UInt8
  period : ℕ

/-- Channel 0 is to take its count in two bytes. -/
def Counter.command (t : Counter) (v : UInt8) : Option Counter :=
  if v &&& 0xF0 = 0x30 then some { t with control := v, low := none } else none

/-- A write to the data port of a counter. -/
def Counter.data (t : Counter) (v : UInt8) : Counter :=
  match t.low with
  | none => { t with low := some v }
  | some l =>
      { t with
        low := none
        period := if l.toNat + 256 * v.toNat = 0 then 65536 else l.toNat + 256 * v.toNat }

/-- The two controllers and the timer's counter. -/
structure Board where
  pics : Pair
  timer : Counter

/-- What a read of one of the board's ports gives. -/
def Board.inb (port : UInt16) (b : Board) : Option (UInt8 × Board) :=
  if port = 0x21 then some (b.pics.master.imr, b)
  else if port = 0xA1 then some (b.pics.slave.imr, b)
  else none

/-- What a write to one of the board's ports does. -/
def Board.outb (port : UInt16) (v : UInt8) (b : Board) : Option Board :=
  if port = 0x20 then (b.pics.master.command v).map fun c => { b with pics.master := c }
  else if port = 0x21 then (b.pics.master.data v).map fun c => { b with pics.master := c }
  else if port = 0xA0 then (b.pics.slave.command v).map fun c => { b with pics.slave := c }
  else if port = 0xA1 then (b.pics.slave.data v).map fun c => { b with pics.slave := c }
  else if port = 0x40 then some { b with timer := b.timer.data v }
  else if port = 0x43 then (b.timer.command v).map fun t => { b with timer := t }
  else if port = 0x80 then some b
  else none

/-- The board, from the side of the processor. -/
def board : Bus Board := ⟨Board.inb, Board.outb, fun _ _ => none, fun _ _ _ => none⟩

end Pc
