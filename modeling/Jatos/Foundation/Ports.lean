/-
# Programs that talk to devices

A `Bus` says what the instructions `in` and `out` do to what lies behind the
ports; an access that the device does not allow has no result.  A program may
wait for a device in a loop (`poll`), so it runs on fuel, and `Returns f t` says
that it ends with `t` on any fuel from some amount on.  Statements in a row
return in a row (`Returns.bind`), and a counted loop does if every round does and
keeps the loop's invariant (`loop_returns`).
-/

import Mathlib.Data.UInt

namespace Ports

variable {σ τ υ : Type*}

/-- The four accesses to a port. -/
structure Bus (σ : Type*) where
  inb : UInt16 → σ → Option (UInt8 × σ)
  outb : UInt16 → UInt8 → σ → Option σ
  inw : UInt16 → σ → Option (UInt16 × σ)
  outw : UInt16 → UInt16 → σ → Option σ

/-- Read a port until its byte satisfies `done`. -/
def poll (bus : Bus σ) (port : UInt16) (done : UInt8 → Bool) : ℕ → σ → Option σ
  | 0, _ => none
  | fuel + 1, s =>
      match bus.inb port s with
      | none => none
      | some (b, s') => if done b = true then some s' else poll bus port done fuel s'

/-- `left` rounds of `for (i = first; ..; i++)`. -/
def loop (body : ℕ → τ → Option τ) : ℕ → ℕ → τ → Option τ
  | 0, _, t => some t
  | left + 1, i, t => (body i t).bind (loop body left (i + 1))

/-! ### Enough fuel -/

/-- From some amount of fuel on, the program ends with `t`. -/
def Returns (f : ℕ → Option τ) (t : τ) : Prop := ∃ enough, ∀ fuel, enough ≤ fuel → f fuel = some t

/-- What answers with any fuel returns. -/
theorem returns_of_forall {f : ℕ → Option τ} {t : τ} (h : ∀ fuel, f fuel = some t) : Returns f t :=
  ⟨0, fun fuel _ => h fuel⟩

/-- One function that returns behind another. -/
theorem Returns.bind {f : ℕ → Option τ} {g : ℕ → τ → Option υ} {t : τ} {u : υ}
    (hf : Returns f t) (hg : Returns (fun fuel => g fuel t) u) :
    Returns (fun fuel => (f fuel).bind (g fuel)) u := by
  obtain ⟨a, ha⟩ := hf
  obtain ⟨b, hb⟩ := hg
  refine ⟨max a b, fun fuel hfuel => ?_⟩
  show (f fuel).bind (g fuel) = some u
  rw [ha fuel (by omega), Option.bind_some]
  exact hb fuel (by omega)

/-- What comes after a statement that returns decides whether the whole returns. -/
theorem Returns.bind_iff {f : ℕ → Option τ} {g : ℕ → τ → Option υ} {t : τ} (hf : Returns f t) :
    (∃ u, Returns (fun fuel => (f fuel).bind (g fuel)) u) ↔
      ∃ u, Returns (fun fuel => g fuel t) u := by
  refine ⟨?_, fun ⟨u, hu⟩ => ⟨u, hf.bind hu⟩⟩
  rintro ⟨u, b, hb⟩
  obtain ⟨a, ha⟩ := hf
  refine ⟨u, max a b, fun fuel hfuel => ?_⟩
  have hu : (f fuel).bind (g fuel) = some u := hb fuel (by omega)
  rwa [ha fuel (by omega), Option.bind_some] at hu

/-- A program that is stopped on any fuel returns nothing. -/
theorem Returns.not_none {f : ℕ → Option τ} {t : τ} (hf : Returns f t) :
    ¬∀ fuel, f fuel = none := by
  obtain ⟨a, ha⟩ := hf
  intro hnone
  have hboth := (ha a le_rfl).symm.trans (hnone a)
  simp at hboth

/-- **The loop rule.**  If every round returns and takes the invariant to the next
count, the loop returns with the invariant at its last. -/
theorem loop_returns {body : ℕ → ℕ → τ → Option τ} {I : ℕ → τ → Prop} {last : ℕ}
    (hbody : ∀ i t, i < last → I i t →
      ∃ t', Returns (fun fuel => body fuel i t) t' ∧ I (i + 1) t')
    {left i : ℕ} {t : τ} (hI : I i t) (hlast : i + left = last) :
    ∃ t', Returns (fun fuel => loop (body fuel) left i t) t' ∧ I last t' := by
  induction left generalizing i t with
  | zero =>
      obtain rfl : i = last := by omega
      exact ⟨t, returns_of_forall fun _ => rfl, hI⟩
  | succ left ih =>
      obtain ⟨t', ht', hI'⟩ := hbody i t (by omega) hI
      obtain ⟨u, hu, hIu⟩ := ih hI' (by omega)
      exact ⟨u, ht'.bind hu, hIu⟩

/-- A loop whose rounds need no fuel. -/
theorem loop_eq_some {body : ℕ → τ → Option τ} {I : ℕ → τ → Prop} {last : ℕ}
    (hbody : ∀ i t, i < last → I i t → ∃ t', body i t = some t' ∧ I (i + 1) t')
    {left i : ℕ} {t : τ} (hI : I i t) (hlast : i + left = last) :
    ∃ t', loop body left i t = some t' ∧ I last t' := by
  obtain ⟨u, ⟨a, ha⟩, hIu⟩ := loop_returns (fun i t hi hI => by
    obtain ⟨t', ht', hI'⟩ := hbody i t hi hI
    exact ⟨t', returns_of_forall fun _ => ht', hI'⟩) hI hlast
  exact ⟨u, ha a le_rfl, hIu⟩

end Ports
