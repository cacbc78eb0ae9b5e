/-
# A walk that redirects what it leaves

A walk follows the links of a map from cell `a` and, as it leaves a cell, gives
it a new link, to a fixed cell `z`.  Where the old links end, the walk never
comes back and so never sees a new one.  Where they do not, it comes back to a
cell that it has left, goes to `z`, and ends if the old links from `z` do: these
cannot meet what it has left.  `Escapes` is this condition, together with a
property `P` that every cell on the way has; `escapes_link` says that one step of
the walk preserves it.
-/

import Jatos.Foundation.Linked
import Mathlib.Logic.Function.Basic

namespace Linked

variable {α : Type*} {next : α → Option α} {P : α → Prop} {a c x y z : α}

/-- The old links end, from `a` or else from `z`, on cells with the property. -/
def Escapes (next : α → Option α) (P : α → Prop) (z a : α) : Prop :=
  (∀ c, Reach next a c → P c) ∧
    (Ends next a ∨ Ends next z ∧ ∀ c, Reach next z c → P c)

/-- An element without a link escapes only by itself. -/
theorem escapes_last (hx : next x = none) : Escapes next P z x ↔ P x := by
  constructor
  · exact fun h => h.1 x (.refl next x)
  · exact fun h => ⟨fun c hc => (reach_last hx).1 hc ▸ h, Or.inl (.last hx)⟩

variable [DecidableEq α]

/-- A redirected cell that is not reached does not matter. -/
theorem redirect_eq {v : Option α} (h : ¬Reach next a x) (c : α) (hc : Reach next a c) :
    Function.update next x v c = next c :=
  Function.update_of_ne (fun hcx : c = x => h (hcx ▸ hc)) _ _

/-- What is reached after the redirection was reached before, from `a` or from
`z`. -/
theorem reach_of_redirect (h : Reach (Function.update next x (some z)) a c) :
    Reach next a c ∨ Reach next z c := by
  induction h with
  | refl => exact Or.inl (.refl next a)
  | @tail b c _ hstep ih =>
      by_cases hb : b = x
      · subst hb
        rw [Function.update_self] at hstep
        exact Or.inr (Option.some.inj hstep ▸ .refl next z)
      · rw [Function.update_of_ne hb] at hstep
        exact ih.imp (fun h => Relation.ReflTransGen.tail h hstep)
          fun h => Relation.ReflTransGen.tail h hstep

/-- What the cell after `x` reached, it still reaches: links that return to `x`
come by that cell again. -/
theorem reach_redirect (hx : next x = some y) (h : Reach next y c) :
    Reach (Function.update next x (some z)) y c := by
  induction h with
  | refl => exact .refl _ y
  | @tail b c _ hstep ih =>
      by_cases hb : b = x
      · subst hb
        rw [hx] at hstep
        exact Option.some.inj hstep ▸ .refl _ y
      · exact Relation.ReflTransGen.tail ih ((Function.update_of_ne hb _ _).trans hstep)

/-- **One step of the walk**: it leaves `x` for `y` and redirects `x` to `z`. -/
theorem escapes_link (hx : next x = some y) :
    Escapes next P z x ↔ P x ∧ Escapes (Function.update next x (some z)) P z y := by
  have hxz : Function.update next x (some z) x = some z := Function.update_self _ _ _
  constructor
  · rintro ⟨hP, hends⟩
    refine ⟨hP x (.refl next x), ?_⟩
    by_cases hxe : Ends next x
    · -- the walk does not return to `x`
      have hfar := redirect_eq (v := some z) (hxe.not_return hx)
      refine ⟨fun c hc => hP c (.link hx ((reach_congr hfar).1 hc)), Or.inl ?_⟩
      exact (ends_congr hfar).2 ((ends_link hx).1 hxe)
    · obtain ⟨hz, hPz⟩ := hends.resolve_left hxe
      have hfar := redirect_eq (v := some z) fun h : Reach next z x => hxe (hz.of_reach h)
      refine ⟨fun c hc => ?_, Or.inr ⟨(ends_congr hfar).2 hz, fun c hc => ?_⟩⟩
      · rcases reach_of_redirect hc with h | h
        · exact hP c (.link hx h)
        · exact hPz c h
      · exact hPz c ((reach_congr hfar).1 hc)
  · rintro ⟨hPx, hP, hends⟩
    refine ⟨fun c hc => ?_, or_iff_not_imp_left.2 fun hxe => ?_⟩
    · rcases (reach_link hx).1 hc with rfl | h
      · exact hPx
      · exact hP c (reach_redirect hx h)
    · -- the new links from `z` end, and so they do not meet `x`
      have hz : Ends (Function.update next x (some z)) z ∧
          ∀ c, Reach (Function.update next x (some z)) z c → P c := by
        refine hends.elim (fun hy => ?_) id
        have hyx : Reach (Function.update next x (some z)) y x := by
          by_contra hyx
          have hback := redirect_eq (v := some y) hyx
          rw [Function.update_idem, ← hx, Function.update_eq_self] at hback
          exact hxe ((ends_link hx).2 ((ends_congr hback).2 hy))
        have hyz := hyx.trans (.link hxz (.refl _ z))
        exact ⟨hy.of_reach hyz, fun c hc => hP c (hyz.trans hc)⟩
      have hfar : ¬Reach (Function.update next x (some z)) z x := fun h =>
        (hz.1.of_reach h).not_return hxz h
      have hback := redirect_eq (v := some y) hfar
      rw [Function.update_idem, ← hx, Function.update_eq_self] at hback
      exact ⟨(ends_congr hback).2 hz.1, fun c hc => hz.2 c ((reach_congr hback).1 hc)⟩

end Linked
