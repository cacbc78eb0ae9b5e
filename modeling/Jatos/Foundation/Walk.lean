/-
# Walks along labels

A partial step `f x c` follows the label `c` from `x`.  `walk f x cs` follows the
labels in turn and returns where each of them leads, or `none` if one leads nowhere.
A walk can be cut before its last label (`walk_concat`), what a step keeps holds all
along a walk (`walk_forall`), and two steps make the same walks exactly when they
agree wherever these walks come by (`walk_agree_iff`).
-/

import Mathlib.Data.List.Infix

namespace Walk

variable {α κ : Type*} {f g : α → κ → Option α} {x y : α} {c : κ} {cs : List κ} {ys : List α}

/-- Follow the labels in turn. -/
def walk (f : α → κ → Option α) : α → List κ → Option (List α)
  | _, [] => some []
  | x, c :: cs =>
      match f x c with
      | none => none
      | some y => (walk f y cs).map (y :: ·)

/-- A walk along no label. -/
@[simp] theorem walk_nil (f : α → κ → Option α) (x : α) : walk f x [] = some [] := rfl

/-- A first label that leads nowhere ends the walk. -/
theorem walk_cons_none (h : f x c = none) : walk f x (c :: cs) = none := by
  rw [walk, h]

/-- The walk goes on from where its first label leads. -/
theorem walk_cons_some (h : f x c = some y) :
    walk f x (c :: cs) = (walk f y cs).map (y :: ·) := by
  rw [walk, h]

/-- A walk that succeeds, from its first label on. -/
theorem walk_cons_eq_some :
    walk f x (c :: cs) = some ys ↔
      ∃ y zs, f x c = some y ∧ walk f y cs = some zs ∧ ys = y :: zs := by
  cases hf : f x c with
  | none => simp [walk_cons_none hf]
  | some y =>
      rw [walk_cons_some hf, Option.map_eq_some_iff]
      constructor
      · rintro ⟨zs, hzs, rfl⟩
        exact ⟨y, zs, rfl, hzs, rfl⟩
      · rintro ⟨y', zs, hy, hzs, rfl⟩
        exact ⟨zs, Option.some.inj hy ▸ hzs, by rw [Option.some.inj hy]⟩

/-- A walk has as many places as labels. -/
theorem walk_length (h : walk f x cs = some ys) : ys.length = cs.length := by
  induction cs generalizing x ys with
  | nil =>
      obtain rfl := Option.some.inj h
      rfl
  | cons c cs ih =>
      obtain ⟨y, zs, -, hzs, rfl⟩ := walk_cons_eq_some.1 h
      rw [List.length_cons, List.length_cons, ih hzs]

/-- The last label is followed from where the others lead. -/
theorem walk_concat (f : α → κ → Option α) (x : α) (cs : List κ) (c : κ) :
    walk f x (cs ++ [c]) =
      (walk f x cs).bind fun ys => (f (ys.getLastD x) c).map fun y => ys ++ [y] := by
  induction cs generalizing x with
  | nil =>
      cases hf : f x c with
      | none => simp [walk_cons_none hf, hf]
      | some y => simp [walk_cons_some hf, hf]
  | cons d cs ih =>
      cases hd : f x d with
      | none => rw [List.cons_append, walk_cons_none hd, walk_cons_none hd, Option.bind_none]
      | some z =>
          rw [List.cons_append, walk_cons_some hd, walk_cons_some hd, ih]
          cases hw : walk f z cs with
          | none => simp
          | some zs =>
              rw [Option.map_some, Option.bind_some, Option.bind_some, List.getLastD_cons]
              cases hc : f (zs.getLastD z) c <;> rfl

/-- What every step keeps holds all along a walk, and so does what it gives. -/
theorem walk_forall {P Q : α → Prop} (hstep : ∀ x c y, P x → f x c = some y → P y ∧ Q y)
    (hx : P x) (h : walk f x cs = some ys) : ∀ y ∈ ys, Q y := by
  induction cs generalizing x ys with
  | nil =>
      obtain rfl := Option.some.inj h
      exact fun y hy => absurd hy List.not_mem_nil
  | cons c cs ih =>
      obtain ⟨y, zs, hy, hzs, rfl⟩ := walk_cons_eq_some.1 h
      obtain ⟨hP, hQ⟩ := hstep x c y hx hy
      exact fun z hz => (List.mem_cons.1 hz).elim (fun heq => heq ▸ hQ) (ih hP hzs z)

/-- **The agreement rule.**  On a set of label lists that contains their initial
segments, two steps make the same walks if and only if they agree wherever the walks
of the second one come by. -/
theorem walk_agree_iff {D : List κ → Prop} (hD : ∀ cs c, D (cs ++ [c]) → D cs) :
    (∀ cs, D cs → walk f x cs = walk g x cs) ↔
      ∀ cs c ys, D (cs ++ [c]) → walk g x cs = some ys →
        f (ys.getLastD x) c = g (ys.getLastD x) c := by
  constructor
  · intro h cs c ys hcs hg
    have hall := h _ hcs
    rw [walk_concat, walk_concat, h cs (hD cs c hcs), hg, Option.bind_some,
      Option.bind_some] at hall
    cases hf : f (ys.getLastD x) c <;> cases hg' : g (ys.getLastD x) c
    all_goals simp_all
  · intro h cs
    induction cs using List.reverseRecOn with
    | nil => exact fun _ => rfl
    | append_singleton cs c ih =>
        intro hcs
        rw [walk_concat, walk_concat, ih (hD cs c hcs)]
        cases hg : walk g x cs with
        | none => rfl
        | some ys => rw [Option.bind_some, Option.bind_some, h cs c ys hcs hg]

end Walk
