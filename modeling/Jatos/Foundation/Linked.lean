/-
# Chains in a link map

A link map sends every cell to its successor, or to `none` where a chain ends.
`Chain next a l` says that following the links from `a` visits the cells `l`
and stops.  A chain is determined by its first cell (`Chain.unique`), visits no
cell twice (`Chain.nodup`), and is untouched by a change of the map outside its
cells (`Chain.congr`).

Where the links need not come to an end, `Reach next a c` says that they lead
from `a` to `c`, `Ends next a` that they do end, and `walk next n a` is the cell
after `n` links.
-/

import Mathlib.Data.List.Nodup
import Mathlib.Logic.Relation

namespace Linked

variable {α : Type*} {next next' : α → Option α} {a b c : α} {l l' : List α}

/-- Following `next` from `a` visits exactly the cells of `l`, in order, and
stops at the last one. -/
inductive Chain (next : α → Option α) : α → List α → Prop
  | last {a : α} : next a = none → Chain next a [a]
  | link {a b : α} {l : List α} : next a = some b → Chain next b l → Chain next a (a :: l)

/-- A chain begins where it is said to. -/
theorem Chain.head_mem (h : Chain next a l) : a ∈ l := by
  cases h <;> exact List.mem_cons_self

/-- A chain has a first element. -/
theorem Chain.ne_nil (h : Chain next a l) : l ≠ [] :=
  List.ne_nil_of_mem h.head_mem

/-- A chain is not empty. -/
theorem Chain.length_pos (h : Chain next a l) : 0 < l.length :=
  List.length_pos_of_mem h.head_mem

/-- The first element of a chain is its beginning. -/
theorem Chain.head_eq (h : Chain next a (c :: l)) : c = a := by
  cases h <;> rfl

/-- The last cell of a chain has no link. -/
theorem Chain.last_next (h : Chain next a l) : ∀ c ∈ l.getLast?, next c = none := by
  induction h with
  | last ha => simpa using ha
  | link _ hb ih => rwa [List.getLast?_cons_of_ne_nil hb.ne_nil]

/-- The first cell determines the chain. -/
theorem Chain.unique (h : Chain next a l) (h' : Chain next a l') : l = l' := by
  induction h generalizing l' with
  | last ha =>
      cases h' with
      | last _ => rfl
      | link hb _ => rw [ha] at hb; cases hb
  | link ha _ ih =>
      cases h' with
      | last hb => rw [ha] at hb; cases hb
      | link hb h' =>
          rw [ha] at hb
          obtain rfl := Option.some.inj hb
          rw [ih h']

/-- Only the cells of the chain matter to it. -/
theorem Chain.congr (h : Chain next a l) (hl : ∀ x ∈ l, next' x = next x) :
    Chain next' a l := by
  induction h with
  | last ha => exact .last ((hl _ List.mem_cons_self).trans ha)
  | link ha _ ih =>
      exact .link ((hl _ List.mem_cons_self).trans ha)
        (ih fun x hx => hl x (List.mem_cons_of_mem _ hx))

/-- Every cell of a chain starts a chain of its own, the rest of the first. -/
theorem Chain.of_mem (h : Chain next a l) (hc : c ∈ l) : ∃ s, s <:+ l ∧ Chain next c s := by
  induction h with
  | last ha =>
      obtain rfl := List.mem_singleton.1 hc
      exact ⟨_, List.suffix_refl _, .last ha⟩
  | @link b _ l ha hl ih =>
      rcases List.mem_cons.1 hc with rfl | hc
      · exact ⟨_, List.suffix_refl _, .link ha hl⟩
      · obtain ⟨s, hs, hcs⟩ := ih hc
        exact ⟨s, hs.trans (List.suffix_cons b l), hcs⟩

/-- A chain visits no cell twice: a repeated cell would start two chains of
different lengths. -/
theorem Chain.nodup (h : Chain next a l) : l.Nodup := by
  induction h with
  | last _ => exact List.nodup_singleton _
  | link ha hl ih =>
      refine List.nodup_cons.2 ⟨fun hmem => ?_, ih⟩
      obtain ⟨s, hs, hc⟩ := hl.of_mem hmem
      have hlen := hs.length_le
      rw [hc.unique (.link ha hl), List.length_cons] at hlen
      omega

/-- Links that go up make a chain that goes up. -/
theorem Chain.pairwise {r : α → α → Prop} [IsTrans α r] (h : Chain next a l)
    (hr : ∀ x ∈ l, ∀ y, next x = some y → r x y) : l.Pairwise r := by
  induction h with
  | last _ => exact List.pairwise_singleton r _
  | @link a b l ha hl ih =>
      have hrest := ih fun x hx => hr x (List.mem_cons_of_mem _ hx)
      refine List.pairwise_cons.2 ⟨fun x hx => ?_, hrest⟩
      have hab := hr a List.mem_cons_self b ha
      cases l with
      | nil => cases hx
      | cons c t =>
          obtain rfl := hl.head_eq
          rcases List.mem_cons.1 hx with rfl | hx
          · exact hab
          · exact IsTrans.trans _ _ _ hab ((List.pairwise_cons.1 hrest).1 x hx)

/-- The links of a chain that goes up go up, and stay in it. -/
theorem Chain.rel_of_pairwise {r : α → α → Prop} (h : Chain next a l) (hl : l.Pairwise r)
    (hc : c ∈ l) (hb : next c = some b) : b ∈ l ∧ r c b := by
  induction h with
  | last ha =>
      obtain rfl := List.mem_singleton.1 hc
      rw [ha] at hb
      cases hb
  | @link a b' l ha ht ih =>
      obtain ⟨hhead, hrest⟩ := List.pairwise_cons.1 hl
      rcases List.mem_cons.1 hc with rfl | hc
      · obtain rfl := Option.some.inj (ha.symm.trans hb)
        exact ⟨List.mem_cons_of_mem _ ht.head_mem, hhead _ ht.head_mem⟩
      · obtain ⟨hmem, hrel⟩ := ih hrest hc
        exact ⟨List.mem_cons_of_mem _ hmem, hrel⟩

/-! ### Cells that are reached -/

/-- The links lead from `a` to `c`. -/
def Reach (next : α → Option α) : α → α → Prop :=
  Relation.ReflTransGen fun a b => next a = some b

/-- The links from `a` come to an end. -/
def Ends (next : α → Option α) (a : α) : Prop := ∃ l, Chain next a l

/-- An element reaches itself. -/
theorem Reach.refl (next : α → Option α) (a : α) : Reach next a a := Relation.ReflTransGen.refl

/-- What is reached from what is reached is reached. -/
theorem Reach.trans (h : Reach next a b) (h' : Reach next b c) : Reach next a c :=
  Relation.ReflTransGen.trans h h'

/-- One link further back reaches as far. -/
theorem Reach.link (h : next a = some b) (h' : Reach next b c) : Reach next a c :=
  Relation.ReflTransGen.head h h'

/-- A cell without a link reaches itself. -/
theorem reach_last (ha : next a = none) : Reach next a c ↔ c = a := by
  constructor
  · intro h
    rcases Relation.ReflTransGen.cases_head h with rfl | ⟨b, hb, -⟩
    · rfl
    · rw [ha] at hb
      cases hb
  · rintro rfl
    exact .refl next c

/-- A cell reaches itself and what the next one reaches. -/
theorem reach_link (ha : next a = some b) : Reach next a c ↔ c = a ∨ Reach next b c := by
  constructor
  · intro h
    rcases Relation.ReflTransGen.cases_head h with rfl | ⟨b', hb, h⟩
    · exact Or.inl rfl
    · rw [ha] at hb
      exact Or.inr (Option.some.inj hb ▸ h)
  · rintro (rfl | h)
    · exact .refl next c
    · exact .link ha h

/-- The cells of a chain are those that its first cell reaches. -/
theorem Chain.mem_iff (h : Chain next a l) : c ∈ l ↔ Reach next a c := by
  induction h with
  | last ha => rw [List.mem_singleton, reach_last ha]
  | link ha _ ih => rw [List.mem_cons, reach_link ha, ih]

/-- Links end at an element that has none. -/
theorem Ends.last (ha : next a = none) : Ends next a := ⟨_, .last ha⟩

/-- Links end behind an element if they end behind the next. -/
theorem ends_link (ha : next a = some b) : Ends next a ↔ Ends next b := by
  constructor
  · rintro ⟨l, h⟩
    cases h with
    | last hn =>
        rw [ha] at hn
        cases hn
    | link hb h =>
        rw [ha] at hb
        exact ⟨_, Option.some.inj hb ▸ h⟩
  · rintro ⟨l, h⟩
    exact ⟨_, .link ha h⟩

/-- Links that end do so from every cell on the way. -/
theorem Ends.of_reach (h : Ends next a) (hc : Reach next a c) : Ends next c := by
  obtain ⟨l, hl⟩ := h
  obtain ⟨m, -, hm⟩ := hl.of_mem (hl.mem_iff.2 hc)
  exact ⟨m, hm⟩

/-- Links that end do not return. -/
theorem Ends.not_return (h : Ends next a) (ha : next a = some b) : ¬Reach next b a := by
  obtain ⟨l, hl⟩ := (ends_link ha).1 h
  have hnd := (Chain.link ha hl).nodup
  exact fun hr => (List.nodup_cons.1 hnd).1 (hl.mem_iff.2 hr)

/-- Only the links of reached cells matter. -/
theorem reach_congr (h : ∀ c, Reach next a c → next' c = next c) :
    Reach next' a c ↔ Reach next a c := by
  constructor
  · intro hc
    induction hc with
    | refl => exact .refl next a
    | @tail b c _ hstep ih =>
        rw [h b ih] at hstep
        exact Relation.ReflTransGen.tail ih hstep
  · intro hc
    induction hc with
    | refl => exact .refl next' a
    | @tail b c hb hstep ih =>
        rw [← h b hb] at hstep
        exact Relation.ReflTransGen.tail ih hstep

/-- Only the links of elements that are reached matter for the end. -/
theorem ends_congr (h : ∀ c, Reach next a c → next' c = next c) :
    Ends next' a ↔ Ends next a := by
  constructor
  · rintro ⟨l, hl⟩
    exact ⟨l, hl.congr fun x hx => (h x ((reach_congr h).1 (hl.mem_iff.1 hx))).symm⟩
  · rintro ⟨l, hl⟩
    exact ⟨l, hl.congr fun x hx => h x (hl.mem_iff.1 hx)⟩

/-! ### Walks -/

/-- The cell that `n` links lead to. -/
def walk (next : α → Option α) : ℕ → α → Option α
  | 0, a => some a
  | n + 1, a => (next a).bind (walk next n)

/-- A walk goes on from where the first link leads. -/
theorem walk_link (ha : next a = some b) (n : ℕ) : walk next (n + 1) a = walk next n b := by
  rw [walk, ha, Option.bind_some]

/-- The links end when a walk does. -/
theorem ends_iff_walk : Ends next a ↔ ∃ n, walk next n a = none := by
  constructor
  · rintro ⟨l, hl⟩
    induction hl with
    | last ha => exact ⟨1, by rw [walk, ha, Option.bind_none]⟩
    | link ha _ ih =>
        obtain ⟨n, hn⟩ := ih
        exact ⟨n + 1, (walk_link ha n).trans hn⟩
  · rintro ⟨n, hn⟩
    induction n generalizing a with
    | zero => cases hn
    | succ n ih =>
        cases ha : next a with
        | none => exact .last ha
        | some b => exact (ends_link ha).2 (ih ((walk_link ha n).symm.trans hn))

end Linked
