/-
# Breadth-first search

`expand pass x` is what a search finds at the node `x` when it takes it, and the children
that it puts behind the queue; or it fails.  `search N expand fuel pass queue` takes one
node after the other, and fails as well if it runs out of fuel or if the nodes that it has
taken and those in the queue become more than `N`.

A search that ends without a result has missed nothing: no node from which the children
never run out is in its queue (`search_ne_missing`).  One that ends with a result has found
it at a node (`search_sound`) of the least rank (`search_first`).  And a search through a
tree of at most `N` nodes ends (`search_ends`).
-/

import Mathlib.Data.List.Nodup

namespace Search

variable {X R : Type*} {N fuel pass b : ℕ} {expand : ℕ → X → Option (Option R × List X)}
  {x root : X} {rest queue : List X} {r : R} {o : Option R} {I P : X → Prop} {rank : X → ℕ}

/-- Take the nodes of a queue in turn, from pass number `pass` on. -/
def search (N : ℕ) (expand : ℕ → X → Option (Option R × List X)) :
    ℕ → ℕ → List X → Option (Option R)
  | 0, _, _ => none
  | _ + 1, _, [] => some none
  | fuel + 1, pass, x :: rest =>
      (expand pass x).bind fun (found, children) =>
        if N < pass + (rest.length + 1) + children.length then none
        else
          match found with
          | some r => some (some r)
          | none => search N expand fuel (pass + 1) (rest ++ children)

/-- One pass. -/
theorem search_cons_eq_some : search N expand (fuel + 1) pass (x :: rest) = some o ↔
    ∃ found children, expand pass x = some (found, children) ∧
      pass + (rest.length + 1) + children.length ≤ N ∧
      ((∃ r, found = some r ∧ o = some r) ∨
        found = none ∧ search N expand fuel (pass + 1) (rest ++ children) = some o) := by
  rw [search]
  constructor
  · intro h
    obtain ⟨⟨found, children⟩, hx, h⟩ := Option.bind_eq_some_iff.1 h
    simp only at h
    obtain ⟨hle, h⟩ := Option.ite_none_left_eq_some.1 h
    refine ⟨found, children, hx, Nat.le_of_not_lt hle, ?_⟩
    cases found with
    | some r => exact Or.inl ⟨r, rfl, (Option.some.inj h).symm⟩
    | none => exact Or.inr ⟨rfl, h⟩
  · rintro ⟨found, children, hx, hle, h⟩
    rw [hx, Option.bind_some]
    simp only
    rw [if_neg (Nat.not_lt.2 hle)]
    obtain ⟨r, rfl, rfl⟩ | ⟨rfl, h⟩ := h
    · rfl
    · exact h

/-- **Nothing is missed.**  Where every node of a kind has a child of that kind, a search
that has one in its queue does not end without a result. -/
theorem search_ne_missing
    (hP : ∀ pass x children, P x → expand pass x = some (none, children) → ∃ y ∈ children, P y)
    (hx : ∃ x ∈ queue, P x) : search N expand fuel pass queue ≠ some none := by
  induction fuel generalizing pass queue with
  | zero => nofun
  | succ fuel ih =>
      intro h
      obtain ⟨x, hx, hPx⟩ := hx
      obtain ⟨y, rest, rfl⟩ := List.exists_cons_of_ne_nil (List.ne_nil_of_mem hx)
      obtain ⟨found, children, hy, -, hnext⟩ := search_cons_eq_some.1 h
      obtain ⟨r, -, hr⟩ | ⟨rfl, hnext⟩ := hnext
      · cases hr
      refine ih ?_ hnext
      obtain rfl | hx := List.mem_cons.1 hx
      · obtain ⟨z, hz, hPz⟩ := hP pass x children hPx hy
        exact ⟨z, List.mem_append_right _ hz, hPz⟩
      · exact ⟨x, List.mem_append_left _ hx, hPx⟩

/-- What is found is found at a node of the tree. -/
theorem search_sound
    (hI : ∀ pass x found children, I x → expand pass x = some (found, children) →
      ∀ y ∈ children, I y)
    (hx : ∀ x ∈ queue, I x) (h : search N expand fuel pass queue = some (some r)) :
    ∃ pass x children, I x ∧ expand pass x = some (some r, children) := by
  induction fuel generalizing pass queue with
  | zero => cases h
  | succ fuel ih =>
      cases queue with
      | nil => cases h
      | cons x rest =>
          obtain ⟨found, children, hexp, -, hnext⟩ := search_cons_eq_some.1 h
          have hIx := hx x List.mem_cons_self
          obtain ⟨r', rfl, hr⟩ | ⟨rfl, hnext⟩ := hnext
          · obtain rfl := Option.some.inj hr
            exact ⟨pass, x, children, hIx, hexp⟩
          · refine ih (fun y hy => ?_) hnext
            obtain hy | hy := List.mem_append.1 hy
            · exact hx y (List.mem_cons_of_mem _ hy)
            · exact hI pass x none children hIx hexp y hy

/-- A queue with the ranks in order, at most two of them. -/
def Leveled (rank : X → ℕ) (queue : List X) : Prop :=
  queue.Pairwise fun x y => rank x ≤ rank y ∧ rank y ≤ rank x + 1

/-- Children of the first node go behind the others. -/
theorem Leveled.append {cs : List X} (h : Leveled rank (x :: rest))
    (hcs : ∀ y ∈ cs, rank y = rank x + 1) : Leveled rank (rest ++ cs) := by
  obtain ⟨hx, hrest⟩ := List.pairwise_cons.1 h
  refine List.pairwise_append.2 ⟨hrest, ?_, fun y hy z hz => ?_⟩
  · refine List.pairwise_of_forall_mem_list fun y hy z hz => ?_
    have := hcs y hy
    have := hcs z hz
    omega
  · have := hx y hy
    have := hcs z hz
    omega

/-- **Nothing comes before.**  What is found has a rank at most that of any node which is
found too: where every node of a kind, each of rank at most `b`, has a child of that kind
or is found, a search that has one in its queue finds at a rank of at most `b`. -/
theorem search_first (rank : X → ℕ)
    (hI : ∀ pass x found children, I x → expand pass x = some (found, children) →
      ∀ y ∈ children, I y ∧ rank y = rank x + 1)
    (hP : ∀ pass x children, P x → expand pass x = some (none, children) → ∃ y ∈ children, P y)
    (hb : ∀ x, P x → rank x ≤ b) (hall : ∀ x ∈ queue, I x) (hx : ∃ x ∈ queue, P x)
    (hlevel : Leveled rank queue) (h : search N expand fuel pass queue = some (some r)) :
    ∃ pass x children, I x ∧ expand pass x = some (some r, children) ∧ rank x ≤ b := by
  induction fuel generalizing pass queue with
  | zero => cases h
  | succ fuel ih =>
      obtain ⟨y, hy, hPy⟩ := hx
      obtain ⟨x, rest, rfl⟩ := List.exists_cons_of_ne_nil (List.ne_nil_of_mem hy)
      obtain ⟨found, children, hexp, -, hnext⟩ := search_cons_eq_some.1 h
      have hIx := hall x List.mem_cons_self
      obtain ⟨r', rfl, hr⟩ | ⟨rfl, hnext⟩ := hnext
      · obtain rfl := Option.some.inj hr
        refine ⟨pass, x, children, hIx, hexp, ?_⟩
        obtain rfl | hmem := List.mem_cons.1 hy
        · exact hb _ hPy
        · exact Nat.le_trans ((List.pairwise_cons.1 hlevel).1 y hmem).1 (hb y hPy)
      · have hcs := hI pass x none children hIx hexp
        refine ih (fun z hz => ?_) ?_ (hlevel.append fun z hz => (hcs z hz).2) hnext
        · obtain hz | hz := List.mem_append.1 hz
          · exact hall z (List.mem_cons_of_mem _ hz)
          · exact (hcs z hz).1
        · obtain rfl | hmem := List.mem_cons.1 hy
          · obtain ⟨z, hz, hPz⟩ := hP pass y children hPy hexp
            exact ⟨z, List.mem_append_right _ hz, hPz⟩
          · exact ⟨y, List.mem_append_left _ hmem, hPy⟩

/-- The nodes that were taken and those in the queue are all different while the search
goes on, so their number stays in bounds and the search ends. -/
theorem search_ends_from (children : X → List X) (done : List X)
    (hexp : ∀ pass x, I x → ∃ found, expand pass x = some (found, children x))
    (hI : ∀ x, I x → ∀ y ∈ children x, I y) (hnodup : ∀ x, I x → (children x).Nodup)
    (hparent : ∀ x y z, I x → I y → z ∈ children x → z ∈ children y → x = y)
    (hroot : ∀ x, I x → root ∉ children x)
    (hbound : ∀ l : List X, l.Nodup → (∀ x ∈ l, I x) → l.length ≤ N)
    (hall : ∀ x ∈ done ++ queue, I x) (hdistinct : (done ++ queue).Nodup)
    (hmet : ∀ x ∈ done ++ queue, x = root ∨ ∃ y ∈ done, x ∈ children y)
    (hfuel : N < fuel + done.length) :
    ∃ o, search N expand fuel done.length queue = some o := by
  induction fuel generalizing done queue with
  | zero =>
      have := hbound _ hdistinct hall
      rw [List.length_append] at this
      omega
  | succ fuel ih =>
      cases queue with
      | nil => exact ⟨none, rfl⟩
      | cons x rest =>
          have hIx : I x := hall x (by simp)
          obtain ⟨found, hx⟩ := hexp done.length x hIx
          have hmerge : (done ++ [x]) ++ (rest ++ children x) =
              (done ++ x :: rest) ++ children x := by simp
          have hall' : ∀ y ∈ (done ++ [x]) ++ (rest ++ children x), I y := by
            intro y hy
            rw [hmerge] at hy
            obtain hy | hy := List.mem_append.1 hy
            · exact hall y hy
            · exact hI x hIx y hy
          have hdistinct' : ((done ++ [x]) ++ (rest ++ children x)).Nodup := by
            rw [hmerge]
            refine hdistinct.append (hnodup x hIx) fun y hy hyc => ?_
            -- a child that was met before has another parent, or this one twice
            obtain rfl | ⟨z, hz, hyz⟩ := hmet y hy
            · exact hroot x hIx hyc
            · obtain rfl := hparent z x y (hall z (List.mem_append_left _ hz)) hIx hyz hyc
              exact List.disjoint_of_nodup_append hdistinct hz List.mem_cons_self
          have hle := hbound _ hdistinct' hall'
          simp only [List.length_append, List.length_singleton] at hle
          have hmet' : ∀ y ∈ (done ++ [x]) ++ (rest ++ children x),
              y = root ∨ ∃ z ∈ done ++ [x], y ∈ children z := by
            intro y hy
            rw [hmerge] at hy
            obtain hy | hy := List.mem_append.1 hy
            · exact (hmet y hy).imp_right fun ⟨z, hz, hyz⟩ => ⟨z, List.mem_append_left _ hz, hyz⟩
            · exact Or.inr ⟨x, by simp, hy⟩
          have hlen : (done ++ [x]).length = done.length + 1 := by simp
          obtain ⟨o, ho⟩ := ih (done ++ [x]) hall' hdistinct' hmet' (by omega)
          rw [hlen] at ho
          cases found with
          | some r =>
              exact ⟨some r, search_cons_eq_some.2 ⟨_, _, hx, by omega, Or.inl ⟨r, rfl, rfl⟩⟩⟩
          | none =>
              exact ⟨o, search_cons_eq_some.2 ⟨_, _, hx, by omega, Or.inr ⟨rfl, ho⟩⟩⟩

/-- **A search ends** in a tree of at most `N` nodes. -/
theorem search_ends (children : X → List X)
    (hexp : ∀ pass x, I x → ∃ found, expand pass x = some (found, children x))
    (hI : ∀ x, I x → ∀ y ∈ children x, I y) (hnodup : ∀ x, I x → (children x).Nodup)
    (hparent : ∀ x y z, I x → I y → z ∈ children x → z ∈ children y → x = y)
    (hroot : ∀ x, I x → root ∉ children x)
    (hbound : ∀ l : List X, l.Nodup → (∀ x ∈ l, I x) → l.length ≤ N) (hIroot : I root) :
    ∃ o, search N expand (N + 1) 0 [root] = some o := by
  refine search_ends_from children [] hexp hI hnodup hparent hroot hbound ?_ ?_ ?_ (by simp)
  · simpa using hIroot
  · simp
  · simp

end Search
