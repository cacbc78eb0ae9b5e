/-
# The volume as a tree of paths

What a user of the shell sees is neither clusters nor slots but a tree: under each path of
names there is a file with its bytes, a folder, or nothing (`Files`).  `Spells` relates a
volume to its tree.  A path is that of one directory, and a directory has one path
(`pathTo_unique`, `PathTo.path_eq`), so a new entry changes the tree at one path
(`Made.spells`), and so does a dropped one (`Dropped.spells`).
-/

import Jatos.Fat32.Fetch
import Jatos.Shell.Tree

namespace Jatos
namespace Shell

open Fat32 Packed NodeDir

/-- What is under each path, from the root down. -/
abbrev Files := List (Bytes 8) → Option Node

/-- The volume has the tree: under a path is what the entry of the last name holds, in the
directory that the other names lead to. -/
def Spells (s : State) (fs : Files) : Prop := ∀ p n x, fs (p ++ [n]) = some x ↔
  ∃ d k, PathTo s (rootName :: p) d ∧ Bears s d n k ∧ Holds s d k x

/-- The names from below the root down to the current directory. -/
def Session.names (m : Session) : List (Bytes 8) :=
  (List.range m.depth).map fun i => m.dirPath (i + 1)

variable {s s' : State} {fs : Files} {p q : List (Bytes 8)} {d d' : ℕ} {i j k k' : Fin 64}
  {n : Bytes 8} {x y : Node} {r : Request} {e : DirectoryEntry} {F : List ℕ} {m : Session}

/-! ### What an entry holds -/

/-- Every live entry holds a folder or a file. -/
theorem LiveEntry.exists_node (h : WellFormed s) (he : LiveEntry s d k) : ∃ x, Holds s d k x := by
  by_cases h0 : (s.table d k).filesize = 0
  · exact ⟨.dir, h0⟩
  · obtain ⟨B, hB⟩ := he.exists_holds h h0
    exact ⟨.file B, hB⟩

/-- An entry holds one thing only. -/
theorem node_unique (h : WellFormed s) (he : LiveEntry s d k) (hx : Holds s d k x)
    (hy : Holds s d k y) : x = y := by
  cases x with
  | dir =>
      cases y with
      | dir => rfl
      | file B => exact absurd hx hy.1
  | file B =>
      cases y with
      | dir => exact absurd hy hx.1
      | file B' => exact congrArg Node.file (hx.unique h he hy)

/-- What an entry holds afterwards it held before, if nothing that it held is lost. -/
theorem holds_inv (h : WellFormed s) (h' : WellFormed s') (he : LiveEntry s d k)
    (he' : LiveEntry s' d k) (hkeep : ∀ y, Holds s d k y → Holds s' d k y)
    (hx : Holds s' d k x) : Holds s d k x := by
  obtain ⟨y, hy⟩ := LiveEntry.exists_node h he
  rwa [node_unique h' he' hx (hkeep y hy)]

/-! ### Paths and directories -/

/-- A path leads to a live folder. -/
theorem PathTo.live (hp : PathTo s p d) : LiveDir s d := by
  obtain ⟨z, hz, -, rfl⟩ := hp.exists_real
  exact hz.live

/-- A path is not empty. -/
theorem PathTo.ne_nil (hp : PathTo s p d) : p ≠ [] := by
  cases hp <;> simp

/-- A directory has one path. -/
theorem PathTo.path_eq (h : WellFormed s) (hp : PathTo s p d) (hq : PathTo s q d) : p = q := by
  obtain ⟨y, hy, rfl, rfl⟩ := hp.exists_real
  obtain ⟨z, hz, rfl, hyz⟩ := hq.exists_real
  rw [Real.ext h hz hy hyz]

/-- A path is that of one directory. -/
theorem pathTo_unique (h : Distinct s) (hp : PathTo s p d) (hq : PathTo s p d') : d = d' := by
  induction hp generalizing d' with
  | root =>
      generalize hr : [rootName] = q at hq
      cases hq with
      | root => rfl
      | @child q d' k' hq' he' h0' =>
          have hsplit : [] ++ [rootName] = q ++ [(s.table d' k').name] := hr
          exact absurd (List.append_inj' hsplit rfl).1.symm hq'.ne_nil
  | @child p d k hp he h0 ih =>
      generalize hr : p ++ [(s.table d k).name] = q at hq
      cases hq with
      | root =>
          have hsplit : p ++ [(s.table d k).name] = [] ++ [rootName] := hr
          exact absurd (List.append_inj' hsplit rfl).1 hp.ne_nil
      | @child q d' k' hq he' h0' =>
          obtain ⟨rfl, hname⟩ := List.append_inj' hr rfl
          obtain rfl := ih hq
          rw [h d he.dir k k' he.used he'.used (List.singleton_inj.1 hname)]

/-- The last step of a path. -/
theorem PathTo.snoc (hp : PathTo s p d) (hb : Bears s d n k) (h0 : (s.table d k).filesize = 0) :
    PathTo s (p ++ [n]) (s.table d k).cluster := by
  obtain ⟨he, rfl⟩ := hb
  exact .child hp he h0

/-- **A new entry**: the paths are the old ones and, if it is a folder, its own. -/
theorem Made.pathTo_iff (hm : Made r e F s s') (h : WellFormed s) (hp : LiveDir s r.parent)
    (hj : freeSlot (s.table r.parent) = some j) : PathTo s' q d ↔ PathTo s q d ∨
      e.filesize = 0 ∧ d = e.cluster ∧ ∃ p, PathTo s p r.parent ∧ q = p ++ [r.name] := by
  have hslot := hm.slot_new hj
  have hkeep : ∀ {q d}, PathTo s q d → PathTo s' q d := by
    intro q d hq
    induction hq with
    | root => exact .root
    | @child q d k hq he h0 ih =>
        have hk := hm.table_used h he.dir he.used
        rw [← hk] at h0 ⊢
        exact .child ih (hm.entry h he) h0
  constructor
  · intro hq
    induction hq with
    | root => exact Or.inl .root
    | @child q d k hq he h0 ih =>
        obtain ih | ⟨he0, rfl, -⟩ := ih
        · obtain ⟨he', hk⟩ | ⟨rfl, -, hk⟩ := hm.entry_inv h he
          · rw [hk] at h0 ⊢
            exact Or.inl (.child ih he' h0)
          · rw [hk] at h0 ⊢
            exact Or.inr ⟨h0, rfl, q, ih, by rw [hm.name]⟩
        · exact absurd he.used (hm.emptyDir he0 k he.slot)
  · rintro (hq | ⟨h0, rfl, p, hpar, rfl⟩)
    · exact hkeep hq
    · have hlast := (hkeep hpar).snoc ⟨hm.entry_new h hp hj, hslot ▸ hm.name⟩ (hslot ▸ h0)
      rwa [hslot] at hlast

/-- **An entry less**: the paths are those that do not lead to a freed cluster. -/
theorem Dropped.pathTo_iff (hr : Dropped r i F s s') (h : WellFormed s)
    (hempty : (s.table r.parent i).filesize = 0 → EmptyDir s (s.table r.parent i).cluster) :
    PathTo s' q d ↔ PathTo s q d ∧ d ∉ F := by
  constructor
  · intro hq
    refine ⟨?_, (hr.live_inv h hq.live).2⟩
    induction hq with
    | root => exact .root
    | @child q d k hq he h0 ih =>
        obtain ⟨he', hk, -⟩ := hr.entry_inv h he
        rw [hk] at h0 ⊢
        exact .child ih he' h0
  · rintro ⟨hq, hd⟩
    induction hq with
    | root => exact .root
    | @child q d k hq he h0 ih =>
        have hne : ¬(d = r.parent ∧ k = i) := by
          rintro ⟨rfl, rfl⟩
          exact hd hr.chain.head_mem
        obtain ⟨he', hk⟩ := hr.entry_of_ne h hempty he hne
        rw [← hk] at h0 ⊢
        exact .child (ih (hr.live_inv h he'.dir).2) he' h0

/-! ### Changes of the tree -/

/-- A format spells the empty tree. -/
theorem createFat32_spells (s : State) : Spells (createFat32 s) fun _ => none := by
  intro p n x
  simp only [reduceCtorEq, false_iff, not_exists, not_and]
  intro d k _ hb
  exact absurd hb.entry createFat32_no_entry

/-- **A new entry is a new node**, under the path of its directory and its name. -/
theorem Made.spells (hm : Made r e F s s') (h : Tidy s) (hp : PathTo s (rootName :: p) r.parent)
    (hj : freeSlot (s.table r.parent) = some j) (hfresh : NoEntry s r.parent r.name)
    (hs : Spells s fs) : Spells s' (Function.update fs (p ++ [r.name]) (some r.node)) := by
  have hwf := h.sound.toWellFormed
  have hwf' := hm.wellFormed hwf
  have hlive := hp.live
  have hslot := hm.slot_new hj
  have hpath : ∀ {q d}, _ := fun {q d} => Made.pathTo_iff (q := q) (d := d) hm hwf hlive hj
  intro q n x
  by_cases hq : q ++ [n] = p ++ [r.name]
  · obtain ⟨rfl, hn⟩ := List.append_inj' hq rfl
    obtain rfl := List.singleton_inj.1 hn
    rw [Function.update_self]
    constructor
    · intro hx
      obtain rfl := Option.some.inj hx
      exact ⟨r.parent, j, hpath.2 (Or.inl hp), ⟨hm.entry_new hwf hlive hj, hslot ▸ hm.name⟩,
        hm.holds_new hslot⟩
    · rintro ⟨d, k, hd, ⟨he, hn⟩, hx⟩
      obtain hd | ⟨-, -, p', hp', heq⟩ := hpath.1 hd
      · obtain rfl := pathTo_unique h.distinct hp hd
        obtain ⟨he', hk⟩ | ⟨-, hk, -⟩ := hm.entry_inv hwf he
        · exact absurd (hk ▸ hn) (hfresh k he'.used)
        · obtain rfl := Option.some.inj (hj.symm.trans hk)
          rw [node_unique hwf' he hx (hm.holds_new hslot)]
      · -- the directory would be below itself
        have hlen := congrArg List.length (hp'.path_eq hwf hp)
        rw [heq] at hlen
        simp at hlen
  · rw [Function.update_of_ne hq, hs q n x]
    constructor
    · rintro ⟨d, k, hd, ⟨he, hn⟩, hx⟩
      exact ⟨d, k, hpath.2 (Or.inl hd), ⟨hm.entry hwf he, by
        rw [hm.table_used hwf he.dir he.used, hn]⟩, hm.holds hwf hlive he hx⟩
    · rintro ⟨d, k, hd, ⟨he, hn⟩, hx⟩
      obtain hd | ⟨h0, rfl, -⟩ := hpath.1 hd
      · obtain ⟨he', hk⟩ | ⟨rfl, -, hk⟩ := hm.entry_inv hwf he
        · exact ⟨d, k, hd, ⟨he', hk ▸ hn⟩,
            holds_inv hwf hwf' he' he (fun y hy => hm.holds hwf hlive he' hy) hx⟩
        · have hqp := hd.path_eq hwf hp
          rw [hk, hm.name] at hn
          exact absurd (by rw [List.cons.inj hqp |>.2, hn]) hq
      · exact absurd he.used (hm.emptyDir h0 k he.slot)

/-- **A dropped entry is a node less.** -/
theorem Dropped.spells (hr : Dropped r i F s s') (h : Tidy s)
    (hp : PathTo s (rootName :: p) r.parent) (hname : (s.table r.parent i).name = r.name)
    (hempty : (s.table r.parent i).filesize = 0 → EmptyDir s (s.table r.parent i).cluster)
    (hs : Spells s fs) : Spells s' (Function.update fs (p ++ [r.name]) none) := by
  have hwf := h.sound.toWellFormed
  have hwf' := hr.wellFormed hwf
  have hpath : ∀ {q d}, _ := fun {q d} => Dropped.pathTo_iff (q := q) (d := d) hr hwf hempty
  intro q n x
  by_cases hq : q ++ [n] = p ++ [r.name]
  · obtain ⟨rfl, hn⟩ := List.append_inj' hq rfl
    obtain rfl := List.singleton_inj.1 hn
    rw [Function.update_self]
    refine ⟨fun hx => (by cases hx), ?_⟩
    rintro ⟨d, k, hd, ⟨he, hn⟩, -⟩
    obtain rfl := pathTo_unique h.distinct hp (hpath.1 hd).1
    obtain ⟨he', hk, hne⟩ := hr.entry_inv hwf he
    exact absurd ⟨rfl, h.distinct _ he'.dir k i he'.used hr.entry.used
      ((hk ▸ hn).trans hname.symm)⟩ hne
  · rw [Function.update_of_ne hq, hs q n x]
    constructor
    · rintro ⟨d, k, hd, ⟨he, hn⟩, hx⟩
      have hne : ¬(d = r.parent ∧ k = i) := by
        rintro ⟨rfl, rfl⟩
        have hqp := hd.path_eq hwf hp
        exact hq (by rw [List.cons.inj hqp |>.2, ← hn, hname])
      obtain ⟨he', hk⟩ := hr.entry_of_ne hwf hempty he hne
      exact ⟨d, k, hpath.2 ⟨hd, (hr.live_inv hwf he'.dir).2⟩, ⟨he', by rw [hk, hn]⟩,
        hr.holds hwf he' hx⟩
    · rintro ⟨d, k, hd, ⟨he, hn⟩, hx⟩
      obtain ⟨he', hk, -⟩ := hr.entry_inv hwf he
      exact ⟨d, k, (hpath.1 hd).1, ⟨he', hk ▸ hn⟩,
        holds_inv hwf hwf' he' he (fun y hy => hr.holds hwf he hy) hx⟩

/-! ### The current directory -/

/-- There is a name for every depth. -/
theorem Session.length_names (m : Session) : m.names.length = m.depth := by
  simp [Session.names]

/-- A real path is a path of the tree. -/
theorem Located.pathTo_take (h : Located s m) (hd : d ≤ m.depth) :
    PathTo s (rootName :: m.names.take d) (m.dirClusters d).toNat := by
  induction d with
  | zero =>
      rw [h.root.2]
      exact .root
  | succ d ih =>
      obtain ⟨k, hk, hcl⟩ := h.step d hd
      have hget : m.names[d]? = some (m.dirPath (d + 1)) := by
        simp [Session.names, Nat.lt_of_succ_le hd]
      rw [List.take_add_one, hget, ← hcl]
      exact (ih (by omega)).snoc ⟨hk.entry, hk.name⟩ hk.filesize

/-- **The current directory** is the one that the names lead to. -/
theorem Located.pathTo (h : Located s m) :
    PathTo s (rootName :: m.names) m.currentDirClusterNumber.toNat := by
  have hfull := h.pathTo_take le_rfl
  rwa [← m.length_names, List.take_length, m.length_names, ← h.current] at hfull

/-- What the tree has in the current directory. -/
theorem Located.files_iff (h : Located s m) (ht : Tidy s) (hs : Spells s fs) :
    fs (m.names ++ [n]) = some x ↔ ∃ k, Bears s m.currentDirClusterNumber.toNat n k ∧
      Holds s m.currentDirClusterNumber.toNat k x := by
  rw [hs]
  constructor
  · rintro ⟨d, k, hd, hb, hx⟩
    obtain rfl := pathTo_unique ht.distinct h.pathTo hd
    exact ⟨k, hb, hx⟩
  · rintro ⟨k, hb, hx⟩
    exact ⟨_, k, h.pathTo, hb, hx⟩

/-- A path of the session is free if and only if no entry of the folder has the name. -/
theorem Located.files_eq_none_iff (h : Located s m) (ht : Tidy s) (hs : Spells s fs) :
    fs (m.names ++ [n]) = none ↔ ∀ k, ¬Bears s m.currentDirClusterNumber.toNat n k := by
  constructor
  · intro hnone k hb
    obtain ⟨x, hx⟩ := LiveEntry.exists_node ht.sound.toWellFormed hb.entry
    have := (h.files_iff ht hs).2 ⟨k, hb, hx⟩
    rw [hnone] at this
    cases this
  · intro hno
    cases hx : fs (m.names ++ [n]) with
    | none => rfl
    | some x =>
        obtain ⟨k, hb, -⟩ := (h.files_iff ht hs).1 hx
        exact absurd hb (hno k)

end Shell
end Jatos
