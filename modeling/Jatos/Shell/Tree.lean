/-
# The tree that `find` searches

`find` never looks at `user_attribute`: it takes the attribute of a folder and a name
wherever they stand.  That does not matter in an `Orderly` volume, in which unused slots say
nothing.

The directories of an orderly volume are the nodes `NodeDir.Real`.  The children that `find`
takes from the table of one are the live folders in it (`Real.mem_children`), and it finds
that table again by name where the folder is the first slot of its name
(`Real.readTable_child`).  Slot 0 has the name of the directory itself, so a folder with the
name of the directory that holds it never is; `FoldersFirst` says that the other slots do not
come before one.
-/

import Jatos.Shell.Find
import Jatos.Shell.Orderly

namespace Jatos
namespace Shell

open Fat32 Packed

/-- No folder stands behind another slot of its name, slot 0 apart. -/
def FoldersFirst (s : State) : Prop :=
  ∀ d k, LiveEntry s d k → (s.table d k).filesize = 0 →
    ∀ j, j ≠ 0 → j < k → (s.table d j).name ≠ (s.table d k).name

variable {s s' : State} {x y z : NodeDir} {d fuel : ℕ} {k : Fin 64} {n : Bytes 8}
  {p : List (Bytes 8)} {stack : ℕ → FindStack} {pass : ℕ} {op : Op} {ops : List Op}
  {o : Reply} {os : List Reply}

/-! ### Nodes -/

namespace NodeDir

/-- The cluster of the node's directory. -/
def cluster (x : NodeDir) : UInt32 := x.clusterPath.getLastD 0

/-- The folder that an entry names is at the entry's cluster. -/
theorem cluster_child (x : NodeDir) (e : DirectoryEntry) :
    (x.child e).cluster.toNat = e.cluster := by
  rw [cluster, child, List.getLastD_concat]
  exact UInt32.toNat_ofNat_of_lt' (cluster_lt e)

/-- A child is looked up in the directory of its node. -/
theorem parent_child (hx : 0 < x.nEff) (e : DirectoryEntry) : (x.child e).parent = x.cluster := by
  have hlen : (x.child e).nEff = x.nEff + 1 := x.nEff_child e
  have hlt : x.nEff + 1 - 2 < x.clusterPath.length := by
    have : x.nEff = x.clusterPath.length := rfl
    omega
  have hlast : x.nEff + 1 - 2 = x.clusterPath.length - 1 := by
    have : x.nEff = x.clusterPath.length := rfl
    omega
  rw [parent, if_neg (by omega), hlen, child, cluster, List.getLastD_eq_getLast?,
    List.getLast?_eq_getElem?, List.getD_eq_getElem?_getD, List.getElem?_append_left hlt, hlast]

/-- A node of the tree: the root, or a live folder in a directory of the tree. -/
inductive Real (s : State) : NodeDir → Prop
  | root : Real s root
  | child {x : NodeDir} {k : Fin 64} : Real s x → LiveEntry s x.cluster.toNat k →
      (s.table x.cluster.toNat k).filesize = 0 → Real s (x.child (s.table x.cluster.toNat k))

/-- Every folder has a depth. -/
theorem Real.pos (hx : Real s x) : 0 < x.nEff := by
  cases hx with
  | root => decide
  | child _ _ _ => rw [nEff_child]; omega

/-- A node is as long as its directory is deep. -/
theorem Real.liveAt (hx : Real s x) : LiveAt s (x.nEff - 1) x.cluster.toNat := by
  induction hx with
  | root => exact .root
  | @child x k hx he h0 ih =>
      have hpos := hx.pos
      rw [nEff_child, cluster_child, show x.nEff + 1 - 1 = x.nEff - 1 + 1 by omega]
      exact .child ih he.slot he.used h0

/-- A folder of the tree is live. -/
theorem Real.live (hx : Real s x) : LiveDir s x.cluster.toNat := ⟨_, hx.liveAt⟩

/-- Every live directory has a node. -/
theorem exists_real {m : ℕ} (hd : LiveAt s m d) :
    ∃ x, Real s x ∧ x.cluster.toNat = d ∧ x.nEff = m + 1 := by
  induction hd with
  | root => exact ⟨_, .root, rfl, rfl⟩
  | @child m d k hd hk hu h0 ih =>
      obtain ⟨x, hx, rfl, hlen⟩ := ih
      exact ⟨_, .child hx ⟨⟨m, hd⟩, hk, hu⟩ h0, x.cluster_child _, by rw [nEff_child, hlen]⟩

/-- It has one node only. -/
theorem Real.ext (h : WellFormed s) (hx : Real s x) (hy : Real s y)
    (hxy : x.cluster.toNat = y.cluster.toNat) : x = y := by
  have hne : ∀ {z : NodeDir} {k : Fin 64}, LiveEntry s z.cluster.toNat k →
      (s.table z.cluster.toNat k).filesize = 0 →
      (s.table z.cluster.toNat k).cluster ≠ NodeDir.root.cluster.toNat := by
    intro z k he h0 heq
    have := (h.chain_range he (h.folder_chain he h0).1 _ List.mem_cons_self).1
    rw [heq] at this
    exact absurd this (by decide)
  induction hx generalizing y with
  | root =>
      cases hy with
      | root => rfl
      | child _ he h0 =>
          rw [cluster_child] at hxy
          exact absurd hxy.symm (hne he h0)
  | @child x k hx he h0 ih =>
      rw [cluster_child] at hxy
      cases hy with
      | root => exact absurd hxy (hne he h0)
      | @child y k' hy he' h0' =>
          rw [cluster_child] at hxy
          obtain ⟨hdir, rfl⟩ := h.disjoint _ _ _ _ _ _ he he' (h.folder_chain he h0).1
            (h.folder_chain he' h0').1 _ List.mem_cons_self (by simp [hxy])
          rw [ih hy hdir]

end NodeDir

open NodeDir

/-- There are at most 510 of them. -/
theorem length_real_le (h : WellFormed s) {l : List NodeDir} (hl : l.Nodup)
    (hreal : ∀ x ∈ l, Real s x) : l.length ≤ 510 := by
  have hnodup : (l.map fun x => x.cluster.toNat).Nodup :=
    List.Nodup.map_on (fun x hx y hy heq => Real.ext h (hreal x hx) (hreal y hy) heq) hl
  have hsub : (l.map fun x => x.cluster.toNat) ⊆ List.range' 2 510 := by
    intro c hc
    obtain ⟨x, hx, rfl⟩ := List.mem_map.1 hc
    have := h.live_range (hreal x hx).live
    rw [List.mem_range'_1]
    omega
  simpa using (hnodup.subperm hsub).length_le

/-! ### The children of a node -/

/-- The slots searched are all but the first. -/
theorem mem_slots {i : Fin 64} : i ∈ slots ↔ i ≠ 0 := by
  revert i
  decide

/-- No slot is searched twice. -/
theorem slots_nodup : slots.Nodup := by decide

/-- The folders put are those that the slots name. -/
theorem mem_childrenAt {t : DirectoryTable} {is : List (Fin 64)} :
    z ∈ childrenAt x t is ↔ ∃ i ∈ is, (t i).attr = ATR_DIRECTORY ∧ x.child (t i) = z := by
  simp [childrenAt, and_assoc]

/-- They are the live folders of the directory. -/
theorem NodeDir.Real.mem_children (h : Orderly s) (hx : Real s x) :
    z ∈ childrenAt x (s.table x.cluster.toNat) slots ↔ ∃ k, LiveEntry s x.cluster.toNat k ∧
      (s.table x.cluster.toNat k).filesize = 0 ∧ x.child (s.table x.cluster.toNat k) = z := by
  rw [mem_childrenAt]
  constructor
  · rintro ⟨k, hk, hattr, rfl⟩
    obtain ⟨he, h0⟩ := (h.folder_iff hx.live (mem_slots.1 hk)).1 hattr
    exact ⟨k, he, h0, rfl⟩
  · rintro ⟨k, he, h0, rfl⟩
    exact ⟨k, mem_slots.2 he.slot, (h.folder_iff hx.live he.slot).2 ⟨he, h0⟩, rfl⟩

/-- What a folder of the tree puts are folders of the tree, one deeper. -/
theorem NodeDir.Real.of_mem_children (h : Orderly s) (hx : Real s x)
    (hz : z ∈ childrenAt x (s.table x.cluster.toNat) slots) :
    Real s z ∧ z.nEff = x.nEff + 1 := by
  obtain ⟨k, he, h0, rfl⟩ := (Real.mem_children h hx).1 hz
  exact ⟨.child hx he h0, x.nEff_child _⟩

/-- A name is found in a directory where it is the name of an entry. -/
theorem find_slot_iff (h : Orderly s) (hd : LiveDir s d) (hn : n ≠ 0) (hk : k ≠ 0) :
    (s.table d k).name = n ↔ Bears s d n k := by
  refine ⟨fun hname => ⟨⟨hd, hk, ?_⟩, hname⟩, fun hb => hb.name⟩
  by_contra hu
  exact hn (hname.symm.trans (h.swept d hd k hu).1)

/-- A folder that is the first of its name is found under it. -/
theorem FoldersFirst.findSlot (h : FoldersFirst s) (he : LiveEntry s d k)
    (h0 : (s.table d k).filesize = 0) (hecho : (s.table d k).name ≠ (s.table d 0).name) :
    findSlot (s.table d) (s.table d k).name = some k := by
  refine findSlot_eq_some_iff.2 ⟨rfl, fun j hj => ?_⟩
  by_cases hj0 : j = 0
  · rw [hj0]
    exact hecho.symm
  · exact h d k he h0 j hj0 hj

/-- Two folders of a directory do not have one name then. -/
theorem FoldersFirst.slot_eq {k' : Fin 64} (h : FoldersFirst s) (he : LiveEntry s d k)
    (h0 : (s.table d k).filesize = 0) (he' : LiveEntry s d k') (h0' : (s.table d k').filesize = 0)
    (hname : (s.table d k).name = (s.table d k').name) : k = k' := by
  rcases lt_trichotomy k k' with hlt | heq | hlt
  · exact absurd hname (h d k' he' h0' k he.slot hlt)
  · exact heq
  · exact absurd hname.symm (h d k he h0 k' he'.slot hlt)

/-- **A directory is found again** where its folder is the first of its name. -/
theorem NodeDir.Real.readTable_child (h : FoldersFirst s) (hx : Real s x)
    (he : LiveEntry s x.cluster.toNat k) (h0 : (s.table x.cluster.toNat k).filesize = 0)
    (hecho : (s.table x.cluster.toNat k).name ≠ (s.table x.cluster.toNat 0).name) :
    readTable s (x.child (s.table x.cluster.toNat k)).parent
        (x.child (s.table x.cluster.toNat k)).nama =
      some (s.table (x.child (s.table x.cluster.toNat k)).cluster.toNat) := by
  have hnama : (x.child (s.table x.cluster.toNat k)).nama = (s.table x.cluster.toNat k).name := rfl
  rw [parent_child hx.pos, cluster_child, hnama, readTable_eq, h.findSlot he h0 hecho,
    Option.bind_some, if_pos h0]

/-- A directory that is looked up in itself: slot 0 leads to the one above. -/
theorem readTable_self (h : Sound s) {parent : UInt32} (hd : LiveDir s parent.toNat) :
    readTable s parent (s.table parent.toNat 0).name =
      some (s.table (s.table parent.toNat 0).cluster) := by
  have hfind : Fat32.findSlot (s.table parent.toNat) (s.table parent.toNat 0).name = some 0 :=
    findSlot_eq_some_iff.2 ⟨rfl, fun _ hj => absurd hj (Nat.not_lt_zero _)⟩
  rw [readTable_eq, hfind, Option.bind_some, if_pos (h.self _ hd).2]

/-- The root is found again. -/
theorem readTable_root_node (h : Sound s) : readTable s NodeDir.root.parent NodeDir.root.nama =
    some (s.table NodeDir.root.cluster.toNat) :=
  readTable_root h

/-- What one folder of the search does: it is scanned, and its folders are put, if they fit. -/
theorem expand_eq {t : DirectoryTable} (h : readTable s x.parent x.nama = some t) :
    expand stack n s pass x = if 10 ≤ x.nEff ∧ childrenAt x t slots ≠ [] then none
      else some (hitAt n x t slots, childrenAt x t slots) := by
  have htab : tableAt stack s pass x = t := by rw [tableAt, h, Option.getD_some]
  rw [expand, htab]

/-! ### Paths -/

/-- The names from the root down to a directory. -/
inductive PathTo (s : State) : List (Bytes 8) → ℕ → Prop
  | root : PathTo s [rootName] ROOT_CLUSTER_NUMBER
  | child {p : List (Bytes 8)} {d : ℕ} {k : Fin 64} : PathTo s p d → LiveEntry s d k →
      (s.table d k).filesize = 0 → PathTo s (p ++ [(s.table d k).name]) (s.table d k).cluster

/-- The paths of a name: that of the root, and those of the live entries that bear it. -/
inductive PathOf (s : State) (n : Bytes 8) : List (Bytes 8) → Prop
  | root : n = rootName → PathOf s n [rootName]
  | entry {p : List (Bytes 8)} {d : ℕ} {k : Fin 64} : PathTo s p d → Bears s d n k →
      PathOf s n (p ++ [n])

/-- A folder of the tree lies on the path of its names. -/
theorem NodeDir.Real.pathTo (hx : Real s x) : PathTo s x.namaPath x.cluster.toNat := by
  induction hx with
  | root => exact .root
  | @child x k hx he h0 ih =>
      rw [cluster_child]
      exact .child ih he h0

/-- A folder's path is as long as it lies deep. -/
theorem NodeDir.Real.length_namaPath (hx : Real s x) : x.namaPath.length = x.nEff := by
  induction hx with
  | root => rfl
  | @child x k hx he h0 ih =>
      rw [nEff_child, ← ih]
      exact List.length_append.trans (by simp)

/-- Every path of the volume is a folder of the tree. -/
theorem PathTo.exists_real (hp : PathTo s p d) :
    ∃ x, Real s x ∧ x.namaPath = p ∧ x.cluster.toNat = d := by
  induction hp with
  | root => exact ⟨_, .root, rfl, rfl⟩
  | @child p d k hp he h0 ih =>
      obtain ⟨x, hx, rfl, rfl⟩ := ih
      exact ⟨_, .child hx he h0, rfl, x.cluster_child _⟩

/-- A node on the way to another. -/
inductive Under (s : State) (z : NodeDir) : NodeDir → Prop
  | self : Under s z z
  | up {x : NodeDir} {k : Fin 64} : LiveEntry s x.cluster.toNat k →
      (s.table x.cluster.toNat k).filesize = 0 →
      Under s z (x.child (s.table x.cluster.toNat k)) → Under s z x

/-- What lies under a folder is not above it. -/
theorem Under.nEff_le (h : Under s z x) : x.nEff ≤ z.nEff := by
  induction h with
  | self => exact le_rfl
  | up _ _ _ ih => rw [nEff_child] at ih; omega

/-- What lies under a folder and is another lies deeper. -/
theorem Under.nEff_lt (h : Under s z x) (hne : x ≠ z) : x.nEff < z.nEff := by
  cases h with
  | self => exact absurd rfl hne
  | up _ _ hu =>
      have hle := hu.nEff_le
      rw [nEff_child] at hle
      exact hle

/-- Every node of the tree is below the root. -/
theorem NodeDir.Real.under_root (hz : Real s z) : Under s z NodeDir.root := by
  have hall : ∀ w, Under s w z → Under s w NodeDir.root := by
    induction hz with
    | root => exact fun w h => h
    | child hx he h0 ih => exact fun w h => ih w (.up he h0 h)
  exact hall z .self

end Shell
end Jatos
