/-
# Where `cd` leads

A directory on the way is a `Place`: its own cluster and name, and the cluster above it.
What `cd` finds for a component is `Place.shown`; what should be found is `Place.sub`, the
first live folder of that name.  `cd` is exact wherever the two agree
(`cdExact_forall_iff`), which they do in every tidy volume whose attributes tell folders from
files (`Place.Real.shown_eq_sub`).
-/

import Jatos.Foundation.Walk
import Jatos.Fat32.Refinement
import Jatos.Shell.Session

namespace Jatos
namespace Shell

open Fat32 Packed Walk

/-! ### Where it should lead -/

/-- A directory on the way: its own cluster and name, and the cluster above. -/
structure Place where
  parent : UInt32
  name : Bytes 8
  cluster : UInt32

/-- The directory at a depth of the path. -/
def Session.place (m : Session) (depth : ℕ) : Place :=
  ⟨m.dirClusters (depth - 1), m.dirPath depth, m.dirClusters depth⟩

/-- The directory that an entry of this directory describes. -/
def Place.child (x : Place) (e : DirectoryEntry) : Place :=
  ⟨x.cluster, e.name, UInt32.ofNat e.cluster⟩

/-- The first live subdirectory of a name. -/
def Place.sub (s : State) (x : Place) (path : List UInt8) : Option Place :=
  (Fin.find? fun k : Fin 64 => k ≠ 0 ∧ (s.table x.cluster.toNat k).Used ∧
    (s.table x.cluster.toNat k).filesize = 0 ∧ path ≠ [] ∧
      spelled (s.table x.cluster.toNat k).name = path).map fun k =>
    x.child (s.table x.cluster.toNat k)

/-- What `cd` takes for it. -/
def Place.shown (s : State) (x : Place) (path : List UInt8) : Option Place :=
  (readTable s x.parent x.name).bind fun dirTable =>
    (findDirectory dirTable path).map fun j => x.child (dirTable j)

/-- The variables spell a real path from the root. -/
structure Located (s : State) (m : Session) : Prop where
  depth : m.depth ≤ 9
  root : m.dirPath 0 = rootName ∧ m.dirClusters 0 = 2
  step : ∀ i < m.depth, ∃ k, Folder s (m.dirClusters i).toNat (m.dirPath (i + 1)) k ∧
    (s.table (m.dirClusters i).toNat k).cluster = (m.dirClusters (i + 1)).toNat
  current : m.currentDirClusterNumber = m.dirClusters m.depth
  parent : m.currentDirParentClusterNumber = m.dirClusters (m.depth - 1)

/-- A path that may be typed behind `cd `: not empty, not `..`, its components and the
resulting depth within the arrays. -/
structure Typed (m : Session) (p : List UInt8) : Prop where
  ne_nil : p ≠ []
  not_up : ¬[0x2E, 0x2E] <+: p
  short : ∀ path ∈ components p, path.length ≤ 8
  depth : m.depth + (components p).length ≤ 9

/-- The path up to the current directory, and the two variables beside it, are what they
were. -/
structure Stayed (m m' : Session) : Prop where
  depth : m'.depth = m.depth
  current : m'.currentDirClusterNumber = m.currentDirClusterNumber
  parent : m'.currentDirParentClusterNumber = m.currentDirParentClusterNumber
  path : ∀ i ≤ m.depth, m'.dirPath i = m.dirPath i ∧ m'.dirClusters i = m.dirClusters i

/-- The path goes on through the directories `ys`, and as many `cd ..` lead back. -/
structure Entered (s : State) (m m' : Session) (ys : List Place) : Prop where
  depth : m'.depth = m.depth + ys.length
  located : Located s m'
  path : ∀ i ≤ m.depth, m'.dirPath i = m.dirPath i ∧ m'.dirClusters i = m.dirClusters i
  places : ∀ i (h : i < ys.length), m'.place (m.depth + 1 + i) = ys[i]
  back : ∀ m'', m'' = (cdTo [0x2E, 0x2E] s)^[ys.length] m' → m''.depth = m.depth ∧
    m''.currentDirClusterNumber = m.currentDirClusterNumber ∧
    m''.currentDirParentClusterNumber = m.currentDirParentClusterNumber

/-- What `cd p` should do: enter the directory that the components lead to, each a live
subdirectory of the one before, or else stay. -/
def CdExact (s : State) (m : Session) (p : List UInt8) : Prop :=
  match walk (Place.sub s) (m.place m.depth) (components p) with
  | some ys => Entered s m (cdTo p s m) ys
  | none => Stayed m (cdTo p s m)

variable {s : State} {m m' : Session} {x y : Place} {path p : List UInt8}
  {paths : List (List UInt8)} {ys : List Place} {d : ℕ} {i k : Fin 64}

/-! ### The loop -/

/-- The elements behind the current directory are overwritten. -/
def Session.put (m : Session) (i : ℕ) (y : Place) : Session :=
  { m with
    dirPath := Function.update m.dirPath i y.name
    dirClusters := Function.update m.dirClusters i y.cluster }

/-- Entering a depth leaves the other depths alone. -/
theorem Session.put_path {j n : ℕ} (hj : j ≠ n) (m : Session) (y : Place) :
    (m.put n y).dirPath j = m.dirPath j ∧ (m.put n y).dirClusters j = m.dirClusters j :=
  ⟨Function.update_of_ne hj _ _, Function.update_of_ne hj _ _⟩

/-- The place at the depth entered is the one that was put. -/
theorem Session.place_put (h : y.parent = m.dirClusters d) :
    (m.put (d + 1) y).place (d + 1) = y := by
  obtain ⟨parent, name, cluster⟩ := y
  simp only at h
  simp [Session.place, Session.put, h]

/-- One component. -/
theorem cdLoop_cons (s : State) (path : List UInt8) (paths : List (List UInt8)) (currDepth : ℕ)
    (m : Session) : cdLoop s (path :: paths) currDepth m =
      match readTable s (m.place currDepth).parent (m.place currDepth).name with
      | none => ("failed to read request\ndirectory tidak ditemukan\n", m)
      | some dirTable =>
          match findDirectory dirTable path with
          | none => ("directory tidak ditemukan\n", m)
          | some j => cdLoop s paths (currDepth + 1)
              (m.put (currDepth + 1) ((m.place currDepth).child (dirTable j))) := by
  have hparent : (if currDepth = 0 then m.dirClusters 0 else m.dirClusters (currDepth - 1)) =
      (m.place currDepth).parent := by
    split_ifs with h0
    · rw [h0]
      rfl
    · rfl
  rw [cdLoop, hparent]
  rfl

/-- A component that names no folder stops the loop. -/
theorem cdLoop_none {currDepth : ℕ} (h : (m.place currDepth).shown s path = none) :
    (cdLoop s (path :: paths) currDepth m).2 = m := by
  rw [cdLoop_cons]
  rw [Place.shown] at h
  cases ht : readTable s (m.place currDepth).parent (m.place currDepth).name with
  | none => rfl
  | some t =>
      rw [ht, Option.bind_some, Option.map_eq_none_iff] at h
      simp only [h]

/-- A component that names a folder is entered, and the loop goes on. -/
theorem cdLoop_some (paths : List (List UInt8)) {currDepth : ℕ}
    (h : (m.place currDepth).shown s path = some y) :
    cdLoop s (path :: paths) currDepth m =
      cdLoop s paths (currDepth + 1) (m.put (currDepth + 1) y) ∧
      y.parent = m.dirClusters currDepth := by
  rw [cdLoop_cons]
  rw [Place.shown] at h
  cases ht : readTable s (m.place currDepth).parent (m.place currDepth).name with
  | none =>
      rw [ht] at h
      cases h
  | some t =>
      rw [ht, Option.bind_some, Option.map_eq_some_iff] at h
      obtain ⟨j, hj, rfl⟩ := h
      refine ⟨?_, rfl⟩
      simp only [hj]

/-- A loop that leads nowhere returns early, and what it has written lies behind the
current directory. -/
theorem cdLoop_stays (h : walk (Place.shown s) (m.place d) paths = none) :
    (cdLoop s paths d m).2.depth = m.depth ∧
      (cdLoop s paths d m).2.currentDirClusterNumber = m.currentDirClusterNumber ∧
      (cdLoop s paths d m).2.currentDirParentClusterNumber = m.currentDirParentClusterNumber ∧
      ∀ i ≤ d, (cdLoop s paths d m).2.dirPath i = m.dirPath i ∧
        (cdLoop s paths d m).2.dirClusters i = m.dirClusters i := by
  induction paths generalizing d m with
  | nil => cases h
  | cons path paths ih =>
      cases hy : (m.place d).shown s path with
      | none =>
          rw [cdLoop_none hy]
          exact ⟨rfl, rfl, rfl, fun _ _ => ⟨rfl, rfl⟩⟩
      | some y =>
          obtain ⟨hloop, hparent⟩ := cdLoop_some paths hy
          rw [walk_cons_some hy, Option.map_eq_none_iff] at h
          rw [← Session.place_put hparent] at h
          obtain ⟨hdepth, hcur, hpar, hpath⟩ := ih h
          rw [hloop]
          refine ⟨hdepth, hcur, hpar, fun i hi => ?_⟩
          obtain ⟨h₁, h₂⟩ := hpath i (Nat.le_succ_of_le hi)
          obtain ⟨h₃, h₄⟩ := Session.put_path (by omega : i ≠ d + 1) m y
          exact ⟨h₁.trans h₃, h₂.trans h₄⟩

/-- A loop that leads through `ys` writes them behind the current directory. -/
theorem cdLoop_enters (h : walk (Place.shown s) (m.place d) paths = some ys) :
    (cdLoop s paths d m).2.depth = d + ys.length ∧
      (cdLoop s paths d m).2.currentDirClusterNumber =
        (cdLoop s paths d m).2.dirClusters (d + ys.length) ∧
      (cdLoop s paths d m).2.currentDirParentClusterNumber =
        (cdLoop s paths d m).2.dirClusters (d + ys.length - 1) ∧
      (∀ i ≤ d, (cdLoop s paths d m).2.dirPath i = m.dirPath i ∧
        (cdLoop s paths d m).2.dirClusters i = m.dirClusters i) ∧
      ∀ i (h : i < ys.length), (cdLoop s paths d m).2.place (d + 1 + i) = ys[i] := by
  induction paths generalizing d m ys with
  | nil =>
      obtain rfl := Option.some.inj h
      exact ⟨rfl, rfl, rfl, fun _ _ => ⟨rfl, rfl⟩, fun i hi => absurd hi (Nat.not_lt_zero i)⟩
  | cons path paths ih =>
      obtain ⟨y, zs, hy, hzs, rfl⟩ := walk_cons_eq_some.1 h
      obtain ⟨hloop, hparent⟩ := cdLoop_some paths hy
      rw [← Session.place_put hparent] at hzs
      obtain ⟨hdepth, hcur, hpar, hpath, hplaces⟩ := ih hzs
      have hlen : d + (y :: zs).length = d + 1 + zs.length := by rw [List.length_cons]; omega
      rw [hloop, hlen]
      refine ⟨hdepth, hcur, hpar, fun i hi => ?_, fun i hi => ?_⟩
      · obtain ⟨h₁, h₂⟩ := hpath i (Nat.le_succ_of_le hi)
        obtain ⟨h₃, h₄⟩ := Session.put_path (by omega : i ≠ d + 1) m y
        exact ⟨h₁.trans h₃, h₂.trans h₄⟩
      · cases i with
        | zero =>
            -- the place that was put is kept by the rest of the loop
            have hput := Session.place_put hparent
            obtain ⟨h₁, h₂⟩ := hpath (d + 1) le_rfl
            obtain ⟨-, h₄⟩ := hpath d (Nat.le_succ d)
            simp only [Session.place, Nat.add_sub_cancel, Nat.add_zero, List.getElem_cons_zero,
              h₁, h₂, h₄] at hput ⊢
            exact hput
        | succ i =>
            rw [List.getElem_cons_succ, ← hplaces i (by simpa using hi),
              show d + 1 + (i + 1) = d + 1 + 1 + i by omega]

/-! ### Paths -/

/-- A path that is not empty has components. -/
theorem components_ne_nil (h : p ≠ []) : components p ≠ [] := by
  cases p with
  | nil => exact absurd rfl h
  | cons c cs =>
      rw [components]
      split_ifs
      · exact List.cons_ne_nil _ _
      · cases components cs <;> exact List.cons_ne_nil _ _

/-- The first components of a path are those of a shorter path. -/
theorem exists_components {q : List (List UInt8)} (hq : q ≠ []) (h : q <+: components p) :
    ∃ p', p' ≠ [] ∧ p' <+: p ∧ components p' = q := by
  induction p generalizing q with
  | nil => exact absurd (List.prefix_nil.1 h) hq
  | cons c cs ih =>
      rw [components] at h
      by_cases hc : c = 0x2F
      · rw [if_pos hc] at h
        obtain ⟨d, q, rfl⟩ := List.exists_cons_of_ne_nil hq
        obtain ⟨rfl, hds⟩ := List.cons_prefix_cons.1 h
        by_cases hq' : q = []
        · subst hq'
          exact ⟨[c], by simp, by simp, by simp [components, hc]⟩
        · obtain ⟨p', -, hp', hcomp⟩ := ih hq' hds
          exact ⟨c :: p', by simp, by simpa using hp', by rw [components, if_pos hc, hcomp]⟩
      · rw [if_neg hc] at h
        cases hcs : components cs with
        | nil =>
            obtain rfl : cs = [] := by
              by_contra hne
              exact components_ne_nil hne hcs
            simp only [hcs] at h
            refine ⟨[c], by simp, List.prefix_refl _, ?_⟩
            obtain ⟨d, q, rfl⟩ := List.exists_cons_of_ne_nil hq
            obtain ⟨rfl, hds⟩ := List.cons_prefix_cons.1 h
            rw [List.prefix_nil.1 hds]
            simp [components, hc]
        | cons d ds =>
            simp only [hcs] at h
            obtain ⟨a, q, rfl⟩ := List.exists_cons_of_ne_nil hq
            obtain ⟨rfl, hds⟩ := List.cons_prefix_cons.1 h
            obtain ⟨p', -, hp', hcomp⟩ := ih (List.cons_ne_nil d q)
              (hcs ▸ List.cons_prefix_cons.2 ⟨rfl, hds⟩)
            exact ⟨c :: p', by simp, by simpa using hp', by rw [components, if_neg hc, hcomp]⟩

/-- The first components of a typed path may be typed alone. -/
theorem Typed.exists_prefix (h : Typed m p) {q : List (List UInt8)} (hq : q ≠ [])
    (hpre : q <+: components p) : ∃ p', Typed m p' ∧ components p' = q := by
  obtain ⟨p', hne, hp', hcomp⟩ := exists_components hq hpre
  refine ⟨p', ⟨hne, fun hup => h.not_up (hup.trans hp'), fun path hpath => ?_, ?_⟩, hcomp⟩
  · exact h.short path (hpre.subset (hcomp ▸ hpath))
  · have := hpre.length_le
    have := h.depth
    rw [hcomp]
    omega

/-- `cd` takes the components of its path one by one. -/
theorem cdTo_eq (h : Typed m p) : cdTo p s m = (cdLoop s (components p) m.depth m).2 := by
  have htake : ([0x63, 0x64, 0x20] ++ p).take 5 ≠ [0x63, 0x64, 0x20, 0x2E, 0x2E] := by
    intro heq
    refine h.not_up ⟨p.drop 2, ?_⟩
    have hp : p.take 2 = [0x2E, 0x2E] := by simpa using heq
    rw [← hp, List.take_append_drop]
  rw [cdTo, cd, if_neg htake]
  rfl

/-! ### The way back -/

/-- The two variables beside the path say what its end says. -/
def Current (m : Session) : Prop :=
  m.currentDirClusterNumber = m.dirClusters m.depth ∧
    m.currentDirParentClusterNumber = m.dirClusters (m.depth - 1)

/-- One `cd ..`. -/
theorem Session.up_spec (h : 0 < m.depth) :
    m.up.depth = m.depth - 1 ∧ Current m.up ∧
      ∀ j < m.depth, m.up.dirClusters j = m.dirClusters j := by
  have hother : ∀ j < m.depth, Function.update m.dirClusters m.depth 0xFFFFFFFF j =
      m.dirClusters j := fun j hj => Function.update_of_ne (by omega) _ _
  rw [Session.up, if_pos h]
  refine ⟨rfl, ⟨(hother (m.depth - 1) (by omega)).symm, ?_⟩, hother⟩
  change _ = Function.update m.dirClusters m.depth 0xFFFFFFFF (m.depth - 1 - 1)
  rw [hother _ (by omega)]
  split_ifs with h2
  · rfl
  · rw [show m.depth = 1 by omega]

/-- As many `cd ..` as the path is longer lead back. -/
theorem up_iterate {n : ℕ} (hd : m'.depth = d + n) (hcur : Current m')
    (hpath : ∀ j ≤ d, m'.dirClusters j = m.dirClusters j) :
    (Session.up^[n] m').depth = d ∧
      (Session.up^[n] m').currentDirClusterNumber = m.dirClusters d ∧
      (Session.up^[n] m').currentDirParentClusterNumber = m.dirClusters (d - 1) := by
  induction n generalizing m' with
  | zero =>
      obtain ⟨h₁, h₂⟩ := hcur
      rw [Nat.add_zero] at hd
      rw [hd] at h₁ h₂
      exact ⟨hd, h₁.trans (hpath d le_rfl), h₂.trans (hpath _ (Nat.sub_le d 1))⟩
  | succ n ih =>
      obtain ⟨hdepth, hcur', hother⟩ := Session.up_spec (by omega : 0 < m'.depth)
      rw [Function.iterate_succ_apply]
      exact ih (by omega) hcur' fun j hj => (hother j (by omega)).trans (hpath j hj)

/-- `cd ..` goes up. -/
theorem cdTo_up (s : State) : cdTo [0x2E, 0x2E] s = Session.up := by
  funext m
  rfl

/-! ### Real paths -/

/-- A live entry that bears a name. -/
structure Bears (s : State) (d : ℕ) (n : Bytes 8) (k : Fin 64) : Prop where
  entry : LiveEntry s d k
  name : (s.table d k).name = n

/-- An entry's cluster is a number of 32 bits. -/
theorem cluster_lt (e : DirectoryEntry) : e.cluster < 2 ^ 32 := by
  have hl := e.clusterLow.toNat_lt
  have hh := e.clusterHigh.toNat_lt
  rw [DirectoryEntry.cluster]
  refine Nat.or_lt_two_pow (by omega) ?_
  rw [Nat.shiftLeft_eq]
  omega

/-- The folder that an entry names is at the entry's cluster. -/
theorem Place.child_cluster (x : Place) (e : DirectoryEntry) :
    (x.child e).cluster.toNat = e.cluster :=
  UInt32.toNat_ofNat_of_lt' (cluster_lt e)

/-- Every directory of a real path is live. -/
theorem Located.live (h : Located s m) {i : ℕ} (hi : i ≤ m.depth) :
    LiveDir s (m.dirClusters i).toNat := by
  induction i with
  | zero =>
      rw [h.root.2]
      exact .root
  | succ i ih =>
      obtain ⟨k, hk, hcl⟩ := h.step i hi
      rw [← hcl]
      exact hk.entry.child hk.filesize

/-- On a real path only the root is its own parent. -/
theorem Located.sameCluster_iff (h : Located s m) (hwf : WellFormed s) :
    SameCluster m.currentDirParentClusterNumber m.currentDirClusterNumber ↔ m.depth = 0 := by
  rw [h.parent, h.current]
  constructor
  · intro hsame
    by_contra hd
    obtain ⟨i, hi⟩ := Nat.exists_eq_succ_of_ne_zero hd
    have hlive : LiveDir s (m.dirClusters i).toNat := h.live (by omega)
    obtain ⟨k, hk, hcl⟩ := h.step i (by omega)
    obtain ⟨n, hn⟩ := hlive
    have hchild : LiveAt s (n + 1) (m.dirClusters (i + 1)).toNat :=
      hcl ▸ .child hn hk.entry.slot hk.entry.used hk.filesize
    have hlt := (hwf.live_range ⟨n, hn⟩).2
    have hlt' := (hwf.live_range ⟨_, hchild⟩).2
    rw [SameCluster, hi, Nat.succ_sub_one, Nat.succ_eq_add_one, Nat.mod_eq_of_lt (by omega),
      Nat.mod_eq_of_lt (by omega)] at hsame
    rw [← hsame] at hchild
    have := LiveAt.unique hwf hn hchild
    omega
  · intro hd
    rw [hd]
    exact rfl

/-- A step that is right leads to a live folder. -/
theorem Place.sub_folder (hx : LiveDir s x.cluster.toNat) (h : x.sub s path = some y) :
    LiveDir s y.cluster.toNat ∧ ∃ k, Folder s y.parent.toNat y.name k ∧
      (s.table y.parent.toNat k).cluster = y.cluster.toNat := by
  rw [Place.sub, Option.map_eq_some_iff] at h
  obtain ⟨k, hk, rfl⟩ := h
  obtain ⟨hk, -⟩ := Fin.find?_eq_some_iff.1 hk
  obtain ⟨hk0, hu, hfile, -, -⟩ := of_decide_eq_true hk
  have he : LiveEntry s x.cluster.toNat k := ⟨hx, hk0, hu⟩
  rw [Place.child_cluster]
  exact ⟨he.child hfile, k, ⟨he, hfile, rfl⟩, rfl⟩

/-- The path through directories that are rightly entered is real. -/
theorem Located.entered (h : Located s m) {cs : List (List UInt8)}
    (hys : walk (Place.sub s) (m.place m.depth) cs = some ys)
    (hdepth : m'.depth = m.depth + ys.length)
    (h9 : m.depth + ys.length ≤ 9) (hcur : Current m')
    (hpath : ∀ i ≤ m.depth, m'.dirPath i = m.dirPath i ∧ m'.dirClusters i = m.dirClusters i)
    (hplaces : ∀ i (h : i < ys.length), m'.place (m.depth + 1 + i) = ys[i]) : Located s m' := by
  have hfolder := walk_forall (P := fun x => LiveDir s x.cluster.toNat)
    (fun x c y hx hy => Place.sub_folder hx hy) (h.live le_rfl) hys
  refine ⟨by omega, ?_, fun i hi => ?_, hcur.1, hcur.2⟩
  · rw [(hpath 0 (Nat.zero_le _)).1, (hpath 0 (Nat.zero_le _)).2]
    exact h.root
  · by_cases hlt : i < m.depth
    · rw [(hpath i hlt.le).2, (hpath (i + 1) hlt).1, (hpath (i + 1) hlt).2]
      exact h.step i hlt
    · obtain ⟨j, rfl⟩ := Nat.exists_eq_add_of_le (Nat.le_of_not_lt hlt)
      have hj : j < ys.length := by omega
      have hplace := hplaces j hj
      rw [show m.depth + 1 + j = m.depth + j + 1 by omega] at hplace
      have hy := hfolder _ (List.getElem_mem hj)
      rw [← hplace] at hy
      exact hy

/-! ### When `cd` is exact -/

/-- **One command** is exact if it is led where it should be. -/
theorem cdExact_iff (h : Located s m) (hp : Typed m p) : CdExact s m p ↔
    walk (Place.shown s) (m.place m.depth) (components p) =
      walk (Place.sub s) (m.place m.depth) (components p) := by
  have hpos : 0 < (components p).length := List.length_pos_iff.2 (components_ne_nil hp.ne_nil)
  rw [CdExact, cdTo_eq hp]
  cases hsub : walk (Place.sub s) (m.place m.depth) (components p) with
  | none =>
      simp only
      constructor
      · intro hstay
        cases hshown : walk (Place.shown s) (m.place m.depth) (components p) with
        | none => rfl
        | some zs =>
            have hdepth := (cdLoop_enters hshown).1
            have hlen := walk_length hshown
            have := hstay.depth
            omega
      · intro hshown
        obtain ⟨hdepth, hcur, hpar, hpath⟩ := cdLoop_stays hshown
        exact ⟨hdepth, hcur, hpar, hpath⟩
  | some ys =>
      have hys := walk_length hsub
      simp only
      constructor
      · intro hent
        cases hshown : walk (Place.shown s) (m.place m.depth) (components p) with
        | none =>
            have hdepth := (cdLoop_stays hshown).1
            have := hent.depth
            omega
        | some zs =>
            obtain ⟨-, -, -, -, hplaces⟩ := cdLoop_enters hshown
            have hzs := walk_length hshown
            refine congrArg some (List.ext_getElem (by omega) fun i hi hi' => ?_)
            rw [← hplaces i hi, hent.places i hi']
      · intro hshown
        obtain ⟨hdepth, hcur, hpar, hpath, hplaces⟩ := cdLoop_enters hshown
        rw [← hdepth] at hcur hpar
        have h9 := hp.depth
        refine ⟨hdepth, h.entered hsub hdepth (by omega) ⟨hcur, hpar⟩ hpath hplaces, hpath, hplaces,
          fun m'' hm'' => ?_⟩
        rw [cdTo_up] at hm''
        rw [hm'', h.current, h.parent]
        exact up_iterate hdepth ⟨hcur, hpar⟩ fun j hj => (hpath j hj).2

/-- **Every command** is exact if and only if the lookup of each component finds the live
subdirectory of that name, or nothing if there is none, in every directory that the components
before it lead to. -/
theorem cdExact_forall_iff (h : Located s m) : (∀ p, Typed m p → CdExact s m p) ↔
    ∀ p, Typed m p → ∀ cs path ys, cs ++ [path] <+: components p →
      walk (Place.sub s) (m.place m.depth) cs = some ys →
      (ys.getLastD (m.place m.depth)).shown s path =
        (ys.getLastD (m.place m.depth)).sub s path := by
  have hagree := walk_agree_iff (f := Place.shown s) (g := Place.sub s) (x := m.place m.depth)
    (D := fun cs => ∃ p, Typed m p ∧ cs <+: components p)
    fun cs path ⟨p, hp, hcs⟩ => ⟨p, hp, (List.prefix_append cs [path]).trans hcs⟩
  constructor
  · intro hall p hp cs path ys hcs hys
    refine hagree.1 (fun q ⟨p, hp, hq⟩ => ?_) cs path ys ⟨p, hp, hcs⟩ hys
    by_cases hnil : q = []
    · rw [hnil]
      rfl
    · obtain ⟨p', hp', rfl⟩ := hp.exists_prefix hnil hq
      exact (cdExact_iff h hp').1 (hall p' hp')
  · intro hall p hp
    refine (cdExact_iff h hp).2 (hagree.2 (fun cs path ys ⟨p, hp, hcs⟩ hys => ?_) _
      ⟨p, hp, List.prefix_refl _⟩)
    exact hall p hp cs path ys hcs hys

/-- The shell is started in the root. -/
theorem start_located (s : State) : Located s Session.start :=
  ⟨Nat.zero_le _, ⟨rfl, rfl⟩, fun i hi => absurd hi (Nat.not_lt_zero i), rfl, rfl⟩

/-! ### Tidy volumes -/

/-- The attribute of an entry says whether it is a folder. -/
def Marked (s : State) : Prop :=
  ∀ d k, LiveEntry s d k →
    ((s.table d k).attr = ATR_DIRECTORY ↔ (s.table d k).filesize = 0)

/-- The root, or a folder of the directory above. -/
def Place.Real (s : State) (x : Place) : Prop :=
  x = ⟨2, rootName, 2⟩ ∨ ∃ k, Folder s x.parent.toNat x.name k ∧
    (s.table x.parent.toNat k).cluster = x.cluster.toNat

/-- Every depth of a session on the volume is a folder of it. -/
theorem Located.real (h : Located s m) {i : ℕ} (hi : i ≤ m.depth) : (m.place i).Real s := by
  cases i with
  | zero =>
      left
      rw [Session.place, Nat.zero_sub, h.root.1, h.root.2]
  | succ i => exact Or.inr (h.step i hi)

/-- A folder of the volume is live. -/
theorem Place.Real.live (hx : x.Real s) : LiveDir s x.cluster.toNat := by
  obtain rfl | ⟨k, hk, hcl⟩ := hx
  · exact .root
  · exact hcl ▸ hk.entry.child hk.filesize

/-- Components lead from a real directory to a real one. -/
theorem Place.Real.walk (hx : x.Real s) (h : Walk.walk (Place.sub s) x paths = some ys) :
    (ys.getLastD x).Real s := by
  have hall := walk_forall (P := Place.Real s) (Q := Place.Real s)
    (fun x c y hx hy => ⟨Or.inr (Place.sub_folder hx.live hy).2,
      Or.inr (Place.sub_folder hx.live hy).2⟩) hx h
  cases ys using List.reverseRecOn with
  | nil => exact hx
  | append_singleton ys y => simpa using hall y (by simp)

/-- The root is found under its own name. -/
theorem readTable_root (h : Sound s) : readTable s 2 rootName = some (s.table 2) := by
  have hroot : findSlot (s.table (2 : UInt32).toNat) rootName = some 0 := h.findSlot_root
  have hcl : (s.table (2 : UInt32).toNat 0).cluster = 2 := h.atRoot.2
  have hsize : (s.table (2 : UInt32).toNat 0).filesize = 0 := (h.self _ .root).2
  rw [readTable_eq, hroot, Option.bind_some, if_pos hsize, hcl]

/-- In the root a command finds the table of the current directory. -/
theorem Located.readTable (h : Sound s) (hm : Located s m) (hd : m.depth = 0) :
    readTable s m.currentDirParentClusterNumber (m.dirPath m.depth) =
      some (s.table m.currentDirClusterNumber.toNat) := by
  rw [hm.parent, hm.current, hd, hm.root.1, hm.root.2]
  exact readTable_root h

/-- In a tidy volume a directory is found again by its name. -/
theorem Place.Real.readTable (h : Tidy s) (hx : x.Real s) :
    readTable s x.parent x.name = some (s.table x.cluster.toNat) := by
  obtain rfl | ⟨k, hk, hcl⟩ := hx
  · exact readTable_root h.sound
  · rw [readTable_eq]
    have hname : x.name ≠ 0 := hk.name ▸ h.titled _ hk.entry.dir k hk.entry.used
    have hfind := findSlot_eq h.distinct h.clean hk.entry.dir hname hk.entry.used hk.name
    rw [hfind, Option.bind_some, if_pos hk.filesize, hcl]

/-- **In a tidy volume** whose attributes are right, a lookup is right in every real
directory. -/
theorem Place.Real.shown_eq_sub (h : Tidy s) (hm : Marked s) (hx : x.Real s) :
    x.shown s path = x.sub s path := by
  have hlive := hx.live
  rw [Place.shown, hx.readTable h, Option.bind_some, findDirectory_eq, Place.sub]
  congr 2
  funext j
  refine decide_eq_decide.2 (and_congr_right fun hj => ?_)
  constructor
  · rintro ⟨hattr, hne, hname⟩
    have hu : (s.table x.cluster.toNat j).Used := by
      by_contra hu
      refine hne (hname.symm.trans (spelled_eq_nil.2 ?_))
      rw [h.clean _ hlive j hu]
      rfl
    exact ⟨hu, (hm _ j ⟨hlive, hj, hu⟩).1 hattr, hne, hname⟩
  · rintro ⟨hu, hsize, hne, hname⟩
    exact ⟨(hm _ j ⟨hlive, hj, hu⟩).2 hsize, hne, hname⟩

/-- There every typed `cd` is exact. -/
theorem Located.cdExact (h : Located s m) (ht : Tidy s) (hm : Marked s) (hp : Typed m p) :
    CdExact s m p := by
  refine (cdExact_iff h hp).2 ?_
  refine (walk_agree_iff (D := fun _ => True) fun _ _ _ => trivial).2 (fun cs path ys _ hys => ?_) _
    trivial
  exact Place.Real.shown_eq_sub ht hm ((h.real le_rfl).walk hys)

/-- The states that `cd` commands lead to from the start. -/
inductive Reached (s : State) : Session → Prop
  | start : Reached s Session.start
  | cd {m : Session} {p : List UInt8} : Reached s m → (p = [0x2E, 0x2E] ∨ Typed m p) →
      Reached s (cdTo p s m)

/-- `cd ..` goes back along a real path. -/
theorem Located.up (h : Located s m) : Located s m.up := by
  by_cases hd : 0 < m.depth
  · obtain ⟨hdepth, hcur, hother⟩ := Session.up_spec hd
    have hpath : m.up.dirPath = m.dirPath := by rw [Session.up, if_pos hd]
    have h9 := h.depth
    refine ⟨by omega, ⟨by rw [hpath, h.root.1], by rw [hother 0 hd, h.root.2]⟩, fun i hi => ?_,
      hcur.1, hcur.2⟩
    rw [hother i (by omega), hother (i + 1) (by omega), hpath]
    exact h.step i (by omega)
  · rwa [Session.up, if_neg hd]

/-- **In a tidy volume** whose attributes are right, every path that is reached is real. -/
theorem Reached.located (ht : Tidy s) (hmark : Marked s) (h : Reached s m) : Located s m := by
  induction h with
  | start => exact start_located s
  | @cd m p _ hp ih =>
      obtain rfl | hp := hp
      · rw [cdTo_up]
        exact ih.up
      · have hexact := ih.cdExact ht hmark hp
        rw [CdExact] at hexact
        cases hwalk : walk (Place.sub s) (m.place m.depth) (components p) with
        | some ys =>
            rw [hwalk] at hexact
            exact hexact.located
        | none =>
            rw [hwalk] at hexact
            have hpath := hexact.path
            have h9 := ih.depth
            refine ⟨hexact.depth.trans_le h9, ?_, fun i hi => ?_, ?_, ?_⟩
            · rw [(hpath 0 (Nat.zero_le _)).1, (hpath 0 (Nat.zero_le _)).2]
              exact ih.root
            · rw [hexact.depth] at hi
              rw [(hpath i hi.le).2, (hpath (i + 1) hi).1, (hpath (i + 1) hi).2]
              exact ih.step i hi
            · rw [hexact.current, hexact.depth, (hpath _ le_rfl).2, ih.current]
            · rw [hexact.parent, hexact.depth, (hpath _ (Nat.sub_le _ _)).2, ih.parent]

end Shell
end Jatos
