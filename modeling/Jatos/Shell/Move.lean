/-
# What `mv` leaves behind

`mv src path` puts a copy of the entry into the directory that the path leads to, and
stores the table of the source with that name cleared.  It clears the name only:
`user_attribute` stays, so the old slot is never free again (`source_stays`).  And the
table of the source goes to `CURRENT_DIR_PARENT_CLUSTER_NUMBER`, so that a move within the
root loses the copy, and below the root the directory above is overwritten.

So a move is never exact where the target directory has a free slot.  Where it is full,
`mv` stores nothing, as it should, unless it takes another directory for the target
(`move_exact_iff`).
-/

import Jatos.Shell.Mv

namespace Jatos
namespace Shell

open Fat32 Packed

/-! ### Paths -/

/-- A component of a path. -/
structure Component (name : List UInt8) : Prop extends Word name where
  no_slash : 0x2F ∉ name

/-- `/d1/.../dk`. -/
def absolute (paths : List (List UInt8)) : List UInt8 := paths.flatMap (0x2F :: ·)

/-- Live folders of the names lead from one directory to another. -/
inductive Leads (s : State) : List (List UInt8) → ℕ → ℕ → Prop
  | nil {d : ℕ} : Leads s [] d d
  | cons {path : List UInt8} {paths : List (List UInt8)} {d t : ℕ} {k : Fin 64} :
      Folder s d (nameOf path) k → Leads s paths (s.table d k).cluster t →
      Leads s (path :: paths) d t

/-- The names of `path_list`. -/
def names (tempPath : Bytes 8) : List (List UInt8) → List (Bytes 8)
  | [] => []
  | path :: paths => fillArray tempPath path :: paths.map nameOf

/-- The directory that names lead to, each looked up as `read_directory` does. -/
def landing (s : State) : List (Bytes 8) → UInt32 → Option UInt32
  | [], d => some d
  | n :: ns, d =>
      (findSlot (s.table d.toNat) n).bind fun i =>
        if (s.table d.toNat i).filesize = 0 then
          landing s ns (UInt32.ofNat (s.table d.toNat i).cluster)
        else none

/-! ### What it should do -/

/-- The entry of slot `k` of directory `d` is in slot `j` of directory `t`, which was free,
under a new name; its old slot is free, and every other entry is what it was. -/
structure Moved (s s' : State) (d : ℕ) (k : Fin 64) (t : ℕ) (j : Fin 64) (n : Bytes 8) :
    Prop where
  free : ¬(s.table t j).Used
  entry : LiveEntry s' t j
  name : (s'.table t j).name = n
  ext : (s'.table t j).ext = (s.table d k).ext
  filesize : (s'.table t j).filesize = (s.table d k).filesize
  attr : (s'.table t j).attr = (s.table d k).attr
  cluster : (s'.table t j).cluster = (s.table d k).cluster
  left : ¬(s'.table d k).Used
  others : ∀ d' i, LiveEntry s d' i → ¬(d' = d ∧ i = k) →
    LiveEntry s' d' i ∧ s'.table d' i = s.table d' i

/-- `mv src /d1/.../dk/name` moves slot `k` of the current directory: one entry refers to
its clusters then, and it is in the directory that the path leads to, if that had a free
slot; else nothing changed. -/
def MoveExact (stack : MoveStack) (src : List UInt8) (ds : List (List UInt8)) (name : List UInt8)
    (s : State) (m : Session) (k : Fin 64) : Prop :=
  ∃ text s', mvOf stack src (absolute (ds ++ [name])) s m = some (text, s') ∧
    (∃! x : ℕ × Fin 64, LiveEntry s' x.1 x.2 ∧ (s'.table x.1 x.2).cluster =
      (s.table m.currentDirClusterNumber.toNat k).cluster) ∧
    ∀ t, Leads s ds ROOT_CLUSTER_NUMBER t →
      if (freeSlot (s.table t)).isSome then
        ∃ j, Moved s s' m.currentDirClusterNumber.toNat k t j (nameOf name)
      else Kept s s'

/-- `mv` changes nothing.  It does not find the source; or the path fits into `path_list`,
and it leads nowhere or to a full directory as `mv` looks it up, or to the cluster that the
source's table is stored to, which has the contents of that table already. -/
def Harmless (stack : MoveStack) (src : List UInt8) (ds : List (List UInt8)) (s : State)
    (m : Session) : Prop :=
  ∀ dirTable i, mvTable stack s m = some dirTable →
    findSlot dirTable (fillArray stack.source src) = some i →
    ds.length ≤ 8 ∧ ∀ c, landing s (names stack.tempPath ds) 2 = some c →
      (freeSlot (s.table c.toNat)).isSome → SameCluster c m.currentDirParentClusterNumber ∧
        Function.update dirTable i { dirTable i with name := 0 } =
          s.table m.currentDirParentClusterNumber.toNat

variable {s s' : State} {m : Session} {stack : MoveStack} {src name : List UInt8} {n : Bytes 8}
  {ds paths : List (List UInt8)} {d t : ℕ} {c p : UInt32} {i j k : Fin 64} {e : DirectoryEntry}
  {x : DirectoryTable}

/-! ### The path of the command -/

/-- A component ends before the next one. -/
theorem components_append {path : List UInt8} (hpath : 0x2F ∉ path) (hne : path ≠ [])
    (rest : List UInt8) : components (path ++ 0x2F :: rest) = path :: components rest := by
  induction path with
  | nil => exact absurd rfl hne
  | cons c cs ih =>
      obtain ⟨hc, hcs⟩ := not_or.1 (List.mem_cons.not.1 hpath)
      rw [List.cons_append, components, if_neg fun heq => hc heq.symm]
      by_cases hnil : cs = []
      · subst hnil
        simp [components]
      · rw [ih hcs hnil]

/-- A path without a slash is one component. -/
theorem components_single {path : List UInt8} (hpath : 0x2F ∉ path) (hne : path ≠ []) :
    components path = [path] := by
  induction path with
  | nil => exact absurd rfl hne
  | cons c cs ih =>
      obtain ⟨hc, hcs⟩ := not_or.1 (List.mem_cons.not.1 hpath)
      rw [components, if_neg fun heq => hc heq.symm]
      by_cases hnil : cs = []
      · subst hnil
        rfl
      · rw [ih hcs hnil]

/-- An absolute path has the components that it was made of. -/
theorem components_absolute (h : ∀ path ∈ name :: paths, 0x2F ∉ path ∧ path ≠ []) :
    components ((absolute (name :: paths)).drop 1) = name :: paths := by
  have hdrop : (absolute (name :: paths)).drop 1 = name ++ absolute paths := rfl
  rw [hdrop]
  induction paths generalizing name with
  | nil =>
      obtain ⟨hname, hne⟩ := h name List.mem_cons_self
      rw [absolute, List.flatMap_nil, List.append_nil, components_single hname hne]
  | cons path paths ih =>
      obtain ⟨hname, hne⟩ := h name List.mem_cons_self
      have hrest := ih (fun q hq => h q (List.mem_cons_of_mem _ hq)) rfl
      change components (name ++ 0x2F :: (path ++ absolute paths)) = _
      rw [components_append hname hne, hrest]

/-- The components of a path, cut to eight bytes, unless there are too many. -/
theorem pathList_eq {tempPath : Bytes 8} {depth : ℕ} (h : ∀ path ∈ paths, path.length ≤ 8)
    (hdepth : depth ≤ 10) : pathList tempPath depth paths =
      if depth + paths.length ≤ 10 then some (.ok (names tempPath paths)) else none := by
  induction paths generalizing tempPath depth with
  | nil => rw [pathList, List.length_nil, if_pos (by omega)]; rfl
  | cons path paths ih =>
      have hlen := h path List.mem_cons_self
      rw [pathList, if_neg (Nat.not_lt.2 hlen), List.length_cons]
      by_cases hfull : 10 ≤ depth
      · rw [if_pos hfull, if_neg (by omega)]
      · rw [if_neg hfull, ih (fun q hq => h q (List.mem_cons_of_mem _ hq)) (by omega)]
        have hnames : names 0 paths = paths.map nameOf := by
          cases paths <;> rfl
        by_cases hfit : depth + 1 + paths.length ≤ 10
        · rw [if_pos hfit, if_pos (by omega), hnames]
          rfl
        · rw [if_neg hfit, if_neg (by omega)]
          rfl

/-- The last name, behind those of the directories. -/
theorem names_append (tempPath : Bytes 8) (ds : List (List UInt8)) (name : List UInt8) :
    ∃ last, names tempPath (ds ++ [name]) = names tempPath ds ++ [last] := by
  cases ds with
  | nil => exact ⟨_, rfl⟩
  | cons d ds => exact ⟨nameOf name, by simp [names]⟩

/-! ### What is stored -/

/-- The two stores, where the entry is put into a directory. -/
def putMoved (x : DirectoryTable) (e : DirectoryEntry) (n : Bytes 8) (p : UInt32) (s : State)
    (c : UInt32) : State :=
  match freeSlot (s.table c.toNat) with
  | none => s
  | some j =>
      (s.writeCluster c.toNat (tableLayout (Function.update (s.table c.toNat) j
        { e with name := n, userAttribute := UATTR_NOT_EMPTY, attr := ATR_FILE }))).writeCluster
      p.toNat (tableLayout x)

/-- One round of the loop: the next component is looked up in the table. -/
theorem mvInto_cons_cons (ns : List (Bytes 8)) (n n' : Bytes 8) (t : DirectoryTable)
    (final prev : UInt32) : mvInto x e s m (n :: n' :: ns) t final prev =
      match findSlot t n with
      | none => ("Path tidak valid2\n", s)
      | some j =>
          match readTable s prev n with
          | none => ("Path tidak valid1\n", s)
          | some dirTable => mvInto x e s m (n' :: ns) dirTable
              (UInt32.ofNat (t j).cluster) (UInt32.ofNat (t j).cluster) := rfl

/-- The table of the loop is always that of the directory which is reached. -/
theorem mvInto_eq (ns : List (Bytes 8)) (n : Bytes 8) :
    (mvInto x e s m (ns ++ [n]) (s.table c.toNat) c c).2 =
      ((landing s ns c).map (putMoved x e n m.currentDirParentClusterNumber s)).getD s := by
  induction ns generalizing c with
  | nil =>
      rw [List.nil_append, landing, mvInto, Option.map_some, Option.getD_some, putMoved]
      cases freeSlot (s.table c.toNat) <;> rfl
  | cons n' ns ih =>
      have hsplit : ∃ n'' ns', ns ++ [n] = n'' :: ns' :=
        List.exists_cons_of_ne_nil (by simp)
      obtain ⟨n'', ns', hns⟩ := hsplit
      rw [List.cons_append, hns, mvInto_cons_cons, ← hns, landing, readTable_eq]
      cases hi : findSlot (s.table c.toNat) n' with
      | none => rfl
      | some i =>
          simp only [Option.bind_some]
          by_cases hsize : (s.table c.toNat i).filesize = 0
          · rw [if_pos hsize, if_pos hsize, ← ih,
              UInt32.toNat_ofNat_of_lt' (cluster_lt _)]
          · rw [if_neg hsize, if_neg hsize]
            rfl

/-- What is written back as it was read changes nothing. -/
theorem writeCluster_self (s : State) (c : ℕ) : (s.writeCluster c (s.cluster c)).disk = s.disk :=
  writeClusters_readClusters s.disk c

/-- The two stores change nothing only where there are none, or where the second restores
what the first has overwritten. -/
theorem kept_putMoved_iff : Kept s (putMoved x e n p s c) ↔
    ((freeSlot (s.table c.toNat)).isSome → SameCluster c p ∧ x = s.table p.toNat) := by
  rw [putMoved]
  cases hj : freeSlot (s.table c.toNat) with
  | none => exact iff_of_true (.refl s) nofun
  | some j =>
      let y := Function.update (s.table c.toNat) j
        { e with name := n, userAttribute := UATTR_NOT_EMPTY, attr := ATR_FILE }
      change Kept s ((s.writeCluster c.toNat (tableLayout y)).writeCluster p.toNat
        (tableLayout x)) ↔ _
      constructor
      · intro hkept _
        refine ⟨?_, ?_⟩
        · by_contra hne
          -- the slot is used in what the first has stored
          have hcl := (cluster_writeCluster_of_not_same (fun h => hne h.symm)
            (s.writeCluster c.toNat (tableLayout y)) (tableLayout x)).trans
            (State.cluster_writeCluster_self c.toNat (tableLayout y))
          have htab := (State.table_of_cluster hcl).symm.trans (hkept.table c.toNat)
          refine freeSlot_not_used hj ?_
          rw [← htab]
          simp only [y, Function.update_self]
          rfl
        · exact (State.table_of_cluster (State.cluster_writeCluster_self _ _)).symm.trans
            (hkept.table p.toNat)
      · intro hback
        obtain ⟨hsame, rfl⟩ := hback rfl
        refine ⟨?_, fun _ _ => rfl⟩
        have htab : tableLayout (s.table p.toNat) = s.cluster p.toNat :=
          Equiv.apply_symm_apply _ _
        rw [hsame.writeCluster, State.writeCluster_disk, State.writeCluster_disk,
          writeClusters_writeClusters, htab]
        exact writeCluster_self s p.toNat

/-- **The old slot stays used.**  In the root the table that is stored last has it, with its
`user_attribute`; below, only the copy can get into the current directory. -/
theorem source_stays (h : Sound s) (hm : Located s m) (hx : mvTable stack s m = some x)
    (hu : (s.table m.currentDirClusterNumber.toNat k).Used) :
    ((putMoved (Function.update x i { x i with name := 0 }) e n
      m.currentDirParentClusterNumber s c).table m.currentDirClusterNumber.toNat k).Used := by
  rw [putMoved]
  cases hj : freeSlot (s.table c.toNat) with
  | none => exact hu
  | some j =>
      let y := Function.update (s.table c.toNat) j
        { e with name := n, userAttribute := UATTR_NOT_EMPTY, attr := ATR_FILE }
      change (((s.writeCluster c.toNat (tableLayout y)).writeCluster
        m.currentDirParentClusterNumber.toNat (tableLayout (Function.update x i
          { x i with name := 0 }))).table m.currentDirClusterNumber.toNat k).Used
      by_cases hsame : SameCluster m.currentDirParentClusterNumber m.currentDirClusterNumber
      · have hd := (hm.sameCluster_iff h.toWellFormed).1 hsame
        rw [mvTable_root _ h hm hd] at hx
        obtain ⟨-, hx⟩ := Option.ite_none_right_eq_some.1 hx
        obtain rfl := Option.some.inj hx
        rw [hsame.writeCluster, State.table_of_cluster (State.cluster_writeCluster_self _ _)]
        by_cases hki : k = i
        · rw [hki, Function.update_self]
          exact hki ▸ hu
        · rwa [Function.update_of_ne hki]
      · rw [State.table_congr (cluster_writeCluster_of_not_same hsame _ _)]
        by_cases hcd : SameCluster c m.currentDirClusterNumber
        · rw [hcd.writeCluster, State.table_of_cluster (State.cluster_writeCluster_self _ _)]
          by_cases hkj : k = j
          · rw [hkj]
            simp only [y, Function.update_self]
            rfl
          · simp only [y]
            rwa [Function.update_of_ne hkj, hcd.table]
        · rwa [State.table_congr (cluster_writeCluster_of_not_same hcd _ _)]

/-! ### When it is exact -/

/-- The command is a move. -/
theorem mvOf_path (hsrc : Word src) (hds : ∀ path ∈ ds ++ [name], Component path) :
    mvOf stack src (absolute (ds ++ [name])) s m =
      mvMove stack (fillArray stack.source src) (absolute (ds ++ [name])) s m := by
  obtain ⟨path, paths, hpaths⟩ := List.exists_cons_of_ne_nil (by simp : ds ++ [name] ≠ [])
  have hhead : (absolute (ds ++ [name])).head? = some 0x2F := by
    rw [hpaths]
    rfl
  have hspace : 0x20 ∉ absolute (ds ++ [name]) := by
    intro hmem
    obtain ⟨path, hpath, hmem⟩ := List.mem_flatMap.1 hmem
    obtain heq | hmem := List.mem_cons.1 hmem
    · exact absurd heq (by decide)
    · exact (hds path hpath).no_space hmem
  have hne : absolute (ds ++ [name]) ≠ [] := List.ne_nil_of_mem (List.mem_of_mem_head? hhead)
  rw [mvOf_eq _ _ _ hsrc hspace hne, if_neg (not_not.2 hhead)]

/-- A move for which the source is not found, and one for which it is. -/
theorem mvMove_of_missing (hx : ∀ x i, mvTable stack s m = some x → findSlot x n ≠ some i)
    (dest : List UInt8) : ∃ text, mvMove stack n dest s m = some (text, s) := by
  rw [mvMove]
  cases hsource : mvSource stack n s m with
  | error text => exact ⟨text, rfl⟩
  | ok found =>
      obtain ⟨x, i⟩ := found
      obtain ⟨hx', hi⟩ := mvSource_ok_iff.1 hsource
      exact absurd hi (hx x i hx')

/-- What `mv` stores, once the object is found. -/
theorem mvMove_of_found (h : Sound s) (hds : ∀ path ∈ ds ++ [name], Component path)
    (hx : mvTable stack s m = some x) (hi : findSlot x n = some i) :
    ∃ last, (mvMove stack n (absolute (ds ++ [name])) s m).map Prod.snd =
      if ds.length ≤ 8 then
        some (((landing s (names stack.tempPath ds) 2).map
          (putMoved (Function.update x i { x i with name := 0 }) (x i) last
            m.currentDirParentClusterNumber s)).getD s)
      else none := by
  obtain ⟨last, hlast⟩ := names_append stack.tempPath ds name
  refine ⟨last, ?_⟩
  obtain ⟨path, paths, hpaths⟩ := List.exists_cons_of_ne_nil (by simp : ds ++ [name] ≠ [])
  have hcomp : components ((absolute (ds ++ [name])).drop 1) = ds ++ [name] := by
    rw [hpaths] at hds ⊢
    exact components_absolute fun q hq => ⟨(hds q hq).no_slash, (hds q hq).ne_nil⟩
  rw [mvMove, mvSource_ok_iff.2 ⟨hx, hi⟩]
  simp only [hcomp]
  rw [pathList_eq (fun q hq => (hds q hq).short) (by decide), hlast, List.length_append,
    List.length_singleton]
  by_cases hlen : ds.length ≤ 8
  · have hinto := mvInto_eq (s := s) (m := m) (x := Function.update x i { x i with name := 0 })
      (e := x i) (c := 2) (names stack.tempPath ds) last
    rw [if_pos hlen, if_pos (by omega), ← hinto]
    simp only [Option.map_some, readTable_root h]
    rfl
  · rw [if_neg hlen, if_neg (by omega)]
    rfl

/-- One entry refers to the clusters of a live entry. -/
theorem existsUnique_entry (h : WellFormed s) (hkept : Kept s s') (he : LiveEntry s d k) :
    ∃! x : ℕ × Fin 64, LiveEntry s' x.1 x.2 ∧
      (s'.table x.1 x.2).cluster = (s.table d k).cluster := by
  refine ⟨(d, k), ⟨hkept.entry_iff.2 he, by rw [hkept.table]⟩, ?_⟩
  rintro ⟨d', k'⟩ ⟨he', hcl⟩
  have he₀ := hkept.entry_iff.1 he'
  rw [hkept.table] at hcl
  obtain ⟨l, hl, -, -⟩ := h.chain _ _ he
  obtain ⟨l', hl', -, -⟩ := h.chain _ _ he₀
  have hmem : (s.table d k).cluster ∈ l' := hcl ▸ hl'.head_mem
  obtain ⟨rfl, rfl⟩ := h.disjoint _ _ _ _ _ _ he₀ he hl' hl _ hmem hl.head_mem
  rfl

/-- In every run of a move the old slot stays used. -/
theorem used_of_mvMove {text : String} (h : Sound s) (hm : Located s m)
    (hds : ∀ path ∈ ds ++ [name], Component path)
    (hu : (s.table m.currentDirClusterNumber.toNat k).Used)
    (hrun : mvMove stack n (absolute (ds ++ [name])) s m = some (text, s')) :
    (s'.table m.currentDirClusterNumber.toNat k).Used := by
  by_cases hfound : ∃ x i, mvTable stack s m = some x ∧ findSlot x n = some i
  · obtain ⟨x, i, hx, hi⟩ := hfound
    obtain ⟨last, hmap⟩ := mvMove_of_found h hds hx hi
    rw [hrun] at hmap
    obtain ⟨-, hs⟩ := Option.ite_none_right_eq_some.1 hmap.symm
    obtain rfl := Option.some.inj hs
    cases hland : landing s (names stack.tempPath ds) 2 with
    | none => exact hu
    | some c => exact source_stays h hm hx hu
  · have hmissing : ∀ x i, mvTable stack s m = some x → findSlot x n ≠ some i :=
      fun x i hx hi => hfound ⟨x, i, hx, hi⟩
    obtain ⟨text', htext⟩ := mvMove_of_missing hmissing (absolute (ds ++ [name]))
    obtain ⟨-, rfl⟩ := Prod.mk.inj (Option.some.inj (htext.symm.trans hrun))
    exact hu

/-- A run of a move changes nothing only if `mv` is harmless, and then it does. -/
theorem kept_mvMove_iff (h : Sound s) (hds : ∀ path ∈ ds ++ [name], Component path) :
    (∃ text s', mvMove stack (fillArray stack.source src) (absolute (ds ++ [name])) s m =
      some (text, s') ∧ Kept s s') ↔ Harmless stack src ds s m := by
  constructor
  · rintro ⟨text, s', hrun, hkept⟩ x i hx hi
    obtain ⟨last, hmap⟩ := mvMove_of_found h hds hx hi
    rw [hrun] at hmap
    obtain ⟨hlen, hs⟩ := Option.ite_none_right_eq_some.1 hmap.symm
    obtain rfl := Option.some.inj hs
    refine ⟨hlen, fun c hc => ?_⟩
    rw [hc] at hkept
    exact kept_putMoved_iff.1 hkept
  · intro hharm
    by_cases hfound : ∃ x i, mvTable stack s m = some x ∧
        findSlot x (fillArray stack.source src) = some i
    · obtain ⟨x, i, hx, hi⟩ := hfound
      obtain ⟨hlen, hland⟩ := hharm x i hx hi
      obtain ⟨last, hmap⟩ := mvMove_of_found h hds hx hi
      rw [if_pos hlen] at hmap
      obtain ⟨⟨text, s'⟩, hrun, hs⟩ := Option.map_eq_some_iff.1 hmap
      obtain rfl : s' = _ := hs
      refine ⟨text, _, hrun, ?_⟩
      cases hc : landing s (names stack.tempPath ds) 2 with
      | none => exact .refl s
      | some c => exact kept_putMoved_iff.2 (hland c hc)
    · have hmissing : ∀ x i, mvTable stack s m = some x →
          findSlot x (fillArray stack.source src) ≠ some i :=
        fun x i hx hi => hfound ⟨x, i, hx, hi⟩
      obtain ⟨text, htext⟩ := mvMove_of_missing hmissing (absolute (ds ++ [name]))
      exact ⟨text, s, htext, .refl s⟩

/-- **When `mv` moves exactly.**  Every directory that the path leads to must be full, and
then `mv` must not take another for it, in which it stores something. -/
theorem move_exact_iff (h : Sound s) (hm : Located s m) (hsrc : Word src)
    (hds : ∀ path ∈ ds ++ [name], Component path)
    (hb : Bears s m.currentDirClusterNumber.toNat (nameOf src) k)
    (hlead : ∃ t, Leads s ds ROOT_CLUSTER_NUMBER t) :
    MoveExact stack src ds name s m k ↔
      (∀ t, Leads s ds ROOT_CLUSTER_NUMBER t → freeSlot (s.table t) = none) ∧
        Harmless stack src ds s m := by
  rw [MoveExact, mvOf_path hsrc hds, ← kept_mvMove_iff h hds]
  constructor
  · rintro ⟨text, s', hrun, -, hto⟩
    have hfull : ∀ t, Leads s ds ROOT_CLUSTER_NUMBER t → freeSlot (s.table t) = none := by
      intro t ht
      by_contra hfree
      have hmoved := hto t ht
      rw [if_pos (Option.isSome_iff_ne_none.2 hfree)] at hmoved
      obtain ⟨j, hmoved⟩ := hmoved
      exact hmoved.left (used_of_mvMove h hm hds hb.entry.used hrun)
    refine ⟨hfull, text, s', hrun, ?_⟩
    obtain ⟨t, ht⟩ := hlead
    have hkept := hto t ht
    rwa [hfull t ht, if_neg (by decide)] at hkept
  · rintro ⟨hfull, text, s', hrun, hkept⟩
    refine ⟨text, s', hrun, existsUnique_entry h.toWellFormed hkept hb.entry, fun t ht => ?_⟩
    rwa [hfull t ht, if_neg (by decide)]

/-- In a tidy volume a path leads where `mv` finds it. -/
theorem Leads.landing (ht : Tidy s) (hd : LiveDir s c.toNat) (hds : ∀ path ∈ ds, Component path)
    (hl : Leads s ds c.toNat t) :
    ∃ u, landing s (ds.map nameOf) c = some u ∧ u.toNat = t := by
  induction ds generalizing c with
  | nil =>
      cases hl
      exact ⟨c, rfl, rfl⟩
  | cons path paths ih =>
      cases hl with
      | @cons _ _ _ _ k hk hrest =>
          have hn := (hds path List.mem_cons_self).nameOf_ne_zero
          have hfind := findSlot_eq ht.distinct ht.clean hd hn hk.entry.used hk.name
          have hcl : (UInt32.ofNat (s.table c.toNat k).cluster).toNat =
              (s.table c.toNat k).cluster := UInt32.toNat_ofNat_of_lt' (cluster_lt _)
          rw [List.map_cons, Shell.landing, hfind, Option.bind_some, if_pos hk.filesize]
          rw [← hcl] at hrest
          refine ih ?_ (fun q hq => hds q (List.mem_cons_of_mem _ hq)) hrest
          rw [hcl]
          exact hk.entry.child hk.filesize

/-- In a tidy volume, with a stack of zeros, a move to a full directory is harmless. -/
theorem harmless_of_full (ht : Tidy s) (hstack : stack.tempPath = 0) (hlen : ds.length ≤ 8)
    (hds : ∀ path ∈ ds, Component path) (hl : Leads s ds ROOT_CLUSTER_NUMBER t)
    (hfull : freeSlot (s.table t) = none) : Harmless stack src ds s m := by
  intro x i _ _
  refine ⟨hlen, fun c hc hfree => ?_⟩
  have hnames : names stack.tempPath ds = ds.map nameOf := by
    rw [hstack]
    cases ds <;> rfl
  obtain ⟨u, hu, rfl⟩ := Leads.landing (c := 2) ht .root hds hl
  rw [hnames, hu] at hc
  obtain rfl := Option.some.inj hc
  rw [hfull] at hfree
  cases hfree

/-- The condition for a move within the root, where the target has a free slot. -/
theorem move_exact_iff_sample : ∃ os s,
    Runs.run (Fat32.exec 512) (nestedOps 0x78 3) (createFat32 blank) = some (os, s) ∧
    (MoveExact blankMoveStack [0x61] [] [0x62] s Session.start 1 ↔
      (∀ t, Leads s [] ROOT_CLUSTER_NUMBER t → freeSlot (s.table t) = none) ∧
        Harmless blankMoveStack [0x61] [] s Session.start) := by
  obtain ⟨os, s, f, hrun, -, ht, -, ha, -⟩ := nested 0x78 3 (by decide)
  have hname : nameOf [0x61] = ![0x61, 0, 0, 0, 0, 0, 0, 0] := by decide
  have hcomp : ∀ path ∈ [] ++ [([0x62] : List UInt8)], Component path := by
    intro path hpath
    obtain rfl := List.mem_singleton.1 hpath
    exact ⟨⟨by decide, by decide, by decide, by decide⟩, by decide⟩
  exact ⟨os, s, hrun, move_exact_iff ht.sound (start_located s)
    ⟨by decide, by decide, by decide, by decide⟩ hcomp ⟨ha.entry, ha.name.trans hname.symm⟩
    ⟨_, .nil⟩⟩

/-- A folder `a` in the root: `mv a /b` does not move it, though the root has free slots. -/
theorem move_stays_sample : ∃ os s,
    Runs.run (Fat32.exec 512) (nestedOps 0x78 3) (createFat32 blank) = some (os, s) ∧
    Sound s ∧ Plain s ∧
    Bears s Session.start.currentDirClusterNumber.toNat (nameOf [0x61]) 1 ∧
    (freeSlot (s.table ROOT_CLUSTER_NUMBER)).isSome ∧
    ¬MoveExact blankMoveStack [0x61] [] [0x62] s Session.start 1 := by
  obtain ⟨os, s, f, hwrites, -, ht, hplain, ha, -, -, -, hzero⟩ := nested 0x78 3 (by decide)
  have hname : nameOf [0x61] = ![0x61, 0, 0, 0, 0, 0, 0, 0] := by decide
  have hcomp : ∀ path ∈ [] ++ [([0x62] : List UInt8)], Component path := by
    intro path hpath
    obtain rfl := List.mem_singleton.1 hpath
    exact ⟨⟨by decide, by decide, by decide, by decide⟩, by decide⟩
  have hfree : (freeSlot (s.table ROOT_CLUSTER_NUMBER)).isSome := by
    by_contra hnone
    have hu := freeSlot_eq_none_iff.1 (Option.not_isSome_iff_eq_none.1 hnone) 2
    rw [hzero 2 2 (Or.inl rfl) (by decide) (by decide)] at hu
    exact zero_not_used hu
  refine ⟨os, s, hwrites, ht.sound, hplain, ⟨ha.entry, ha.name.trans hname.symm⟩, hfree, ?_⟩
  rintro ⟨text, s', hrun, -, hto⟩
  have hmoved := hto _ .nil
  rw [if_pos hfree] at hmoved
  obtain ⟨j, hmoved⟩ := hmoved
  rw [mvOf_path ⟨by decide, by decide, by decide, by decide⟩ hcomp] at hrun
  exact hmoved.left
    (used_of_mvMove ht.sound (start_located s) hcomp ha.entry.used hrun)

end Shell
end Jatos
