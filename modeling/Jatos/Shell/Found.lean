/-
# What `find` finds

After every safe run, and where no folder stands behind another slot of its name, `find` is
exact for every name if and only if no directory lies more than nine levels below the root,
and no folder has the name of the directory that holds it (`find_exact_iff`).

Ten levels down the arrays of a node have no room.  And a folder with the name of its
directory is looked up as slot 0, which is that directory itself: `find` reads the table
above it instead, comes to the folder again from there, and goes on until it stores behind
its arrays (`search_echo`).  Either way the search for a name that no entry bears leaves the
arrays, and the model has no answer to it.

Where neither is so the search of `find` runs through the tree of the volume, level by
level, and the 511 elements of the queue that are in use are enough for it.
-/

import Mathlib.Data.Fintype.Prod
import Jatos.Shell.Tree

namespace Jatos
namespace Shell

open Fat32 Packed Search NodeDir

/-! ### What it should find -/

/-- A name of 1 to 8 characters, which may be spaces. -/
structure Target (name : List UInt8) : Prop where
  ne_nil : name ≠ []
  short : name.length ≤ 8
  no_zero : 0 ∉ name

/-- The path that an answer shows. -/
def Answer.path : Answer → Option (List (Bytes 8))
  | tooLong => none
  | root => some [rootName]
  | found namaPath name => some (namaPath ++ [name])
  | missing => none

/-- The command `find name`. -/
def findOf (fuel : ℕ) (stack : ℕ → FindStack) (name : List UInt8) (s : State) :
    Option (ℕ × Answer) :=
  findAnswer fuel stack ([0x66, 0x69, 0x6E, 0x64, 0x20] ++ name) s

/-- `find name` ends, within its arrays, and shows a shortest path of the name, or none if
there is none. -/
def FindExact (stack : ℕ → FindStack) (name : List UInt8) (s : State) : Prop :=
  ∃ fuel failed answer, findOf fuel stack name s = some (failed, answer) ∧
    match answer.path with
    | some p => PathOf s (nameOf name) p ∧ ∀ p', PathOf s (nameOf name) p' → p.length ≤ p'.length
    | none => ∀ p, ¬PathOf s (nameOf name) p

/-- A folder with the name of the directory that holds it. -/
structure Echo (s : State) (d : ℕ) (k : Fin 64) : Prop where
  entry : LiveEntry s d k
  filesize : (s.table d k).filesize = 0
  name : (s.table d k).name = (s.table d 0).name

variable {s : State} {x y z : NodeDir} {d : ℕ} {k : Fin 64} {n : Bytes 8} {name : List UInt8}
  {stack : ℕ → FindStack} {fuel pass : ℕ}

/-- What is searched for is not the empty name. -/
theorem Target.nameOf_ne_zero (h : Target name) : nameOf name ≠ 0 := by
  intro heq
  obtain ⟨c, cs, rfl⟩ := List.exists_cons_of_ne_nil h.ne_nil
  have h0 : c = 0 := congrFun heq 0
  exact h.no_zero (h0 ▸ List.mem_cons_self)

/-- Apart from the root, a path leads to an entry in the directory of a node. -/
theorem PathOf.exists_bears {p : List (Bytes 8)} (hp : PathOf s n p) (hn : n ≠ rootName) :
    ∃ z k, Real s z ∧ Bears s z.cluster.toNat n k ∧ p.length = z.nEff + 1 := by
  cases hp with
  | root heq => exact absurd heq hn
  | entry hp hb =>
      obtain ⟨z, hz, rfl, rfl⟩ := hp.exists_real
      exact ⟨z, _, hz, hb, by rw [List.length_append, hz.length_namaPath, List.length_singleton]⟩

/-- The command line of a name of at most 8 characters is not too long. -/
theorem Target.length_le (h : Target name) :
    ([0x66, 0x69, 0x6E, 0x64, 0x20] ++ name).length ≤ 13 := by
  have := h.short
  simp only [List.length_append, List.length_cons, List.length_nil]
  omega

/-- The name of the root is answered before the search. -/
theorem findOf_root (hname : Target name) (hroot : nameOf name = rootName) :
    findOf fuel stack name s = some (0, .root) := by
  rw [findOf, findAnswer, if_neg (Nat.not_lt.2 hname.length_le)]
  have hdrop : ([0x66, 0x69, 0x6E, 0x64, 0x20] ++ name).drop 5 = name := rfl
  simp only [hdrop]
  exact if_pos (by simpa using hroot.symm)

/-- An answer of the loop is one of the command. -/
theorem findOf_eq (hname : Target name) (hroot : nameOf name ≠ rootName) :
    findOf fuel stack name s = (findLoop stack (nameOf name) s fuel .start).map
      fun (m, found) => (m, match found with
        | some (node, entry) => .found node.namaPath entry.name
        | none => .missing) := by
  rw [findOf, findAnswer, if_neg (Nat.not_lt.2 hname.length_le)]
  have hdrop : ([0x66, 0x69, 0x6E, 0x64, 0x20] ++ name).drop 5 = name := rfl
  simp only [hdrop]
  exact if_neg (by simpa using hroot.symm)

/-- The root is found everywhere. -/
theorem findExact_root (hname : Target name) (hroot : nameOf name = rootName) :
    FindExact stack name s := by
  refine ⟨0, 0, .root, findOf_root hname hroot, .root hroot, fun p' hp' => ?_⟩
  cases hp' with
  | root _ => exact le_rfl
  | entry _ _ => simp

/-! ### What is found in a directory -/

/-- A hit is an entry of the folder that has the name. -/
theorem hitAt_eq_some (h : Orderly s) (hx : Real s x) (hn : n ≠ 0) {r : NodeDir × DirectoryEntry}
    (hr : hitAt n x (s.table x.cluster.toNat) slots = some r) :
    ∃ k, Bears s x.cluster.toNat n k ∧ r = (x, s.table x.cluster.toNat k) := by
  obtain ⟨k, hk, rfl⟩ := Option.map_eq_some_iff.1 hr
  have hmem := List.mem_of_find?_eq_some hk
  have hname := List.find?_some hk
  exact ⟨k, (find_slot_iff h hx.live hn (mem_slots.1 hmem)).1 (by simpa using hname), rfl⟩

/-- Where there is no hit, no slot has the name. -/
theorem hitAt_eq_none (hr : hitAt n x (s.table x.cluster.toNat) slots = none) :
    ¬Bears s x.cluster.toNat n k := by
  intro hb
  rw [hitAt, Option.map_eq_none_iff, List.find?_eq_none] at hr
  exact hr k (mem_slots.2 hb.entry.slot) (by simpa using hb.name)

/-! ### Where the tree is as `find` takes it -/

/-- A directory is found again unless its folder is such a one. -/
theorem NodeDir.Real.readTable_of (h : Sound s) (hf : FoldersFirst s) (hx : Real s x)
    (hecho : ∀ m d k, LiveAt s m d → m + 2 = x.nEff → ¬Echo s d k) :
    readTable s x.parent x.nama = some (s.table x.cluster.toNat) := by
  cases hx with
  | root => exact readTable_root_node h
  | @child x k hx he h0 =>
      have hpos := hx.pos
      refine Real.readTable_child hf hx he h0 fun heq => ?_
      exact hecho _ _ k hx.liveAt (by rw [nEff_child]; omega) ⟨he, h0, heq⟩

/-- Without such folders every directory is found again. -/
theorem NodeDir.Real.readTable (h : Sound s) (hf : FoldersFirst s) (hecho : ∀ d k, ¬Echo s d k)
    (hx : Real s x) : readTable s x.parent x.nama = some (s.table x.cluster.toNat) :=
  hx.readTable_of h hf fun _ d k _ _ => hecho d k

section

variable (h : Orderly s) (hf : FoldersFirst s) (hdeep : ∀ m d, LiveAt s m d → m ≤ 9)
  (hecho : ∀ d k, ¬Echo s d k)

include h hf hdeep hecho

/-- One pass at a node of the tree. -/
theorem expand_real (hx : Real s x) : expand stack n s pass x =
    some (hitAt n x (s.table x.cluster.toNat) slots,
      childrenAt x (s.table x.cluster.toNat) slots) := by
  rw [expand_eq (hx.readTable h.sound hf hecho), if_neg]
  rintro ⟨hten, hne⟩
  obtain ⟨z, hz⟩ := List.exists_mem_of_ne_nil _ hne
  obtain ⟨hzr, hlen⟩ := Real.of_mem_children h hx hz
  have := hdeep _ _ hzr.liveAt
  omega

/-- The search through the tree ends. -/
theorem search_ends_real (stack : ℕ → FindStack) (n : Bytes 8) :
    ∃ o, search 511 (expand stack n s) 512 0 [NodeDir.root] = some o := by
  refine search_ends (fun x => childrenAt x (s.table x.cluster.toNat) slots) (I := Real s)
    (fun pass x hx => ⟨_, expand_real h hf hdeep hecho hx⟩)
    (fun x hx y hy => (Real.of_mem_children h hx hy).1) (fun x hx => ?_)
    (fun x y z hx hy hzx hzy => ?_) (fun x hx hroot => ?_)
    (fun l hl hreal => (length_real_le h.sound.toWellFormed hl hreal).trans (by decide)) .root
  · refine List.Nodup.map_on (fun i hi j hj heq => ?_) (slots_nodup.filter _)
    obtain ⟨hi, hattr⟩ := List.mem_filter.1 hi
    obtain ⟨hj, hattr'⟩ := List.mem_filter.1 hj
    have hei := (h.folder_iff hx.live (mem_slots.1 hi)).1 (of_decide_eq_true hattr)
    have hej := (h.folder_iff hx.live (mem_slots.1 hj)).1 (of_decide_eq_true hattr')
    exact hf.slot_eq hei.1 hei.2 hej.1 hej.2 (congrArg NodeDir.nama heq)
  · obtain ⟨i, -, -, rfl⟩ := mem_childrenAt.1 hzx
    obtain ⟨j, -, -, heq⟩ := mem_childrenAt.1 hzy
    refine Real.ext h.sound.toWellFormed hx hy ?_
    have hpath := List.append_inj_left' (congrArg NodeDir.clusterPath heq) rfl
    rw [NodeDir.cluster, NodeDir.cluster, hpath]
  · have hlen := (Real.of_mem_children h hx hroot).2
    have hpos := hx.pos
    have hone : NodeDir.root.nEff = 1 := rfl
    omega

/-- The children of a pass are nodes of the tree, one level down. -/
theorem expand_children {found : Option (NodeDir × DirectoryEntry)} {children : List NodeDir}
    (hx : Real s x) (hexp : expand stack n s pass x = some (found, children)) :
    ∀ y ∈ children, Real s y ∧ y.nEff = x.nEff + 1 := by
  rw [expand_real h hf hdeep hecho hx] at hexp
  obtain ⟨-, rfl⟩ := Prod.mk.inj (Option.some.inj hexp)
  exact fun y hy => Real.of_mem_children h hx hy

/-- A pass on the way to a bearer of the name finds one, or goes on to it. -/
theorem expand_leads {children : List NodeDir} (hb : Bears s z.cluster.toNat n k)
    (hx : Real s x ∧ Under s z x) (hexp : expand stack n s pass x = some (none, children)) :
    ∃ y ∈ children, Real s y ∧ Under s z y := by
  obtain ⟨hx, hu⟩ := hx
  rw [expand_real h hf hdeep hecho hx] at hexp
  obtain ⟨hhit, rfl⟩ := Prod.mk.inj (Option.some.inj hexp)
  cases hu with
  | self => exact absurd hb (hitAt_eq_none hhit)
  | up he h0 hu => exact ⟨_, (Real.mem_children h hx).2 ⟨_, he, h0, rfl⟩, .child hx he h0, hu⟩

/-- What is not found is not there. -/
theorem not_bears_of_search
    (hsearch : search 511 (expand stack n s) fuel pass [NodeDir.root] = some none)
    (hz : Real s z) : ¬Bears s z.cluster.toNat n k := fun hb =>
  search_ne_missing (P := fun x => Real s x ∧ Under s z x)
    (fun _ _ _ hx hexp => expand_leads h hf hdeep hecho hb hx hexp)
    ⟨_, List.mem_cons_self, .root, hz.under_root⟩ hsearch

/-- What is found is a bearer of the name, and no bearer has a node of a lesser depth. -/
theorem bears_of_search (hn : n ≠ 0) {r : NodeDir × DirectoryEntry}
    (hsearch : search 511 (expand stack n s) fuel pass [NodeDir.root] = some (some r)) :
    ∃ x k, Real s x ∧ Bears s x.cluster.toNat n k ∧ r = (x, s.table x.cluster.toNat k) ∧
      ∀ z k', Real s z → Bears s z.cluster.toNat n k' → x.nEff ≤ z.nEff := by
  obtain ⟨pass, x, children, hx, hexp⟩ := search_sound (I := Real s)
    (fun _ _ _ _ hx hexp y hy => (expand_children h hf hdeep hecho hx hexp y hy).1)
    (by simpa using Real.root) hsearch
  rw [expand_real h hf hdeep hecho hx] at hexp
  obtain ⟨k, hb, rfl⟩ := hitAt_eq_some h hx hn (congrArg Prod.fst (Option.some.inj hexp))
  refine ⟨x, k, hx, hb, rfl, fun z k' hz hb' => ?_⟩
  obtain ⟨pass', x', children', hx', hexp', hle⟩ := search_first NodeDir.nEff
    (I := Real s) (P := fun x => Real s x ∧ Under s z x)
    (fun _ _ _ _ hx hexp => expand_children h hf hdeep hecho hx hexp)
    (fun _ _ _ hx hexp => expand_leads h hf hdeep hecho hb' hx hexp)
    (fun x hx => hx.2.nEff_le) (by simpa using Real.root)
    ⟨_, List.mem_cons_self, .root, hz.under_root⟩ (List.pairwise_singleton _ _) hsearch
  rw [expand_real h hf hdeep hecho hx'] at hexp'
  obtain ⟨k'', -, hr⟩ := hitAt_eq_some h hx' hn (congrArg Prod.fst (Option.some.inj hexp'))
  obtain rfl : x = x' := congrArg Prod.fst hr
  exact hle

/-- **There `find` is exact.** -/
theorem findExact_of_tree (hname : Target name) : FindExact stack name s := by
  by_cases hroot : nameOf name = rootName
  · exact findExact_root hname hroot
  obtain ⟨o, hsearch⟩ := search_ends_real h hf hdeep hecho stack (nameOf name)
  obtain ⟨failed, hloop⟩ := findLoop_of_search FindQueue.start_waits hsearch
  have hrun : findOf 512 stack name s = _ := findOf_eq hname hroot
  rw [hloop] at hrun
  cases o with
  | none =>
      refine ⟨512, failed, .missing, hrun, fun p hp => ?_⟩
      obtain ⟨z, k, hz, hb, -⟩ := hp.exists_bears hroot
      exact not_bears_of_search h hf hdeep hecho hsearch hz hb
  | some r =>
      obtain ⟨x, k, hx, hb, rfl, hfirst⟩ :=
        bears_of_search h hf hdeep hecho hname.nameOf_ne_zero hsearch
      refine ⟨512, failed, .found x.namaPath (s.table x.cluster.toNat k).name, hrun, ?_,
        fun p' hp' => ?_⟩
      · rw [hb.name]
        exact .entry hx.pathTo hb
      · obtain ⟨z, k', hz, hb', hlen⟩ := hp'.exists_bears hroot
        have hle := hfirst z k' hz hb'
        rw [List.length_append, hx.length_namaPath, List.length_singleton, hlen]
        omega

end

/-! ### Where it is not -/

/-- A name of two characters. -/
def twoLetters (i : Fin 40000) : List UInt8 :=
  [UInt8.ofNat (1 + i % 200), UInt8.ofNat (1 + i / 200)]

/-- The two letters of a number below 40000. -/
theorem twoLetters_toNat (i : Fin 40000) : (UInt8.ofNat (1 + i % 200)).toNat = 1 + i % 200 ∧
    (UInt8.ofNat (1 + i / 200)).toNat = 1 + i / 200 := by
  have hi := i.isLt
  exact ⟨UInt8.toNat_ofNat_of_lt' (show 1 + i.val % 200 < 256 by omega),
    UInt8.toNat_ofNat_of_lt' (show 1 + i.val / 200 < 256 by omega)⟩

/-- The names of two letters can be searched for. -/
theorem twoLetters_target (i : Fin 40000) : Target (twoLetters i) where
  ne_nil := List.cons_ne_nil _ _
  short := by simp [twoLetters]
  no_zero := by
    obtain ⟨h₁, h₂⟩ := twoLetters_toNat i
    have hzero : (0 : UInt8).toNat = 0 := rfl
    intro hmem
    rcases List.mem_cons.1 hmem with heq | hmem
    · rw [← heq, hzero] at h₁
      omega
    · rw [← List.mem_singleton.1 hmem, hzero] at h₂
      omega

/-- Different numbers have different names. -/
theorem nameOf_twoLetters_injective {i j : Fin 40000}
    (h : nameOf (twoLetters i) = nameOf (twoLetters j)) : i = j := by
  obtain ⟨hi₁, hi₂⟩ := twoLetters_toNat i
  obtain ⟨hj₁, hj₂⟩ := twoLetters_toNat j
  have h₁ : UInt8.ofNat (1 + i % 200) = UInt8.ofNat (1 + j % 200) := congrFun h 0
  have h₂ : UInt8.ofNat (1 + i / 200) = UInt8.ofNat (1 + j / 200) := congrFun h 1
  rw [h₁] at hi₁
  rw [h₂] at hi₂
  exact Fin.ext (by omega)

/-- There are more such names than slots, so one of them is not on the volume. -/
theorem exists_absent (h : WellFormed s) :
    ∃ i, ∀ d k, ¬Bears s d (nameOf (twoLetters i)) k := by
  by_contra hall
  have hslot : ∀ i, ∃ q : Fin 512 × Fin 64, Bears s q.1 (nameOf (twoLetters i)) q.2 := by
    intro i
    obtain ⟨d, k, hb⟩ : ∃ d k, Bears s d (nameOf (twoLetters i)) k := by
      by_contra hnone
      exact hall ⟨i, fun d k hb => hnone ⟨d, k, hb⟩⟩
    exact ⟨(⟨d, (h.live_range hb.entry.dir).2⟩, k), hb⟩
  choose f hf using hslot
  have hinj : Function.Injective f := by
    intro i j hij
    refine nameOf_twoLetters_injective ?_
    rw [← (hf i).name, ← (hf j).name, hij]
  have hle := Fintype.card_le_of_injective f hinj
  rw [Fintype.card_prod, Fintype.card_fin, Fintype.card_fin, Fintype.card_fin] at hle
  omega

/-- Where `find` is exact, the search for such a name ends without a result. -/
theorem FindExact.search (hname : Target name) (hroot : nameOf name ≠ rootName)
    (habsent : ∀ d k, ¬Bears s d (nameOf name) k) (h : FindExact stack name s) :
    ∃ fuel, search 511 (expand stack (nameOf name) s) fuel 0 [NodeDir.root] = some none := by
  obtain ⟨fuel, failed, answer, hrun, hanswer⟩ := h
  rw [findOf_eq hname hroot] at hrun
  obtain ⟨⟨m, found⟩, hloop, heq⟩ := Option.map_eq_some_iff.1 hrun
  obtain ⟨-, rfl⟩ := Prod.mk.inj heq
  cases found with
  | none => exact ⟨fuel, search_of_missing FindQueue.start_waits hloop⟩
  | some r =>
      obtain ⟨z, k, -, hb, -⟩ := PathOf.exists_bears hanswer.1 hroot
      exact absurd hb (habsent _ _)

/-- A search that is bound to come to a node does not end without a result, if from there
on it always goes on. -/
theorem search_trap (h : Orderly s) {Q : NodeDir → Prop} (hz : Real s z)
    (hright : ∀ y, Real s y → Under s z y → y ≠ z →
      readTable s y.parent y.nama = some (s.table y.cluster.toNat))
    (hroot : NodeDir.root = z → Q z)
    (hpush : ∀ pass y children, expand stack n s pass y = some (none, children) →
      z ∈ children → Q z)
    (hQ : ∀ pass y children, Q y → expand stack n s pass y = some (none, children) →
      ∃ w ∈ children, Q w) :
    search 511 (expand stack n s) fuel pass [NodeDir.root] ≠ some none := by
  refine search_ne_missing (P := fun y => (Real s y ∧ Under s z y ∧ y ≠ z) ∨ Q y) ?_
    ⟨_, List.mem_cons_self, ?_⟩
  · rintro pass y children (⟨hy, hu, hne⟩ | hq) hexp
    · have hread := hright y hy hu hne
      cases hu with
      | self => exact absurd rfl hne
      | @up _ k he h0 hu =>
          have hmem : y.child (s.table y.cluster.toNat k) ∈ children := by
            have hexp' := hexp
            rw [expand_eq hread] at hexp'
            obtain ⟨-, heq⟩ := Option.ite_none_left_eq_some.1 hexp'
            obtain ⟨-, rfl⟩ := Prod.mk.inj (Option.some.inj heq)
            exact (Real.mem_children h hy).2 ⟨k, he, h0, rfl⟩
          refine ⟨_, hmem, ?_⟩
          by_cases hlast : y.child (s.table y.cluster.toNat k) = z
          · exact Or.inr (hlast ▸ hpush pass y children hexp (hlast ▸ hmem))
          · exact Or.inl ⟨.child hy he h0, hu, hlast⟩
    · obtain ⟨w, hw, hqw⟩ := hQ pass y children hq hexp
      exact ⟨w, hw, Or.inr hqw⟩
  · by_cases hlast : NodeDir.root = z
    · exact Or.inr (hlast ▸ hroot hlast)
    · exact Or.inl ⟨.root, hz.under_root, hlast⟩

/-- Below the arrays of `NodeDir`. -/
theorem search_deep (h : Orderly s) (hf : FoldersFirst s) (hecho : ∀ d k, ¬Echo s d k)
    (hz : Real s z) (hlen : 11 ≤ z.nEff) :
    search 511 (expand stack n s) fuel pass [NodeDir.root] ≠ some none := by
  refine search_trap h (Q := fun _ => False) hz (fun y hy _ _ => hy.readTable h.sound hf hecho)
    ?_ ?_ fun _ _ _ hq => hq.elim
  · rintro rfl
    exact absurd hlen (by decide)
  · intro pass y children hexp hmem
    -- the node above fills its arrays, so it has no room for a child
    rw [expand] at hexp
    obtain ⟨hfit, heq⟩ := Option.ite_none_left_eq_some.1 hexp
    obtain ⟨-, rfl⟩ := Prod.mk.inj (Option.some.inj heq)
    obtain ⟨i, -, -, rfl⟩ := mem_childrenAt.1 hmem
    rw [nEff_child] at hlen
    exact hfit ⟨by omega, List.ne_nil_of_mem hmem⟩

/-- Under the name of such a folder a folder of that name is found, in the directory that
holds it as well as in the folder itself. -/
theorem Echo.lookup (h : Sound s) (hecho : Echo s d k) {parent : UInt32}
    (hp : parent.toNat = d ∨ parent.toNat = (s.table d k).cluster) :
    ∃ d' k', readTable s parent (s.table d k).name = some (s.table d') ∧ LiveEntry s d' k' ∧
      (s.table d' k').filesize = 0 ∧ (s.table d' k').name = (s.table d k).name ∧
      ((s.table d' k').cluster = d ∨ (s.table d' k').cluster = (s.table d k).cluster) := by
  have hback := h.atChild d k hecho.entry hecho.filesize
  rcases hp with hp | hp
  · have hread := readTable_self h (hp ▸ hecho.entry.dir)
    rw [hp, ← hecho.name] at hread
    rcases hecho.entry.dir.cases with hroot | ⟨d', k', he, h0, hcl⟩
    · rw [hroot, h.atRoot.2, ← hroot] at hread
      exact ⟨d, k, hread, hecho.entry, hecho.filesize, rfl, Or.inr rfl⟩
    · have hup := h.atChild d' k' he h0
      rw [hcl] at hup
      rw [hup.2] at hread
      exact ⟨d', k', hread, he, h0, hup.1.symm.trans hecho.name.symm, Or.inl hcl⟩
  · have hread := readTable_self h (hp ▸ hecho.entry.child hecho.filesize)
    rw [hp, hback.1, hback.2] at hread
    exact ⟨d, k, hread, hecho.entry, hecho.filesize, rfl, Or.inr rfl⟩

/-- **From such a folder the search always goes on.** -/
theorem search_echo (h : Orderly s) (hf : FoldersFirst s) (hecho : Echo s d k) :
    search 511 (expand stack n s) fuel pass [NodeDir.root] ≠ some none := by
  -- the first one on its path: every directory above it is found again
  obtain ⟨m, hd⟩ := hecho.entry.dir
  induction m using Nat.strongRecOn generalizing d k with
  | ind m ih =>
      by_cases hfirst : ∃ m' d' k', m' < m ∧ LiveAt s m' d' ∧ Echo s d' k'
      · obtain ⟨m', d', k', hlt, hd', hecho'⟩ := hfirst
        exact ih m' hlt hecho' hd'
      obtain ⟨x, hx, rfl, hlen⟩ := exists_real hd
      let Q : NodeDir → Prop := fun w => 0 < w.nEff ∧ w.nama = (s.table x.cluster.toNat k).name ∧
        (w.parent.toNat = x.cluster.toNat ∨
          w.parent.toNat = (s.table x.cluster.toNat k).cluster) ∧
        (w.cluster.toNat = x.cluster.toNat ∨
          w.cluster.toNat = (s.table x.cluster.toNat k).cluster)
      have hQz : Q (x.child (s.table x.cluster.toNat k)) := by
        refine ⟨by rw [nEff_child]; omega, rfl, Or.inl ?_, Or.inr (x.cluster_child _)⟩
        rw [parent_child hx.pos]
      refine search_trap h (Q := Q) (hx.child hecho.entry hecho.filesize) (fun y hy hu hne => ?_)
        (fun _ => hQz) (fun _ _ _ _ _ => hQz) fun pass w children hw hexp => ?_
      · refine hy.readTable_of h.sound hf fun m' d' k' hd' hm' hecho' => ?_
        have hlt := hu.nEff_lt hne
        rw [nEff_child] at hlt
        exact hfirst ⟨m', d', k', by omega, hd', hecho'⟩
      · obtain ⟨hpos, hnama, hparent, hcluster⟩ := hw
        obtain ⟨d', k', hread, he, h0, hname, hcl⟩ := hecho.lookup h.sound hparent
        rw [← hnama] at hread
        rw [expand_eq hread] at hexp
        obtain ⟨-, heq⟩ := Option.ite_none_left_eq_some.1 hexp
        obtain ⟨-, rfl⟩ := Prod.mk.inj (Option.some.inj heq)
        refine ⟨w.child (s.table d' k'), mem_childrenAt.2 ⟨k', mem_slots.2 he.slot,
          (h.folder_iff he.dir he.slot).2 ⟨he, h0⟩, rfl⟩, ?_, hname, ?_, ?_⟩
        · rw [nEff_child]
          omega
        · rwa [parent_child hpos]
        · rwa [cluster_child]

/-! ### When it is exact -/

/-- **When `find` is exact in an orderly volume** whose folders are the first of their
names. -/
theorem Orderly.exact_iff (h : Orderly s) (hf : FoldersFirst s) :
    (∀ name, Target name → FindExact stack name s) ↔
      (∀ m d, LiveAt s m d → m ≤ 9) ∧ ∀ d k, ¬Echo s d k := by
  constructor
  · intro hall
    obtain ⟨i, habsent⟩ := exists_absent h.sound.toWellFormed
    have hroot : nameOf (twoLetters i) ≠ rootName := by
      intro heq
      have hthird : (0 : UInt8) = 0x6F := congrFun heq 2
      exact absurd hthird (by decide)
    obtain ⟨fuel, hsearch⟩ := (hall _ (twoLetters_target i)).search (twoLetters_target i) hroot
      habsent
    have hecho : ∀ d k, ¬Echo s d k := fun d k he => search_echo h hf he hsearch
    refine ⟨fun m d hd => ?_, hecho⟩
    by_contra hlt
    obtain ⟨z, hz, -, hlen⟩ := exists_real hd
    exact search_deep h hf hecho hz (by omega) hsearch
  · rintro ⟨hdeep, hecho⟩ name hname
    exact findExact_of_tree h hf hdeep hecho hname

/-- A first write to the root of a blank volume, as a run. -/
theorem run_createFat32_write {r : Request} (hp : r.parent = 2) (hsize : r.clusters ≤ 509) :
    ∃ os F s, Runs.Guarded (Fat32.exec 512) Safe [.write blankStack r] (createFat32 blank) ∧
      Runs.run (Fat32.exec 512) [.write blankStack r] (createFat32 blank) = some (os, s) ∧
      FoldersFirst s ∧
      Made r (newEntry blankStack r 3) (3 :: F) (createFat32 blank) s ∧ LiveEntry s 2 1 ∧
      s.table 2 1 = newEntry blankStack r 3 := by
  obtain ⟨o, F, s, hw, -, hm, he, hslot⟩ :=
    createFat32_write (r := r) blankStack blank_zeroed hp hsize (by decide : 2 ≤ 512)
  have hroot : LiveDir (createFat32 blank) r.parent := hp ▸ .root
  have hsafe : Safe (createFat32 blank) (.write blankStack r) :=
    ⟨hroot, Or.inl (createFat32_fits blank_zeroed hsize)⟩
  -- the only entry of the volume is in slot 1
  have hfirst : FoldersFirst s := by
    intro d k hk _ j hj0 hjk
    obtain ⟨hold, -⟩ | ⟨-, hfree, -⟩ := hm.entry_inv (createFat32_sound blank).toWellFormed hk
    · exact absurd hold createFat32_no_entry
    · rw [hp, createFat32_freeSlot] at hfree
      obtain rfl := Option.some.inj hfree
      omega
  rw [hp] at he hslot
  exact ⟨[o], F, s, ⟨hsafe, fun _ _ _ => trivial⟩, Runs.run_cons_eq hw rfl, hfirst, hm, he, hslot⟩

/-- **When `find` is exact.**  After every safe run on a new volume, and if no folder stands
behind another slot of its name: if no directory lies more than nine levels below the root,
and no folder has the name of the directory that holds it. -/
theorem find_exact_iff {s₀ : State} {ops : List Op} {os : List Reply} (hfuel : 512 ≤ fuel)
    (hg : Runs.Guarded (Fat32.exec fuel) Safe ops (createFat32 s₀))
    (hr : Runs.run (Fat32.exec fuel) ops (createFat32 s₀) = some (os, s)) (hf : FoldersFirst s) :
    (∀ name, Target name → FindExact stack name s) ↔
      (∀ m d, LiveAt s m d → m ≤ 9) ∧ ∀ d k, ¬Echo s d k :=
  (run_orderly hfuel (createFat32_orderly s₀) hg hr).exact_iff hf

/-- The condition after `mkdir a` in the root of a blank volume. -/
theorem find_exact_iff_sample : ∃ os s,
    Runs.run (Fat32.exec 512) [.write blankStack (request 2 0x61 0 0)] (createFat32 blank) =
      some (os, s) ∧
    ((∀ name, Target name → FindExact (fun _ => ⟨s.table 0, 0⟩) name s) ↔
      (∀ m d, LiveAt s m d → m ≤ 9) ∧ ∀ d k, ¬Echo s d k) := by
  obtain ⟨os, F, s, hg, hr, hf, -, -, -⟩ :=
    run_createFat32_write (r := request 2 0x61 0 0) rfl (by decide)
  exact ⟨os, s, hr, find_exact_iff le_rfl hg hr hf⟩

/-- After `mkdir root` in the root of a blank volume `find b` is not exact. -/
theorem find_echo_sample : ∃ os s,
    Runs.Guarded (Fat32.exec 512) Safe
      [.write blankStack { request 2 0x61 0 0 with name := rootName }] (createFat32 blank) ∧
    Runs.run (Fat32.exec 512)
      [.write blankStack { request 2 0x61 0 0 with name := rootName }] (createFat32 blank) =
        some (os, s) ∧
    FoldersFirst s ∧ Target [0x62] ∧ ∀ stack, ¬FindExact stack [0x62] s := by
  let r : Request := { request 2 0x61 0 0 with name := rootName }
  obtain ⟨os, F, s, hg, hr, hf, hm, he, hslot⟩ :=
    run_createFat32_write (r := r) rfl (by decide)
  have hord : Orderly s := run_orderly le_rfl (createFat32_orderly blank) hg hr
  have hname : (s.table 2 1).name = rootName := by rw [hslot, newEntry_name]
  have hecho : Echo s 2 1 := by
    refine ⟨he, ?_, hname.trans hord.sound.atRoot.1.symm⟩
    rw [hslot, newEntry_filesize]
    rfl
  have htarget : Target [0x62] := ⟨by decide, by decide, by decide⟩
  have habsent : ∀ d k, ¬Bears s d (nameOf [0x62]) k := by
    intro d k hb
    obtain ⟨hold, -⟩ | ⟨-, -, hnew⟩ :=
      hm.entry_inv (createFat32_sound blank).toWellFormed hb.entry
    · exact createFat32_no_entry hold
    · have heq := hb.name
      rw [hnew, newEntry_name] at heq
      exact absurd heq (by decide : rootName ≠ nameOf [0x62])
  refine ⟨os, s, hg, hr, hf, htarget, fun stack hexact => ?_⟩
  obtain ⟨fuel, hsearch⟩ := hexact.search htarget (by decide) habsent
  exact search_echo hord hf hecho hsearch

end Shell
end Jatos
