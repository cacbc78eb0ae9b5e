/-
# Which directory `mv` renames in

`mv` reads the table of the current directory, puts the new name into it, and stores it
to `CURRENT_DIR_PARENT_CLUSTER_NUMBER`.  In the root that is the same cluster; below, the
table of the current directory replaces that of the directory above, and the current
directory stays as it is (`rename_exact_iff`).  The lookup also depends on the stack, by
`source` and by the upper bytes of `retcode`.
-/

import Jatos.Shell.Mv

namespace Jatos
namespace Shell

open Fat32 Packed

/-- Slot `k` of directory `d` has a new name, and nothing else of the disk or of the
table of clusters changed; under the new name a file reads as its bytes and a folder as
its table. -/
structure Renamed (s s' : State) (d : ℕ) (k : Fin 64) (n : Bytes 8) : Prop where
  table : s'.table d = Function.update (s.table d) k { s.table d k with name := n }
  others : ∀ c, c % 2 ^ 26 ≠ d % 2 ^ 26 → s'.cluster c = s.cluster c
  mem : s'.mem = s.mem
  file : ∀ B (r : Request) fuel, Holds s d k (.file B) → r.parent = d → r.name = n →
    B.length ≤ r.bufferSize.toNat → 512 ≤ fuel →
    ∃ buf, Fat32.read fuel r s' = some (⟨0, buf⟩, s') ∧ ∀ i (hi : i < B.length), buf i = B[i]
  folder : ∀ r : Request, (s.table d k).filesize = 0 → r.parent = d → r.name = n →
    r.bufferSize = 2048 → (readDirectory r s').code = 0 ∧
      (readDirectory r s').buf.getCluster 0 = s.cluster (s.table d k).cluster

/-- `mv src new` renames slot `k` of the current directory. -/
def RenameExact (stack : MoveStack) (src new : List UInt8) (s : State) (m : Session)
    (k : Fin 64) : Prop :=
  ∃ text s', mvOf stack src new s m = some (text, s') ∧
    Renamed s s' m.currentDirClusterNumber.toNat k (nameOf new)

variable {s s' : State} {m : Session} {stack : MoveStack} {src new : List UInt8} {n : Bytes 8}
  {d : ℕ} {i k : Fin 64}

/-! ### A new name in a table -/

/-- A fresh name is found where it was put. -/
theorem findSlot_renamed (hfresh : Unnamed s d n) :
    findSlot (Function.update (s.table d) k { s.table d k with name := n }) n = some k := by
  refine findSlot_eq_some_iff.2 ⟨by rw [Function.update_self], fun j hj => ?_⟩
  rw [Function.update_of_ne hj.ne]
  exact hfresh j

/-- The slot is all that matters: where it has the new name and everything else is as it
was, reads of the name return what they did. -/
theorem renamed_of_table (h : WellFormed s) (he : LiveEntry s d k) (hn : n ≠ 0)
    (hfresh : Unnamed s d n)
    (htable : s'.table d = Function.update (s.table d) k { s.table d k with name := n })
    (hothers : ∀ c, c % 2 ^ 26 ≠ d % 2 ^ 26 → s'.cluster c = s.cluster c)
    (hmem : s'.mem = s.mem) : Renamed s s' d k n := by
  have hslot : s'.table d k = { s.table d k with name := n } := by
    rw [htable, Function.update_self]
  have hfind : findSlot (s'.table d) n = some k := htable ▸ findSlot_renamed hfresh
  have hcl : (s'.table d k).cluster = (s.table d k).cluster := by
    rw [hslot]
    rfl
  have hsize : (s'.table d k).filesize = (s.table d k).filesize := by rw [hslot]
  have hd := h.live_range he.dir
  have hsame : ∀ l, EntryChain s d k l → ∀ c ∈ l, s'.cluster c = s.cluster c := by
    intro l hl c hc
    have hlt := h.chain_range he hl c hc
    have hne : c ≠ d := fun heq => h.parent_notMem he hl (heq ▸ hc)
    exact hothers c (by omega)
  refine ⟨htable, hothers, hmem, ?_, ?_⟩
  · rintro B r fuel ⟨hsize0, hlen, l, hl, hst⟩ rfl rfl hbuf hfuel
    have hclusters := h.chain_length he hl
    rw [DirectoryEntry.clusters, if_neg hsize0] at hclusters
    have hfit := h.chain_length_le he hl
    have hl' : FatChain s'.mem (s'.table r.parent k).cluster l := by
      rw [hcl, hmem]
      exact hl
    have hlong : l.length ≤ fuel := by omega
    obtain ⟨buf, hread, hcopy⟩ := read_file hn hfind (hsize ▸ hsize0) hl'
      (fun c hc => (h.chain_range he hl c hc).2) (hsize ▸ hclusters) (hsize ▸ hlen ▸ hbuf) hlong
    refine ⟨buf, hread, fun j hj => ?_⟩
    have hle := le_clusterNeed (s.table r.parent k).filesize.toNat
    rw [hcopy _ _ (hst.congr (hsame l hl)) (by omega) j hj]
    simp [List.getD_eq_getElem?_getD, hj]
  · rintro r hsize0 rfl rfl hbuf
    obtain ⟨hcode, hget⟩ := readDirectory_of_folder hbuf hfind (hsize.trans hsize0)
    refine ⟨hcode, ?_⟩
    rw [hget, hcl]
    exact hsame _ (h.folder_chain he hsize0).1 _ List.mem_cons_self

/-! ### What the branch stores -/

/-- The branch changes nothing, or stores the table that it found with the new name to the
directory above. -/
theorem mvRename_cases (stack : MoveStack) (n : Bytes 8) (dest : List UInt8) (s : State)
    (m : Session) : (mvRename stack n dest s m).2 = s ∨ ∃ t i, mvTable stack s m = some t ∧
      findSlot t n = some i ∧ (mvRename stack n dest s m).2 =
        s.writeCluster m.currentDirParentClusterNumber.toNat
          (tableLayout (Function.update t i { t i with name := nameOf dest })) := by
  rw [mvRename]
  split_ifs
  · exact Or.inl rfl
  · cases hsource : mvSource stack n s m with
    | error text => exact Or.inl rfl
    | ok found =>
        obtain ⟨t, i⟩ := found
        obtain ⟨htable, hfind⟩ := mvSource_ok_iff.1 hsource
        exact Or.inr ⟨t, i, htable, hfind, rfl⟩

/-- A run that renames was in the root, and found the source in its slot. -/
theorem found_of_renamed {dest : List UInt8} (h : Sound s) (hm : Located s m)
    (hfresh : Unnamed s m.currentDirClusterNumber.toNat (nameOf dest))
    (hr : Renamed s (mvRename stack n dest s m).2 m.currentDirClusterNumber.toNat k
      (nameOf dest)) :
    stack.retcode.toNat < 256 ∧ m.depth = 0 ∧
      findSlot (s.table m.currentDirClusterNumber.toNat) n = some k := by
  have hchanged : (mvRename stack n dest s m).2.table m.currentDirClusterNumber.toNat k ≠
      s.table m.currentDirClusterNumber.toNat k := by
    intro heq
    rw [hr.table, Function.update_self] at heq
    exact hfresh k (heq ▸ rfl)
  obtain hs | ⟨t, i, htable, hfind, hs⟩ := mvRename_cases stack n dest s m
  · rw [hs] at hchanged
    exact absurd rfl hchanged
  rw [hs] at hchanged
  have hsame : SameCluster m.currentDirParentClusterNumber m.currentDirClusterNumber := by
    by_contra hne
    exact hchanged (congrFun (State.table_congr (cluster_writeCluster_of_not_same hne s _)) k)
  have hdepth := (hm.sameCluster_iff h.toWellFormed).1 hsame
  rw [mvTable_root stack h hm hdepth] at htable
  by_cases hcode : stack.retcode.toNat < 256
  · rw [if_pos hcode] at htable
    obtain rfl := Option.some.inj htable
    refine ⟨hcode, hdepth, ?_⟩
    rw [hsame.writeCluster, State.table_of_cluster (State.cluster_writeCluster_self _ _)]
      at hchanged
    by_cases hik : k = i
    · rw [hfind, hik]
    · exact absurd (Function.update_of_ne hik _ _) hchanged
  · rw [if_neg hcode] at htable
    cases htable

/-- In the root the branch renames what it finds. -/
theorem renamed_of_found {dest : List UInt8} (h : Sound s) (hm : Located s m)
    (he : LiveEntry s m.currentDirClusterNumber.toNat k) (hn : nameOf dest ≠ 0)
    (hfresh : Unnamed s m.currentDirClusterNumber.toNat (nameOf dest)) (hlen : dest.length ≤ 8)
    (hcode : stack.retcode.toNat < 256) (hd : m.depth = 0)
    (hfind : findSlot (s.table m.currentDirClusterNumber.toNat) n = some k) :
    Renamed s (mvRename stack n dest s m).2 m.currentDirClusterNumber.toNat k (nameOf dest) := by
  have hsame := (hm.sameCluster_iff h.toWellFormed).2 hd
  have htable := mvTable_root stack h hm hd
  rw [if_pos hcode] at htable
  have hs : (mvRename stack n dest s m).2 = s.writeCluster m.currentDirClusterNumber.toNat
      (tableLayout (Function.update (s.table m.currentDirClusterNumber.toNat) k
        { s.table m.currentDirClusterNumber.toNat k with name := nameOf dest })) := by
    rw [mvRename, if_neg (Nat.not_lt.2 hlen), mvSource_ok_iff.2 ⟨htable, hfind⟩,
      ← hsame.writeCluster]
  rw [hs]
  refine renamed_of_table h.toWellFormed he hn hfresh
    (State.table_of_cluster (State.cluster_writeCluster_self _ _)) (fun c hc => ?_) rfl
  rw [State.cluster, State.writeCluster_disk, readClusters_writeClusters, if_neg hc]
  rfl

/-! ### When it is exact -/

/-- **When `mv` renames exactly**, given a live entry `src` of the current directory and a
name that no slot of it has: in the root, if the upper bytes of `retcode` are zero and the
name `src`, with what the stack holds behind it, is first found in the slot of the entry. -/
theorem rename_exact_iff (h : Sound s) (hm : Located s m) (hsrc : Word src) (hnew : Word new)
    (hpath : new.head? ≠ some 0x2F) (hb : Bears s m.currentDirClusterNumber.toNat (nameOf src) k)
    (hfresh : Unnamed s m.currentDirClusterNumber.toNat (nameOf new)) :
    RenameExact stack src new s m k ↔ stack.retcode.toNat < 256 ∧ m.depth = 0 ∧
      findSlot (s.table m.currentDirClusterNumber.toNat) (fillArray stack.source src) =
        some k := by
  have hrun := mvOf_eq stack s m hsrc hnew.no_space hnew.ne_nil
  rw [if_pos hpath] at hrun
  constructor
  · rintro ⟨text, s', hs, hr⟩
    rw [hrun] at hs
    obtain rfl : _ = s' := congrArg Prod.snd (Option.some.inj hs)
    exact found_of_renamed h hm hfresh hr
  · rintro ⟨hcode, hd, hfind⟩
    exact ⟨_, _, hrun, renamed_of_found h hm hb.entry hnew.nameOf_ne_zero hfresh hnew.short hcode
      hd hfind⟩

/-- The condition at a folder `a` of the root. -/
theorem rename_exact_iff_sample : ∃ os s,
    Runs.run (Fat32.exec 512) (nestedOps 0x78 3) (createFat32 blank) = some (os, s) ∧
    (RenameExact blankMoveStack [0x61] [0x63] s Session.start 1 ↔
      (0 : UInt32).toNat < 256 ∧ Session.start.depth = 0 ∧
      findSlot (s.table 2) (fillArray 0 [0x61]) = some 1) := by
  obtain ⟨os, s, f, hrun, -, ht, -, ha, -, -, -, hzero⟩ := nested 0x78 3 (by decide)
  have hname : nameOf [0x61] = ![0x61, 0, 0, 0, 0, 0, 0, 0] := by decide
  have hfresh : Unnamed s 2 (nameOf [0x63]) := by
    intro j
    by_cases h0 : j = 0
    · rw [h0, ht.sound.atRoot.1]
      decide
    by_cases h1 : j = 1
    · rw [h1, ha.name]
      decide
    · rw [hzero 2 j (Or.inl rfl) h0 h1]
      decide
  exact ⟨os, s, hrun, rename_exact_iff ht.sound (start_located s)
    ⟨by decide, by decide, by decide, by decide⟩ ⟨by decide, by decide, by decide, by decide⟩
    (by decide) ⟨ha.entry, ha.name.trans hname.symm⟩ hfresh⟩

/-- A file `b.x` in the folder `a`, and a stack of zeros: after `cd a` the command `mv b c`
does not rename it. -/
theorem rename_elsewhere_sample : ∃ os s,
    Runs.run (Fat32.exec 512) (nestedOps 0x78 3) (createFat32 blank) = some (os, s) ∧
    Sound s ∧ Plain s ∧
    Bears s (cdTo [0x61] s Session.start).currentDirClusterNumber.toNat (nameOf [0x62]) 1 ∧
    Unnamed s (cdTo [0x61] s Session.start).currentDirClusterNumber.toNat (nameOf [0x63]) ∧
    ¬RenameExact blankMoveStack [0x62] [0x63] s (cdTo [0x61] s Session.start) 1 := by
  obtain ⟨os, s, f, hrun, ho, ht, hplain, ha, hcl, hb, hslot, hzero⟩ := nested 0x78 3 (by decide)
  obtain ⟨hloc, hdepth, hcur, -, -⟩ := nested_cd ht ho.marked ha hcl
  have hname : nameOf [0x62] = ![0x62, 0, 0, 0, 0, 0, 0, 0] := by decide
  have hslot' : (s.table 3 1).name = ![0x62, 0, 0, 0, 0, 0, 0, 0] := by
    rw [hslot, newEntry_name]
    rfl
  have hself : (s.table 3 0).name = ![0x61, 0, 0, 0, 0, 0, 0, 0] := by
    have hat := (ht.sound.atChild _ _ ha.entry ha.filesize).1
    rwa [hcl, ha.name] at hat
  have hbears : Bears s (cdTo [0x61] s Session.start).currentDirClusterNumber.toNat
      (nameOf [0x62]) 1 := by
    rw [hcur]
    exact ⟨hb, hslot'.trans hname.symm⟩
  have hfresh : Unnamed s (cdTo [0x61] s Session.start).currentDirClusterNumber.toNat
      (nameOf [0x63]) := by
    rw [hcur]
    intro j
    by_cases h0 : j = 0
    · rw [h0, show (3 : UInt32).toNat = 3 from rfl, hself]
      decide
    by_cases h1 : j = 1
    · rw [h1, show (3 : UInt32).toNat = 3 from rfl, hslot']
      decide
    · rw [show (3 : UInt32).toNat = 3 from rfl, hzero 3 j (Or.inr rfl) h0 h1]
      decide
  refine ⟨os, s, hrun, ht.sound, hplain, hbears, hfresh, ?_⟩
  rintro ⟨text, s', hs, hr⟩
  rw [mvOf_eq _ _ _ ⟨by decide, by decide, by decide, by decide⟩ (by decide) (by decide),
    if_pos (by decide)] at hs
  obtain rfl : _ = s' := congrArg Prod.snd (Option.some.inj hs)
  have := (found_of_renamed ht.sound hloc hfresh hr).2.1
  omega

end Shell
end Jatos
