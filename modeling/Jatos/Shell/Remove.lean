/-
# Which directory `rm` removes from

`rm` of `src/user-shell.c`.  It looks the name up in the table of the current directory,
but its delete request carries `CURRENT_DIR_PARENT_CLUSTER_NUMBER`, the cluster of the
directory above (`rmRequest`).  So it does what it should only where the two are one
cluster, which on a real path is the root alone (`Located.sameCluster_iff`).  Elsewhere
the file stays, and a file or folder of that name in the directory above goes
(`rm_exact_iff`).
-/

import Jatos.Fat32.Deletion
import Jatos.Shell.Orderly

namespace Jatos
namespace Shell

open Fat32 Packed

/-- `"txt"`. -/
def txt : Bytes 3 := ![0x74, 0x78, 0x74]

/-- `request_delete`, or what `rm` prints instead. -/
def rmRequest (filename : Bytes 8) (s : State) (m : Session) : Except String Request :=
  match readTable s m.currentDirParentClusterNumber (m.dirPath m.depth) with
  | none => .error "dir table corrupt"
  | some dirTable =>
      match findSlot dirTable filename with
      | none => .error "file tidak tersedia\n"
      | some i =>
          if (dirTable i).cluster = 0 then .error "file tidak tersedia\n"
          else .ok ⟨fun _ => 0, filename, txt, m.currentDirParentClusterNumber, 0⟩

/-- `rm`, with what it prints.  The request has an extension, so nothing is peeked at. -/
def rm (fuel : ℕ) (filename : Bytes 8) (s : State) (m : Session) : Option (String × State) :=
  match rmRequest filename s m with
  | .error text => some (text, s)
  | .ok requestDelete =>
      (delete fuel (fun _ => none) requestDelete s).map fun (retcode, s) =>
        (if retcode = 0 then "" else "bukan file\n", s)

/-- `executeCommand` where `command` begins with `rm `. -/
def executeRm (fuel : ℕ) (command : List UInt8) (s : State) (m : Session) :
    Option (String × State) :=
  if command.length > 11 then some ("nama file terlalu panjang\n", s)
  else rm fuel (nameOf (command.drop 3)) s m

/-- The command `rm f`. -/
def rmOf (fuel : ℕ) (f : List UInt8) (s : State) (m : Session) : Option (String × State) :=
  executeRm fuel ([0x72, 0x6D, 0x20] ++ f) s m

/-! ### What it should do -/

/-- Slot `k` was given up and no other slot of its table changed. -/
structure Gone (s s' : State) (d : ℕ) (k : Fin 64) : Prop extends GivenUp s s' d k where
  table : ∀ j ≠ k, s'.table d j = s.table d j

/-- A file of the current directory goes; where there is nothing of that name, or a folder
that is not empty, nothing changes. -/
structure RmExact (fuel : ℕ) (f : List UInt8) (s : State) (m : Session) : Prop where
  file : ∀ k, Bears s m.currentDirClusterNumber.toNat (nameOf f) k →
    (s.table m.currentDirClusterNumber.toNat k).filesize ≠ 0 →
    ∃ text s', rmOf fuel f s m = some (text, s') ∧ Gone s s' m.currentDirClusterNumber.toNat k
  other : (∀ k, ¬Bears s m.currentDirClusterNumber.toNat (nameOf f) k) ∨
      (∃ k, Bears s m.currentDirClusterNumber.toNat (nameOf f) k ∧
        Occupied s m.currentDirClusterNumber.toNat k) →
    ∃ text s', rmOf fuel f s m = some (text, s') ∧ Kept s s'

/-- The table that `rm` reads lists the name, with a cluster. -/
def Lists (s : State) (m : Session) (n : Bytes 8) : Prop :=
  ∃ dirTable i, readTable s m.currentDirParentClusterNumber (m.dirPath m.depth) = some dirTable ∧
    findSlot dirTable n = some i ∧ (dirTable i).cluster ≠ 0

variable {s s' : State} {m : Session} {f : List UInt8} {n : Bytes 8} {k : Fin 64} {fuel : ℕ}

/-! ### What it does -/

/-- The delete request of `rm`. -/
def deleteRequest (n : Bytes 8) (m : Session) : Request :=
  ⟨fun _ => 0, n, txt, m.currentDirParentClusterNumber, 0⟩

/-- `rm` asks for the deletion of a name that the folder lists. -/
theorem rmRequest_of_lists (h : Lists s m n) : rmRequest n s m = .ok (deleteRequest n m) := by
  obtain ⟨dirTable, i, hread, hfind, hcl⟩ := h
  simp only [rmRequest, hread, hfind, if_neg hcl]
  rfl

/-- `rm` says what is wrong with a name that the folder does not list. -/
theorem rmRequest_of_not_lists (h : ¬Lists s m n) : ∃ text, rmRequest n s m = .error text := by
  rw [rmRequest]
  cases hread : readTable s m.currentDirParentClusterNumber (m.dirPath m.depth) with
  | none => exact ⟨_, rfl⟩
  | some dirTable =>
      cases hfind : findSlot dirTable n with
      | none => simp [hfind]
      | some i =>
          have hcl : (dirTable i).cluster = 0 := by
            by_contra hcl
            exact h ⟨dirTable, i, hread, hfind, hcl⟩
          simp [hfind, hcl]

/-- A short argument of `rm` is taken as it is. -/
theorem rmOf_eq (hf : f.length ≤ 8) : rmOf fuel f s m = rm fuel (nameOf f) s m := by
  rw [rmOf, executeRm, if_neg (by simp; omega)]
  rfl

/-- Without a delete nothing changes. -/
theorem rm_of_not_lists (fuel : ℕ) (h : ¬Lists s m n) : ∃ text, rm fuel n s m = some (text, s) := by
  obtain ⟨text, htext⟩ := rmRequest_of_not_lists h
  exact ⟨text, by rw [rm, htext]⟩

/-- What `rm` does with a name that the folder lists. -/
theorem rm_of_lists (h : Lists s m n) : rm fuel n s m =
    (delete fuel (fun _ => none) (deleteRequest n m) s).map fun (retcode, s) =>
      (if retcode = 0 then "" else "bukan file\n", s) := by
  rw [rm, rmRequest_of_lists h]

/-- **What a run of `rm` does**: nothing, or the delete of the first slot of that name in
the directory above. -/
theorem rm_returns {text : String} (h : rm fuel n s m = some (text, s')) :
    s' = s ∧ (n = 0 ∨ ¬Lists s m n ∨
        findSlot (s.table m.currentDirParentClusterNumber.toNat) n = none) ∨
      n ≠ 0 ∧ Lists s m n ∧
      ∃ (i : Fin 64) (s₁ : State),
        findSlot (s.table m.currentDirParentClusterNumber.toNat) n = some i ∧
        (∀ c, s₁.cluster c = s.cluster c ∨ s₁.cluster c = 0) ∧
        s' = s₁.writeFat.writeCluster m.currentDirParentClusterNumber.toNat (tableLayout
          (Function.update (s.table m.currentDirParentClusterNumber.toNat) i
            DirectoryEntry.zero)) := by
  by_cases hlist : Lists s m n
  · rw [rm_of_lists hlist, Option.map_eq_some_iff] at h
    obtain ⟨⟨c, s₁⟩, hd, hs⟩ := h
    obtain rfl : s₁ = s' := congrArg Prod.snd hs
    cases delete_returns hd with
    | unnamed hn => exact Or.inl ⟨rfl, Or.inl hn⟩
    | missing hn hi => exact Or.inl ⟨rfl, Or.inr (Or.inr hi)⟩
    | refused i hn hi hx => exact absurd hx (by decide : txt ≠ 0)
    | folder i hn hi hx => exact absurd hx (by decide : txt ≠ 0)
    | file i s₁ hn hi hx hchain =>
        exact Or.inr ⟨hn, hlist, i, s₁, hi, deleteChain_cluster hchain, rfl⟩
  · obtain ⟨text', htext⟩ := rm_of_not_lists fuel hlist
    obtain ⟨-, rfl⟩ := Prod.mk.inj (Option.some.inj (h.symm.trans htext))
    exact Or.inl ⟨rfl, Or.inr (Or.inl hlist)⟩

/-- `rm` changes nothing where one of its two lookups finds nothing. -/
theorem rm_unchanged (fuel : ℕ) (h : n = 0 ∨ ¬Lists s m n ∨
      findSlot (s.table m.currentDirParentClusterNumber.toNat) n = none) :
    ∃ text, rm fuel n s m = some (text, s) := by
  by_cases hlist : Lists s m n
  · rw [rm_of_lists hlist]
    by_cases hn : n = 0
    · rw [delete_empty_name (r := deleteRequest n m) hn]
      exact ⟨_, rfl⟩
    · have hi := (h.resolve_left hn).resolve_left (not_not.2 hlist)
      rw [delete_missing (r := deleteRequest n m) hn hi]
      exact ⟨_, rfl⟩
  · exact rm_of_not_lists fuel hlist

/-- Both numbers of a cluster are served alike. -/
theorem delete_alias {r : Request} {b : UInt32} (h : SameCluster r.parentClusterNumber b)
    (peek : ℕ → Option UInt8) : delete fuel peek r s =
      delete fuel peek { r with parentClusterNumber := b } s := by
  unfold delete
  simp only [Request.parent, h.table, h.writeCluster]

/-- Where it addresses the current directory and finds the file first, `rm` gives it up. -/
theorem rm_gone (h : WellFormed s) (hb : Bears s m.currentDirClusterNumber.toNat n k)
    (hsize : (s.table m.currentDirClusterNumber.toNat k).filesize ≠ 0) (hn : n ≠ 0)
    (hsame : SameCluster m.currentDirParentClusterNumber m.currentDirClusterNumber)
    (hlist : Lists s m n)
    (hfind : findSlot (s.table m.currentDirClusterNumber.toNat) n = some k) (hfuel : 512 ≤ fuel) :
    ∃ text s', rm fuel n s m = some (text, s') ∧
      Gone s s' m.currentDirClusterNumber.toNat k := by
  let r : Request := ⟨fun _ => 0, n, txt, m.currentDirClusterNumber, 0⟩
  obtain ⟨l, hl, -, -⟩ := h.chain _ _ hb.entry
  have hx : r.ext ≠ 0 := (by decide : txt ≠ 0)
  obtain ⟨s', hd, hr⟩ := delete_dropped (r := r) (fun _ => none) h hb.entry hn hx hfind hl
    hfuel
  have hfree : ¬Occupied s r.parent k := fun hocc => hsize hocc.1
  refine ⟨"", s', ?_, { hr.givenUp h hfree with table := fun j hj => ?_ }⟩
  · rw [rm_of_lists hlist, delete_alias hsame]
    exact congrArg (Option.map _) hd
  · exact congrFun hr.parent j |>.trans (Function.update_of_ne hj _ _)

/-- Conversely, it gives up nothing else of the current directory. -/
theorem found_of_gone {text : String} (h : WellFormed s)
    (hb : Bears s m.currentDirClusterNumber.toNat n k) (hrun : rm fuel n s m = some (text, s'))
    (hgone : Gone s s' m.currentDirClusterNumber.toNat k) :
    n ≠ 0 ∧ SameCluster m.currentDirParentClusterNumber m.currentDirClusterNumber ∧
      Lists s m n ∧ findSlot (s.table m.currentDirClusterNumber.toNat) n = some k := by
  have hrange := h.live_range hb.entry.dir
  have hunused : s'.table m.currentDirClusterNumber.toNat k ≠
      s.table m.currentDirClusterNumber.toNat k := fun heq =>
    hgone.unused (heq ▸ hb.entry.used)
  obtain ⟨rfl, -⟩ | ⟨hn, hlist, i, s₁, hi, hcl, rfl⟩ := rm_returns hrun
  · exact absurd rfl hunused
  by_cases hsame : SameCluster m.currentDirParentClusterNumber m.currentDirClusterNumber
  · -- the table that is stored is that of the current directory
    refine ⟨hn, hsame, hlist, ?_⟩
    rw [hsame.table] at hi
    have htab := State.table_of_cluster (State.cluster_writeCluster_self
      (s := s₁.writeFat) m.currentDirClusterNumber.toNat (tableLayout (Function.update
        (s.table m.currentDirParentClusterNumber.toNat) i DirectoryEntry.zero)))
    rw [hsame.writeCluster, htab, hsame.table] at hunused
    by_cases hki : k = i
    · rw [hki, hi]
    · exact absurd (Function.update_of_ne hki _ _) hunused
  · -- its table is left alone or becomes zero
    have hsub := (cluster_writeCluster_of_not_same hsame s₁.writeFat (tableLayout
      (Function.update (s.table m.currentDirParentClusterNumber.toNat) i
        DirectoryEntry.zero))).trans (State.cluster_writeFat (s := s₁) hrange.2 (by omega))
    rcases hcl m.currentDirClusterNumber.toNat with hold | hzero
    · exact absurd (congrFun (State.table_congr (hsub.trans hold)) k) hunused
    · have h0 := hgone.table 0 hb.entry.slot.symm
      have hu := (h.self _ hb.entry.dir).1
      rw [← h0] at hu
      exact absurd hu (State.not_used_of_zero (hsub.trans hzero) 0)

/-- **When `rm` is exact.**  Each file of that name in the current directory must be the
first slot of the name, in a directory that is its own parent, and listed by the table
that `rm` reads.  Where the current directory has nothing of the name, or a folder that
is not empty, that table must not list it or the directory above have no slot of it. -/
theorem rm_exact_iff (h : WellFormed s) (hf : f.length ≤ 8) (hfuel : 512 ≤ fuel) :
    RmExact fuel f s m ↔
      (∀ k, Bears s m.currentDirClusterNumber.toNat (nameOf f) k →
        (s.table m.currentDirClusterNumber.toNat k).filesize ≠ 0 →
        nameOf f ≠ 0 ∧
          SameCluster m.currentDirParentClusterNumber m.currentDirClusterNumber ∧
          Lists s m (nameOf f) ∧
          findSlot (s.table m.currentDirClusterNumber.toNat) (nameOf f) = some k) ∧
      ((∀ k, ¬Bears s m.currentDirClusterNumber.toNat (nameOf f) k) ∨
          (∃ k, Bears s m.currentDirClusterNumber.toNat (nameOf f) k ∧
            Occupied s m.currentDirClusterNumber.toNat k) →
        nameOf f = 0 ∨ ¬Lists s m (nameOf f) ∨
          findSlot (s.table m.currentDirParentClusterNumber.toNat) (nameOf f) = none) := by
  constructor
  · intro hexact
    refine ⟨fun k hb hsize => ?_, fun hcase => ?_⟩
    · obtain ⟨text, s', hrun, hgone⟩ := hexact.file k hb hsize
      rw [rmOf_eq hf] at hrun
      exact found_of_gone h hb hrun hgone
    · obtain ⟨text, s', hrun, hkept⟩ := hexact.other hcase
      rw [rmOf_eq hf] at hrun
      obtain ⟨-, hcond⟩ | ⟨hn, hlist, i, s₁, hi, -, rfl⟩ := rm_returns hrun
      · exact hcond
      · -- the slot that was found is zero now
        have htab := hkept.table m.currentDirParentClusterNumber.toNat
        rw [State.table_of_cluster (State.cluster_writeCluster_self _ _)] at htab
        have hzero := congrFun htab i
        rw [Function.update_self] at hzero
        exact absurd ((findSlot_eq_some_iff.1 hi).1.symm.trans (hzero ▸ rfl)) hn
  · rintro ⟨hfile, hother⟩
    refine ⟨fun k hb hsize => ?_, fun hcase => ?_⟩
    · obtain ⟨hn, hsame, hlist, hfind⟩ := hfile k hb hsize
      rw [rmOf_eq hf]
      exact rm_gone h hb hsize hn hsame hlist hfind hfuel
    · obtain ⟨text, htext⟩ := rm_unchanged fuel (hother hcase)
      exact ⟨text, s, (rmOf_eq hf).trans htext, .refl s⟩

/-- The condition at a file `b.x` in the folder `a`, after `cd a`. -/
theorem rm_exact_iff_sample : ∃ os s,
    Runs.run (Fat32.exec 512) (nestedOps 0x78 3) (createFat32 blank) = some (os, s) ∧
    Bears s 3 (nameOf [0x62]) 1 ∧ (s.table 3 1).filesize ≠ 0 ∧
    let m := cdTo [0x61] s Session.start
    m.currentDirClusterNumber = 3 ∧
    (RmExact 512 [0x62] s m ↔
      (∀ k, Bears s m.currentDirClusterNumber.toNat (nameOf [0x62]) k →
        (s.table m.currentDirClusterNumber.toNat k).filesize ≠ 0 →
        nameOf [0x62] ≠ 0 ∧
          SameCluster m.currentDirParentClusterNumber m.currentDirClusterNumber ∧
          Lists s m (nameOf [0x62]) ∧
          findSlot (s.table m.currentDirClusterNumber.toNat) (nameOf [0x62]) = some k) ∧
      ((∀ k, ¬Bears s m.currentDirClusterNumber.toNat (nameOf [0x62]) k) ∨
          (∃ k, Bears s m.currentDirClusterNumber.toNat (nameOf [0x62]) k ∧
            Occupied s m.currentDirClusterNumber.toNat k) →
        nameOf [0x62] = 0 ∨ ¬Lists s m (nameOf [0x62]) ∨
          findSlot (s.table m.currentDirParentClusterNumber.toNat) (nameOf [0x62]) = none)) := by
  obtain ⟨os, s, f, hrun, ho, ht, -, ha, hcl, hb, hslot, -⟩ := nested 0x78 3 (by decide)
  obtain ⟨-, -, hcur, -⟩ := nested_cd ht ho.marked ha hcl
  refine ⟨os, s, hrun, ⟨hb, ?_⟩, ?_, hcur,
    rm_exact_iff ht.sound.toWellFormed (by decide) le_rfl⟩
  · rw [hslot, newEntry_name]
    exact (by decide : (![0x62, 0, 0, 0, 0, 0, 0, 0] : Bytes 8) = nameOf [0x62])
  · rw [hslot, newEntry_filesize]
    exact (by decide : (3 : UInt32) ≠ 0)

/-- A file `b.x` in the folder `a`: after `cd a` the command `rm b` leaves it where it is. -/
theorem rm_elsewhere_sample : ∃ os s,
    Runs.run (Fat32.exec 512) (nestedOps 0x78 3) (createFat32 blank) = some (os, s) ∧
    Sound s ∧ Plain s ∧
    Bears s (cdTo [0x61] s Session.start).currentDirClusterNumber.toNat (nameOf [0x62]) 1 ∧
    (s.table (cdTo [0x61] s Session.start).currentDirClusterNumber.toNat 1).filesize ≠ 0 ∧
    ¬RmExact 512 [0x62] s (cdTo [0x61] s Session.start) := by
  obtain ⟨os, s, f, hwrites, ho, ht, hplain, ha, hcl, hb, hslot, -⟩ := nested 0x78 3 (by decide)
  obtain ⟨hloc, hdepth, hcur, hpar, -⟩ := nested_cd ht ho.marked ha hcl
  have hbears : Bears s (cdTo [0x61] s Session.start).currentDirClusterNumber.toNat
      (nameOf [0x62]) 1 := by
    rw [hcur]
    refine ⟨hb, ?_⟩
    rw [show (3 : UInt32).toNat = 3 from rfl, hslot, newEntry_name]
    exact (by decide : (![0x62, 0, 0, 0, 0, 0, 0, 0] : Bytes 8) = nameOf [0x62])
  have hsize : (s.table (cdTo [0x61] s Session.start).currentDirClusterNumber.toNat 1).filesize ≠
      0 := by
    rw [hcur, show (3 : UInt32).toNat = 3 from rfl, hslot, newEntry_filesize]
    exact (by decide : (3 : UInt32) ≠ 0)
  refine ⟨os, s, hwrites, ht.sound, hplain, hbears, hsize, fun hexact => ?_⟩
  obtain ⟨text, s', hrun, hgone⟩ := hexact.file 1 hbears hsize
  rw [rmOf_eq (by decide)] at hrun
  have hsame := (found_of_gone ht.sound.toWellFormed hbears hrun hgone).2.1
  exact absurd ((hloc.sameCluster_iff ht.sound.toWellFormed).1 hsame) (by omega)

end Shell
end Jatos
