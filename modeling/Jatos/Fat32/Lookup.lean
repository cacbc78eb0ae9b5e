/-
# Which directory a name opens

`read_directory` takes the first slot that bears the name: slot 0 first, whose
name is the directory's own and whose cluster is the one above, and unused slots
as well, whose name is empty or that of a deleted folder.  A filesize of 0 passes
for a folder.  So the answer is the documented one exactly when that slot is a
used one behind slot 0, the root's own slot, or one that cannot be told from such
a slot by what its cluster holds (`lookup_iff`).
-/

import Jatos.Fat32.Reserved

namespace Jatos
namespace Fat32

variable {r : Request} {s s₀ : State} {ops : List Op} {os : List Reply} {fuel d : ℕ}
  {i k : Fin 64} {n : Packed.Bytes 8}

/-- Slot `k` is a folder of the directory, and bears the name. -/
structure Folder (s : State) (d : ℕ) (n : Packed.Bytes 8) (k : Fin 64) : Prop where
  entry : LiveEntry s d k
  filesize : (s.table d k).filesize = 0
  name : (s.table d k).name = n

/-- The name stands for the directory at cluster `c`: a folder of that name, or
the root under its own. -/
def Names (s : State) (d : ℕ) (n : Packed.Bytes 8) (c : ℕ) : Prop :=
  (∃ k, Folder s d n k ∧ (s.table d k).cluster = c) ∨
    d = ROOT_CLUSTER_NUMBER ∧ n = rootName ∧ c = ROOT_CLUSTER_NUMBER

/-- What a lookup should do: answer 0 exactly when the name stands for a
directory, and then return its table. -/
structure LooksUp (s : State) (r : Request) : Prop where
  code : (readDirectory r s).code = 0 ↔ ∃ c, Names s r.parent r.name c
  table : (readDirectory r s).code = 0 →
    ∃ c, Names s r.parent r.name c ∧ (readDirectory r s).buf.getCluster 0 = s.cluster c

/-- The first slot of the name, if any, is no folder and neither is another one
of that name; or it is the root's own slot; or it is a slot behind slot 0 which is
used, or whose cluster holds what that of a folder of the name does. -/
def Resolves (s : State) (d : ℕ) (n : Packed.Bytes 8) : Prop :=
  ∀ i, findSlot (s.table d) n = some i →
    (s.table d i).filesize ≠ 0 ∧ (∀ k, ¬Folder s d n k) ∨
      (s.table d i).filesize = 0 ∧ (i = 0 ∧ d = ROOT_CLUSTER_NUMBER ∨
        i ≠ 0 ∧ ((s.table d i).Used ∨ ∃ k, Folder s d n k ∧
          s.cluster (s.table d k).cluster = s.cluster (s.table d i).cluster))

/-! ### The answers of `read_directory` -/

/-- `read_directory` answers 2 for a name that no slot has. -/
theorem readDirectory_of_none (hsize : r.bufferSize = 2048)
    (hi : findSlot (s.table r.parent) r.name = none) : readDirectory r s = ⟨2, r.buf⟩ := by
  rw [readDirectory, hsize, if_neg (by decide)]
  simp only [hi]

/-- `read_directory` answers 1 for a file. -/
theorem readDirectory_of_file (hsize : r.bufferSize = 2048)
    (hi : findSlot (s.table r.parent) r.name = some i)
    (hfile : (s.table r.parent i).filesize ≠ 0) : readDirectory r s = ⟨1, r.buf⟩ := by
  rw [readDirectory, hsize, if_neg (by decide)]
  simp only [hi, if_pos hfile]

/-- `read_directory` stores the table of a folder and answers 0. -/
theorem readDirectory_of_folder (hsize : r.bufferSize = 2048)
    (hi : findSlot (s.table r.parent) r.name = some i)
    (hfile : (s.table r.parent i).filesize = 0) :
    (readDirectory r s).code = 0 ∧
      (readDirectory r s).buf.getCluster 0 = s.cluster (s.table r.parent i).cluster := by
  rw [readDirectory, hsize, if_neg (by decide)]
  simp only [hi, hfile, ne_eq, not_true_eq_false, if_false, true_and]
  funext j
  exact Buffer.putCluster_of_mem j.isLt

/-! ### Names -/

/-- The root's own name is found at slot 0. -/
theorem Sound.findSlot_root (h : Sound s) :
    findSlot (s.table ROOT_CLUSTER_NUMBER) rootName = some 0 :=
  findSlot_eq_some_iff.2 ⟨h.atRoot.1, fun _ hj => absurd hj (Nat.not_lt_zero _)⟩

/-- The table above a directory is not the table of a folder in it: the one says
that it lies two levels higher than the other. -/
theorem Sound.above_ne (h : Sound s) (hd : LiveDir s d) (hroot : d ≠ ROOT_CLUSTER_NUMBER)
    (hk : Folder s d n k) : s.cluster (s.table d 0).cluster ≠ s.cluster (s.table d k).cluster := by
  intro heq
  have hwf := h.toWellFormed
  have htab := State.table_congr heq
  -- slot 0 of the folder leads back to `d`, that of the table above does not
  have hback : (s.table (s.table d k).cluster 0).cluster = d :=
    (h.atChild d k hk.entry hk.filesize).2
  rw [← htab] at hback
  obtain hup | ⟨d', k', he, h0, hcl, hup⟩ := h.above hd
  · rw [hup, h.atRoot.2] at hback
    exact hroot hback.symm
  · rw [hup] at hback
    obtain hup' | ⟨d'', k'', he', h0', hcl', hup'⟩ := h.above he.dir
    · exact hroot (hback.symm.trans hup')
    · obtain rfl : d'' = d := hup'.symm.trans hback
      obtain ⟨m, hm⟩ := hd
      have h₁ : LiveAt s (m + 1) d' := hcl' ▸ .child hm he'.slot he'.used h0'
      have h₂ : LiveAt s (m + 2) d'' := hcl ▸ .child h₁ he.slot he.used h0
      have := LiveAt.unique hwf hm h₂
      omega

/-- The only entry of the root folder that has the root's name and cluster is its own. -/
theorem Sound.names_root (h : Sound s) {c : ℕ}
    (hi : findSlot (s.table ROOT_CLUSTER_NUMBER) n = some i) (hn : n = rootName)
    (hc : c = ROOT_CLUSTER_NUMBER) : i = 0 ∧ (s.table ROOT_CLUSTER_NUMBER i).cluster = c := by
  rw [hn, h.findSlot_root] at hi
  obtain rfl : 0 = i := Option.some.inj hi
  exact ⟨rfl, h.atRoot.2.trans hc.symm⟩

/-- A name that is not found stands for no directory. -/
theorem Sound.not_names (h : Sound s) (hi : findSlot (s.table d) n = none) (c : ℕ) :
    ¬Names s d n c := by
  rintro (⟨k, hk, -⟩ | ⟨rfl, rfl, -⟩)
  · exact findSlot_eq_none_iff.1 hi k hk.name
  · rw [h.findSlot_root] at hi
    cases hi

/-- A name whose first slot is a file stands for the folders of that name. -/
theorem Sound.names_file (h : Sound s) (hi : findSlot (s.table d) n = some i)
    (hfile : (s.table d i).filesize ≠ 0) : (¬∃ c, Names s d n c) ↔ ∀ k, ¬Folder s d n k := by
  constructor
  · exact fun hnone k hk => hnone ⟨_, Or.inl ⟨k, hk, rfl⟩⟩
  · rintro hnone ⟨c, ⟨k, hk, -⟩ | ⟨rfl, hn, hc⟩⟩
    · exact hnone k hk
    · obtain ⟨rfl, -⟩ := h.names_root hi hn hc
      exact hfile (h.self _ .root).2

/-- When the cluster of the first slot, which is no file, holds the table of a
directory that the name stands for. -/
theorem Sound.names_folder (h : Sound s) (hd : LiveDir s d)
    (hi : findSlot (s.table d) n = some i) (hfile : (s.table d i).filesize = 0) :
    (∃ c, Names s d n c ∧ s.cluster (s.table d i).cluster = s.cluster c) ↔
      i = 0 ∧ d = ROOT_CLUSTER_NUMBER ∨ i ≠ 0 ∧ ((s.table d i).Used ∨
        ∃ k, Folder s d n k ∧
          s.cluster (s.table d k).cluster = s.cluster (s.table d i).cluster) := by
  have hname := (findSlot_eq_some_iff.1 hi).1
  constructor
  · rintro ⟨c, ⟨k, hk, rfl⟩ | ⟨rfl, hn, hc⟩, heq⟩
    · by_cases hi0 : i = 0
      · subst hi0
        by_cases hroot : d = ROOT_CLUSTER_NUMBER
        · exact Or.inl ⟨rfl, hroot⟩
        · exact absurd heq (h.above_ne hd hroot hk)
      · exact Or.inr ⟨hi0, Or.inr ⟨k, hk, heq.symm⟩⟩
    · exact Or.inl ⟨(h.names_root hi hn hc).1, rfl⟩
  · rintro (⟨rfl, rfl⟩ | ⟨hi0, hu | ⟨k, hk, heq⟩⟩)
    · refine ⟨_, Or.inr ⟨rfl, hname.symm.trans h.atRoot.1, rfl⟩, ?_⟩
      rw [h.atRoot.2]
    · exact ⟨_, Or.inl ⟨i, ⟨⟨hd, hi0, hu⟩, hfile, hname⟩, rfl⟩, rfl⟩
    · exact ⟨_, Or.inl ⟨k, hk, rfl⟩, heq.symm⟩

/-- **When a lookup is sound and complete**, in every state that a safe run from a
fresh volume reaches. -/
theorem lookup_iff (hfuel : 512 ≤ fuel)
    (hg : Runs.Guarded (exec fuel) Safe ops (createFat32 s₀))
    (hr : Runs.run (exec fuel) ops (createFat32 s₀) = some (os, s))
    (hp : LiveDir s r.parent) (hsize : r.bufferSize = 2048) :
    LooksUp s r ↔ Resolves s r.parent r.name := by
  have h : Sound s := run_sound (fun _ _ _ hs => hs) hfuel (createFat32_sound s₀) hg hr
  cases hi : findSlot (s.table r.parent) r.name with
  | none =>
      have hans := readDirectory_of_none hsize hi
      have hnone : ¬∃ c, Names s r.parent r.name c := fun ⟨c, hc⟩ => h.not_names hi c hc
      refine iff_of_true ⟨?_, ?_⟩ fun i hi' => ?_
      · rw [hans]
        exact iff_of_false (by decide : (2 : ℤ) ≠ 0) hnone
      · rw [hans]
        exact fun hcode => absurd hcode (by decide : (2 : ℤ) ≠ 0)
      · rw [hi] at hi'
        cases hi'
  | some i =>
      have hres : Resolves s r.parent r.name ↔
          (s.table r.parent i).filesize ≠ 0 ∧ (∀ k, ¬Folder s r.parent r.name k) ∨
          (s.table r.parent i).filesize = 0 ∧ (i = 0 ∧ r.parent = ROOT_CLUSTER_NUMBER ∨
            i ≠ 0 ∧ ((s.table r.parent i).Used ∨ ∃ k, Folder s r.parent r.name k ∧
              s.cluster (s.table r.parent k).cluster =
                s.cluster (s.table r.parent i).cluster)) := by
        refine ⟨fun hall => hall i hi, fun hone i' hi' => ?_⟩
        obtain rfl : i = i' := Option.some.inj (hi.symm.trans hi')
        exact hone
      rw [hres]
      by_cases hfile : (s.table r.parent i).filesize = 0
      · obtain ⟨hcode, hbuf⟩ := readDirectory_of_folder hsize hi hfile
        rw [← h.names_folder hp hi hfile]
        simp only [hfile, ne_eq, not_true_eq_false, false_and, false_or, true_and]
        constructor
        · intro hl
          obtain ⟨c, hc, heq⟩ := hl.table hcode
          exact ⟨c, hc, hbuf.symm.trans heq⟩
        · rintro ⟨c, hc, heq⟩
          exact ⟨iff_of_true hcode ⟨c, hc⟩, fun _ => ⟨c, hc, hbuf.trans heq⟩⟩
      · have hans := readDirectory_of_file hsize hi hfile
        rw [← h.names_file hi hfile]
        simp only [hfile, ne_eq, not_false_eq_true, true_and, false_and, or_false]
        constructor
        · intro hl hc
          have hcode := hl.code.2 hc
          rw [hans] at hcode
          exact absurd hcode (by decide : (1 : ℤ) ≠ 0)
        · intro hnone
          refine ⟨?_, fun hcode => ?_⟩
          · rw [hans]
            exact iff_of_false (by decide : (1 : ℤ) ≠ 0) hnone
          · rw [hans] at hcode
            exact absurd hcode (by decide : (1 : ℤ) ≠ 0)

/-- The root of a blank volume after a folder was made in it. -/
theorem lookup_iff_sample : ∃ os s, Runs.run (exec 512)
      [.write blankStack (request 2 0x61 0 0)] (createFat32 blank) = some (os, s) ∧
    (LooksUp s (request 2 0x61 0 2048) ↔ Resolves s 2 (request 2 0x61 0 2048).name) := by
  obtain ⟨o, F, s, hw, -, -, -, -⟩ := createFat32_write
    (r := request 2 0x61 0 0) blankStack blank_zeroed rfl (by decide) (by decide : 2 ≤ 512)
  have hr : Runs.run (exec 512) [.write blankStack (request 2 0x61 0 0)] (createFat32 blank) =
      some ([o], s) := Runs.run_cons_eq hw rfl
  have hg : Runs.Guarded (exec 512) Safe [.write blankStack (request 2 0x61 0 0)]
      (createFat32 blank) :=
    ⟨⟨.root, Or.inl (createFat32_fits blank_zeroed (by decide))⟩, fun _ _ _ => trivial⟩
  exact ⟨_, s, hr, lookup_iff le_rfl hg hr .root rfl⟩

/-- In the root of a blank volume the empty name is found in a slot that was never
used: the answer is 0, and no folder has the name. -/
theorem not_looksUp_sample :
    (readDirectory (request 2 0 0 2048) (createFat32 blank)).code = 0 ∧
      ¬LooksUp (createFat32 blank) (request 2 0 0 2048) := by
  have hi : findSlot ((createFat32 blank).table 2) (request 2 0 0 2048).name = some 1 := by
    refine findSlot_eq_some_iff.2 ⟨?_, fun j hj => ?_⟩
    · rw [createFat32_slot (by decide)]
      exact (by decide : (0 : Packed.Bytes 8) = (request 2 0 0 2048).name)
    · obtain rfl : j = 0 := by omega
      rw [(createFat32_sound blank).atRoot.1]
      exact (by decide : rootName ≠ (request 2 0 0 2048).name)
  have hzero : ((createFat32 blank).table 2 1).filesize = 0 := by
    rw [createFat32_slot (by decide)]
    rfl
  obtain ⟨hcode, -⟩ := readDirectory_of_folder (r := request 2 0 0 2048) rfl hi hzero
  refine ⟨hcode, fun hl => ?_⟩
  obtain ⟨c, ⟨k, hk, -⟩ | ⟨-, hn, -⟩⟩ := hl.code.1 hcode
  · exact createFat32_no_entry hk.entry
  · exact absurd hn (by decide)

end Fat32
end Jatos
