/-
# The shell's directory variables

`CURRENT_DIR_CLUSTER_NUMBER`, `CURRENT_DIR_PARENT_CLUSTER_NUMBER`, `DEPTH`, `DIR_PATH` and
`DIR_CLUSTERS` of `src/user-shell.c`, and `cd`, which alone changes them.  `DIR_PATH` and
`DIR_CLUSTERS` hold the names and the clusters from the root down to the current directory,
which is `DEPTH` levels below it.  They are memory from an address on; what a store behind
their ten elements does is not modelled, nor is a component that is longer than the eight
bytes of `path`.

All commands find a directory by asking `read_directory` for its name in the directory
above (`readTable`).  `cd` then takes the first slot behind slot 0 that has the attribute
of a directory and the next component for its name (`findDirectory`).
-/

import Jatos.Fat32.Lookup

namespace Jatos
namespace Shell

open Fat32 Packed

/-- `CURRENT_DIR_CLUSTER_NUMBER`, `CURRENT_DIR_PARENT_CLUSTER_NUMBER`, `DEPTH`, `DIR_PATH`
and `DIR_CLUSTERS`. -/
structure Session where
  currentDirClusterNumber : UInt32
  currentDirParentClusterNumber : UInt32
  depth : ℕ
  dirPath : ℕ → Bytes 8
  dirClusters : ℕ → UInt32

/-- The variables when `main` has set them. -/
def Session.start : Session where
  currentDirClusterNumber := 2
  currentDirParentClusterNumber := 2
  depth := 0
  dirPath i := if i = 0 then rootName else 0
  dirClusters i := if i = 0 then 2 else 0xFFFFFFFF

/-! ### Looking a directory up -/

/-- The request for the table of a directory. -/
def tableRequest (parent : UInt32) (name : Bytes 8) : Request :=
  ⟨fun _ => 0, name, 0, parent, 2048⟩

/-- `dir_table`, if `read_directory` answers 0; then it has all its bytes from there. -/
def readTable (s : State) (parent : UInt32) (name : Bytes 8) : Option DirectoryTable :=
  if (readDirectory (tableRequest parent name) s).code = 0 then
    some (tableLayout.symm ((readDirectory (tableRequest parent name) s).buf.getCluster 0))
  else none

/-- `read_directory` as the shell uses it. -/
theorem readTable_eq (s : State) (parent : UInt32) (name : Bytes 8) :
    readTable s parent name =
      (findSlot (s.table parent.toNat) name).bind fun i =>
        if (s.table parent.toNat i).filesize = 0 then
          some (s.table (s.table parent.toNat i).cluster)
        else none := by
  let r := tableRequest parent name
  change (if (readDirectory r s).code = 0 then
    some (tableLayout.symm ((readDirectory r s).buf.getCluster 0)) else none) = _
  cases hi : findSlot (s.table parent.toNat) name with
  | none =>
      rw [readDirectory_of_none (r := r) rfl hi]
      rfl
  | some i =>
      by_cases h0 : (s.table parent.toNat i).filesize = 0
      · obtain ⟨hcode, hbuf⟩ := readDirectory_of_folder (r := r) rfl hi h0
        rw [if_pos hcode, hbuf, Option.bind_some, if_pos h0]
        rfl
      · rw [readDirectory_of_file (r := r) rfl hi h0, Option.bind_some, if_neg h0]
        rfl

/-- The bytes of a name before the first zero; `nameLength` is their number. -/
def spelled (name : Bytes 8) : List UInt8 := (List.ofFn name).takeWhile (· ≠ 0)

/-- The test that `cd` makes of a slot. -/
def Matches (e : DirectoryEntry) (path : List UInt8) : Prop :=
  e.name 0 ≠ 0 ∧ e.attr = ATR_DIRECTORY ∧ path.length = (spelled e.name).length ∧
    memcmp ((List.ofFn e.name).take path.length) path = 0

instance {e : DirectoryEntry} {path : List UInt8} : Decidable (Matches e path) :=
  inferInstanceAs (Decidable (_ ∧ _ ∧ _ ∧ _))

/-- A name is spelled as nothing if and only if it starts with a zero. -/
theorem spelled_eq_nil {name : Bytes 8} : spelled name = [] ↔ name 0 = 0 := by
  simp [spelled, List.ofFn_succ, List.takeWhile_cons]

/-- The test of `cd` compares the name up to its first zero. -/
theorem matches_iff {e : DirectoryEntry} {path : List UInt8} :
    Matches e path ↔ e.attr = ATR_DIRECTORY ∧ path ≠ [] ∧ spelled e.name = path := by
  have htake : (List.ofFn e.name).take (spelled e.name).length = spelled e.name :=
    List.prefix_iff_eq_take.1 (List.takeWhile_prefix _) |>.symm
  constructor
  · rintro ⟨h0, hattr, hlen, hcmp⟩
    rw [hlen, htake, memcmp_eq_zero hlen.symm] at hcmp
    exact ⟨hattr, fun hnil => h0 (spelled_eq_nil.1 (hcmp.trans hnil)), hcmp⟩
  · rintro ⟨hattr, hne, rfl⟩
    refine ⟨fun h0 => hne (spelled_eq_nil.2 h0), hattr, rfl, ?_⟩
    rw [htake, memcmp_eq_zero rfl]

/-- The slot at which the loop of `cd` stops. -/
def findDirectory (dirTable : DirectoryTable) (path : List UInt8) : Option (Fin 64) :=
  Fin.find? fun j => j ≠ 0 ∧ Matches (dirTable j) path

/-- `find_directory` is the first folder that is spelled so, outside slot 0. -/
theorem findDirectory_eq (dirTable : DirectoryTable) (path : List UInt8) :
    findDirectory dirTable path = Fin.find? fun j => j ≠ 0 ∧ (dirTable j).attr = ATR_DIRECTORY ∧
      path ≠ [] ∧ spelled (dirTable j).name = path := by
  rw [findDirectory]
  congr 1
  funext j
  exact decide_eq_decide.2 (and_congr_right fun _ => matches_iff)

/-- The 8-byte array that `executeCommand` and `memset` make of a typed name. -/
def nameOf (name : List UInt8) : Bytes 8 := fun i => name.getD i 0

/-- A name that is stored into an array which the stack leaves as it is. -/
def fillArray (stack : Bytes 8) (name : List UInt8) : Bytes 8 := fun i => name.getD i (stack i)

/-- The bytes of a command from index `i` on, up to a space. -/
def wordAt (command : List UInt8) (i : ℕ) : List UInt8 := (command.drop i).takeWhile (· ≠ 0x20)

/-- Bytes as they are printed. -/
def shownAs (l : List UInt8) : String := String.ofList (l.map fun c => Char.ofNat c.toNat)

/-- A name of 1 to 8 characters. -/
structure Word (name : List UInt8) : Prop where
  ne_nil : name ≠ []
  short : name.length ≤ 8
  no_space : 0x20 ∉ name
  no_zero : 0 ∉ name

/-- A stored word is no empty name. -/
theorem Word.fillArray_ne_zero {name : List UInt8} (h : Word name) (stack : Bytes 8) :
    fillArray stack name ≠ 0 := by
  intro heq
  obtain ⟨c, cs, rfl⟩ := List.exists_cons_of_ne_nil h.ne_nil
  have h0 : c = 0 := congrFun heq 0
  exact h.no_zero (h0 ▸ List.mem_cons_self)

/-- A word is not the empty name. -/
theorem Word.nameOf_ne_zero {name : List UInt8} (h : Word name) : nameOf name ≠ 0 :=
  h.fillArray_ne_zero 0

/-- A word between spaces is read as it is. -/
theorem wordAt_append {a w b : List UInt8} (hw : 0x20 ∉ w) (hb : b = [] ∨ b.head? = some 0x20) :
    wordAt (a ++ w ++ b) a.length = w := by
  rw [wordAt, List.append_assoc, List.drop_left, List.takeWhile_append_of_pos]
  · obtain rfl | hb := hb
    · rw [List.takeWhile_nil, List.append_nil]
    · obtain ⟨b, rfl⟩ := List.head?_eq_some_iff.1 hb
      rw [List.takeWhile_cons_of_neg (by simp), List.append_nil]
  · intro c hc
    exact decide_eq_true fun heq => hw (heq ▸ hc)

/-- The two words of a command whose name and space are three bytes. -/
theorem wordAt_command {c src dst : List UInt8} (hc : c.length = 3) (hsrc : 0x20 ∉ src)
    (hdst : 0x20 ∉ dst) : wordAt (c ++ src ++ [0x20] ++ dst) 3 = src ∧
      wordAt (c ++ src ++ [0x20] ++ dst) (4 + src.length) = dst := by
  constructor
  · rw [List.append_assoc, ← hc]
    exact wordAt_append hsrc (Or.inr rfl)
  · have hat := wordAt_append (a := c ++ src ++ [0x20]) (b := []) hdst (Or.inl rfl)
    have hlen : (c ++ src ++ [0x20]).length = 4 + src.length := by
      simp only [List.length_append, List.length_singleton, hc]
      omega
    rwa [List.append_nil, hlen] at hat

/-- Two numbers of one cluster of the disk. -/
def SameCluster (a b : UInt32) : Prop := a.toNat % 2 ^ 26 = b.toNat % 2 ^ 26

/-- Two numbers of one cluster read the same cluster. -/
theorem SameCluster.cluster {a b : UInt32} (h : SameCluster a b) (s : State) :
    s.cluster a.toNat = s.cluster b.toNat :=
  readClusters_congr s.disk h

/-- Two numbers of one cluster hold the same table. -/
theorem SameCluster.table {a b : UInt32} (h : SameCluster a b) (s : State) :
    s.table a.toNat = s.table b.toNat :=
  State.table_congr (h.cluster s)

/-- Two numbers of one cluster are written at one place. -/
theorem SameCluster.writeCluster {a b : UInt32} (h : SameCluster a b) (s : State)
    (data : Cluster) : s.writeCluster a.toNat data = s.writeCluster b.toNat data := by
  rw [State.writeCluster, writeClusters_congr s.disk h, State.writeCluster]

/-- A write to another cluster. -/
theorem cluster_writeCluster_of_not_same {a b : UInt32} (h : ¬SameCluster a b) (s : State)
    (data : Cluster) : (s.writeCluster a.toNat data).cluster b.toNat = s.cluster b.toNat := by
  rw [State.cluster, State.writeCluster_disk, readClusters_writeClusters,
    if_neg fun heq => h heq.symm]
  rfl

-- The two lookups are used through these lemmas only.
attribute [irreducible] readTable findDirectory

/-! ### The command -/

/-- The components of a path: each ends before a `/` or at the end, and the next one
begins behind it. -/
def components : List UInt8 → List (List UInt8)
  | [] => []
  | c :: cs =>
      if c = 0x2F then [] :: components cs
      else
        match components cs with
        | [] => [[c]]
        | d :: ds => (c :: d) :: ds

/-- The loop of `cd`, and the end of the function; the text is what it prints. -/
def cdLoop (s : State) : List (List UInt8) → ℕ → Session → String × Session
  | [], currDepth, m =>
      ("", { m with
        depth := currDepth
        currentDirParentClusterNumber := m.dirClusters (currDepth - 1)
        currentDirClusterNumber := m.dirClusters currDepth })
  | path :: paths, currDepth, m =>
      let parent := if currDepth = 0 then m.dirClusters 0 else m.dirClusters (currDepth - 1)
      match readTable s parent (m.dirPath currDepth) with
      | none => ("failed to read request\ndirectory tidak ditemukan\n", m)
      | some dirTable =>
          match findDirectory dirTable path with
          | none => ("directory tidak ditemukan\n", m)
          | some j =>
              cdLoop s paths (currDepth + 1)
                { m with
                  dirPath := Function.update m.dirPath (currDepth + 1) (dirTable j).name
                  dirClusters := Function.update m.dirClusters (currDepth + 1)
                    (UInt32.ofNat (dirTable j).cluster) }

/-- `cd ..`. -/
def Session.up (m : Session) : Session :=
  if m.depth > 0 then
    { m with
      dirClusters := Function.update m.dirClusters m.depth 0xFFFFFFFF
      currentDirParentClusterNumber :=
        if m.depth ≥ 2 then m.dirClusters (m.depth - 2) else m.dirClusters (m.depth - 1)
      currentDirClusterNumber := m.dirClusters (m.depth - 1)
      depth := m.depth - 1 }
  else m

/-- `cd`. -/
def cd (command : List UInt8) (s : State) (m : Session) : String × Session :=
  if command.take 5 = [0x63, 0x64, 0x20, 0x2E, 0x2E] then ("", m.up)
  else cdLoop s (components (command.drop 3)) m.depth m

/-- The command `cd p`. -/
def cdTo (p : List UInt8) (s : State) (m : Session) : Session :=
  (cd ([0x63, 0x64, 0x20] ++ p) s m).2

end Shell
end Jatos
