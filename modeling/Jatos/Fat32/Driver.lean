/-
# The driver

`src/fat32.c`: `init_directory_table`, `is_empty_storage`, `create_fat32`,
`initialize_filesystem_fat32`, `read_directory`, `read`, `write` and `delete`.

The loops over chains and the outer loop of `write` stop only by their own
tests, so they take fuel and answer `none` without an answer.  What the source
leaves to the machine is a parameter: `Stack` is what the stack held where
`write` puts its uninitialised locals, and `peek` is the memory behind the
pointer through which `delete` tests a folder for emptiness, `none` where it
faults.  `request.buf` is the memory from that pointer on.

`delete` reads a cluster to the address of that pointer.  The makefile's build
puts the pointer into the four bytes in front of `parent_dir_table`, so the rest
of the cluster goes over this table (`overwritten`), which is stored afterwards.
-/

import Jatos.Fat32.State

namespace Jatos
namespace Fat32

open Packed

/-- The bytes from a pointer on. -/
abbrev Buffer := ℕ → UInt8

/-- `struct FAT32DriverRequest`. -/
structure Request where
  buf : Buffer
  name : Bytes 8
  ext : Bytes 3
  parentClusterNumber : UInt32
  bufferSize : UInt32

/-- The cluster that a request is addressed to, `parent_cluster_number`. -/
def Request.parent (r : Request) : ℕ := r.parentClusterNumber.toNat

/-- What a request leaves behind: the code, and the memory of `request.buf`. -/
structure Reply where
  code : ℤ
  buf : Buffer

/-- The bytes under the uninitialised locals `new_entry` and `new_folder`. -/
structure Stack where
  newEntry : DirectoryEntry
  newFolder : DirectoryTable

/-! ### Formatting and mounting -/

/-- `fs_signature`. -/
def fsSignature : Block := fun i =>
  if i.val = 510 then 0x4F
  else if i.val = 511 then 0x6B
  else
    (([ 'C', 'o', 'u', 'r', 's', 'e', ' ', ' ', ' ', ' ', ' ', ' ', ' ', ' ', ' ', ' ',
        'D', 'e', 's', 'i', 'g', 'n', 'e', 'd', ' ', 'b', 'y', ' ', ' ', ' ', ' ', ' ',
        'L', 'a', 'b', ' ', 'S', 'i', 's', 't', 'e', 'r', ' ', 'I', 'T', 'B', ' ', ' ',
        'M', 'a', 'd', 'e', ' ', 'w', 'i', 't', 'h', ' ', '<', '3', ' ', ' ', ' ', ' ',
        '-', '-', '-', '-', '-', '-', '-', '-', '-', '-', '-', '2', '0', '2', '4', '\n'
      ] : List Char).map fun c => UInt8.ofNat c.toNat).getD i.val 0

/-- `"root\0\0\0\0"`. -/
def rootName : Bytes 8 := ![0x72, 0x6F, 0x6F, 0x74, 0, 0, 0, 0]

/-- `init_directory_table`: slot 0 keeps the members that are not assigned. -/
def initDirectoryTable (dirTable : DirectoryTable) (name : Bytes 8) (parentDirCluster : ℕ) :
    DirectoryTable := fun i =>
  if i = 0 then
    { dirTable 0 with
      name := name
      ext := 0
      attr := ATR_DIRECTORY
      userAttribute := UATTR_NOT_EMPTY
      clusterHigh := clusterHighOf parentDirCluster
      clusterLow := clusterLowOf parentDirCluster
      filesize := 0 }
  else DirectoryEntry.zero

/-- `is_empty_storage`. -/
def isEmptyStorage (s : State) : Bool := !sameBytes (s.disk 0) fsSignature

/-- `create_fat32`. -/
def createFat32 (s : State) : State :=
  let s := { s with disk := writeBlocks s.disk 0 fun _ : Fin 1 => fsSignature }
  let s := s.setClusterMap 0 CLUSTER_0_VALUE
  let s := s.setClusterMap 1 CLUSTER_1_VALUE
  let s := s.setClusterMap 2 FAT32_FAT_END_OF_FILE
  let s := s.writeFat
  let s := s.setDirTableBuf (initDirectoryTable s.dirTableBuf rootName ROOT_CLUSTER_NUMBER)
  s.writeCluster ROOT_CLUSTER_NUMBER (tableLayout s.dirTableBuf)

/-- `initialize_filesystem_fat32`. -/
def initializeFilesystemFat32 (s : State) : State :=
  if isEmptyStorage s then createFat32 s
  else
    let s := s.fill 0 (s.cluster FAT_CLUSTER_NUMBER)
    s.fill 512 (s.cluster ROOT_CLUSTER_NUMBER)

/-! ### Reading -/

/-- The slot at which the three lookup loops stop: the first whose name is the
given one. -/
def findSlot (t : DirectoryTable) (name : Bytes 8) : Option (Fin 64) :=
  Fin.find? fun i => sameBytes (t i).name name

/-- The slot found is the first that has the name. -/
theorem findSlot_eq_some_iff {t : DirectoryTable} {n : Bytes 8} {i : Fin 64} :
    findSlot t n = some i ↔ (t i).name = n ∧ ∀ j < i, (t j).name ≠ n := by
  rw [findSlot, Fin.find?_eq_some_iff]
  simp

/-- No slot is found if and only if none has the name. -/
theorem findSlot_eq_none_iff {t : DirectoryTable} {n : Bytes 8} :
    findSlot t n = none ↔ ∀ i, (t i).name ≠ n := by
  rw [findSlot, Fin.find?_eq_none_iff]
  simp

/-- Bytes `2048 k` to `2048 k + 2047` of a buffer are replaced. -/
def Buffer.putCluster (buf : Buffer) (k : ℕ) (data : Cluster) : Buffer := fun j =>
  if h : CLUSTER_SIZE * k ≤ j ∧ j < CLUSTER_SIZE * k + 2048 then
    data ⟨j - CLUSTER_SIZE * k, by omega⟩
  else buf j

/-- Bytes `2048 k` to `2048 k + 2047` of a buffer. -/
def Buffer.getCluster (buf : Buffer) (k : ℕ) : Cluster := fun j => buf (CLUSTER_SIZE * k + j)

/-- `read_directory`. -/
def readDirectory (r : Request) (s : State) : Reply :=
  if r.bufferSize.toNat ≠ CLUSTER_SIZE then ⟨-1, r.buf⟩
  else
    let dirTable := s.table r.parent
    match findSlot dirTable r.name with
    | none => ⟨2, r.buf⟩
    | some i =>
        if (dirTable i).filesize ≠ 0 then ⟨1, r.buf⟩
        else ⟨0, r.buf.putCluster 0 (s.cluster (dirTable i).cluster)⟩

/-- The `do .. while` of `read`: `clusterSize` clusters are copied, `clustNumber`
is next. -/
def readChain (bufferSize : ℕ) : ℕ → State → Buffer → ℕ → ℕ → Option (Reply × State)
  | 0, _, _, _, _ => none
  | fuel + 1, s, buf, clusterSize, clustNumber =>
      if bufferSize < clusterSize * CLUSTER_MAP_SIZE % 2 ^ 32 then some (⟨2, buf⟩, s)
      else
        let buf := buf.putCluster clusterSize (s.cluster clustNumber)
        let next := s.clusterMap clustNumber
        let s := s.touch clustNumber
        if next = FAT32_FAT_END_OF_FILE then some (⟨0, buf⟩, s)
        else readChain bufferSize fuel s buf (clusterSize + 1) next.toNat

/-- `read`. -/
def read (fuel : ℕ) (r : Request) (s : State) : Option (Reply × State) :=
  if sameBytes r.name 0 then some (⟨-1, r.buf⟩, s)
  else
    let dirTable := s.table r.parent
    match findSlot dirTable r.name with
    | none => some (⟨3, r.buf⟩, s)
    | some i =>
        if (dirTable i).filesize = 0 then some (⟨1, r.buf⟩, s)
        else readChain r.bufferSize.toNat fuel s r.buf 0 (dirTable i).cluster

/-! ### Writing -/

/-- `clusterNeed`: the request's size in clusters, rounded up. -/
def clusterNeed (reqSize : ℕ) : ℕ :=
  if reqSize / CLUSTER_SIZE * CLUSTER_SIZE < reqSize then reqSize / CLUSTER_SIZE + 1
  else reqSize / CLUSTER_SIZE

/-- The slot at which both insertion loops stop: the first that is not used. -/
def freeSlot (t : DirectoryTable) : Option (Fin 64) := Fin.find? fun j => ¬(t j).Used

/-- The free slot is the first whose attribute is not that of a used entry. -/
theorem freeSlot_eq_some_iff {t : DirectoryTable} {i : Fin 64} :
    freeSlot t = some i ↔ ¬(t i).Used ∧ ∀ j < i, (t j).Used := by
  rw [freeSlot, Fin.find?_eq_some_iff]
  simp

/-- There is no free slot if and only if every slot is in use. -/
theorem freeSlot_eq_none_iff {t : DirectoryTable} : freeSlot t = none ↔ ∀ i, (t i).Used := by
  rw [freeSlot, Fin.find?_eq_none_iff]
  simp

-- The two searches are used through their characterisations only.
attribute [irreducible] findSlot freeSlot

/-- Both insertion loops: the entry goes to the first free slot, if any. -/
def insertEntry (t : DirectoryTable) (e : DirectoryEntry) : DirectoryTable :=
  match freeSlot t with
  | none => t
  | some j => Function.update t j e

/-- `new_entry` of a folder at cluster `i`: the other members stay what the
stack held. -/
def folderEntry (k : Stack) (r : Request) (i : ℕ) : DirectoryEntry :=
  { k.newEntry with
    name := r.name
    attr := ATR_DIRECTORY
    userAttribute := UATTR_NOT_EMPTY
    clusterHigh := clusterHighOf i
    clusterLow := clusterLowOf i
    filesize := r.bufferSize }

/-- `new_entry` of a file that starts at cluster `i`. -/
def fileEntry (r : Request) (i : ℕ) : DirectoryEntry :=
  { DirectoryEntry.zero with
    name := r.name
    ext := r.ext
    attr := ATR_FILE
    userAttribute := UATTR_NOT_EMPTY
    clusterHigh := clusterHighOf i
    clusterLow := clusterLowOf i
    filesize := r.bufferSize }

/-- The body of the folder loop at a free cluster `i`. -/
def placeFolder (k : Stack) (r : Request) (i : ℕ) (s : State) : State :=
  let s := s.setDirTableBuf (insertEntry s.dirTableBuf (folderEntry k r i))
  let s := s.writeCluster i (tableLayout (initDirectoryTable k.newFolder r.name r.parent))
  let s := s.setClusterMap i FAT32_FAT_END_OF_FILE
  let s := s.writeFat
  s.writeCluster r.parent (tableLayout s.dirTableBuf)

/-- The folder loop over the indices `is`; the flag is `slotAvailable`. -/
def scanFolder (k : Stack) (r : Request) : List ℕ → State → State × Bool
  | [], s => (s, false)
  | i :: is, s =>
      if s.clusterMap i = FAT32_FAT_EMPTY_ENTRY then (placeFolder k r i (s.touch i), true)
      else scanFolder k r is (s.touch i)

/-- The variables of the file loops. -/
structure Progress where
  state : State
  buf : Buffer
  written : ℕ
  clustBefore : ℕ
  slotAvailable : Bool

/-- How a `for` loop of the file branch is left. -/
inductive Scan
  | returned (code : ℤ) (p : Progress)
  | broke (p : Progress)
  | ended (p : Progress)

/-- `memset(buf + size, v, 2048 n - size)`: the padding of the last of `n`
clusters. -/
def Buffer.pad (buf : Buffer) (size n v : ℕ) : Buffer := fun j =>
  if size ≤ j ∧ j < CLUSTER_SIZE * n then UInt8.ofNat v else buf j

/-- The first passage, `written == 0`: the new entry is put into the parent's
table and the table is stored. -/
def openFile (r : Request) (i : ℕ) (p : Progress) : Progress :=
  let e := fileEntry r i
  let p := { p with clustBefore := i }
  match freeSlot p.state.dirTableBuf with
  | none => p
  | some j =>
      let s := p.state.setDirTableBuf (Function.update p.state.dirTableBuf j e)
      let s := s.writeCluster r.parent (tableLayout s.dirTableBuf)
      { p with state := s, slotAvailable := true }

/-- The rest of the body of the file loop at a free cluster `i`. -/
def placeCluster (r : Request) (i : ℕ) (p : Progress) : Scan :=
  let last := p.written + 1 = clusterNeed r.bufferSize.toNat
  let s := p.state.writeCluster i 0
  let buf := if last then p.buf.pad r.bufferSize.toNat (p.written + 1) i else p.buf
  let s := s.writeCluster i (buf.getCluster p.written)
  let s := if 0 < p.written then s.setClusterMap p.clustBefore (UInt32.ofNat i) else s
  if last then
    let s := s.setClusterMap i FAT32_FAT_END_OF_FILE
    let s := s.writeFat
    .broke { p with state := s, buf := buf, written := p.written + 1 }
  else .ended { p with state := s, buf := buf, written := p.written + 1, clustBefore := i }

/-- The body of the file loop at a free cluster `i`; `ended` goes on to the next
index. -/
def fileStep (r : Request) (i : ℕ) (p : Progress) : Scan :=
  if p.written = 0 then
    let p := openFile r i p
    if p.slotAvailable then placeCluster r i p else .returned (-1) p
  else placeCluster r i p

/-- The file loop over the indices `is`. -/
def scanFile (r : Request) : List ℕ → Progress → Scan
  | [], p => .ended p
  | i :: is, p =>
      let q := { p with state := p.state.touch i }
      if p.state.clusterMap i = FAT32_FAT_EMPTY_ENTRY then
        match fileStep r i q with
        | .ended q => scanFile r is q
        | exit => exit
      else scanFile r is q

/-- The indices of both `for` loops, `ROOT_CLUSTER_NUMBER` to `CLUSTER_SIZE - 1`. -/
def scanIndices : List ℕ := List.range' ROOT_CLUSTER_NUMBER (CLUSTER_SIZE - ROOT_CLUSTER_NUMBER)

/-- `while (written < clusterNeed)`. -/
def writeLoop (r : Request) : ℕ → Progress → Option (ℤ × Progress)
  | 0, _ => none
  | fuel + 1, p =>
      if p.written < clusterNeed r.bufferSize.toNat then
        match scanFile r scanIndices p with
        | .returned code p => some (code, p)
        | .broke p => writeLoop r fuel p
        | .ended p => writeLoop r fuel p
      else some (0, p)

/-- `write`. -/
def write (fuel : ℕ) (k : Stack) (r : Request) (s : State) : Option (Reply × State) :=
  let entry := s.clusterMap r.parent
  let s := s.touch r.parent
  if entry = FAT32_FAT_EMPTY_ENTRY then some (⟨2, r.buf⟩, s)
  else
    let s := s.fill 512 (s.cluster r.parent)
    if r.bufferSize = 0 then
      let (s, slotAvailable) := scanFolder k r scanIndices s
      some (⟨if slotAvailable then 0 else -1, r.buf⟩, s)
    else
      (writeLoop r fuel ⟨s, r.buf, 0, 0, false⟩).map fun (code, p) => (⟨code, p.buf⟩, p.state)

/-! ### Deleting -/

/-- The pointer that `read_clusters(&req_dir_table, ..)` leaves in
`req_dir_table`: the first word of the cluster. -/
def danglingPointer (data : Cluster) : ℕ := (wordsLayout.symm data 0).toNat

/-- What the same `read_clusters` makes of `parent_dir_table`, whose first byte
lies four bytes behind the pointer's: the cluster from its second word on, and
the old last word. -/
def overwritten (data : Cluster) (parentDirTable : DirectoryTable) : DirectoryTable :=
  tableLayout.symm fun j =>
    if h : j.val + 4 < 2048 then data ⟨j.val + 4, h⟩ else tableLayout parentDirTable j

/-- The emptiness test, through that pointer: is the mark of a used entry found
in one of the slots?  `none` where a slot cannot be read. -/
def anyUsed (peek : ℕ → Option UInt8) (reqDirTable : ℕ) : List ℕ → Option Bool
  | [] => some false
  | i :: is =>
      match peek ((reqDirTable + 32 * i + 12) % 2 ^ 32) with
      | none => none
      | some u => if u = UATTR_NOT_EMPTY then some true else anyUsed peek reqDirTable is

/-- The `do .. while` of `delete`. -/
def deleteChain : ℕ → ℕ → State → Option State
  | 0, _, _ => none
  | fuel + 1, reqCluster, s =>
      let next := s.clusterMap reqCluster
      let s := s.setClusterMap reqCluster FAT32_FAT_EMPTY_ENTRY
      let s := s.writeCluster reqCluster 0
      if next = FAT32_FAT_END_OF_FILE then some s else deleteChain fuel next.toNat s

/-- `delete`.  The folder branch reads a cluster onto a pointer and the table
behind it; the other locals lie above the table and keep their values. -/
def delete (fuel : ℕ) (peek : ℕ → Option UInt8) (r : Request) (s : State) :
    Option (ℤ × State) :=
  if sameBytes r.name 0 then some (-1, s)
  else
    let parentDirTable := s.table r.parent
    match findSlot parentDirTable r.name with
    | none => some (1, s)
    | some index =>
        let e := parentDirTable index
        if sameBytes r.ext 0 then
          let reqDirTable := danglingPointer (s.cluster e.cluster)
          let t := overwritten (s.cluster e.cluster) parentDirTable
          match anyUsed peek reqDirTable (List.range' 1 63) with
          | none => none
          | some true => some (2, s)
          | some false =>
              let t := Function.update t index { t index with userAttribute := 0 }
              let s := s.setClusterMap e.cluster FAT32_FAT_EMPTY_ENTRY
              some (0, s.writeFat.writeCluster r.parent (tableLayout t))
        else
          let t := Function.update parentDirTable index DirectoryEntry.zero
          (deleteChain fuel e.cluster s).map fun s =>
            (0, s.writeFat.writeCluster r.parent (tableLayout t))

/-! ### Requests -/

/-- A call of the driver, with what the machine supplies to it. -/
inductive Op
  | read (r : Request)
  | readDirectory (r : Request)
  | write (k : Stack) (r : Request)
  | delete (peek : ℕ → Option UInt8) (r : Request)

/-- The request of a call. -/
def Op.request : Op → Request
  | .read r | .readDirectory r | .write _ r | .delete _ r => r

/-- Serve a call. -/
def exec (fuel : ℕ) : Op → State → Option (Reply × State)
  | .read r, s => Fat32.read fuel r s
  | .readDirectory r, s => some (Fat32.readDirectory r s, s)
  | .write k r, s => Fat32.write fuel k r s
  | .delete peek r, s => (Fat32.delete fuel peek r s).map fun (code, s) => (⟨code, r.buf⟩, s)

end Fat32
end Jatos
