/-
# Images from the inserter

`main` of `src/external-inserter.c`, with which files get into the image of the disk
before it is booted.  Each run is a process of its own: it mounts the image, writes one
file, and stores the image.  The driver is the kernel's, on the blocks of the image
(`Device/Image.lean`), so the disk is the array of blocks here.

A kernel that boots from an image made in this way finds what was inserted: under each
name the bytes of the file, or a folder where there was no file to open, or an empty one
(`inserted_read`).

What a run takes from outside is in `Insertion`: `parent` is what `sscanf` makes of the
second argument, and `heap`, `stack` and `memory` are what the buffer of the file, the
locals of `write` and `driver_state` are before they are written to.
-/

import Jatos.Fat32.Refinement

namespace Jatos
namespace Fat32

open Packed

/-- The inserter's buffer for a file: four MiB. -/
abbrev FILE_BUFFER_SIZE : ℕ := 4 * 1024 * 1024

/-- A run: its arguments, and the bytes of the file if it can be opened. -/
structure Insertion where
  argv1 : List UInt8
  parent : UInt32
  target : Option (List UInt8)
  heap : Buffer
  stack : Stack
  memory : ℕ → UInt32

/-- `isspace`. -/
def isSpace (c : UInt8) : Bool := c = 0x20 ∨ 0x09 ≤ c ∧ c ≤ 0x0D

/-- `sscanf(argv[1], "%8s", request.name)`, to a name of zeros. -/
def scanName (s : List UInt8) : Bytes 8 := fun i =>
  (((s.dropWhile isSpace).takeWhile fun c => !isSpace c).take 8).getD i 0

namespace Insertion

/-- What there is to insert. -/
def bytes (i : Insertion) : List UInt8 := i.target.getD []

/-- The request; `fread` fills the buffer at most. -/
def request (i : Insertion) : Request where
  buf j := if j < FILE_BUFFER_SIZE then i.bytes.getD j (i.heap j) else i.heap j
  name := scanName i.argv1
  ext := 0
  parentClusterNumber := i.parent
  bufferSize := UInt32.ofNat i.bytes.length

/-- The image as the driver finds it. -/
def mount (i : Insertion) (disk : Disk) : State :=
  initializeFilesystemFat32 ⟨disk, i.memory, false⟩

/-- The message for the code of `write`. -/
def message (retcode : ℤ) : String :=
  if retcode = 0 then "Write success"
  else if retcode = 1 then "Error: File/folder name already exist"
  else if retcode = 2 then "Error: Invalid parent cluster"
  else "Error: Unknown error"

/-- `main`. -/
def main (fuel : ℕ) (i : Insertion) (disk : Disk) : Option (String × Disk) :=
  (write fuel i.stack i.request (i.mount disk)).map fun (reply, s) => (message reply.code, s.disk)

/-- What the run is for. -/
def node (i : Insertion) : Node := if i.bytes = [] then .dir else .file i.bytes

/-- The file fits in the buffer, and the image has room for it under a name that is new. -/
def Fits (disk : Disk) (i : Insertion) : Prop :=
  i.bytes.length ≤ FILE_BUFFER_SIZE ∧ Admits (i.mount disk) (.write i.stack i.request)

/-- The tree with what a run inserts. -/
def insert (m : Tree) (i : Insertion) : Tree :=
  m.set i.parent.toNat (scanName i.argv1) (some i.node)

end Insertion

variable {s s' : State} {m : Tree} {disk disk₀ : Disk} {fuel : ℕ} {i : Insertion}
  {is : List Insertion}

/-! ### Mounting -/

/-- A state that keeps the volume keeps it tidy. -/
theorem Kept.tidy (hk : Kept s s') (h : Tidy s) : Tidy s' where
  sound := hk.sound h.sound
  distinct := hk.distinct h.distinct
  clean := hk.clean h.clean
  titled d hd k hu := by
    rw [hk.table] at hu ⊢
    exact h.titled d (hk.live_iff.1 hd) k hu

/-- A state that keeps the volume represents the same tree. -/
theorem Kept.represents (hk : Kept s s') (h : WellFormed s) (hm : Represents s m) :
    Represents s' m where
  stored d n x hx := by
    obtain ⟨k, he, hn, hholds⟩ := hm.stored d n x hx
    exact ⟨k, hk.entry_iff.2 he, by rw [hk.table, hn], hk.holds h he hholds⟩
  absent d n hx k he := by
    rw [hk.table]
    exact hm.absent d n hx k (hk.entry_iff.1 he)

/-- The disk has the tree for whoever mounts it. -/
def Carries (disk : Disk) (m : Tree) : Prop := ∀ mem stray,
  Tidy (initializeFilesystemFat32 ⟨disk, mem, stray⟩) ∧
    Represents (initializeFilesystemFat32 ⟨disk, mem, stray⟩) m

/-- A disk without the signature counts as empty. -/
theorem isEmptyStorage_of_ne (hnew : disk 0 ≠ fsSignature) (mem : ℕ → UInt32) (stray : Bool) :
    isEmptyStorage ⟨disk, mem, stray⟩ = true := by
  rw [isEmptyStorage, Bool.not_eq_true', ← Bool.not_eq_true, sameBytes_iff]
  exact hnew

/-- A disk without the signature is formatted. -/
theorem carries_empty (hnew : disk 0 ≠ fsSignature) : Carries disk Tree.empty := by
  intro mem stray
  rw [initializeFilesystemFat32, if_pos (isEmptyStorage_of_ne hnew mem stray)]
  exact ⟨createFat32_tidy _, represents_empty _⟩

/-- What is on a tidy volume is there for the next mount. -/
theorem Represents.carries (hm : Represents s m) (h : Tidy s) : Carries s.disk m := by
  intro mem stray
  have hk := initializeFilesystemFat32_kept h.sound.toMounted mem stray
  exact ⟨hk.tidy h, hk.represents h.sound.toWellFormed hm⟩

/-! ### Runs -/

/-- The size of a request of the inserter is the length of the file. -/
theorem Insertion.bufferSize_toNat (hlen : i.bytes.length ≤ FILE_BUFFER_SIZE) :
    i.request.bufferSize.toNat = i.bytes.length := by
  have hlt : i.bytes.length < 2 ^ 32 := Nat.lt_of_le_of_lt hlen (by decide)
  rw [Insertion.request, UInt32.toNat_ofNat', Nat.mod_eq_of_lt hlt]

/-- The request stores the file. -/
theorem Insertion.request_node (hlen : i.bytes.length ≤ FILE_BUFFER_SIZE) :
    i.request.node = i.node := by
  have hsize := Insertion.bufferSize_toNat hlen
  have hzero : i.request.bufferSize = 0 ↔ i.bytes = [] := by
    rw [← UInt32.toNat_inj, hsize]
    exact List.length_eq_zero_iff
  rw [Request.node, Insertion.node]
  simp only [hzero]
  refine congrArg (fun B => if i.bytes = [] then Node.dir else Node.file B) ?_
  refine List.ext_getElem (by rw [Request.length_bytes, hsize]) fun j hj hj' => ?_
  have hin : j < FILE_BUFFER_SIZE := hj'.trans_le hlen
  simp [Request.bytes, Insertion.request, if_pos hin, List.getD_eq_getElem?_getD, hj']

/-- **One run** inserts. -/
theorem Insertion.main_spec (hc : Carries disk m) (hf : i.Fits disk) (hfuel : 512 ≤ fuel) :
    ∃ disk', i.main fuel disk = some ("Write success", disk') ∧
      Carries disk' (Insertion.insert m i) := by
  obtain ⟨hlen, ha⟩ := hf
  obtain ⟨ht, hm⟩ : Tidy (i.mount disk) ∧ Represents (i.mount disk) m := hc i.memory false
  obtain ⟨hp, hn, hfresh, hj, hfit⟩ := id ha
  have hwf := ht.sound.toWellFormed
  obtain ⟨o, e, F, s', hw, hcode, hmade⟩ := write_made (k := i.stack) (hwf.live_range hp)
    (hwf.live_ne_empty hp) hfit (fun _ => hj) (by omega : 2 ≤ fuel)
  obtain ⟨j, hj'⟩ := Option.isSome_iff_exists.1 hj
  have hm' := hmade.represents hwf hp hj' hm
  rw [Insertion.request_node hlen] at hm'
  refine ⟨s'.disk, ?_, hm'.carries (hmade.tidy ht hp hn hfresh.noEntry)⟩
  have hmessage : Insertion.message o.code = "Write success" := by
    rw [hcode]
    rfl
  rw [Insertion.main, hw, ← hmessage]
  rfl

/-- What runs answer, and what they insert. -/
theorem inserted_of_trace {m' : Tree} {messages : List String}
    (ht : Runs.Trace (fun i m text m' => text = "Write success" ∧ m' = Insertion.insert m i)
      is m messages m') :
    (∀ text ∈ messages, text = "Write success") ∧ m' = is.foldl Insertion.insert m := by
  induction ht with
  | nil m => exact ⟨by simp, rfl⟩
  | cons hstep _ ih =>
      obtain ⟨rfl, rfl⟩ := hstep
      exact ⟨List.forall_mem_cons.2 ⟨rfl, ih.1⟩, ih.2⟩

/-- **What was inserted is found.**  From an image without the signature on, every list of
runs whose files fit under new names succeeds; and whoever then mounts the image, whatever
the memory was, reads under each name what was inserted there, and finds nothing under any
other. -/
theorem inserted_read (hnew : disk₀ 0 ≠ fsSignature) (hfuel : 512 ≤ fuel)
    (hg : Runs.Guarded (Insertion.main fuel) (fun disk i => i.Fits disk) is disk₀) :
    ∃ messages disk, Runs.run (Insertion.main fuel) is disk₀ = some (messages, disk) ∧
      (∀ text ∈ messages, text = "Write success") ∧
      ∀ mem stray s, initializeFilesystemFat32 ⟨disk, mem, stray⟩ = s →
        ∀ r : Request, LiveDir s r.parent → r.name ≠ 0 → r.name ≠ (s.table r.parent 0).name →
          Answers fuel s r (is.foldl Insertion.insert Tree.empty r.parent r.name) := by
  have hstep : ∀ (disk : Disk) (m : Tree) (i : Insertion), Carries disk m → i.Fits disk →
      ∃ text disk' m', i.main fuel disk = some (text, disk') ∧
        (text = "Write success" ∧ m' = Insertion.insert m i) ∧ Carries disk' m' := by
    intro disk m i hc hf
    obtain ⟨disk', hrun, hc'⟩ := Insertion.main_spec hc hf hfuel
    exact ⟨_, disk', _, hrun, ⟨rfl, rfl⟩, hc'⟩
  obtain ⟨messages, disk, m, hrun, htrace, hc⟩ :=
    Runs.run_refines hstep (carries_empty hnew) hg
  obtain ⟨hsuccess, rfl⟩ := inserted_of_trace htrace
  refine ⟨messages, disk, hrun, hsuccess, ?_⟩
  rintro mem stray s rfl r hp hn h0
  obtain ⟨ht, hm⟩ := hc mem stray
  exact hm.answers ht hp hn h0 hfuel

/-- `shell`, of three clusters. -/
def insertShell : Insertion where
  argv1 := [0x73, 0x68, 0x65, 0x6C, 0x6C]
  parent := 2
  target := some (List.replicate 5000 0x90)
  heap := fun _ => 0
  stack := blankStack
  memory := fun _ => 0

/-- The shell is inserted into a blank image. -/
theorem inserted_read_sample :
    ∃ messages disk, Runs.run (Insertion.main 512) [insertShell] blank.disk =
        some (messages, disk) ∧
      (∀ text ∈ messages, text = "Write success") ∧
      ∀ mem stray s, initializeFilesystemFat32 ⟨disk, mem, stray⟩ = s →
        ∀ r : Request, LiveDir s r.parent → r.name ≠ 0 → r.name ≠ (s.table r.parent 0).name →
          Answers 512 s r (Insertion.insert Tree.empty insertShell r.parent r.name) := by
  have hnew : blank.disk 0 ≠ fsSignature := fun h => by
    have hbyte := congrFun h ⟨510, by decide⟩
    revert hbyte
    decide
  have hlen : insertShell.bytes.length = 5000 := List.length_replicate
  have hmount : insertShell.mount blank.disk = createFat32 blank := by
    rw [Insertion.mount, initializeFilesystemFat32, if_pos (isEmptyStorage_of_ne hnew _ _)]
    rfl
  have hfits : insertShell.Fits blank.disk := by
    refine ⟨by rw [hlen]; decide, ?_⟩
    rw [hmount]
    refine createFat32_admits blank_zeroed rfl ?_ ?_ ?_
    · show scanName [0x73, 0x68, 0x65, 0x6C, 0x6C] ≠ 0
      decide
    · show scanName [0x73, 0x68, 0x65, 0x6C, 0x6C] ≠ rootName
      decide
    · have hsize : insertShell.request.bufferSize = 5000 := by
        rw [Insertion.request, hlen]
        rfl
      rw [Request.clusters, hsize]
      decide
  exact inserted_read hnew le_rfl ⟨hfits, fun _ _ _ => trivial⟩

end Fat32
end Jatos
