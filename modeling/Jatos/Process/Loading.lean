/-
# Loading a program

`process_create_user_process` takes its frames and its page directory, switches
to the latter and has `read` load the program.  It drops what `read` answers, so
that a request for a file that is missing, for a folder, without a name or with
too small a buffer ends like one that was served: with a process in the table
and `PROCESS_CREATE_SUCCESS`.  `PROCESS_CREATE_FAIL_FS_READ_FAILURE` is declared
and never returned.

What is checked before the first change fails without one.  A free frame is the
one thing that the checks may miss (`ceil_div` wraps to 0), and two frames and a
page directory are always left together (`Stocked`).
-/

import Jatos.Fat32.Damage
import Jatos.Process.Destroy

namespace Jatos
namespace Process

variable {p : Placement} {k k' : Kernel} {e : Event} {o : Outcome} {request : ReadRequest}
  {fuel : ℕ}

/-- What a creation answers when the file cannot be read. -/
abbrev PROCESS_CREATE_FAIL_FS_READ_FAILURE : ℤ := 4

/-- The process manager, the file system, and the memory from `request.buf` on in the
new address space. -/
structure System where
  kernel : Kernel
  fileSystem : Fat32.State
  memory : Fat32.Buffer

variable {s : System}

/-- The request as `read` gets it. -/
def ReadRequest.driverRequest (request : ReadRequest) (memory : Fat32.Buffer) : Fat32.Request where
  buf := memory
  name := request.name
  ext := request.ext
  parentClusterNumber := request.parentClusterNumber
  bufferSize := request.bufferSize

/-- `process_create_user_process`, with the file system. -/
def System.processCreateUserProcess (fuel : ℕ) (p : Placement) (request : ReadRequest)
    (s : System) : Option (ℤ × System) :=
  let loaded := Fat32.read fuel (request.driverRequest s.memory) s.fileSystem
  (createWith loaded p request s.kernel).map fun
    | (code, k, none) => (code, { s with kernel := k })
    | (code, k, some (reply, fileSystem)) => (code, ⟨k, fileSystem, reply.buf⟩)

/-! ### The kernel's part -/

/-- A request that does not pass the checks reads nothing. -/
theorem System.create_refused (h : ¬Accepted s.kernel request) :
    s.processCreateUserProcess fuel p request =
      (Process.processCreateUserProcess p request s.kernel).map fun r =>
        (r.1, { s with kernel := r.2 }) := by
  unfold System.processCreateUserProcess Process.processCreateUserProcess createWith
  dsimp only
  split_ifs with hcount hbuf hneed
  · rfl
  · rfl
  · rfl
  · obtain ⟨hcheck, hmax⟩ := not_or.1 hneed
    rw [Bool.not_eq_true', Bool.not_eq_false] at hcheck
    exact absurd ⟨not_le.1 hcount, UInt32.not_le.1 hbuf, hcheck, UInt32.not_lt.1 hmax⟩ h

/-- Past the checks the kernel does what it does without a file system, and what is
read changes only the memory. -/
theorem System.create_accepted (h : Accepted s.kernel request) :
    s.processCreateUserProcess fuel p request =
      (Process.processCreateUserProcess p request s.kernel).bind fun r =>
        (Fat32.read fuel (request.driverRequest s.memory) s.fileSystem).map fun q =>
          (r.1, ⟨r.2, q.2, q.1.buf⟩) := by
  unfold System.processCreateUserProcess Process.processCreateUserProcess createWith
  dsimp only
  rw [dif_neg (not_le.2 h.count), if_neg (UInt32.not_le.2 h.entrypoint),
    dif_neg (not_le.2 h.count), if_neg (UInt32.not_le.2 h.entrypoint), if_neg h.enough,
    if_neg h.enough]
  simp only [Option.bind_eq_bind, Option.bind_assoc, Option.bind_some, Option.map_eq_bind]
  rfl

/-- **Creation**, with the program that is read. -/
theorem System.create_returns {reply : Fat32.Reply} {fileSystem : Fat32.State}
    (h : Stocked s.kernel.paging) (ha : Accepted s.kernel request)
    (hone : 0 < Bitmap.freeCount s.kernel.paging.pageFrameMap)
    (hread : Fat32.read fuel (request.driverRequest s.memory) s.fileSystem =
      some (reply, fileSystem)) :
    ∃ slot i f g, Taken s.kernel request slot i f g ∧
      s.processCreateUserProcess fuel p request = some (PROCESS_CREATE_SUCCESS,
        ⟨s.kernel.created p request slot i f g, fileSystem, reply.buf⟩) := by
  obtain ⟨slot, i, f, g, ht, hc⟩ := Process.create_accepted (p := p) h ha hone
  refine ⟨slot, i, f, g, ht, ?_⟩
  rw [System.create_accepted ha, hc, Option.bind_some, hread]
  rfl

/-! ### Frames and page directories -/

/-- What an event does to the page manager. -/
inductive PagingChange (p : Placement) (k : Kernel) : Paging → Prop
  | none : PagingChange p k k.paging
  | created {request : ReadRequest} {slot : Fin 16} {i f g : Fin 32}
      (h : Taken k request slot i f g) :
      PagingChange p k (k.created p request slot i f g).paging
  | freed (pageDir : UInt32) : PagingChange p k (pagingFreePageDirectory p pageDir k.paging).2
  | activated (pageDir : UInt32) : PagingChange p k (pagingUsePageDirectory pageDir k.paging)

/-- What a call does to the paging is one of the changes. -/
theorem served_change {c : Call} {a : Answer} (h : Stocked k.paging)
    (hs : serve p c k = some (a, k')) : PagingChange p k k'.paging := by
  cases c with
  | create request =>
      rcases serve_create h request with ⟨hnone, -⟩ | ⟨a', k₁, hs', hserved⟩
      · exact absurd (hnone.symm.trans hs) (Option.some_ne_none _).symm
      · obtain ⟨rfl, rfl⟩ := Prod.mk.inj (Option.some.inj (hs'.symm.trans hs))
        cases hserved with
        | refused => exact .none
        | created ht => exact .created ht
  | destroy pid =>
      obtain ⟨⟨done, k₁⟩, hd, he⟩ := Option.map_eq_some_iff.1 hs
      obtain ⟨-, rfl⟩ := Prod.mk.inj he
      rcases destroy_cases hd with rfl | ⟨slot, pageDir, hpaging, -⟩
      · exact .none
      · exact hpaging ▸ .freed pageDir

/-- **Every event.** -/
theorem handled_change (h : Stocked k.paging) (hs : handle p e k = some (o, k')) :
    PagingChange p k k'.paging := by
  rcases handle_cases hs with ⟨c, a, -, hc⟩ | ⟨-, next, -, rfl⟩
  · exact served_change h hc
  · show PagingChange p k (pagingUsePageDirectory _ (e.saved k).paging)
    rw [saved_paging]
    exact .activated _

/-- A change by the calls keeps the paging in stock. -/
theorem Stocked.changed {paging : Paging} (h : Stocked k.paging) (hc : PagingChange p k paging) :
    Stocked paging := by
  cases hc with
  | none => exact h
  | created ht => exact h.created ht
  | freed pageDir => exact h.freed pageDir
  | activated pageDir => exact ⟨h.frames.usePageDirectory pageDir, h.even, h.directories⟩

/-- A change by the calls keeps the directories out of use clear. -/
theorem Cleared.changed {paging : Paging} (h : Cleared k.paging) (hc : PagingChange p k paging) :
    Cleared paging := by
  cases hc with
  | none => exact h
  | created => exact h.created
  | freed pageDir => exact h.freed pageDir
  | activated => exact h

/-- Every state that the kernel reaches by calls, switches and timer interrupts. -/
theorem stocked_of_run {events : List Event} {os : List Outcome}
    (hrun : Runs.run (handle p) events (Kernel.boot p) = some (os, k)) :
    Stocked k.paging ∧ Cleared k.paging :=
  Runs.run_invariant (I := fun k => Stocked k.paging ∧ Cleared k.paging)
    (fun _ _ _ _ ⟨hi, hc⟩ _ hs => ⟨hi.changed (handled_change hi hs),
      hc.changed (handled_change hi hs)⟩)
    ⟨(boot_invariant p).stocked, (boot_ledger p).clean⟩ Runs.guarded_true hrun

/-! ### Atomicity -/

/-- The executable is found and read completely: `read` answers 0. -/
def System.Reads (s : System) (request : ReadRequest) : Prop :=
  ∃ fuel o fileSystem, Fat32.read fuel (request.driverRequest s.memory) s.fileSystem =
    some (o, fileSystem) ∧ o.code = 0

/-- What a creation that fails leaves as it was. -/
structure Untouched (k k' : Kernel) : Prop where
  processes : k'.processList = k.processList
  count : k'.activeProcessCount = k.activeProcessCount
  frames : k'.paging.pageFrameMap = k.paging.pageFrameMap
  free : k'.paging.freePageFrameCount = k.paging.freePageFrameCount
  used : k'.paging.pageDirectoryUsed = k.paging.pageDirectoryUsed
  cr3 : k'.paging.cr3 = k.paging.cr3

/-- An answer that is 0 only for a program that was read completely, and otherwise
tells which step failed, with nothing changed. -/
structure AllOrNothing (s : System) (request : ReadRequest) (code : ℤ) (s' : System) : Prop where
  success : code = PROCESS_CREATE_SUCCESS → s.Reads request
  refused : ¬Accepted s.kernel request → Refused s.kernel request code
  directory : Accepted s.kernel request →
    Bitmap.freeCount s.kernel.paging.pageDirectoryUsed = 0 → code ≠ PROCESS_CREATE_SUCCESS
  read : Accepted s.kernel request → 0 < Bitmap.freeCount s.kernel.paging.pageDirectoryUsed →
    ¬s.Reads request → code = PROCESS_CREATE_FAIL_FS_READ_FAILURE
  untouched : code ≠ PROCESS_CREATE_SUCCESS → Untouched s.kernel s'.kernel

/-- The creation returns such an answer. -/
def Atomic (p : Placement) (s : System) (request : ReadRequest) : Prop :=
  ∃ fuel code s', s.processCreateUserProcess fuel p request = some (code, s') ∧
    AllOrNothing s request code s'

/-- The request names a file whose chain ends before the test of `read` ends the loop. -/
def Loadable (s : System) (request : ReadRequest) : Prop :=
  Fat32.Complete s.fileSystem (request.driverRequest s.memory)

/-- A program is read if and only if it can be loaded. -/
theorem reads_iff : s.Reads request ↔ Loadable s request := Fat32.read_done_iff

/-- One creation. -/
theorem atomic_iff_loadable (h : Stocked s.kernel.paging) :
    Atomic p s request ↔ ¬Accepted s.kernel request ∨
      0 < Bitmap.freeCount s.kernel.paging.pageFrameMap ∧ Loadable s request := by
  by_cases ha : Accepted s.kernel request
  · have hdirs := h.directories
    constructor
    · rintro ⟨fuel, code, s', hret, hall⟩
      refine .inr ?_
      rw [System.create_accepted ha] at hret
      rcases Nat.eq_zero_or_pos (Bitmap.freeCount s.kernel.paging.pageFrameMap) with hzero | hone
      · rw [create_starved ha hzero] at hret
        cases hret
      · obtain ⟨slot, i, f, g, -, hc⟩ := Process.create_accepted (p := p) h ha hone
        rw [hc, Option.bind_some] at hret
        obtain ⟨q, -, hq⟩ := Option.map_eq_some_iff.1 hret
        exact ⟨hone, reads_iff.1 (hall.success (congrArg Prod.fst hq).symm)⟩
    · rintro (hna | ⟨hone, hload⟩)
      · exact absurd ha hna
      · obtain ⟨fuel, reply, fileSystem, hread, -⟩ := reads_iff.2 hload
        obtain ⟨slot, i, f, g, -, hret⟩ := System.create_returns (p := p) h ha hone hread
        refine ⟨fuel, _, _, hret, fun _ => reads_iff.2 hload, fun hna => absurd ha hna,
          fun _ h0 => ?_, fun _ _ hno => absurd (reads_iff.2 hload) hno, fun hne => absurd rfl hne⟩
        omega
  · refine iff_of_true ?_ (.inl ha)
    obtain ⟨code, href, hc⟩ := Process.create_refused (p := p) ha
    refine ⟨0, code, s, ?_, fun h0 => absurd h0 href.failed, fun _ => href,
      fun ha' => absurd ha' ha, fun ha' => absurd ha' ha, fun _ => ⟨rfl, rfl, rfl, rfl, rfl, rfl⟩⟩
    rw [System.create_refused ha, hc]
    rfl

/-- A fresh volume has no shell. -/
theorem shell_missing :
    Fat32.findSlot ((Fat32.createFat32 Fat32.blank).table 2) shell.name = none := by
  refine Option.eq_none_iff_forall_ne_some.2 fun i hi => ?_
  have hname := (Fat32.findSlot_eq_some_iff.1 hi).1
  by_cases h0 : i = 0
  · have hroot : ((Fat32.createFat32 Fat32.blank).table 2 0).name = Fat32.rootName := by
      rw [Fat32.createFat32_table]
      rfl
    rw [h0, hroot] at hname
    exact absurd hname (by decide)
  · rw [Fat32.createFat32_slot h0] at hname
    exact absurd hname (by decide)

end Process
end Jatos
