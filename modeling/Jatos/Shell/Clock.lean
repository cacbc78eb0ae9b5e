/-
# The shell and its clock

`exec` and `kill` of `src/user-shell.c`, and the system calls 9 and 15 of
`src/interrupt.c`.

The shell notes in `clock_is_running` that it has started the clock, without a
look at whether the kernel has created the process; the system call drops the
return code.  It asks the kernel to destroy process 1 while the flag is set, and
the kernel goes through `NULL` if there is no process 1.  The kernel refuses
only for want of a frame, and no frame is ever given back, so the two part at
the 15th start of the clock.

Of `executeCommand` the branches of the two commands are modelled.  A command
answers the text that it prints.  `exec` reads the bytes of `prog_name` behind
a short name, which are whatever the stack holds.
-/

import Jatos.Process.Startup

namespace Jatos
namespace Shell

open Packed Process

variable {p : Placement} {m m' : Machine} {k : Kernel}

/-- The state of the shell, and of the kernel. -/
structure Machine where
  clockIsRunning : ℤ
  kernel : Kernel

/-- The first two bytes of the strings of `numbers`. -/
def numbers (i : Fin 16) : Bytes 2 :=
  if i.val < 10 then ![UInt8.ofNat (0x30 + i), 0] else ![0x31, UInt8.ofNat (0x30 + i - 10)]

/-- `kill`. -/
def kill (p : Placement) (pid : Bytes 2) (m : Machine) : Option (String × Machine) :=
  match Fin.find? fun i => numbers i = pid with
  | none => some ("pid tidak valid\n", m)
  | some pidInt =>
      if pidInt.val > 0 ∧ m.clockIsRunning = 0 ∨ pidInt.val > 1 ∧ m.clockIsRunning = 1 then
        some ("pid tidak valid\n", m)
      else do
        let (_, k) ← processDestroy p (UInt32.ofNat pidInt) m.kernel
        some ("", ⟨if pidInt.val = 1 then 0 else m.clockIsRunning, k⟩)

/-- `exec`, with what the stack holds at `prog_name`. -/
def exec (p : Placement) (command : List UInt8) (stack : Bytes 8) (m : Machine) :
    Option (String × Machine) :=
  let word := (command.drop 5).takeWhile (· ≠ 0x20)
  if word.length > 8 then some ("Program tidak valid\n", m)
  else
    let progName : Bytes 8 := fun i => word.getD i (stack i)
    let process : ReadRequest := ⟨0, progName, 0, 2, 0x100000⟩
    if (List.ofFn process.name).take 5 ≠ [0x63, 0x6C, 0x6F, 0x63, 0x6B] then
      some ("Program tidak ditemukan\n", m)
    else if m.clockIsRunning = 1 then some ("Clock sudah berjalan\n", m)
    else do
      let (_, k) ← processCreateUserProcess p process m.kernel
      some ("", ⟨1, k⟩)

/-- `executeCommand`, for the lines that begin with `exec ` or `kill`. -/
def executeCommand (p : Placement) (command : List UInt8) (stack : Bytes 8) (m : Machine) :
    Option (String × Machine) :=
  if command.length > 4 ∧ command.take 5 = [0x65, 0x78, 0x65, 0x63, 0x20] then
    exec p command stack m
  else if command.length > 5 ∧ command.take 4 = [0x6B, 0x69, 0x6C, 0x6C] then
    -- a longer number is written behind `pid`
    if command.length > 7 then none
    else kill p (fun i => command.getD (i + 5) 0) m
  else none

/-- The commands `exec clock` and `kill 1`, and the interrupts of the timer between
them. -/
inductive Input
  | execClock (stack : Bytes 8)
  | killOne
  | timer (frame : InterruptFrame)

/-- One input. -/
def react (p : Placement) : Input → Machine → Option (String × Machine)
  | .execClock stack, m =>
      executeCommand p [0x65, 0x78, 0x65, 0x63, 0x20, 0x63, 0x6C, 0x6F, 0x63, 0x6B] stack m
  | .killOne, m => executeCommand p [0x6B, 0x69, 0x6C, 0x6C, 0x20, 0x31] 0 m
  | .timer frame, m => (timerInterrupt frame m.kernel).map fun r => ("", { m with kernel := r.2 })

/-- The shell's flag says whether slot 1 holds a process. -/
def Agrees (m : Machine) : Prop := m.clockIsRunning = 1 ↔ (m.kernel.processList 1).Live

/-- The input is served, so that no lookup of a process fails, and shell and kernel agree
afterwards. -/
def StaysAgreed (p : Placement) (m : Machine) (i : Input) : Prop :=
  ∃ r ∈ react p i m, Agrees r.2

/-- How often the clock is started, at an `exec clock` while it is not running. -/
def starts : Bool → List Input → ℕ
  | _, [] => 0
  | true, .execClock _ :: is => starts true is
  | false, .execClock _ :: is => starts true is + 1
  | _, .killOne :: is => starts false is
  | running, .timer _ :: is => starts running is

instance : Decidable (Agrees m) := inferInstanceAs (Decidable (_ ↔ _))

instance {i : Input} : Decidable (StaysAgreed p m i) :=
  inferInstanceAs (Decidable (∃ r ∈ react p i m, Agrees r.2))

/-! ### The two commands -/

/-- The process that `exec clock` asks for. -/
def clock (stack : Bytes 8) : ReadRequest :=
  ⟨0, fun i => [0x63, 0x6C, 0x6F, 0x63, 0x6B].getD i (stack i), 0, 2, 0x100000⟩

/-- What the shell does when the clock is started. -/
theorem react_execClock (p : Placement) (stack : Bytes 8) (m : Machine) :
    react p (.execClock stack) m =
      if m.clockIsRunning = 1 then some ("Clock sudah berjalan\n", m)
      else (processCreateUserProcess p (clock stack) m.kernel).map fun r => ("", ⟨1, r.2⟩) := by
  have hname : (List.ofFn (clock stack).name).take 5 = [0x63, 0x6C, 0x6F, 0x63, 0x6B] := rfl
  have hexec : react p (.execClock stack) m =
      if (List.ofFn (clock stack).name).take 5 ≠ [0x63, 0x6C, 0x6F, 0x63, 0x6B] then
        some ("Program tidak ditemukan\n", m)
      else if m.clockIsRunning = 1 then some ("Clock sudah berjalan\n", m)
      else (processCreateUserProcess p (clock stack) m.kernel).bind
        fun r => some ("", ⟨1, r.2⟩) := rfl
  rw [hexec, if_neg (not_not.2 hname), Option.map_eq_bind]
  rfl

/-- What the shell does when process 1 is killed. -/
theorem react_killOne (p : Placement) (m : Machine) :
    react p .killOne m =
      if m.clockIsRunning = 0 then some ("pid tidak valid\n", m)
      else (processDestroy p 1 m.kernel).map fun r => ("", ⟨0, r.2⟩) := by
  have hpid : (fun i : Fin 2 => [0x6B, 0x69, 0x6C, 0x6C, 0x20, 0x31].getD (i + 5) 0) =
      (![0x31, 0] : Bytes 2) := by decide
  have hkill : react p .killOne m =
      kill p (fun i => [0x6B, 0x69, 0x6C, 0x6C, 0x20, 0x31].getD (i + 5) 0) m := by
    show executeCommand p _ 0 m = _
    rw [executeCommand, if_neg (by decide), if_pos (by decide), if_neg (by decide)]
  have hfind : (Fin.find? fun i => numbers i = ![0x31, 0]) = some 1 := by decide
  rw [hkill, hpid]
  unfold kill
  rw [hfind]
  by_cases hc : m.clockIsRunning = 0
  · rw [if_pos hc]
    simp [hc]
  · have hno : ¬((1 : Fin 16).val > 0 ∧ m.clockIsRunning = 0 ∨
        (1 : Fin 16).val > 1 ∧ m.clockIsRunning = 1) := by
      rintro (⟨-, h⟩ | ⟨h, -⟩)
      · exact hc h
      · exact absurd h (by decide)
    dsimp only
    rw [if_neg hc, if_neg hno, Option.map_eq_bind]
    rfl

/-! ### Shell and kernel together -/

/-- The state between two inputs. -/
structure Synced (p : Placement) (m : Machine) : Prop where
  scheduled : Scheduled p m.kernel
  shell : (m.kernel.processList 0).Live
  flag : m.clockIsRunning = 0 ∨ m.clockIsRunning = 1
  agrees : Agrees m
  count : m.kernel.activeProcessCount = if m.clockIsRunning = 1 then 2 else 1

/-- The frames that are left. -/
def Machine.free (m : Machine) : ℕ := Bitmap.freeCount m.kernel.paging.pageFrameMap

/-- The frames that the clock needs do not depend on the stack. -/
theorem clock_pageFrameCountNeeded (stack : Bytes 8) :
    (clock stack).pageFrameCountNeeded = (clock 0).pageFrameCountNeeded := rfl

/-- **Without a frame** the flag is set, and no process is created. -/
theorem execClock_starved (h : Synced p m) (hoff : m.clockIsRunning ≠ 1) (hzero : m.free = 0)
    (stack : Bytes 8) : ∃ o m', react p (.execClock stack) m = some (o, m') ∧ ¬Agrees m' := by
  have hno : ¬Accepted m.kernel (clock stack) := by
    intro ha
    have hneeded : 0 < (clock stack).pageFrameCountNeeded.toNat :=
      pageFrameCountNeeded_pos (show (0x100000 : UInt32).toNat < _ by decide)
    have hpos := freeCount_pos h.scheduled.ledger.kept.frames hneeded ha.check
    exact absurd hzero (Nat.pos_iff_ne_zero.1 hpos)
  obtain ⟨code, -, hc⟩ := create_refused (p := p) hno
  refine ⟨"", ⟨1, m.kernel⟩, ?_, fun ha => hoff (h.agrees.2 (ha.1 rfl))⟩
  rw [react_execClock, if_neg hoff, hc]
  rfl

/-- The clock's request is accepted when a frame and a slot are free. -/
theorem Synced.accepted (h : Synced p m) (hoff : m.clockIsRunning ≠ 1) (hfree : 0 < m.free)
    (stack : Bytes 8) : Accepted m.kernel (clock stack) where
  count := by
    rw [h.count, if_neg hoff]
    decide
  entrypoint := show (0 : UInt32) < KERNEL_VIRTUAL_ADDRESS_BASE by decide
  check := by
    have hmax : (clock stack).pageFrameCountNeeded ≤ PROCESS_PAGE_FRAME_COUNT_MAX := by
      rw [clock_pageFrameCountNeeded]
      decide +kernel
    exact allocateCheck_of_pos h.scheduled.ledger.kept.frames hfree hmax
  max := by
    rw [clock_pageFrameCountNeeded]
    decide +kernel

/-- **With one** the process is created in slot 1, from two frames. -/
theorem execClock_started (h : Synced p m) (hoff : m.clockIsRunning ≠ 1) (hfree : 0 < m.free)
    (stack : Bytes 8) : ∃ o m', react p (.execClock stack) m = some (o, m') ∧ Synced p m' ∧
      m'.clockIsRunning = 1 ∧ m'.free + 2 = m.free := by
  have ha := h.accepted hoff hfree stack
  obtain ⟨slot, i, f, g, ht, hc⟩ := create_accepted h.scheduled.ledger.kept.stocked ha hfree
  obtain rfl : slot = 1 := by
    apply Fin.ext
    rw [ht.slot, h.count, if_neg hoff]
    rfl
  let k' := m.kernel.created p (clock stack) 1 i f g
  have hs : serve p (.create (clock stack)) m.kernel =
      some (.created PROCESS_CREATE_SUCCESS, k') := by
    rw [serve, hc]
    rfl
  have hlist : k'.processList = Function.update m.kernel.processList 1 _ := rfl
  have hlive : (k'.processList 1).Live := by
    rw [hlist, Function.update_self]
    exact live_setUp _ _ _ _
  have hshell : k'.processList 0 = m.kernel.processList 0 := by
    rw [hlist, Function.update_of_ne (by decide)]
  have hagrees : Agrees ⟨1, k'⟩ := ⟨fun _ => hlive, fun _ => rfl⟩
  refine ⟨"", ⟨1, k'⟩, ?_, ⟨h.scheduled.served hs, ?_, .inr rfl, hagrees, ?_⟩, rfl,
    freeCount_created ht⟩
  · rw [react_execClock, if_neg hoff, hc]
    rfl
  · exact hshell ▸ h.shell
  · show m.kernel.activeProcessCount + 1 = 2
    rw [h.count, if_neg hoff]
    rfl

/-- A running clock is not started again. -/
theorem execClock_running (hon : m.clockIsRunning = 1) (stack : Bytes 8) :
    react p (.execClock stack) m = some ("Clock sudah berjalan\n", m) := by
  rw [react_execClock, if_pos hon]

/-- **The kill** stops the clock, if it is running. -/
theorem killOne_stopped (h : Synced p m) :
    ∃ o m', react p .killOne m = some (o, m') ∧ Synced p m' ∧ m'.clockIsRunning = 0 ∧
      m'.free = m.free := by
  rcases h.flag with hoff | hon
  · refine ⟨"pid tidak valid\n", m, ?_, h, hoff, rfl⟩
    rw [react_killOne, if_pos hoff]
  · have hlive := h.agrees.1 hon
    have hpid : (m.kernel.processList 1).pid = 1 :=
      UInt32.toNat_inj.1 ((h.scheduled.ledger.numbered 1).live hlive)
    have hd : processDestroy p 1 m.kernel = some (true, m.kernel.destroyed p 1) :=
      destroy_found h.scheduled.ledger.kept.pid rfl (h.scheduled.ledger.unlisted 1) hpid
    have hs : serve p (.destroy 1) m.kernel =
        some (.destroyed true, m.kernel.destroyed p 1) := by
      rw [serve, hd]
      rfl
    have hlist : (m.kernel.destroyed p 1).processList =
        Function.update m.kernel.processList 1 .zero := rfl
    have hdead : ¬((m.kernel.destroyed p 1).processList 1).Live := by
      rw [hlist, Function.update_self]
      exact not_live_zero
    have hshell : (m.kernel.destroyed p 1).processList 0 = m.kernel.processList 0 := by
      rw [hlist, Function.update_of_ne (by decide)]
    have hagrees : Agrees ⟨0, m.kernel.destroyed p 1⟩ :=
      ⟨fun he => absurd he zero_ne_one, fun hl => absurd hl hdead⟩
    refine ⟨"", ⟨0, m.kernel.destroyed p 1⟩, ?_,
      ⟨h.scheduled.served hs, ?_, .inl rfl, hagrees, ?_⟩, rfl, ?_⟩
    · rw [react_killOne, if_neg (by rw [hon]; decide), hd]
      rfl
    · exact hshell ▸ h.shell
    · show m.kernel.activeProcessCount - 1 = 1
      rw [h.count, if_pos hon]
      rfl
    · exact congrArg Bitmap.freeCount (destroyed_pageFrameMap p m.kernel 1)

/-- **The timer** leaves both alone. -/
theorem timer_kept (h : Synced p m) (frame : InterruptFrame) :
    ∃ o m', react p (.timer frame) m = some (o, m') ∧ Synced p m' ∧
      m'.clockIsRunning = m.clockIsRunning ∧ m'.free = m.free := by
  obtain ⟨d, k', ht, hsched, hlive, hcount, hmap⟩ := h.scheduled.timer (.inr h.shell) frame
  have hagrees : Agrees ⟨m.clockIsRunning, k'⟩ := h.agrees.trans (hlive 1).symm
  refine ⟨"", ⟨m.clockIsRunning, k'⟩, ?_,
    ⟨hsched, (hlive 0).2 h.shell, h.flag, hagrees, ?_⟩, rfl, ?_⟩
  · show (timerInterrupt frame m.kernel).map _ = _
    rw [ht]
    rfl
  · exact hcount.trans h.count
  · exact congrArg Bitmap.freeCount hmap

/-- Two frames are left for every start that is. -/
theorem guarded_iff_starts (h : Synced p m) {n : ℕ} (hfree : m.free = 2 * n)
    (inputs : List Input) : Runs.Guarded (react p) (StaysAgreed p) inputs m ↔
      starts (m.clockIsRunning = 1) inputs ≤ n := by
  induction inputs generalizing m n with
  | nil => exact iff_of_true trivial (Nat.zero_le n)
  | cons i is ih =>
      cases i with
      | execClock stack =>
          by_cases hon : m.clockIsRunning = 1
          · have hr := execClock_running (p := p) hon stack
            rw [Runs.guarded_cons_of_eq hr ⟨_, hr, h.agrees⟩, ih h hfree, decide_eq_true hon,
              starts]
          · rw [decide_eq_false hon, starts]
            cases n with
            | zero =>
                obtain ⟨o, m', hr, hno⟩ := execClock_starved h hon hfree stack
                refine iff_of_false (fun hg => ?_) (Nat.not_succ_le_zero _)
                obtain ⟨r, hr', ha⟩ := hg.1
                obtain rfl : (o, m') = r := Option.some.inj (hr.symm.trans hr')
                exact hno ha
            | succ n =>
                obtain ⟨o, m', hr, h', hon', hfree'⟩ := execClock_started h hon (by omega) stack
                rw [Runs.guarded_cons_of_eq hr ⟨_, hr, h'.agrees⟩, ih (n := n) h' (by omega),
                  decide_eq_true hon', Nat.succ_le_succ_iff]
      | killOne =>
          obtain ⟨o, m', hr, h', hoff', hfree'⟩ := killOne_stopped h
          rw [Runs.guarded_cons_of_eq hr ⟨_, hr, h'.agrees⟩, ih h' (hfree'.trans hfree), starts,
            decide_eq_false (by rw [hoff']; decide)]
      | timer frame =>
          obtain ⟨o, m', hr, h', hflag, hfree'⟩ := timer_kept h frame
          rw [Runs.guarded_cons_of_eq hr ⟨_, hr, h'.agrees⟩, ih h' (hfree'.trans hfree), starts,
            hflag]

/-- **Shell and kernel agree about the clock** in just the runs that start it at most 14
times. -/
theorem clock_agrees_iff (p : Placement) :
    ∃ d k, kernelSetupShell p = some (d, k) ∧ Agrees ⟨0, k⟩ ∧
      ∀ inputs, Runs.Guarded (react p) (StaysAgreed p) inputs ⟨0, k⟩ ↔
        starts false inputs ≤ 14 := by
  obtain ⟨d, k, hs, hk⟩ := kernelSetupShell_started p
  have hagrees : Agrees ⟨0, k⟩ :=
    ⟨fun h => absurd h zero_ne_one, fun hl => absurd ((hk.live 1).1 hl) (by decide)⟩
  have hsynced : Synced p ⟨0, k⟩ :=
    ⟨hk.scheduled, (hk.live 0).2 rfl, .inl rfl, hagrees, hk.count⟩
  exact ⟨d, k, hs, hagrees, guarded_iff_starts hsynced (n := 14) hk.free⟩

/-- 14 times `exec clock` and `kill 1`, and one `exec clock` more. -/
def rounds : List Input :=
  (List.replicate 14 [.execClock 0, .killOne]).flatten ++ [.execClock 0]

/-- The 15th start is not noticed by the kernel, and the kill behind it goes through
`NULL`. -/
theorem not_clock_agrees_sample :
    ∃ r ∈ kernelSetupShell afterCode, ∃ t ∈ Runs.run (react afterCode) rounds ⟨0, r.2⟩,
      ¬Runs.Guarded (react afterCode) (StaysAgreed afterCode) rounds ⟨0, r.2⟩ ∧
      ¬Agrees t.2 ∧ (react afterCode .killOne t.2).isNone := by
  decide +kernel

end Shell
end Jatos
