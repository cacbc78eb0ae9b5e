/-
# The shell at a prompt

`executeCommand` of `src/user-shell.c`, and a round of `main` once a line is typed.

A line is compared with the names of the commands one after the other; some branches
return and some fall through to the next comparison (`calls`).  No line makes two calls
(`calls_length_le_one`).

What the commands do to the tree of files and to the current directory is said of a `Desk`.
-/

import Jatos.Foundation.Runs
import Jatos.Shell.Clock
import Jatos.Shell.Listing
import Jatos.Shell.Mv
import Jatos.Shell.Remove

namespace Jatos
namespace Shell

open Fat32 Packed Process Walk

/-! ### A line -/

/-- The functions that `executeCommand` calls, with the arrays that it makes for them. -/
inductive Call
  | ls
  | ps
  | cd
  | cp
  | rm (filename : Bytes 8)
  | mv
  | cat (filename : Bytes 8)
  | clear
  | exec
  | find
  | kill
  | mkdir (foldername : Bytes 8)
  | tooLong (text : String)

/-- `memcmp(command, s, n) == 0`: behind its end a line has zeros. -/
def Begins (command s : List UInt8) : Prop := s <+: command

instance (command s : List UInt8) : Decidable (Begins command s) :=
  inferInstanceAs (Decidable (s <+: command))

/-- `if (length > 6)`. -/
def callsMkdir (command : List UInt8) : List Call :=
  if command.length > 6 ∧ Begins command [0x6D, 0x6B, 0x64, 0x69, 0x72, 0x20] then
    if command.length > 14 then [.tooLong "nama folder terlalu panjang\n"]
    else [.mkdir (nameOf (command.drop 6))]
  else []

/-- `if (length > 5)`, and what follows. -/
def callsFind (command : List UInt8) : List Call :=
  if command.length > 5 then
    if Begins command [0x66, 0x69, 0x6E, 0x64, 0x20] then [.find]
    else if Begins command [0x6B, 0x69, 0x6C, 0x6C] then .kill :: callsMkdir command
    else callsMkdir command
  else callsMkdir command

/-- `if (length > 4)`, and what follows. -/
def callsCat (command : List UInt8) : List Call :=
  if command.length > 4 then
    if Begins command [0x63, 0x61, 0x74, 0x20] then
      if command.length > 12 then [.tooLong "nama file terlalu panjang\n"]
      else [.cat (nameOf (command.drop 4))]
    else if Begins command [0x63, 0x6C, 0x65, 0x61, 0x72] then [.clear]
    else if Begins command [0x65, 0x78, 0x65, 0x63, 0x20] then .exec :: callsFind command
    else callsFind command
  else callsFind command

/-- `if (length > 3)`, and what follows. -/
def callsCd (command : List UInt8) : List Call :=
  if command.length > 3 then
    if Begins command [0x63, 0x64, 0x20] then .cd :: callsCat command
    else if Begins command [0x63, 0x70, 0x20] then .cp :: callsCat command
    else if Begins command [0x72, 0x6D, 0x20] then
      if command.length > 11 then [.tooLong "nama file terlalu panjang\n"]
      else [.rm (nameOf (command.drop 3))]
    else if Begins command [0x6D, 0x76, 0x20] then .mv :: callsCat command
    else callsCat command
  else []

/-- The calls of `executeCommand`, in turn. -/
def calls (command : List UInt8) : List Call :=
  (if Begins command [0x6C, 0x73] then [.ls]
    else if Begins command [0x70, 0x73] then [.ps] else []) ++ callsCd command

/-! ### The commands -/

/-- The shell with its disk and the kernel. -/
structure Terminal where
  volume : State
  session : Session
  machine : Machine

/-- What the stack holds under the locals of a command. -/
structure Locals where
  write : Stack
  cp : CopyStack
  mv : MoveStack
  find : ℕ → FindStack
  exec : Bytes 8
  readBuffer : Buffer

/-- What a command does to the screen: it prints, or clears it. -/
inductive Shown
  | text (text : String)
  | clear

/-- The lines that system call 10 prints for a process: its name, the two bytes of its
number, its state. -/
def processLines (pcb : ProcessControlBlock) : Option String :=
  if h : pcb.pid.toNat < 16 then
    some ("Process Name  : " ++ shownAs ((List.ofFn pcb.name).take 8) ++
      "\nProcess Id    : " ++ shownAs (List.ofFn (numbers ⟨pcb.pid.toNat, h⟩)) ++
      "\nProcess State : " ++
      (match pcb.state with
        | .noProcess => "NO_PROCESS"
        | .ready => "PROCESS_STATE_READY"
        | .running => "PROCESS_STATE_RUNNING"
        | .blocked => "PROCESS_STATE_BLOCKED") ++ "\n")
  else none

/-- System call 10, if no process has a number behind the table of numbers. -/
def processPrint (k : Kernel) : Option String :=
  (((List.finRange 16).filter fun i => (k.processList i).state ≠ .noProcess).mapM fun i =>
    processLines (k.processList i)).map String.join

variable (fuel : ℕ) (p : Placement)

/-- One of the calls. -/
def perform (locals : Locals) (command : List UInt8) (call : Call) (t : Terminal) :
    Option (Shown × Terminal) :=
  let onVolume := Option.map fun (r : String × State) => (Shown.text r.1, { t with volume := r.2 })
  let onMachine := Option.map fun (r : String × Machine) =>
    (Shown.text r.1, { t with machine := r.2 })
  match call with
  | .ls => some (.text (ls t.volume t.session), t)
  | .ps => (processPrint t.machine.kernel).map fun text => (.text text, t)
  | .cd =>
      let (text, session) := cd command t.volume t.session
      some (.text text, { t with session := session })
  | .cp => onVolume (cp fuel locals.write locals.cp command t.volume t.session)
  | .rm filename => onVolume (rm fuel filename t.volume t.session)
  | .mv => onVolume (mv locals.mv command t.volume t.session)
  | .cat filename => onVolume (cat fuel locals.readBuffer filename t.volume t.session)
  | .clear => some (.clear, t)
  | .exec => onMachine (exec p command locals.exec t.machine)
  | .find => (find fuel locals.find command t.volume).map fun text => (.text text, t)
  -- a longer number is written behind `pid`
  | .kill =>
      if command.length > 7 then none
      else onMachine (kill p (fun i => command.getD (i + 5) 0) t.machine)
  | .mkdir foldername => onVolume (mkdir fuel locals.write foldername t.volume t.session)
  | .tooLong text => some (.text text, t)

/-- `executeCommand`. -/
def Terminal.executeCommand (locals : Locals) (command : List UInt8) (t : Terminal) :
    Option (List Shown × Terminal) :=
  Runs.run (perform fuel p locals command) (calls command) t

/-- The round of `main` at the end of a line. -/
def Terminal.enter (locals : Locals) (command : List UInt8) (t : Terminal) :
    Option (List Shown × Terminal) :=
  (t.executeCommand fuel p locals command).map fun (shown, t) =>
    (.text "\n" :: shown ++ [.text (printTerminalText t.session)], t)

/-! ### No line makes two calls -/

variable {command : List UInt8}

/-- A command that begins with a text begins with its first two letters. -/
theorem Begins.initials {a b : UInt8} {s : List UInt8} (h : Begins command (a :: b :: s)) :
    command.take 2 = [a, b] := by
  obtain ⟨l, rfl⟩ := h
  rfl

/-- Only a command that begins with `mk` calls `mkdir`. -/
theorem callsMkdir_eq_nil (h : command.take 2 ≠ [0x6D, 0x6B]) : callsMkdir command = [] :=
  if_neg fun hc => h hc.2.initials

/-- A command that calls `find` begins with one of three pairs of letters. -/
theorem callsFind_eq_nil (h : command.take 2 ∉ [[0x66, 0x69], [0x6B, 0x69], [0x6D, 0x6B]]) :
    callsFind command = [] := by
  simp only [List.mem_cons, List.not_mem_nil, or_false, not_or] at h
  obtain ⟨hfind, hkill, hmkdir⟩ := h
  rw [callsFind, callsMkdir_eq_nil hmkdir]
  split_ifs with _ h₁ h₂
  · exact absurd h₁.initials hfind
  · exact absurd h₂.initials hkill
  all_goals rfl

/-- A command that calls `cat` begins with one of six pairs of letters. -/
theorem callsCat_eq_nil (h : command.take 2 ∉ [[0x63, 0x61], [0x63, 0x6C], [0x65, 0x78],
    [0x66, 0x69], [0x6B, 0x69], [0x6D, 0x6B]]) : callsCat command = [] := by
  simp only [List.mem_cons, List.not_mem_nil, or_false, not_or] at h
  obtain ⟨hcat, hclear, hexec, hfind, hkill, hmkdir⟩ := h
  have hrest : callsFind command = [] := callsFind_eq_nil (by simp [hfind, hkill, hmkdir])
  rw [callsCat, hrest]
  split_ifs with _ h₁ _ h₂ h₃
  · exact absurd h₁.initials hcat
  · exact absurd h₁.initials hcat
  · exact absurd h₂.initials hclear
  · exact absurd h₃.initials hexec
  all_goals rfl

/-- A command calls `mkdir` at most once. -/
theorem callsMkdir_length : (callsMkdir command).length ≤ 1 := by
  unfold callsMkdir
  split_ifs <;> simp

/-- A command calls `find` at most once. -/
theorem callsFind_length : (callsFind command).length ≤ 1 := by
  unfold callsFind
  split_ifs with _ _ h
  · exact le_rfl
  · rw [callsMkdir_eq_nil (by rw [h.initials]; decide)]
    exact le_rfl
  all_goals exact callsMkdir_length

/-- A command calls `cat` at most once. -/
theorem callsCat_length : (callsCat command).length ≤ 1 := by
  unfold callsCat
  split_ifs with _ _ _ _ h
  · exact le_rfl
  · exact le_rfl
  · exact le_rfl
  · rw [callsFind_eq_nil (by rw [h.initials]; decide)]
    exact le_rfl
  all_goals exact callsFind_length

/-- A command calls `cd` at most once. -/
theorem callsCd_length : (callsCd command).length ≤ 1 := by
  unfold callsCd
  split_ifs with _ h h _ _ h
  · rw [callsCat_eq_nil (by rw [h.initials]; decide)]
    exact le_rfl
  · rw [callsCat_eq_nil (by rw [h.initials]; decide)]
    exact le_rfl
  · exact le_rfl
  · exact le_rfl
  · rw [callsCat_eq_nil (by rw [h.initials]; decide)]
    exact le_rfl
  · exact callsCat_length
  · exact Nat.zero_le 1

/-- A line that begins like no command behind the first comparisons. -/
theorem callsCd_eq_nil (h : command.take 2 ∉ [[0x63, 0x64], [0x63, 0x70], [0x72, 0x6D],
    [0x6D, 0x76], [0x63, 0x61], [0x63, 0x6C], [0x65, 0x78], [0x66, 0x69], [0x6B, 0x69],
    [0x6D, 0x6B]]) : callsCd command = [] := by
  simp only [List.mem_cons, List.not_mem_nil, or_false, not_or] at h
  obtain ⟨hcd, hcp, hrm, hmv, hcat, hclear, hexec, hfind, hkill, hmkdir⟩ := h
  have hrest : callsCat command = [] :=
    callsCat_eq_nil (by simp [hcat, hclear, hexec, hfind, hkill, hmkdir])
  rw [callsCd, hrest]
  split_ifs with _ h₁ h₂ h₃ _ h₄
  · exact absurd h₁.initials hcd
  · exact absurd h₂.initials hcp
  · exact absurd h₃.initials hrm
  · exact absurd h₃.initials hrm
  · exact absurd h₄.initials hmv
  all_goals rfl

/-- **A line makes one call at most**, although some branches fall through. -/
theorem calls_length_le_one (command : List UInt8) : (calls command).length ≤ 1 := by
  unfold calls
  split_ifs with h h
  · rw [callsCd_eq_nil (by rw [h.initials]; decide)]
    exact le_rfl
  · rw [callsCd_eq_nil (by rw [h.initials]; decide)]
    exact le_rfl
  · exact callsCd_length

end Shell
end Jatos
