/-
# What `ps` lists

System call 10 prints the blocks of the process table that have a state, each with the text
that the table of numbers has for its `pid`.  What the user takes it for is a roster: a
process that is created gets as its number how many there are, one that is destroyed is
struck out, and the one that was dispatched last is running.

`ps` prints the roster (`ps_lists`), and never reads behind the table of numbers, in every
run from the boot in which destructions name processes, a creation finds the number free that
is next, with a frame, and switches start from a process.
-/

import Jatos.Shell.Terminal

namespace Jatos
namespace Shell

open Packed Process Cyclic

/-! ### The roster -/

/-- The name of each process, under its number, and which of them is running. -/
structure Roster where
  entry : Fin 16 → Option (List UInt8)
  running : Option (Fin 16)

/-- How many there are. -/
def Roster.size (r : Roster) : ℕ := (Finset.univ.filter fun slot => (r.entry slot).isSome).card

/-- What comes of an event. -/
inductive Roster.Step : Process.Event → Roster → Process.Outcome → Roster → Prop
  | created {r : Roster} {request : ReadRequest} {slot : Fin 16} (hslot : slot.val = r.size)
      (hfree : r.entry slot = none) :
      Step (.call (.create request)) r (.answered (.created PROCESS_CREATE_SUCCESS))
        { r with entry := Function.update r.entry slot (some (List.ofFn request.name)) }
  | refused {r : Roster} {request : ReadRequest} {code : ℤ} (hc : code ≠ PROCESS_CREATE_SUCCESS) :
      Step (.call (.create request)) r (.answered (.created code)) r
  | destroyed {r : Roster} {pid : UInt32} {slot : Fin 16} (hslot : slot.val = pid.toNat)
      (hlive : r.entry slot ≠ none) :
      Step (.call (.destroy pid)) r (.answered (.destroyed true))
        ⟨Function.update r.entry slot none, r.running.filter (· ≠ slot)⟩
  | dispatched {r : Roster} {e : Process.Event} {d : Dispatch} (he : ∀ c, e ≠ .call c)
      (hlive : r.entry d.slot ≠ none) : Step e r (.dispatched d) { r with running := some d.slot }

/-- The lines for a process. -/
def Roster.lines (r : Roster) (slot : Fin 16) (name : List UInt8) : String :=
  "Process Name  : " ++ shownAs name ++
    "\nProcess Id    : " ++ shownAs (List.ofFn (numbers slot)) ++ "\nProcess State : " ++
    (if r.running = some slot then "PROCESS_STATE_RUNNING" else "PROCESS_STATE_READY") ++ "\n"

/-- What `ps` prints for a roster. -/
def Roster.text (r : Roster) : String :=
  String.join ((List.finRange 16).filterMap fun slot => (r.entry slot).map (r.lines slot))

/-- When an event is in order. -/
def InTurn (k : Kernel) : Process.Event → Prop
  | .call c => OnLive k c ∧ CountIsFree k c
  | .switch => Anchored k
  | .timer _ => Anchored k

instance (k : Kernel) : (e : Process.Event) → Decidable (InTurn k e)
  | .call c => inferInstanceAs (Decidable (OnLive k c ∧ CountIsFree k c))
  | .switch => inferInstanceAs (Decidable (Anchored k))
  | .timer _ => inferInstanceAs (Decidable (Anchored k))

/-! ### The process table -/

variable {p : Placement} {k k' : Kernel} {r : Roster} {e : Process.Event} {slot next : Fin 16}
  {request : ReadRequest} {pid : UInt32}

/-- The eight characters that are printed. -/
def shortName (pcb : ProcessControlBlock) : List UInt8 := (List.ofFn pcb.name).take 8

/-- The roster of the table. -/
structure Tabled (p : Placement) (k : Kernel) (r : Roster) : Prop where
  scheduled : Scheduled p k
  counted : k.activeProcessCount.toNat = k.liveSlots.card
  entry : ∀ slot, r.entry slot =
    if (k.processList slot).Live then some (shortName (k.processList slot)) else none
  running : ∀ slot, r.running = some slot ↔ k.Running slot

/-- A slot is on the roster if and only if its process is live. -/
theorem Tabled.live_iff (h : Tabled p k r) : r.entry slot ≠ none ↔ (k.processList slot).Live := by
  rw [h.entry]
  split_ifs with hl <;> simp [hl]

/-- The roster is as long as the kernel counts. -/
theorem Tabled.size (h : Tabled p k r) : r.size = k.activeProcessCount.toNat := by
  rw [h.counted, Roster.size, Kernel.liveSlots]
  congr 1
  ext slot
  rw [Finset.mem_filter, Finset.mem_filter, Option.isSome_iff_ne_none, h.live_iff]

/-- Where the roster is kept, the table is consistent. -/
theorem Tabled.consistent (h : Tabled p k r) : Consistent k where
  counted := h.counted
  numbered slot hl := (h.scheduled.ledger.numbered slot).live hl
  distinct slot slot' hl hl' he := Fin.ext
    (((h.scheduled.ledger.numbered slot).live hl).symm.trans
      (he ▸ (h.scheduled.ledger.numbered slot').live hl'))

/-- The name printed is the one that was asked for. -/
theorem shortName_setUp (pcb : ProcessControlBlock) (request : ReadRequest)
    (pageDir pIndex : UInt32) :
    shortName (pcb.setUp request pageDir pIndex) = List.ofFn request.name := by
  apply List.ext_getElem
  · simp [shortName]
  · intro i h₁ h₂
    simp [shortName, ProcessControlBlock.setUp]

/-- A block is replaced. -/
theorem Tabled.update (h : Tabled p k r) {pcb : ProcessControlBlock}
    (hk : k'.processList = Function.update k.processList slot pcb) (slot' : Fin 16) :
    Function.update r.entry slot (if pcb.Live then some (shortName pcb) else none) slot' =
      if (k'.processList slot').Live then some (shortName (k'.processList slot')) else none := by
  rw [hk]
  by_cases hne : slot' = slot
  · rw [hne, Function.update_self, Function.update_self]
  · rw [Function.update_of_ne hne, Function.update_of_ne hne, h.entry]

/-- Replacing a process by one that does not run leaves the others as they run. -/
theorem running_update {pcb : ProcessControlBlock} (hpcb : pcb.state ≠ .running)
    (hk : k'.processList = Function.update k.processList slot pcb) (slot' : Fin 16) :
    k'.Running slot' ↔ k.Running slot' ∧ slot' ≠ slot := by
  unfold Kernel.Running
  rw [hk]
  by_cases hne : slot' = slot
  · rw [hne, Function.update_self]
    exact iff_of_false hpcb fun hr => hr.2 rfl
  · rw [Function.update_of_ne hne]
    exact (and_iff_left hne).symm

/-- Saving the context changes no name. -/
theorem saved_name (e : Process.Event) (k : Kernel) (slot : Fin 16) :
    ((e.saved k).processList slot).name = (k.processList slot).name := by
  match e with
  | .timer frame =>
      show ((schedulerSaveContextToCurrentRunningPcb _ k).processList slot).name = _
      rw [saveContext_apply]
  | .call _ => rfl
  | .switch => rfl

/-- A call that is served is handled. -/
theorem handle_of_serve {c : Process.Call} {a : Process.Answer}
    (h : serve p c k = some (a, k')) :
    handle p (.call c) k = some (.answered a, k') := by
  rw [handle, h]
  rfl

/-! ### One event -/

/-- A creation puts its process on the roster. -/
theorem Tabled.create (h : Tabled p k r) (hfree : CountIsFree k (.create request)) :
    ∃ o k' r', handle p (.call (.create request)) k = some (o, k') ∧
      Roster.Step (.call (.create request)) r o r' ∧ Tabled p k' r' := by
  rcases serve_create h.scheduled.ledger.kept.stocked request with
    ⟨-, ha, hzero⟩ | ⟨a, k', hs, hserved⟩
  · exact absurd hzero (hfree ha).1.ne'
  have hnext := handle_of_serve hs
  have hscheduled := h.scheduled.served hs
  cases hserved with
  | refused _ hc => exact ⟨_, _, r, hnext, .refused hc, h⟩
  | @created _ slot i f g ht =>
      have hdead := (hfree ht.accepted).2 _ ht.slot
      have hcons := h.consistent.created h.scheduled.ledger ht hdead
      refine ⟨_, _, _, hnext, .created (ht.slot.trans h.size.symm)
        (by_contra fun hne => hdead (h.live_iff.1 hne)), hscheduled, hcons.counted, fun slot' => ?_,
        fun slot' => ?_⟩
      · rw [← h.update rfl, if_pos (live_setUp _ _ _ _), shortName_setUp]
      · rw [running_update (by exact ProcessState.noConfusion) rfl, ← h.running]
        refine ⟨fun hr => ⟨hr, ?_⟩, And.left⟩
        rintro rfl
        exact hdead ((h.running _).1 hr).live

/-- A destruction takes its process off the roster. -/
theorem Tabled.destroy (h : Tabled p k r) (hlive : OnLive k (.destroy pid)) :
    ∃ o k' r', handle p (.call (.destroy pid)) k = some (o, k') ∧
      Roster.Step (.call (.destroy pid)) r o r' ∧ Tabled p k' r' := by
  obtain ⟨slot, hlive, hpid⟩ := hlive
  have hledger := h.scheduled.ledger
  have hslot : slot.val = pid.toNat := hpid ▸ ((hledger.numbered slot).live hlive).symm
  have hs : serve p (.destroy pid) k = some (.destroyed true, k.destroyed p slot) := by
    rw [serve, destroy_found hledger.kept.pid hslot (hledger.unlisted slot) hpid]
    rfl
  refine ⟨_, _, _, handle_of_serve hs, .destroyed hslot (h.live_iff.2 hlive), h.scheduled.served hs,
    (h.consistent.destroyed hledger hlive).counted, fun slot' => ?_, fun slot' => ?_⟩
  · rw [← h.update rfl, if_neg not_live_zero]
  · rw [running_update (by exact ProcessState.noConfusion) rfl, ← h.running,
      Option.filter_eq_some_iff, decide_eq_true_iff]

/-- A switch, from the state in which the event has saved a context. -/
theorem Tabled.dispatch (h : Tabled p k r) (he : ∀ c, e ≠ .call c) (ha : Anchored k) :
    ∃ o k' r', handle p e k = some (o, k') ∧ Roster.Step e r o r' ∧ Tabled p k' r' := by
  have hsaved := h.scheduled.event_saved e
  have hanchored := (anchored_saved e k).2 ha
  obtain ⟨next, hfind, hswitch⟩ := switch_eq (e.saved k)
  obtain ⟨hlive, hscheduled⟩ := hsaved.switched hanchored hfind
  have hnext : handle p e k = some (.dispatched ⟨next, ((e.saved k).processList next).context⟩,
      (e.saved k).switched (e.saved k).idxRun next) := by
    cases e with
    | call c => exact absurd rfl (he c)
    | switch => exact congrArg (Option.map _) hswitch
    | timer frame => exact congrArg (Option.map _) hswitch
  have hsame : ∀ slot, (((e.saved k).switched (e.saved k).idxRun next).processList slot).Live ↔
      (k.processList slot).Live := by
    intro slot
    rw [switched_live (hanchored.live hsaved.one) hlive]
    unfold ProcessControlBlock.Live
    rw [saved_state]
  have hname : ∀ slot, shortName
      (((e.saved k).switched (e.saved k).idxRun next).processList slot) =
        shortName (k.processList slot) := by
    intro slot
    rw [onlyStates_switched, shortName, saved_name]
    rfl
  refine ⟨_, _, _, hnext, .dispatched he ?_, hscheduled, ?_, fun slot => ?_, fun slot => ?_⟩
  · refine h.live_iff.2 ?_
    unfold ProcessControlBlock.Live at hlive ⊢
    rwa [saved_state] at hlive
  · show (e.saved k).activeProcessCount.toNat = _
    rw [saved_count, h.counted, Kernel.liveSlots, Kernel.liveSlots]
    simp only [hsame]
  · rw [hname, h.entry]
    exact if_congr (hsame slot).symm rfl rfl
  · rw [switched_running hsaved.one]
    exact Option.some_inj.trans eq_comm

/-- Whatever happens in turn, the roster is kept. -/
theorem Tabled.handled (h : Tabled p k r) (ho : InTurn k e) :
    ∃ o k' r', handle p e k = some (o, k') ∧ Roster.Step e r o r' ∧ Tabled p k' r' := by
  cases e with
  | call c =>
      cases c with
      | create request => exact h.create ho.2
      | destroy pid => exact h.destroy ho.1
  | switch => exact h.dispatch (fun _ => nofun) ho
  | timer frame => exact h.dispatch (fun _ => nofun) ho

/-! ### The system call -/

/-- Some elements are mapped, each to something. -/
theorem mapM_filter {α β : Type} {q : α → Prop} [DecidablePred q] {f : α → Option β}
    {g : α → Option β} (hin : ∀ a, q a → f a = g a ∧ (g a).isSome) (hout : ∀ a, ¬q a → g a = none)
    (l : List α) : (l.filter q).mapM f = some (l.filterMap g) := by
  induction l with
  | nil => rfl
  | cons a l ih =>
      by_cases hq : q a
      · obtain ⟨hf, hsome⟩ := hin a hq
        obtain ⟨b, hb⟩ := Option.isSome_iff_exists.1 hsome
        rw [List.filter_cons, if_pos (decide_eq_true hq), List.mapM_cons, hf, hb, ih,
          List.filterMap_cons_some hb]
        rfl
      · rw [List.filter_cons, if_neg (by simpa using hq), ih,
          List.filterMap_cons_none (hout a hq)]

/-- A process is printed as it stands in the roster. -/
theorem Tabled.processLines (h : Tabled p k r) (hlive : (k.processList slot).Live) :
    processLines (k.processList slot) = some (r.lines slot (shortName (k.processList slot))) := by
  have hpid := (h.scheduled.ledger.numbered slot).live hlive
  have hlt : (k.processList slot).pid.toNat < 16 := hpid ▸ slot.isLt
  have hslot : (⟨(k.processList slot).pid.toNat, hlt⟩ : Fin 16) = slot := Fin.ext hpid
  have hrunning := h.running slot
  unfold Kernel.Running at hrunning
  unfold Shell.processLines Roster.lines shortName
  cases hs : (k.processList slot).state with
  | noProcess => exact absurd hs hlive
  | blocked => exact absurd hs (h.scheduled.unblocked slot)
  | running => simp only [dif_pos hlt, hslot, if_pos (hrunning.2 hs)]
  | ready =>
      have hnot : r.running ≠ some slot := fun hr =>
        ProcessState.noConfusion (hs.symm.trans (hrunning.1 hr))
      simp only [dif_pos hlt, hslot, if_neg hnot]

/-- **System call 10** prints the roster. -/
theorem Tabled.processPrint (h : Tabled p k r) : processPrint k = some r.text := by
  have hmap := mapM_filter (q := fun slot => (k.processList slot).Live)
    (f := fun slot => Shell.processLines (k.processList slot))
    (g := fun slot => (r.entry slot).map (r.lines slot)) (fun slot hl => ?_) (fun slot hd => ?_)
    (List.finRange 16)
  · exact congrArg (Option.map String.join) hmap
  · rw [h.entry, if_pos hl, h.processLines hl]
    exact ⟨rfl, rfl⟩
  · rw [h.entry, if_neg hd]
    rfl

/-! ### Runs -/

/-- No process. -/
def Roster.empty : Roster := ⟨fun _ => none, none⟩

/-- At the boot the roster is empty. -/
theorem tabled_boot (p : Placement) : Tabled p (Kernel.boot p) .empty where
  scheduled := boot_scheduled p
  counted := (boot_consistent p).counted
  entry _ := (if_neg not_live_zero).symm
  running _ := iff_of_false nofun nofun

/-- **`ps` lists the processes.**  From the boot on, every run of creations, destructions,
switches and timer interrupts that are in order comes to its end, with the outcomes that the
roster allows, and system call 10 then prints the roster. -/
theorem ps_lists (p : Placement) (events : List Process.Event) :
    ∀ k₀ ∈ kernelSetup p, Runs.Guarded (handle p) InTurn events k₀ →
      ∃ os k r, Runs.run (handle p) events k₀ = some (os, k) ∧
        Runs.Trace Roster.Step events .empty os r ∧ processPrint k = some r.text := by
  intro k₀ hk hg
  obtain rfl := Option.some.inj ((kernelSetup_eq p).symm.trans hk)
  have hstep : ∀ k r e, Tabled p k r → InTurn k e →
      ∃ o k' r', handle p e k = some (o, k') ∧ Roster.Step e r o r' ∧ Tabled p k' r' :=
    fun k r e h ho => h.handled ho
  obtain ⟨os, k, r, hrun, htrace, h⟩ := Runs.run_refines hstep (tabled_boot p) hg
  exact ⟨os, k, r, hrun, htrace, h.processPrint⟩

/-- The shell creates a process, which runs and is destroyed, and another one. -/
def coming : List Process.Event :=
  [.call (.create shell), .switch, .call (.create program), .timer tick, .timer tick,
    .call (.destroy 1), .timer tick, .call (.create program)]

/-- Processes come and go, and `ps` prints those that are left. -/
theorem ps_lists_sample : ∃ os k r,
    Runs.run (handle afterCode) coming (Kernel.boot afterCode) = some (os, k) ∧
      Runs.Trace Roster.Step coming .empty os r ∧ processPrint k = some r.text :=
  ps_lists afterCode coming _ (kernelSetup_eq afterCode) (by decide +kernel)

end Shell
end Jatos
