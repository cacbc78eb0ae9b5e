/-
# What is deleted stays deleted

Every lookup of the driver compares names alone, and `write` never asks whether a
name is taken.  The file branch of `delete` clears the slot that it found, so a
second slot of the name answers from then on (`not_final_sample`).  In the runs
that do not go through the folder branch, which replaces the parent's table as a
whole, a delete is final exactly when no other slot bears the name
(`delete_final_iff`).
-/

import Jatos.Fat32.Refinement

namespace Jatos
namespace Fat32

open Packed

variable {r : Request} {s s' s₀ s₁ : State} {o : Reply} {op : Op} {ops : List Op}
  {os : List Reply} {peek : ℕ → Option UInt8} {d : ℕ} {n : Bytes 8} {fuel : ℕ}

/-- Nothing is found under the name, and looking changes nothing. -/
def Gone (fuel : ℕ) (s : State) (d : ℕ) (n : Bytes 8) : Prop :=
  ∀ r : Request, r.parent = d → r.name = n →
    Fat32.read fuel r s = some (⟨3, r.buf⟩, s) ∧
    (r.bufferSize.toNat = CLUSTER_SIZE → readDirectory r s = ⟨2, r.buf⟩) ∧
    ∀ peek, Fat32.delete fuel peek r s = some (1, s)

/-- A request of a run in which the directory stays and no write creates the
name in it. -/
def Leaves (fuel : ℕ) (d : ℕ) (n : Bytes 8) (s : State) (op : Op) : Prop :=
  Safe s op ∧ LiveDir s d ∧ ∀ k r o s', op = .write k r → r.parent = d → r.name = n →
    exec fuel op s = some (o, s') → o.code ≠ 0

/-- A name that no slot has is gone. -/
theorem Unnamed.gone (h : Unnamed s d n) (hn : n ≠ 0) : Gone fuel s d n := by
  rintro r rfl rfl
  have hi := h.not_found
  refine ⟨read_missing hn hi, fun hsize => ?_, fun peek => delete_missing hn hi⟩
  simp only [readDirectory, hsize, ne_eq, not_true_eq_false, if_false, hi]

/-- Where a name is gone, no slot has it. -/
theorem Gone.unnamed (h : Gone fuel s r.parent r.name) : Unnamed s r.parent r.name := by
  have hdir := (h { r with bufferSize := 2048 } rfl rfl).2.1 rfl
  cases hi : findSlot (s.table r.parent) r.name with
  | none => exact findSlot_eq_none_iff.1 hi
  | some i =>
      -- a slot of that name would make `read_directory` answer 0 or 1
      have hcode := congrArg Reply.code hdir
      have hsize : (2048 : UInt32).toNat = 2048 := rfl
      change (readDirectory { r with bufferSize := 2048 } s).code = 2 at hcode
      rw [readDirectory, if_neg (by simp [hsize])] at hcode
      have hi' :
          findSlot (s.table (Request.parent { r with bufferSize := 2048 })) r.name = some i := hi
      simp only [hi'] at hcode
      split_ifs at hcode
      · exact absurd hcode (by decide : ¬(1 : ℤ) = 2)
      · exact absurd hcode (by decide : ¬(0 : ℤ) = 2)

/-- **One request** that leaves the name alone. -/
theorem Effect.unnamed (he : Effect s op o s') (h : WellFormed s) (hn : n ≠ 0)
    (hx : exec fuel op s = some (o, s')) (hl : Leaves fuel d n s op) (hd : LiveDir s' d)
    (hs : Unnamed s d n) : Unnamed s' d n := by
  obtain ⟨-, hlive, hwrite⟩ := hl
  cases he with
  | kept hk _ _ _ => exact hk.unnamed hs
  | @made k r _ e F _ hcode _ hm =>
      refine hm.unnamed h hlive ?_ hs
      rintro ⟨rfl, rfl⟩
      exact hwrite k r o s' rfl rfl rfl hx hcode
  | dropped _ _ _ _ hr => exact hr.unnamed h hd hn hs

/-- **Every run** that leaves the name alone. -/
theorem run_unnamed (hfuel : 512 ≤ fuel) (hn : n ≠ 0) (h : Sound s) (hs : Unnamed s d n)
    (hg : Runs.Guarded (exec fuel) (Leaves fuel d n) ops s)
    (hr : Runs.run (exec fuel) ops s = some (os, s')) (hd : LiveDir s' d) : Unnamed s' d n := by
  have hinv : Sound s' ∧ (LiveDir s' d → Unnamed s' d n) := by
    refine Runs.run_invariant (I := fun s => Sound s ∧ (LiveDir s d → Unnamed s d n))
      (fun s op o s' hi hl hx => ?_) ⟨h, fun _ => hs⟩ hg hr
    have hwf := hi.1.toWellFormed
    have he := exec_effect hwf hl.1 hfuel hx
    exact ⟨he.sound hl.1.live hi.1, fun hd => he.unnamed hwf hn hx hl hd (hi.2 hl.2.1)⟩
  exact hinv.2 hd

/-- **A safe delete that answers 0 dropped the entry that it found.** -/
theorem exec_dropped (h : WellFormed s) (hs : Safe s (.delete peek r)) (hfuel : 512 ≤ fuel)
    (hx : exec fuel (.delete peek r) s = some (o, s')) (hcode : o.code = 0) :
    r.name ≠ 0 ∧ ∃ i F, findSlot (s.table r.parent) r.name = some i ∧ Dropped r i F s s' := by
  cases exec_effect h hs hfuel hx with
  | kept _ _ hc _ => exact absurd hcode (hc peek r rfl)
  | dropped _ hn _ hi hr => exact ⟨hn, _, _, hi, hr⟩

/-- What a delete must find for its name to disappear. -/
theorem Dropped.unnamed_iff {i : Fin 64} {F : List ℕ} (hr : Dropped r i F s s') (hn : r.name ≠ 0)
    (hi : findSlot (s.table r.parent) r.name = some i) : Unnamed s' r.parent r.name ↔
      ∀ k, (s.table r.parent k).name = r.name → findSlot (s.table r.parent) r.name = some k := by
  have hslot : ∀ k, k ≠ i → s'.table r.parent k = s.table r.parent k := fun k hk => by
    rw [hr.parent, Function.update_of_ne hk]
  constructor
  · intro hu k hk
    by_cases hki : k = i
    · rw [hki]
      exact hi
    · exact absurd (hslot k hki ▸ hk) (hu k)
  · intro honly k hk
    by_cases hki : k = i
    · rw [hki, hr.slot_eq] at hk
      exact hn hk.symm
    · rw [hslot k hki] at hk
      exact hki (Option.some.inj ((honly k hk).symm.trans hi))

/-- **When a delete is final.**  In every safe run, a delete that answers 0 is
final, as long as the directory stays and the name is not written again, if and
only if no other slot bore the name. -/
theorem delete_final_iff (hfuel : 512 ≤ fuel)
    (hg : Runs.Guarded (exec fuel) Safe ops (createFat32 s₀))
    (hr : Runs.run (exec fuel) ops (createFat32 s₀) = some (os, s))
    (hs : Safe s (.delete peek r)) (hx : exec fuel (.delete peek r) s = some (o, s₁))
    (hcode : o.code = 0) :
    (∀ ops' os' s', Runs.Guarded (exec fuel) (Leaves fuel r.parent r.name) ops' s₁ →
      Runs.run (exec fuel) ops' s₁ = some (os', s') → LiveDir s' r.parent →
        Gone fuel s' r.parent r.name) ↔
      ∀ k, (s.table r.parent k).name = r.name → findSlot (s.table r.parent) r.name = some k := by
  have h : Sound s := run_sound (fun _ _ _ hs => hs) hfuel (createFat32_sound s₀) hg hr
  have hwf := h.toWellFormed
  obtain ⟨hn, i, F, hi, hdr⟩ := exec_dropped hwf hs hfuel hx hcode
  have h₁ : Sound s₁ := hdr.sound h
  rw [← hdr.unnamed_iff hn hi]
  constructor
  · intro hfinal
    exact (hfinal [] [] s₁ trivial rfl (hdr.parent_live hwf)).unnamed
  · intro hu ops' os' s' hg' hr' hlive
    exact (run_unnamed hfuel hn h₁ hu hg' hr' hlive).gone hn

/-- The condition at a file that was just written to a blank volume. -/
theorem delete_final_iff_sample :
    ∃ os s s₁ o, Runs.run (exec 512) [.write blankStack (request 2 0x61 0x78 3000)]
        (createFat32 blank) = some (os, s) ∧
      exec 512 (.delete (fun _ => none) (request 2 0x61 0x78 3000)) s = some (o, s₁) ∧
      ((∀ ops' os' s',
          Runs.Guarded (exec 512) (Leaves 512 2 (request 2 0x61 0x78 3000).name) ops' s₁ →
          Runs.run (exec 512) ops' s₁ = some (os', s') → LiveDir s' 2 →
            Gone 512 s' 2 (request 2 0x61 0x78 3000).name) ↔
        ∀ k, (s.table 2 k).name = (request 2 0x61 0x78 3000).name →
          findSlot (s.table 2) (request 2 0x61 0x78 3000).name = some k) := by
  have ht := createFat32_tidy blank
  have hw : Admits (createFat32 blank) (.write blankStack (request 2 0x61 0x78 3000)) :=
    createFat32_admits blank_zeroed rfl (by decide) (by decide) (by decide)
  obtain ⟨o, j, e, F, s, hx, -, -, ht'⟩ := write_admitted ht hw (le_refl 512)
  have hd := admits_delete_written (fun _ => none) ht hw (by decide) (by decide) le_rfl hx
  obtain ⟨o', i, F', s₁, hx', hcode, -⟩ := delete_admitted ht' hd (le_refl 512)
  have hr : Runs.run (exec 512) [.write blankStack (request 2 0x61 0x78 3000)]
      (createFat32 blank) = some ([o], s) := Runs.run_cons_eq hx rfl
  have hg : Runs.Guarded (exec 512) Safe [.write blankStack (request 2 0x61 0x78 3000)]
      (createFat32 blank) := ⟨hw.safe ht, fun _ _ _ => trivial⟩
  exact ⟨_, s, s₁, o', hr, hx', delete_final_iff le_rfl hg hr (hd.safe ht') hx' hcode⟩

/-- A file of one name and extension is written twice to a blank volume and deleted
once; all three requests answer 0, and `read` still finds the name and answers 0. -/
theorem not_final_sample :
    (Runs.run (exec 512) [.write blankStack (request 2 0x61 0x78 3),
        .write blankStack (request 2 0x61 0x78 3),
        .delete (fun _ => none) (request 2 0x61 0x78 3), .read (request 2 0x61 0x78 3)]
      (createFat32 blank)).map (fun x => x.1.map Reply.code) = some [0, 0, 0, 0] := by
  decide +kernel

end Fat32
end Jatos
