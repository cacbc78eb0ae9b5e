/-
# Mounting again

The driver caches the table of clusters and writes it back at different points of
each branch.  In every run of requests that find their clusters and whose deletes
have an extension, whatever they answer, the disk has the table of the memory
when a request returns (`Usual`, `usual_step`).  So a mount loads the table that
the driver had, and since requests depend on nothing else in memory
(`Fat32/Agree.lean`), they answer as if there had been none
(`remount_equivalent`).
-/

import Jatos.Fat32.Agree
import Jatos.Fat32.Names

namespace Jatos
namespace Fat32

variable {r : Request} {s s' s₀ : State} {o : Reply} {op : Op} {ops : List Op} {fuel : ℕ}
  {mem : ℕ → UInt32}

/-- Requests with any names to live directories: writes find the clusters they
need, and deletes have an extension and do not find slot 0. -/
def Usual (s : State) : Op → Prop
  | .read r | .readDirectory r => LiveDir s r.parent
  | .write _ r => LiveDir s r.parent ∧ Fits r s
  | .delete _ r => LiveDir s r.parent ∧ r.ext ≠ 0 ∧
      (r.name ≠ 0 → findSlot (s.table r.parent) r.name ≠ some 0)

/-- What a run of usual requests keeps. -/
structure Settled (s : State) : Prop where
  sound : Sound s
  clean : Clean s
  stray : s.stray = false

/-- A usual request is a safe one. -/
theorem Usual.safe (hc : Clean s) (h : Usual s op) : Safe s op := by
  cases op with
  | read r => exact h
  | readDirectory r => exact h
  | write k r => exact ⟨h.1, Or.inl h.2⟩
  | delete peek r =>
      refine ⟨h.1, fun i hn hi => ⟨?_, hc.used h.1 hn hi, fun hx => absurd hx h.2.1⟩⟩
      rintro rfl
      exact h.2.2 hn hi

/-- A lookup of a live directory returns, and touches nothing. -/
theorem read_returns (h : Sound s) (hc : Clean s) (hp : LiveDir s r.parent) (hfuel : 512 ≤ fuel) :
    ∃ o, Fat32.read fuel r s = some (o, s) := by
  have hwf := h.toWellFormed
  by_cases hn : r.name = 0
  · exact ⟨_, read_empty_name hn⟩
  cases hi : findSlot (s.table r.parent) r.name with
  | none => exact ⟨_, read_missing hn hi⟩
  | some i =>
      by_cases hsize : (s.table r.parent i).filesize = 0
      · exact ⟨_, read_folder hn hi hsize⟩
      · have hself : i ≠ 0 := by
          rintro rfl
          exact hsize (hwf.self _ hp).2
        have he : LiveEntry s r.parent i := ⟨hp, hself, hc.used hp hn hi⟩
        obtain ⟨l, hl, -, hlt⟩ := hwf.chain _ _ he
        have hlen := hwf.chain_length_le he hl
        obtain ⟨buf', hread, -⟩ := readChain_eq r.bufferSize.toNat r.buf 0 hl
          (fun c hcl => (hlt c hcl).2) (by omega) (by omega : l.length ≤ fuel)
        exact ⟨_, (read_of_file hn hi hsize).trans hread⟩

/-- **One usual request** returns and leaves the volume settled. -/
theorem usual_step (h : Settled s) (hu : Usual s op) (hfuel : 512 ≤ fuel) :
    ∃ o s', exec fuel op s = some (o, s') ∧ Settled s' := by
  have hwf := h.sound.toWellFormed
  have hs := hu.safe h.clean
  cases op with
  | read r =>
      obtain ⟨o, hr⟩ := read_returns h.sound h.clean hu hfuel
      exact ⟨o, s, hr, h⟩
  | readDirectory r => exact ⟨_, s, rfl, h⟩
  | write k r =>
      obtain ⟨o, s', hw, he⟩ := write_effect hwf hs (by omega : 2 ≤ fuel)
      refine ⟨o, s', hw, he.sound hs.live h.sound, ?_, ?_⟩
      · cases he with
        | kept hk _ _ _ => exact hk.clean h.clean
        | made _ _ hm => exact hm.clean hwf h.clean
      · cases he with
        | kept _ _ _ hst => exact (hst fun _ hx => by cases hx).trans h.stray
        | made _ _ hm => exact hm.stray.trans h.stray
  | delete peek r =>
      rcases delete_effect hwf hs hfuel with ⟨c, s', hd, he⟩ | ⟨hx, -⟩
      · refine ⟨⟨c, r.buf⟩, s', by rw [exec, hd]; rfl, he.sound hs.live h.sound, ?_, ?_⟩
        · cases he with
          | kept hk _ _ _ => exact hk.clean h.clean
          | dropped _ _ _ _ hr => exact hr.clean hwf h.clean
        · cases he with
          | kept _ _ _ hst => exact (hst fun _ hx => by cases hx).trans h.stray
          | dropped _ _ _ _ hr => exact hr.stray.trans h.stray
      · exact absurd hx hu.2.1

/-- A format leaves a settled volume. -/
theorem createFat32_settled (hs : s.stray = false) : Settled (createFat32 s) :=
  ⟨createFat32_sound s, createFat32_clean s, (createFat32_stray s).trans hs⟩

/-- A mount with other memory leaves a state that agrees on the table. -/
theorem Settled.remount (h : Settled s) (mem : ℕ → UInt32) :
    isEmptyStorage ⟨s.disk, mem, false⟩ = false ∧
      Agree 512 s (initializeFilesystemFat32 ⟨s.disk, mem, false⟩) := by
  have hsig : isEmptyStorage ⟨s.disk, mem, false⟩ = false := by
    rw [isEmptyStorage, Bool.not_eq_false', sameBytes_iff]
    exact h.sound.boot
  have hk := initializeFilesystemFat32_kept h.sound.toMounted mem false
  refine ⟨hsig, hk.disk, hk.mem, ?_⟩
  rw [initializeFilesystemFat32, hsig]
  exact h.stray.symm

/-- **A remount makes no difference.**  Every usual run from a fresh volume
returns.  In the state it reaches the disk has the table of the memory and the
signature; a mount of that disk with any memory takes the branch that does not
format, loads the same table, and every later run that uses no index past the
table, as every usual run, answers alike after the mount and without it. -/
theorem remount_equivalent (hs : s₀.stray = false) (hfuel : 512 ≤ fuel)
    (hg : Runs.Guarded (exec fuel) Usual ops (createFat32 s₀)) :
    ∃ os s, Runs.run (exec fuel) ops (createFat32 s₀) = some (os, s) ∧
      s.cluster FAT_CLUSTER_NUMBER = s.fatTable ∧ s.disk 0 = fsSignature ∧
      ∀ mem, isEmptyStorage ⟨s.disk, mem, false⟩ = false ∧
        (initializeFilesystemFat32 ⟨s.disk, mem, false⟩).fatTable = s.fatTable ∧
        (∀ ops', Runs.Guarded (exec fuel) Usual ops' s →
          ∃ os' s', Runs.run (exec fuel) ops' s = some (os', s') ∧ s'.stray = false) ∧
        ∀ ops' os' s', Runs.run (exec fuel) ops' s = some (os', s') → s'.stray = false →
          ∃ t', Runs.run (exec fuel) ops' (initializeFilesystemFat32 ⟨s.disk, mem, false⟩) =
            some (os', t') := by
  have hstep : ∀ s op, Settled s → Usual s op →
      ∃ o s', exec fuel op s = some (o, s') ∧ Settled s' := fun s op h hu => usual_step h hu hfuel
  obtain ⟨os, s, hr, h⟩ := Runs.run_total hstep (createFat32_settled hs) hg
  refine ⟨os, s, hr, h.sound.fat, h.sound.boot, fun mem => ?_⟩
  obtain ⟨hsig, hagree⟩ := h.remount mem
  refine ⟨hsig, hagree.fatTable le_rfl, fun ops' hg' => ?_, fun ops' os' s' hr' hst => ?_⟩
  · obtain ⟨os', s', hr', h'⟩ := Runs.run_total hstep h hg'
    exact ⟨os', s', hr', h'.stray⟩
  · have hgood : ∀ s op o s', exec fuel op s = some (o, s') → s'.stray = false →
        s.stray = false := fun s op o s' hx => stray_false_of fun hst => stray_exec hst hx
    have hlock : ∀ s t op o s', Agree 512 s t → exec fuel op s = some (o, s') →
        s'.stray = false → ∃ t', exec fuel op t = some (o, t') ∧ Agree 512 s' t' :=
      fun s t op o s' hst hx hs' => exec_agree hst hx hs'
    obtain ⟨t', ht', -⟩ := Runs.run_lockstep hgood hlock hagree hr' hst
    exact ⟨t', ht'⟩

/-- A file is written to a blank volume, and the volume is mounted again. -/
theorem remount_equivalent_sample :
    ∃ os s, Runs.run (exec 512) [.write blankStack (request 2 0x61 0x78 3000)] (createFat32 blank) =
        some (os, s) ∧
      s.cluster FAT_CLUSTER_NUMBER = s.fatTable ∧ s.disk 0 = fsSignature ∧
      ∀ mem, isEmptyStorage ⟨s.disk, mem, false⟩ = false ∧
        (initializeFilesystemFat32 ⟨s.disk, mem, false⟩).fatTable = s.fatTable ∧
        (∀ ops', Runs.Guarded (exec 512) Usual ops' s →
          ∃ os' s', Runs.run (exec 512) ops' s = some (os', s') ∧ s'.stray = false) ∧
        ∀ ops' os' s', Runs.run (exec 512) ops' s = some (os', s') → s'.stray = false →
          ∃ t', Runs.run (exec 512) ops' (initializeFilesystemFat32 ⟨s.disk, mem, false⟩) =
            some (os', t') := by
  have hu : Usual (createFat32 blank) (.write blankStack (request 2 0x61 0x78 3000)) :=
    ⟨.root, createFat32_fits blank_zeroed (by decide)⟩
  exact remount_equivalent rfl le_rfl ⟨hu, fun _ _ _ => trivial⟩

end Fat32
end Jatos
