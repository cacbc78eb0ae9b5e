/-
# The root and the self-entries

Slot 0 of a directory's table carries the directory's own name and the cluster
of the directory above, and `delete` searches from slot 0 on: a delete of a
directory's own name frees the directory above it, and for the root the root
itself (`not_reserved_sample`).  As long as no request does that, and the writes
find their clusters, the reserved entries, the boot sector and the self-entries
stay (`reserved_after_run`).
-/

import Jatos.Fat32.Boot

namespace Jatos
namespace Fat32

variable {r : Request} {s s' s₀ : State} {o : Reply} {op : Op} {ops : List Op} {os : List Reply}
  {d : ℕ} {i : Fin 64} {F : List ℕ} {fuel : ℕ}

/-- The reserved entries, the boot sector, the root's cluster and the
self-entries are in place. -/
structure InPlace (s : State) : Prop where
  entry0 : s.mem 0 = CLUSTER_0_VALUE
  entry1 : s.mem 1 = CLUSTER_1_VALUE
  entry2 : s.mem 2 = FAT32_FAT_END_OF_FILE
  boot : s.disk 0 = fsSignature
  root : ∀ d k l, LiveEntry s d k → EntryChain s d k l → ROOT_CLUSTER_NUMBER ∉ l
  used : ∀ d, LiveDir s d → (s.table d 0).Used
  self : SelfEntries s

/-- A request spares the directory it is addressed to, the directory above that
one, and slot 0 of every directory that stays. -/
structure Spares (s : State) (op : Op) (s' : State) : Prop where
  parent : s'.mem op.request.parent ≠ FAT32_FAT_EMPTY_ENTRY
  above : s'.mem (s.table op.request.parent 0).cluster ≠ FAT32_FAT_EMPTY_ENTRY
  slot : ∀ d, LiveDir s d → LiveDir s' d → s'.table d 0 = s.table d 0

/-- On a sound volume everything reserved is in place. -/
theorem Sound.inPlace (h : Sound s) : InPlace s where
  entry0 := h.entry0
  entry1 := h.entry1
  entry2 := h.root
  boot := h.boot
  root d k l he hl hmem := absurd (h.chain_range he hl _ hmem).1 (by decide)
  used d hd := (h.self d hd).1
  self := h.toSelfEntries

/-- The directory above a live directory: the root's is the root. -/
theorem Sound.above (h : Sound s) (hd : LiveDir s d) :
    (s.table d 0).cluster = ROOT_CLUSTER_NUMBER ∨
      ∃ d' k, LiveEntry s d' k ∧ (s.table d' k).filesize = 0 ∧ (s.table d' k).cluster = d ∧
        (s.table d 0).cluster = d' := by
  obtain rfl | ⟨d', k, he, h0, rfl⟩ := hd.cases
  · exact Or.inl h.atRoot.2
  · exact Or.inr ⟨d', k, he, h0, rfl, (h.atChild d' k he h0).2⟩

/-- In a sound volume the cluster that a folder's own entry names is a live folder's. -/
theorem Sound.above_live (h : Sound s) (hd : LiveDir s d) : LiveDir s (s.table d 0).cluster := by
  rcases h.above hd with hr | ⟨d', k, he, -, -, hd'⟩
  · rw [hr]
    exact .root
  · rw [hd']
    exact he.dir

/-- The cluster of the directory above is not on the chain of an entry. -/
theorem Dropped.above_notMem (hr : Dropped r i F s s') (h : Sound s) :
    (s.table r.parent 0).cluster ∉ F := by
  have hwf := h.toWellFormed
  rcases h.above hr.entry.dir with hroot | ⟨d', k, he, h0, hd, hd'⟩
  · rw [hroot]
    exact fun hmem => absurd (hr.range hwf _ hmem).1 (by decide)
  · rw [hd']
    exact hwf.grandparent_notMem hr.entry hr.chain he h0 hd

/-- **One safe request.** -/
theorem Effect.spares (he : Effect s op o s') (h : Sound s) (hp : LiveDir s op.request.parent) :
    Spares s op s' := by
  have hwf := h.toWellFormed
  have hup := h.above_live hp
  have hup0 := hwf.live_ne_empty hup
  have hp0 := hwf.live_ne_empty hp
  have hlt := hwf.live_range hp
  have hlt' := hwf.live_range hup
  constructor
  case parent =>
    cases he with
    | kept hk _ _ _ => rwa [hk.mem _ hlt.2]
    | made _ _ hm => rwa [hm.mem _ hlt.2 (hm.live_notMem hwf hp)]
    | dropped _ _ _ _ hr =>
        rw [hr.mem _ hlt.2]
        exact ne_of_eq_of_ne (if_neg (hr.parent_notMem hwf)) hp0
  case above =>
    cases he with
    | kept hk _ _ _ => rwa [hk.mem _ hlt'.2]
    | made _ _ hm => rwa [hm.mem _ hlt'.2 (hm.live_notMem hwf hup)]
    | dropped _ _ _ _ hr =>
        rw [hr.mem _ hlt'.2]
        exact ne_of_eq_of_ne (if_neg (hr.above_notMem h)) hup0
  case slot =>
    intro d hd hd'
    cases he with
    | kept hk _ _ _ => rw [hk.table]
    | made _ _ hm => exact hm.table_used hwf hd (h.self d hd).1
    | dropped _ _ _ _ hr => exact hr.slot_zero hwf hd'

/-- **The root and the self-entries survive every safe run**, and no request of
it frees the directory it is addressed to or the one above. -/
theorem reserved_after_run (hfuel : 512 ≤ fuel)
    (hg : Runs.Guarded (exec fuel) Safe ops (createFat32 s₀))
    (hr : Runs.run (exec fuel) ops (createFat32 s₀) = some (os, s)) :
    InPlace s ∧ ∀ op o s', Safe s op → exec fuel op s = some (o, s') → Spares s op s' := by
  have h : Sound s := run_sound (fun _ _ _ hs => hs) hfuel (createFat32_sound s₀) hg hr
  refine ⟨h.inPlace, fun op o s' hs hx => ?_⟩
  exact (exec_effect h.toWellFormed hs hfuel hx).spares h hs.live

/-- In a blank volume, after a file of two clusters. -/
theorem reserved_after_run_sample :
    ∃ os s, Runs.run (exec 512) [.write blankStack (request 2 0x61 0x78 3000)] (createFat32 blank) =
        some (os, s) ∧
      InPlace s ∧ ∀ op o s', Safe s op → exec 512 op s = some (o, s') → Spares s op s' := by
  have hs : Safe (createFat32 blank) (.write blankStack (request 2 0x61 0x78 3000)) :=
    ⟨.root, Or.inl (createFat32_fits blank_zeroed (by decide))⟩
  have hg : Runs.Guarded (exec 512) Safe [.write blankStack (request 2 0x61 0x78 3000)]
      (createFat32 blank) := ⟨hs, fun _ _ _ => trivial⟩
  obtain ⟨o, s, hw, -⟩ := write_effect (createFat32_sound blank).toWellFormed hs
    (by decide : 2 ≤ 512)
  have hr : Runs.run (exec 512) [.write blankStack (request 2 0x61 0x78 3000)]
      (createFat32 blank) = some ([o], s) := Runs.run_cons_eq hw rfl
  exact ⟨_, s, hr, reserved_after_run le_rfl hg hr⟩

/-- A delete of "root" in the root of a blank volume answers 0 and frees the
root. -/
theorem not_reserved_sample :
    let r : Request := { request 2 0x61 0x78 0 with name := rootName }
    LiveDir (createFat32 blank) r.parent ∧
      ∃ s, exec 512 (.delete (fun _ => none) r) (createFat32 blank) = some (⟨0, r.buf⟩, s) ∧
        s.mem ROOT_CLUSTER_NUMBER = FAT32_FAT_EMPTY_ENTRY := by
  intro r
  have h := createFat32_sound blank
  have hi : findSlot ((createFat32 blank).table r.parent) r.name = some 0 := by
    refine findSlot_eq_some_iff.2 ⟨h.atRoot.1, fun j hj => ?_⟩
    exact absurd hj (by simp)
  have hcl : ((createFat32 blank).table r.parent 0).cluster = 2 := h.atRoot.2
  have hl : FatChain (createFat32 blank).mem 2 [2] :=
    .last (by rw [fatNext, h.root, if_pos rfl])
  obtain ⟨s, hd, hr⟩ : ∃ s, delete 512 (fun _ => none) r (createFat32 blank) = some (0, s) ∧
      Removed r 0 [2] (createFat32 blank) s :=
    delete_file _ (by decide) rootName_ne_zero (by decide) hi (hcl ▸ hl) (by simp) (by simp)
  refine ⟨.root, s, by simp only [exec, hd, Option.map_some], ?_⟩
  rw [hr.mem 2 (by decide), if_pos (List.mem_singleton.2 rfl)]

end Fat32
end Jatos
