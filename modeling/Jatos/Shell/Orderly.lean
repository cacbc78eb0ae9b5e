/-
# Orderly volumes

The lookups of the shell read `user_attribute` and the name of a slot, used or not.  In an
`Orderly` volume that does no harm: the attribute is a folder's on live folders only
(`Orderly.folder_iff`).  Every run of safe requests on a new volume leads to one
(`run_orderly`), since the file branch of `delete` blanks the slot.

`nested` is a volume that requests build: a folder in the root, and an entry in the folder.
-/

import Jatos.Shell.Directory

namespace Jatos
namespace Shell

open Fat32 Packed Walk

/-- Unused slots have neither a name nor the attribute of a folder. -/
def Swept (s : State) : Prop := ∀ d, LiveDir s d → ∀ k, ¬(s.table d k).Used →
  (s.table d k).name = 0 ∧ (s.table d k).attr ≠ ATR_DIRECTORY

/-- The volumes in which `find` sees what there is: attributes are right, and unused slots say
nothing. -/
structure Orderly (s : State) : Prop where
  sound : Sound s
  marked : Marked s
  swept : Swept s

/-- Bytes behind a zero are zero. -/
def Padded (n : Bytes 8) : Prop := ∀ i j, i ≤ j → n i = 0 → n j = 0

/-- Names are padded with zeros, and no directory holds an entry of its own name. -/
structure Plain (s : State) : Prop where
  padded : ∀ d k, LiveEntry s d k → Padded (s.table d k).name
  own : ∀ d k, LiveEntry s d k → (s.table d k).name ≠ (s.table d 0).name

variable {s s' : State} {m : Session} {x : Place} {path : List UInt8} {d fuel : ℕ} {i k : Fin 64}
  {op : Op} {ops : List Op} {o : Reply} {os : List Reply}

/-! ### What requests keep -/

/-- The folders are marked as such once the new object is there. -/
theorem Marked.made {s₁ : State} {r : Request} {st : Stack} {f : ℕ} {F : List ℕ} (h : Marked s)
    (hwf : WellFormed s) (hm : Made r (newEntry st r f) F s s₁) : Marked s₁ := by
  intro d k he
  obtain ⟨he', hk⟩ | ⟨rfl, -, hk⟩ := hm.entry_inv hwf he
  · rw [hk]
    exact h d k he'
  · rw [hk, hm.filesize]
    by_cases hs : r.bufferSize = 0
    · rw [newEntry, if_pos hs]
      exact iff_of_true rfl hs
    · rw [newEntry, if_neg hs]
      exact iff_of_false (by decide : ATR_FILE ≠ ATR_DIRECTORY) hs

/-- A zeroed slot has no name and is marked as no folder. -/
theorem zero_blank : DirectoryEntry.zero.name = 0 ∧ DirectoryEntry.zero.attr ≠ ATR_DIRECTORY :=
  ⟨rfl, by decide⟩

/-- A fresh volume is orderly. -/
theorem createFat32_orderly (s : State) : Orderly (createFat32 s) where
  sound := createFat32_sound s
  marked _ _ he := absurd he createFat32_no_entry
  swept d hd k hu := by
    rcases createFat32_cases hd k with ⟨-, hused, -⟩ | ⟨-, hzero⟩
    · exact absurd hused hu
    · rw [hzero]
      exact zero_blank

/-- So is a volume of the same clusters. -/
theorem Orderly.kept (h : Orderly s) (hk : Kept s s') : Orderly s' where
  sound := hk.sound h.sound
  marked d k he := by
    rw [hk.table]
    exact h.marked d k (hk.entry_iff.1 he)
  swept d hd k := by
    rw [hk.table]
    exact h.swept d (hk.live_iff.1 hd) k

/-- A new entry is used, and the slots of a new folder are blank. -/
theorem Orderly.made {r : Request} {st : Stack} {f : ℕ} {F : List ℕ} (h : Orderly s)
    (hm : Made r (newEntry st r f) F s s') (hp : LiveDir s r.parent) : Orderly s' where
  sound := hm.sound h.sound hp
  marked := h.marked.made h.sound.toWellFormed hm
  swept d hd k hu := by
    rcases hm.slot h.sound.toWellFormed hd k with ⟨hd', hk⟩ | ⟨-, -, hk⟩ | ⟨-, t, hk⟩
    · rw [hk] at hu ⊢
      exact h.swept d hd' k hu
    · rw [hk] at hu
      exact absurd hm.used hu
    · rw [hk] at hu ⊢
      by_cases hk0 : k = 0
      · subst hk0
        exact absurd (initDirectoryTable_used t r.name r.parent) hu
      · rw [initDirectoryTable_of_ne _ _ _ hk0]
        exact zero_blank

/-- A dropped entry leaves nothing in its slot. -/
theorem Orderly.dropped {r : Request} {i : Fin 64} {F : List ℕ} (h : Orderly s)
    (hr : Dropped r i F s s') : Orderly s' where
  sound := hr.sound h.sound
  marked d k he := by
    obtain ⟨hk, htab, -⟩ := hr.entry_inv h.sound.toWellFormed he
    rw [htab]
    exact h.marked d k hk
  swept d hd k hu := by
    obtain ⟨hd', hk | ⟨-, hk⟩⟩ := hr.slot h.sound.toWellFormed hd k
    · rw [hk] at hu ⊢
      exact h.swept d hd' k hu
    · rw [hk]
      exact zero_blank

/-- **One safe request.** -/
theorem Orderly.exec (h : Orderly s) (hs : Safe s op) (hfuel : 512 ≤ fuel)
    (hx : Fat32.exec fuel op s = some (o, s')) : Orderly s' := by
  have he := exec_effect h.sound.toWellFormed hs hfuel hx
  cases he with
  | kept hk _ _ _ => exact h.kept hk
  | made _ _ hm => exact h.made hm hs.live
  | dropped _ _ _ _ hr => exact h.dropped hr

/-- **Every safe run.** -/
theorem run_orderly (hfuel : 512 ≤ fuel) (h : Orderly s)
    (hg : Runs.Guarded (Fat32.exec fuel) Safe ops s)
    (hr : Runs.run (Fat32.exec fuel) ops s = some (os, s')) : Orderly s' :=
  Runs.run_invariant (I := Orderly) (fun _ _ _ _ hi hs hx => hi.exec hs hfuel hx) h hg hr

/-! ### Folders -/

/-- The attribute of a folder is on live folders only. -/
theorem Orderly.folder_iff (h : Orderly s) (hd : LiveDir s d) (hk : k ≠ 0) :
    (s.table d k).attr = ATR_DIRECTORY ↔ LiveEntry s d k ∧ (s.table d k).filesize = 0 := by
  constructor
  · intro hattr
    have hu : (s.table d k).Used := by
      by_contra hu
      exact (h.swept d hd k hu).2 hattr
    exact ⟨⟨hd, hk, hu⟩, (h.marked d k ⟨hd, hk, hu⟩).1 hattr⟩
  · rintro ⟨he, h0⟩
    exact (h.marked d k he).2 h0

/-! ### Plain volumes -/

/-- A format leaves a plain volume. -/
theorem createFat32_plain (s : State) : Plain (createFat32 s) :=
  ⟨fun _ _ he => absurd he createFat32_no_entry, fun _ _ he => absurd he createFat32_no_entry⟩

/-- An entry with a padded name that is not the directory's keeps a volume plain. -/
theorem Plain.made {s₁ : State} {r : Request} {e : DirectoryEntry} {F : List ℕ} (h : Plain s)
    (hwf : WellFormed s) (hm : Made r e F s s₁) (hp : LiveDir s r.parent) (hpad : Padded r.name)
    (hown : r.name ≠ (s.table r.parent 0).name) : Plain s₁ := by
  have hself : ∀ d, LiveDir s d → s₁.table d 0 = s.table d 0 := fun d hd =>
    hm.table_used hwf hd (hwf.self d hd).1
  constructor
  · intro d k he
    obtain ⟨he', hk⟩ | ⟨rfl, -, hk⟩ := hm.entry_inv hwf he
    · rw [hk]
      exact h.padded d k he'
    · rw [hk, hm.name]
      exact hpad
  · intro d k he
    obtain ⟨he', hk⟩ | ⟨rfl, -, hk⟩ := hm.entry_inv hwf he
    · rw [hk, hself d he'.dir]
      exact h.own d k he'
    · rw [hk, hm.name, hself _ hp]
      exact hown

/-- The names of the requests above are padded. -/
theorem request_padded (d : UInt32) (x y : UInt8) (size : UInt32) :
    Padded (request d x y size).name := by
  intro i j hij hi
  by_cases hj : j = 0
  · obtain rfl : i = j := Fin.le_antisymm hij (hj ▸ Fin.zero_le i)
    exact hi
  · obtain ⟨j, rfl⟩ := Fin.exists_succ_eq.2 hj
    exact congrFun (by decide : (![0, 0, 0, 0, 0, 0, 0] : Fin 7 → UInt8) = fun _ => 0) j

/-! ### An entry in a folder -/

/-- The first live folder that bears the name. -/
theorem Place.sub_eq_some (hk : k ≠ 0) (hu : (s.table x.cluster.toNat k).Used)
    (hsize : (s.table x.cluster.toNat k).filesize = 0) (hne : path ≠ [])
    (hname : spelled (s.table x.cluster.toNat k).name = path)
    (hfirst : ∀ j < k, j ≠ 0 → (s.table x.cluster.toNat j).filesize ≠ 0) :
    x.sub s path = some (x.child (s.table x.cluster.toNat k)) := by
  rw [Place.sub, Option.map_eq_some_iff]
  refine ⟨k, Fin.find?_eq_some_iff.2 ⟨decide_eq_true ⟨hk, hu, hsize, hne, hname⟩,
    fun j hj => ?_⟩, rfl⟩
  exact decide_eq_false fun hfits => hfirst j hj hfits.1 hfits.2.2.1

/-- A new folder is open for its first entry; slot 0 has its name. -/
theorem Made.opened {r : Request} {e : DirectoryEntry} {F : List ℕ} {s' : State}
    (hm : Made r e F s s') (h : Sound s') (he : LiveEntry s' d k) (hslot : s'.table d k = e)
    (h0 : r.bufferSize = 0) : LiveDir s' e.cluster ∧ EmptyDir s' e.cluster ∧
      (s'.table e.cluster 0).name = r.name := by
  have hsize : (s'.table d k).filesize = 0 := by rw [hslot, hm.filesize, h0]
  have hlive := he.child hsize
  have hself := (h.atChild d k he hsize).1
  rw [hslot] at hlive hself
  exact ⟨hlive, hm.emptyDir (hm.filesize.trans h0), hself.trans hm.name⟩

/-- A folder `a` is made in the root, and an entry `b` in it. -/
def nestedOps (y : UInt8) (size : UInt32) : List Op :=
  [.write blankStack (request 2 0x61 0 0), .write blankStack (request 3 0x62 y size)]

/-- The folder `a` at cluster 3 that a blank volume is given, and the entry `b` in it. -/
theorem nested (y : UInt8) (size : UInt32) (hsize : (request 3 0x62 y size).clusters ≤ 508) :
    ∃ os s f, Runs.run (Fat32.exec 512) (nestedOps y size) (createFat32 blank) = some (os, s) ∧
      Orderly s ∧ Tidy s ∧ Plain s ∧ Folder s 2 ![0x61, 0, 0, 0, 0, 0, 0, 0] 1 ∧
      (s.table 2 1).cluster = 3 ∧ LiveEntry s 3 1 ∧
      s.table 3 1 = newEntry blankStack (request 3 0x62 y size) f ∧
      ∀ d k, d = 2 ∨ d = 3 → k ≠ 0 → k ≠ 1 → s.table d k = DirectoryEntry.zero := by
  let r₁ := request 2 0x61 0 0
  let r₂ := request 3 0x62 y size
  obtain ⟨o₁, F₁, s₁, hw₁, -, hm₁, he₁, hslot₁⟩ := createFat32_write (r := r₁) blankStack
    blank_zeroed rfl (by decide) (by decide : 2 ≤ 512)
  have hwf₀ := (createFat32_sound blank).toWellFormed
  have hname₁ : r₁.name ≠ 0 := by decide
  have hfresh₁ : NoEntry (createFat32 blank) r₁.parent r₁.name :=
    createFat32_noEntry (by decide)
  have ht₁ := hm₁.tidy (createFat32_tidy blank) .root hname₁ hfresh₁
  have hwf₁ := ht₁.sound.toWellFormed
  have hcl : (newEntry blankStack r₁ 3).cluster = 3 := folderEntry_cluster (by decide)
  obtain ⟨hlive, hempty, hself⟩ := Made.opened hm₁ ht₁.sound he₁ hslot₁ rfl
  rw [hcl] at hlive hempty hself
  have hne : r₂.name ≠ r₁.name := by
    exact (by decide : (![0x62, 0, 0, 0, 0, 0, 0, 0] : Bytes 8) ≠ ![0x61, 0, 0, 0, 0, 0, 0, 0])
  have hfits : Fits r₂ s₁ := by
    refine hm₁.fits ?_
    rw [createFat32_freeList blank_zeroed, List.length_range']
    have h₁ : r₁.clusters = 1 := rfl
    have h₂ : r₂.clusters ≤ 508 := hsize
    omega
  obtain ⟨o₂, f, F₂, s, hw₂, -, hm₂, he₂, hslot₂, -⟩ :=
    write_empty (r := r₂) blankStack hwf₁ hlive hempty hfits (by decide : 2 ≤ 512)
  have hfresh₂ : NoEntry s₁ r₂.parent r₂.name := by
    intro k hu
    by_cases hk : k = 0
    · rw [hk]
      exact fun heq => hne (heq.symm.trans hself)
    · exact absurd hu (hempty k hk)
  have hfree₂ : freeSlot (s₁.table r₂.parent) = some 1 := by
    refine freeSlot_eq_some_iff.2 ⟨hempty 1 (by decide), fun j hj => ?_⟩
    obtain rfl : j = 0 := by omega
    exact (hwf₁.self _ hlive).1
  have hname₂ : r₂.name ≠ 0 := by
    exact (by decide : (![0x62, 0, 0, 0, 0, 0, 0, 0] : Bytes 8) ≠ 0)
  have hord₁ := (createFat32_orderly blank).made hm₁ .root
  have hplain₁ := (createFat32_plain blank).made hwf₀ hm₁ .root (request_padded _ _ _ _)
    (by rw [show r₁.parent = 2 from rfl, (createFat32_sound blank).atRoot.1]; decide)
  have hk := hm₂.table_used hwf₁ .root he₁.used
  have hrun : Runs.run (Fat32.exec 512) (nestedOps y size) (createFat32 blank) =
      some ([o₁, o₂], s) := Runs.run_cons_eq hw₁ (Runs.run_cons_eq hw₂ rfl)
  refine ⟨_, s, f, hrun, hord₁.made hm₂ hlive, hm₂.tidy ht₁ hlive hname₂ hfresh₂,
    hplain₁.made hwf₁ hm₂ hlive (request_padded _ _ _ _)
      (by rwa [show r₂.parent = 3 from rfl, hself]),
    ⟨hm₂.entry hwf₁ he₁, ?_, ?_⟩, ?_, he₂, hslot₂, fun d k hd hk0 hk1 => ?_⟩
  · rw [hk]
    exact (congrArg DirectoryEntry.filesize hslot₁).trans hm₁.filesize
  · rw [hk]
    exact (congrArg DirectoryEntry.name hslot₁).trans hm₁.name
  · rw [hk]
    exact (congrArg DirectoryEntry.cluster hslot₁).trans hcl
  · obtain rfl | rfl := hd
    · rw [hm₂.slot_of_ne hwf₁ .root hfree₂ fun _ => hk1,
        hm₁.slot_of_ne hwf₀ .root (createFat32_freeSlot blank) fun _ => hk1]
      exact createFat32_slot hk0
    · obtain ⟨t, hnew⟩ := hm₁.folder (hm₁.filesize.trans rfl)
      rw [hcl] at hnew
      rw [hm₂.slot_of_ne hwf₁ hlive hfree₂ fun _ => hk1, hnew,
        initDirectoryTable_of_ne _ _ _ hk0]

/-- `cd a` leads into the folder. -/
theorem nested_cd (ht : Tidy s) (hmark : Marked s)
    (ha : Folder s 2 ![0x61, 0, 0, 0, 0, 0, 0, 0] 1) (hcl : (s.table 2 1).cluster = 3) :
    Located s (cdTo [0x61] s Session.start) ∧ (cdTo [0x61] s Session.start).depth = 1 ∧
      (cdTo [0x61] s Session.start).currentDirClusterNumber = 3 ∧
      (cdTo [0x61] s Session.start).currentDirParentClusterNumber = 2 ∧
      (cdTo [0x61] s Session.start).dirPath 1 = ![0x61, 0, 0, 0, 0, 0, 0, 0] := by
  have htyped : Typed Session.start [0x61] := ⟨by decide, by decide, by decide, by decide⟩
  have hexact := (start_located s).cdExact ht hmark htyped
  let x : Place := ⟨2, rootName, 2⟩
  have hx : x.sub s [0x61] = some (x.child (s.table 2 1)) := by
    refine Place.sub_eq_some ha.entry.slot ha.entry.used ha.filesize (by decide) ?_
      fun j hj hj0 => ?_
    · exact (congrArg spelled ha.name).trans (by decide)
    · omega
  have hwalk : walk (Place.sub s) (Session.start.place 0) (components [0x61]) =
      some [x.child (s.table 2 1)] := by
    rw [show components [0x61] = [[0x61]] by decide, show Session.start.place 0 = x from rfl,
      walk_cons_some hx]
    rfl
  rw [CdExact, show Session.start.depth = 0 from rfl, hwalk] at hexact
  have hdepth : (cdTo [0x61] s Session.start).depth = 1 := hexact.depth
  have hplace := hexact.places 0 Nat.one_pos
  have hloc := hexact.located
  refine ⟨hloc, hdepth, ?_, ?_, ?_⟩
  · rw [hloc.current, hdepth]
    refine (congrArg Place.cluster hplace).trans ?_
    change UInt32.ofNat (s.table 2 1).cluster = 3
    rw [hcl]
    rfl
  · rw [hloc.parent, hdepth]
    exact hloc.root.2
  · exact (congrArg Place.name hplace).trans ha.name

end Shell
end Jatos
