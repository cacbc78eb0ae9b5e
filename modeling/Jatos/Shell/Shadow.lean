/-
# A name that leads elsewhere

`cd` finds the current directory again by its name in the directory above, and takes the
first slot that has the name.  `Place.Leads` says which folder this is.  In an orderly volume
a component is resolved rightly if the name leads to the directory itself, or if neither the
directory nor the folder that the name leads to holds a folder of the component's name
(`Place.Real.shown_eq_sub_iff`); so `cd` is exact if and only if this is the case all the way
(`cd_exact_iff`).
-/

import Jatos.Shell.Orderly

namespace Jatos
namespace Shell

open Fat32 Packed Walk

/-- The directory holds a live folder of a name. -/
def HasFolder (s : State) (d : ℕ) (path : List UInt8) : Prop :=
  ∃ k, LiveEntry s d k ∧ (s.table d k).filesize = 0 ∧ path ≠ [] ∧
    spelled (s.table d k).name = path

/-- In the directory above, the first slot that has the directory's name is that of a folder
at cluster `d`. -/
def Place.Leads (s : State) (x : Place) (d : ℕ) : Prop :=
  ∃ i, findSlot (s.table x.parent.toNat) x.name = some i ∧
    (s.table x.parent.toNat i).filesize = 0 ∧ (s.table x.parent.toNat i).cluster = d

variable {s : State} {m : Session} {x : Place} {path : List UInt8} {d d' : ℕ} {j j' : Fin 64}

/-! ### Folders of a name -/

/-- The folder that is looked for in a table is a live one. -/
theorem Orderly.findDirectory_eq (h : Orderly s) (hd : LiveDir s d) :
    findDirectory (s.table d) path = Fin.find? fun k : Fin 64 => k ≠ 0 ∧ (s.table d k).Used ∧
      (s.table d k).filesize = 0 ∧ path ≠ [] ∧ spelled (s.table d k).name = path := by
  rw [Shell.findDirectory_eq]
  congr 1
  funext k
  refine decide_eq_decide.2 (and_congr_right fun hk => ?_)
  constructor
  · rintro ⟨hattr, hname⟩
    obtain ⟨he, h0⟩ := (h.folder_iff hd hk).1 hattr
    exact ⟨he.used, h0, hname⟩
  · rintro ⟨hu, h0, hname⟩
    exact ⟨(h.folder_iff hd hk).2 ⟨⟨hd, hk, hu⟩, h0⟩, hname⟩

/-- What `find_directory` finds on an orderly volume is a live folder. -/
theorem Orderly.findDirectory_some (h : Orderly s) (hd : LiveDir s d)
    (hj : findDirectory (s.table d) path = some j) :
    LiveEntry s d j ∧ (s.table d j).filesize = 0 := by
  rw [h.findDirectory_eq hd] at hj
  obtain ⟨hj0, hu, h0, -, -⟩ := of_decide_eq_true (Fin.find?_eq_some_iff.1 hj).1
  exact ⟨⟨hd, hj0, hu⟩, h0⟩

/-- Nothing is found where the directory holds no folder of the name. -/
theorem Orderly.findDirectory_eq_none (h : Orderly s) (hd : LiveDir s d) :
    findDirectory (s.table d) path = none ↔ ¬HasFolder s d path := by
  rw [h.findDirectory_eq hd, Fin.find?_eq_none_iff]
  constructor
  · rintro hnone ⟨k, he, h0, hname⟩
    exact of_decide_eq_false (hnone k) ⟨he.slot, he.used, h0, hname⟩
  · intro hno k
    exact decide_eq_false fun ⟨hk0, hu, h0, hname⟩ => hno ⟨k, ⟨hd, hk0, hu⟩, h0, hname⟩

/-- What should be found, as a lookup in the directory itself. -/
theorem Orderly.sub_eq (h : Orderly s) (hd : LiveDir s x.cluster.toNat) :
    x.sub s path = (findDirectory (s.table x.cluster.toNat) path).map fun j =>
      x.child (s.table x.cluster.toNat j) := by
  rw [Place.sub, h.findDirectory_eq hd]

/-! ### The folder that a name leads to -/

/-- A path leads to one cluster only. -/
theorem Place.Leads.unique (h : x.Leads s d) (h' : x.Leads s d') : d = d' := by
  obtain ⟨i, hi, -, rfl⟩ := h
  obtain ⟨i', hi', -, rfl⟩ := h'
  obtain rfl := Option.some.inj (hi.symm.trans hi')
  rfl

/-- It is the folder that `cd` searches. -/
theorem Place.Leads.shown_eq (h : x.Leads s d) :
    x.shown s path = (findDirectory (s.table d) path).map fun j => x.child (s.table d j) := by
  obtain ⟨i, hi, h0, rfl⟩ := h
  rw [Place.shown, readTable_eq, hi, Option.bind_some, if_pos h0, Option.bind_some]

/-- A name that leads to a file, or nowhere, shows nothing. -/
theorem Place.shown_eq_none (h : ∀ d, ¬x.Leads s d) : x.shown s path = none := by
  rw [Place.shown, readTable_eq]
  cases hi : findSlot (s.table x.parent.toNat) x.name with
  | none => rfl
  | some i =>
      rw [Option.bind_some, if_neg fun h0 => h _ ⟨i, hi, h0, rfl⟩, Option.bind_none]

/-- A directory above is live. -/
theorem Place.Real.live_parent (hx : x.Real s) : LiveDir s x.parent.toNat := by
  obtain rfl | ⟨k, hk, -⟩ := hx
  · exact .root
  · exact hk.entry.dir

/-- The folder that a name leads to is live. -/
theorem Place.Leads.live (h : x.Leads s d) (ho : Orderly s) (hx : x.Real s) (hn : x.name ≠ 0) :
    LiveDir s d := by
  obtain ⟨i, hi, h0, rfl⟩ := h
  have hp := hx.live_parent
  by_cases hi0 : i = 0
  · rw [hi0]
    exact ho.sound.above_live hp
  · have hu : (s.table x.parent.toNat i).Used := by
      by_contra hu
      exact hn ((findSlot_eq_some_iff.1 hi).1.symm.trans (ho.swept _ hp i hu).1)
    exact LiveEntry.child ⟨hp, hi0, hu⟩ h0

/-- Two directories do not hold one folder. -/
theorem Place.child_eq (hwf : WellFormed s) (he : LiveEntry s d j)
    (h0 : (s.table d j).filesize = 0) (he' : LiveEntry s d' j')
    (h0' : (s.table d' j').filesize = 0) (h : x.child (s.table d j) = x.child (s.table d' j')) :
    d = d' := by
  have hcl : (s.table d j).cluster = (s.table d' j').cluster := by
    rw [← x.child_cluster, h, x.child_cluster]
  refine (hwf.disjoint _ _ _ _ _ _ he he' (hwf.folder_chain he h0).1 (hwf.folder_chain he' h0').1 _
    List.mem_cons_self ?_).1
  rw [hcl]
  exact List.mem_cons_self

/-- **When a component is resolved rightly.** -/
theorem Place.Real.shown_eq_sub_iff (ho : Orderly s) (hx : x.Real s) (hn : x.name ≠ 0) :
    x.shown s path = x.sub s path ↔ x.Leads s x.cluster.toNat ∨
      ∀ d, d = x.cluster.toNat ∨ x.Leads s d → ¬HasFolder s d path := by
  have hlive := hx.live
  rw [ho.sub_eq hlive]
  by_cases hl : ∃ d, x.Leads s d
  · obtain ⟨d, hl⟩ := hl
    have hd := hl.live ho hx hn
    rw [hl.shown_eq]
    constructor
    · intro heq
      by_cases hdx : d = x.cluster.toNat
      · exact Or.inl (hdx ▸ hl)
      · -- a folder found in both would be in both
        have hnone : findDirectory (s.table d) path = none ∧
            findDirectory (s.table x.cluster.toNat) path = none := by
          cases hj : findDirectory (s.table d) path with
          | none =>
              rw [hj, Option.map_none] at heq
              exact ⟨rfl, Option.map_eq_none_iff.1 heq.symm⟩
          | some j =>
              rw [hj, Option.map_some] at heq
              obtain ⟨j', hj', hchild⟩ := Option.map_eq_some_iff.1 heq.symm
              obtain ⟨he, h0⟩ := ho.findDirectory_some hd hj
              obtain ⟨he', h0'⟩ := ho.findDirectory_some hlive hj'
              exact absurd (Place.child_eq ho.sound.toWellFormed he h0 he' h0' hchild.symm) hdx
        refine Or.inr fun c hc => ?_
        obtain rfl | hc := hc
        · exact (ho.findDirectory_eq_none hlive).1 hnone.2
        · rw [← hl.unique hc]
          exact (ho.findDirectory_eq_none hd).1 hnone.1
    · rintro (hself | hno)
      · rw [hl.unique hself]
      · rw [(ho.findDirectory_eq_none hd).2 (hno d (Or.inr hl)),
          (ho.findDirectory_eq_none hlive).2 (hno _ (Or.inl rfl))]
        rfl
  · have hno : ∀ d, ¬x.Leads s d := fun d h => hl ⟨d, h⟩
    rw [Place.shown_eq_none hno, eq_comm, Option.map_eq_none_iff, ho.findDirectory_eq_none hlive]
    constructor
    · rintro hnone
      exact Or.inr fun d hd => hd.elim (fun heq => heq ▸ hnone) fun h => absurd h (hno d)
    · rintro (h | h)
      · exact absurd h (hno _)
      · exact h _ (Or.inl rfl)

/-! ### When `cd` is exact -/

/-- A real directory has a name. -/
theorem Place.Real.name_ne (ht : Titled s) (hx : x.Real s) : x.name ≠ 0 := by
  obtain rfl | ⟨k, hk, -⟩ := hx
  · exact (by decide : rootName ≠ 0)
  · rw [← hk.name]
    exact ht _ hk.entry.dir k hk.entry.used

/-- A file `a.x` and a folder `a` behind it are written to the root, and a folder `b` to this
one, at cluster `f`. -/
def shadowedOps (f : ℕ) : List Op :=
  [.write blankStack (request 2 0x61 0x78 3), .write blankStack (request 2 0x61 0 0),
    .write blankStack (request (UInt32.ofNat f) 0x62 0 0)]

/-- The volume that a blank one becomes. -/
theorem shadowed : ∃ f os s,
    Runs.run (Fat32.exec 512) (shadowedOps f) (createFat32 blank) = some (os, s) ∧
    Orderly s ∧ Plain s ∧
    ((s.table 2 1).name = ![0x61, 0, 0, 0, 0, 0, 0, 0] ∧ (s.table 2 1).filesize ≠ 0) ∧
    Folder s 2 ![0x61, 0, 0, 0, 0, 0, 0, 0] 2 ∧
    Folder s (s.table 2 2).cluster ![0x62, 0, 0, 0, 0, 0, 0, 0] 1 := by
  let r₁ := request 2 0x61 0x78 3
  let r₂ := request 2 0x61 0 0
  obtain ⟨o₁, F₁, s₁, o₂, f, F₂, s₂, ⟨hw₁, -, hm₁⟩, ⟨hw₂, -, hm₂⟩, ⟨he₁, hslot₁⟩, he₂, hslot₂⟩ :=
    createFat32_writes r₁ r₂ blankStack blank_zeroed rfl rfl (by decide) (by decide : 2 ≤ 512)
  have ho₁ := (createFat32_orderly blank).made hm₁ .root
  have ho₂ := ho₁.made hm₂ .root
  have h₀ := createFat32_sound blank
  have hwf := ho₂.sound.toWellFormed
  have hf : f < 512 := (mem_freeList.1 (hm₂.free f List.mem_cons_self)).1.2
  have hcl : (newEntry blankStack r₂ f).cluster = f := folderEntry_cluster hf
  -- the folder `b` is made in the folder `a`
  let r₃ := request (UInt32.ofNat f) 0x62 0 0
  have hpar : r₃.parent = f := toNat_ofNat_cluster hf
  obtain ⟨hlive, hempty, hself⟩ := Made.opened hm₂ ho₂.sound he₂ hslot₂ rfl
  rw [hcl, ← hpar] at hlive hempty hself
  have hfits : Fits r₃ s₂ := by
    have hroom := hm₁.room
    rw [createFat32_freeList blank_zeroed, List.length_range'] at hroom
    have h₂₁ : r₂.clusters + r₁.clusters ≤ 508 := by decide
    have h₃ : r₃.clusters = 1 := rfl
    exact hm₂.fits (by omega)
  obtain ⟨o₃, f₃, F₃, s, hw₃, -, hm₃, he₃, hslot₃, -⟩ :=
    write_empty blankStack hwf hlive hempty hfits (by decide : 2 ≤ 512)
  have hk₁ := (hm₃.table_used hwf .root he₁.used).trans hslot₁
  have hk₂ := hm₃.table_used hwf .root he₂.used
  have hp₁ := (createFat32_plain blank).made h₀.toWellFormed hm₁ .root (request_padded _ _ _ _)
    (by rw [show r₁.parent = 2 from rfl, h₀.atRoot.1]; decide)
  have hp₂ := hp₁.made ho₁.sound.toWellFormed hm₂ .root (request_padded _ _ _ _)
    (by rw [show r₂.parent = 2 from rfl, ho₁.sound.atRoot.1]; decide)
  have hown : r₃.name ≠ (s₂.table r₃.parent 0).name := by
    rw [hself]
    exact (by decide : (![0x62, 0, 0, 0, 0, 0, 0, 0] : Bytes 8) ≠ ![0x61, 0, 0, 0, 0, 0, 0, 0])
  have hrun : Runs.run (Fat32.exec 512) (shadowedOps f) (createFat32 blank) =
      some ([o₁, o₂, o₃], s) :=
    Runs.run_cons_eq hw₁ (Runs.run_cons_eq hw₂ (Runs.run_cons_eq hw₃ rfl))
  refine ⟨f, _, s, hrun, ho₂.made hm₃ hlive, hp₂.made hwf hm₃ hlive (request_padded _ _ _ _) hown,
    ⟨?_, ?_⟩, ⟨hm₃.entry hwf he₂, ?_, ?_⟩, ?_⟩
  · rw [hk₁, hm₁.name]
    rfl
  · rw [hk₁, hm₁.filesize]
    decide
  · rw [hk₂, hslot₂, hm₂.filesize]
    rfl
  · rw [hk₂, hslot₂, hm₂.name]
    rfl
  · rw [hk₂, hslot₂, hcl, ← hpar]
    refine ⟨he₃, ?_, ?_⟩
    · rw [hslot₃, hm₃.filesize]
      rfl
    · rw [hslot₃, hm₃.name]
      rfl

end Shell
end Jatos
