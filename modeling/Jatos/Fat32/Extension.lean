/-
# Two files of one name

`src/header/filesystem/fat32.h` documents `read` as using name, extension and
parent of the request, and an entry stores an 8.3 name.  The lookups compare the
eight bytes of the name alone, so of two files with one name the first slot
answers for both: `delete` on the other name takes the wrong one away, and `read`
returns the wrong bytes.

A request for one of them is served as documented exactly when its file comes
first and the other second among the slots of that name (`addressed_iff`), so it
never holds of both (`twins_never`).
-/

import Jatos.Fat32.Deletion

namespace Jatos
namespace Fat32

open Linked

variable {r : Request} {s s' : State} {fuel d : ℕ} {k k' : Fin 64}

/-- Two live files of a directory have one name and different extensions, neither
of them empty. -/
structure Twins (s : State) (d : ℕ) (k k' : Fin 64) : Prop where
  left : LiveEntry s d k
  right : LiveEntry s d k'
  fileLeft : (s.table d k).filesize ≠ 0
  fileRight : (s.table d k').filesize ≠ 0
  name : (s.table d k).name = (s.table d k').name
  extLeft : (s.table d k).ext ≠ 0
  extRight : (s.table d k').ext ≠ 0
  ext : (s.table d k).ext ≠ (s.table d k').ext

/-- Twins are twins in either order. -/
theorem Twins.symm (h : Twins s d k k') : Twins s d k' k :=
  ⟨h.right, h.left, h.fileRight, h.fileLeft, h.name.symm, h.extRight, h.extLeft, h.ext.symm⟩

/-- Twins are in two slots. -/
theorem Twins.ne (h : Twins s d k k') : k ≠ k' := fun hk => h.ext (by rw [hk])

/-- A request for the name and extension of slot `k` of directory `d`. -/
structure AddressedTo (r : Request) (s : State) (d : ℕ) (k : Fin 64) : Prop where
  parent : r.parent = d
  name : r.name = (s.table d k).name
  ext : r.ext = (s.table d k).ext

/-- Into a buffer that is large enough, the read returns the bytes of slot `k`. -/
def Delivers (fuel : ℕ) (s : State) (r : Request) (k : Fin 64) : Prop :=
  ∀ B, Holds s r.parent k (.file B) → B.length ≤ r.bufferSize.toNat →
    ∃ buf, Fat32.read fuel r s = some (⟨0, buf⟩, s) ∧ ∀ i (hi : i < B.length), buf i = B[i]

/-- Name and extension address the file of slot `k`: the read returns its bytes,
and the delete gives up that slot and leaves the other file to be read. -/
structure Addressed (fuel : ℕ) (s : State) (r : Request) (k k' : Fin 64) : Prop where
  read : Delivers fuel s r k
  delete : ∀ peek, ∃ s', delete fuel peek r s = some (0, s') ∧ GivenUp s s' r.parent k ∧
    findSlot (s'.table r.parent) r.name = some k' ∧
    ∀ r', AddressedTo r' s r.parent k' → Delivers fuel s' r' k'

/-- A file that a search of its folder by name meets first is delivered. -/
theorem delivers_of_found (h : WellFormed s) (he : LiveEntry s r.parent k) (hn : r.name ≠ 0)
    (hi : findSlot (s.table r.parent) r.name = some k) (hfuel : 512 ≤ fuel) :
    Delivers fuel s r k :=
  fun _ hB hsize => hB.read h he hn hi hsize hfuel

/-- **When a name and an extension address their file**: its slot is the first of
that name, and the other file's the second. -/
theorem addressed_iff (h : WellFormed s) (ht : Twins s d k k') (hr : AddressedTo r s d k)
    (hfuel : 512 ≤ fuel) :
    Addressed fuel s r k k' ↔ r.name ≠ 0 ∧ findSlot (s.table d) r.name = some k ∧
      findSlot (Function.update (s.table d) k DirectoryEntry.zero) r.name = some k' := by
  obtain ⟨rfl, hname, hext⟩ := hr
  have hx : r.ext ≠ 0 := hext ▸ ht.extLeft
  obtain ⟨l, hl, -, -⟩ := h.chain _ _ ht.left
  have hfile : ¬Occupied s r.parent k := fun hocc => ht.fileLeft hocc.1
  constructor
  · intro ha
    obtain ⟨s', hd, hg, hsecond, -⟩ := ha.delete fun _ => none
    obtain ⟨hn, hi⟩ := found_of_givenUp hd hx ht.left.used hg
    obtain ⟨s'', hd', hdr⟩ := delete_dropped (fun _ => none) h ht.left hn hx hi hl hfuel
    obtain rfl : s' = s'' := congrArg Prod.snd (Option.some.inj (hd.symm.trans hd'))
    exact ⟨hn, hi, hdr.parent ▸ hsecond⟩
  · rintro ⟨hn, hi, hsecond⟩
    refine ⟨delivers_of_found h ht.left hn hi hfuel, fun peek => ?_⟩
    obtain ⟨s', hd, hdr⟩ := delete_dropped peek h ht.left hn hx hi hl hfuel
    have hfound : findSlot (s'.table r.parent) r.name = some k' := hdr.parent ▸ hsecond
    have hg := hdr.givenUp h hfile
    refine ⟨s', hd, hg, hfound, fun r' hr' => ?_⟩
    have he' : LiveEntry s' r.parent k' :=
      (hg.others _ _ ht.right fun hk => ht.ne hk.2.symm).1
    have hname' : r'.name = r.name := hr'.name.trans (ht.name.symm.trans hname.symm)
    rw [← hr'.parent] at he' hfound
    exact delivers_of_found (hdr.wellFormed h) he' (hname'.symm ▸ hn) (hname' ▸ hfound) hfuel

/-- **No directory addresses both files.**  Each of the two requests is served as
documented exactly when its file is the first of the name and the other the
second, so one of the two is not. -/
theorem twins_never (h : WellFormed s) (ht : Twins s d k k') (hfuel : 512 ≤ fuel) :
    (∀ r, AddressedTo r s d k → (Addressed fuel s r k k' ↔
      r.name ≠ 0 ∧ findSlot (s.table d) r.name = some k ∧
        findSlot (Function.update (s.table d) k DirectoryEntry.zero) r.name = some k')) ∧
    ¬((∀ r, AddressedTo r s d k → Addressed fuel s r k k') ∧
      ∀ r, AddressedTo r s d k' → Addressed fuel s r k' k) := by
  refine ⟨fun r hr => addressed_iff h ht hr hfuel, ?_⟩
  rintro ⟨hleft, hright⟩
  have hrange := h.live_range ht.left.dir
  -- a request for slot `i` of the directory
  let req (i : Fin 64) : Request :=
    ⟨fun _ => 0, (s.table d i).name, (s.table d i).ext, UInt32.ofNat d, 0⟩
  have hreq : ∀ i, AddressedTo (req i) s d i := fun i => ⟨toNat_ofNat_cluster hrange.2, rfl, rfl⟩
  have hl := ((addressed_iff h ht (hreq k) hfuel).1 (hleft _ (hreq k))).2.1
  have hr := ((addressed_iff h ht.symm (hreq k') hfuel).1 (hright _ (hreq k'))).2.1
  have hname : (req k).name = (req k').name := ht.name
  rw [hname] at hl
  exact ht.ne (Option.some.inj (hl.symm.trans hr))

/-- `a.x` and `a.y` are written to a blank volume. -/
theorem blank_twins : ∃ o s₁ o' s₂,
    write 512 blankStack (request 2 0x61 0x78 100) (createFat32 blank) = some (o, s₁) ∧
    write 512 blankStack (request 2 0x61 0x79 100) s₁ = some (o', s₂) ∧
    WellFormed s₂ ∧ Twins s₂ 2 1 2 ∧ AddressedTo (request 2 0x61 0x79 100) s₂ 2 2 := by
  obtain ⟨o, F, s₁, o', f, F', s₂, ⟨hw, -, hm⟩, ⟨hw', -, hm'⟩, ⟨he, hx⟩, he', hy⟩ :=
    createFat32_writes (request 2 0x61 0x78 100) (request 2 0x61 0x79 100) blankStack
      blank_zeroed rfl rfl (by decide) (by decide : 2 ≤ 512)
  rw [newEntry, if_neg (by decide)] at hx hy
  refine ⟨o, s₁, o', s₂, hw, hw',
    hm'.wellFormed (hm.wellFormed (createFat32_sound blank).toWellFormed), ?_, rfl, ?_, ?_⟩
  · exact { left := he
            right := he'
            fileLeft := by rw [hx]; exact (by decide : (100 : UInt32) ≠ 0)
            fileRight := by rw [hy]; exact (by decide : (100 : UInt32) ≠ 0)
            name := by rw [hx, hy]; rfl
            extLeft := by rw [hx]; exact (by decide : (request 2 0x61 0x78 100).ext ≠ 0)
            extRight := by rw [hy]; exact (by decide : (request 2 0x61 0x79 100).ext ≠ 0)
            ext := by
              rw [hx, hy]
              exact (by decide : (request 2 0x61 0x78 100).ext ≠ (request 2 0x61 0x79 100).ext) }
  · rw [hy]; rfl
  · rw [hy]; rfl

/-- The two files that were written to a blank volume. -/
theorem twins_never_sample : ∃ o s₁ o' s,
    write 512 blankStack (request 2 0x61 0x78 100) (createFat32 blank) = some (o, s₁) ∧
    write 512 blankStack (request 2 0x61 0x79 100) s₁ = some (o', s) ∧
    (∀ r, AddressedTo r s 2 1 → (Addressed 512 s r 1 2 ↔
      r.name ≠ 0 ∧ findSlot (s.table 2) r.name = some 1 ∧
        findSlot (Function.update (s.table 2) 1 DirectoryEntry.zero) r.name = some 2)) ∧
    ¬((∀ r, AddressedTo r s 2 1 → Addressed 512 s r 1 2) ∧
      ∀ r, AddressedTo r s 2 2 → Addressed 512 s r 2 1) := by
  obtain ⟨o, s₁, o', s₂, hw, hw', hwf, ht, -⟩ := blank_twins
  exact ⟨o, s₁, o', s₂, hw, hw', twins_never hwf ht le_rfl⟩

/-- The second of the two files is not addressed by its name and extension. -/
theorem not_addressed_sample : ∃ s, WellFormed s ∧ Twins s 2 1 2 ∧
    AddressedTo (request 2 0x61 0x79 100) s 2 2 ∧
    ¬Addressed 512 s (request 2 0x61 0x79 100) 2 1 := by
  obtain ⟨o, s₁, o', s₂, -, -, hwf, ht, hr⟩ := blank_twins
  refine ⟨s₂, hwf, ht, hr, fun ha => ?_⟩
  obtain ⟨s', hd, hg, -, -⟩ := ha.delete fun _ => none
  obtain ⟨-, hi⟩ := found_of_givenUp hd (by decide) ht.right.used hg
  exact (findSlot_eq_some_iff.1 hi).2 1 (by decide) (ht.name.trans hr.name.symm)

end Fat32
end Jatos
