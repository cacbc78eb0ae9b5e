/-
# All or nothing

A write that answers 0 should have put one entry into the parent, under the name
and with clusters allocated for it, that the lookups then find; any other answer
should leave the volume alone (`AllOrNothing`).  Given the clusters, the second
half always holds, and the first half holds exactly when the lookups, which
start at slot 0, reach the slot that `write` filled, the first free one, before
any other of that name, and `read` does not reject the name
(`allOrNothing_iff`).
-/

import Jatos.Fat32.Names

namespace Jatos
namespace Fat32

open Packed

variable {r r' : Request} {k : Stack} {s s' : State} {o : Reply} {fuel : ℕ} {i j : Fin 64}
  {e : DirectoryEntry} {F : List ℕ}

/-- The entry in slot `j` is what the request's name finds: a file's bytes are
read, a folder's table is. -/
def FoundAt (fuel : ℕ) (r : Request) (s : State) (j : Fin 64) : Prop :=
  findSlot (s.table r.parent) r.name = some j ∧
    ∀ r' : Request, r'.parent = r.parent → r'.name = r.name →
      (r.bufferSize ≠ 0 → r.bufferSize.toNat ≤ r'.bufferSize.toNat →
        ∃ buf, Fat32.read fuel r' s = some (⟨0, buf⟩, s) ∧
          ∀ i < r.bufferSize.toNat, buf i = r.buf i) ∧
      (r.bufferSize = 0 → r'.bufferSize.toNat = CLUSTER_SIZE →
        readDirectory r' s =
          ⟨0, r'.buf.putCluster 0 (s.cluster (s.table r.parent j).cluster)⟩)

/-- The parent has one new entry, under the name, on clusters that were EMPTY,
and it is found. -/
def Installed (fuel : ℕ) (r : Request) (s s' : State) : Prop :=
  ∃ j e F, ¬(s.table r.parent j).Used ∧ e.Used ∧ e.name = r.name ∧
    s'.table r.parent = Function.update (s.table r.parent) j e ∧ FatChain s'.mem e.cluster F ∧
    (∀ c ∈ F, c ∈ freeList s.mem) ∧ FoundAt fuel r s' j

/-- The write installs its entry, or it changes neither the disk nor the table. -/
def AllOrNothing (fuel : ℕ) (k : Stack) (r : Request) (s : State) : Prop :=
  ∃ o s', write fuel k r s = some (o, s') ∧
    (o.code = 0 → Installed fuel r s s') ∧ (o.code ≠ 0 → Kept s s')

/-- The first free slot of the parent, if any, comes before every other slot of
that name, and a file has a name; without a free slot the request is a file. -/
def Insertable (r : Request) (s : State) : Prop :=
  match freeSlot (s.table r.parent) with
  | none => r.bufferSize ≠ 0
  | some j => (∀ i < j, (s.table r.parent i).name ≠ r.name) ∧ (r.bufferSize ≠ 0 → r.name ≠ 0)

/-- A new entry in front of every other slot of its name is found. -/
theorem Made.foundAt (hc : Made r e F s s') (h : WellFormed s) (hp : LiveDir s r.parent)
    (hj : freeSlot (s.table r.parent) = some j)
    (hfirst : ∀ i < j, (s.table r.parent i).name ≠ r.name) (hn : r.bufferSize ≠ 0 → r.name ≠ 0)
    (hfuel : 512 ≤ fuel) : FoundAt fuel r s' j := by
  have hnew := hc.slot_new hj
  have hfind : findSlot (s'.table r.parent) r.name = some j := by
    refine findSlot_eq_some_iff.2 ⟨by rw [hnew, hc.name], fun i hi => ?_⟩
    rw [hc.table_parent hj, Function.update_of_ne hi.ne]
    exact hfirst i hi
  refine ⟨hfind, fun r' hpar hname => ⟨fun hs hsize => ?_, fun hs hsize => ?_⟩⟩
  · have he : LiveEntry s' r'.parent j := hpar ▸ hc.entry_new h hp hj
    have hB : Holds s' r'.parent j (.file r.bytes) := by
      have := hc.holds_new hnew
      rwa [Request.node, if_neg hs, ← hpar] at this
    obtain ⟨buf, hread, hbuf⟩ := hB.read (hc.wellFormed h) he (hname ▸ hn hs)
      (by rw [hpar, hname, hfind]) (by rwa [r.length_bytes]) hfuel
    refine ⟨buf, hread, fun i hi => ?_⟩
    rw [hbuf i (by rwa [r.length_bytes])]
    simp [Request.bytes]
  · have h0 : (s'.table r.parent j).filesize = 0 := by rw [hnew, hc.filesize, hs]
    simp only [readDirectory, hsize, ne_eq, not_true_eq_false, if_false, hpar, hname, hfind, h0]

/-- **Enough**: an insertable request is all or nothing. -/
theorem Insertable.allOrNothing (hi : Insertable r s) (h : WellFormed s) (hp : LiveDir s r.parent)
    (hfit : Fits r s) (hfuel : 512 ≤ fuel) : AllOrNothing fuel k r s := by
  have hrange := h.live_range hp
  have h0 := h.live_ne_empty hp
  cases hj : freeSlot (s.table r.parent) with
  | none =>
      have hs : r.bufferSize ≠ 0 := by rwa [Insertable, hj] at hi
      obtain ⟨s', hw, hk, -⟩ := write_turnedDown (k := k) hrange.2 h0 ⟨hs, hj, hfit.ne_nil⟩
        (by omega : 1 ≤ fuel)
      exact ⟨_, s', hw, fun hcode => absurd hcode (by decide : ¬(-1 : ℤ) = 0),
        fun _ => hk⟩
  | some j =>
      obtain ⟨hfirst, hn⟩ : (∀ i < j, (s.table r.parent i).name ≠ r.name) ∧
          (r.bufferSize ≠ 0 → r.name ≠ 0) := by rwa [Insertable, hj] at hi
      obtain ⟨o, e, F, s', hw, hcode, hm⟩ := write_made (k := k) hrange h0 hfit
        (fun _ => by rw [hj]; rfl) (by omega : 2 ≤ fuel)
      refine ⟨o, s', hw, fun _ => ?_, fun hne => absurd hcode hne⟩
      exact ⟨j, e, F, freeSlot_not_used hj, hm.used, hm.name,
        hm.table_parent hj, hm.chain, hm.free,
        hm.foundAt h hp hj hfirst hn hfuel⟩

/-- **Needed**: a request that is all or nothing is insertable. -/
theorem AllOrNothing.insertable (ha : AllOrNothing fuel k r s) (h : WellFormed s)
    (hp : LiveDir s r.parent) (hfit : Fits r s) (hfuel : 512 ≤ fuel) : Insertable r s := by
  obtain ⟨o, s', hw, hinst, -⟩ := ha
  -- the write answers 0 and makes an entry, unless it is turned down
  have hmade : (r.bufferSize ≠ 0 → (freeSlot (s.table r.parent)).isSome) →
      ∃ e F, Made r e F s s' ∧ Installed fuel r s s' := by
    intro hslot
    obtain ⟨o', e, F, s'', hw', hcode, hm⟩ := write_made (k := k) (h.live_range hp)
      (h.live_ne_empty hp) hfit hslot (by omega : 2 ≤ fuel)
    obtain ⟨rfl, rfl⟩ := Prod.mk.inj (Option.some.inj (hw'.symm.trans hw))
    exact ⟨e, F, hm, hinst hcode⟩
  rw [Insertable]
  cases hj : freeSlot (s.table r.parent) with
  | none =>
      intro hs
      obtain ⟨e, F, hm, j, -, -, hfree, -⟩ := hmade fun hne => absurd hs hne
      exact hfree (freeSlot_eq_none_iff.1 hj j)
  | some j =>
      obtain ⟨e, F, hm, j', e', F', hfree, hu, -, htab, -, -, hfind, hread⟩ :=
        hmade fun _ => by rw [hj]; rfl
      -- the slot that changed is the first free one
      have hjj : j' = j := by
        by_contra hne
        have hold : s'.table r.parent j' = s.table r.parent j' := by
          rw [hm.table_parent hj, Function.update_of_ne hne]
        rw [htab, Function.update_self] at hold
        exact hfree (hold ▸ hu)
      subst hjj
      refine ⟨fun i hi hname => ?_, fun hs hn => ?_⟩
      · refine (findSlot_eq_some_iff.1 hfind).2 i hi ?_
        rw [htab, Function.update_of_ne hi.ne, hname]
      · obtain ⟨buf, hr, -⟩ := (hread r rfl rfl).1 hs le_rfl
        rw [read_empty_name hn] at hr
        exact absurd (congrArg (fun x => x.1.code) (Option.some.inj hr)) (by decide : ¬(-1 : ℤ) = 0)

/-- **When a write is all or nothing**, given the clusters it needs. -/
theorem allOrNothing_iff (h : WellFormed s) (hp : LiveDir s r.parent) (hfit : Fits r s)
    (hfuel : 512 ≤ fuel) : AllOrNothing fuel k r s ↔ Insertable r s :=
  ⟨fun ha => ha.insertable h hp hfit hfuel, fun hi => hi.allOrNothing h hp hfit hfuel⟩

/-- A file without a name is written to the root of a blank volume, and is not
found. -/
theorem not_allOrNothing_sample :
    WellFormed (createFat32 blank) ∧ LiveDir (createFat32 blank) 2 ∧
      Fits (request 2 0 0x78 100) (createFat32 blank) ∧
      ¬AllOrNothing 512 blankStack (request 2 0 0x78 100) (createFat32 blank) := by
  have hwf := (createFat32_sound blank).toWellFormed
  have hfit : Fits (request 2 0 0x78 100) (createFat32 blank) :=
    createFat32_fits blank_zeroed (by decide)
  refine ⟨hwf, .root, hfit, fun ha => ?_⟩
  have hi := ha.insertable hwf .root hfit le_rfl
  have hj : freeSlot ((createFat32 blank).table (request 2 0 0x78 100).parent) = some 1 :=
    createFat32_freeSlot blank
  rw [Insertable, hj] at hi
  exact hi.2 (by decide) (by decide)

/-- The condition at a file with a name. -/
theorem allOrNothing_iff_sample :
    AllOrNothing 512 blankStack (request 2 0x61 0x78 3000) (createFat32 blank) ↔
      Insertable (request 2 0x61 0x78 3000) (createFat32 blank) :=
  allOrNothing_iff (createFat32_sound blank).toWellFormed .root
    (createFat32_fits blank_zeroed (by decide)) le_rfl

end Fat32
end Jatos
