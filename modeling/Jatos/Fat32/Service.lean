/-
# What one request does

`Safe` collects what the driver takes for granted of a request: its parent is a
live directory, a write fits, and a delete that finds its name finds a used
slot, and not slot 0, and does not get through the folder branch, which puts the
folder's bytes in the place of the parent's table.  The driver checks none of
this.  Under `Safe`, a request in a well-formed volume has one of the three
effects of `Fat32/Change.lean`
(`exec_effect`), and so it keeps the volume well formed, the mount in place and
the self-entries of the directories (`Effect.sound`).

`create_fat32` on a zeroed `driver_state` gives such a volume (`createFat32_sound`).
-/

import Jatos.Fat32.Change
import Jatos.Foundation.Runs

namespace Jatos
namespace Fat32

open Linked

variable {r : Request} {k : Stack} {peek : ℕ → Option UInt8} {op : Op} {o : Reply}
  {s s' : State} {fuel d : ℕ}

/-! ### Requests that fit -/

/-- The clusters that a write allocates: one for a folder. -/
def Request.clusters (r : Request) : ℕ :=
  if r.bufferSize = 0 then 1 else clusterNeed r.bufferSize.toNat

/-- There are as many EMPTY entries as the write needs. -/
def Fits (r : Request) (s : State) : Prop := r.clusters ≤ (freeList s.mem).length

/-- A file for a full parent: it is turned down at the first EMPTY entry. -/
def TurnedDown (r : Request) (s : State) : Prop :=
  r.bufferSize ≠ 0 ∧ freeSlot (s.table r.parent) = none ∧ freeList s.mem ≠ []

/-- What the driver takes for granted of a request. -/
def Safe (s : State) : Op → Prop
  | .read r | .readDirectory r => LiveDir s r.parent
  | .write _ r => LiveDir s r.parent ∧ (Fits r s ∨ TurnedDown r s)
  | .delete peek r => LiveDir s r.parent ∧ ∀ i : Fin 64, r.name ≠ 0 →
      findSlot (s.table r.parent) r.name = some i → i ≠ 0 ∧ (s.table r.parent i).Used ∧
        (r.ext = 0 → emptinessTest peek s r.parent i ≠ some false)

/-- A safe request names a live folder. -/
theorem Safe.live (h : Safe s op) : LiveDir s op.request.parent := by
  cases op with
  | read r => exact h
  | readDirectory r => exact h
  | write k r => exact h.1
  | delete peek r => exact h.1

/-- Every request needs at least one cluster. -/
theorem Request.clusters_pos (r : Request) : 0 < r.clusters := by
  unfold clusters
  split_ifs with hs
  · exact Nat.one_pos
  · exact clusterNeed_bufferSize_pos hs

/-- Where a request fits, there is a free cluster. -/
theorem Fits.ne_nil (h : Fits r s) : freeList s.mem ≠ [] :=
  List.length_pos_iff.1 (r.clusters_pos.trans_le h)

/-! ### Effects -/

/-- The entry of a write, for a chain from cluster `f` on. -/
def newEntry (k : Stack) (r : Request) (f : ℕ) : DirectoryEntry :=
  if r.bufferSize = 0 then folderEntry k r f else fileEntry r f

/-- A new entry has the name that was asked for. -/
theorem newEntry_name (k : Stack) (r : Request) (f : ℕ) : (newEntry k r f).name = r.name := by
  unfold newEntry
  split_ifs <;> rfl

/-- A new entry has the size that was asked for. -/
theorem newEntry_filesize (k : Stack) (r : Request) (f : ℕ) :
    (newEntry k r f).filesize = r.bufferSize := by
  unfold newEntry
  split_ifs <;> rfl

/-- **The effect of a request.**  A write that answers 0 made an entry, a delete
that answers 0 had an extension and dropped the entry it found, and nothing else
touched the volume. -/
inductive Effect (s : State) : Op → Reply → State → Prop
  | kept {op : Op} {o : Reply} {s' : State} : Kept s s' →
      (∀ k r, op = .write k r → o.code ≠ 0) → (∀ peek r, op = .delete peek r → o.code ≠ 0) →
      ((∀ r, op ≠ .read r) → s'.stray = s.stray) → Effect s op o s'
  | made {k : Stack} {r : Request} {o : Reply} {f : ℕ} {F : List ℕ} {s' : State} :
      o.code = 0 → (r.bufferSize ≠ 0 → (freeSlot (s.table r.parent)).isSome) →
      Made r (newEntry k r f) F s s' → Effect s (.write k r) o s'
  | dropped {peek : ℕ → Option UInt8} {r : Request} {o : Reply} {i : Fin 64} {F : List ℕ}
      {s' : State} : o.code = 0 → r.name ≠ 0 → r.ext ≠ 0 →
      findSlot (s.table r.parent) r.name = some i → Dropped r i F s s' →
      Effect s (.delete peek r) o s'

/-! ### Reads -/

/-- The copy loop of `read` writes to the buffer only. -/
theorem readChain_kept {size w a : ℕ} {buf : Buffer}
    (h : readChain size fuel s buf w a = some (o, s')) : Kept s s' := by
  induction fuel generalizing s buf w a with
  | zero => cases h
  | succ fuel ih =>
      rw [readChain] at h
      have htouch : Kept s (s.touch a) :=
        ⟨State.touch_disk, fun c _ => congrFun State.touch_mem c⟩
      split_ifs at h with hsize
      · cases h
        exact .refl _
      simp only at h
      split_ifs at h
      · cases h
        exact htouch
      · have hrest := ih h
        exact ⟨hrest.disk.trans htouch.disk, fun c hc => (hrest.mem c hc).trans (htouch.mem c hc)⟩

/-- `read` keeps the volume. -/
theorem read_kept (h : Fat32.read fuel r s = some (o, s')) : Kept s s' := by
  rw [Fat32.read] at h
  split_ifs at h with hn
  · cases h
    exact .refl s
  · cases hi : findSlot (s.table r.parent) r.name with
    | none =>
        simp only [hi] at h
        cases h
        exact .refl s
    | some i =>
        simp only [hi] at h
        split_ifs at h with hsize
        · cases h
          exact .refl s
        · exact readChain_kept h

/-! ### Writes -/

/-- **A write that fits** and finds a slot, or needs none, makes an entry of the
first free clusters, in order. -/
theorem write_made_first (hp : 2 ≤ r.parent ∧ r.parent < 512)
    (h0 : s.mem r.parent ≠ FAT32_FAT_EMPTY_ENTRY) (hfit : Fits r s)
    (hj : r.bufferSize ≠ 0 → (freeSlot (s.table r.parent)).isSome) (hfuel : 2 ≤ fuel) :
    ∃ o f F s', write fuel k r s = some (o, s') ∧ o.code = 0 ∧
      Made r (newEntry k r f) (f :: F) s s' ∧ f :: F <+: freeList s.mem := by
  by_cases hs : r.bufferSize = 0
  · obtain ⟨f, s', hw, hc, ht, hpre⟩ := write_folder (k := k) hp h0 hs hfit.ne_nil
    have he : (folderEntry k r f).filesize = r.bufferSize := hc.filesize
    refine ⟨_, f, [], s', hw, rfl, ?_, hpre⟩
    rw [newEntry, if_pos hs]
    refine ⟨hc, ?_, fun _ => ?_, fun hne => absurd (he.trans hs) hne⟩
    · rw [DirectoryEntry.clusters, if_pos (he.trans hs)]
      rfl
    · have hf : f < 512 := (mem_freeList.1 (hc.free f List.mem_cons_self)).1.2
      rw [folderEntry_cluster hf]
      exact ⟨_, ht⟩
  · obtain ⟨j, hj⟩ := Option.isSome_iff_exists.1 (hj hs)
    rw [Fits, Request.clusters, if_neg hs] at hfit
    obtain ⟨v, f, F, s', hw, hc, hlen, hst, hpre⟩ := write_file (k := k) hp h0 hs hj hfit hfuel
    have he : (fileEntry r f).filesize ≠ 0 := hs
    refine ⟨_, f, F, s', hw, rfl, ?_, hpre⟩
    rw [newEntry, if_neg hs]
    refine ⟨hc, ?_, fun h => absurd h he, fun _ => hst⟩
    rw [DirectoryEntry.clusters, if_neg he]
    exact hlen

/-- A `write` that fits is answered 0 and makes its object. -/
theorem write_made (hp : 2 ≤ r.parent ∧ r.parent < 512)
    (h0 : s.mem r.parent ≠ FAT32_FAT_EMPTY_ENTRY) (hfit : Fits r s)
    (hj : r.bufferSize ≠ 0 → (freeSlot (s.table r.parent)).isSome) (hfuel : 2 ≤ fuel) :
    ∃ o e F s', write fuel k r s = some (o, s') ∧ o.code = 0 ∧ Made r e F s s' := by
  obtain ⟨o, f, F, s', hw, hcode, hm, -⟩ := write_made_first (k := k) hp h0 hfit hj hfuel
  exact ⟨o, _, _, s', hw, hcode, hm⟩

/-- A write that is turned down changes neither the disk nor the table. -/
theorem write_turnedDown (hp : r.parent < 512) (h0 : s.mem r.parent ≠ FAT32_FAT_EMPTY_ENTRY)
    (hd : TurnedDown r s) (hfuel : 1 ≤ fuel) :
    ∃ s', write fuel k r s = some (⟨-1, r.buf⟩, s') ∧ Kept s s' ∧ s'.stray = s.stray := by
  obtain ⟨hs, hj, hfree⟩ := hd
  exact ⟨_, write_file_full hp h0 hs hj hfree hfuel,
    ⟨rfl, fun c hc => State.fill_mem_of_lt _ hc⟩, rfl⟩

/-- A write that fits is turned down, or it finds what it needs. -/
theorem Fits.cases (h : Fits r s) :
    TurnedDown r s ∨ (r.bufferSize ≠ 0 → (freeSlot (s.table r.parent)).isSome) := by
  by_cases hs : r.bufferSize = 0
  · exact Or.inr fun hne => absurd hs hne
  · cases hj : freeSlot (s.table r.parent) with
    | none => exact Or.inl ⟨hs, hj, h.ne_nil⟩
    | some j => exact Or.inr fun _ => rfl

/-- A safe `write` has the effect that the abstract change describes. -/
theorem write_effect (hwf : WellFormed s) (hs : Safe s (.write k r)) (hfuel : 2 ≤ fuel) :
    ∃ o s', write fuel k r s = some (o, s') ∧ Effect s (.write k r) o s' := by
  obtain ⟨hp, hroom⟩ := hs
  have hrange := hwf.live_range hp
  have h0 := hwf.live_ne_empty hp
  have hdown : TurnedDown r s →
      ∃ o s', write fuel k r s = some (o, s') ∧ Effect s (.write k r) o s' := by
    intro hd
    obtain ⟨s', hw, hk, hstray⟩ := write_turnedDown (k := k) hrange.2 h0 hd (Nat.le_of_lt hfuel)
    refine ⟨_, s', hw, .kept hk (fun _ _ _ => ?_) (fun _ _ h => ?_) fun _ => hstray⟩
    · exact (by decide : (-1 : ℤ) ≠ 0)
    · cases h
  rcases hroom with hfit | hd
  · rcases hfit.cases with hd | hj
    · exact hdown hd
    · obtain ⟨o, f, F, s', hw, hcode, hm, -⟩ :=
        write_made_first (k := k) hrange h0 hfit hj hfuel
      exact ⟨o, s', hw, .made hcode hj hm⟩
  · exact hdown hd

/-! ### Deletes -/

/-- **The file branch on a live entry** drops it. -/
theorem delete_dropped {i : Fin 64} {l : List ℕ} (peek : ℕ → Option UInt8) (h : WellFormed s)
    (he : LiveEntry s r.parent i) (hn : r.name ≠ 0) (hx : r.ext ≠ 0)
    (hi : findSlot (s.table r.parent) r.name = some i) (hl : EntryChain s r.parent i l)
    (hfuel : 512 ≤ fuel) :
    ∃ s', delete fuel peek r s = some (0, s') ∧ Dropped r i l s s' := by
  have hlt := h.chain_range he hl
  have hlen := h.chain_length_le he hl
  obtain ⟨s', hd, hr⟩ := delete_file peek (h.live_range he.dir) hn hx hi hl
    (fun c hc => by have := hlt c hc; omega) (by omega : l.length ≤ fuel)
  exact ⟨s', hd, { hr with entry := he, chain := hl }⟩

/-- A delete has its effect, or the folder branch faults at its pointer. -/
theorem delete_effect (hwf : WellFormed s) (hs : Safe s (.delete peek r)) (hfuel : 512 ≤ fuel) :
    (∃ c s', delete fuel peek r s = some (c, s') ∧ Effect s (.delete peek r) ⟨c, r.buf⟩ s') ∨
      r.ext = 0 ∧ delete fuel peek r s = none := by
  obtain ⟨hp, hfound⟩ := hs
  have hkept : ∀ c : ℤ, c ≠ 0 → Effect s (.delete peek r) ⟨c, r.buf⟩ s := fun c hc =>
    .kept (.refl s) (fun _ _ h => by cases h) (fun _ _ _ => hc) fun _ => rfl
  by_cases hn : r.name = 0
  · exact Or.inl ⟨-1, s, delete_empty_name hn, hkept _ (by decide)⟩
  cases hi : findSlot (s.table r.parent) r.name with
  | none => exact Or.inl ⟨1, s, delete_missing hn hi, hkept _ (by decide)⟩
  | some i =>
      obtain ⟨hi0, hu, htest⟩ := hfound i hn hi
      have he : LiveEntry s r.parent i := ⟨hp, hi0, hu⟩
      by_cases hx : r.ext = 0
      · rcases delete_folder_refused hn hx hi (htest hx) with hd | hd
        · exact Or.inr ⟨hx, hd⟩
        · exact Or.inl ⟨2, s, hd, hkept _ (by decide)⟩
      · obtain ⟨l, hl, -, -⟩ := hwf.chain r.parent i he
        obtain ⟨s', hd, hr⟩ := delete_dropped peek hwf he hn hx hi hl hfuel
        exact Or.inl ⟨0, s', hd, .dropped rfl hn hx hi hr⟩

/-- **Every safe request has its effect.** -/
theorem exec_effect (hwf : WellFormed s) (hs : Safe s op) (hfuel : 512 ≤ fuel)
    (h : exec fuel op s = some (o, s')) : Effect s op o s' := by
  cases op with
  | read r =>
      exact .kept (read_kept h) (fun _ _ h => by cases h) (fun _ _ h => by cases h)
        fun hr => absurd rfl (hr r)
  | readDirectory r =>
      cases h
      exact .kept (.refl s) (fun _ _ h => by cases h) (fun _ _ h => by cases h) fun _ => rfl
  | write k r =>
      obtain ⟨o', s'', hw, he⟩ := write_effect hwf hs (by omega : 2 ≤ fuel)
      cases hw.symm.trans h
      exact he
  | delete peek r =>
      rcases delete_effect hwf hs hfuel with ⟨c, s'', hd, he⟩ | ⟨-, hd⟩
      · simp only [exec, hd, Option.map_some] at h
        cases h
        exact he
      · simp only [exec, hd, Option.map_none] at h
        cases h

/-! ### What safe requests keep -/

/-- A well-formed, mounted volume with its self-entries. -/
structure Sound (s : State) : Prop extends WellFormed s, Mounted s, SelfEntries s

/-- A state that keeps the volume keeps it sound. -/
theorem Kept.sound (hk : Kept s s') (h : Sound s) : Sound s' :=
  ⟨hk.wellFormed h.toWellFormed, hk.mounted h.toMounted, hk.selfEntries h.toSelfEntries⟩

/-- A new entry keeps a volume sound. -/
theorem Made.sound {e : DirectoryEntry} {F : List ℕ} (hm : Made r e F s s') (h : Sound s)
    (hp : LiveDir s r.parent) : Sound s' :=
  ⟨hm.wellFormed h.toWellFormed, hm.mounted h.toWellFormed h.toMounted,
    hm.selfEntries h.toWellFormed hp h.toSelfEntries⟩

/-- An entry less keeps a volume sound. -/
theorem Dropped.sound {i : Fin 64} {F : List ℕ} (hd : Dropped r i F s s') (h : Sound s) :
    Sound s' :=
  ⟨hd.wellFormed h.toWellFormed, hd.mounted h.toWellFormed h.toMounted,
    hd.selfEntries h.toWellFormed h.toSelfEntries⟩

/-- **One safe request.** -/
theorem Effect.sound (he : Effect s op o s') (hp : LiveDir s op.request.parent) (h : Sound s) :
    Sound s' := by
  cases he with
  | kept hk _ _ _ => exact hk.sound h
  | made _ _ hm => exact hm.sound h hp
  | dropped _ _ _ _ hd => exact hd.sound h

/-- **Every safe run.** -/
theorem run_sound {ops : List Op} {os : List Reply} {ok : State → Op → Prop}
    (hok : ∀ s op, Sound s → ok s op → Safe s op) (hfuel : 512 ≤ fuel) (h : Sound s)
    (hg : Runs.Guarded (exec fuel) ok ops s) (hr : Runs.run (exec fuel) ops s = some (os, s')) :
    Sound s' :=
  Runs.run_invariant (fun s op _ _ hi hop hx =>
    (exec_effect hi.toWellFormed (hok s op hi hop) hfuel hx).sound (hok s op hi hop).live hi)
    h hg hr

end Fat32
end Jatos
