/-
# The file system as a map

What the file system is for: under a name in a directory there is a file with
its bytes, a folder, or nothing (`Tree`).  A write stores a node, a delete takes
it away (`Tree.apply`).  For requests that satisfy `Admits` the driver does just
that, cluster by cluster: `Represents` relates a volume to the map, every
admitted request keeps it (`represents_step`), and so after any admitted run
`read` and `delete` answer as the map says (`read_after_run`).
-/

import Jatos.Fat32.Names
import Mathlib.Data.Fintype.Basic

namespace Jatos
namespace Fat32

open Packed

variable {r : Request} {s s' s₀ : State} {d : ℕ} {i j k : Fin 64} {e : DirectoryEntry}
  {F l : List ℕ} {n : Bytes 8} {fuel : ℕ} {op : Op} {ops : List Op}

/-! ### Admitted requests -/

/-- Writes of fresh names that find a slot and the clusters they need, and
deletes of files and empty folders with an extension in the request. -/
def Admits (s : State) : Op → Prop
  | .write _ r => LiveDir s r.parent ∧ r.name ≠ 0 ∧ Unnamed s r.parent r.name ∧
      (freeSlot (s.table r.parent)).isSome ∧ Fits r s
  | .delete _ r =>
      LiveDir s r.parent ∧ r.ext ≠ 0 ∧ ∃ k : Fin 64, k ≠ 0 ∧ (s.table r.parent k).Used ∧
      (s.table r.parent k).name = r.name ∧
      ((s.table r.parent k).filesize = 0 → EmptyDir s (s.table r.parent k).cluster)
  | _ => False

/-- A sound volume in which names find their entries. -/
structure Tidy (s : State) : Prop where
  sound : Sound s
  distinct : Distinct s
  clean : Clean s
  titled : Titled s

/-- A format leaves a tidy volume. -/
theorem createFat32_tidy (s : State) : Tidy (createFat32 s) :=
  ⟨createFat32_sound s, createFat32_distinct s, createFat32_clean s, createFat32_titled s⟩

/-- A new entry of a fresh name keeps a volume tidy. -/
theorem Made.tidy (hm : Made r e F s s') (h : Tidy s) (hp : LiveDir s r.parent) (hn : r.name ≠ 0)
    (hfresh : NoEntry s r.parent r.name) : Tidy s' :=
  have hwf := h.sound.toWellFormed
  ⟨hm.sound h.sound hp, hm.distinct hwf hfresh h.distinct, hm.clean hwf h.clean,
    hm.titled hwf hn h.titled⟩

/-- An entry less keeps a volume tidy. -/
theorem Dropped.tidy (hr : Dropped r i F s s') (h : Tidy s) : Tidy s' :=
  have hwf := h.sound.toWellFormed
  ⟨hr.sound h.sound, hr.distinct hwf h.distinct, hr.clean hwf h.clean, hr.titled hwf h.titled⟩

/-- An admitted write makes an entry. -/
theorem write_admitted {k : Stack} (h : Tidy s) (ha : Admits s (.write k r)) (hfuel : 512 ≤ fuel) :
    ∃ o j e F s', exec fuel (.write k r) s = some (o, s') ∧
      freeSlot (s.table r.parent) = some j ∧ Made r e F s s' ∧ Tidy s' := by
  obtain ⟨hp, hn, hfresh, hj, hfit⟩ := ha
  have hwf := h.sound.toWellFormed
  obtain ⟨o, e, F, s', hw, hcode, hm⟩ := write_made (k := k) (hwf.live_range hp)
    (hwf.live_ne_empty hp) hfit (fun _ => hj) (by omega : 2 ≤ fuel)
  obtain ⟨j, hj'⟩ := Option.isSome_iff_exists.1 hj
  exact ⟨o, j, e, F, s', hw, hj', hm, hm.tidy h hp hn hfresh.noEntry⟩

/-- The entry that an admitted delete names is the one that is found. -/
theorem Admits.found {peek : ℕ → Option UInt8} (h : Tidy s) (ha : Admits s (.delete peek r)) :
    r.name ≠ 0 ∧ ∃ k, LiveEntry s r.parent k ∧ findSlot (s.table r.parent) r.name = some k ∧
      (s.table r.parent k).name = r.name ∧
      ((s.table r.parent k).filesize = 0 → EmptyDir s (s.table r.parent k).cluster) := by
  obtain ⟨hp, -, k, hk, hu, hname, hempty⟩ := ha
  have hn : r.name ≠ 0 := hname ▸ h.titled _ hp k hu
  exact ⟨hn, k, ⟨hp, hk, hu⟩, findSlot_eq h.distinct h.clean hp hn hu hname, hname, hempty⟩

/-- Admitted requests are safe. -/
theorem Admits.safe (h : Tidy s) (ha : Admits s op) : Safe s op := by
  cases op with
  | read r => exact absurd ha id
  | readDirectory r => exact absurd ha id
  | write k r => exact ⟨ha.1, Or.inl ha.2.2.2.2⟩
  | delete peek r =>
      obtain ⟨-, k, he, hfind, -⟩ := ha.found h
      refine ⟨he.dir, fun i _ hi => ?_⟩
      obtain rfl := Option.some.inj (hfind.symm.trans hi)
      exact ⟨he.slot, he.used, fun hx => absurd hx ha.2.1⟩

/-- An admitted delete drops its entry, a file or an empty folder. -/
theorem delete_admitted {peek : ℕ → Option UInt8} (h : Tidy s) (ha : Admits s (.delete peek r))
    (hfuel : 512 ≤ fuel) :
    ∃ o i F s', exec fuel (.delete peek r) s = some (o, s') ∧ o.code = 0 ∧
      Dropped r i F s s' ∧ Tidy s' ∧ (s.table r.parent i).name = r.name ∧
      ((s.table r.parent i).filesize = 0 → EmptyDir s (s.table r.parent i).cluster) := by
  have hwf := h.sound.toWellFormed
  obtain ⟨hn, k, hentry, hfind, hname, hempty⟩ := ha.found h
  obtain ⟨l, hl, -, -⟩ := hwf.chain r.parent k hentry
  obtain ⟨s', hd, hdr⟩ := delete_dropped peek hwf hentry hn ha.2.1 hfind hl hfuel
  exact ⟨⟨0, r.buf⟩, k, l, s', by simp only [exec, hd, Option.map_some], rfl, hdr, hdr.tidy h,
    hname, hempty⟩

/-- The first write to a fresh volume is admitted, if its name is not the
root's and it fits at all. -/
theorem createFat32_admits {k : Stack} (hz : Zeroed s) (hp : r.parent = 2) (hn : r.name ≠ 0)
    (hroot : r.name ≠ rootName) (hsize : r.clusters ≤ 509) :
    Admits (createFat32 s) (.write k r) := by
  refine ⟨hp ▸ .root, hn, fun k hk => ?_, ?_, createFat32_fits hz hsize⟩
  · rw [hp] at hk
    rcases createFat32_cases .root k with ⟨-, -, hname⟩ | ⟨-, hzero⟩
    · exact hroot (hk.symm.trans hname)
    · exact hn (hk.symm.trans (congrArg DirectoryEntry.name hzero))
  · rw [hp, createFat32_freeSlot]
    rfl

/-- A file that was just written may be deleted. -/
theorem admits_delete_written {k : Stack} {o : Reply} (peek : ℕ → Option UInt8) (h : Tidy s)
    (ha : Admits s (.write k r)) (hs : r.bufferSize ≠ 0) (hx : r.ext ≠ 0) (hfuel : 512 ≤ fuel)
    (hexec : exec fuel (.write k r) s = some (o, s')) : Admits s' (.delete peek r) := by
  obtain ⟨o', j, e, F, s'', hexec', hj, hc, -⟩ := write_admitted h ha hfuel
  obtain ⟨-, rfl⟩ := Prod.mk.inj (Option.some.inj (hexec.symm.trans hexec'))
  have hwf := h.sound.toWellFormed
  have he := hc.entry_new hwf ha.1 hj
  have hnew := hc.slot_new hj
  refine ⟨he.dir, hx, j, he.slot, he.used, by rw [hnew, hc.name], fun h0 => ?_⟩
  rw [hnew, hc.filesize] at h0
  exact absurd h0 hs

/-! ### The map -/

/-- What is under each name of each directory. -/
abbrev Tree := ℕ → Bytes 8 → Option Node

namespace Tree

/-- Nothing is stored. -/
def empty : Tree := fun _ _ => none

/-- What is under one name is replaced. -/
def set (m : Tree) (d : ℕ) (n : Bytes 8) (x : Option Node) : Tree :=
  Function.update m d (Function.update (m d) n x)

/-- What a request does to the map. -/
def apply (m : Tree) : Op → Tree
  | .write _ r => m.set r.parent r.name (some r.node)
  | .delete _ r => m.set r.parent r.name none
  | _ => m

/-- What was put under a name is found under it. -/
theorem set_self (m : Tree) (d : ℕ) (n : Bytes 8) (x : Option Node) : m.set d n x d n = x := by
  rw [set, Function.update_self, Function.update_self]

/-- What is put under one name changes no other. -/
theorem set_of_ne (m : Tree) {d d' : ℕ} {n n' : Bytes 8} (x : Option Node)
    (h : ¬(d' = d ∧ n' = n)) : m.set d n x d' n' = m d' n' := by
  by_cases hd : d' = d
  · subst hd
    rw [set, Function.update_self, Function.update_of_ne fun hn => h ⟨rfl, hn⟩]
  · rw [set, Function.update_of_ne hd]

end Tree

/-- **The volume represents the map**: what the map has under a name is the
content of a live entry of that name, and every live entry is in the map. -/
structure Represents (s : State) (m : Tree) : Prop where
  stored : ∀ d n x, m d n = some x → ∃ k, LiveEntry s d k ∧ (s.table d k).name = n ∧ Holds s d k x
  absent : ∀ d n, m d n = none → ∀ k, LiveEntry s d k → (s.table d k).name ≠ n

/-- A format leaves the empty tree. -/
theorem represents_empty (s : State) : Represents (createFat32 s) Tree.empty where
  stored _ _ _ h := by cases h
  absent _ _ _ _ he := absurd he createFat32_no_entry

/-- A new entry is a new node. -/
theorem Made.represents {m : Tree} (hc : Made r e F s s') (h : WellFormed s)
    (hp : LiveDir s r.parent) (hj : freeSlot (s.table r.parent) = some j) (hm : Represents s m) :
    Represents s' (m.set r.parent r.name (some r.node)) := by
  have hnew := hc.slot_new hj
  constructor
  case stored =>
    intro d n x hx
    by_cases hdn : d = r.parent ∧ n = r.name
    · obtain ⟨rfl, rfl⟩ := hdn
      rw [Tree.set_self] at hx
      obtain rfl := Option.some.inj hx
      exact ⟨j, hc.entry_new h hp hj, by rw [hnew, hc.name], hc.holds_new hnew⟩
    · rw [Tree.set_of_ne _ _ hdn] at hx
      obtain ⟨k, he, hk, hB⟩ := hm.stored d n x hx
      exact ⟨k, hc.entry h he, by rw [hc.table_used h he.dir he.used, hk], hc.holds h hp he hB⟩
  case absent =>
    intro d n hx k he
    by_cases hdn : d = r.parent ∧ n = r.name
    · obtain ⟨rfl, rfl⟩ := hdn
      rw [Tree.set_self] at hx
      cases hx
    · rw [Tree.set_of_ne _ _ hdn] at hx
      rcases hc.entry_inv h he with ⟨he', hk⟩ | ⟨rfl, -, hk⟩
      · rw [hk]
        exact hm.absent d n hx k he'
      · rw [hk, hc.name]
        exact fun hn => hdn ⟨rfl, hn.symm⟩

/-- A dropped entry is a node less. -/
theorem Dropped.represents {m : Tree} (hr : Dropped r i F s s') (h : WellFormed s)
    (hdist : Distinct s) (hname : (s.table r.parent i).name = r.name)
    (hempty : (s.table r.parent i).filesize = 0 → EmptyDir s (s.table r.parent i).cluster)
    (hm : Represents s m) : Represents s' (m.set r.parent r.name none) := by
  constructor
  case stored =>
    intro d n x hx
    by_cases hdn : d = r.parent ∧ n = r.name
    · obtain ⟨rfl, rfl⟩ := hdn
      rw [Tree.set_self] at hx
      cases hx
    · rw [Tree.set_of_ne _ _ hdn] at hx
      obtain ⟨k, he, hk, hB⟩ := hm.stored d n x hx
      have hne : ¬(d = r.parent ∧ k = i) := by
        rintro ⟨rfl, rfl⟩
        exact hdn ⟨rfl, hk.symm.trans hname⟩
      obtain ⟨he', hk'⟩ := hr.entry_of_ne h hempty he hne
      exact ⟨k, he', by rw [hk', hk], hr.holds h he' hB⟩
  case absent =>
    intro d n hx k he
    obtain ⟨he', hk, hne⟩ := hr.entry_inv h he
    rw [hk]
    by_cases hdn : d = r.parent ∧ n = r.name
    · obtain ⟨rfl, rfl⟩ := hdn
      intro hn
      exact hne ⟨rfl, hdist _ he'.dir k i he'.used hr.entry.used (hn.trans hname.symm)⟩
    · rw [Tree.set_of_ne _ _ hdn] at hx
      exact hm.absent d n hx k he'

/-- **One admitted request** does to the volume what it does to the map. -/
theorem represents_step {m : Tree} (h : Tidy s ∧ Represents s m) (ha : Admits s op)
    (hfuel : 512 ≤ fuel) :
    ∃ o s', exec fuel op s = some (o, s') ∧ Tidy s' ∧ Represents s' (m.apply op) := by
  obtain ⟨ht, hm⟩ := h
  have hwf := ht.sound.toWellFormed
  cases op with
  | read r => exact absurd ha id
  | readDirectory r => exact absurd ha id
  | write k r =>
      obtain ⟨o, j, e, F, s', hx, hj, hc, ht'⟩ := write_admitted ht ha hfuel
      exact ⟨o, s', hx, ht', hc.represents hwf ha.1 hj hm⟩
  | delete peek r =>
      obtain ⟨o, i, F, s', hx, -, hr, ht', hname, hempty⟩ := delete_admitted ht ha hfuel
      exact ⟨o, s', hx, ht', hr.represents hwf ht.distinct hname hempty hm⟩

/-- What `read` and `delete` answer in a volume that represents a map. -/
def Answers (fuel : ℕ) (s : State) (r : Request) : Option Node → Prop
  | some (.file B) => B.length ≤ r.bufferSize.toNat →
      ∃ buf, Fat32.read fuel r s = some (⟨0, buf⟩, s) ∧ ∀ i (hi : i < B.length), buf i = B[i]
  | some .dir => Fat32.read fuel r s = some (⟨1, r.buf⟩, s)
  | none => Fat32.read fuel r s = some (⟨3, r.buf⟩, s) ∧
      ∀ peek, Fat32.delete fuel peek r s = some (1, s)

/-- **The answers are those of the map**, for any name but the directory's
own. -/
theorem Represents.answers {m : Tree} (hm : Represents s m) (h : Tidy s)
    (hp : LiveDir s r.parent) (hn : r.name ≠ 0) (h0 : r.name ≠ (s.table r.parent 0).name)
    (hfuel : 512 ≤ fuel) : Answers fuel s r (m r.parent r.name) := by
  cases hx : m r.parent r.name with
  | none =>
      have hi := findSlot_eq_none h.clean hp hn h0 fun k he => hm.absent _ _ hx k he
      exact ⟨read_missing hn hi, fun peek => delete_missing hn hi⟩
  | some x =>
      obtain ⟨k, he, hk, hB⟩ := hm.stored _ _ x hx
      have hi := findSlot_eq h.distinct h.clean hp hn he.used hk
      cases x with
      | file B => exact fun hsize => hB.read h.sound.toWellFormed he hn hi hsize hfuel
      | dir => exact hB.read_dir hn hi

/-- **The driver implements the map.**  Every admitted run from a fresh volume
returns, and after it every lookup answers as the map of the writes and deletes
says. -/
theorem read_after_run (hfuel : 512 ≤ fuel)
    (hg : Runs.Guarded (exec fuel) Admits ops (createFat32 s₀)) :
    ∃ os s, Runs.run (exec fuel) ops (createFat32 s₀) = some (os, s) ∧
      ∀ r : Request, LiveDir s r.parent → r.name ≠ 0 → r.name ≠ (s.table r.parent 0).name →
        Answers fuel s r (ops.foldl Tree.apply Tree.empty r.parent r.name) := by
  have hstep : ∀ s (m : Tree) op, Tidy s ∧ Represents s m → Admits s op →
      ∃ o s', exec fuel op s = some (o, s') ∧ Tidy s' ∧ Represents s' (m.apply op) :=
    fun s m op h ha => represents_step h ha hfuel
  obtain ⟨os, s, hr, ht, hm⟩ :=
    Runs.run_simulates hstep ⟨createFat32_tidy s₀, represents_empty s₀⟩ hg
  exact ⟨os, s, hr, fun r hp hn h0 => hm.answers ht hp hn h0 hfuel⟩

/-- A file of two clusters is written to a blank volume and read back. -/
theorem read_after_run_sample :
    ∃ os s, Runs.run (exec 512) [.write blankStack (request 2 0x61 0x78 3000)] (createFat32 blank) =
        some (os, s) ∧
      ∀ r : Request, LiveDir s r.parent → r.name ≠ 0 → r.name ≠ (s.table r.parent 0).name →
        Answers 512 s r (Tree.apply Tree.empty (.write blankStack (request 2 0x61 0x78 3000))
          r.parent r.name) := by
  have hw : Admits (createFat32 blank) (.write blankStack (request 2 0x61 0x78 3000)) :=
    createFat32_admits blank_zeroed rfl (by decide) (by decide) (by decide)
  exact read_after_run le_rfl ⟨hw, fun _ _ _ => trivial⟩

end Fat32
end Jatos
