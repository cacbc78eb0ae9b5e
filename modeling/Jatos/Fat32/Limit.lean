/-
# What a read stores

`src/header/filesystem/fat32.h` has `read` answer 2 when the buffer is not
enough.  The loop tests `cluster_size*CLUSTER_MAP_SIZE > buffer_size` before each
transfer: it counts 512 bytes, the entries of the table, for a cluster of 2048.
So it copies up to `buffer_size / 512 + 1` clusters into a buffer that has room
for a quarter of them, and a file that is larger than the buffer is cut off in
time only where the buffer has less than 512 bytes and the file a second cluster
(`read_bounded_iff`).
-/

import Jatos.Fat32.Names

namespace Jatos
namespace Fat32

open Linked

variable {r : Request} {s : State} {fuel : ℕ} {i k : Fin 64}

/-- The request opens the file of slot `k`: the lookup stops there. -/
def Opens (s : State) (r : Request) (k : Fin 64) : Prop :=
  findSlot (s.table r.parent) r.name = some k ∧ (s.table r.parent k).filesize ≠ 0

/-- Whatever the buffer holds before, the read returns, stores nothing behind the
clusters that `buffer_size` rounds up to, and answers 2 if the file is larger
than `buffer_size`. -/
def Bounded (fuel : ℕ) (r : Request) (s : State) : Prop :=
  ∀ buf, ∃ o, Fat32.read fuel { r with buf := buf } s = some (o, s) ∧
    (∀ j, 2048 * clusterNeed r.bufferSize.toNat ≤ j → o.buf j = buf j) ∧
    ∀ k, Opens s r k → r.bufferSize.toNat < (s.table r.parent k).filesize.toNat → o.code = 2

/-- A request that opens no file is answered with an error and stores nothing. -/
theorem read_of_not_opens (h : r.name = 0 ∨ ∀ k, ¬Opens s r k) :
    ∃ c, c ≠ 0 ∧ ∀ fuel, Fat32.read fuel r s = some (⟨c, r.buf⟩, s) := by
  by_cases hn : r.name = 0
  · exact ⟨-1, by decide, fun _ => read_empty_name hn⟩
  cases hi : findSlot (s.table r.parent) r.name with
  | none => exact ⟨3, by decide, fun _ => read_missing hn hi⟩
  | some i =>
      refine ⟨1, by decide, fun _ => read_folder hn hi (by_contra fun hsize => ?_)⟩
      exact h.resolve_left hn i ⟨hi, hsize⟩

/-- **What a read of a live file stores**: the clusters of its chain, as many as
the test lets through, and the answer is 0 if these are all. -/
theorem read_stores (h : WellFormed s) (he : LiveEntry s r.parent k) (ho : Opens s r k)
    (hn : r.name ≠ 0) (hfuel : 512 ≤ fuel) :
    ∃ l : List ℕ, l.length = clusterNeed (s.table r.parent k).filesize.toNat ∧ ∀ buf, ∃ buf',
      Fat32.read fuel { r with buf := buf } s =
        some (⟨if l.length ≤ r.bufferSize.toNat / 512 + 1 then 0 else 2, buf'⟩, s) ∧
      (∀ j, 2048 * min l.length (r.bufferSize.toNat / 512 + 1) ≤ j → buf' j = buf j) ∧
      ∀ m c, l[m]? = some c → m ≤ r.bufferSize.toNat / 512 →
        ∀ j : Fin 2048, buf' (2048 * m + j) = s.cluster c j := by
  obtain ⟨hi, hsize⟩ := ho
  obtain ⟨l, hl, hlen, hlt⟩ := h.chain _ _ he
  have hle := h.chain_length_le he hl
  rw [DirectoryEntry.clusters, if_neg hsize] at hlen
  refine ⟨l, hlen, fun buf => ?_⟩
  obtain ⟨buf', hread, hother, hcopied⟩ := readChain_eq r.bufferSize.toNat buf 0 hl
    (fun c hc => (hlt c hc).2) (by omega) (by omega : l.length ≤ fuel)
  simp only [Nat.zero_add] at hread hother hcopied
  refine ⟨buf', ?_, fun j hj => hother j (Or.inr hj), hcopied⟩
  rw [read_of_file (r := { r with buf := buf }) hn hi hsize]
  exact hread

/-- A bounded read of a file that is larger than `buffer_size` is stopped by the test
after the first cluster, which the buffer has bytes of. -/
theorem Bounded.of_larger (hb : Bounded fuel r s) (h : WellFormed s)
    (he : LiveEntry s r.parent k) (ho : Opens s r k) (hfuel : 512 ≤ fuel)
    (hlarge : r.bufferSize.toNat < (s.table r.parent k).filesize.toNat) :
    r.name ≠ 0 ∧ 1 ≤ r.bufferSize.toNat ∧ r.bufferSize.toNat < 512 ∧
      2048 < (s.table r.parent k).filesize.toNat := by
  have hn : r.name ≠ 0 := by
    intro hn
    obtain ⟨o, hread, -, hcode⟩ := hb r.buf
    rw [read_empty_name hn] at hread
    obtain rfl := congrArg Prod.fst (Option.some.inj hread)
    exact absurd (hcode k ho hlarge) (by decide : (-1 : ℤ) ≠ 2)
  obtain ⟨l, hlen, hstores⟩ := read_stores h he ho hn hfuel
  -- the clusters that are copied fit into the buffer: the last byte of them is stored
  have hroom : ¬(clusterNeed r.bufferSize.toNat < l.length ∧
      clusterNeed r.bufferSize.toNat ≤ r.bufferSize.toNat / 512) := by
    rintro ⟨hlt, hle⟩
    have hget := List.getElem?_eq_getElem hlt
    have hbyte : ∀ b : UInt8, s.cluster l[clusterNeed r.bufferSize.toNat] 0 = b := by
      intro b
      obtain ⟨buf', hread, -, hcopied⟩ := hstores fun _ => b
      obtain ⟨o, hread', hbeyond, -⟩ := hb fun _ => b
      obtain rfl := congrArg Prod.fst (Option.some.inj (hread'.symm.trans hread))
      have hcopy := hcopied _ _ hget hle 0
      rw [← hcopy]
      exact hbeyond _ (Nat.le_add_right _ _)
    exact absurd ((hbyte 0).symm.trans (hbyte 1)) (by decide)
  have hcode : ¬l.length ≤ r.bufferSize.toNat / 512 + 1 := by
    intro hall
    obtain ⟨buf', hread, -, -⟩ := hstores r.buf
    obtain ⟨o, hread', -, hcode⟩ := hb r.buf
    rw [hread', if_pos hall] at hread
    obtain rfl := congrArg Prod.fst (Option.some.inj hread)
    exact absurd (hcode k ho hlarge) (by decide : (0 : ℤ) ≠ 2)
  refine ⟨hn, ?_⟩
  simp only [clusterNeed, CLUSTER_SIZE] at hroom hlen
  split_ifs at hroom hlen <;> omega

/-- A read of a file that fits, or that the test stops within the first cluster, is
bounded. -/
theorem bounded_of_opens (h : WellFormed s) (he : LiveEntry s r.parent k) (ho : Opens s r k)
    (hn : r.name ≠ 0) (hfuel : 512 ≤ fuel)
    (hk : (s.table r.parent k).filesize.toNat ≤ r.bufferSize.toNat ∨
      r.name ≠ 0 ∧ 1 ≤ r.bufferSize.toNat ∧ r.bufferSize.toNat < 512 ∧
        2048 < (s.table r.parent k).filesize.toNat) : Bounded fuel r s := by
  intro buf
  obtain ⟨l, hlen, hstores⟩ := read_stores h he ho hn hfuel
  obtain ⟨buf', hread, hother, -⟩ := hstores buf
  refine ⟨_, hread, fun j hj => hother j ?_, fun k' ho' hlt => ?_⟩
  · simp only [clusterNeed, CLUSTER_SIZE] at hj hlen
    split_ifs at hj hlen <;> omega
  · obtain rfl : k = k' := Option.some.inj (ho.1.symm.trans ho'.1)
    have hmore : ¬l.length ≤ r.bufferSize.toNat / 512 + 1 := by
      simp only [clusterNeed, CLUSTER_SIZE] at hlen
      split_ifs at hlen <;> omega
    exact if_neg hmore

/-- **When a read is bounded**: the file that it opens is not larger than
`buffer_size`, or the request has a name, the buffer has less than 512 bytes, but
some, and the file more than one cluster. -/
theorem read_bounded_iff (h : WellFormed s)
    (hlive : ∀ k, Opens s r k → LiveEntry s r.parent k) (hfuel : 512 ≤ fuel) :
    Bounded fuel r s ↔ ∀ k, Opens s r k →
      (s.table r.parent k).filesize.toNat ≤ r.bufferSize.toNat ∨
        r.name ≠ 0 ∧ 1 ≤ r.bufferSize.toNat ∧ r.bufferSize.toNat < 512 ∧
          2048 < (s.table r.parent k).filesize.toNat := by
  constructor
  · intro hb k ho
    by_cases hfits : (s.table r.parent k).filesize.toNat ≤ r.bufferSize.toNat
    · exact Or.inl hfits
    · exact Or.inr (hb.of_larger h (hlive k ho) ho hfuel (not_le.1 hfits))
  · intro hcond
    by_cases hopen : r.name = 0 ∨ ∀ k, ¬Opens s r k
    · intro buf
      obtain ⟨c, -, hread⟩ := read_of_not_opens (r := { r with buf := buf }) hopen
      refine ⟨_, hread fuel, fun j _ => rfl, fun k ho hlt => ?_⟩
      rcases hcond k ho with hfits | ⟨hn, -⟩
      · omega
      · exact absurd ho ((hopen.resolve_left hn) k)
    · obtain ⟨hn, hsome⟩ := not_or.1 hopen
      obtain ⟨k, ho⟩ := not_forall_not.1 hsome
      exact bounded_of_opens h (hlive k ho) ho hn hfuel (hcond k ho)

/-- A file of 3000 bytes is written to a blank volume; a request for it opens it. -/
theorem blank_opens (size : UInt32) : ∃ o s,
    write 512 blankStack (request 2 0x61 0x78 3000) (createFat32 blank) = some (o, s) ∧
    WellFormed s ∧ LiveEntry s 2 1 ∧ (s.table 2 1).filesize = 3000 ∧
    Opens s (request 2 0x61 0x78 size) 1 := by
  obtain ⟨o, F, s, hw, -, hm, he, hslot⟩ := createFat32_write
    (r := request 2 0x61 0x78 3000) blankStack blank_zeroed rfl (by decide) (by decide : 2 ≤ 512)
  have hsize : (s.table 2 1).filesize = 3000 := (congrArg DirectoryEntry.filesize hslot).trans rfl
  have hi := createFat32_found hm rfl (by decide)
  refine ⟨o, s, hw, hm.wellFormed (createFat32_sound blank).toWellFormed, he, hsize, hi, ?_⟩
  exact fun h0 => absurd (hsize.symm.trans h0) (by decide)

/-- The file of a blank volume is read into 3000 bytes. -/
theorem read_bounded_iff_sample : ∃ s, Opens s (request 2 0x61 0x78 3000) 1 ∧
    (Bounded 512 (request 2 0x61 0x78 3000) s ↔
      ∀ k, Opens s (request 2 0x61 0x78 3000) k →
        (s.table 2 k).filesize.toNat ≤ (3000 : UInt32).toNat ∨
          (request 2 0x61 0x78 3000).name ≠ 0 ∧ 1 ≤ (3000 : UInt32).toNat ∧
            (3000 : UInt32).toNat < 512 ∧ 2048 < (s.table 2 k).filesize.toNat) := by
  obtain ⟨o, s, -, hwf, he, -, ho⟩ := blank_opens 3000
  refine ⟨s, ho, read_bounded_iff hwf (fun k hk => ?_) le_rfl⟩
  obtain rfl : 1 = k := Option.some.inj (ho.1.symm.trans hk.1)
  exact he

/-- It is read into 1024 bytes: both clusters are stored, and the answer is 0. -/
theorem not_bounded_sample : ∃ s, WellFormed s ∧ LiveEntry s 2 1 ∧
    Opens s (request 2 0x61 0x78 1024) 1 ∧ (s.table 2 1).filesize = 3000 ∧
    (∃ buf, Fat32.read 512 (request 2 0x61 0x78 1024) s = some (⟨0, buf⟩, s)) ∧
    ¬Bounded 512 (request 2 0x61 0x78 1024) s := by
  obtain ⟨o, s, -, hwf, he, hsize, ho⟩ := blank_opens 1024
  have hsize' : (s.table (request 2 0x61 0x78 1024).parent 1).filesize = 3000 := hsize
  obtain ⟨l, hlen, hstores⟩ := read_stores (r := request 2 0x61 0x78 1024) hwf he ho (by decide)
    (le_refl 512)
  rw [hsize'] at hlen
  have hall : l.length ≤ (request 2 0x61 0x78 1024).bufferSize.toNat / 512 + 1 := by
    rw [hlen]
    decide
  obtain ⟨buf', hread, -⟩ := hstores (request 2 0x61 0x78 1024).buf
  rw [if_pos hall] at hread
  refine ⟨s, hwf, he, ho, hsize, ⟨buf', hread⟩, fun hb => ?_⟩
  obtain ⟨o', hread', -, hcode⟩ := hb (request 2 0x61 0x78 1024).buf
  rw [hread] at hread'
  obtain rfl := congrArg Prod.fst (Option.some.inj hread')
  refine absurd (hcode 1 ho ?_) (by decide : (0 : ℤ) ≠ 2)
  rw [hsize']
  decide

end Fat32
end Jatos
