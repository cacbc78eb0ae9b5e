/-
# Requests on a damaged volume

Both chain walks stop at the exact value 0x0FFFFFFF and take every other word of
the table for an index.  After a mount the table is what the disk had, which may
be anything; this module says on which tables a read or a delete returns without
an index past the table.

A read goes as far as its buffer lets it: the test compares `512 w`, in 32 bits,
with `buffer_size`, and from `2 ^ 32 - 512` on a buffer passes it always.  A
delete erases every entry as it leaves it, so a cycle does not hold it: it comes
back to an erased entry and goes on from entry 0, which ends the walk or not as
entry 0 would have (`deleteChain_iff`).
-/

import Jatos.Foundation.Redirect
import Jatos.Fat32.Agree
import Jatos.Fat32.Limit
import Jatos.Fat32.Deletion

namespace Jatos
namespace Fat32

open Linked

variable {r : Request} {s s' : State} {o : Reply} {fuel a b w size : ℕ} {buf : Buffer}
  {peek : ℕ → Option UInt8} {i : Fin 64}

/-! ### The links -/

/-- An erased entry leads to entry 0. -/
theorem fatNext_erase (mem : ℕ → UInt32) (a : ℕ) :
    fatNext (Function.update mem a FAT32_FAT_EMPTY_ENTRY) =
      Function.update (fatNext mem) a (some 0) := by
  funext c
  by_cases hc : c = a
  · subst hc
    simp [fatNext, empty_ne_eof]
  · rw [Function.update_of_ne hc, fatNext, fatNext, Function.update_of_ne hc]

/-! ### Deleting -/

/-- An index past the table is never forgotten. -/
theorem lt_of_deleteChain (hd : deleteChain (fuel + 1) a s = some s') (hs : s'.stray = false) :
    a < 512 := by
  refine State.lt_of_touch (s := s) ?_
  change (erase s a).stray = false
  rw [deleteChain] at hd
  split_ifs at hd with hend
  · cases hd
    exact hs
  · exact stray_false_of (fun hst => stray_deleteChain hst hd) hs

/-- The entries that are not EMPTY, twice, and one for a walk that is not at
entry 0 yet: less after every step. -/
def pending (mem : ℕ → UInt32) (a : ℕ) : ℕ :=
  2 * ((Finset.range 512).filter fun c => mem c ≠ FAT32_FAT_EMPTY_ENTRY).card +
    if a = 0 then 0 else 1

/-- Erasing a cell of the table that led on leaves fewer cells to come. -/
theorem pending_erase {mem : ℕ → UInt32} (ha : a < 512) (hn : fatNext mem a = some b)
    (hz : ¬(a = 0 ∧ b = 0)) :
    pending (Function.update mem a FAT32_FAT_EMPTY_ENTRY) b < pending mem a := by
  by_cases h0 : mem a = FAT32_FAT_EMPTY_ENTRY
  · obtain ⟨-, rfl⟩ := fatNext_eq_some.1 hn
    rw [← h0, Function.update_eq_self, pending, pending, h0]
    have hzero : FAT32_FAT_EMPTY_ENTRY.toNat = 0 := rfl
    have ha0 : a ≠ 0 := fun ha0 => hz ⟨ha0, by rw [h0, hzero]⟩
    rw [if_pos hzero, if_neg ha0]
    omega
  · have hmem : a ∈ (Finset.range 512).filter fun c => mem c ≠ FAT32_FAT_EMPTY_ENTRY :=
      Finset.mem_filter.2 ⟨Finset.mem_range.2 ha, h0⟩
    have herase : ((Finset.range 512).filter fun c =>
        Function.update mem a FAT32_FAT_EMPTY_ENTRY c ≠ FAT32_FAT_EMPTY_ENTRY) =
          ((Finset.range 512).filter fun c => mem c ≠ FAT32_FAT_EMPTY_ENTRY).erase a := by
      ext c
      rw [Finset.mem_erase, Finset.mem_filter, Finset.mem_filter, Function.update_apply]
      by_cases hc : c = a
      · simp [hc]
      · simp [hc]
    have hpos := Finset.card_pos.2 ⟨a, hmem⟩
    rw [pending, pending, herase, Finset.card_erase_of_mem hmem]
    split_ifs <;> omega

/-- **When the freeing loop returns** without an index past the table. -/
theorem deleteChain_iff (hs : s.stray = false) :
    (∃ fuel s', deleteChain fuel a s = some s' ∧ s'.stray = false) ↔
      Escapes (fatNext s.mem) (· < 512) 0 a := by
  constructor
  · rintro ⟨fuel, s', hd, hs'⟩
    induction fuel generalizing s a with
    | zero => cases hd
    | succ fuel ih =>
        have ha := lt_of_deleteChain hd hs'
        cases hn : fatNext s.mem a with
        | none => exact (escapes_last hn).2 ha
        | some b =>
            rw [deleteChain_link ha hn] at hd
            have hrest := ih ((erase_stray ha).trans hs) hd
            rw [erase_mem ha, fatNext_erase] at hrest
            exact (escapes_link hn).2 ⟨ha, hrest⟩
  · intro he
    induction hm : pending s.mem a using Nat.strong_induction_on generalizing s a with
    | _ m ih =>
        cases hn : fatNext s.mem a with
        | none =>
            have ha := (escapes_last hn).1 he
            exact ⟨1, _, deleteChain_last ha hn, (erase_stray ha).trans hs⟩
        | some b =>
            obtain ⟨ha, hrest⟩ := (escapes_link hn).1 he
            -- entry 0 does not lead to itself: its links end
            have hz : ¬(a = 0 ∧ b = 0) := by
              rintro ⟨rfl, rfl⟩
              have h0 : Ends (fatNext s.mem) 0 := he.2.elim id And.left
              exact h0.not_return hn (.refl _ 0)
            have hless := pending_erase ha hn hz
            rw [hm, ← erase_mem ha] at hless
            rw [← fatNext_erase, ← erase_mem ha] at hrest
            obtain ⟨fuel, s', hd, hs'⟩ := ih _ hless ((erase_stray ha).trans hs) hrest rfl
            exact ⟨fuel + 1, s', (deleteChain_link ha hn).trans hd, hs'⟩

/-! ### Reading -/

/-- The tests of a loop with one more cluster. -/
theorem passes_succ {n : ℕ} : (∀ m < n + 1, Passes size (w + m)) ↔
    Passes size w ∧ ∀ m < n, Passes size (w + 1 + m) := by
  rw [Nat.forall_lt_succ_left]
  refine and_congr Iff.rfl (forall_congr' fun m => ?_)
  rw [show w + (m + 1) = w + 1 + m by omega]

/-- What the copy loop takes, with `w` clusters copied before: every cluster that
it comes to is one of the table, and it comes to an end, by the test or by the
chain. -/
def Fetches (size : ℕ) (next : ℕ → Option ℕ) (w a : ℕ) : Prop :=
  (∀ n c, (∀ m ≤ n, Passes size (w + m)) → walk next n a = some c → c < 512) ∧
    ∃ n, ¬Passes size (w + n) ∨ walk next n a = none

/-- A walk that has reached its limit fetches nothing more. -/
theorem fetches_stop {next : ℕ → Option ℕ} (hw : ¬Passes size w) : Fetches size next w a :=
  ⟨fun _ _ hpass _ => absurd (hpass 0 (Nat.zero_le _)) hw, 0, Or.inl hw⟩

/-- A walk that ends at a cell fetches it if the cell is in the table. -/
theorem fetches_last {next : ℕ → Option ℕ} (hw : Passes size w) (hn : next a = none) :
    Fetches size next w a ↔ a < 512 := by
  constructor
  · exact fun h => h.1 0 a (fun m hm => by rwa [Nat.le_zero.1 hm]) rfl
  · refine fun ha => ⟨fun n c _ hc => ?_, 1, Or.inr (by rw [walk, hn, Option.bind_none])⟩
    cases n with
    | zero => exact Option.some.inj hc ▸ ha
    | succ n =>
        rw [walk, hn] at hc
        cases hc

/-- A walk that goes on from a cell fetches it, and then what follows. -/
theorem fetches_link {next : ℕ → Option ℕ} (hw : Passes size w) (hn : next a = some b) :
    Fetches size next w a ↔ a < 512 ∧ Fetches size next (w + 1) b := by
  have hpass : ∀ n, (∀ m ≤ n + 1, Passes size (w + m)) ↔ ∀ m ≤ n, Passes size (w + 1 + m) := by
    intro n
    simp only [← Nat.lt_add_one_iff, passes_succ, hw, true_and]
  have hshift : ∀ n, w + 1 + n = w + (n + 1) := fun n => by omega
  constructor
  · rintro ⟨hrange, n, hstop⟩
    refine ⟨hrange 0 a (fun m hm => by rwa [Nat.le_zero.1 hm]) rfl, fun n c hn' hc => ?_, ?_⟩
    · exact hrange (n + 1) c ((hpass n).2 hn') ((walk_link hn n).trans hc)
    · cases n with
      | zero =>
          rcases hstop with hstop | hstop
          · exact absurd hw hstop
          · cases hstop
      | succ n => exact ⟨n, by rwa [hshift, ← walk_link hn]⟩
  · rintro ⟨ha, hrange, n, hstop⟩
    refine ⟨fun n c hn' hc => ?_, n + 1, by rwa [walk_link hn, ← hshift]⟩
    cases n with
    | zero => exact Option.some.inj hc ▸ ha
    | succ n => exact hrange n c ((hpass n).1 hn') ((walk_link hn n).symm.trans hc)

/-- An index past the table is never forgotten. -/
theorem lt_of_readChain (hw : Passes size w)
    (hr : readChain size (fuel + 1) s buf w a = some (o, s')) (hs : s'.stray = false) :
    a < 512 := by
  refine State.lt_of_touch (s := s) ?_
  rw [readChain, if_neg hw] at hr
  simp only at hr
  split_ifs at hr with hend
  · cases hr
    exact hs
  · exact stray_false_of (fun hst => stray_readChain hst hr) hs

/-- **When the copy loop returns** without an index past the table. -/
theorem readChain_iff (hs : s.stray = false) :
    (∃ fuel o s', readChain size fuel s buf w a = some (o, s') ∧ s'.stray = false) ↔
      Fetches size (fatNext s.mem) w a := by
  constructor
  · rintro ⟨fuel, o, s', hr, hs'⟩
    induction fuel generalizing w a buf with
    | zero => cases hr
    | succ fuel ih =>
        by_cases hw : Passes size w
        · have ha := lt_of_readChain hw hr hs'
          cases hn : fatNext s.mem a with
          | none => exact (fetches_last hw hn).2 ha
          | some b =>
              rw [readChain_link hw ha hn] at hr
              exact (fetches_link hw hn).2 ⟨ha, ih hr⟩
        · exact fetches_stop hw
  · intro hf
    obtain ⟨n, hstop⟩ := hf.2
    induction n generalizing w a buf with
    | zero =>
        rcases hstop with hw | hw
        · exact ⟨1, _, _, readChain_stop hw, hs⟩
        · cases hw
    | succ n ih =>
        by_cases hw : Passes size w
        · cases hn : fatNext s.mem a with
          | none => exact ⟨1, _, _, readChain_last hw ((fetches_last hw hn).1 hf) hn, hs⟩
          | some b =>
              obtain ⟨ha, hrest⟩ := (fetches_link hw hn).1 hf
              rw [walk_link hn, show w + (n + 1) = w + 1 + n by omega] at hstop
              obtain ⟨fuel, o, s', hr, hs'⟩ : ∃ fuel o s',
                  readChain size fuel s (buf.putCluster w (s.cluster a)) (w + 1) b = some (o, s') ∧
                    s'.stray = false := ih hrest hstop
              exact ⟨fuel + 1, o, s', (readChain_link hw ha hn).trans hr, hs'⟩
        · exact ⟨1, _, _, readChain_stop hw, hs⟩

/-- All tests up to that of cluster `n` pass: the buffer has 512 bytes for each
cluster before it, or more than the product in 32 bits can be. -/
theorem passes_upTo {n : ℕ} (hsize : size < 2 ^ 32) :
    (∀ m ≤ n, Passes size m) ↔ n * 512 ≤ size ∨ 2 ^ 32 - 512 ≤ size := by
  simp only [Passes, CLUSTER_MAP_SIZE]
  constructor
  · intro h
    by_contra hnot
    have := h (size / 512 + 1) (by omega)
    omega
  · rintro h m hm
    omega

/-- The copy loop from the first cluster of a file on. -/
theorem fetches_iff {next : ℕ → Option ℕ} (hsize : size < 2 ^ 32) : Fetches size next 0 a ↔
    (size < 2 ^ 32 - 512 ∨ Ends next a) ∧
      ∀ n c, n * 512 ≤ size ∨ 2 ^ 32 - 512 ≤ size → walk next n a = some c → c < 512 := by
  have hstop : (∃ n, ¬Passes size n ∨ walk next n a = none) ↔
      size < 2 ^ 32 - 512 ∨ Ends next a := by
    rw [ends_iff_walk, exists_or]
    refine or_congr ?_ Iff.rfl
    constructor
    · rintro ⟨n, hn⟩
      by_contra hbig
      exact hn ((passes_upTo hsize).2 (Or.inr (by omega)) n le_rfl)
    · intro hsmall
      refine ⟨size / 512 + 1, fun h => ?_⟩
      simp only [Passes, CLUSTER_MAP_SIZE] at h
      omega
  simp only [Fetches, Nat.zero_add, passes_upTo hsize, hstop]
  exact and_comm

/-- **When the copy loop answers 0**: the links end, and every test before passes. -/
theorem readChain_done_iff :
    (∃ fuel o s', readChain size fuel s buf w a = some (o, s') ∧ o.code = 0) ↔
      ∃ l, Chain s.links a l ∧ ∀ m < l.length, Passes size (w + m) := by
  constructor
  · rintro ⟨fuel, o, s', hr, hcode⟩
    induction fuel generalizing s w a buf with
    | zero => cases hr
    | succ fuel ih =>
        by_cases hw : Passes size w
        · cases hn : s.links a with
          | none =>
              refine ⟨[a], .last hn, fun m hm => ?_⟩
              obtain rfl : m = 0 := by simpa using hm
              exact hw
          | some b =>
              rw [readChain_leads hw hn] at hr
              obtain ⟨l, hl, hpass⟩ := ih hr
              exact ⟨a :: l, .link hn (State.links_touch ▸ hl), passes_succ.2 ⟨hw, hpass⟩⟩
        · rw [readChain_stop hw] at hr
          cases hr
          exact absurd hcode (by decide : (2 : ℤ) ≠ 0)
  · rintro ⟨l, hl, hpass⟩
    induction l generalizing s w a buf with
    | nil => cases hl
    | cons c l ih =>
        obtain ⟨hw, hrest⟩ := passes_succ.1 hpass
        cases hl with
        | last hn => exact ⟨1, _, _, readChain_ends hw hn, rfl⟩
        | @link _ b _ hn hl =>
            have htouch : Chain (s.touch c).links b l := by rwa [State.links_touch]
            obtain ⟨fuel, o, s', hr, hcode⟩ :=
              @ih (s.touch c) b (w + 1) (buf.putCluster w (s.cluster c)) htouch hrest
            exact ⟨fuel + 1, o, s', (readChain_leads hw hn).trans hr, hcode⟩

/-! ### Requests -/

/-- The request names a file, whose chain ends before the test ends the loop. -/
def Complete (s : State) (r : Request) : Prop :=
  r.name ≠ 0 ∧ ∃ i, Opens s r i ∧ ∃ l, Chain s.links (s.table r.parent i).cluster l ∧
    ((l.length - 1) * 512 ≤ r.bufferSize.toNat ∨ 2 ^ 32 - 512 ≤ r.bufferSize.toNat)

/-- **When a read answers 0.** -/
theorem read_done_iff :
    (∃ fuel o s', Fat32.read fuel r s = some (o, s') ∧ o.code = 0) ↔ Complete s r := by
  by_cases hopen : r.name = 0 ∨ ∀ i, ¬Opens s r i
  · obtain ⟨c, hc, hread⟩ := read_of_not_opens hopen
    refine iff_of_false ?_ fun ⟨hn, i, hi, _⟩ => hopen.elim hn fun h => h i hi
    rintro ⟨fuel, o, s', hr, hcode⟩
    rw [hread] at hr
    cases hr
    exact hc hcode
  · obtain ⟨hn, hsome⟩ := not_or.1 hopen
    obtain ⟨i, hi⟩ := not_forall_not.1 hsome
    have hread : ∀ fuel, Fat32.read fuel r s = readChain r.bufferSize.toNat fuel s r.buf 0
        (s.table r.parent i).cluster := fun fuel => read_of_file hn hi.1 hi.2
    have hlast : ∀ l : List ℕ, 0 < l.length → ((∀ m < l.length, Passes r.bufferSize.toNat (0 + m)) ↔
        (l.length - 1) * 512 ≤ r.bufferSize.toNat ∨ 2 ^ 32 - 512 ≤ r.bufferSize.toNat) := by
      intro l hpos
      rw [← passes_upTo r.bufferSize.toNat_lt]
      simp only [Nat.zero_add]
      exact forall_congr' fun m => imp_congr_left (by omega)
    simp only [hread, readChain_done_iff]
    constructor
    · rintro ⟨l, hl, hpass⟩
      exact ⟨hn, i, hi, l, hl, (hlast l hl.length_pos).1 hpass⟩
    · rintro ⟨-, i', hi', l, hl, hsize⟩
      obtain rfl : i = i' := Option.some.inj (hi.1.symm.trans hi'.1)
      exact ⟨l, hl, (hlast l hl.length_pos).2 hsize⟩

/-- The call returns, and used no index past the table. -/
def Robust (op : Op) (s : State) : Prop :=
  ∃ fuel o s', exec fuel op s = some (o, s') ∧ s'.stray = false

/-- The chain of the file that a read opens ends before the buffer is used up, or
the test ends the loop, and all clusters that it comes to are in the table. -/
def ReadReturns (s : State) (r : Request) : Prop :=
  r.name = 0 ∨ ∀ i, Opens s r i →
    (r.bufferSize.toNat < 2 ^ 32 - 512 ∨ Ends (fatNext s.mem) (s.table r.parent i).cluster) ∧
      ∀ n c, n * 512 ≤ r.bufferSize.toNat ∨ 2 ^ 32 - 512 ≤ r.bufferSize.toNat →
        walk (fatNext s.mem) n (s.table r.parent i).cluster = some c → c < 512

/-- Without an extension, the emptiness test returns, and the one entry that is
freed is in the table; with an extension, the links from the found entry, or else
those from entry 0, end, and all that are followed are in the table. -/
def DeleteReturns (peek : ℕ → Option UInt8) (s : State) (r : Request) : Prop :=
  r.name = 0 ∨ ∀ i, findSlot (s.table r.parent) r.name = some i →
    (r.ext = 0 → emptinessTest peek s r.parent i = some true ∨
      emptinessTest peek s r.parent i = some false ∧ (s.table r.parent i).cluster < 512) ∧
    (r.ext ≠ 0 → Escapes (fatNext s.mem) (· < 512) 0 (s.table r.parent i).cluster)

/-- A reading request is robust if and only if the reading walk returns inside the table. -/
theorem robust_read_iff (hs : s.stray = false) : Robust (.read r) s ↔ ReadReturns s r := by
  by_cases hopen : r.name = 0 ∨ ∀ i, ¬Opens s r i
  · obtain ⟨c, -, hread⟩ := read_of_not_opens hopen
    exact iff_of_true ⟨0, _, s, hread 0, hs⟩ (hopen.imp id fun h i hi => absurd hi (h i))
  · obtain ⟨hn, hsome⟩ := not_or.1 hopen
    obtain ⟨i, hi⟩ := not_forall_not.1 hsome
    have hread : ∀ fuel, exec fuel (.read r) s = readChain r.bufferSize.toNat fuel s r.buf 0
        (s.table r.parent i).cluster := fun fuel => read_of_file hn hi.1 hi.2
    simp only [Robust, hread, readChain_iff hs, fetches_iff r.bufferSize.toNat_lt, ReadReturns]
    constructor
    · refine fun h => Or.inr fun i' hi' => ?_
      obtain rfl : i = i' := Option.some.inj (hi.1.symm.trans hi'.1)
      exact h
    · exact fun h => h.resolve_left hn i hi

/-- A deleting request is robust if and only if the deleting walk returns inside the table. -/
theorem robust_delete_iff (hs : s.stray = false) :
    Robust (.delete peek r) s ↔ DeleteReturns peek s r := by
  by_cases hn : r.name = 0
  · refine iff_of_true ⟨0, ⟨-1, r.buf⟩, s, ?_, hs⟩ (Or.inl hn)
    rw [exec, delete_empty_name hn, Option.map_some]
  cases hi : findSlot (s.table r.parent) r.name with
  | none =>
      refine iff_of_true ⟨0, ⟨1, r.buf⟩, s, ?_, hs⟩ (Or.inr fun i hi' => ?_)
      · rw [exec, delete_missing hn hi, Option.map_some]
      · rw [hi] at hi'
        cases hi'
  | some i =>
      have hcond : DeleteReturns peek s r ↔
          (r.ext = 0 → emptinessTest peek s r.parent i = some true ∨
            emptinessTest peek s r.parent i = some false ∧ (s.table r.parent i).cluster < 512) ∧
          (r.ext ≠ 0 → Escapes (fatNext s.mem) (· < 512) 0 (s.table r.parent i).cluster) := by
        refine ⟨fun h => h.resolve_left hn i hi, fun h => Or.inr fun i' hi' => ?_⟩
        obtain rfl : i = i' := Option.some.inj (hi.symm.trans hi')
        exact h
      rw [hcond]
      by_cases hx : r.ext = 0
      · have hunmark : (unmark r i s).stray = false ↔ (s.table r.parent i).cluster < 512 := by
          refine ⟨fun h => State.lt_of_touch (s := s) h, fun h => ?_⟩
          rw [unmark, State.setClusterMap_of_lt h]
          exact hs
        simp only [Robust, exec, delete_of_folder hn hx hi, hx, ne_eq, not_true_eq_false,
          false_implies, and_true, true_implies]
        cases emptinessTest peek s r.parent i with
        | none => simp
        | some used => cases used <;> simp [hs, hunmark]
      · simp only [Robust, exec, delete_of_file hn hx hi, hx, ne_eq, not_false_eq_true,
          false_implies, true_and, true_implies, ← deleteChain_iff hs, Option.map_map]
        constructor
        · rintro ⟨fuel, o, s', hd, hs'⟩
          obtain ⟨s₁, hchain, hq⟩ := Option.map_eq_some_iff.1 hd
          obtain ⟨-, rfl⟩ := Prod.mk.inj hq
          exact ⟨fuel, s₁, hchain, hs'⟩
        · rintro ⟨fuel, s₁, hchain, hs₁⟩
          exact ⟨fuel, _, _, Option.map_eq_some_iff.2 ⟨s₁, hchain, rfl⟩, hs₁⟩

/-! ### After a mount -/

variable {disk : Disk} {mem : ℕ → UInt32}

/-- The state after `initialize_filesystem_fat32`, whatever the memory was. -/
def mount (disk : Disk) (mem : ℕ → UInt32) : State := initializeFilesystemFat32 ⟨disk, mem, false⟩

/-- With the signature in place a mount loads the table that the disk has. -/
theorem mount_loads (mem : ℕ → UInt32) (hsig : disk 0 = fsSignature) :
    (mount disk mem).disk = disk ∧
    (mount disk mem).stray = false ∧
    ∀ c : Fin 512, (mount disk mem).mem c = wordsLayout.symm (readClusters disk 1) c := by
  have hmounted : isEmptyStorage ⟨disk, mem, false⟩ = false := by
    rw [isEmptyStorage, Bool.not_eq_false', sameBytes_iff]
    exact hsig
  rw [mount, initializeFilesystemFat32, hmounted]
  refine ⟨rfl, rfl, fun c => ?_⟩
  simp only [Bool.false_eq_true, if_false]
  rw [State.fill_mem_of_lt _ c.isLt, State.fill_mem_of_mem _ (by omega)]
  rfl

/-- **Which requests a damaged volume serves.**  On every disk image with the
signature, whatever its table and its directories hold, a read and a delete
return without an index past the table exactly under these conditions on the
table that the mount has loaded from it. -/
theorem damaged_iff (hsig : disk 0 = fsSignature) :
    ((mount disk mem).disk = disk ∧
      ∀ c : Fin 512, (mount disk mem).mem c = wordsLayout.symm (readClusters disk 1) c) ∧
    (∀ r, Robust (.read r) (mount disk mem) ↔ ReadReturns (mount disk mem) r) ∧
    ∀ peek r, Robust (.delete peek r) (mount disk mem) ↔
      DeleteReturns peek (mount disk mem) r := by
  obtain ⟨hdisk, hstray, hmem⟩ := mount_loads mem hsig
  exact ⟨⟨hdisk, hmem⟩, fun r => robust_read_iff hstray, fun peek r => robust_delete_iff hstray⟩

/-- The root of a fresh volume with a file on cluster 3, whose entry is EMPTY. -/
def damagedTable : DirectoryTable :=
  Function.update (rootTable blank) 1 (fileEntry (request 2 0x61 0x78 100) 3)

/-- A volume with that root. -/
def damaged : State := (createFat32 blank).writeCluster 2 (tableLayout damagedTable)

/-- A directory that is written anew leaves the mount in place. -/
theorem Mounted.writeCluster {c : ℕ} (h : Mounted s) (hc : 2 ≤ c ∧ c < 512) (b : Cluster) :
    Mounted (s.writeCluster c b) where
  boot := by
    rw [State.writeCluster_disk, writeClusters_boot _ _ (by omega)]
    exact h.boot
  entry0 := h.entry0
  entry1 := h.entry1
  fat := (State.cluster_writeCluster_ne _ hc.2 (by decide : 1 < 512) (by omega)).trans h.fat

/-- The boot sector, the reserved entries and the table of the damaged image are in place. -/
theorem damaged_mounted : Mounted damaged :=
  (createFat32_sound blank).toMounted.writeCluster (by decide) _

/-- The damaged volume. -/
theorem damaged_iff_sample :
    ((mount damaged.disk fun _ => 7).disk = damaged.disk ∧ ∀ c : Fin 512,
      (mount damaged.disk fun _ => 7).mem c =
        wordsLayout.symm (readClusters damaged.disk 1) c) ∧
    (∀ r, Robust (.read r) (mount damaged.disk fun _ => 7) ↔
      ReadReturns (mount damaged.disk fun _ => 7) r) ∧
    ∀ peek r, Robust (.delete peek r) (mount damaged.disk fun _ => 7) ↔
      DeleteReturns peek (mount damaged.disk fun _ => 7) r :=
  damaged_iff damaged_mounted.boot

/-- Neither a read into 1024 bytes nor a delete of that file is served: cluster 3
leads to entry 0, and entry 0 past the table. -/
theorem not_robust_sample : damaged.disk 0 = fsSignature ∧ ∀ mem peek,
    ¬Robust (.read (request 2 0x61 0x78 1024)) (mount damaged.disk mem) ∧
      ¬Robust (.delete peek (request 2 0x61 0x78 100)) (mount damaged.disk mem) := by
  refine ⟨damaged_mounted.boot, fun mem peek => ?_⟩
  have hk : Kept _ (mount damaged.disk mem) :=
    initializeFilesystemFat32_kept damaged_mounted mem false
  obtain ⟨-, hstray, -⟩ := mount_loads mem damaged_mounted.boot
  have htab : (mount damaged.disk mem).table 2 = damagedTable :=
    (hk.table 2).trans (State.table_of_cluster (State.cluster_writeCluster_self _ _))
  have hparent : ∀ size, (request 2 0x61 0x78 size).parent = 2 := fun _ => rfl
  have hslot : damagedTable 1 = fileEntry (request 2 0x61 0x78 100) 3 := Function.update_self _ _ _
  have hcluster : (damagedTable 1).cluster = 3 := by
    rw [hslot]
    exact fileEntry_cluster (by decide)
  have hfound : findSlot damagedTable (request 2 0x61 0x78 100).name = some 1 := by
    refine findSlot_eq_some_iff.2 ⟨by rw [hslot]; rfl, fun j hj => ?_⟩
    obtain rfl : j = 0 := by omega
    rw [damagedTable, Function.update_of_ne (by decide)]
    exact (by decide : rootName ≠ (request 2 0x61 0x78 100).name)
  have h3 : fatNext (mount damaged.disk mem).mem 3 = some 0 := by
    rw [fatNext_eq_some, hk.mem 3 (by decide)]
    have h0 : (createFat32 blank).mem 3 = 0 := createFat32_free blank_zeroed (by decide)
    exact h0 ▸ ⟨empty_ne_eof, rfl⟩
  have h0 : fatNext (mount damaged.disk mem).mem 0 = some 0x0FFFFFF0 := by
    rw [fatNext_eq_some, hk.mem 0 (by decide)]
    have h0 : (createFat32 blank).mem 0 = CLUSTER_0_VALUE := (createFat32_sound blank).entry0
    exact h0 ▸ ⟨(by decide), rfl⟩
  constructor
  · rw [robust_read_iff hstray]
    rintro (hn | h)
    · exact absurd hn (by decide)
    · have hrange := (h 1 ⟨by rw [hparent, htab]; exact hfound, ?_⟩).2 2 0x0FFFFFF0
      · rw [hparent, htab, hcluster, walk_link h3, walk_link h0] at hrange
        exact absurd (hrange (Or.inl (by decide)) rfl) (by decide)
      · rw [hparent, htab, hslot]
        exact (by decide : (100 : UInt32) ≠ 0)
  · rw [robust_delete_iff hstray]
    rintro (hn | h)
    · exact absurd hn (by decide)
    · have hrange := ((h 1 (by rw [hparent, htab]; exact hfound)).2 (by decide)).1
      rw [hparent, htab, hcluster] at hrange
      exact absurd (hrange 0x0FFFFFF0 (.link h3 (.link h0 (.refl _ _)))) (by decide)

end Fat32
end Jatos
