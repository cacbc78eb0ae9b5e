/-
# What the copy loop fetches

The copy loop of `read` in a volume of any kind.  If it answers 0, it has gone along the
links to their end, and the buffer has the clusters it came to in a row, over what it held
before (`readChain_zero`); and it does answer 0 where the links end in time
(`readChain_fetches`).  Nothing is taken for granted of the chain, which a slot that is not
used may lead into as well.
-/

import Jatos.Fat32.Damage
import Jatos.Fat32.Ascent

namespace Jatos
namespace Fat32

open Linked

variable {r : Request} {s s' : State} {o : Reply} {fuel a b w size : ℕ} {buf : Buffer}
  {l : List ℕ} {i k : Fin 64}

/-- The clusters of a list in a row from chunk `w` on, over what the buffer held. -/
def fetchedFrom (s : State) (l : List ℕ) (w : ℕ) (buf : Buffer) : Buffer := fun j =>
  if j / 2048 < w then buf j
  else
    match l[j / 2048 - w]? with
    | some c => s.cluster c ⟨j % 2048, Nat.mod_lt _ (Nat.succ_pos 2047)⟩
    | none => buf j

/-- The clusters of a list in a row. -/
def fetched (s : State) (l : List ℕ) (buf : Buffer) : Buffer := fetchedFrom s l 0 buf

/-- Fetching nothing leaves the buffer as it is. -/
theorem fetchedFrom_nil (s : State) (w : ℕ) (buf : Buffer) : fetchedFrom s [] w buf = buf := by
  funext j
  simp [fetchedFrom]

/-- The first cluster is fetched before the others. -/
theorem fetchedFrom_cons (s : State) (c : ℕ) (l : List ℕ) (w : ℕ) (buf : Buffer) :
    fetchedFrom s (c :: l) w buf = fetchedFrom s l (w + 1) (buf.putCluster w (s.cluster c)) := by
  funext j
  have hsplit : 2048 * (j / 2048) + j % 2048 = j := Nat.div_add_mod j 2048
  have hmod : j % 2048 < 2048 := Nat.mod_lt _ (by decide)
  have hput : j / 2048 ≠ w → buf.putCluster w (s.cluster c) j = buf j := fun hne =>
    Buffer.putCluster_of_notMem (by omega)
  rcases Nat.lt_trichotomy (j / 2048) w with hlt | heq | hgt
  · rw [fetchedFrom, if_pos hlt, fetchedFrom, if_pos (by omega), hput (by omega)]
  · rw [fetchedFrom, if_neg (by omega), fetchedFrom, if_pos (by omega), heq, Nat.sub_self]
    have hj : 2048 * w + j % 2048 = j := by rw [← heq, hsplit]
    have hat : buf.putCluster w (s.cluster c) (2048 * w + j % 2048) = _ :=
      Buffer.putCluster_of_mem hmod
    rw [hj] at hat
    exact hat.symm
  · obtain ⟨n, hn⟩ : ∃ n, j / 2048 - w = n + 1 := ⟨j / 2048 - w - 1, by omega⟩
    rw [fetchedFrom, if_neg (by omega), fetchedFrom, if_neg (by omega), hput (by omega), hn,
      List.getElem?_cons_succ, show j / 2048 - (w + 1) = n by omega]

/-- What is fetched depends on the clusters of the disk only. -/
theorem fetchedFrom_congr (h : ∀ c, s'.cluster c = s.cluster c) :
    fetchedFrom s' l w buf = fetchedFrom s l w buf := by
  funext j
  simp only [fetchedFrom, h]

/-- What a list of clusters stores is fetched from them. -/
theorem fetched_stored (buf : Buffer) {B : Buffer} (h : Stored s l size B)
    (hle : size ≤ 2048 * l.length) {j : ℕ} (hj : j < size) : fetched s l buf j = B j := by
  have hm : j / 2048 < l.length := by omega
  have hsplit : 2048 * (j / 2048) + j % 2048 = j := Nat.div_add_mod j 2048
  have hget : l[j / 2048]? = some l[j / 2048] := List.getElem?_eq_getElem hm
  have hat := h _ _ hget ⟨j % 2048, Nat.mod_lt _ (by decide)⟩ (by simp only; omega)
  simp only [hsplit] at hat
  rw [fetched, fetchedFrom, if_neg (Nat.not_lt_zero _), Nat.sub_zero, hget]
  exact hat

/-! ### The loop -/

/-- The walk visits the last cluster of a chain and stops. -/
theorem readVisits_ends (hw : Passes size w) (hn : s.links a = none) :
    readVisits size (fuel + 1) s w a = [a] := by
  have hend : s.clusterMap a = FAT32_FAT_END_OF_FILE := fatNext_eq_none.1 hn
  rw [readVisits, if_neg hw]
  simp only [hend, if_true]

/-- The walk visits a cluster and then what its cell leads to. -/
theorem readVisits_leads (hw : Passes size w) (hn : s.links a = some b) :
    readVisits size (fuel + 1) s w a = a :: readVisits size fuel (s.touch a) (w + 1) b := by
  obtain ⟨hne, rfl⟩ := fatNext_eq_some.1 hn
  rw [readVisits, if_neg hw]
  exact congrArg (a :: ·) (if_neg hne)

/-- **A loop that answers 0** has come to the end of the links. -/
theorem readChain_zero (h : readChain size fuel s buf w a = some (o, s')) (hcode : o.code = 0) :
    Chain s.links a (readVisits size fuel s w a) ∧
      o.buf = fetchedFrom s (readVisits size fuel s w a) w buf := by
  induction fuel generalizing s w a buf with
  | zero => cases h
  | succ fuel ih =>
      by_cases hw : Passes size w
      · cases hn : s.links a with
        | none =>
            rw [readChain_ends hw hn] at h
            cases h
            rw [readVisits_ends hw hn, fetchedFrom_cons, fetchedFrom_nil]
            exact ⟨.last hn, rfl⟩
        | some b =>
            rw [readChain_leads hw hn] at h
            obtain ⟨hl, hbuf⟩ := ih h
            have hcl : ∀ c, (s.touch a).cluster c = s.cluster c := fun c =>
              State.cluster_congr State.touch_disk c
            rw [readVisits_leads hw hn, fetchedFrom_cons, hbuf]
            exact ⟨.link hn (State.links_touch ▸ hl), fetchedFrom_congr hcl⟩
      · rw [readChain_stop hw] at h
        cases h
        exact absurd hcode (by decide : (2 : ℤ) ≠ 0)

/-- **Links that end in time** are gone along. -/
theorem readChain_fetches (buf : Buffer) (h : Chain s.links a l)
    (hpass : ∀ m < l.length, Passes size (w + m)) (hfuel : l.length ≤ fuel) :
    ∃ o s', readChain size fuel s buf w a = some (o, s') ∧ o.code = 0 ∧
      readVisits size fuel s w a = l := by
  induction l generalizing s w a buf fuel with
  | nil => cases h
  | cons c l ih =>
      obtain ⟨fuel, rfl⟩ : ∃ n, fuel = n + 1 := ⟨fuel - 1, by simp at hfuel; omega⟩
      obtain ⟨hw, hrest⟩ := passes_succ.1 hpass
      cases h with
      | last hn => exact ⟨_, _, readChain_ends hw hn, rfl, readVisits_ends hw hn⟩
      | @link _ b _ hn hl =>
          have htouch : Chain (s.touch c).links b l := by rwa [State.links_touch]
          obtain ⟨o, s', hr, hcode, hvisits⟩ := ih (buf.putCluster w (s.cluster c)) htouch
            hrest (by simpa using hfuel)
          exact ⟨o, s', (readChain_leads hw hn).trans hr, hcode,
            by rw [readVisits_leads hw hn, hvisits]⟩

/-! ### The bytes of a file -/

/-- A live file holds some bytes. -/
theorem LiveEntry.exists_holds {d : ℕ} (h : WellFormed s) (he : LiveEntry s d k)
    (hsize : (s.table d k).filesize ≠ 0) : ∃ B, Holds s d k (.file B) := by
  obtain ⟨l, hl, hlen, -⟩ := h.chain d k he
  rw [DirectoryEntry.clusters, if_neg hsize] at hlen
  let n := (s.table d k).filesize.toNat
  refine ⟨List.ofFn fun j : Fin n => fetched s l (fun _ => 0) j, hsize, by simp [n], l, hl, ?_⟩
  intro m c hm j hj
  have hdiv : (2048 * m + j.val) / 2048 = m := by omega
  have hmod : (2048 * m + j.val) % 2048 = j.val := by omega
  rw [List.length_ofFn] at hj
  simp only
  rw [List.getD_eq_getElem?_getD, List.getElem?_ofFn, dif_pos hj, Option.getD_some, fetched,
    fetchedFrom, if_neg (Nat.not_lt_zero _)]
  simp only [hdiv, Nat.sub_zero, hm, hmod]

/-- It holds no others. -/
theorem Holds.unique {d : ℕ} {B B' : List UInt8} (h : WellFormed s) (he : LiveEntry s d k)
    (hB : Holds s d k (.file B)) (hB' : Holds s d k (.file B')) : B = B' := by
  obtain ⟨h0, hlen, l, hl, hst⟩ := hB
  obtain ⟨-, hlen', l', hl', hst'⟩ := hB'
  obtain rfl := Chain.unique hl hl'
  have hclusters := h.chain_length he hl
  rw [DirectoryEntry.clusters, if_neg h0] at hclusters
  have hle := le_clusterNeed (s.table d k).filesize.toNat
  refine List.ext_getElem (by omega) fun j hj hj' => ?_
  have hat := fetched_stored (fun _ => 0) hst (by omega) hj
  have hat' := fetched_stored (fun _ => 0) hst' (by omega) hj'
  simpa [List.getD_eq_getElem?_getD, hj, hj'] using hat.symm.trans hat'

end Fat32
end Jatos
