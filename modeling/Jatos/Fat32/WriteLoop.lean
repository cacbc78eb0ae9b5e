/-
# What the loops of `write` do

The file branch scans the indices in order and, at each EMPTY entry, stores the
next 2048 bytes and links the cluster found before.  Entries ahead of the scan
do not change meanwhile (`fileStep_ended`), so the scan is a walk over the free
list of the table it started with (`scanFile_eq_fillFree`); on `F` free
clusters, exactly as many as the request needs, the walk stores the chunks of
the buffer in them, links them up and stores the table (`fillFree_eq`).  One
pass is enough, and no index past the table is used.

With fewer free clusters than the request needs the walk runs off the end of
the table (`fillFree_short`), and an index past the table leaves its mark
whatever follows (`stray_writeLoop`).
-/

import Jatos.Fat32.Fat

namespace Jatos
namespace Fat32

open Packed

variable {r : Request} {k : Stack}

/-- The cluster stored last, if any: it is linked to the next one found. -/
def Progress.before (p : Progress) : List ℕ := if 0 < p.written then [p.clustBefore] else []

/-- Storing chunk after chunk of a buffer, from chunk `w` on. -/
def storeChunks (buf : Buffer) : ℕ → List ℕ → Disk → Disk
  | _, [], d => d
  | w, f :: F, d => storeChunks buf (w + 1) F (writeClusters d f (buf.getCluster w))

/-! ### One cluster -/

/-- A cluster that is not the last one: stored, and the one before linked to
it. -/
theorem placeCluster_ended {i : ℕ} {p : Progress} (hb : 0 < p.written → p.clustBefore < 512)
    (hw : p.written + 1 ≠ clusterNeed r.bufferSize.toNat) :
    placeCluster r i p = .ended
      { p with
        state :=
          { disk := writeClusters p.state.disk i (p.buf.getCluster p.written)
            mem := if 0 < p.written then
                Function.update p.state.mem p.clustBefore (UInt32.ofNat i)
              else p.state.mem
            stray := p.state.stray }
        written := p.written + 1
        clustBefore := i } := by
  by_cases h : 0 < p.written
  · simp [placeCluster, hw, h, State.setClusterMap_of_lt (hb h), State.writeCluster,
      writeClusters_writeClusters]
  · simp [placeCluster, hw, h, State.writeCluster, writeClusters_writeClusters]

/-- The last cluster: padded, stored and linked, and the table stored. -/
theorem placeCluster_broke {i : ℕ} {p : Progress} (hb : 0 < p.written → p.clustBefore < 512)
    (hi : i < 512) (hw : p.written + 1 = clusterNeed r.bufferSize.toNat) :
    placeCluster r i p = .broke
      { p with
        state :=
          { disk := writeClusters
              (storeChunks (p.buf.pad r.bufferSize.toNat (p.written + 1) i) p.written [i]
                p.state.disk)
              FAT_CLUSTER_NUMBER (wordsLayout fun c => linkUp (p.before ++ [i]) p.state.mem c)
            mem := linkUp (p.before ++ [i]) p.state.mem
            stray := p.state.stray }
        buf := p.buf.pad r.bufferSize.toNat (p.written + 1) i
        written := p.written + 1 } := by
  by_cases h : 0 < p.written
  · simp [placeCluster, hw, h, State.setClusterMap_of_lt (hb h), State.setClusterMap_of_lt hi,
      State.writeCluster, writeClusters_writeClusters, Progress.before, linkUp, storeChunks,
      State.writeFat, State.fatTable]
  · simp [placeCluster, hw, h, State.setClusterMap_of_lt hi, State.writeCluster,
      writeClusters_writeClusters, Progress.before, linkUp, storeChunks, State.writeFat,
      State.fatTable]

/-- The first passage finds a free slot: the entry is stored in the parent's
table. -/
theorem openFile_of_free {i : ℕ} {p : Progress} {j : Fin 64}
    (hj : freeSlot p.state.dirTableBuf = some j) :
    openFile r i p =
      { p with
        state := (p.state.setDirTableBuf
            (Function.update p.state.dirTableBuf j (fileEntry r i))).writeCluster
          r.parent
          (tableLayout (Function.update p.state.dirTableBuf j (fileEntry r i)))
        clustBefore := i
        slotAvailable := true } := by
  simp only [openFile, hj, State.dirTableBuf_setDirTableBuf]

/-- In a full folder, opening a file notes the cluster and enters nothing. -/
theorem openFile_of_full {i : ℕ} {p : Progress} (hj : freeSlot p.state.dirTableBuf = none) :
    openFile r i p = { p with clustBefore := i } := by
  simp only [openFile, hj]

/-- The first passage touches no word of the table. -/
theorem openFile_mem {i c : ℕ} {p : Progress} (hc : c < 512) :
    (openFile r i p).state.mem c = p.state.mem c := by
  cases hj : freeSlot p.state.dirTableBuf with
  | none => rw [openFile_of_full hj]
  | some j =>
      rw [openFile_of_free hj]
      exact State.setDirTableBuf_mem_of_lt _ hc

/-- Opening a file stores none of its bytes. -/
theorem openFile_written {i : ℕ} {p : Progress} : (openFile r i p).written = p.written := by
  cases hj : freeSlot p.state.dirTableBuf with
  | none => rw [openFile_of_full hj]
  | some j => rw [openFile_of_free hj]

/-- **Entries ahead of the scan stay.**  Going on after a free cluster, the loop
has changed no entry but that of the cluster before. -/
theorem fileStep_ended {i : ℕ} {p q : Progress} (hi : i < 512)
    (hb : 0 < p.written → p.clustBefore < 512) (h : fileStep r i p = .ended q) :
    q.clustBefore = i ∧ 0 < q.written ∧
      ∀ c < 512, (0 < p.written → c ≠ p.clustBefore) → q.state.mem c = p.state.mem c := by
  have hplace : ∀ p' : Progress, (0 < p'.written → p'.clustBefore < 512) →
      placeCluster r i p' = .ended q → q.clustBefore = i ∧ 0 < q.written ∧
        ∀ c < 512, (0 < p'.written → c ≠ p'.clustBefore) → q.state.mem c = p'.state.mem c := by
    intro p' hb' h'
    by_cases hw : p'.written + 1 = clusterNeed r.bufferSize.toNat
    · rw [placeCluster_broke hb' hi hw] at h'
      cases h'
    · rw [placeCluster_ended hb' hw] at h'
      cases h'
      refine ⟨rfl, Nat.succ_pos _, fun c _ hne => ?_⟩
      by_cases hp : 0 < p'.written
      · simp [hp, Function.update_of_ne (hne hp)]
      · simp [hp]
  simp only [fileStep] at h
  split_ifs at h with h0 hs
  · have hw : (openFile r i p).written = p.written := openFile_written
    obtain ⟨h₁, h₂, h₃⟩ := hplace _ (by omega) h
    exact ⟨h₁, h₂, fun c hc _ => (h₃ c hc (by omega)).trans (openFile_mem hc)⟩
  · exact hplace p hb h

/-! ### The walk over the free clusters -/

/-- The body of the file loop at each of the given clusters in turn. -/
def fillFree (r : Request) : List ℕ → Progress → Scan
  | [], p => .ended p
  | f :: F, p =>
      match fileStep r f p with
      | .ended q => fillFree r F q
      | exit => exit

/-- **The scan is a walk over the free clusters** among its indices, as the
table stood when it began. -/
theorem scanFile_eq_fillFree {is : List ℕ} {p : Progress} (his : ∀ i ∈ is, i < 512)
    (hnd : is.Nodup) (hb : 0 < p.written → p.clustBefore < 512 ∧ p.clustBefore ∉ is) :
    scanFile r is p =
      fillFree r (is.filter fun i => p.state.mem i = FAT32_FAT_EMPTY_ENTRY) p := by
  induction is generalizing p with
  | nil => rfl
  | cons i is ih =>
      have hi : i < 512 := his i List.mem_cons_self
      have his' : ∀ j ∈ is, j < 512 := fun j hj => his j (List.mem_cons_of_mem _ hj)
      obtain ⟨hni, hnd'⟩ := List.nodup_cons.1 hnd
      rw [scanFile]
      simp only [State.touch_of_lt hi, State.clusterMap_of_lt hi]
      by_cases h0 : p.state.mem i = FAT32_FAT_EMPTY_ENTRY
      · rw [if_pos h0, List.filter_cons_of_pos (by simpa using h0), fillFree]
        cases hstep : fileStep r i p with
        | returned code q => rfl
        | broke q => rfl
        | ended q =>
            obtain ⟨hq, -, hmem⟩ := fileStep_ended hi (fun h => (hb h).1) hstep
            have hsame : ∀ j ∈ is, q.state.mem j = p.state.mem j := fun j hj =>
              hmem j (his' j hj) fun h he => (hb h).2 (he ▸ List.mem_cons_of_mem _ hj)
            refine (ih his' hnd' fun _ => hq ▸ ⟨hi, hni⟩).trans ?_
            rw [List.filter_congr fun j hj => by rw [hsame j hj]]
      · rw [if_neg h0, List.filter_cons_of_neg (by simpa using h0)]
        exact ih his' hnd' fun h => ⟨(hb h).1, fun hj => (hb h).2 (List.mem_cons_of_mem _ hj)⟩

/-- A scan over two ranges goes on with the second where it leaves the first. -/
theorem scanFile_append {is js : List ℕ} {p : Progress} :
    scanFile r (is ++ js) p =
      match scanFile r is p with
      | .ended q => scanFile r js q
      | exit => exit := by
  induction is generalizing p with
  | nil => rfl
  | cons i is ih =>
      simp only [List.cons_append, scanFile]
      split_ifs with h0
      · cases fileStep r i { p with state := p.state.touch i } with
        | returned code q => rfl
        | broke q => rfl
        | ended q => exact ih
      · exact ih

/-- Once some of a file is stored, a round only places the next cluster. -/
theorem fileStep_of_pos {i : ℕ} {p : Progress} (h : 0 < p.written) :
    fileStep r i p = placeCluster r i p := by
  rw [fileStep, if_neg (by omega)]

/-- From a cluster to be stored on, with exactly the clusters `f :: F` left to
fill: their chunks are stored, they are linked, and the table is stored. -/
theorem placeCluster_fillFree {f : ℕ} {F R : List ℕ} {p : Progress}
    (hlt : ∀ c ∈ f :: F, c < 512) (hb : 0 < p.written → p.clustBefore < 512)
    (hw : p.written + (F.length + 1) = clusterNeed r.bufferSize.toNat) :
    ∃ v cb,
      (match placeCluster r f p with
        | .ended q => fillFree r (F ++ R) q
        | exit => exit) =
      .broke
        { state :=
            { disk := writeClusters
                (storeChunks (p.buf.pad r.bufferSize.toNat (clusterNeed r.bufferSize.toNat) v)
                  p.written (f :: F) p.state.disk)
                FAT_CLUSTER_NUMBER
                (wordsLayout fun c => linkUp (p.before ++ f :: F) p.state.mem c)
              mem := linkUp (p.before ++ f :: F) p.state.mem
              stray := p.state.stray }
          buf := p.buf.pad r.bufferSize.toNat (clusterNeed r.bufferSize.toNat) v
          written := clusterNeed r.bufferSize.toNat
          clustBefore := cb
          slotAvailable := p.slotAvailable } := by
  induction F generalizing f p with
  | nil =>
      have hlast : p.written + 1 = clusterNeed r.bufferSize.toNat := by simpa using hw
      refine ⟨f, p.clustBefore, ?_⟩
      rw [placeCluster_broke hb (hlt f List.mem_cons_self) hlast, ← hlast]
  | cons g G ih =>
      have hf : f < 512 := hlt f List.mem_cons_self
      rw [List.length_cons] at hw
      let q : Progress :=
        { p with
          state :=
            { disk := writeClusters p.state.disk f (p.buf.getCluster p.written)
              mem := if 0 < p.written then
                  Function.update p.state.mem p.clustBefore (UInt32.ofNat f)
                else p.state.mem
              stray := p.state.stray }
          written := p.written + 1
          clustBefore := f }
      have hq : placeCluster r f p = .ended q := placeCluster_ended hb (by omega)
      have hbefore : q.before = [f] := if_pos (Nat.succ_pos _)
      obtain ⟨v, cb, heq⟩ := ih (f := g) (p := q) (fun c hc => hlt c (List.mem_cons_of_mem _ hc))
        (fun _ => hf) (by simp only [q]; omega)
      refine ⟨v, cb, ?_⟩
      -- the chunk stored now is full, so the padding of the last one spares it
      have hfull : 2048 * (p.written + 1) ≤ r.bufferSize.toNat :=
        (full_of_lt_clusterNeed (by omega)).le
      have hlink : linkUp (p.before ++ f :: g :: G) p.state.mem =
          linkUp (f :: g :: G) q.state.mem := by
        by_cases h : 0 < p.written
        · simp [Progress.before, q, h, linkUp]
        · simp [Progress.before, q, h]
      have hstore : storeChunks (p.buf.pad r.bufferSize.toNat (clusterNeed r.bufferSize.toNat) v)
            p.written (f :: g :: G) p.state.disk =
          storeChunks (p.buf.pad r.bufferSize.toNat (clusterNeed r.bufferSize.toNat) v)
            q.written (g :: G) q.state.disk := by
        rw [storeChunks, Buffer.getCluster_pad hfull]
      rw [hq, hlink, hstore]
      rw [hbefore] at heq
      simp only [List.cons_append, fillFree]
      rw [fileStep_of_pos (Nat.succ_pos _)]
      exact heq

/-- **One pass of the file loop over enough free clusters.**  With a free slot
in the parent's table, the entry is stored there, the chunks of the buffer go to
the free clusters `f :: F`, which become a chain, and the table is stored. -/
theorem fillFree_eq {f : ℕ} {F R : List ℕ} {p : Progress} {j : Fin 64} (h0 : p.written = 0)
    (hj : freeSlot p.state.dirTableBuf = some j) (hlt : ∀ c ∈ f :: F, c < 512)
    (hw : F.length + 1 = clusterNeed r.bufferSize.toNat) :
    ∃ v q,
      fillFree r (f :: F ++ R) p = .broke q ∧ q.written = clusterNeed r.bufferSize.toNat ∧
      q.buf = p.buf.pad r.bufferSize.toNat (clusterNeed r.bufferSize.toNat) v ∧
      q.state.stray = p.state.stray ∧
      (∀ c < 512, q.state.mem c = linkUp (f :: F) p.state.mem c) ∧
      q.state.disk = writeClusters
        (storeChunks (p.buf.pad r.bufferSize.toNat (clusterNeed r.bufferSize.toNat) v) 0 (f :: F)
          (writeClusters p.state.disk r.parent
            (tableLayout (Function.update p.state.dirTableBuf j (fileEntry r f)))))
        FAT_CLUSTER_NUMBER (wordsLayout fun c => linkUp (f :: F) p.state.mem c) := by
  have hstep : fileStep r f p = placeCluster r f (openFile r f p) := by
    simp only [fileStep, h0, if_true, openFile_of_free hj]
  have hmem : ∀ c < 512, linkUp (f :: F) (openFile r f p).state.mem c =
      linkUp (f :: F) p.state.mem c := fun c hc => linkUp_congr (openFile_mem hc)
  have hw' : (openFile r f p).written = 0 := openFile_written.trans h0
  have hbefore : (openFile r f p).before = [] := by simp [Progress.before, hw']
  have hwalk : fillFree r (f :: F ++ R) p =
      match placeCluster r f (openFile r f p) with
      | .ended q => fillFree r (F ++ R) q
      | exit => exit := by
    rw [List.cons_append, fillFree, hstep]
  obtain ⟨v, cb, heq⟩ := placeCluster_fillFree (r := r) (R := R) (p := openFile r f p) hlt
    (by omega) (by omega)
  rw [hbefore, hw', List.nil_append] at heq
  have heq' := hwalk.trans heq
  rw [openFile_of_free hj] at heq' hmem
  refine ⟨v, _, heq', rfl, rfl, rfl, hmem, ?_⟩
  exact congrArg (writeClusters _ FAT_CLUSTER_NUMBER)
    (congrArg wordsLayout (funext fun i => hmem i i.isLt))

/-- **Too few free clusters.**  The walk fills them all and is not done. -/
theorem fillFree_short {F : List ℕ} {p : Progress} (hlt : ∀ c ∈ F, c < 512)
    (hb : 0 < p.written → p.clustBefore < 512)
    (hs : p.written = 0 → (freeSlot p.state.dirTableBuf).isSome)
    (hw : p.written + F.length < clusterNeed r.bufferSize.toNat) :
    ∃ q, fillFree r F p = .ended q := by
  induction F generalizing p with
  | nil => exact ⟨p, rfl⟩
  | cons f F ih =>
      have hf : f < 512 := hlt f List.mem_cons_self
      have hF : ∀ c ∈ F, c < 512 := fun c hc => hlt c (List.mem_cons_of_mem _ hc)
      rw [List.length_cons] at hw
      rw [fillFree]
      by_cases h0 : p.written = 0
      · obtain ⟨j, hj⟩ := Option.isSome_iff_exists.1 (hs h0)
        have hstep : fileStep r f p = placeCluster r f (openFile r f p) := by
          simp only [fileStep, h0, if_true, openFile_of_free hj]
        have hw' : (openFile r f p).written = 0 := openFile_written.trans h0
        rw [hstep, placeCluster_ended (by omega) (by omega)]
        exact ih hF (fun _ => hf) (fun h => absurd h (Nat.succ_ne_zero _)) (by simp only; omega)
      · rw [fileStep_of_pos (by omega), placeCluster_ended hb (by omega)]
        exact ih hF (fun _ => hf) (fun h => absurd h (Nat.succ_ne_zero _)) (by simp only; omega)

/-! ### Past the end of the table -/

/-- The variables with which a scan is left. -/
def Scan.progress : Scan → Progress
  | .returned _ p | .broke p | .ended p => p

/-- A cell past the table that was noted stays noted when a cluster is placed. -/
theorem stray_placeCluster {i : ℕ} {p : Progress} (h : p.state.stray = true) :
    (placeCluster r i p).progress.state.stray = true := by
  simp only [placeCluster]
  split_ifs
  · exact State.stray_setClusterMap (v := 0) (State.stray_setClusterMap (v := 0) h)
  · exact State.stray_setClusterMap (v := 0) h
  · exact State.stray_setClusterMap (v := 0) h
  · exact h

/-- A cell past the table that was noted stays noted through a round of the scan. -/
theorem stray_fileStep {i : ℕ} {p : Progress} (h : p.state.stray = true) :
    (fileStep r i p).progress.state.stray = true := by
  have hopen : (openFile r i p).state.stray = true := by
    cases hj : freeSlot p.state.dirTableBuf with
    | none => rw [openFile_of_full hj]; exact h
    | some j => rw [openFile_of_free hj]; exact h
  simp only [fileStep]
  split_ifs
  · exact stray_placeCluster hopen
  · exact hopen
  · exact stray_placeCluster h

/-- An index past the table leaves its mark, and so does one inside it when the
mark is there. -/
theorem stray_scanFile {p : Progress} (is : List ℕ) (h : p.state.stray = true ∨
    ∃ i ∈ is.head?, 512 ≤ i) : (scanFile r is p).progress.state.stray = true := by
  induction is generalizing p with
  | nil => exact h.resolve_right (by simp)
  | cons i is ih =>
      have hq : (p.state.touch i).stray = true := by
        rcases h with h | h
        · exact State.stray_touch h
        · exact State.stray_touch_of_le (by simpa using h)
      simp only [scanFile]
      split_ifs
      · have hstep := stray_fileStep (r := r) (i := i) (p := { p with state := p.state.touch i }) hq
        cases hs : fileStep r i { p with state := p.state.touch i } with
        | returned code q => rw [hs] at hstep; exact hstep
        | broke q => rw [hs] at hstep; exact hstep
        | ended q => rw [hs] at hstep; exact ih (Or.inl hstep)
      · exact ih (Or.inl hq)

/-- Once the mark is there, the loop returns with it. -/
theorem stray_writeLoop {fuel : ℕ} {p q : Progress} {code : ℤ} (h : p.state.stray = true)
    (hq : writeLoop r fuel p = some (code, q)) : q.state.stray = true := by
  induction fuel generalizing p with
  | zero => cases hq
  | succ fuel ih =>
      rw [writeLoop] at hq
      split_ifs at hq with hlt
      · have hscan := stray_scanFile (r := r) (p := p) scanIndices (Or.inl h)
        cases hs : scanFile r scanIndices p with
        | returned code' q' => simp only [hs] at hq hscan; cases hq; exact hscan
        | broke q' => simp only [hs] at hq hscan; exact ih hscan hq
        | ended q' => simp only [hs] at hq hscan; exact ih hscan hq
      · cases hq
        exact h

/-- A pass of the file loop that leaves the mark leaves it for good. -/
theorem stray_writeLoop_scan {fuel : ℕ} {p q : Progress} {code : ℤ}
    (hw : p.written < clusterNeed r.bufferSize.toNat)
    (hscan : (scanFile r scanIndices p).progress.state.stray = true)
    (hq : writeLoop r fuel p = some (code, q)) : q.state.stray = true := by
  cases fuel with
  | zero => cases hq
  | succ fuel =>
      rw [writeLoop, if_pos hw] at hq
      cases hs : scanFile r scanIndices p with
      | returned code' q' =>
          rw [hs] at hscan hq
          cases hq
          exact hscan
      | broke q' =>
          rw [hs] at hscan hq
          exact stray_writeLoop hscan hq
      | ended q' =>
          rw [hs] at hscan hq
          exact stray_writeLoop hscan hq

/-- A cell past the table that was noted stays noted when a folder is placed. -/
theorem stray_placeFolder {s : State} {i : ℕ} (h : s.stray = true) :
    (placeFolder k r i s).stray = true :=
  State.stray_setClusterMap (v := FAT32_FAT_END_OF_FILE) h

/-- The folder loop leaves the mark when it uses an index past the table. -/
theorem stray_scanFolder {s : State} (is : List ℕ) (h : s.stray = true ∨ ∃ i ∈ is.head?, 512 ≤ i) :
    (scanFolder k r is s).1.stray = true := by
  induction is generalizing s with
  | nil => exact h.resolve_right (by simp)
  | cons i is ih =>
      have hq : (s.touch i).stray = true := by
        rcases h with h | h
        · exact State.stray_touch h
        · exact State.stray_touch_of_le (by simpa using h)
      rw [scanFolder]
      split_ifs
      · exact stray_placeFolder hq
      · exact ih (Or.inl hq)

/-- The only answer that a round gives by itself is -1. -/
theorem fileStep_returned {i : ℕ} {p q : Progress} {code : ℤ}
    (h : fileStep r i p = .returned code q) : code = -1 := by
  simp only [fileStep, placeCluster] at h
  split_ifs at h
  cases h
  rfl

/-- The file branch answers 0 or -1. -/
theorem scanFile_returned {is : List ℕ} {p q : Progress} {code : ℤ}
    (h : scanFile r is p = .returned code q) : code = -1 := by
  induction is generalizing p with
  | nil => cases h
  | cons i is ih =>
      simp only [scanFile] at h
      split_ifs at h
      · cases hs : fileStep r i { p with state := p.state.touch i } with
        | returned code' q' =>
            rw [hs] at h
            cases h
            exact fileStep_returned hs
        | broke q' => rw [hs] at h; cases h
        | ended q' => rw [hs] at h; exact ih h
      · exact ih h

/-- The loop that stores a file answers 0 or -1. -/
theorem writeLoop_code {fuel : ℕ} {p q : Progress} {code : ℤ}
    (h : writeLoop r fuel p = some (code, q)) : code = 0 ∨ code = -1 := by
  induction fuel generalizing p with
  | zero => cases h
  | succ fuel ih =>
      rw [writeLoop] at h
      split_ifs at h with hlt
      · cases hs : scanFile r scanIndices p with
        | returned code' q' =>
            simp only [hs] at h
            cases h
            exact Or.inr (scanFile_returned hs)
        | broke q' => simp only [hs] at h; exact ih h
        | ended q' => simp only [hs] at h; exact ih h
      · cases h
        exact Or.inl rfl

end Fat32
end Jatos
