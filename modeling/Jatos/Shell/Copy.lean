/-
# What `cp` copies

`cp` of `src/user-shell.c`.  It looks the source up in the table of the current directory,
reads a file of that name in the directory above (`requestRead`), and writes to the
current directory.  The names are put into arrays that are not cleared, so what the stack
held behind a short name becomes part of it.

`CopyStack` is what the stack held.  `cp` copies as it should if and only if nothing of
it gets into the names and the directory above serves the bytes of the source under the
source's name (`cp_exact_iff`), as the root does for itself.
-/

import Jatos.Fat32.Entry
import Jatos.Fat32.Fetch
import Jatos.Shell.Orderly

namespace Jatos
namespace Shell

open Fat32 Packed Linked

/-- What the stack held under `source`, `dest` and `read_buffer`. -/
structure CopyStack where
  source : Bytes 8
  dest : Bytes 8
  readBuffer : Buffer

/-- The entry that `cp` takes for the source, or what it prints instead. -/
def cpSource (source : Bytes 8) (s : State) (m : Session) : Except String DirectoryEntry :=
  match readTable s m.currentDirParentClusterNumber (m.dirPath m.depth) with
  | none => .error "dir table corrupt"
  | some dirTable =>
      match findSlot dirTable source with
      | none => .error "Source tidak valid\n"
      | some i =>
          if (dirTable i).cluster = 0 then .error "Source tidak valid\n"
          else .ok (dirTable i)

/-- `while (rounded_file_size < source_file_size)`. -/
def roundUp : ℕ → UInt32 → UInt32 → Option UInt32
  | 0, _, _ => none
  | fuel + 1, rounded, size =>
      if rounded < size then roundUp fuel (rounded + 2048) size else some rounded

/-- `request_read`. -/
def requestRead (stack : CopyStack) (source : Bytes 8) (rounded : UInt32) (m : Session) : Request :=
  ⟨stack.readBuffer, source, 0, m.currentDirParentClusterNumber, rounded⟩

/-- `request_write`. -/
def requestWrite (buf : Buffer) (dest : Bytes 8) (entry : DirectoryEntry) (m : Session) : Request :=
  ⟨buf, dest, entry.ext, m.currentDirClusterNumber, entry.filesize⟩

/-- The clusters that a read stores: a read without a name, or of a folder, stores none. -/
def clustersRead (fuel : ℕ) (r : Request) (s : State) : ℕ :=
  match findSlot (s.table r.parent) r.name with
  | none => 0
  | some i =>
      if r.name = 0 ∨ (s.table r.parent i).filesize = 0 then 0
      else (readVisits r.bufferSize.toNat fuel s 0 (s.table r.parent i).cluster).length

/-- `cp` once the names are in their arrays.  There is no answer where the read stores
behind `read_buffer`. -/
def cpNames (fuel : ℕ) (k : Stack) (stack : CopyStack) (source dest : Bytes 8) (s : State)
    (m : Session) : Option (String × State) :=
  match cpSource source s m with
  | .error text => some (text, s)
  | .ok entry =>
      (roundUp fuel 0 entry.filesize).bind fun rounded =>
        let r := requestRead stack source rounded m
        if rounded.toNat < 2048 * clustersRead fuel r s then none
        else
          (Fat32.read fuel r s).bind fun (o, s) =>
            if o.code ≠ 0 then some ("Copy gagal\n", s)
            else
              (write fuel k (requestWrite o.buf dest entry m) s).map fun (o, s) =>
                (if o.code = 0 then "" else "Copy gagal\n", s)

/-- `cp`. -/
def cp (fuel : ℕ) (k : Stack) (stack : CopyStack) (command : List UInt8) (s : State)
    (m : Session) : Option (String × State) :=
  let source := wordAt command 3
  if source.length > 8 then some ("Source tidak valid\n", s)
  else
    let dest := wordAt command (4 + source.length)
    if dest.length > 8 then some ("Dest tidak valid\n", s)
    else if source = [] ∨ dest = [] then some ("Input tidak valid\n", s)
    else
      (cpNames fuel k stack (fillArray stack.source source) (fillArray stack.dest dest) s m).map
        fun (text, s) =>
          ("Copying " ++ shownAs source ++ " to " ++ shownAs dest ++ "\n" ++ text, s)

/-- The command `cp src dst`. -/
def cpOf (fuel : ℕ) (k : Stack) (stack : CopyStack) (src dst : List UInt8) (s : State)
    (m : Session) : Option (String × State) :=
  cp fuel k stack ([0x63, 0x70, 0x20] ++ src ++ [0x20] ++ dst) s m

/-! ### What it should do -/

/-- A slot of directory `d` that was free holds a copy of the file in slot `k`, under a
name; every other slot of a live directory, and what every other entry holds, is what it
was. -/
structure Copied (s s' : State) (d : ℕ) (k j : Fin 64) (n : Bytes 8) : Prop where
  free : ¬(s.table d j).Used
  entry : LiveEntry s' d j
  name : (s'.table d j).name = n
  ext : (s'.table d j).ext = (s.table d k).ext
  filesize : (s'.table d j).filesize = (s.table d k).filesize
  bytes : ∀ B, Holds s d k (.file B) → Holds s' d j (.file B)
  slots : ∀ d', LiveDir s d' → ∀ i, ¬(d' = d ∧ i = j) → s'.table d' i = s.table d' i
  others : ∀ d' i, LiveEntry s d' i → LiveEntry s' d' i ∧ ∀ x, Holds s d' i x → Holds s' d' i x
  new : ∀ d' i, LiveEntry s' d' i → LiveEntry s d' i ∨ d' = d ∧ i = j

/-- `cp src dst` copies the file in slot `i` of the current directory. -/
def CpExact (fuel : ℕ) (k : Stack) (stack : CopyStack) (src dst : List UInt8) (s : State)
    (m : Session) (i : Fin 64) : Prop :=
  ∃ text s' j, cpOf fuel k stack src dst s m = some (text, s') ∧
    Copied s s' m.currentDirClusterNumber.toNat i j (nameOf dst)

/-- The table that `cp` reads has the name first in a slot with a cluster and with the
extension and size of the entry `e`. -/
def Describes (s : State) (m : Session) (n : Bytes 8) (e : DirectoryEntry) : Prop :=
  ∃ dirTable i, readTable s m.currentDirParentClusterNumber (m.dirPath m.depth) = some dirTable ∧
    findSlot dirTable n = some i ∧ (dirTable i).cluster ≠ 0 ∧ (dirTable i).ext = e.ext ∧
    (dirTable i).filesize = e.filesize

/-- The directory at a cluster has the name first in the slot of a file whose links end
within `clusterNeed size` clusters, and these hold the bytes `B`, over what the buffer
held. -/
def Serves (s : State) (p : ℕ) (n : Bytes 8) (size : ℕ) (buf : Buffer) (B : List UInt8) : Prop :=
  n ≠ 0 ∧ ∃ i l, findSlot (s.table p) n = some i ∧ (s.table p i).filesize ≠ 0 ∧
    Chain s.links (s.table p i).cluster l ∧ l.length ≤ clusterNeed size ∧
    ∀ j < B.length, fetched s l buf j = B.getD j 0

variable {s s' : State} {m : Session} {src dst : List UInt8} {n n' : Bytes 8} {i j : Fin 64}
  {fuel : ℕ} {k : Stack} {stack : CopyStack} {e : DirectoryEntry} {B : List UInt8} {size : UInt32}

/-! ### Sizes -/

/-- The loop that rounds the size up ends at the clusters needed. -/
theorem roundUp_eq {w : ℕ} (hw : w ≤ clusterNeed size.toNat) (hneed : clusterNeed size.toNat ≤ 509)
    (hfuel : clusterNeed size.toNat - w < fuel) :
    roundUp fuel (UInt32.ofNat (2048 * w)) size =
      some (UInt32.ofNat (2048 * clusterNeed size.toNat)) := by
  induction fuel generalizing w with
  | zero => omega
  | succ fuel ih =>
      have hle := le_clusterNeed size.toNat
      have hnat : (UInt32.ofNat (2048 * w)).toNat = 2048 * w :=
        UInt32.toNat_ofNat_of_lt'
          ((Nat.mul_le_mul_left 2048 (hw.trans hneed)).trans_lt (by decide))
      have hstep : UInt32.ofNat (2048 * w) + 2048 = UInt32.ofNat (2048 * (w + 1)) := by
        rw [Nat.mul_add, Nat.mul_one, UInt32.ofNat_add]
        rfl
      rw [roundUp]
      by_cases hlt : w < clusterNeed size.toNat
      · have hfull := full_of_lt_clusterNeed hlt
        rw [if_pos (UInt32.lt_iff_toNat_lt.2 (by omega)), hstep]
        exact ih hlt (by omega)
      · obtain rfl : w = clusterNeed size.toNat := by omega
        rw [if_neg fun hlt => by rw [UInt32.lt_iff_toNat_lt] at hlt; omega]

/-- A size of at most 509 clusters is rounded up. -/
theorem roundUp_of_le (hneed : clusterNeed size.toNat ≤ 509) (hfuel : 512 ≤ fuel) :
    ∃ rounded, roundUp fuel 0 size = some rounded ∧
      rounded.toNat = 2048 * clusterNeed size.toNat :=
  ⟨_, roundUp_eq (w := 0) (Nat.zero_le _) hneed (by omega),
    UInt32.toNat_ofNat_of_lt' ((Nat.mul_le_mul_left 2048 hneed).trans_lt (by decide))⟩

/-- A live file has at most 509 clusters. -/
theorem clusterNeed_le {d : ℕ} (h : WellFormed s) (he : LiveEntry s d i)
    (hsize : (s.table d i).filesize ≠ 0) : clusterNeed (s.table d i).filesize.toNat ≤ 509 := by
  obtain ⟨l, hl, hlen, -⟩ := h.chain _ _ he
  have := h.chain_length_le he hl
  rw [DirectoryEntry.clusters, if_neg hsize] at hlen
  omega

/-! ### The two requests -/

/-- `cp` finds its source if and only if the table above names it, with a cluster. -/
theorem cpSource_ok_iff : cpSource n s m = .ok e ↔ ∃ dirTable i,
    readTable s m.currentDirParentClusterNumber (m.dirPath m.depth) = some dirTable ∧
      findSlot dirTable n = some i ∧ (dirTable i).cluster ≠ 0 ∧ dirTable i = e := by
  rw [cpSource]
  cases hread : readTable s m.currentDirParentClusterNumber (m.dirPath m.depth) with
  | none => simp
  | some dirTable =>
      cases hfind : findSlot dirTable n with
      | none => simp [hfind]
      | some i => by_cases hcl : (dirTable i).cluster = 0 <;> simp [hfind, hcl]

/-- A read of a file stores the clusters that it visits. -/
theorem clustersRead_eq {r : Request} (hn : r.name ≠ 0)
    (hi : findSlot (s.table r.parent) r.name = some i)
    (hsize : (s.table r.parent i).filesize ≠ 0) :
    clustersRead fuel r s =
      (readVisits r.bufferSize.toNat fuel s 0 (s.table r.parent i).cluster).length := by
  simp only [clustersRead, hi]
  rw [if_neg (not_or.2 ⟨hn, hsize⟩)]

/-- A read that is turned down at once stores nothing. -/
theorem clustersRead_eq_zero {r : Request} (hi : findSlot (s.table r.parent) r.name = some i)
    (h : r.name = 0 ∨ (s.table r.parent i).filesize = 0) : clustersRead fuel r s = 0 := by
  simp only [clustersRead, hi]
  rw [if_pos h]

/-- A read that answers 0 has gone along the links of the file it found. -/
theorem serves_of_read {rounded : UInt32} {o : Reply}
    (h : Fat32.read fuel (requestRead stack n rounded m) s = some (o, s')) (hcode : o.code = 0) :
    n ≠ 0 ∧ ∃ i l, findSlot (s.table m.currentDirParentClusterNumber.toNat) n = some i ∧
      (s.table m.currentDirParentClusterNumber.toNat i).filesize ≠ 0 ∧
      Chain s.links (s.table m.currentDirParentClusterNumber.toNat i).cluster l ∧
      clustersRead fuel (requestRead stack n rounded m) s = l.length ∧
      o.buf = fetched s l stack.readBuffer := by
  let r := requestRead stack n rounded m
  by_cases hopen : r.name = 0 ∨ ∀ i, ¬Opens s r i
  · obtain ⟨c, hc, hread⟩ := read_of_not_opens hopen
    rw [hread fuel] at h
    cases h
    exact absurd hcode hc
  · obtain ⟨hn, hsome⟩ := not_or.1 hopen
    obtain ⟨i, hi, hsize⟩ := not_forall_not.1 hsome
    rw [read_of_file hn hi hsize] at h
    obtain ⟨hl, hbuf⟩ := readChain_zero h hcode
    exact ⟨hn, i, _, hi, hsize, hl, clustersRead_eq hn hi hsize, hbuf⟩

/-- A read whose links end in time answers 0. -/
theorem read_serves (stack : CopyStack) (rounded : UInt32) {l : List ℕ} (hn : n ≠ 0)
    (hi : findSlot (s.table m.currentDirParentClusterNumber.toNat) n = some i)
    (hsize : (s.table m.currentDirParentClusterNumber.toNat i).filesize ≠ 0)
    (hl : Chain s.links (s.table m.currentDirParentClusterNumber.toNat i).cluster l)
    (hlen : 2048 * l.length ≤ rounded.toNat) (hfuel : l.length ≤ fuel) :
    ∃ o s', Fat32.read fuel (requestRead stack n rounded m) s = some (o, s') ∧ o.code = 0 ∧
      clustersRead fuel (requestRead stack n rounded m) s = l.length ∧
      o.buf = fetched s l stack.readBuffer := by
  let r := requestRead stack n rounded m
  have hlt := rounded.toNat_lt
  have hpass : ∀ a < l.length, Passes r.bufferSize.toNat (0 + a) := fun a ha =>
    (passes_iff _ _ (by omega)).2 (by change 0 + a ≤ rounded.toNat / 512; omega)
  obtain ⟨o, s', hr, hcode, hvisits⟩ := readChain_fetches r.buf hl hpass hfuel
  have hread : Fat32.read fuel r s = some (o, s') := (read_of_file (r := r) hn hi hsize).trans hr
  have hstored : clustersRead fuel r s = _ := clustersRead_eq hn hi hsize
  refine ⟨o, s', hread, hcode, hstored.trans (congrArg _ hvisits), ?_⟩
  obtain ⟨-, hbuf⟩ := readChain_zero hr hcode
  rw [hbuf, hvisits]
  rfl

/-- `cp src dst` copies the two names into their arrays. -/
theorem cpOf_eq (hsrc : Word src) (hdst : Word dst) : cpOf fuel k stack src dst s m =
    (cpNames fuel k stack (fillArray stack.source src) (fillArray stack.dest dst) s m).map
      fun (text, s) =>
        ("Copying " ++ shownAs src ++ " to " ++ shownAs dst ++ "\n" ++ text, s) := by
  obtain ⟨h₁, h₂⟩ := wordAt_command (c := [0x63, 0x70, 0x20]) rfl hsrc.no_space hdst.no_space
  simp only [cpOf, cp, h₁, h₂]
  rw [if_neg (Nat.not_lt.2 hsrc.short), if_neg (Nat.not_lt.2 hdst.short),
    if_neg (not_or.2 ⟨hsrc.ne_nil, hdst.ne_nil⟩)]

/-! ### When `cp` is exact -/

/-- A write of the bytes of a file, after requests that changed nothing, makes a copy. -/
theorem copied_of_made {s₁ : State} {r : Request} {f d : ℕ} {F : List ℕ} (h : WellFormed s)
    (hkept : Kept s s₁) (hm : Made r (newEntry k r f) F s₁ s') (he : LiveEntry s d i)
    (hpar : r.parent = d) (hj : freeSlot (s.table d) = some j) (hs : r.bufferSize ≠ 0)
    (hext : r.ext = (s.table d i).ext) (hsize : r.bufferSize = (s.table d i).filesize)
    (hB : Holds s d i (.file B)) (hbuf : ∀ c < B.length, r.buf c = B.getD c 0) :
    Copied s s' d i j r.name := by
  subst hpar
  have h₁ := hkept.wellFormed h
  have hp : LiveDir s₁ r.parent := hkept.live he.dir
  have hj₁ : freeSlot (s₁.table r.parent) = some j := by rwa [hkept.table]
  have hnew := hm.slot_new hj₁
  have hlen : B.length = r.bufferSize.toNat := by rw [hsize, hB.2.1]
  have hbytes : r.bytes = B := by
    refine List.ext_getElem (by rw [r.length_bytes, hlen]) fun c hc hc' => ?_
    have hat := (r.bytes_getD (by omega)).trans (hbuf c hc')
    simpa [List.getD_eq_getElem?_getD, hc, hc'] using hat
  constructor
  · exact freeSlot_not_used hj
  · exact hm.entry_new h₁ hp hj₁
  · rw [hnew, hm.name]
  · rw [hnew, newEntry, if_neg hs, ← hext]
    rfl
  · rw [hnew, hm.filesize, hsize]
  · intro B' hB'
    obtain rfl := Holds.unique h he hB hB'
    have hnode := hm.holds_new hnew
    rwa [Request.node, if_neg hs, hbytes] at hnode
  · intro d' hd' c hne
    rw [← hkept.table]
    exact hm.slot_of_ne h₁ (hkept.live hd') hj₁ fun heq hc => hne ⟨heq, hc⟩
  · intro d' c hc
    have hc₁ := hkept.entry_iff.2 hc
    exact ⟨hm.entry h₁ hc₁, fun x hx => hm.holds h₁ hp hc₁ (hkept.holds h hc hx)⟩
  · intro d' c hc
    rcases hm.entry_inv h₁ hc with ⟨hc', -⟩ | ⟨heq, hc', -⟩
    · exact Or.inl (hkept.entry_iff.1 hc')
    · exact Or.inr ⟨heq, Option.some.inj (hc'.symm.trans hj₁)⟩

/-- **What a run of `cp` does**: nothing, or the write of what it has read. -/
theorem cpNames_returns {text : String} {source dest : Bytes 8}
    (h : cpNames fuel k stack source dest s m = some (text, s')) :
    Kept s s' ∨ ∃ (entry : DirectoryEntry) (rounded : UInt32) (o o' : Reply) (s₁ : State)
        (l : List ℕ) (i : Fin 64),
      cpSource source s m = .ok entry ∧ roundUp fuel 0 entry.filesize = some rounded ∧
      2048 * l.length ≤ rounded.toNat ∧ Kept s s₁ ∧ source ≠ 0 ∧
      findSlot (s.table m.currentDirParentClusterNumber.toNat) source = some i ∧
      (s.table m.currentDirParentClusterNumber.toNat i).filesize ≠ 0 ∧
      Chain s.links (s.table m.currentDirParentClusterNumber.toNat i).cluster l ∧
      o.buf = fetched s l stack.readBuffer ∧
      write fuel k (requestWrite o.buf dest entry m) s₁ = some (o', s') := by
  rw [cpNames] at h
  cases hsource : cpSource source s m with
  | error text =>
      rw [hsource] at h
      obtain ⟨-, rfl⟩ := Prod.mk.inj (Option.some.inj h)
      exact Or.inl (.refl s)
  | ok entry =>
      rw [hsource] at h
      simp only at h
      obtain ⟨rounded, hround, h⟩ := Option.bind_eq_some_iff.1 h
      split_ifs at h with hover
      obtain ⟨⟨o, s₁⟩, hread, h⟩ := Option.bind_eq_some_iff.1 h
      have hkept : Kept s s₁ := read_kept hread
      simp only at h
      split_ifs at h with hcode
      · obtain ⟨-, rfl⟩ := Prod.mk.inj (Option.some.inj h)
        exact Or.inl hkept
      · obtain ⟨⟨o', s''⟩, hwrite, heq⟩ := Option.map_eq_some_iff.1 h
        obtain rfl : s'' = s' := congrArg Prod.snd heq
        obtain ⟨hn, i, l, hi, hfile, hl, hcount, hbuf⟩ := serves_of_read hread (not_not.1 hcode)
        rw [hcount] at hover
        exact Or.inr ⟨entry, rounded, o, o', s₁, l, i, rfl, hround, not_lt.1 hover, hkept, hn, hi,
          hfile, hl, hbuf, hwrite⟩

/-- A chain is not empty, so the size of a file that was read is not 0. -/
theorem filesize_ne_zero {rounded : UInt32} {l : List ℕ} {a : ℕ} (hl : Chain s.links a l)
    (hround : roundUp fuel 0 size = some rounded) (hle : 2048 * l.length ≤ rounded.toNat) :
    size ≠ 0 := by
  rintro rfl
  have hpos := hl.length_pos
  cases fuel with
  | zero => cases hround
  | succ fuel =>
      obtain rfl : 0 = rounded := Option.some.inj hround
      have hzero : (0 : UInt32).toNat = 0 := rfl
      omega

/-- A copy is the entry that was stored in a slot. -/
theorem Copied.slot_eq {d : ℕ} {j₀ : Fin 64} (hc : Copied s s' d i j n)
    (htab : s'.table d = Function.update (s.table d) j₀ e) : j = j₀ ∧ s'.table d j = e := by
  have hjj : j = j₀ := by
    by_contra hne
    have hold : s'.table d j = s.table d j :=
      (congrFun htab j).trans (Function.update_of_ne hne _ _)
    exact hc.free (hold ▸ hc.entry.used)
  subst hjj
  exact ⟨rfl, (congrFun htab j).trans (Function.update_self _ _ _)⟩

/-- The write of a copy fits where there are clusters for one. -/
theorem fits_requestWrite {s₁ : State} {buf : Buffer} {dest : Bytes 8} (hkept : Kept s s₁)
    (hs : e.filesize ≠ 0) (hfree : clusterNeed e.filesize.toNat ≤ (freeList s.mem).length) :
    Fits (requestWrite buf dest e m) s₁ := by
  have hsize : (requestWrite buf dest e m).bufferSize ≠ 0 := hs
  rw [Fits, Request.clusters, if_neg hsize, freeList_congr fun c hc => hkept.mem c hc]
  exact hfree

/-- A file that a write has stored holds its bytes. -/
theorem write_holds {r : Request} {o : Reply} (h : WellFormed s) (hp : LiveDir s r.parent)
    (hs : r.bufferSize ≠ 0) (hfit : Fits r s) (hj : freeSlot (s.table r.parent) = some j)
    (hfuel : 512 ≤ fuel) (hw : write fuel k r s = some (o, s')) :
    WellFormed s' ∧ Holds s' r.parent j (.file r.bytes) := by
  obtain ⟨o', e', F, s'', hw', -, hm⟩ := write_made (k := k) (h.live_range hp)
    (h.live_ne_empty hp) hfit (fun _ => by rw [hj]; rfl) (by omega : 2 ≤ fuel)
  obtain ⟨-, rfl⟩ := Prod.mk.inj (Option.some.inj (hw'.symm.trans hw))
  have hnode := hm.holds_new (hm.slot_new hj)
  rw [Request.node, if_neg hs] at hnode
  exact ⟨hm.wellFormed h, hnode⟩

/-- What a run that makes a copy has found. -/
theorem cpNames_copied {text : String} {source dest : Bytes 8} (h : WellFormed s)
    (he : LiveEntry s m.currentDirClusterNumber.toNat i)
    (hsize : (s.table m.currentDirClusterNumber.toNat i).filesize ≠ 0)
    (hslot : (freeSlot (s.table m.currentDirClusterNumber.toNat)).isSome)
    (hfree : clusterNeed (s.table m.currentDirClusterNumber.toNat i).filesize.toNat ≤
      (freeList s.mem).length) (hfuel : 512 ≤ fuel)
    (hrun : cpNames fuel k stack source dest s m = some (text, s'))
    (hc : Copied s s' m.currentDirClusterNumber.toNat i j n) :
    dest = n ∧ Describes s m source (s.table m.currentDirClusterNumber.toNat i) ∧
      ∀ B, Holds s m.currentDirClusterNumber.toNat i (.file B) →
        Serves s m.currentDirParentClusterNumber.toNat source
          (s.table m.currentDirClusterNumber.toNat i).filesize.toNat stack.readBuffer B := by
  obtain hkept | ⟨entry, rounded, o, o', s₁, l, i', hsource, hround, hle, hkept, hn, hi', hfile, hl,
    hbuf, hwrite⟩ := cpNames_returns hrun
  · have hu := hc.entry.used
    rw [hkept.table] at hu
    exact absurd hu hc.free
  let r := requestWrite o.buf dest entry m
  have h₁ := hkept.wellFormed h
  have hp : LiveDir s₁ r.parent := hkept.live he.dir
  have hs : r.bufferSize ≠ 0 := filesize_ne_zero hl hround hle
  obtain ⟨j₀, hj₀⟩ := Option.isSome_iff_exists.1 hslot
  have hj₁ : freeSlot (s₁.table r.parent) = some j₀ := by
    rw [hkept.table]
    exact hj₀
  -- the copy is the entry that the write has stored
  obtain ⟨f, htab⟩ := write_entry (h₁.live_range hp) (h₁.live_ne_empty hp) hs hj₁ hwrite
  rw [hkept.table] at htab
  obtain ⟨rfl, hnew⟩ := hc.slot_eq htab
  have hdest : dest = n := by
    rw [← hc.name, hnew]
    rfl
  have hext : entry.ext = (s.table m.currentDirClusterNumber.toNat i).ext := by
    rw [← hc.ext, hnew]
    rfl
  have hfs : entry.filesize = (s.table m.currentDirClusterNumber.toNat i).filesize := by
    rw [← hc.filesize, hnew]
    rfl
  obtain ⟨dirTable, c, hread, hfind, hcl, rfl⟩ := cpSource_ok_iff.1 hsource
  refine ⟨hdest, ⟨dirTable, c, hread, hfind, hcl, hext, hfs⟩, fun B hB => ?_⟩
  obtain ⟨rounded', hround', hrounded⟩ := roundUp_of_le (clusterNeed_le h he hsize) hfuel
  rw [hfs] at hround
  obtain rfl := Option.some.inj (hround.symm.trans hround')
  refine ⟨hn, i', l, hi', hfile, hl, by omega, fun a ha => ?_⟩
  -- it holds what was read, and the bytes of the source
  have hfit : Fits r s₁ := fits_requestWrite hkept hs (hfs ▸ hfree)
  obtain ⟨h', hnode⟩ := write_holds h₁ hp hs hfit hj₁ hfuel hwrite
  obtain rfl := Holds.unique h' hc.entry (hc.bytes B hB) hnode
  rw [Request.length_bytes] at ha
  rw [Request.bytes_getD _ ha, ← hbuf]
  rfl

/-- A run that finds the bytes of the source makes a copy. -/
theorem cpNames_copies (k : Stack) {source : Bytes 8} (dest : Bytes 8) (h : WellFormed s)
    (he : LiveEntry s m.currentDirClusterNumber.toNat i)
    (hsize : (s.table m.currentDirClusterNumber.toNat i).filesize ≠ 0)
    (hj : freeSlot (s.table m.currentDirClusterNumber.toNat) = some j)
    (hfree : clusterNeed (s.table m.currentDirClusterNumber.toNat i).filesize.toNat ≤
      (freeList s.mem).length) (hfuel : 512 ≤ fuel)
    (hdesc : Describes s m source (s.table m.currentDirClusterNumber.toNat i))
    (hB : Holds s m.currentDirClusterNumber.toNat i (.file B))
    (hserves : Serves s m.currentDirParentClusterNumber.toNat source
      (s.table m.currentDirClusterNumber.toNat i).filesize.toNat stack.readBuffer B) :
    ∃ text s', cpNames fuel k stack source dest s m = some (text, s') ∧
      Copied s s' m.currentDirClusterNumber.toNat i j dest := by
  obtain ⟨dirTable, c, hread, hfind, hcl, hext, hfs⟩ := hdesc
  obtain ⟨hn, i', l, hi', hfile, hl, hlen, hbytes⟩ := hserves
  have hsource : cpSource source s m = .ok (dirTable c) :=
    cpSource_ok_iff.2 ⟨dirTable, c, hread, hfind, hcl, rfl⟩
  have hneed := clusterNeed_le h he hsize
  obtain ⟨rounded, hround, hrounded⟩ := roundUp_of_le hneed hfuel
  obtain ⟨o, s₁, hrun, hcode, hcount, hbuf⟩ := read_serves stack rounded hn
    hi' hfile hl (by omega) (by omega : l.length ≤ fuel)
  have hkept : Kept s s₁ := read_kept hrun
  -- the write of what was read
  let r := requestWrite o.buf dest (dirTable c) m
  have h₁ := hkept.wellFormed h
  have hp : LiveDir s₁ r.parent := hkept.live he.dir
  have hs : (dirTable c).filesize ≠ 0 := by rwa [hfs]
  have hfit : Fits r s₁ := fits_requestWrite hkept hs (hfs ▸ hfree)
  have hj₁ : freeSlot (s₁.table r.parent) = some j := by
    rw [hkept.table]
    exact hj
  obtain ⟨o', f, F, s', hw, hcode', hm, -⟩ := write_made_first (k := k) (h₁.live_range hp)
    (h₁.live_ne_empty hp) hfit (fun _ => by rw [hj₁]; rfl) (by omega : 2 ≤ fuel)
  refine ⟨"", s', ?_, copied_of_made h hkept hm he rfl hj hs hext hfs hB fun a ha => ?_⟩
  · rw [cpNames, hsource]
    simp only
    rw [hfs, hround, Option.bind_some, hcount, if_neg (by omega), hrun, Option.bind_some]
    simp only
    rw [if_neg (not_not.2 hcode)]
    exact (congrArg (Option.map _) hw).trans (by simp [hcode'])
  · change o.buf a = B.getD a 0
    rw [hbuf]
    exact hbytes a ha

/-- **When `cp` is exact**, on a volume with a free slot and the clusters for a copy: the
stack is zero behind a short name `dst`; the table that `cp` reads describes the source
under its name, with what the stack held behind it; and the directory above serves the
bytes of the source under that name. -/
theorem cp_exact_iff (h : WellFormed s) (hsrc : Word src) (hdst : Word dst)
    (hb : Bears s m.currentDirClusterNumber.toNat (nameOf src) i)
    (hsize : (s.table m.currentDirClusterNumber.toNat i).filesize ≠ 0)
    (hslot : (freeSlot (s.table m.currentDirClusterNumber.toNat)).isSome)
    (hfree : clusterNeed (s.table m.currentDirClusterNumber.toNat i).filesize.toNat ≤
      (freeList s.mem).length) (hfuel : 512 ≤ fuel) :
    CpExact fuel k stack src dst s m i ↔ fillArray stack.dest dst = nameOf dst ∧
      Describes s m (fillArray stack.source src) (s.table m.currentDirClusterNumber.toNat i) ∧
      ∀ B, Holds s m.currentDirClusterNumber.toNat i (.file B) →
        Serves s m.currentDirParentClusterNumber.toNat (fillArray stack.source src)
          (s.table m.currentDirClusterNumber.toNat i).filesize.toNat stack.readBuffer B := by
  constructor
  · rintro ⟨text, s', j, hrun, hc⟩
    rw [cpOf_eq hsrc hdst, Option.map_eq_some_iff] at hrun
    obtain ⟨⟨text', s''⟩, hnames, heq⟩ := hrun
    obtain rfl : s'' = s' := congrArg Prod.snd heq
    exact cpNames_copied h hb.entry hsize hslot hfree hfuel hnames hc
  · rintro ⟨hdest, hdesc, hserves⟩
    obtain ⟨B, hB⟩ := hb.entry.exists_holds h hsize
    obtain ⟨j, hj⟩ := Option.isSome_iff_exists.1 hslot
    obtain ⟨text, s', hrun, hc⟩ := cpNames_copies k (fillArray stack.dest dst) h
      hb.entry hsize hj hfree hfuel hdesc hB (hserves B hB)
    rw [hdest] at hc
    exact ⟨_, s', j, by rw [cpOf_eq hsrc hdst, hrun]; rfl, hc⟩

/-- A directory that is its own parent serves its files, where they are found first. -/
theorem serves_self {d : ℕ} (h : WellFormed s) (he : LiveEntry s d i)
    (hsize : (s.table d i).filesize ≠ 0) (hn : n ≠ 0) (hfind : findSlot (s.table d) n = some i)
    (hB : Holds s d i (.file B)) (buf : Buffer) :
    Serves s d n (s.table d i).filesize.toNat buf B := by
  obtain ⟨-, hlen, l, hl, hst⟩ := hB
  have hclusters := h.chain_length he hl
  rw [DirectoryEntry.clusters, if_neg hsize] at hclusters
  have hlinks : Chain s.links (s.table d i).cluster l := Chain.congr hl fun c hc =>
    State.links_of_lt (h.chain_range he hl c hc).2
  have hle := le_clusterNeed (s.table d i).filesize.toNat
  exact ⟨hn, i, l, hfind, hsize, hlinks, by omega, fun j hj => fetched_stored _ hst (by omega) hj⟩

/-- In the root `cp` copies every file that is found first, if the stack is zero. -/
theorem cp_root (h : Sound s) (hm : Located s m) (hdepth : m.depth = 0) (hsrc : Word src)
    (hdst : Word dst) (hb : Bears s m.currentDirClusterNumber.toNat (nameOf src) i)
    (hsize : (s.table m.currentDirClusterNumber.toNat i).filesize ≠ 0)
    (hfind : findSlot (s.table m.currentDirClusterNumber.toNat) (nameOf src) = some i)
    (hslot : (freeSlot (s.table m.currentDirClusterNumber.toNat)).isSome)
    (hfree : clusterNeed (s.table m.currentDirClusterNumber.toNat i).filesize.toNat ≤
      (freeList s.mem).length) (hfuel : 512 ≤ fuel) (hstack : stack.source = 0 ∧ stack.dest = 0) :
    CpExact fuel k stack src dst s m i := by
  have hwf := h.toWellFormed
  have hfill : ∀ l : List UInt8, fillArray 0 l = nameOf l := fun l => rfl
  have hcur : m.currentDirClusterNumber = 2 := by rw [hm.current, hdepth, hm.root.2]
  have hpar : m.currentDirParentClusterNumber = 2 := by rw [hm.parent, hdepth, hm.root.2]
  obtain ⟨B, hB⟩ := hb.entry.exists_holds hwf hsize
  obtain ⟨j, hj⟩ := Option.isSome_iff_exists.1 hslot
  have hserves := serves_self hwf hb.entry hsize hsrc.nameOf_ne_zero hfind hB stack.readBuffer
  have hread := hm.readTable h hdepth
  have hdesc : Describes s m (nameOf src) (s.table m.currentDirClusterNumber.toNat i) := by
    refine ⟨_, i, hread, hfind, ?_, rfl, rfl⟩
    obtain ⟨l, hl, -, hlt⟩ := hwf.chain _ _ hb.entry
    have := hlt _ hl.head_mem
    omega
  obtain ⟨text, s', hrun, hc⟩ := cpNames_copies k (nameOf dst) hwf hb.entry hsize hj
    hfree hfuel hdesc hB (by rwa [hpar, ← hcur])
  refine ⟨"Copying " ++ shownAs src ++ " to " ++ shownAs dst ++ "\n" ++ text, s', j, ?_, hc⟩
  rw [cpOf_eq hsrc hdst, hstack.1, hstack.2, hfill, hfill, hrun]
  rfl

/-- The stack is zero under the names and the buffer. -/
def blankCopyStack : CopyStack := ⟨0, 0, fun _ => 0⟩

/-- The condition at the file `a.x` of a volume that has no other. -/
theorem cp_exact_iff_sample : ∃ o s,
    write 512 blankStack (request 2 0x61 0x78 3) (createFat32 blank) = some (o, s) ∧
    (CpExact 512 blankStack blankCopyStack [0x61] [0x62] s Session.start 1 ↔
      fillArray 0 [0x62] = nameOf [0x62] ∧
      Describes s Session.start (fillArray 0 [0x61]) (s.table 2 1) ∧
      ∀ B, Holds s 2 1 (.file B) →
        Serves s 2 (fillArray 0 [0x61]) (s.table 2 1).filesize.toNat (fun _ => 0) B) := by
  obtain ⟨o, F, s, hw, -, hm, he, hslot⟩ := createFat32_write (r := request 2 0x61 0x78 3)
    blankStack blank_zeroed rfl (by decide) (by decide : 2 ≤ 512)
  have hwf := (createFat32_sound blank).toWellFormed
  have hslot' : s.table Session.start.currentDirClusterNumber.toNat 1 =
      newEntry blankStack (request 2 0x61 0x78 3) 3 := hslot
  have hfree : (freeSlot (s.table Session.start.currentDirClusterNumber.toNat)).isSome := by
    by_contra hnone
    have hu := freeSlot_eq_none_iff.1 (Option.not_isSome_iff_eq_none.1 hnone) 2
    rw [show Session.start.currentDirClusterNumber.toNat = 2 from rfl,
      hm.slot_of_ne hwf .root (createFat32_freeSlot blank) fun _ => by decide,
      createFat32_slot (by decide)] at hu
    exact zero_not_used hu
  have hroom := hm.room
  rw [createFat32_freeList blank_zeroed, List.length_range'] at hroom
  have hone : (request 2 0x61 0x78 3).clusters = 1 := by decide
  refine ⟨o, s, hw, cp_exact_iff (hm.wellFormed hwf) ⟨by decide, by decide, by decide, by decide⟩
    ⟨by decide, by decide, by decide, by decide⟩ ⟨he, ?_⟩ ?_ hfree ?_ le_rfl⟩
  · rw [hslot', newEntry_name]
    decide
  · rw [hslot', newEntry_filesize]
    decide
  · rw [hslot', newEntry_filesize]
    have hneed : clusterNeed (request 2 0x61 0x78 3).bufferSize.toNat = 1 := by decide
    omega

/-- A file `b.x` in the folder `a`, and a stack of zeros: after `cd a` the command `cp b c`
makes no copy, since the root has no `b`. -/
theorem cp_elsewhere_sample : ∃ os s,
    Runs.run (Fat32.exec 512) (nestedOps 0x78 3) (createFat32 blank) = some (os, s) ∧
    Sound s ∧ Plain s ∧
    Bears s (cdTo [0x61] s Session.start).currentDirClusterNumber.toNat (nameOf [0x62]) 1 ∧
    ¬CpExact 512 blankStack blankCopyStack [0x62] [0x63] s (cdTo [0x61] s Session.start) 1 := by
  obtain ⟨os, s, f, hwrites, ho, ht, hplain, ha, hcl, hb, hslot, hzero⟩ :=
    nested 0x78 3 (by decide)
  obtain ⟨hloc, hdepth, hcur, hpar, -⟩ := nested_cd ht ho.marked ha hcl
  have hbears : Bears s (cdTo [0x61] s Session.start).currentDirClusterNumber.toNat
      (nameOf [0x62]) 1 := by
    rw [hcur]
    refine ⟨hb, ?_⟩
    rw [show (3 : UInt32).toNat = 3 from rfl, hslot, newEntry_name]
    exact (by decide : (![0x62, 0, 0, 0, 0, 0, 0, 0] : Bytes 8) = nameOf [0x62])
  refine ⟨os, s, hwrites, ht.sound, hplain, hbears, ?_⟩
  rintro ⟨text, s', j, hrun, hc⟩
  rw [cpOf_eq ⟨by decide, by decide, by decide, by decide⟩
    ⟨by decide, by decide, by decide, by decide⟩,
    Option.map_eq_some_iff] at hrun
  obtain ⟨⟨text', s''⟩, hnames, heq⟩ := hrun
  obtain rfl : s'' = s' := congrArg Prod.snd heq
  obtain hkept | ⟨_, _, _, _, _, _, i, -, -, -, -, -, hi, -⟩ := cpNames_returns hnames
  · have hu := hc.entry.used
    rw [hkept.table] at hu
    exact hc.free hu
  · -- no slot of the root has the name
    rw [hpar] at hi
    have hname : (s.table 2 i).name = ![0x62, 0, 0, 0, 0, 0, 0, 0] :=
      (findSlot_eq_some_iff.1 hi).1.trans (by decide)
    by_cases h0 : i = 0
    · rw [h0, ht.sound.atRoot.1] at hname
      exact absurd hname (by decide)
    by_cases h1 : i = 1
    · rw [h1, ha.name] at hname
      exact absurd hname (by decide)
    · rw [hzero 2 i (Or.inl rfl) h0 h1] at hname
      exact absurd hname (by decide)

end Shell
end Jatos
