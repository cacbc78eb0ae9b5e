/-
# What `ls`, `cat`, `mkdir` and the prompt say

`ls`, `cat`, `mkdir` and `print_terminal_text` of `src/user-shell.c`.  All but the prompt
first ask for the table of the current directory, in the directory above.  `cat` alone of
the commands on files then reads in `DIR_CLUSTERS[DEPTH]`, the current directory, so that
it prints what the tree has there at every depth (`cat_spec`).

The colours of the texts are left out.
-/

import Jatos.Shell.Copy
import Jatos.Shell.Hierarchy

namespace Jatos
namespace Shell

open Fat32 Packed

/-- `print_terminal_text`. -/
def printTerminalText (m : Session) : String :=
  "JatOS-IF2230:" ++
    (if m.depth = 0 then "/"
      else String.join ((List.range m.depth).map fun i =>
        "/" ++ shownAs (spelled (m.dirPath (i + 1))))) ++ "$ "

/-- Names and extensions have a first byte. -/
theorem name_pos : 0 < 8 := by decide

/-- A name's extension has a first letter. -/
theorem ext_pos : 0 < 3 := by decide

/-- What `ls` prints for a slot. -/
def lsEntry (i : Fin 64) (entry : DirectoryEntry) : String :=
  if entry.name ⟨0, name_pos⟩ = 0 then ""
  else if i = 0 then shownAs (spelled entry.name) ++ "/"
  else if entry.attr = ATR_DIRECTORY then "  " ++ shownAs (spelled entry.name) ++ "/"
  else
    "  " ++ shownAs (spelled entry.name) ++
      (if entry.ext ⟨0, ext_pos⟩ = 0 then "" else "." ++ shownAs (List.ofFn entry.ext))

/-- `ls`. -/
def ls (s : State) (m : Session) : String :=
  match readTable s m.currentDirParentClusterNumber (m.dirPath m.depth) with
  | none => "ls gagal\n"
  | some dirTable =>
      String.join ((List.finRange 64).map fun i => lsEntry i (dirTable i)) ++ "\n"

/-- `while (req_size < file_size)`, on an `int`. -/
def reqSize : ℕ → ℤ → ℤ → Option ℤ
  | 0, _, _ => none
  | fuel + 1, size, fileSize =>
      if size < fileSize then reqSize fuel (size + 2048) fileSize else some size

/-- The first entry of a name with a cluster. -/
def catEntry (dirTable : DirectoryTable) (filename : Bytes 8) : Option DirectoryEntry :=
  (findSlot dirTable filename).bind fun i =>
    if (dirTable i).cluster = 0 then none else some (dirTable i)

/-- The read of `cat`, with what the stack holds under `read_buffer`, and what it prints.
There is no answer where the read stores behind the buffer. -/
def catRead (fuel : ℕ) (readBuffer : Buffer) (filename : Bytes 8) (entry : DirectoryEntry)
    (s : State) (m : Session) : Option (String × State) :=
  (reqSize fuel 2048 entry.filesize.toBitVec.toInt).bind fun size =>
    let requestRead : Request :=
      ⟨readBuffer, filename, 0, m.dirClusters m.depth, UInt32.ofNat size.toNat⟩
    if size.toNat < 2048 * clustersRead fuel requestRead s then none
    else
      (Fat32.read fuel requestRead s).map fun (o, s) =>
        if o.code ≠ 0 then ("bukan file\n", s)
        else (shownAs (List.ofFn fun i : Fin entry.filesize.toNat => o.buf i) ++ "\n", s)

/-- `cat`. -/
def cat (fuel : ℕ) (readBuffer : Buffer) (filename : Bytes 8) (s : State) (m : Session) :
    Option (String × State) :=
  let numCluster := if m.depth = 0 then m.dirClusters m.depth else m.dirClusters (m.depth - 1)
  match readTable s numCluster (m.dirPath m.depth) with
  | none => some ("dir table corrupt", s)
  | some dirTable =>
      match catEntry dirTable filename with
      | none => some ("file tidak tersedia\n", s)
      | some entry => catRead fuel readBuffer filename entry s m

/-- `request_write` of `mkdir`. -/
def mkdirRequest (foldername : Bytes 8) (m : Session) : Request :=
  ⟨fun _ => 0, foldername, 0, m.currentDirClusterNumber, 0⟩

/-- `mkdir`. -/
def mkdir (fuel : ℕ) (k : Stack) (foldername : Bytes 8) (s : State) (m : Session) :
    Option (String × State) :=
  match readTable s m.currentDirParentClusterNumber (m.dirPath m.depth) with
  | none => some ("dir table corrupt", s)
  | some _ =>
      (write fuel k (mkdirRequest foldername m) s).map fun (o, s) =>
        (if o.code ≠ 0 then "gagal\n" else "", s)

/-! ### What they should say -/

/-- The names of live entries are padded with zeros. -/
def PaddedNames (s : State) : Prop := ∀ d k, LiveEntry s d k → Padded (s.table d k).name

/-- The volumes whose tree the commands see. -/
structure Legible (s : State) : Prop extends Tidy s where
  marked : Marked s
  padded : PaddedNames s

/-- The extension, as it is shown behind the name of a file. -/
def suffix (ext : Bytes 3) : String :=
  if ext ⟨0, ext_pos⟩ = 0 then "" else "." ++ shownAs (List.ofFn ext)

/-- The line of `ls` for a directory of the tree: its own name, then each name in it once,
with a mark if it is a folder and with its extension if it is a file. -/
def Listed (fs : Files) (cwd : List (Bytes 8)) (text : String) : Prop :=
  ∃ (names : List (Bytes 8)) (ext : Bytes 8 → Bytes 3), names.Nodup ∧
    (∀ n, n ∈ names ↔ fs (cwd ++ [n]) ≠ none) ∧
    text = shownAs (spelled (cwd.getLastD rootName)) ++ "/" ++
      String.join (names.map fun n => "  " ++ shownAs (spelled n) ++
        match fs (cwd ++ [n]) with
        | some .dir => "/"
        | _ => suffix (ext n)) ++ "\n"

/-- What `cat` should print. -/
def catText : Option Node → String
  | some (.file B) => shownAs B ++ "\n"
  | some .dir => "bukan file\n"
  | none => "file tidak tersedia\n"

/-- The prompt in a directory of the tree. -/
def promptText (cwd : List (Bytes 8)) : String :=
  "JatOS-IF2230:" ++
    (if cwd = [] then "/" else String.join (cwd.map fun n => "/" ++ shownAs (spelled n))) ++ "$ "

variable {s s' : State} {m : Session} {fs : Files} {n : Bytes 8} {x : Node} {fuel : ℕ}
  {i k : Fin 64} {B : List UInt8} {path : List UInt8}

/-! ### The prompt -/

/-- The prompt is the path of the session. -/
theorem printTerminalText_eq (m : Session) : printTerminalText m = promptText m.names := by
  have hnil : m.names = [] ↔ m.depth = 0 := by
    rw [← List.length_eq_zero_iff, m.length_names]
  rw [printTerminalText, promptText]
  simp only [hnil]
  rw [Session.names, List.map_map]
  rfl

/-! ### The current directory -/

/-- A short name without zeros is spelled as it was given. -/
theorem spelled_nameOf (hlen : path.length ≤ 8) (hzero : 0 ∉ path) :
    spelled (nameOf path) = path := by
  have hfn : List.ofFn (nameOf path) = path ++ List.replicate (8 - path.length) 0 := by
    refine List.ext_getElem (by simp; omega) fun i hi hi' => ?_
    rw [List.getElem_ofFn, nameOf, List.getD_eq_getElem?_getD]
    by_cases hp : i < path.length
    · simp [List.getElem_append_left hp, hp]
    · rw [List.getElem_append_right (by omega)]
      simp [List.getElem?_eq_none (not_lt.1 hp)]
  rw [spelled, hfn, List.takeWhile_append_of_pos]
  · cases 8 - path.length <;> simp [List.replicate_succ]
  · intro c hc
    exact decide_eq_true fun heq => hzero (heq ▸ hc)

/-- Once a zero is met, zeros follow. -/
theorem dropWhile_eq_zero {l : List UInt8} (h : l.Pairwise fun a b => a = 0 → b = 0) :
    ∀ c ∈ l.dropWhile (· ≠ 0), c = 0 := by
  induction h with
  | nil => simp
  | @cons a l ha _ ih =>
      by_cases h0 : a = 0
      · subst h0
        simpa using ha
      · simpa [h0] using ih

/-- Two padded names that are spelled alike. -/
theorem Padded.ext {n' : Bytes 8} (hpad : Padded n) (hpad' : Padded n')
    (h : spelled n = spelled n') : n = n' := by
  have htail : ∀ {n : Bytes 8}, Padded n → List.ofFn n =
      spelled n ++ List.replicate (8 - (spelled n).length) 0 := by
    intro n hpad
    have hsplit : spelled n ++ (List.ofFn n).dropWhile (· ≠ 0) = List.ofFn n :=
      List.takeWhile_append_dropWhile
    have hlen : ((List.ofFn n).dropWhile (· ≠ 0)).length = 8 - (spelled n).length := by
      have := congrArg List.length hsplit
      rw [List.length_append, List.length_ofFn] at this
      omega
    have hzero := dropWhile_eq_zero (l := List.ofFn n)
      (List.pairwise_ofFn.2 fun i j hij hi => hpad i j hij.le hi)
    rw [← List.eq_replicate_iff.2 ⟨hlen, hzero⟩, hsplit]
  refine List.ofFn_injective ?_
  rw [htail hpad, htail hpad', h]

/-- A name given without zeros is padded with zeros. -/
theorem nameOf_padded (hzero : 0 ∉ path) : Padded (nameOf path) := by
  intro i j hij hi
  have hlen : path.length ≤ i := by
    by_contra hlt
    rw [nameOf, List.getD_eq_getElem?_getD, List.getElem?_eq_getElem (not_le.1 hlt),
      Option.getD_some] at hi
    exact hzero (hi ▸ List.getElem_mem _)
  rw [nameOf, List.getD_eq_getElem?_getD, List.getElem?_eq_none (hlen.trans hij)]
  rfl

/-- A padded name is what it spells. -/
theorem Padded.spelled_eq_iff (hpad : Padded n) (hlen : path.length ≤ 8) (hzero : 0 ∉ path) :
    spelled n = path ↔ n = nameOf path := by
  constructor
  · intro h
    exact hpad.ext (nameOf_padded hzero) (h.trans (spelled_nameOf hlen hzero).symm)
  · rintro rfl
    exact spelled_nameOf hlen hzero

/-- A padded name that is not empty has a first letter. -/
theorem Padded.head_ne_zero (hpad : Padded n) (hn : n ≠ 0) : n ⟨0, name_pos⟩ ≠ 0 := fun h0 =>
  hn (funext fun i => hpad 0 i (Fin.zero_le i) h0)

/-- The folder where the session is is live. -/
theorem Located.live_current (h : Located s m) : LiveDir s m.currentDirClusterNumber.toNat :=
  h.pathTo.live

/-- A command finds the table of the current directory. -/
theorem Located.readTable_current (h : Located s m) (hl : Legible s) :
    Shell.readTable s m.currentDirParentClusterNumber (m.dirPath m.depth) =
      some (s.table m.currentDirClusterNumber.toNat) := by
  rw [h.parent, h.current]
  exact (h.real le_rfl).readTable hl.toTidy

/-- The name of the current directory is in its slot 0. -/
theorem Located.ownName (h : Located s m) (hs : Sound s) :
    (s.table m.currentDirClusterNumber.toNat 0).name = m.names.getLastD rootName := by
  rw [h.current]
  cases hd : m.depth with
  | zero =>
      have hnil : m.names = [] := List.length_eq_zero_iff.1 (m.length_names.trans hd)
      rw [h.root.2, hnil]
      exact hs.atRoot.1
  | succ d =>
      obtain ⟨k, hk, hcl⟩ := h.step d (by omega)
      have hlast : m.names.getLastD rootName = m.dirPath (d + 1) := by
        rw [Session.names, hd, List.range_succ]
        simp
      rw [← hcl, (hs.atChild _ k hk.entry hk.filesize).1, hlast]
      exact hk.name

/-- The name of the folder where the session is is padded. -/
theorem Located.ownName_padded (h : Located s m) (hpad : PaddedNames s) :
    Padded (m.names.getLastD rootName) := by
  cases hd : m.depth with
  | zero =>
      have hnil : m.names = [] := List.length_eq_zero_iff.1 (m.length_names.trans hd)
      rw [hnil]
      exact (by decide : ∀ i j : Fin 8, i ≤ j → rootName i = 0 → rootName j = 0)
  | succ d =>
      obtain ⟨k, hk, -⟩ := h.step d (by omega)
      have hlast : m.names.getLastD rootName = m.dirPath (d + 1) := by
        rw [Session.names, hd, List.range_succ]
        simp
      rw [hlast, ← hk.name]
      exact hpad _ k hk.entry

/-! ### `ls` -/

/-- Joining texts skips those that are empty. -/
theorem join_map_filter {α : Type*} {p : α → Prop} [DecidablePred p] {f : α → String}
    {l : List α} (h : ∀ a ∈ l, ¬p a → f a = "") :
    String.join (l.map f) = String.join ((l.filter fun a => p a).map f) := by
  induction l with
  | nil => rfl
  | cons a l ih =>
      have ih' := ih fun b hb => h b (List.mem_cons_of_mem a hb)
      by_cases hp : p a
      · simp [hp, ih']
      · simp [hp, ih', h a List.mem_cons_self hp]

/-- What `ls` prints for an entry is what the tree has under its name. -/
theorem lsEntry_eq (h : Located s m) (hl : Legible s) (hs : Spells s fs)
    (he : LiveEntry s m.currentDirClusterNumber.toNat k) :
    let e := s.table m.currentDirClusterNumber.toNat k
    lsEntry k e = "  " ++ shownAs (spelled e.name) ++
      match fs (m.names ++ [e.name]) with
      | some .dir => "/"
      | _ => suffix e.ext := by
  intro e
  have hname := (hl.padded _ k he).head_ne_zero (hl.titled _ he.dir k he.used)
  obtain ⟨x, hx⟩ := LiveEntry.exists_node hl.sound.toWellFormed he
  have hfs := (h.files_iff hl.toTidy hs).2 ⟨k, ⟨he, rfl⟩, hx⟩
  rw [lsEntry, if_neg hname, if_neg he.slot, hfs]
  cases x with
  | dir => rw [if_pos ((hl.marked _ k he).2 hx)]
  | file B =>
      rw [if_neg fun hattr => hx.1 ((hl.marked _ k he).1 hattr)]
      rfl

/-- **`ls` lists the tree**: the name of the current directory, then what the tree has in it,
each name once. -/
theorem ls_listed (h : Located s m) (hl : Legible s) (hs : Spells s fs) :
    Listed fs m.names (ls s m) := by
  have ht := hl.toTidy
  have hlive := h.live_current
  let t := s.table m.currentDirClusterNumber.toNat
  let used := slots.filter fun k => (t k).Used
  have hmem : ∀ {k}, k ∈ used ↔ LiveEntry s m.currentDirClusterNumber.toNat k := by
    intro k
    rw [List.mem_filter, mem_slots, decide_eq_true_eq]
    exact ⟨fun hk => ⟨hlive, hk.1, hk.2⟩, fun he => ⟨he.slot, he.used⟩⟩
  let ext : Bytes 8 → Bytes 3 := fun n => ((findSlot t n).map fun k => (t k).ext).getD 0
  refine ⟨used.map fun k => (t k).name, ext, ?_, fun n => ?_, ?_⟩
  · refine List.Nodup.map_on (fun k hk k' hk' heq => ?_) (slots_nodup.filter _)
    exact ht.distinct _ hlive k k' (hmem.1 hk).used (hmem.1 hk').used heq
  · rw [ne_eq, h.files_eq_none_iff ht hs, not_forall_not, List.mem_map]
    constructor
    · rintro ⟨k, hk, hn⟩
      exact ⟨k, hmem.1 hk, hn⟩
    · rintro ⟨k, he, hn⟩
      exact ⟨k, hmem.2 he, hn⟩
  · have hown := h.ownName ht.sound
    have hhead : lsEntry 0 (t 0) = shownAs (spelled (m.names.getLastD rootName)) ++ "/" := by
      have h0 := (h.ownName_padded hl.padded).head_ne_zero (hown ▸ ht.titled _ hlive 0
        (ht.sound.self _ hlive).1)
      rw [lsEntry, hown, if_neg h0, if_pos rfl]
    have hslots : List.finRange 64 = 0 :: slots := rfl
    have hskip : ∀ k ∈ slots, ¬(t k).Used → lsEntry k (t k) = "" := by
      intro k _ hu
      exact if_pos (congrFun (ht.clean _ hlive k hu) 0)
    rw [ls, h.readTable_current hl, hslots]
    change String.join (((0 : Fin 64) :: slots).map fun i => lsEntry i (t i)) ++ "\n" = _
    rw [List.map_cons, String.join_cons, join_map_filter hskip, hhead, List.map_map]
    congr 3
    refine List.map_congr_left fun k hk => ?_
    have he := hmem.1 hk
    have hfind := findSlot_eq ht.distinct ht.clean hlive (ht.titled _ hlive k he.used) he.used rfl
    rw [lsEntry_eq h hl hs he]
    simp only [Function.comp, ext, t, hfind]
    rfl

/-! ### `cat` -/

/-- The size of a file, rounded up to clusters. -/
theorem reqSize_eq {fileSize w : ℕ} (hw : w ≤ clusterNeed fileSize)
    (hfuel : clusterNeed fileSize - w < fuel) :
    reqSize fuel (2048 * w : ℕ) fileSize = some ((2048 * clusterNeed fileSize : ℕ) : ℤ) := by
  induction fuel generalizing w with
  | zero => omega
  | succ fuel ih =>
      have hle := le_clusterNeed fileSize
      rw [reqSize]
      by_cases hlt : w < clusterNeed fileSize
      · have hfull := full_of_lt_clusterNeed hlt
        have hnext := ih (w := w + 1) hlt (by omega)
        rw [if_pos (by omega)]
        push_cast [Nat.mul_add] at hnext ⊢
        exact hnext
      · obtain rfl : w = clusterNeed fileSize := by omega
        rw [if_neg (by omega)]

/-- The name of an entry is found, and the entry has a cluster. -/
theorem catEntry_of_bears (h : Located s m) (hl : Legible s)
    (hb : Bears s m.currentDirClusterNumber.toNat n k) :
    n ≠ 0 ∧ findSlot (s.table m.currentDirClusterNumber.toNat) n = some k ∧
      catEntry (s.table m.currentDirClusterNumber.toNat) n =
        some (s.table m.currentDirClusterNumber.toNat k) := by
  have hn : n ≠ 0 := hb.name ▸ hl.titled _ hb.entry.dir k hb.entry.used
  have hfind := findSlot_eq hl.distinct hl.clean h.live_current hn hb.entry.used hb.name
  obtain ⟨l, hchain, -, hrange⟩ := hl.sound.chain _ _ hb.entry
  have hcl := hrange _ hchain.head_mem
  refine ⟨hn, hfind, ?_⟩
  rw [catEntry, hfind, Option.bind_some, if_neg (by omega)]

/-- A read along a chain stores no more clusters than the chain has. -/
theorem clustersRead_le {r : Request} {l : List ℕ} (fuel : ℕ)
    (hi : findSlot (s.table r.parent) r.name = some i) (hl : EntryChain s r.parent i l)
    (hlt : ∀ c ∈ l, c < 512) : clustersRead fuel r s ≤ l.length := by
  by_cases hnone : r.name = 0 ∨ (s.table r.parent i).filesize = 0
  · rw [clustersRead_eq_zero hi hnone]
    exact Nat.zero_le _
  · obtain ⟨hn, hsize⟩ := not_or.1 hnone
    rw [clustersRead_eq hn hi hsize]
    refine List.IsPrefix.length_le ?_
    exact readVisits_prefix hl hlt

/-- `cat` prints the file, or that there is none. -/
theorem cat_eq (h : Located s m) (hl : Legible s) (readBuffer : Buffer) :
    cat fuel readBuffer n s m =
      match catEntry (s.table m.currentDirClusterNumber.toNat) n with
      | none => some ("file tidak tersedia\n", s)
      | some entry => catRead fuel readBuffer n entry s m := by
  have hparent : (if m.depth = 0 then m.dirClusters m.depth else m.dirClusters (m.depth - 1)) =
      m.currentDirParentClusterNumber := by
    rw [h.parent]
    split_ifs with h0
    · rw [h0]
    · rfl
  rw [cat, hparent, h.readTable_current hl]

/-- A folder is no file. -/
theorem catRead_folder (h : Located s m) (hl : Legible s)
    (hb : Bears s m.currentDirClusterNumber.toNat n k)
    (h0 : (s.table m.currentDirClusterNumber.toNat k).filesize = 0) (hfuel : 1 ≤ fuel)
    (readBuffer : Buffer) : catRead fuel readBuffer n
      (s.table m.currentDirClusterNumber.toNat k) s m = some ("bukan file\n", s) := by
  have hwf := hl.sound.toWellFormed
  obtain ⟨hn, hfind, -⟩ := catEntry_of_bears h hl hb
  have hsize : reqSize fuel 2048 0 = some 2048 := by
    obtain ⟨fuel, rfl⟩ : ∃ f, fuel = f + 1 := ⟨fuel - 1, by omega⟩
    rfl
  let r : Request := ⟨readBuffer, n, 0, m.currentDirClusterNumber, 2048⟩
  have hchain := (hwf.folder_chain hb.entry h0).1
  have hread := clustersRead_le (r := r) fuel hfind hchain fun c hc =>
    (hwf.chain_range hb.entry hchain c hc).2
  rw [List.length_singleton] at hread
  have hfit : ¬2048 < 2048 * clustersRead fuel r s := by omega
  rw [catRead, h0, ← h.current, show (0 : UInt32).toBitVec.toInt = 0 from rfl, hsize,
    Option.bind_some]
  refine (if_neg hfit).trans ?_
  exact congrArg _ (Holds.read_dir (r := r) h0 hn hfind)

/-- The buffer has room for the clusters of a file, and its bytes are printed. -/
theorem catRead_file (h : Located s m) (hl : Legible s)
    (hb : Bears s m.currentDirClusterNumber.toNat n k)
    (hB : Holds s m.currentDirClusterNumber.toNat k (.file B)) (hfuel : 512 ≤ fuel)
    (readBuffer : Buffer) : catRead fuel readBuffer n
      (s.table m.currentDirClusterNumber.toNat k) s m = some (shownAs B ++ "\n", s) := by
  have hwf := hl.sound.toWellFormed
  obtain ⟨hn, hfind, -⟩ := catEntry_of_bears h hl hb
  obtain ⟨h0, hlen, l, hchain, -⟩ := id hB
  -- the chain is as long as the size says
  have hlength := hwf.chain_length hb.entry hchain
  rw [DirectoryEntry.clusters, if_neg h0, hlen] at hlength
  have hneed := clusterNeed_le hwf hb.entry h0
  rw [hlen] at hneed
  have hle := le_clusterNeed B.length
  have hpos : 1 ≤ clusterNeed B.length := by
    have : B.length ≠ 0 := fun hB => h0 (UInt32.toNat_inj.1 (hlen.trans hB))
    omega
  have hint : (s.table m.currentDirClusterNumber.toNat k).filesize.toBitVec.toInt = B.length := by
    rw [← hlen]
    refine BitVec.toInt_eq_toNat_of_lt ?_
    change 2 * (s.table m.currentDirClusterNumber.toNat k).filesize.toNat < 2 ^ 32
    omega
  have hsize : reqSize fuel 2048 B.length = some ((2048 * clusterNeed B.length : ℕ) : ℤ) :=
    reqSize_eq (w := 1) hpos (by omega)
  let r : Request :=
    ⟨readBuffer, n, 0, m.currentDirClusterNumber, UInt32.ofNat (2048 * clusterNeed B.length)⟩
  have hbuf : r.bufferSize.toNat = 2048 * clusterNeed B.length :=
    UInt32.toNat_ofNat_of_lt' ((Nat.mul_le_mul_left 2048 hneed).trans_lt (by decide))
  have hread := clustersRead_le (r := r) fuel hfind hchain fun c hc =>
    (hwf.chain_range hb.entry hchain c hc).2
  have hfit : ¬2048 * clusterNeed B.length < 2048 * clustersRead fuel r s := by omega
  obtain ⟨buf, hrun, hbytes⟩ := Holds.read (r := r) hwf hb.entry hB hn hfind (by omega) hfuel
  have hshown : (List.ofFn fun i : Fin (s.table m.currentDirClusterNumber.toNat
      k).filesize.toNat => buf i) = B := by
    refine List.ext_getElem (by simp [hlen]) fun i hi hi' => ?_
    rw [List.getElem_ofFn, hbytes i hi']
  rw [catRead, hint, hsize, Option.bind_some, Int.toNat_natCast, ← h.current]
  refine (if_neg hfit).trans ?_
  change (Fat32.read fuel r s).map _ = _
  rw [hrun, Option.map_some]
  refine congrArg some ((if_neg (not_not.2 rfl)).trans ?_)
  rw [hshown]

/-- **`cat` prints the file** that the tree has under the name in the current directory, at
every depth, and stores nothing behind its buffer. -/
theorem cat_spec (h : Located s m) (hl : Legible s) (hs : Spells s fs) (hn : n ≠ 0)
    (hown : n ≠ m.names.getLastD rootName) (hfuel : 512 ≤ fuel) (readBuffer : Buffer) :
    cat fuel readBuffer n s m = some (catText (fs (m.names ++ [n])), s) := by
  rw [cat_eq h hl]
  cases hx : fs (m.names ++ [n]) with
  | none =>
      have hno := (h.files_eq_none_iff hl.toTidy hs).1 hx
      have hfind := findSlot_eq_none hl.clean h.live_current hn (h.ownName hl.sound ▸ hown)
        fun k he hname => hno k ⟨he, hname⟩
      rw [catEntry, hfind]
      rfl
  | some x =>
      obtain ⟨k, hb, hx⟩ := (h.files_iff hl.toTidy hs).1 hx
      obtain ⟨-, -, hentry⟩ := catEntry_of_bears h hl hb
      rw [hentry]
      cases x with
      | dir => exact catRead_folder h hl hb hx (by omega) readBuffer
      | file B => exact catRead_file h hl hb hx hfuel readBuffer

/-! ### `mkdir` -/

/-- A new object with a padded name keeps the volume legible. -/
theorem Legible.made {r : Request} {st : Stack} {f : ℕ} {F : List ℕ} (hl : Legible s)
    (hm : Made r (newEntry st r f) F s s') (hp : LiveDir s r.parent) (hn : r.name ≠ 0)
    (hpad : Padded r.name) (hfresh : NoEntry s r.parent r.name) : Legible s' where
  toTidy := hm.tidy hl.toTidy hp hn hfresh
  marked := hl.marked.made hl.sound.toWellFormed hm
  padded d k he := by
    obtain ⟨he', hk⟩ | ⟨-, -, hk⟩ := hm.entry_inv hl.sound.toWellFormed he
    · rw [hk]
      exact hl.padded d k he'
    · rw [hk, hm.name]
      exact hpad

/-- A deletion keeps the volume legible. -/
theorem Legible.dropped {r : Request} {F : List ℕ} (hl : Legible s)
    (hr : Dropped r i F s s') : Legible s' where
  toTidy := hr.tidy hl.toTidy
  marked d k he := by
    obtain ⟨he', hk, -⟩ := hr.entry_inv hl.sound.toWellFormed he
    rw [hk]
    exact hl.marked d k he'
  padded d k he := by
    obtain ⟨he', hk, -⟩ := hr.entry_inv hl.sound.toWellFormed he
    rw [hk]
    exact hl.padded d k he'

/-- A format leaves a legible volume. -/
theorem createFat32_legible (s : State) : Legible (createFat32 s) :=
  ⟨createFat32_tidy s, fun _ _ he => absurd he createFat32_no_entry,
    fun _ _ he => absurd he createFat32_no_entry⟩

/-- A new entry leaves the path where it is. -/
theorem Located.made {r : Request} {e : DirectoryEntry} {F : List ℕ} (h : Located s m)
    (hwf : WellFormed s) (hm : Made r e F s s') : Located s' m where
  depth := h.depth
  root := h.root
  step i hi := by
    obtain ⟨k, hk, hcl⟩ := h.step i hi
    have htab := hm.table_used hwf hk.entry.dir hk.entry.used
    exact ⟨k, ⟨hm.entry hwf hk.entry, by rw [htab, hk.filesize], by rw [htab, hk.name]⟩,
      by rw [htab, hcl]⟩
  current := h.current
  parent := h.parent

/-- **`mkdir` makes a folder** in the current directory, where there is room for it. -/
theorem mkdir_spec {k : Stack} (h : Located s m) (hl : Legible s) (hs : Spells s fs)
    (hpad : Padded n) (ha : Admits s (.write k (mkdirRequest n m))) (hfuel : 512 ≤ fuel) :
    ∃ s', mkdir fuel k n s m = some ("", s') ∧ Legible s' ∧ Located s' m ∧
      Spells s' (Function.update fs (m.names ++ [n]) (some .dir)) := by
  have hwf := hl.sound.toWellFormed
  obtain ⟨hp, hn, hfresh, hj, hfit⟩ := ha
  obtain ⟨j, hj⟩ := Option.isSome_iff_exists.1 hj
  obtain ⟨o, f, F, s', hw, hcode, hm, -⟩ := write_made_first (k := k) (hwf.live_range hp)
    (hwf.live_ne_empty hp) hfit (fun _ => by rw [hj]; rfl) (by omega : 2 ≤ fuel)
  refine ⟨s', ?_, hl.made hm hp hn hpad hfresh.noEntry, h.made hwf hm,
    Made.spells hm hl.toTidy h.pathTo hj hfresh.noEntry hs⟩
  rw [mkdir, h.readTable_current hl]
  simp only
  rw [hw, Option.map_some, if_neg (not_not.2 hcode)]

end Shell
end Jatos
