/-
# The shell as its user sees it

To its user the shell is a tree of files and a current directory (`Desk`).  The commands
`cd`, `ls`, `cat`, `mkdir`, `rm` and `cp` do to them what `Cmd.Does` says, and from a terminal
that shows a desk, as one does behind the format of its disk (`start_shows`) and behind the
write of a file (`Shows.written`), a run of typed lines shows what a run of the desk shows
(`terminal_refines`).  What is asked of the lines is `Cmd.Typed`: `rm` and `cp` are typed
in the root, the directory above which is itself, and `cat` is not asked for the name of
the current directory, which its slot 0 has.
-/

import Jatos.Shell.Terminal

namespace Jatos
namespace Shell

open Fat32 Packed Process Walk

/-- The tree of files, and the names from below the root down to the current directory. -/
structure Desk where
  files : Files
  cwd : List (Bytes 8)

/-- The desk of a formatted disk. -/
def Desk.start : Desk := ⟨fun _ => none, []⟩

/-- Where the components of a path lead to. -/
def enterPath (fs : Files) : List (Bytes 8) → List (List UInt8) → Option (List (Bytes 8))
  | cwd, [] => some cwd
  | cwd, path :: paths =>
      match fs (cwd ++ [nameOf path]) with
      | some .dir => enterPath fs (cwd ++ [nameOf path]) paths
      | _ => none

/-- The commands, by what is typed behind their names. -/
inductive Cmd
  | up
  | cd (p : List UInt8)
  | ls
  | cat (f : List UInt8)
  | mkdir (f : List UInt8)
  | rm (f : List UInt8)
  | cp (src dst : List UInt8)
  | clear

/-- The line that is typed. -/
def Cmd.line : Cmd → List UInt8
  | up => [0x63, 0x64, 0x20, 0x2E, 0x2E]
  | cd p => [0x63, 0x64, 0x20] ++ p
  | ls => [0x6C, 0x73]
  | cat f => [0x63, 0x61, 0x74, 0x20] ++ f
  | mkdir f => [0x6D, 0x6B, 0x64, 0x69, 0x72, 0x20] ++ f
  | rm f => [0x72, 0x6D, 0x20] ++ f
  | cp src dst => [0x63, 0x70, 0x20] ++ src ++ [0x20] ++ dst
  | clear => [0x63, 0x6C, 0x65, 0x61, 0x72]

/-- What a command shows, and the desk behind it. -/
inductive Cmd.Does : Cmd → Desk → Shown → Desk → Prop
  | up (t : Desk) : Does up t (.text "") { t with cwd := t.cwd.dropLast }
  | cd {t : Desk} {p : List UInt8} {cwd : List (Bytes 8)} :
      enterPath t.files t.cwd (components p) = some cwd →
      Does (cd p) t (.text "") { t with cwd := cwd }
  | stay {t : Desk} {p : List UInt8} : enterPath t.files t.cwd (components p) = none →
      Does (cd p) t (.text "directory tidak ditemukan\n") t
  | ls {t : Desk} {text : String} : Listed t.files t.cwd text → Does ls t (.text text) t
  | cat (t : Desk) (f : List UInt8) :
      Does (cat f) t (.text (catText (t.files (t.cwd ++ [nameOf f])))) t
  | mkdir {t : Desk} {f : List UInt8} : t.files (t.cwd ++ [nameOf f]) = none →
      Does (mkdir f) t (.text "")
        { t with files := Function.update t.files (t.cwd ++ [nameOf f]) (some .dir) }
  | rm {t : Desk} {f : List UInt8} : t.files (t.cwd ++ [nameOf f]) ≠ none →
      Does (rm f) t (.text "")
        { t with files := Function.update t.files (t.cwd ++ [nameOf f]) none }
  | rmNone {t : Desk} {f : List UInt8} : t.files (t.cwd ++ [nameOf f]) = none →
      Does (rm f) t (.text "file tidak tersedia\n") t
  | cp {t : Desk} {src dst B : List UInt8} : t.files (t.cwd ++ [nameOf src]) = some (.file B) →
      t.files (t.cwd ++ [nameOf dst]) = none →
      Does (cp src dst) t
        (.text ("Copying " ++ shownAs src ++ " to " ++ shownAs dst ++ "\n"))
        { t with files := Function.update t.files (t.cwd ++ [nameOf dst]) (some (.file B)) }
  | clear (t : Desk) : Does clear t .clear t

/-- A line and the prompt behind it. -/
def Cmd.Answers (c : Cmd) (t : Desk) (shown : List Shown) (t' : Desk) : Prop :=
  ∃ o, c.Does t o t' ∧ shown = [.text "\n", o, .text (promptText t'.cwd)]

/-- A name of at most 8 characters. -/
structure ShortName (f : List UInt8) : Prop where
  ne_nil : f ≠ []
  short : f.length ≤ 8
  no_zero : 0 ∉ f

/-- A short name is not the empty one. -/
theorem ShortName.nameOf_ne_zero {f : List UInt8} (h : ShortName f) : nameOf f ≠ 0 := by
  obtain ⟨c, cs, rfl⟩ := List.exists_cons_of_ne_nil h.ne_nil
  intro h0
  have hc : c = 0 := congrFun h0 0
  exact h.no_zero (hc ▸ List.mem_cons_self)

/-- What is asked of a line: names and paths fit their arrays, a new name is new and
there is room for what it gets; `rm` and `cp` are typed in the root, `rm` not for a folder
that is not empty, and `cp` where the stack is zero. -/
def Cmd.Typed (locals : Locals) (t : Terminal) : Cmd → Prop
  | up | ls | clear => True
  | cd p => Shell.Typed t.session p ∧ ∀ path ∈ components p, 0 ∉ path
  | cat f => ShortName f ∧ nameOf f ≠ t.session.names.getLastD rootName
  | mkdir f => ShortName f ∧
      Admits t.volume (.write locals.write (mkdirRequest (nameOf f) t.session))
  | rm f => ShortName f ∧ nameOf f ≠ rootName ∧ t.session.depth = 0 ∧
      ∀ k, Bears t.volume 2 (nameOf f) k → (t.volume.table 2 k).filesize = 0 →
        EmptyDir t.volume (t.volume.table 2 k).cluster
  | cp src dst => Word src ∧ Word dst ∧ t.session.depth = 0 ∧
      (locals.cp.source = 0 ∧ locals.cp.dest = 0) ∧
      (∃ k, Bears t.volume 2 (nameOf src) k ∧ (t.volume.table 2 k).filesize ≠ 0 ∧
        clusterNeed (t.volume.table 2 k).filesize.toNat ≤ (freeList t.volume.mem).length) ∧
      Unnamed t.volume 2 (nameOf dst) ∧ (freeSlot (t.volume.table 2)).isSome

/-- **The terminal shows the desk.** -/
structure Shows (t : Terminal) (desk : Desk) : Prop where
  legible : Legible t.volume
  located : Located t.volume t.session
  spells : Spells t.volume desk.files
  names : t.session.names = desk.cwd

variable {s s' : State} {m m' : Session} {fs : Files} {q : List (Bytes 8)} {x y : Place}
  {path p f : List UInt8} {paths : List (List UInt8)} {fuel : ℕ} {t : Terminal} {desk : Desk}

/-! ### The way that `cd` goes -/

/-- A component leads to a folder of its name. -/
theorem Place.sub_spec (hl : Legible s) (hx : PathTo s (rootName :: q) x.cluster.toNat)
    (hlen : path.length ≤ 8) (hzero : 0 ∉ path) (h : x.sub s path = some y) :
    ∃ k, Bears s x.cluster.toNat (nameOf path) k ∧
      (s.table x.cluster.toNat k).filesize = 0 ∧ y.name = nameOf path ∧
      PathTo s (rootName :: (q ++ [nameOf path])) y.cluster.toNat := by
  rw [Place.sub, Option.map_eq_some_iff] at h
  obtain ⟨k, hk, rfl⟩ := h
  obtain ⟨hk0, hu, h0, -, hname⟩ := of_decide_eq_true (Fin.find?_eq_some_iff.1 hk).1
  have he : LiveEntry s x.cluster.toNat k := ⟨hx.live, hk0, hu⟩
  have hb : Bears s x.cluster.toNat (nameOf path) k :=
    ⟨he, ((hl.padded _ k he).spelled_eq_iff hlen hzero).1 hname⟩
  refine ⟨k, hb, h0, hb.name, ?_⟩
  rw [Place.child_cluster]
  exact hx.snoc hb h0

/-- It leads there if there is one. -/
theorem Place.sub_isSome {k : Fin 64} (hl : Legible s) (hlen : path.length ≤ 8)
    (hzero : 0 ∉ path) (hb : Bears s x.cluster.toNat (nameOf path) k)
    (h0 : (s.table x.cluster.toNat k).filesize = 0) : (x.sub s path).isSome := by
  have hspelled := ((hl.padded _ k hb.entry).spelled_eq_iff hlen hzero).2 hb.name
  have hne : path ≠ [] := by
    rintro rfl
    exact hl.titled _ hb.entry.dir k hb.entry.used hb.name
  rw [Place.sub, Option.isSome_map, Fin.isSome_find?_iff]
  exact ⟨k, decide_eq_true ⟨hb.entry.slot, hb.entry.used, h0, hne, hspelled⟩⟩

/-- **The components of a path** lead where the tree has folders of their names. -/
theorem walk_enter (hl : Legible s) (hs : Spells s fs)
    (hx : PathTo s (rootName :: q) x.cluster.toNat)
    (hpaths : ∀ path ∈ paths, path.length ≤ 8 ∧ 0 ∉ path) :
    enterPath fs q paths =
      (walk (Place.sub s) x paths).map fun ys => q ++ ys.map Place.name := by
  induction paths generalizing q x with
  | nil => simp [enterPath]
  | cons path paths ih =>
      obtain ⟨hlen, hzero⟩ := hpaths path List.mem_cons_self
      have hrest := fun path' h => hpaths path' (List.mem_cons_of_mem path h)
      cases hsub : x.sub s path with
      | some y =>
          obtain ⟨k, hb, h0, hname, hy⟩ := Place.sub_spec hl hx hlen hzero hsub
          have hdir : fs (q ++ [nameOf path]) = some .dir := (hs q _ .dir).2 ⟨_, k, hx, hb, h0⟩
          rw [enterPath, hdir, walk_cons_some hsub, ih hy hrest]
          simp [Option.map_map, Function.comp_def, hname]
      | none =>
          rw [walk_cons_none hsub, enterPath]
          split
          · rename_i hdir
            obtain ⟨d, k, hd, hb, h0⟩ := (hs q _ .dir).1 hdir
            obtain rfl := pathTo_unique hl.distinct hx hd
            have hsome := Place.sub_isSome hl hlen hzero hb h0
            rw [hsub] at hsome
            cases hsome
          · rfl

/-- What the loop of `cd` prints. -/
theorem cdLoop_text (hl : Legible s) {d : ℕ} (hx : (m.place d).Real s) :
    (cdLoop s paths d m).1 =
      if (walk (Place.shown s) (m.place d) paths).isSome then ""
      else "directory tidak ditemukan\n" := by
  induction paths generalizing d m with
  | nil => rfl
  | cons path paths ih =>
      cases hy : (m.place d).shown s path with
      | none =>
          have hnone := hy
          rw [Place.shown, hx.readTable hl.toTidy, Option.bind_some,
            Option.map_eq_none_iff] at hnone
          rw [cdLoop_cons, hx.readTable hl.toTidy, walk_cons_none hy]
          simp only [hnone]
          rfl
      | some y =>
          obtain ⟨hloop, hparent⟩ := cdLoop_some paths hy
          have hsub := hy
          rw [hx.shown_eq_sub hl.toTidy hl.marked] at hsub
          have hreal : ((m.put (d + 1) y).place (d + 1)).Real s := by
            rw [Session.place_put hparent]
            exact Or.inr (Place.sub_folder hx.live hsub).2
          rw [hloop, ih hreal, Session.place_put hparent, walk_cons_some hy, Option.isSome_map]

/-- A path that is left alone stays real. -/
theorem Located.stayed (h : Located s m) (hst : Stayed m m') : Located s m' where
  depth := hst.depth.trans_le h.depth
  root := by
    rw [(hst.path 0 (Nat.zero_le _)).1, (hst.path 0 (Nat.zero_le _)).2]
    exact h.root
  step i hi := by
    rw [hst.depth] at hi
    rw [(hst.path i hi.le).2, (hst.path (i + 1) hi).1, (hst.path (i + 1) hi).2]
    exact h.step i hi
  current := by rw [hst.current, hst.depth, (hst.path _ le_rfl).2, h.current]
  parent := by rw [hst.parent, hst.depth, (hst.path _ (Nat.sub_le _ _)).2, h.parent]

/-- Staying where one is keeps the names. -/
theorem Stayed.names (hst : Stayed m m') : m'.names = m.names := by
  rw [Session.names, Session.names, hst.depth]
  exact List.map_congr_left fun i hi => (hst.path (i + 1) (List.mem_range.1 hi)).1

/-- Entering folders adds their names. -/
theorem Entered.names {ys : List Place} (hent : Entered s m m' ys) :
    m'.names = m.names ++ ys.map Place.name := by
  refine List.ext_getElem (by simp [Session.length_names, hent.depth]) fun i hi hi' => ?_
  have hget : m'.names[i] = m'.dirPath (i + 1) := by simp [Session.names]
  rw [m'.length_names, hent.depth] at hi
  rw [hget]
  by_cases hlt : i < m.depth
  · rw [List.getElem_append_left (by rwa [m.length_names]), (hent.path (i + 1) hlt).1]
    simp [Session.names]
  · obtain ⟨j, rfl⟩ := Nat.exists_eq_add_of_le (not_lt.1 hlt)
    have hplace : m'.dirPath (m.depth + 1 + j) = ys[j].name :=
      congrArg Place.name (hent.places j (by omega))
    rw [show m.depth + 1 + j = m.depth + j + 1 by omega] at hplace
    rw [List.getElem_append_right (by rw [m.length_names]; omega)]
    simpa [m.length_names] using hplace

/-- **`cd`** enters the directory that the tree has under the path, or stays. -/
theorem cd_does (h : Located s m) (hl : Legible s) (hs : Spells s fs) (hp : Shell.Typed m p)
    (hzero : ∀ path ∈ components p, 0 ∉ path) :
    ∃ text m', cd ([0x63, 0x64, 0x20] ++ p) s m = (text, m') ∧ Located s m' ∧
      ((enterPath fs m.names (components p) = some m'.names ∧ text = "") ∨
        enterPath fs m.names (components p) = none ∧ m'.names = m.names ∧
          text = "directory tidak ditemukan\n") := by
  have hreal := h.real le_rfl
  have hcur : PathTo s (rootName :: m.names) (m.place m.depth).cluster.toNat := by
    have hpath := h.pathTo
    rwa [h.current] at hpath
  have henter := walk_enter hl hs hcur fun path hc => ⟨hp.short path hc, hzero path hc⟩
  have hagree := (cdExact_iff h hp).1 (h.cdExact hl.toTidy hl.marked hp)
  have hexact := h.cdExact hl.toTidy hl.marked hp
  have htext : (cd ([0x63, 0x64, 0x20] ++ p) s m).1 = (cdLoop s (components p) m.depth m).1 := by
    have hup : ([0x63, 0x64, 0x20] ++ p).take 5 ≠ [0x63, 0x64, 0x20, 0x2E, 0x2E] := fun heq =>
      hp.not_up ⟨p.drop 2, by
        have htake : p.take 2 = [0x2E, 0x2E] := by simpa using heq
        rw [← htake, List.take_append_drop]⟩
    rw [cd, if_neg hup]
    rfl
  rw [cdLoop_text hl hreal, hagree] at htext
  refine ⟨_, _, rfl, ?_⟩
  change Located s (cdTo p s m) ∧ _
  rw [CdExact] at hexact
  cases hwalk : walk (Place.sub s) (m.place m.depth) (components p) with
  | some ys =>
      rw [hwalk] at hexact htext henter
      exact ⟨hexact.located, Or.inl ⟨henter.trans (congrArg some hexact.names.symm), htext⟩⟩
  | none =>
      rw [hwalk] at hexact htext henter
      exact ⟨h.stayed hexact, Or.inr ⟨henter, hexact.names, htext⟩⟩

/-- Going up drops the last name. -/
theorem Session.names_up (m : Session) : m.up.names = m.names.dropLast := by
  by_cases hd : 0 < m.depth
  · have hup : m.up.depth = m.depth - 1 ∧ m.up.dirPath = m.dirPath := by
      rw [Session.up, if_pos hd]
      exact ⟨rfl, rfl⟩
    obtain ⟨d, hd⟩ := Nat.exists_eq_succ_of_ne_zero hd.ne'
    rw [Session.names, Session.names, hup.1, hup.2, hd, Nat.succ_sub_one, List.range_succ]
    simp
  · have hnil : m.names = [] := List.length_eq_zero_iff.1 (by rw [m.length_names]; omega)
    rw [Session.up, if_neg hd, hnil]
    rfl

/-! ### A line -/

variable {locals : Locals} {placement : Placement} {command : List UInt8} {call : Call}
  {o : Shown} {c : Cmd}

/-- A line that makes one call. -/
theorem enter_of_call {t' : Terminal} (hcalls : calls command = [call])
    (h : perform fuel placement locals command call t = some (o, t')) :
    t.enter fuel placement locals command =
      some ([.text "\n", o, .text (promptText t'.session.names)], t') := by
  rw [Terminal.enter, Terminal.executeCommand, hcalls,
    Runs.run_cons_eq h (rfl : Runs.run _ [] t' = some ([], t')), ← printTerminalText_eq]
  rfl

/-- A command begins with its name, and its words fit. -/
theorem Cmd.calls_line (h : c.Typed locals t) : calls c.line = [match c with
    | .up | .cd _ => .cd
    | .ls => .ls
    | .cat f => .cat (nameOf f)
    | .mkdir f => .mkdir (nameOf f)
    | .rm f => .rm (nameOf f)
    | .cp _ _ => .cp
    | .clear => .clear] := by
  cases c with
  | up => rfl
  | ls => rfl
  | clear => rfl
  | cd p =>
      obtain ⟨a, l, rfl⟩ := List.exists_cons_of_ne_nil h.1.ne_nil
      have hrest : callsCat (Cmd.cd (a :: l)).line = [] :=
        callsCat_eq_nil (by show ([0x63, 0x64] : List UInt8) ∉ _; decide)
      simpa [calls, callsCd, Begins, Cmd.line, List.cons_prefix_cons] using hrest
  | cat f =>
      obtain ⟨hne, hlen, -⟩ := h.1
      have hpos := List.length_pos_iff.2 hne
      have hshort : ¬f.length + 4 > 12 := by omega
      simp [calls, callsCd, callsCat, Begins, Cmd.line, List.cons_prefix_cons, hpos, hshort]
  | mkdir f =>
      obtain ⟨hne, hlen, -⟩ := h.1
      have hpos := List.length_pos_iff.2 hne
      have hshort : ¬f.length + 6 > 14 := by omega
      simp [calls, callsCd, callsCat, callsFind, callsMkdir, Begins, Cmd.line,
        List.cons_prefix_cons, hpos, hshort]
  | rm f =>
      obtain ⟨hne, hlen, -⟩ := h.1
      have hpos := List.length_pos_iff.2 hne
      have hshort : ¬f.length + 3 > 11 := by omega
      simp [calls, callsCd, Begins, Cmd.line, List.cons_prefix_cons, hpos, hshort]
  | cp src dst =>
      obtain ⟨a, l, rfl⟩ := List.exists_cons_of_ne_nil h.1.ne_nil
      have hrest : callsCat (Cmd.cp (a :: l) dst).line = [] :=
        callsCat_eq_nil (by show ([0x63, 0x70] : List UInt8) ∉ _; decide)
      simpa [calls, callsCd, Begins, Cmd.line, List.cons_prefix_cons] using hrest

/-- **A command of the desk.** -/
theorem Shows.cd (h : Shows t desk) (hc : (Cmd.cd p).Typed locals t) :
    ∃ o t' desk', perform fuel placement locals (Cmd.cd p).line .cd t = some (o, t') ∧
      (Cmd.cd p).Does desk o desk' ∧ Shows t' desk' := by
  obtain ⟨text, m', hcd, hloc, hcase⟩ := cd_does h.located h.legible h.spells hc.1 hc.2
  refine ⟨.text text, { t with session := m' }, { desk with cwd := m'.names }, ?_, ?_,
    h.legible, hloc, h.spells, rfl⟩
  · rw [perform, show Shell.cd (Cmd.cd p).line t.volume t.session = (text, m') from hcd]
  · rw [h.names] at hcase
    obtain ⟨henter, rfl⟩ | ⟨henter, hnames, rfl⟩ := hcase
    · exact .cd henter
    · rw [hnames]
      exact .stay henter

/-- `cd ..` does to the desk what it should. -/
theorem Shows.up (h : Shows t desk) :
    ∃ o t' desk', perform fuel placement locals Cmd.up.line .cd t = some (o, t') ∧
      Cmd.up.Does desk o desk' ∧ Shows t' desk' :=
  ⟨.text "", { t with session := t.session.up }, { desk with cwd := desk.cwd.dropLast }, rfl,
    .up desk, h.legible, h.located.up, h.spells, by rw [Session.names_up, h.names]⟩

/-- `mkdir` does to the desk what it should. -/
theorem Shows.mkdir (h : Shows t desk) (hc : (Cmd.mkdir f).Typed locals t)
    (hfuel : 512 ≤ fuel) :
    ∃ o t' desk', perform fuel placement locals (Cmd.mkdir f).line (.mkdir (nameOf f)) t =
        some (o, t') ∧ (Cmd.mkdir f).Does desk o desk' ∧ Shows t' desk' := by
  obtain ⟨hf, ha⟩ := hc
  obtain ⟨s', hrun, hl, hloc, hs⟩ := mkdir_spec h.located h.legible h.spells
    (nameOf_padded hf.no_zero) ha hfuel
  rw [h.names] at hs
  refine ⟨.text "", { t with volume := s' },
    { desk with files := Function.update desk.files (desk.cwd ++ [nameOf f]) (some .dir) }, ?_,
    .mkdir ?_, hl, hloc, hs, h.names⟩
  · rw [perform, hrun]
    rfl
  · rw [← h.names, h.located.files_eq_none_iff h.legible.toTidy h.spells]
    obtain ⟨-, -, hfresh, -, -⟩ := ha
    exact fun k hb => hfresh k hb.name

/-- In the root `rm` removes what it is told to. -/
theorem Shows.rm (h : Shows t desk) (hc : (Cmd.rm f).Typed locals t) (hfuel : 512 ≤ fuel) :
    ∃ o t' desk', perform fuel placement locals (Cmd.rm f).line (.rm (nameOf f)) t =
        some (o, t') ∧ (Cmd.rm f).Does desk o desk' ∧ Shows t' desk' := by
  obtain ⟨hf, hroot, hdepth, hfolder⟩ := hc
  obtain ⟨hl, hloc, hs, hnames⟩ := h
  have ht := hl.toTidy
  have hcur : t.session.currentDirClusterNumber = 2 := by
    rw [hloc.current, hdepth, hloc.root.2]
  have hpar : t.session.currentDirParentClusterNumber = 2 := by
    rw [hloc.parent, hdepth, hloc.root.2]
  have hnil : t.session.names = [] :=
    List.length_eq_zero_iff.1 (t.session.length_names.trans hdepth)
  have hread : readTable t.volume t.session.currentDirParentClusterNumber
      (t.session.dirPath t.session.depth) = some (t.volume.table 2) := by
    have hcurrent := hloc.readTable_current hl
    rwa [hcur] at hcurrent
  cases hx : desk.files (desk.cwd ++ [nameOf f]) with
  | none =>
      have hno := (hloc.files_eq_none_iff ht hs).1 (hnames ▸ hx)
      rw [hcur] at hno
      have hfind := findSlot_eq_none hl.clean .root hf.nameOf_ne_zero
        (by rw [ht.sound.atRoot.1]; exact hroot) fun k he hn => hno k ⟨he, hn⟩
      refine ⟨.text "file tidak tersedia\n", t, desk, ?_, .rmNone hx, hl, hloc, hs, hnames⟩
      have hrun : Shell.rm fuel (nameOf f) t.volume t.session =
          some ("file tidak tersedia\n", t.volume) := by
        rw [Shell.rm, rmRequest, hread]
        simp only [hfind]
      rw [perform, hrun]
      rfl
  | some x =>
      obtain ⟨k, hb, -⟩ := (hloc.files_iff ht hs).1 (hnames ▸ hx)
      rw [hcur] at hb
      let r := deleteRequest (nameOf f) t.session
      have hp : r.parent = 2 := congrArg UInt32.toNat hpar
      have ha : Admits t.volume (.delete (fun _ => none) r) :=
        ⟨hp ▸ .root, (by decide : txt ≠ 0), k, hb.entry.slot, hp ▸ hb.entry.used,
          hp ▸ hb.name, fun h0 => hp ▸ hfolder k hb (hp ▸ h0)⟩
      obtain ⟨o, i, F, s', hexec, hcode, hdr, -, hname, hempty⟩ :=
        delete_admitted ht ha hfuel
      have hlist : Lists t.volume t.session (nameOf f) := by
        have hfind := findSlot_eq ht.distinct ht.clean .root hf.nameOf_ne_zero hb.entry.used
          hb.name
        obtain ⟨l, hchain, -, hrange⟩ := ht.sound.chain _ _ hb.entry
        have hcl := (hrange _ hchain.head_mem).1
        exact ⟨_, k, hread, hfind, Nat.ne_of_gt ((by decide : 0 < 3).trans_le hcl)⟩
      have hspells := Dropped.spells hdr ht (p := []) (hp ▸ .root) hname hempty hs
      refine ⟨.text "", { t with volume := s' },
        { desk with files := Function.update desk.files (desk.cwd ++ [nameOf f]) none }, ?_,
        .rm (by rw [hx]; exact Option.some_ne_none x), hl.dropped hdr, ?_, ?_, hnames⟩
      · have hrun : Shell.rm fuel (nameOf f) t.volume t.session = some ("", s') := by
          obtain ⟨⟨code, s₁⟩, hdel, heq⟩ := Option.map_eq_some_iff.1 hexec
          obtain ⟨rfl, rfl⟩ := Prod.mk.inj heq
          rw [rm_of_lists hlist, hdel, Option.map_some]
          exact congrArg (fun text => some (text, s₁)) (if_pos hcode)
        rw [perform, hrun]
        rfl
      · refine ⟨hloc.depth, hloc.root, fun i hi => ?_, hloc.current, hloc.parent⟩
        exact absurd (hdepth ▸ hi : i < 0) (Nat.not_lt_zero i)
      · rw [← hnames, hnil]
        exact hspells

/-- In the root `cp` writes what it has read of the source under the new name. -/
theorem cp_made {src dst B : List UInt8} {k : Fin 64} (h : Located s m) (hl : Legible s)
    (hdepth : m.depth = 0) (hsrc : Word src) (hdst : Word dst)
    (hstack : locals.cp.source = 0 ∧ locals.cp.dest = 0)
    (hb : Bears s m.currentDirClusterNumber.toNat (nameOf src) k)
    (hB : Holds s m.currentDirClusterNumber.toNat k (.file B))
    (hfree : clusterNeed (s.table m.currentDirClusterNumber.toNat k).filesize.toNat ≤
      (freeList s.mem).length)
    (hj : (freeSlot (s.table m.currentDirClusterNumber.toNat)).isSome) (hfuel : 512 ≤ fuel) :
    ∃ r f F s', cpOf fuel locals.write locals.cp src dst s m =
        some ("Copying " ++ shownAs src ++ " to " ++ shownAs dst ++ "\n", s') ∧
      Made r (newEntry locals.write r f) F s s' ∧
      r.parentClusterNumber = m.currentDirClusterNumber ∧ r.name = nameOf dst ∧
      r.node = .file B := by
  have hwf := hl.sound.toWellFormed
  have hsame : m.currentDirParentClusterNumber = m.currentDirClusterNumber := by
    rw [h.parent, h.current, hdepth]
  obtain ⟨hn, hfind, -⟩ := catEntry_of_bears h hl hb
  obtain ⟨h0, hlen, l, hchain, -⟩ := id hB
  have hneed := clusterNeed_le hwf hb.entry h0
  have hlength := hwf.chain_length hb.entry hchain
  rw [DirectoryEntry.clusters, if_neg h0] at hlength
  have hle := le_clusterNeed (s.table m.currentDirClusterNumber.toNat k).filesize.toNat
  obtain ⟨rounded, hround, hrounded⟩ := roundUp_of_le hneed hfuel
  have hsource : cpSource (nameOf src) s m =
      .ok (s.table m.currentDirClusterNumber.toNat k) :=
    cpSource_ok_iff.2 ⟨_, k, h.readTable_current hl, hfind, by
      have := (hwf.chain_range hb.entry hchain _ hchain.head_mem).1
      exact Nat.ne_of_gt (by omega), rfl⟩
  -- the read serves the file and stays within the buffer
  let q := requestRead locals.cp (nameOf src) rounded m
  have hq : q.parent = m.currentDirClusterNumber.toNat := congrArg UInt32.toNat hsame
  have hread := clustersRead_le (r := q) fuel (hq ▸ hfind) (hq ▸ hchain) fun c hc =>
    (hwf.chain_range hb.entry hchain c hc).2
  have hfit : ¬rounded.toNat < 2048 * clustersRead fuel q s := by omega
  obtain ⟨buf, hrun, hbytes⟩ := Holds.read (r := q) hwf (hq ▸ hb.entry) (hq ▸ hB) hn
    (hq ▸ hfind) (by change _ ≤ rounded.toNat; omega) hfuel
  -- the write of what was read
  let r := requestWrite buf (nameOf dst) (s.table m.currentDirClusterNumber.toNat k) m
  have hfits : Fits r s := by
    rw [Fits, Request.clusters, if_neg (show r.bufferSize ≠ 0 from h0)]
    exact hfree
  obtain ⟨o, f, F, s', hw, hcode, hm, -⟩ := write_made_first (k := locals.write) (r := r)
    (hwf.live_range h.live_current) (hwf.live_ne_empty h.live_current) hfits (fun _ => hj)
    (by omega : 2 ≤ fuel)
  have hnode : r.node = .file B := by
    rw [Request.node, if_neg (show r.bufferSize ≠ 0 from h0)]
    refine congrArg Node.file (List.ext_getElem (r.length_bytes.trans hlen) fun i hi hi' => ?_)
    rw [← hbytes i hi']
    simp [Request.bytes, r, requestWrite]
  refine ⟨r, f, _, s', ?_, hm, rfl, rfl, hnode⟩
  have hfill : ∀ l : List UInt8, fillArray 0 l = nameOf l := fun l => rfl
  have hnames : cpNames fuel locals.write locals.cp (nameOf src) (nameOf dst) s m =
      some ("", s') := by
    rw [cpNames, hsource]
    simp only
    rw [hround, Option.bind_some]
    refine (if_neg hfit).trans ?_
    rw [show Fat32.read fuel (requestRead locals.cp (nameOf src) rounded m) s =
      some (⟨0, buf⟩, s) from hrun, Option.bind_some]
    refine (if_neg (not_not.2 rfl)).trans ?_
    rw [show write fuel locals.write _ s = some (o, s') from hw, Option.map_some]
    exact congrArg (fun text => some (text, s')) (if_pos hcode)
  rw [cpOf_eq hsrc hdst, hstack.1, hstack.2, hfill, hfill, hnames]
  simp

/-- `cp` does to the desk what it should. -/
theorem Shows.cp {src dst : List UInt8} (h : Shows t desk)
    (hc : (Cmd.cp src dst).Typed locals t) (hfuel : 512 ≤ fuel) :
    ∃ o t' desk', perform fuel placement locals (Cmd.cp src dst).line .cp t = some (o, t') ∧
      (Cmd.cp src dst).Does desk o desk' ∧ Shows t' desk' := by
  obtain ⟨hsrc, hdst, hdepth, hstack, ⟨k, hb, h0, hfree⟩, hfresh, hj⟩ := hc
  obtain ⟨hl, hloc, hs, hnames⟩ := h
  have hwf := hl.sound.toWellFormed
  have hcur : t.session.currentDirClusterNumber = 2 := by
    rw [hloc.current, hdepth, hloc.root.2]
  have hcl : t.session.currentDirClusterNumber.toNat = 2 := congrArg UInt32.toNat hcur
  rw [← hcl] at hb h0 hfree hfresh hj
  obtain ⟨B, hB⟩ := hb.entry.exists_holds hwf h0
  obtain ⟨r, f, F, s', hrun, hm, hpar, hname, hnode⟩ :=
    cp_made hloc hl hdepth hsrc hdst hstack hb hB hfree hj hfuel
  have hp : r.parent = t.session.currentDirClusterNumber.toNat := congrArg UInt32.toNat hpar
  obtain ⟨j, hj⟩ := Option.isSome_iff_exists.1 hj
  have hno : NoEntry t.volume r.parent r.name := by
    rw [hp, hname]
    exact hfresh.noEntry
  have hspells := Made.spells hm hl.toTidy (hp ▸ hloc.pathTo) (hp ▸ hj) hno hs
  rw [hname, hnode, hnames] at hspells
  refine ⟨_, { t with volume := s' },
    { desk with files := Function.update desk.files (desk.cwd ++ [nameOf dst]) (some (.file B)) },
    ?_, .cp (B := B) ?_ ?_, hl.made hm (hp ▸ hloc.live_current) ?_ ?_ hno, hloc.made hwf hm,
    hspells, hnames⟩
  · rw [perform, show Shell.cp fuel locals.write locals.cp (Cmd.cp src dst).line t.volume
      t.session = _ from hrun]
    rfl
  · rw [← hnames]
    exact (hloc.files_iff hl.toTidy hs).2 ⟨k, hb, hB⟩
  · rw [← hnames, hloc.files_eq_none_iff hl.toTidy hs]
    exact fun i hi => hfresh i hi.name
  · rw [hname]
    exact hdst.nameOf_ne_zero
  · rw [hname]
    exact nameOf_padded hdst.no_zero

/-- `ls` does to the desk what it should. -/
theorem Shows.ls (h : Shows t desk) :
    ∃ o t' desk', perform fuel placement locals Cmd.ls.line .ls t = some (o, t') ∧
      Cmd.ls.Does desk o desk' ∧ Shows t' desk' := by
  have hlisted := ls_listed h.located h.legible h.spells
  rw [h.names] at hlisted
  exact ⟨_, t, desk, rfl, .ls hlisted, h⟩

/-- `cat` does to the desk what it should. -/
theorem Shows.cat (h : Shows t desk) (hc : (Cmd.cat f).Typed locals t) (hfuel : 512 ≤ fuel) :
    ∃ o t' desk', perform fuel placement locals (Cmd.cat f).line (.cat (nameOf f)) t =
        some (o, t') ∧ (Cmd.cat f).Does desk o desk' ∧ Shows t' desk' := by
  have hrun := cat_spec h.located h.legible h.spells hc.1.nameOf_ne_zero hc.2 hfuel
    locals.readBuffer
  rw [h.names] at hrun
  refine ⟨_, t, desk, ?_, .cat desk f, h⟩
  rw [perform, hrun]
  rfl

/-- **One line** is answered as the desk answers it. -/
theorem Shows.enter (h : Shows t desk) (hc : c.Typed locals t) (hfuel : 512 ≤ fuel) :
    ∃ shown t' desk', t.enter fuel placement locals c.line = some (shown, t') ∧
      c.Answers desk shown desk' ∧ Shows t' desk' := by
  have hcalls := c.calls_line hc
  have hfinish : ∀ {call}, calls c.line = [call] →
      (∃ o t' desk', perform fuel placement locals c.line call t = some (o, t') ∧
        c.Does desk o desk' ∧ Shows t' desk') →
      ∃ shown t' desk', t.enter fuel placement locals c.line = some (shown, t') ∧
        c.Answers desk shown desk' ∧ Shows t' desk' := by
    rintro call hcall ⟨o, t', desk', hrun, hdoes, hshows⟩
    have hnames := hshows.names
    exact ⟨_, t', desk', enter_of_call hcall hrun, ⟨o, hdoes, by rw [hnames]⟩, hshows⟩
  refine hfinish hcalls ?_
  cases c with
  | up => exact h.up
  | cd p => exact h.cd hc
  | ls => exact h.ls
  | cat f => exact h.cat hc hfuel
  | mkdir f => exact h.mkdir hc hfuel
  | rm f => exact h.rm hc hfuel
  | cp src dst => exact h.cp hc hfuel
  | clear => exact ⟨.clear, t, desk, rfl, .clear desk, h⟩

/-- The terminal behind the format of its disk. -/
def Terminal.start (s₀ : State) (machine : Machine) : Terminal :=
  ⟨createFat32 s₀, Session.start, machine⟩

/-- A freshly formatted volume shows the empty desk. -/
theorem start_shows (s₀ : State) (machine : Machine) :
    Shows (Terminal.start s₀ machine) Desk.start where
  legible := createFat32_legible s₀
  located := start_located _
  spells := createFat32_spells s₀
  names := rfl

/-- A file that another program writes to the root lies on the desk. -/
theorem Shows.written {r : Request} {k : Stack} {c : ℕ} {F : List ℕ} (h : Shows t desk)
    (hm : Made r (newEntry k r c) F t.volume s') (hp : r.parent = 2) (hn : r.name ≠ 0)
    (hpad : Padded r.name) (hfresh : NoEntry t.volume r.parent r.name)
    (hj : (freeSlot (t.volume.table r.parent)).isSome) :
    Shows { t with volume := s' }
      { desk with files := Function.update desk.files [r.name] (some r.node) } := by
  obtain ⟨j, hj⟩ := Option.isSome_iff_exists.1 hj
  obtain ⟨hl, hloc, hs, hnames⟩ := h
  exact ⟨hl.made hm (hp ▸ .root) hn hpad hfresh, hloc.made hl.sound.toWellFormed hm,
    Made.spells (p := []) hm hl.toTidy (hp ▸ .root) hj hfresh hs, hnames⟩

/-- **The shell implements the desk.**  From a terminal that shows a desk, every run of typed
lines comes to its end and shows what a run of the desk shows, and then the terminal shows
the desk that is left. -/
theorem terminal_refines (h : Shows t desk) (hfuel : 512 ≤ fuel) {lines : List (Locals × Cmd)}
    (hg : Runs.Guarded (fun i t => t.enter fuel placement i.1 i.2.line)
      (fun t i => i.2.Typed i.1 t) lines t) :
    ∃ shown t' desk',
      Runs.run (fun i t => t.enter fuel placement i.1 i.2.line) lines t = some (shown, t') ∧
      Runs.Trace (fun i : Locals × Cmd => i.2.Answers) lines desk shown desk' ∧
      Shows t' desk' := by
  have hstep : ∀ (t : Terminal) (desk : Desk) (i : Locals × Cmd), Shows t desk →
      i.2.Typed i.1 t →
      ∃ shown t' desk', t.enter fuel placement i.1 i.2.line = some (shown, t') ∧
        i.2.Answers desk shown desk' ∧ Shows t' desk' := fun t desk i h hc => h.enter hc hfuel
  exact Runs.run_refines hstep h hg

/-- What is typed next may depend on the desk alone. -/
theorem Shows.guarded_cons {i : Locals × Cmd} {lines : List (Locals × Cmd)} (h : Shows t desk)
    (hc : i.2.Typed i.1 t) (hfuel : 512 ≤ fuel)
    (hrest : ∀ o t' desk', i.2.Does desk o desk' → Shows t' desk' →
      Runs.Guarded (fun i t => t.enter fuel placement i.1 i.2.line)
        (fun t i => i.2.Typed i.1 t) lines t') :
    Runs.Guarded (fun i t => t.enter fuel placement i.1 i.2.line)
      (fun t i => i.2.Typed i.1 t) (i :: lines) t := by
  refine ⟨hc, fun o t' ht => ?_⟩
  have henter : ∃ shown t' desk', t.enter fuel placement i.1 i.2.line = some (shown, t') ∧
      i.2.Answers desk shown desk' ∧ Shows t' desk' := h.enter hc hfuel
  obtain ⟨shown, t₁, desk', hrun, ⟨o', hdoes, -⟩, hshows⟩ := henter
  obtain ⟨-, rfl⟩ := Prod.mk.inj (Option.some.inj (ht.symm.trans hrun))
  exact hrest o' t' desk' hdoes hshows

/-- The stack is zero, and no process has been created. -/
def blankLocals : Locals :=
  ⟨blankStack, blankCopyStack, blankMoveStack, fun _ => ⟨fun _ => DirectoryEntry.zero, 0⟩, 0,
    fun _ => 0⟩

/-- The kernel at the boot, and no clock. -/
def blankMachine : Machine :=
  ⟨0, ⟨Paging.initial afterCode, fun _ => false, 0, fun _ => .zero⟩⟩

/-- A file `a.x` of three bytes is written to a blank volume. -/
def oneFile : State :=
  ((write 512 blankStack (request 2 0x61 0x78 3) (createFat32 blank)).map Prod.snd).getD blank

/-- The shell in the root of this volume. -/
def oneFileTerminal : Terminal := ⟨oneFile, Session.start, blankMachine⟩

/-- The desk that it shows. -/
def oneFileDesk : Desk :=
  ⟨Function.update (fun _ => none) [nameOf [0x61]] (some (.file [0, 1, 2])), []⟩

/-- The file's name is the command's. -/
theorem oneFile_name : (request 2 0x61 0x78 3).name = nameOf [0x61] := by decide

/-- What the request stores: one entry in the root folder, and nothing else. -/
theorem oneFile_spec : ∃ F, Made (request 2 0x61 0x78 3)
    (newEntry blankStack (request 2 0x61 0x78 3) 3) (3 :: F) (createFat32 blank) oneFile ∧
    LiveEntry oneFile 2 1 ∧
    oneFile.table 2 1 = newEntry blankStack (request 2 0x61 0x78 3) 3 := by
  obtain ⟨o, F, s, hw, -, hm, he, hslot⟩ := createFat32_write (r := request 2 0x61 0x78 3)
    blankStack blank_zeroed rfl (by decide) (by decide : 2 ≤ 512)
  obtain rfl : oneFile = s := by rw [oneFile, hw, Option.map_some, Option.getD_some]
  exact ⟨F, hm, he, hslot⟩

/-- The other slots of the root folder are zero. -/
theorem oneFile_slot {k : Fin 64} (h0 : k ≠ 0) (h1 : k ≠ 1) :
    oneFile.table 2 k = DirectoryEntry.zero := by
  obtain ⟨F, hm, -, -⟩ := oneFile_spec
  exact (hm.slot_of_ne (createFat32_sound blank).toWellFormed .root (createFat32_freeSlot blank)
    fun _ => h1).trans (createFat32_slot h0)

/-- The terminal shows the desk with the file. -/
theorem oneFile_shows : Shows oneFileTerminal oneFileDesk := by
  obtain ⟨F, hm, -, -⟩ := oneFile_spec
  have hfree : (freeSlot ((createFat32 blank).table 2)).isSome := by
    rw [createFat32_freeSlot]
    rfl
  have hfresh : NoEntry (createFat32 blank) 2 (request 2 0x61 0x78 3).name := by
    rw [oneFile_name]
    exact createFat32_noEntry (by decide)
  have hwritten := (start_shows blank blankMachine).written hm rfl (by decide)
    (request_padded _ _ _ _) hfresh hfree
  rwa [oneFile_name] at hwritten

/-- `cp a b`, `rm a` and `cat b`. -/
def moveByHand : List (Locals × Cmd) :=
  [(blankLocals, .cp [0x61] [0x62]), (blankLocals, .rm [0x61]), (blankLocals, .cat [0x62])]

/-- `cp a b` may be typed there: there is a file `a`, no `b`, and room. -/
theorem oneFile_cp_typed : (Cmd.cp [0x61] [0x62]).Typed blankLocals oneFileTerminal := by
  obtain ⟨F, hm, he, hslot⟩ := oneFile_spec
  have hself : (oneFile.table 2 0).name = rootName :=
    (hm.sound (createFat32_sound blank) .root).atRoot.1
  have hname : (oneFile.table 2 1).name = nameOf [0x61] := by
    rw [hslot, newEntry_name, oneFile_name]
  have hsize : (oneFile.table 2 1).filesize = 3 := by
    rw [hslot, newEntry_filesize]
    rfl
  refine ⟨⟨by decide, by decide, by decide, by decide⟩,
    ⟨by decide, by decide, by decide, by decide⟩, rfl, ⟨rfl, rfl⟩,
    ⟨1, ⟨he, hname⟩, ?_, ?_⟩, fun k => ?_, ?_⟩
  · change (oneFile.table 2 1).filesize ≠ 0
    rw [hsize]
    decide
  · have hroom := hm.room
    rw [createFat32_freeList blank_zeroed, List.length_range'] at hroom
    change clusterNeed (oneFile.table 2 1).filesize.toNat ≤ (freeList oneFile.mem).length
    rw [hsize]
    have hone : (request 2 0x61 0x78 3).clusters = 1 := by decide
    have hneed : clusterNeed (3 : UInt32).toNat = 1 := by decide
    omega
  · change (oneFile.table 2 k).name ≠ nameOf [0x62]
    by_cases h0 : k = 0
    · rw [h0, hself]
      decide
    by_cases h1 : k = 1
    · rw [h1, hname]
      decide
    · rw [oneFile_slot h0 h1]
      decide
  · by_contra hnone
    have hu := freeSlot_eq_none_iff.1 (Option.not_isSome_iff_eq_none.1 hnone) 2
    change (oneFile.table 2 2).Used at hu
    rw [oneFile_slot (by decide) (by decide)] at hu
    exact zero_not_used hu

/-- `cp` leaves what is under other paths. -/
theorem Cmd.Does.cp_keeps {src dst : List UInt8} {desk' : Desk}
    (h : (Cmd.cp src dst).Does desk o desk') (hq : q ≠ desk.cwd ++ [nameOf dst]) :
    desk'.files q = desk.files q ∧ desk'.cwd = desk.cwd := by
  cases h
  exact ⟨Function.update_of_ne hq _ _, rfl⟩

/-- A file is copied, removed, and its copy shown. -/
theorem terminal_refines_sample : ∃ shown t' desk',
    Runs.run (fun i t => t.enter 512 afterCode i.1 i.2.line) moveByHand oneFileTerminal =
      some (shown, t') ∧
    Runs.Trace (fun i : Locals × Cmd => i.2.Answers) moveByHand oneFileDesk shown desk' ∧
    Shows t' desk' := by
  have hg : Runs.Guarded (fun (i : Locals × Cmd) t => t.enter 512 afterCode i.1 i.2.line)
      (fun t i => i.2.Typed i.1 t) moveByHand oneFileTerminal := by
    refine oneFile_shows.guarded_cons oneFile_cp_typed le_rfl fun o t₁ desk₁ hcp h₁ => ?_
    obtain ⟨hkept, hcwd⟩ := hcp.cp_keeps (q := [nameOf [0x61]]) (by decide)
    have hfile : desk₁.files [nameOf [0x61]] = some (.file [0, 1, 2]) :=
      hkept.trans (by simp [oneFileDesk])
    have hdepth : t₁.session.depth = 0 := by
      rw [← t₁.session.length_names, h₁.names, hcwd]
      rfl
    -- what has the name is a file
    have hrm : (Cmd.rm [0x61]).Typed blankLocals t₁ := by
      refine ⟨⟨by decide, by decide, by decide⟩, by decide, hdepth, fun k hb h0 => ?_⟩
      have hcur : t₁.session.currentDirClusterNumber.toNat = 2 := by
        rw [h₁.located.current, hdepth, h₁.located.root.2]
        rfl
      have hdir := (h₁.located.files_iff (x := .dir) h₁.legible.toTidy h₁.spells).2
        ⟨k, hcur ▸ hb, hcur ▸ h0⟩
      rw [h₁.names, hcwd] at hdir
      have hroot : oneFileDesk.cwd ++ [nameOf [0x61]] = [nameOf [0x61]] := rfl
      rw [hroot] at hdir
      cases hfile.symm.trans hdir
    refine h₁.guarded_cons hrm le_rfl fun o t₂ desk₂ hdoes h₂ => ?_
    have hcwd₂ : desk₂.cwd = desk₁.cwd := by
      cases hdoes <;> rfl
    refine ⟨⟨⟨by decide, by decide, by decide⟩, ?_⟩, fun _ _ _ => trivial⟩
    rw [h₂.names, hcwd₂, hcwd]
    decide
  exact terminal_refines oneFile_shows le_rfl hg

end Shell
end Jatos
