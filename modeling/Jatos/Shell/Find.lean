/-
# The queue of `find`

`find` of `src/user-shell.c` searches the directories breadth first.  Its queue is an array
of 512 nodes; the tail goes back to 0 behind element 510, the head never goes back.  A node
carries the clusters and the names from the root down to its directory, ten at most.

A directory is looked up as elsewhere, by its name in the directory above; where that
fails, `find` goes on with what `dir_table` held before.  There is no answer where an
element is stored behind its array, or read that was not written.

`find` runs the search of `Search` over its nodes: it answers as that does while the search
meets at most 511 nodes (`findLoop_of_search`), and where `find` misses the name so does
the search (`search_of_missing`).
-/

import Jatos.Foundation.Search
import Jatos.Shell.Directory

namespace Jatos
namespace Shell

open Fat32 Packed Search

/-- `NodeDir`; `cluster_path` and `nama_path` have `nEff` elements. -/
structure NodeDir where
  nama : Bytes 8
  clusterPath : List UInt32
  namaPath : List (Bytes 8)

namespace NodeDir

/-- `n_eff`: how deep a folder lies. -/
def nEff (x : NodeDir) : ℕ := x.clusterPath.length

/-- `queue[0]`. -/
def root : NodeDir := ⟨rootName, [2], [rootName]⟩

/-- `request.parent_cluster_number`. -/
def parent (x : NodeDir) : UInt32 :=
  if x.nEff = 1 then x.clusterPath.getD 0 0 else x.clusterPath.getD (x.nEff - 2) 0

/-- The node of an entry in the directory. -/
def child (x : NodeDir) (entry : DirectoryEntry) : NodeDir :=
  ⟨entry.name, x.clusterPath ++ [UInt32.ofNat entry.cluster], x.namaPath ++ [entry.name]⟩

end NodeDir

/-- `queue`, `qHead`, `qTail` and `qNeff`. -/
structure FindQueue where
  queue : ℕ → Option NodeDir
  qHead : ℕ
  qTail : ℕ
  qNeff : ℕ

/-- A node is put at the tail, if its arrays have room. -/
def FindQueue.push (q : FindQueue) (node : NodeDir) : Option FindQueue :=
  if 10 < node.nEff then none
  else
    let qTail := if q.qTail + 1 + 1 = 512 then 0 else q.qTail + 1
    some { q with
      queue := Function.update q.queue qTail (some node)
      qTail := qTail
      qNeff := q.qNeff + 1 }

/-- The loop over slots of `dir_table`: the node and the entry where it returns, or else
the queue behind it. -/
def scan (namaTujuan : Bytes 8) (dirTable : DirectoryTable) :
    List (Fin 64) → FindQueue → Option (Except (NodeDir × DirectoryEntry) FindQueue)
  | [], q => some (.ok q)
  | i :: is, q =>
      (q.queue q.qHead).bind fun node =>
        if sameBytes (dirTable i).name namaTujuan then some (.error (node, dirTable i))
        else if (dirTable i).attr = ATR_DIRECTORY then
          (q.push (node.child (dirTable i))).bind (scan namaTujuan dirTable is)
        else scan namaTujuan dirTable is q

/-- The slots behind slot 0. -/
def slots : List (Fin 64) := (List.finRange 64).tail

/-- What the stack holds under `dir_table` and `retcode`. -/
structure FindStack where
  dirTable : DirectoryTable
  retcode : UInt32

/-- Whether a pass prints that its read failed.  The system call stores the lowest eight of
the 32 bits of `retcode`. -/
def FindStack.failed (stack : FindStack) (dirTable : Option DirectoryTable) : ℕ :=
  if dirTable.isSome ∧ stack.retcode.toNat < 256 then 0 else 1

/-- `while (qNeff != 0)`, with the number of reads that failed.  `stack` is what the stack
holds before the read of a pass. -/
def findLoop (stack : ℕ → FindStack) (namaTujuan : Bytes 8) (s : State) :
    ℕ → FindQueue → Option (ℕ × Option (NodeDir × DirectoryEntry))
  | 0, _ => none
  | fuel + 1, q =>
      if q.qNeff = 0 then some (0, none)
      else
        (q.queue q.qHead).bind fun node =>
          let read := readTable s node.parent node.nama
          let failed := (stack q.qHead).failed read
          (scan namaTujuan (read.getD (stack q.qHead).dirTable) slots q).bind fun
            | .error found => some (failed, some found)
            | .ok q =>
                (findLoop stack namaTujuan s fuel
                  { q with qHead := q.qHead + 1, qNeff := q.qNeff - 1 }).map
                  fun (n, found) => (failed + n, found)

/-- What `find` comes to. -/
inductive Answer
  | tooLong
  | root
  | found (namaPath : List (Bytes 8)) (name : Bytes 8)
  | missing

/-- The queue before the loop. -/
def FindQueue.start : FindQueue where
  queue := Function.update (fun _ => none) 0 (some NodeDir.root)
  qHead := 0
  qTail := 0
  qNeff := 1

/-- The answer of `find`, with the number of reads that failed. -/
def findAnswer (fuel : ℕ) (stack : ℕ → FindStack) (command : List UInt8) (s : State) :
    Option (ℕ × Answer) :=
  if command.length > 13 then some (0, .tooLong)
  else
    let namaTujuan := nameOf (command.drop 5)
    if sameBytes rootName namaTujuan then some (0, .root)
    else
      (findLoop stack namaTujuan s fuel .start).map fun (n, found) =>
        (n, match found with
          | some (node, entry) => .found node.namaPath entry.name
          | none => .missing)

/-- The text of an answer. -/
def Answer.text (namaTujuan : List UInt8) : Answer → String
  | tooLong => "nama file terlalu panjang\n"
  | root => "root\n"
  | found namaPath name =>
      shownAs namaTujuan ++ " ditemukan pada\n" ++
        String.join (namaPath.map fun n => shownAs (spelled n) ++ "/") ++
        shownAs (List.ofFn name) ++ "\n"
  | missing => "file/folder tidak ditemukan\n"

/-- `find`: what it prints. -/
def find (fuel : ℕ) (stack : ℕ → FindStack) (command : List UInt8) (s : State) :
    Option String :=
  (findAnswer fuel stack command s).map fun (failed, answer) =>
    String.join (List.replicate failed "gagal baca\n") ++ answer.text (command.drop 5)

/-! ### The search that it runs -/

/-- The nodes that are pushed from slots of a table. -/
def childrenAt (x : NodeDir) (t : DirectoryTable) (is : List (Fin 64)) : List NodeDir :=
  (is.filter fun i => (t i).attr = ATR_DIRECTORY).map fun i => x.child (t i)

/-- The table in which a node is searched. -/
def tableAt (stack : ℕ → FindStack) (s : State) (pass : ℕ) (x : NodeDir) : DirectoryTable :=
  (readTable s x.parent x.nama).getD (stack pass).dirTable

/-- What is found in slots of a table. -/
def hitAt (namaTujuan : Bytes 8) (x : NodeDir) (t : DirectoryTable) (is : List (Fin 64)) :
    Option (NodeDir × DirectoryEntry) :=
  (is.find? fun i => sameBytes (t i).name namaTujuan).map fun i => (x, t i)

/-- One pass of `find`, as a step of a search.  It fails where a node that it pushes has
no room. -/
def expand (stack : ℕ → FindStack) (namaTujuan : Bytes 8) (s : State) (pass : ℕ)
    (x : NodeDir) : Option (Option (NodeDir × DirectoryEntry) × List NodeDir) :=
  if 10 ≤ x.nEff ∧ childrenAt x (tableAt stack s pass x) slots ≠ [] then none
  else some (hitAt namaTujuan x (tableAt stack s pass x) slots,
    childrenAt x (tableAt stack s pass x) slots)

/-- The nodes that wait in the queue.  Element 511 is never written. -/
structure FindQueue.Waits (q : FindQueue) (nodes : List NodeDir) : Prop where
  qNeff : q.qNeff = nodes.length
  qTail : q.qTail + 1 = q.qHead + nodes.length
  room : q.qHead + nodes.length ≤ 511
  node : ∀ j (h : j < nodes.length), q.queue (q.qHead + j) = some nodes[j]
  last : q.queue 511 = none

variable {stack : ℕ → FindStack} {n : Bytes 8} {s : State} {q q' : FindQueue}
  {x y : NodeDir} {nodes rest : List NodeDir} {t : DirectoryTable} {is : List (Fin 64)}
  {fuel pass : ℕ} {found : Option (NodeDir × DirectoryEntry)}

/-- A folder's entry lies one deeper. -/
theorem NodeDir.nEff_child (x : NodeDir) (e : DirectoryEntry) : (x.child e).nEff = x.nEff + 1 := by
  simp [nEff, child]

/-- The first folder waiting is at the head. -/
theorem FindQueue.Waits.head (h : q.Waits (x :: rest)) : q.queue q.qHead = some x :=
  h.node 0 (by simp)

/-- At the start the root folder waits. -/
theorem FindQueue.start_waits : FindQueue.start.Waits [NodeDir.root] where
  qNeff := rfl
  qTail := rfl
  room := by decide
  node j hj := by
    obtain rfl : j = 0 := by simpa using hj
    rfl
  last := rfl

/-! ### One push -/

/-- A push leaves the head and element 511 alone. -/
theorem push_eq_some (h : q.push y = some q') : y.nEff ≤ 10 ∧ q'.qHead = q.qHead ∧
    q'.qNeff = q.qNeff + 1 ∧ (q.queue 511 = none → q'.queue 511 = none) := by
  rw [FindQueue.push] at h
  obtain ⟨hlen, h⟩ := Option.ite_none_left_eq_some.1 h
  obtain rfl := Option.some.inj h
  refine ⟨Nat.le_of_not_lt hlen, rfl, rfl, fun hlast => ?_⟩
  have hne : (511 : ℕ) ≠ if q.qTail + 1 + 1 = 512 then 0 else q.qTail + 1 := by
    split_ifs <;> omega
  exact (Function.update_of_ne hne _ _).trans hlast

/-- With room, the node waits behind the others. -/
theorem push_waits (h : q.Waits nodes) (hroom : q.qHead + nodes.length + 1 ≤ 511)
    (hlen : y.nEff ≤ 10) :
    ∃ q', q.push y = some q' ∧ q'.qHead = q.qHead ∧ q'.Waits (nodes ++ [y]) := by
  have htail := h.qTail
  have hnew : (if q.qTail + 1 + 1 = 512 then 0 else q.qTail + 1) = q.qHead + nodes.length := by
    rw [if_neg (by omega)]
    exact htail
  have hpush : q.push y = some { q with
      queue := Function.update q.queue (q.qHead + nodes.length) (some y)
      qTail := q.qHead + nodes.length
      qNeff := q.qNeff + 1 } := by
    rw [FindQueue.push, if_neg (Nat.not_lt.2 hlen)]
    simp only [hnew]
  refine ⟨_, hpush, rfl, ?_, ?_, ?_, fun j hj => ?_, ?_⟩
  · simp [h.qNeff]
  · simp only [List.length_append, List.length_singleton]
    omega
  · simp only [List.length_append, List.length_singleton]
    omega
  · simp only
    rw [List.length_append, List.length_singleton] at hj
    by_cases hold : j < nodes.length
    · rw [Function.update_of_ne (by omega), h.node j hold, List.getElem_append_left hold]
    · obtain rfl : j = nodes.length := by omega
      rw [Function.update_self, List.getElem_append_right le_rfl]
      simp
  · exact (Function.update_of_ne (by omega) _ _).trans h.last

/-! ### One pass -/

/-- Nothing is put after no slots. -/
theorem childrenAt_nil : childrenAt x t [] = [] := rfl

/-- A folder's slot is put before those that follow. -/
theorem childrenAt_cons {i : Fin 64} : childrenAt x t (i :: is) =
    if (t i).attr = ATR_DIRECTORY then x.child (t i) :: childrenAt x t is
    else childrenAt x t is := by
  rw [childrenAt, List.filter_cons]
  by_cases hattr : (t i).attr = ATR_DIRECTORY
  · rw [if_pos (decide_eq_true hattr), if_pos hattr]
    rfl
  · rw [if_neg (by simpa using hattr), if_neg hattr]
    rfl

/-- As many are put as the slots that hold folders. -/
theorem length_childrenAt : (childrenAt x t is).length =
    (is.filter fun i => (t i).attr = ATR_DIRECTORY).length :=
  List.length_map _

/-- One slot. -/
theorem scan_cons {i : Fin 64} (h : q.queue q.qHead = some x) : scan n t (i :: is) q =
    if (t i).name = n then some (.error (x, t i))
    else if (t i).attr = ATR_DIRECTORY then (q.push (x.child (t i))).bind (scan n t is)
    else scan n t is q := by
  rw [scan, h, Option.bind_some]
  simp only [sameBytes_iff]

/-- A pass that finds nothing has pushed a node for each folder, wherever it was stored. -/
theorem scan_ok (h : scan n t is q = some (.ok q')) : q'.qHead = q.qHead ∧
    q'.qNeff = q.qNeff + (is.filter fun i => (t i).attr = ATR_DIRECTORY).length ∧
      (q.queue 511 = none → q'.queue 511 = none) := by
  induction is generalizing q with
  | nil =>
      cases h
      exact ⟨rfl, rfl, id⟩
  | cons i is ih =>
      obtain ⟨x, hx, -⟩ := Option.bind_eq_some_iff.1 h
      rw [scan_cons hx] at h
      split_ifs at h with hname hattr
      · cases h
      · obtain ⟨q₁, hpush, h⟩ := Option.bind_eq_some_iff.1 h
        obtain ⟨-, hhead, hneff, hlast⟩ := push_eq_some hpush
        obtain ⟨hhead', hneff', hlast'⟩ := ih h
        refine ⟨hhead'.trans hhead, ?_, hlast' ∘ hlast⟩
        rw [hneff', hneff, List.filter_cons, if_pos (decide_eq_true hattr), List.length_cons]
        omega
      · rw [List.filter_cons, if_neg (by simpa using hattr)]
        exact ih h

/-- The first node that is pushed has room. -/
theorem scan_room (hx : q.queue q.qHead = some x) (h : scan n t is q = some (.ok q'))
    (hne : childrenAt x t is ≠ []) : x.nEff < 10 := by
  induction is with
  | nil => exact absurd childrenAt_nil hne
  | cons i is ih =>
      rw [scan_cons hx] at h
      rw [childrenAt_cons] at hne
      split_ifs at h with hname hattr
      · cases h
      · obtain ⟨q₁, hpush, -⟩ := Option.bind_eq_some_iff.1 h
        have hlen := (push_eq_some hpush).1
        rw [NodeDir.nEff_child] at hlen
        omega
      · rw [if_neg hattr] at hne
        exact ih h hne

/-- A pass with room for all that it may push: it finds what there is, or its children wait
behind the other nodes. -/
theorem scan_runs (is : List (Fin 64)) (hq : q.Waits (x :: nodes))
    (hroom : q.qHead + (x :: nodes).length + (childrenAt x t is).length ≤ 511)
    (hlen : childrenAt x t is ≠ [] → x.nEff < 10) :
    match hitAt n x t is with
    | some found => scan n t is q = some (.error found)
    | none => ∃ q', scan n t is q = some (.ok q') ∧ q'.qHead = q.qHead ∧
        q'.Waits (x :: (nodes ++ childrenAt x t is)) := by
  induction is generalizing q nodes with
  | nil => exact ⟨q, rfl, rfl, by rwa [childrenAt_nil, List.append_nil]⟩
  | cons i is ih =>
      rw [scan_cons hq.head]
      by_cases hname : (t i).name = n
      · have hhit : hitAt n x t (i :: is) = some (x, t i) := by
          rw [hitAt, List.find?_cons_of_pos (by simpa using hname)]
          rfl
        rw [hhit, if_pos hname]
      · have hhit : hitAt n x t (i :: is) = hitAt n x t is := by
          rw [hitAt, List.find?_cons_of_neg (by simpa using hname)]
          rfl
        rw [hhit, if_neg hname]
        rw [childrenAt_cons] at hroom hlen ⊢
        by_cases hattr : (t i).attr = ATR_DIRECTORY
        · rw [if_pos hattr] at hroom hlen ⊢
          have hlt := hlen (by simp)
          rw [List.length_cons, List.length_cons] at hroom
          obtain ⟨q₁, hpush, hhead, hwaits⟩ := push_waits (y := x.child (t i)) hq
            (by rw [List.length_cons]; omega) (by rw [NodeDir.nEff_child]; omega)
          rw [if_pos hattr, hpush, Option.bind_some]
          have hwaits' : q₁.Waits (x :: (nodes ++ [x.child (t i)])) := by
            rwa [List.cons_append] at hwaits
          have hih := ih hwaits'
            (by rw [hhead, List.length_cons, List.length_append, List.length_singleton]; omega)
            fun _ => hlt
          rw [List.append_assoc, List.singleton_append, hhead] at hih
          exact hih
        · rw [if_neg hattr] at hroom hlen ⊢
          rw [if_neg hattr]
          exact ih hq hroom hlen

/-! ### The run -/

/-- A queue that waits after a pass, without the node that was taken. -/
theorem FindQueue.Waits.next (h : q.Waits (x :: nodes)) :
    { q with qHead := q.qHead + 1, qNeff := q.qNeff - 1 : FindQueue }.Waits nodes := by
  have hneff := h.qNeff
  have htail := h.qTail
  have hroom := h.room
  rw [List.length_cons] at hneff htail hroom
  refine ⟨?_, ?_, ?_, fun j hj => ?_, h.last⟩
  · simp only
    omega
  · simp only
    omega
  · simp only
    omega
  · have hnode := h.node (j + 1) (by simpa using hj)
    simp only
    rw [show q.qHead + 1 + j = q.qHead + (j + 1) by omega, hnode, List.getElem_cons_succ]

/-- One round of the loop takes the head, and puts what it names. -/
theorem findLoop_succ (h : q.queue q.qHead = some x) (hne : q.qNeff ≠ 0) :
    findLoop stack n s (fuel + 1) q =
      (scan n (tableAt stack s q.qHead x) slots q).bind fun
        | .error found => some ((stack q.qHead).failed (readTable s x.parent x.nama), some found)
        | .ok q' =>
            (findLoop stack n s fuel
              { q' with qHead := q'.qHead + 1, qNeff := q'.qNeff - 1 }).map fun (m, found) =>
                ((stack q.qHead).failed (readTable s x.parent x.nama) + m, found) := by
  rw [findLoop, if_neg hne, h, Option.bind_some]
  rfl

/-- **A search that does not meet too many nodes** is answered by `find`. -/
theorem findLoop_of_search (hq : q.Waits nodes)
    (h : search 511 (expand stack n s) fuel q.qHead nodes = some found) :
    ∃ failed, findLoop stack n s fuel q = some (failed, found) := by
  induction fuel generalizing q nodes with
  | zero => cases h
  | succ fuel ih =>
      cases nodes with
      | nil =>
          obtain rfl := Option.some.inj h
          have hneff : q.qNeff = 0 := hq.qNeff
          exact ⟨0, by rw [findLoop, if_pos hneff]⟩
      | cons x nodes =>
          obtain ⟨hit, children, hexp, hle, hnext⟩ := search_cons_eq_some.1 h
          rw [expand] at hexp
          obtain ⟨hfit, heq⟩ := Option.ite_none_left_eq_some.1 hexp
          obtain ⟨rfl, rfl⟩ := Prod.mk.inj (Option.some.inj heq)
          have hne : q.qNeff ≠ 0 := by rw [hq.qNeff]; simp
          have hscan := scan_runs (n := n) slots hq
            (by rw [List.length_cons]; exact hle) fun hch => by
              by_contra hlt
              exact hfit ⟨Nat.le_of_not_lt hlt, hch⟩
          rw [findLoop_succ hq.head hne]
          obtain ⟨r, hr, rfl⟩ | ⟨hnone, hnext⟩ := hnext
          · rw [hr] at hscan
            rw [hscan]
            exact ⟨_, rfl⟩
          · rw [hnone] at hscan
            obtain ⟨q', hscan, hhead, hwaits⟩ := hscan
            rw [hscan, Option.bind_some]
            obtain ⟨failed, hrest⟩ := ih hwaits.next (hhead.symm ▸ hnext)
            simp only [hrest]
            exact ⟨_, rfl⟩

/-- Once there are too many nodes for the array, `find` does not end without a result:
the head comes to element 511. -/
theorem findLoop_overflow (hlast : q.queue 511 = none) (hhead : q.qHead ≤ 511)
    (hover : 511 < q.qHead + q.qNeff) (failed : ℕ) :
    findLoop stack n s fuel q ≠ some (failed, none) := by
  induction fuel generalizing q failed with
  | zero => nofun
  | succ fuel ih =>
      intro h
      have hne : q.qNeff ≠ 0 := by omega
      cases hx : q.queue q.qHead with
      | none =>
          rw [findLoop, if_neg hne, hx] at h
          cases h
      | some x =>
          have hlt : q.qHead ≠ 511 := by
            intro heq
            rw [heq, hlast] at hx
            cases hx
          rw [findLoop_succ hx hne] at h
          obtain ⟨out, hscan, h⟩ := Option.bind_eq_some_iff.1 h
          cases out with
          | error found => cases h
          | ok q' =>
              obtain ⟨hhead', hneff', hlast'⟩ := scan_ok hscan
              obtain ⟨⟨m, found⟩, hrest, heq⟩ := Option.map_eq_some_iff.1 h
              obtain rfl : found = none := congrArg Prod.snd heq
              exact ih (q := { q' with qHead := q'.qHead + 1, qNeff := q'.qNeff - 1 })
                (hlast' hlast) (by simp only; omega) (by simp only; omega) m hrest

/-- **Where `find` misses a name**, so does the search. -/
theorem search_of_missing {failed : ℕ} (hq : q.Waits nodes)
    (h : findLoop stack n s fuel q = some (failed, none)) :
    search 511 (expand stack n s) fuel q.qHead nodes = some none := by
  induction fuel generalizing q nodes failed with
  | zero => cases h
  | succ fuel ih =>
      cases nodes with
      | nil => rfl
      | cons x nodes =>
          have hne : q.qNeff ≠ 0 := by rw [hq.qNeff]; simp
          rw [findLoop_succ hq.head hne] at h
          obtain ⟨out, hscan, h⟩ := Option.bind_eq_some_iff.1 h
          cases out with
          | error found => cases h
          | ok q' =>
              obtain ⟨⟨m, found⟩, hrest, heq⟩ := Option.map_eq_some_iff.1 h
              obtain rfl : found = none := congrArg Prod.snd heq
              have hfit := scan_room hq.head hscan
              obtain ⟨hhead, hneff, hlast⟩ := scan_ok hscan
              rw [← length_childrenAt (x := x)] at hneff
              have hq₁ := hq.qNeff
              have hq₂ := hq.room
              rw [List.length_cons] at hq₁ hq₂
              by_cases hroom : q.qHead + (x :: nodes).length +
                  (childrenAt x (tableAt stack s q.qHead x) slots).length ≤ 511
              · have hruns := scan_runs (n := n) _ hq hroom hfit
                cases hhit : hitAt n x (tableAt stack s q.qHead x) slots with
                | some found =>
                    rw [hhit] at hruns
                    rw [hruns] at hscan
                    cases hscan
                | none =>
                    rw [hhit] at hruns
                    obtain ⟨q'', hscan', -, hwaits⟩ := hruns
                    obtain rfl : q' = q'' := by
                      rw [hscan'] at hscan
                      exact (Except.ok.inj (Option.some.inj hscan)).symm
                    have hexp : expand stack n s q.qHead x = some (none,
                        childrenAt x (tableAt stack s q.qHead x) slots) := by
                      rw [expand, if_neg, hhit]
                      rintro ⟨hten, hch⟩
                      exact absurd (hfit hch) (Nat.not_lt.2 hten)
                    have hnext := ih hwaits.next hrest
                    rw [hhead] at hnext
                    exact search_cons_eq_some.2 ⟨_, _, hexp, hroom, Or.inr ⟨rfl, hnext⟩⟩
              · rw [List.length_cons] at hroom
                exact absurd hrest (findLoop_overflow
                  (q := { q' with qHead := q'.qHead + 1, qNeff := q'.qNeff - 1 })
                  (hlast hq.last) (by simp only; omega) (by simp only; omega) m)

end Shell
end Jatos
