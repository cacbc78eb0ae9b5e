/-
# `mv`

`mv` of `src/user-shell.c`.  It loads a table with `read_directory`, changes it in the
memory of the shell, and stores it with system call 14, which is `write_clusters` at the
cluster number it is given.  A target that begins with `/` is a path, for a move; any
other is a new name.

The table of the source is read from the current directory but stored to
`CURRENT_DIR_PARENT_CLUSTER_NUMBER`, in both branches.
-/

import Jatos.Shell.Orderly

namespace Jatos
namespace Shell

open Fat32 Packed

/-- What the stack held under `source`, `retcode` and `temp_path`. -/
structure MoveStack where
  source : Bytes 8
  retcode : UInt32
  tempPath : Bytes 8

/-- `dir_table`, if `retcode` is 0 then.  It has 32 bits, and the system call stores the
lowest eight. -/
def mvTable (stack : MoveStack) (s : State) (m : Session) : Option DirectoryTable :=
  if stack.retcode.toNat < 256 then
    readTable s m.currentDirParentClusterNumber (m.dirPath m.depth)
  else none

/-- The table and the slot in which `mv` finds the source, or what it prints instead. -/
def mvSource (stack : MoveStack) (source : Bytes 8) (s : State) (m : Session) :
    Except String (DirectoryTable × Fin 64) :=
  match mvTable stack s m with
  | none => .error "dir table corrupt"
  | some dirTable =>
      match findSlot dirTable source with
      | none => .error "File source tidak ditemukan\n"
      | some i => .ok (dirTable, i)

/-- The branch that renames. -/
def mvRename (stack : MoveStack) (source : Bytes 8) (dest : List UInt8) (s : State) (m : Session) :
    String × State :=
  if dest.length > 8 then ("Nama file target terlalu panjang\n", s)
  else
    match mvSource stack source s m with
    | .error text => (text, s)
    | .ok (dirTable, i) =>
        ("", s.writeCluster m.currentDirParentClusterNumber.toNat
          (tableLayout (Function.update dirTable i { dirTable i with name := nameOf dest })))

/-- `path_list` from element `depth` on.  The first name is put into `temp_path` as the
stack left it, the others into zeros; there is no answer where a name is stored behind the
ten elements. -/
def pathList : Bytes 8 → ℕ → List (List UInt8) → Option (Except String (List (Bytes 8)))
  | _, _, [] => some (.ok [])
  | tempPath, depth, path :: paths =>
      if path.length > 8 then some (.error "Nama folder/file tidak valid\n")
      else if 10 ≤ depth then none
      else (pathList 0 (depth + 1) paths).map (·.map (fillArray tempPath path :: ·))

/-- The loop over `path_list`: `dir_table_dest`, `final_parent_cluster_number` and
`prev_parent_cluster_number` follow the path, and the entry is put where it ends. -/
def mvInto (dirTableSource : DirectoryTable) (moveEntry : DirectoryEntry) (s : State)
    (m : Session) : List (Bytes 8) → DirectoryTable → UInt32 → UInt32 → String × State
  | [], _, _, _ => ("", s)
  | [name], dirTableDest, final, _ =>
      match freeSlot dirTableDest with
      | none => ("", s)
      | some j =>
          let entry := { moveEntry with
            name := name
            userAttribute := UATTR_NOT_EMPTY
            attr := ATR_FILE }
          ("", (s.writeCluster final.toNat
              (tableLayout (Function.update dirTableDest j entry))).writeCluster
            m.currentDirParentClusterNumber.toNat (tableLayout dirTableSource))
  | name :: names, dirTableDest, _, prev =>
      match findSlot dirTableDest name with
      | none => ("Path tidak valid2\n", s)
      | some j =>
          match readTable s prev name with
          | none => ("Path tidak valid1\n", s)
          | some dirTable =>
              mvInto dirTableSource moveEntry s m names dirTable
                (UInt32.ofNat (dirTableDest j).cluster) (UInt32.ofNat (dirTableDest j).cluster)

/-- The branch that moves.  What is left of the source's slot has no name. -/
def mvMove (stack : MoveStack) (source : Bytes 8) (dest : List UInt8) (s : State) (m : Session) :
    Option (String × State) :=
  match mvSource stack source s m with
  | .error text => some (text, s)
  | .ok (dirTable, i) =>
      (pathList stack.tempPath 1 (components (dest.drop 1))).map fun paths =>
        match paths with
        | .error text => (text, s)
        | .ok names =>
            match readTable s 2 rootName with
            | none => ("Path tidak valid1\n", s)
            | some dirTableDest =>
                mvInto (Function.update dirTable i { dirTable i with name := 0 }) (dirTable i) s m
                  names dirTableDest 2 2

/-- `mv`. -/
def mv (stack : MoveStack) (command : List UInt8) (s : State) (m : Session) :
    Option (String × State) :=
  let source := wordAt command 3
  if source.length > 8 then some ("Source tidak valid\n", s)
  else
    let dest := wordAt command (4 + source.length)
    if source = [] ∨ dest = [] then some ("Input tidak valid\n", s)
    else if command.getD (4 + source.length) 0 ≠ 0x2F then
      some (mvRename stack (fillArray stack.source source) dest s m)
    else mvMove stack (fillArray stack.source source) dest s m

/-- The command `mv src dst`. -/
def mvOf (stack : MoveStack) (src dst : List UInt8) (s : State) (m : Session) :
    Option (String × State) :=
  mv stack ([0x6D, 0x76, 0x20] ++ src ++ [0x20] ++ dst) s m

variable {s : State} {m : Session} {stack : MoveStack} {src dst : List UInt8} {n : Bytes 8}

/-! ### The branches -/

/-- `mv` finds its source if and only if the table above names it. -/
theorem mvSource_ok_iff {t : DirectoryTable} {i : Fin 64} :
    mvSource stack n s m = .ok (t, i) ↔ mvTable stack s m = some t ∧ findSlot t n = some i := by
  rw [mvSource]
  cases htable : mvTable stack s m with
  | none => simp
  | some dirTable =>
      cases hfind : findSlot dirTable n with
      | none =>
          simp only [hfind]
          refine iff_of_false nofun ?_
          rintro ⟨heq, hi⟩
          obtain rfl := Option.some.inj heq
          rw [hfind] at hi
          cases hi
      | some j =>
          simp only [hfind, Except.ok.injEq, Prod.mk.injEq, Option.some.injEq]
          refine and_congr_right fun heq => ?_
          rw [← heq, hfind, Option.some.injEq]

/-- In the root the table of the source is that of the current directory. -/
theorem mvTable_root (stack : MoveStack) (h : Sound s) (hm : Located s m) (hd : m.depth = 0) :
    mvTable stack s m =
      if stack.retcode.toNat < 256 then some (s.table m.currentDirClusterNumber.toNat)
      else none := by
  rw [mvTable, hm.readTable h hd]

/-- The first byte of the target decides. -/
theorem mvOf_eq (stack : MoveStack) (s : State) (m : Session) (hsrc : Word src)
    (hdst : 0x20 ∉ dst) (hne : dst ≠ []) :
    mvOf stack src dst s m = if dst.head? ≠ some 0x2F then
        some (mvRename stack (fillArray stack.source src) dst s m)
      else mvMove stack (fillArray stack.source src) dst s m := by
  obtain ⟨h₁, h₂⟩ := wordAt_command (c := [0x6D, 0x76, 0x20]) rfl hsrc.no_space hdst
  obtain ⟨c, cs, rfl⟩ := List.exists_cons_of_ne_nil hne
  have hget : ([0x6D, 0x76, 0x20] ++ src ++ [0x20] ++ c :: cs).getD (4 + src.length) 0 = c := by
    have hlen : ([0x6D, 0x76, 0x20] ++ src ++ [0x20] : List UInt8).length = 4 + src.length := by
      simp only [List.length_append, List.length_cons, List.length_nil]
      omega
    rw [List.getD_eq_getElem?_getD, List.getElem?_append_right hlen.le, hlen, Nat.sub_self]
    rfl
  simp only [mvOf, mv, h₁, h₂, hget]
  rw [if_neg (Nat.not_lt.2 hsrc.short), if_neg (not_or.2 ⟨hsrc.ne_nil, hne⟩), List.head?_cons]
  simp only [ne_eq, Option.some.injEq]

/-- The stack is zero under the names and `retcode`. -/
def blankMoveStack : MoveStack := ⟨0, 0, 0⟩

end Shell
end Jatos
