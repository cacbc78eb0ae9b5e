/-
# The frame buffer and its cursors

`src/framebuffer.c`.  The program never reads the frame buffer, which is the
list of what has been stored to it, the latest first, each store with its
offset from `FRAMEBUFFER_MEMORY_OFFSET`.  `cursor` is the variable that `puts`
moves; the cursor on the screen is two registers of the display, the upper and
the lower byte of the number of a cell.
-/

import Mathlib.Data.UInt
import Mathlib.Tactic.Ring

namespace Jatos
namespace Screen

/-- `struct Cursor`. -/
structure Cursor where
  row : ℤ
  col : ℤ
  deriving DecidableEq

/-- A store to the frame buffer: of a byte, or of zeros from its start on. -/
inductive Store
  | byte (offset : ℕ) (value : UInt8)
  | memset (size : ℕ)
  deriving DecidableEq

/-- The text screen: the stores made to its memory, and the cursor of its controller. -/
structure Framebuffer where
  stores : List Store
  cursor : Cursor
  locationHigh : UInt8
  locationLow : UInt8

variable {s : Framebuffer} {row col : ℤ} {str : List UInt8} {color : UInt8}

/-- `framebuffer_set_cursor`. -/
def framebufferSetCursor (r c : UInt8) (s : Framebuffer) : Framebuffer :=
  let position := UInt16.ofNat (r.toNat * 80 + c.toNat)
  { s with
    locationLow := (position &&& 0xFF).toUInt8
    locationHigh := ((position >>> 8) &&& 0xFF).toUInt8 }

/-- `framebuffer_write`. -/
def framebufferWrite (row col c fg bg : UInt8) (s : Framebuffer) : Framebuffer :=
  let offset := (row.toNat * 80 + col.toNat) * 2
  { s with
    stores := .byte (offset + 1) ((bg <<< 4) ||| (fg &&& 0x0F)) :: .byte offset c :: s.stores }

/-- `framebuffer_clear`. -/
def framebufferClear (s : Framebuffer) : Framebuffer :=
  { s with stores := .memset (80 * 25 * 2) :: s.stores, cursor := ⟨0, 0⟩ }

/-- `framebuffer_get_cursor`. -/
def framebufferGetCursor (s : Framebuffer) : Cursor :=
  let offset : ℤ := s.locationHigh.toNat <<< 8 + s.locationLow.toNat
  ⟨offset / 80, offset % 80⟩

/-- `framebuffer_write` with a cursor: its members are cut to a byte each. -/
def writeAt (cursor : Cursor) (c fg bg : UInt8) (s : Framebuffer) : Framebuffer :=
  framebufferWrite (.ofInt cursor.row) (.ofInt cursor.col) c fg bg s

/-- The last two calls of `puts` and of `keyboard_isr`. -/
def showCursor (cursor : Cursor) (s : Framebuffer) : Framebuffer :=
  framebufferSetCursor (.ofInt cursor.row) (.ofInt cursor.col) (writeAt cursor 0 0xF 0 s)

/-- `putchar`. -/
def putchar (c color : UInt8) (s : Framebuffer) : Framebuffer :=
  writeAt s.cursor c color 0 s

/-- The next row of `puts`, which clears the frame buffer behind row 23. -/
def nextRow (s : Framebuffer) : Framebuffer :=
  if s.cursor.row + 1 = 24 then framebufferClear { s with cursor := ⟨0, 0⟩ }
  else { s with cursor := ⟨s.cursor.row + 1, 0⟩ }

/-- One round of the loop of `puts`. -/
def putsChar (color : UInt8) (s : Framebuffer) (c : UInt8) : Framebuffer :=
  if c = 0x0A then nextRow s
  else
    let s := if s.cursor.col = 80 then nextRow s else s
    let s := putchar c color s
    { s with cursor := ⟨s.cursor.row, s.cursor.col + 1⟩ }

/-- `puts`, of all of a string. -/
def puts (str : List UInt8) (color : UInt8) (s : Framebuffer) : Framebuffer :=
  let s := str.foldl (putsChar color) s
  showCursor s.cursor s

/-! ### Cells -/

/-- A value that fits is not cut. -/
theorem toNat_ofInt {x : ℤ} (h : 0 ≤ x ∧ x < 256) : ((UInt8.ofInt x).toNat : ℤ) = x := by
  unfold UInt8.ofInt
  rw [UInt8.toNat_ofNat']
  omega

/-- The cell of the cursor on the screen. -/
def Framebuffer.cell (s : Framebuffer) : ℤ := s.locationHigh.toNat <<< 8 + s.locationLow.toNat

/-- The cursor's row and column are those of its cell. -/
theorem getCursor_eq (s : Framebuffer) : framebufferGetCursor s = ⟨s.cell / 80, s.cell % 80⟩ := rfl

/-- The cursor's cell is a number from 0 on. -/
theorem cell_nonneg (s : Framebuffer) : 0 ≤ s.cell :=
  add_nonneg (Int.natCast_nonneg _) (Int.natCast_nonneg _)

/-- The cursor on the screen is where it was set. -/
theorem cell_setCursor (r c : UInt8) (s : Framebuffer) :
    (framebufferSetCursor r c s).cell = r.toNat * 80 + c.toNat := by
  have hr := r.toNat_lt
  have hc := c.toNat_lt
  have hmask (x : ℕ) : x &&& 255 = x % 256 := Nat.and_two_pow_sub_one_eq_mod x 8
  unfold framebufferSetCursor Framebuffer.cell
  simp only [UInt16.toNat_toUInt8, UInt16.toNat_and, UInt16.toNat_shiftRight, UInt16.toNat_ofNat',
    UInt16.reduceToNat, Nat.shiftLeft_eq, Nat.shiftRight_eq_div_pow, Nat.reduceMod, Nat.reducePow,
    hmask]
  omega

/-- The cursor is shown at the cell of its row and column. -/
theorem cell_showCursor (hrow : 0 ≤ row ∧ row < 256) (hcol : 0 ≤ col ∧ col < 256)
    (s : Framebuffer) : (showCursor ⟨row, col⟩ s).cell = row * 80 + col := by
  unfold showCursor
  rw [cell_setCursor, toNat_ofInt hrow, toNat_ofInt hcol]

/-! ### What is on the screen -/

/-- The store is to the bytes of the 80 by 25 cells. -/
def Store.OnScreen : Store → Prop
  | .byte offset _ => offset < 80 * 25 * 2
  | .memset size => size ≤ 80 * 25 * 2

instance : DecidablePred Store.OnScreen
  | .byte offset _ => inferInstanceAs (Decidable (offset < 80 * 25 * 2))
  | .memset size => inferInstanceAs (Decidable (size ≤ 80 * 25 * 2))

/-- All that was stored is on the screen, and so are both cursors; that of `puts` may be
behind the last cell of a row. -/
structure OnScreen (s : Framebuffer) : Prop where
  stores : ∀ w ∈ s.stores, w.OnScreen
  row : 0 ≤ s.cursor.row ∧ s.cursor.row ≤ 23
  col : 0 ≤ s.cursor.col ∧ s.cursor.col ≤ 80
  shown : (framebufferGetCursor s).row ≤ 24 ∧ (framebufferGetCursor s).col ≤ 79

/-- What it is to be on the screen, as the bounds of rows and columns. -/
theorem onScreen_iff : OnScreen s ↔ (∀ w ∈ s.stores, w.OnScreen) ∧
    (0 ≤ s.cursor.row ∧ s.cursor.row ≤ 23) ∧ (0 ≤ s.cursor.col ∧ s.cursor.col ≤ 80) ∧
    (framebufferGetCursor s).row ≤ 24 ∧ (framebufferGetCursor s).col ≤ 79 :=
  ⟨fun h => ⟨h.stores, h.row, h.col, h.shown⟩, fun ⟨h₁, h₂, h₃, h₄⟩ => ⟨h₁, h₂, h₃, h₄⟩⟩

instance : Decidable (OnScreen s) := decidable_of_iff _ onScreen_iff.symm

/-- The cursor is on the page if and only if its cell is one of 2000. -/
theorem shown_iff : ((framebufferGetCursor s).row ≤ 24 ∧ (framebufferGetCursor s).col ≤ 79) ↔
    s.cell < 2000 := by
  rw [getCursor_eq]
  dsimp only
  omega

/-- What is written at a cursor is on the screen just when its cell is. -/
theorem stores_writeAt (hrow : 0 ≤ row ∧ row < 256) (hcol : 0 ≤ col ∧ col < 256)
    (b fg bg : UInt8) : (∀ w ∈ (writeAt ⟨row, col⟩ b fg bg s).stores, w.OnScreen) ↔
      row * 80 + col < 2000 ∧ ∀ w ∈ s.stores, w.OnScreen := by
  have hr := toNat_ofInt hrow
  have hc := toNat_ofInt hcol
  unfold writeAt framebufferWrite
  simp only [List.forall_mem_cons, Store.OnScreen]
  constructor
  · rintro ⟨ho, -, hs⟩
    exact ⟨by omega, hs⟩
  · rintro ⟨ho, hs⟩
    exact ⟨by omega, by omega, hs⟩

/-- A character written at a cell of the page leaves everything on the screen. -/
theorem onScreen_writeAt (h : OnScreen s) (hrow : 0 ≤ row ∧ row < 256)
    (hcol : 0 ≤ col ∧ col < 256) (hcell : row * 80 + col < 2000) (b fg bg : UInt8) :
    OnScreen (writeAt ⟨row, col⟩ b fg bg s) :=
  ⟨(stores_writeAt hrow hcol b fg bg).2 ⟨hcell, h.stores⟩, h.row, h.col, h.shown⟩

/-- **A cursor** is shown on the screen just when its cell is there. -/
theorem onScreen_showCursor (h : OnScreen s) (hrow : 0 ≤ row ∧ row < 256)
    (hcol : 0 ≤ col ∧ col < 256) : OnScreen (showCursor ⟨row, col⟩ s) ↔
      row * 80 + col < 2000 := by
  have hstores := stores_writeAt (s := s) hrow hcol 0 0xF 0
  constructor
  · intro hs
    exact (hstores.1 hs.stores).1
  · intro hcell
    refine ⟨hstores.2 ⟨hcell, h.stores⟩, h.row, h.col, ?_⟩
    rw [shown_iff, cell_showCursor hrow hcol]
    exact hcell

/-! ### `puts` and `framebuffer_clear` -/

/-- The variable is moved. -/
theorem OnScreen.move (h : OnScreen s) (hrow : 0 ≤ row ∧ row ≤ 23)
    (hcol : 0 ≤ col ∧ col ≤ 80) : OnScreen { s with cursor := ⟨row, col⟩ } :=
  ⟨h.stores, hrow, hcol, h.shown⟩

/-- Clearing leaves everything on the screen. -/
theorem onScreen_clear (h : OnScreen s) : OnScreen (framebufferClear s) := by
  have hm : OnScreen { s with cursor := ⟨0, 0⟩ } :=
    h.move ⟨le_refl 0, by decide⟩ ⟨le_refl 0, by decide⟩
  exact ⟨List.forall_mem_cons.2 ⟨le_refl (80 * 25 * 2), h.stores⟩, hm.row, hm.col, hm.shown⟩

/-- A next row starts in its first column. -/
theorem onScreen_nextRow (h : OnScreen s) : OnScreen (nextRow s) ∧ (nextRow s).cursor.col = 0 := by
  have hrow := h.row
  unfold nextRow
  split_ifs with hlast
  · exact ⟨onScreen_clear (h.move ⟨le_refl 0, by decide⟩ ⟨le_refl 0, by decide⟩), rfl⟩
  · exact ⟨h.move ⟨by omega, by omega⟩ ⟨le_refl 0, by decide⟩, rfl⟩

/-- Printing a character leaves everything on the screen. -/
theorem onScreen_putsChar (h : OnScreen s) (b : UInt8) : OnScreen (putsChar color s b) := by
  unfold putsChar
  by_cases hb : b = 0x0A
  · rw [if_pos hb]
    exact (onScreen_nextRow h).1
  · rw [if_neg hb]
    -- the wrap is lazy: only the next character finds the row full
    have key : ∀ t : Framebuffer, OnScreen t → t.cursor.col < 80 →
        OnScreen { putchar b color t with cursor := ⟨t.cursor.row, t.cursor.col + 1⟩ } := by
      intro t ht hlt
      have hrow := ht.row
      have hcol := ht.col
      have hw := onScreen_writeAt ht ⟨hrow.1, by omega⟩ ⟨hcol.1, by omega⟩ (by omega) b color 0
      exact hw.move hrow ⟨by omega, by omega⟩
    by_cases hfull : s.cursor.col = 80
    · obtain ⟨hnext, hcol⟩ := onScreen_nextRow h
      simp only [if_pos hfull]
      exact key _ hnext (by rw [hcol]; decide)
    · have hcol := h.col
      simp only [if_neg hfull]
      exact key _ h (by omega)

/-- **`puts`** stays on the screen. -/
theorem onScreen_puts (h : OnScreen s) : OnScreen (puts str color s) := by
  have hloop : OnScreen (str.foldl (putsChar color) s) := by
    induction str generalizing s with
    | nil => exact h
    | cons b str ih => exact ih (onScreen_putsChar h b)
  have hrow := hloop.row
  have hcol := hloop.col
  exact (onScreen_showCursor hloop ⟨hrow.1, by omega⟩ ⟨hcol.1, by omega⟩).2 (by omega)

end Screen
end Jatos
