/-
# What is on the screen

The screen as its user sees it: a page of 24 rows of 80 characters with what was printed,
the characters that were typed behind it, and in the last eight cells of the row below
the clock.  `Transcript` is that, in terms of what happened: a printed character begins
the next row behind 80, the end of row 23 starts a fresh page, a backspace takes the last
typed character back.

The frame buffer shows it (`screen_shows`), although `puts` and the keyboard's handler
work from two cursors that know nothing of one another, as long as

* what is printed behind typed characters begins with a newline,
* keys come where the cursor on the screen is at the end of the text, which it is not
  between the enter key, or a clear, and the next `puts`,
* a backspace finds a typed character, and a typed character does not fill its row.
-/

import Jatos.Foundation.Page
import Jatos.Screen.Buffer

namespace Jatos
namespace Screen

/-! ### The transcript -/

/-- The page, and the eight characters of the clock. -/
structure Sheet where
  page : Page UInt8
  marks : Fin 8 → UInt8

/-- A cleared screen. -/
def Sheet.blank : Sheet := ⟨.fresh, fun _ => 0⟩

/-- The next row, or a cleared screen behind row 23. -/
def Sheet.newline (t : Sheet) : Sheet :=
  if t.page.rows.length + 1 = 24 then .blank else { t with page := t.page.endRow }

/-- A character is printed. -/
def Sheet.print (t : Sheet) (c : UInt8) : Sheet :=
  if c = 0x0A then t.newline
  else
    let t := if t.page.row.length = 80 then t.newline else t
    { t with page := t.page.add c }

/-- What was printed, what was typed behind it, and whether the cursor on the screen has
left the end of the text. -/
structure Transcript where
  sheet : Sheet
  typed : List UInt8
  away : Bool

/-- The page with what was typed. -/
def Transcript.shown (t : Transcript) : Sheet :=
  ⟨⟨t.sheet.page.rows, t.sheet.page.row ++ t.typed⟩, t.sheet.marks⟩

/-- The transcript at the start. -/
def Transcript.start : Transcript := ⟨.blank, [], false⟩

/-- One of the events, or system call 13 for a cell of the clock. -/
inductive Sight
  | event (e : Event)
  | mark (i : Fin 8) (c : UInt8)

/-- What a key with a character does. -/
def Transcript.type (scancode c : UInt8) (t : Transcript) : Transcript :=
  if scancode = 0x0E then { t with typed := t.typed.dropLast }
  else if scancode = 0x1C then { t with away := true }
  else { t with typed := t.typed ++ [c] }

/-- The transcript behind it; `c` is the character that the key has. -/
def Transcript.next (c : UInt8) (t : Transcript) : Sight → Transcript
  | .event (.puts str _) =>
      let sheet := if str.head? = some 0x0A then t.shown else t.sheet
      ⟨str.foldl Sheet.print sheet, [], false⟩
  | .event .clear => ⟨.blank, [], true⟩
  | .event (.key scancode) => if c = 0 then t else t.type scancode c
  | .event .poll => t
  | .mark i c => { t with sheet := { t.sheet with marks := Function.update t.sheet.marks i c } }

/-- The character that a key has, 0 for any other sight. -/
def Sight.character (m : Console) : Sight → UInt8
  | .event (.key scancode) => m.keyboard.accepted scancode
  | _ => 0

/-- Row 24 holds the clock. -/
def mark (i : Fin 8) (c : UInt8) (s : Framebuffer) : Framebuffer :=
  framebufferWrite 24 (UInt8.ofNat (72 + i)) c 0xF 0 s

/-- The console and the transcript. -/
def watch (e : Sight) (x : Console × Transcript) : Option (Unit × Console × Transcript) :=
  let t := x.2.next (e.character x.1) e
  match e with
  | .event e => (handle e x.1).map fun r => ((), r.2, t)
  | .mark i c => some ((), { x.1 with framebuffer := mark i c x.1.framebuffer }, t)

/-- What is asked of a sight. -/
def InOrder (x : Console × Transcript) : Sight → Prop
  | .event (.puts str _) => x.2.typed = [] ∨ str.head? = some 0x0A
  | .event (.key scancode) =>
      if x.1.keyboard.accepted scancode = 0 then x.1.keyboard.keyboardInputOn → scancode ≠ 0
      else x.2.away = false ∧ (scancode = 0x0E → x.2.typed ≠ []) ∧
        (scancode ≠ 0x0E → scancode ≠ 0x1C → x.2.shown.page.row.length + 1 < 80)
  | _ => True

instance : (x : Console × Transcript) → (e : Sight) → Decidable (InOrder x e)
  | x, .event (.puts str _) =>
      inferInstanceAs (Decidable (x.2.typed = [] ∨ str.head? = some 0x0A))
  | x, .event (.key scancode) => inferInstanceAs (Decidable (
      if x.1.keyboard.accepted scancode = 0 then x.1.keyboard.keyboardInputOn → scancode ≠ 0
      else x.2.away = false ∧ (scancode = 0x0E → x.2.typed ≠ []) ∧
        (scancode ≠ 0x0E → scancode ≠ 0x1C → x.2.shown.page.row.length + 1 < 80)))
  | _, .event .clear => isTrue trivial
  | _, .event .poll => isTrue trivial
  | _, .mark _ _ => isTrue trivial

/-! ### The frame buffer -/

/-- The byte at an offset, of what was stored there last. -/
def byteAt : List Store → ℕ → UInt8
  | [], _ => 0
  | .byte offset value :: stores, x => if x = offset then value else byteAt stores x
  | .memset size :: stores, x => if x < size then 0 else byteAt stores x

/-- The character in a cell. -/
def Framebuffer.charAt (s : Framebuffer) (row col : ℕ) : UInt8 :=
  byteAt s.stores ((80 * row + col) * 2)

variable {s s' : Framebuffer} {t : Sheet} {x : Transcript} {m : Console} {r c row col : ℕ}
  {b color scancode : UInt8} {str : List UInt8}

/-- What a written character shows. -/
theorem charAt_write (r c b fg bg : UInt8) (s : Framebuffer) (row col : ℕ) :
    (framebufferWrite r c b fg bg s).charAt row col =
      if 80 * row + col = 80 * r.toNat + c.toNat then b else s.charAt row col := by
  change (if _ then _ else if _ then _ else _) = _
  rw [if_neg (by omega)]
  by_cases hcell : 80 * row + col = 80 * r.toNat + c.toNat
  · rw [if_pos (by omega), if_pos hcell]
  · rw [if_neg (by omega), if_neg hcell]
    rfl

/-- A cursor on the screen names its cell. -/
theorem charAt_writeAt (hr : r < 256) (hc : c < 256) (b fg bg : UInt8) (s : Framebuffer)
    (row col : ℕ) : (writeAt ⟨r, c⟩ b fg bg s).charAt row col =
      if 80 * row + col = 80 * r + c then b else s.charAt row col := by
  have hrow : (UInt8.ofInt r).toNat = r := by
    have := toNat_ofInt (x := r) ⟨by omega, by omega⟩
    omega
  have hcol : (UInt8.ofInt c).toNat = c := by
    have := toNat_ofInt (x := c) ⟨by omega, by omega⟩
    omega
  rw [writeAt, charAt_write, hrow, hcol]

/-- A cleared screen is blank. -/
theorem charAt_clear (h : 80 * row + col < 2000) (s : Framebuffer) :
    (framebufferClear s).charAt row col = 0 := by
  change (if _ then _ else _) = _
  rw [if_pos (by omega)]

/-- The cells show the sheet. -/
structure Cells (s : Framebuffer) (t : Sheet) : Prop where
  rows : t.page.rows.length ≤ 23
  row : t.page.row.length ≤ 80
  char : ∀ r < 24, ∀ c < 80, s.charAt r c = t.page.cell 0 r c
  mark : ∀ i : Fin 8, s.charAt 24 (72 + i) = t.marks i

/-- The variable `cursor` is behind the last character. -/
def AtEnd (s : Framebuffer) (t : Sheet) : Prop :=
  s.cursor = ⟨t.page.rows.length, t.page.row.length⟩

/-- What the cells show depends on the stores only. -/
theorem Cells.congr (h : Cells s t) (hs : s'.stores = s.stores) : Cells s' t := by
  have hchar : s'.charAt = s.charAt := by
    funext r c
    rw [Framebuffer.charAt, hs]
    rfl
  exact ⟨h.rows, h.row, hchar ▸ h.char, hchar ▸ h.mark⟩

/-- A cleared screen shows the blank sheet. -/
theorem cells_clear (s : Framebuffer) : Cells (framebufferClear s) .blank where
  rows := Nat.zero_le _
  row := Nat.zero_le _
  char r hr c hc := by
    rw [charAt_clear (by omega), Sheet.blank, Page.cell_fresh]
  mark i := by
    have := i.isLt
    rw [charAt_clear (by omega)]
    rfl

/-- A blank behind the text shows nothing. -/
theorem Cells.blank (h : Cells s t) (hr : r ≤ 25) (hc : c ≤ 80)
    (hbehind : t.page.rows.length < r ∨ r = t.page.rows.length ∧ t.page.row.length ≤ c)
    (hlast : 24 ≤ r → c = 0) (fg bg : UInt8) : Cells (writeAt ⟨r, c⟩ 0 fg bg s) t where
  rows := h.rows
  row := h.row
  char r' hr' c' hc' := by
    rw [charAt_writeAt (by omega) (by omega), h.char r' hr' c' hc']
    split_ifs with hcell
    · exact (Page.cell_behind 0 _ (by omega)).symm
    · rfl
  mark i := by
    have := i.isLt
    rw [charAt_writeAt (by omega) (by omega), if_neg (by have := h.rows; omega), h.mark]

/-- **A character** behind the text. -/
theorem Cells.add (h : Cells s t) (hroom : t.page.row.length < 80) (b fg bg : UInt8) :
    Cells (writeAt ⟨t.page.rows.length, t.page.row.length⟩ b fg bg s)
      { t with page := t.page.add b } where
  rows := h.rows
  row := by
    rw [Page.add, List.length_append]
    exact hroom
  char r hr c hc := by
    have hrows := h.rows
    rw [charAt_writeAt (by omega) (by omega), h.char r hr c hc, Page.cell_add]
    exact if_congr (by omega) rfl rfl
  mark i := by
    have hrows := h.rows
    have := i.isLt
    rw [charAt_writeAt (by omega) (by omega), if_neg (by omega), h.mark]

/-- **The last character** is taken back. -/
theorem Cells.erase (h : Cells s t) (hne : t.page.row ≠ []) (fg bg : UInt8) :
    Cells (writeAt ⟨t.page.rows.length, (t.page.row.length - 1 : ℕ)⟩ 0 fg bg s)
      { t with page := t.page.erase } where
  rows := h.rows
  row := by
    rw [Page.erase, List.length_dropLast]
    exact (Nat.sub_le _ _).trans h.row
  char r hr c hc := by
    have hrows := h.rows
    have hrow := h.row
    have hpos := List.length_pos_iff.2 hne
    rw [charAt_writeAt (by omega) (by omega), h.char r hr c hc, Page.cell_erase]
    exact if_congr (by omega) rfl rfl
  mark i := by
    have hrows := h.rows
    have hrow := h.row
    have := i.isLt
    rw [charAt_writeAt (by omega) (by omega), if_neg (by omega), h.mark]

/-! ### `puts` -/

/-- **The next row.** -/
theorem Cells.newline (h : Cells s t) (hrow : s.cursor.row = t.page.rows.length) :
    Cells (nextRow s) t.newline ∧ AtEnd (nextRow s) t.newline := by
  unfold nextRow Sheet.newline
  by_cases hlast : t.page.rows.length + 1 = 24
  · rw [if_pos (by omega), if_pos hlast]
    exact ⟨cells_clear _, rfl⟩
  · rw [if_neg (by omega), if_neg hlast]
    have hrows := h.rows
    constructor
    · refine Cells.congr (s := s) ⟨?_, Nat.zero_le _, fun r hr c hc => ?_, h.mark⟩ rfl
      · rw [Page.endRow, List.length_append, List.length_singleton]
        omega
      · rw [h.char r hr c hc, Page.cell_endRow]
    · rw [AtEnd, hrow]
      simp [Page.endRow]

/-- **A printed character.** -/
theorem Cells.print (h : Cells s t) (hend : AtEnd s t) (color c : UInt8) :
    Cells (putsChar color s c) (t.print c) ∧ AtEnd (putsChar color s c) (t.print c) := by
  have hput : ∀ {s : Framebuffer} {t : Sheet}, Cells s t → AtEnd s t →
      t.page.row.length < 80 →
      Cells { putchar c color s with cursor := ⟨s.cursor.row, s.cursor.col + 1⟩ }
        { t with page := t.page.add c } ∧
      AtEnd { putchar c color s with cursor := ⟨s.cursor.row, s.cursor.col + 1⟩ }
        { t with page := t.page.add c } := by
    intro s t h hend hroom
    constructor
    · refine (h.add hroom c color 0).congr ?_
      rw [← hend]
      rfl
    · rw [AtEnd, hend]
      simp [Page.add]
  have hrow : s.cursor.row = t.page.rows.length := congrArg Cursor.row hend
  have hcol : s.cursor.col = t.page.row.length := congrArg Cursor.col hend
  unfold putsChar Sheet.print
  by_cases hnew : c = 0x0A
  · rw [if_pos hnew, if_pos hnew]
    exact h.newline hrow
  · rw [if_neg hnew, if_neg hnew]
    dsimp only
    by_cases hfull : t.page.row.length = 80
    · obtain ⟨hcells, hend'⟩ := h.newline hrow
      rw [if_pos (by omega), if_pos hfull]
      refine hput hcells hend' ?_
      unfold Sheet.newline
      split_ifs <;> simp [Sheet.blank, Page.fresh, Page.endRow]
    · rw [if_neg (by omega), if_neg hfull]
      exact hput h hend (Nat.lt_of_le_of_ne h.row hfull)

/-- A text printed shows on the sheet, and the cursor stays at its end. -/
theorem Cells.prints (h : Cells s t) (hend : AtEnd s t) (color : UInt8) (str : List UInt8) :
    Cells (str.foldl (putsChar color) s) (str.foldl Sheet.print t) ∧
      AtEnd (str.foldl (putsChar color) s) (str.foldl Sheet.print t) := by
  induction str generalizing s t with
  | nil => exact ⟨h, hend⟩
  | cons c str ih =>
      obtain ⟨h', hend'⟩ := h.print hend color c
      exact ih h' hend'

/-- The cursor is shown behind the text. -/
theorem Cells.showCursor (h : Cells s t) (hr : r ≤ 25) (hc : c ≤ 80)
    (hbehind : t.page.rows.length < r ∨ r = t.page.rows.length ∧ t.page.row.length ≤ c)
    (hlast : 24 ≤ r → c = 0) :
    Cells (Screen.showCursor ⟨r, c⟩ s) t ∧ (Screen.showCursor ⟨r, c⟩ s).cell = r * 80 + c :=
  ⟨(h.blank hr hc hbehind hlast 0xF 0).congr rfl,
    cell_showCursor ⟨by omega, by omega⟩ ⟨by omega, by omega⟩ s⟩

/-- **`puts`** prints behind the text, and shows the cursor there. -/
theorem Cells.puts (h : Cells s t) (color : UInt8) (str : List UInt8)
    (hend : AtEnd s t ∨ str.head? = some 0x0A ∧ s.cursor.row = t.page.rows.length) :
    Cells (puts str color s) (str.foldl Sheet.print t) ∧
      AtEnd (puts str color s) (str.foldl Sheet.print t) ∧
      (puts str color s).cell = (str.foldl Sheet.print t).page.rows.length * 80 +
        (str.foldl Sheet.print t).page.row.length := by
  obtain ⟨hcells, hend'⟩ : Cells (str.foldl (putsChar color) s) (str.foldl Sheet.print t) ∧
      AtEnd (str.foldl (putsChar color) s) (str.foldl Sheet.print t) := by
    obtain hend | ⟨hhead, hrow⟩ := hend
    · exact h.prints hend color str
    · obtain ⟨rest, rfl⟩ : ∃ rest, str = 0x0A :: rest := by
        cases str with
        | nil => cases hhead
        | cons c rest => exact ⟨rest, by rw [Option.some.inj hhead]⟩
      -- a newline does not ask in which column the cursor is
      obtain ⟨h', hend'⟩ := h.newline hrow
      exact h'.prints hend' color rest
  have hrows := hcells.rows
  have hcursor : Screen.puts str color s = Screen.showCursor
      ⟨(str.foldl Sheet.print t).page.rows.length, (str.foldl Sheet.print t).page.row.length⟩
      (str.foldl (putsChar color) s) := by
    rw [← hend']
    rfl
  rw [hcursor]
  obtain ⟨hshown, hcell⟩ := hcells.showCursor (by omega) hcells.row (Or.inr ⟨rfl, le_rfl⟩)
    (by omega)
  exact ⟨hshown, hend', hcell⟩

/-! ### Keys -/

/-- **The console shows the transcript.** -/
structure Displays (m : Console) (x : Transcript) : Prop where
  cells : Cells m.framebuffer x.shown
  cursor : m.framebuffer.cursor = ⟨x.sheet.page.rows.length, x.sheet.page.row.length⟩
  cell : x.away = false → m.framebuffer.cell =
    x.shown.page.rows.length * 80 + x.shown.page.row.length
  room : x.typed ≠ [] → x.shown.page.row.length < 80

/-- The cursor on the screen is at the end of the text, if the row is not full. -/
theorem Displays.getCursor (h : Displays m x) (haway : x.away = false)
    (hroom : x.shown.page.row.length < 80) : framebufferGetCursor m.framebuffer =
      ⟨x.shown.page.rows.length, x.shown.page.row.length⟩ := by
  have hcell := h.cell haway
  rw [getCursor_eq, hcell]
  congr 1 <;> omega

/-- Erasing shows what was typed but the last character. -/
theorem Displays.backspace (h : Displays m x) (haway : x.away = false) (hne : x.typed ≠ [])
    (k : Keyboard) : Displays
      ⟨m.keyboard, (backspace (framebufferGetCursor m.framebuffer) k m.framebuffer).framebuffer⟩
      { x with typed := x.typed.dropLast } := by
  have hroom := h.room hne
  have hrow : x.shown.page.row ≠ [] := List.append_ne_nil_of_right_ne_nil _ hne
  have hpos := List.length_pos_iff.2 hrow
  have hrows := h.cells.rows
  have hshown : (⟨x.shown.page.erase, x.shown.marks⟩ : Sheet) =
      Transcript.shown { x with typed := x.typed.dropLast } := by
    simp [Transcript.shown, Page.erase, List.dropLast_append_of_ne_nil hne]
  have herase := h.cells.erase hrow 0xF 0
  rw [hshown] at herase
  have hlength : (Transcript.shown { x with typed := x.typed.dropLast }).page.row.length =
      x.shown.page.row.length - 1 := by
    rw [← hshown]
    exact List.length_dropLast
  obtain ⟨hcells, hcell⟩ := herase.showCursor (r := x.shown.page.rows.length)
    (c := x.shown.page.row.length - 1) (by omega) (by omega) (Or.inr ⟨rfl, hlength.le⟩) (by omega)
  have hcursor : ((x.shown.page.row.length : ℤ) - 1) = (x.shown.page.row.length - 1 : ℕ) := by
    omega
  have hback : (Screen.backspace (framebufferGetCursor m.framebuffer) k m.framebuffer).framebuffer =
      Screen.showCursor ⟨x.shown.page.rows.length, (x.shown.page.row.length - 1 : ℕ)⟩
        (writeAt ⟨x.shown.page.rows.length, (x.shown.page.row.length - 1 : ℕ)⟩ 0 0xF 0
          m.framebuffer) := by
    rw [h.getCursor haway hroom]
    unfold Screen.backspace
    dsimp only
    rw [if_pos (by omega), hcursor]
  rw [hback]
  exact ⟨hcells, h.cursor, fun _ => by rw [hcell, hlength]; rfl, fun _ => by rw [hlength]; omega⟩

/-- The enter key goes to the next row, or to the one behind it if the row is full. -/
theorem Displays.enter (h : Displays m x) (haway : x.away = false) (k : Keyboard) : Displays
    ⟨m.keyboard, (enter (framebufferGetCursor m.framebuffer) k m.framebuffer).framebuffer⟩
    { x with away := true } := by
  have hcell := h.cell haway
  have hrows := h.cells.rows
  have hrow := h.cells.row
  obtain ⟨r, hr, hnext⟩ : ∃ r : ℕ, x.shown.page.rows.length < r ∧ r ≤ 25 ∧
      (framebufferGetCursor m.framebuffer).row + 1 = r := by
    rw [getCursor_eq, hcell]
    refine ⟨(x.shown.page.rows.length * 80 + x.shown.page.row.length) / 80 + 1, ?_, ?_, ?_⟩
    · omega
    · omega
    · push_cast
      rfl
  obtain ⟨hcells, -⟩ := h.cells.showCursor (r := r) (c := 0) hnext.1 (by decide) (Or.inl hr)
    fun _ => rfl
  have henter : (Screen.enter (framebufferGetCursor m.framebuffer) k m.framebuffer).framebuffer =
      Screen.showCursor ⟨r, (0 : ℕ)⟩ m.framebuffer := by
    rw [← hnext.2]
    rfl
  rw [henter]
  exact ⟨hcells, h.cursor, fun ha => (by cases ha), h.room⟩

/-- A typed character shows after what was typed. -/
theorem Displays.typeKey (h : Displays m x) (haway : x.away = false) (k : Keyboard)
    (hkey : k.toAscii scancode ≠ 0) (hroom : x.shown.page.row.length + 1 < 80) : Displays
      ⟨m.keyboard,
        (typeKey scancode (framebufferGetCursor m.framebuffer) k m.framebuffer).framebuffer⟩
      { x with typed := x.typed ++ [k.toAscii scancode] } := by
  have hrows := h.cells.rows
  have hadd := h.cells.add (by omega) (k.toAscii scancode) 0xF 0
  have hshown : (⟨x.shown.page.add (k.toAscii scancode), x.shown.marks⟩ : Sheet) =
      Transcript.shown { x with typed := x.typed ++ [k.toAscii scancode] } := by
    simp [Transcript.shown, Page.add]
  rw [hshown] at hadd
  have hlength : (Transcript.shown
      { x with typed := x.typed ++ [k.toAscii scancode] }).page.row.length =
        x.shown.page.row.length + 1 := by
    rw [← hshown]
    simp [Page.add]
  obtain ⟨hcells, hcell⟩ := hadd.showCursor (r := x.shown.page.rows.length)
    (c := x.shown.page.row.length + 1) (by omega) (by omega) (Or.inr ⟨rfl, hlength.le⟩) (by omega)
  have htype : (Screen.typeKey scancode (framebufferGetCursor m.framebuffer) k
      m.framebuffer).framebuffer =
      Screen.showCursor ⟨x.shown.page.rows.length, (x.shown.page.row.length + 1 : ℕ)⟩
        (writeAt ⟨x.shown.page.rows.length, x.shown.page.row.length⟩ (k.toAscii scancode) 0xF 0
          m.framebuffer) := by
    rw [h.getCursor haway (by omega)]
    unfold Screen.typeKey
    dsimp only
    rw [if_neg fun hn => hkey hn.2, if_neg (by omega)]
    push_cast
    rfl
  rw [htype]
  exact ⟨hcells, h.cursor, fun _ => by rw [hcell, hlength]; rfl, fun _ => by rw [hlength]; omega⟩

/-- What the handler does to the screen is all that counts. -/
theorem Displays.congr {m' : Console} (h : Displays m x) (hf : m'.framebuffer = m.framebuffer) :
    Displays m' x :=
  ⟨hf ▸ h.cells, hf ▸ h.cursor, hf ▸ h.cell, h.room⟩

/-- **A key.** -/
theorem Displays.key (h : Displays m x) (ho : InOrder (m, x) (.event (.key scancode))) :
    Displays (keyboardIsr scancode m)
      (x.next (m.keyboard.accepted scancode) (.event (.key scancode))) := by
  have hecho := echoed_iff scancode m
  unfold InOrder at ho
  unfold Transcript.next
  dsimp only at ho ⊢
  by_cases hzero : m.keyboard.accepted scancode = 0
  · rw [if_pos hzero] at ho ⊢
    refine h.congr (by_contra fun hne => ?_)
    obtain hacc | ⟨hon, h0⟩ := hecho.1 hne
    · exact hacc hzero
    · exact ho hon h0
  · rw [if_neg hzero] at ho ⊢
    obtain ⟨haway, hback, hroom⟩ := ho
    have hacc := accepted_eq m.keyboard scancode
    have hon : m.keyboard.keyboardInputOn ∧ scancode < 0x80 := by
      by_contra hoff
      exact hzero (hacc.trans (if_neg hoff))
    rw [if_pos hon] at hacc
    have hwritten := keyboardIsr_framebuffer scancode m
    rw [Console.written, if_pos hon] at hwritten
    unfold Transcript.type
    by_cases hb : scancode = 0x0E
    · rw [if_pos hb] at hwritten ⊢
      exact (h.backspace haway (hback hb) m.seen).congr hwritten
    rw [if_neg hb] at hwritten ⊢
    by_cases he : scancode = 0x1C
    · rw [if_pos he] at hwritten ⊢
      exact (h.enter haway m.seen).congr hwritten
    rw [if_neg he] at hwritten ⊢
    rw [hacc] at hzero ⊢
    exact (h.typeKey haway m.seen hzero (hroom hb he)).congr hwritten

/-- The clock has its own cells. -/
theorem Cells.marked (h : Cells s t) (i : Fin 8) (c : UInt8) :
    Cells (Screen.mark i c s) { t with marks := Function.update t.marks i c } where
  rows := h.rows
  row := h.row
  char r hr c' hc := by
    have hi := i.isLt
    have hcol : (UInt8.ofNat (72 + i)).toNat = 72 + i := by
      rw [UInt8.toNat_ofNat']
      omega
    have hother : ¬80 * r + c' = 80 * (24 : UInt8).toNat + (72 + i) := by
      show ¬80 * r + c' = 80 * 24 + (72 + i.val)
      omega
    rw [Screen.mark, charAt_write, hcol, if_neg hother, h.char r hr c' hc]
  mark j := by
    have hi := i.isLt
    have hcol : (UInt8.ofNat (72 + i)).toNat = 72 + i := by
      rw [UInt8.toNat_ofNat']
      omega
    have hcell : 80 * 24 + (72 + j.val) = 80 * (24 : UInt8).toNat + (72 + i) ↔ j = i := by
      rw [Fin.ext_iff]
      show 80 * 24 + (72 + j.val) = 80 * 24 + (72 + i.val) ↔ _
      omega
    rw [Screen.mark, charAt_write, hcol, h.mark]
    exact (if_congr hcell rfl rfl).trans (Function.update_apply _ _ _ _).symm

/-! ### Runs -/

/-- Printing goes on behind what was printed, or with a newline behind what was typed. -/
theorem Displays.puts (h : Displays m x) (color : UInt8)
    (ho : x.typed = [] ∨ str.head? = some 0x0A) :
    Displays { m with framebuffer := Screen.puts str color m.framebuffer }
      (x.next 0 (.event (.puts str color))) := by
  have hsheet : Cells m.framebuffer (if str.head? = some 0x0A then x.shown else x.sheet) ∧
      (AtEnd m.framebuffer (if str.head? = some 0x0A then x.shown else x.sheet) ∨
        str.head? = some 0x0A ∧ m.framebuffer.cursor.row =
          (if str.head? = some 0x0A then x.shown else x.sheet).page.rows.length) := by
    by_cases hhead : str.head? = some 0x0A
    · rw [if_pos hhead]
      exact ⟨h.cells, Or.inr ⟨hhead, congrArg Cursor.row h.cursor⟩⟩
    · have hnil := ho.resolve_right hhead
      have hshown : x.shown = x.sheet := by simp [Transcript.shown, hnil]
      rw [if_neg hhead]
      exact ⟨hshown ▸ h.cells, Or.inl h.cursor⟩
  obtain ⟨hcells, hend, hcell⟩ := hsheet.1.puts color str hsheet.2
  have hshown : (x.next 0 (.event (.puts str color))).shown =
      str.foldl Sheet.print (if str.head? = some 0x0A then x.shown else x.sheet) := by
    simp [Transcript.next, Transcript.shown]
  exact ⟨hshown ▸ hcells, hend, fun _ => by rw [hshown]; exact hcell, fun hne => absurd rfl hne⟩

/-- **One sight.** -/
theorem Displays.next (h : Displays m x) {e : Sight} (ho : InOrder (m, x) e) :
    ∃ m', watch e (m, x) = some ((), m', x.next (e.character m) e) ∧
      Displays m' (x.next (e.character m) e) := by
  cases e with
  | mark i c => exact ⟨_, rfl, h.cells.marked i c, h.cursor, h.cell, h.room⟩
  | event e =>
      cases e with
      | poll => exact ⟨_, rfl, h.congr rfl⟩
      | clear =>
          exact ⟨_, rfl, cells_clear _, rfl, fun ha => (by cases ha), fun hne => absurd rfl hne⟩
      | key scancode => exact ⟨_, rfl, h.key ho⟩
      | puts str color => exact ⟨_, rfl, h.puts color ho⟩

/-- At the start the screen shows the blank transcript. -/
theorem displays_start : Displays (keyboardStateActivate .boot) .start := by
  obtain ⟨hcells, hcell⟩ := (cells_clear ⟨[], ⟨0, 0⟩, 0, 0⟩).showCursor (r := 0) (c := 0)
    (by decide) (by decide) (Or.inr ⟨rfl, le_rfl⟩) (by decide)
  exact ⟨hcells.congr rfl, rfl, fun _ => hcell, fun hne => absurd rfl hne⟩

/-- **The screen shows the transcript.**  From the boot on, in every run of prints, clears,
keys, polls and marks of the clock that are in order, whatever the keys' characters are, each
cell of the 24 rows has the character that the transcript has there, and the last eight cells
of the row below have the clock's; and where keys may come, the cursor on the screen is behind
the text. -/
theorem screen_shows {es : List Sight} (hg : Runs.Guarded watch InOrder es
      (keyboardStateActivate .boot, .start)) :
    ∃ os m x, Runs.run watch es (keyboardStateActivate .boot, .start) = some (os, m, x) ∧
      (∀ r < 24, ∀ c < 80, m.framebuffer.charAt r c = x.shown.page.cell 0 r c) ∧
      (∀ i : Fin 8, m.framebuffer.charAt 24 (72 + i) = x.shown.marks i) ∧
      (x.away = false → m.framebuffer.cell =
        x.shown.page.rows.length * 80 + x.shown.page.row.length) := by
  have hstep : ∀ (y : Console × Transcript) (e : Sight), Displays y.1 y.2 → InOrder y e →
      ∃ o y', watch e y = some (o, y') ∧ Displays y'.1 y'.2 := by
    rintro ⟨m, x⟩ e h ho
    obtain ⟨m', hrun, h'⟩ := h.next ho
    exact ⟨(), _, hrun, h'⟩
  obtain ⟨os, ⟨m, x⟩, hrun, h⟩ := Runs.run_total hstep displays_start hg
  exact ⟨os, m, x, hrun, h.cells.char, h.cells.mark, h.cell⟩

/-- `$` is printed, `aa` typed, an `a` taken back, `s` typed, the line ended and answered;
the clock shows a 7. -/
def session : List Sight :=
  [.event (.puts [0x24] 0xF), .event (.key 0x1E), .event (.key 0x1E), .mark (Fin.last 7) 0x37,
    .event (.key 0x0E), .event .poll, .event (.key 0x1F), .event (.key 0x1C),
    .event (.puts [0x0A] 0xF), .event (.puts [0x6F, 0x6B] 0xF)]

/-- A session of typing and printing with the clock in the corner. -/
theorem screen_shows_sample : ∃ os m x,
    Runs.run watch session (keyboardStateActivate .boot, .start) = some (os, m, x) ∧
      (∀ r < 24, ∀ c < 80, m.framebuffer.charAt r c = x.shown.page.cell 0 r c) ∧
      (∀ i : Fin 8, m.framebuffer.charAt 24 (72 + i) = x.shown.marks i) ∧
      (x.away = false → m.framebuffer.cell =
        x.shown.page.rows.length * 80 + x.shown.page.row.length) := by
  exact screen_shows (by decide +kernel)

end Screen
end Jatos
