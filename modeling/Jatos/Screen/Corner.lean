/-
# The clock in the corner

`src/user-clock.c` beside everything else that comes to the screen.  A round of its loop is
nine system calls: 12 reads the time, and eight times 13 writes a character of it into the
last row.  Between any two of them the timer may give the processor to the shell, so prints,
clears, keys and polls come in between, and time passes.

Each cell shows the last reading, or the one before if the round has not come to it yet, and
never anything else but a blank (`corner_shows`); and it does show it unless the screen was
cleared since.  The process is one that is not killed and started again.
-/

import Jatos.Device.Cmos
import Jatos.Screen.Transcript

namespace Jatos
namespace Screen

open Ports Rtc Device

/-! ### The process -/

/-- The characters that the eight calls write: `time_array` and two colons. -/
def face (timeArray : List UInt8) (i : Fin 8) : UInt8 :=
  [timeArray.getD 0 0, timeArray.getD 1 0, 0x3A, timeArray.getD 2 0, timeArray.getD 3 0, 0x3A,
    timeArray.getD 4 0, timeArray.getD 5 0].getD i 0

/-- The screen, the clock behind its ports, the process (the cells that it has yet to write
before it reads again), and what an observer remembers: when the last reading was, and the one
before, and how many rounds began since the cells of the clock were changed by another. -/
structure Corner where
  console : Console
  transcript : Transcript
  device : Clock
  cells : List (Fin 8)
  timeArray : List UInt8
  last : Option Time
  before : Option Time
  rounds : ℕ

/-- What happens to the corner of the screen, in any order. -/
inductive Moment
  /-- Something else comes to the screen. -/
  | other (e : Event)
  /-- Time passes, up to an update of the clock that may be going on. -/
  | time (t : Time) (busy : List UInt8)
  /-- The next system call of the process. -/
  | call

/-- What a moment does to the corner. -/
def turn (fuel : ℕ) : Moment → Corner → Option (Unit × Corner)
  | .other e, s => (watch (.event e) (s.console, s.transcript)).map fun r => ((), { s with
      console := r.2.1
      transcript := r.2.2
      rounds := if r.2.2.sheet.marks = s.transcript.sheet.marks then s.rounds else 0 })
  | .time t busy, s => some ((), { s with device := { s.device with time := t, busy := busy } })
  | .call, s =>
      match s.cells with
      | [] => (readCmos rtc fuel s.device).map fun r => ((), { s with
          device := r.2
          timeArray := r.1
          cells := List.finRange 8
          last := some s.device.time
          before := s.last
          rounds := s.rounds + 1 })
      | i :: cells =>
          (watch (.mark i (face s.timeArray i)) (s.console, s.transcript)).map fun r =>
            ((), { s with console := r.2.1, transcript := r.2.2, cells := cells })

/-- The fuel is enough for every update, and what comes to the screen is in order. -/
def InTime (fuel : ℕ) (s : Corner) : Moment → Prop
  | .other e => InOrder (s.console, s.transcript) (.event e)
  | .time _ busy => busy.length < fuel
  | .call => True

instance (fuel : ℕ) (s : Corner) : (e : Moment) → Decidable (InTime fuel s e)
  | .other e => inferInstanceAs (Decidable (InOrder (s.console, s.transcript) (.event e)))
  | .time _ busy => inferInstanceAs (Decidable (busy.length < fuel))
  | .call => isTrue trivial

/-- The process is created; on its stack is what was there. -/
def Corner.start (d : Clock) (stack : List UInt8) : Corner :=
  ⟨keyboardStateActivate .boot, .start, d, [], stack, none, none, 0⟩

/-! ### What the cells show -/

/-- The round has written the cell. -/
def Corner.Written (s : Corner) (i : Fin 8) : Prop := i ∉ s.cells

instance (s : Corner) (i : Fin 8) : Decidable (s.Written i) :=
  inferInstanceAs (Decidable (i ∉ s.cells))

/-- The reading that is in the cell. -/
def Corner.source (s : Corner) (i : Fin 8) : Option Time :=
  if s.Written i then s.last else s.before

/-- The rounds that it takes until it is there. -/
def Corner.needed (s : Corner) (i : Fin 8) : ℕ := if s.Written i then 1 else 2

/-- The character that a reading has in a cell; a cell without one is blank. -/
def glyph (d : Clock) (reading : Option Time) (i : Fin 8) : UInt8 :=
  reading.elim 0 fun t => face (leaves d.Binary d.Hours24 t) i

variable {fuel : ℕ} {d : Clock} {s : Corner} {i j : Fin 8} {t : Sheet}

/-- The state between two moments. -/
structure Keeps (fuel : ℕ) (d : Clock) (s : Corner) : Prop where
  displays : Displays s.console s.transcript
  mode : s.device.mode = d.mode
  enough : s.device.busy.length < fuel
  nodup : s.cells.Nodup
  reading : s.cells ≠ [] → ∀ i, face s.timeArray i = glyph d s.last i
  marks : ∀ i, s.transcript.sheet.marks i = 0 ∨
    s.transcript.sheet.marks i = glyph d (s.source i) i
  certain : ∀ i, s.needed i ≤ s.rounds →
    s.transcript.sheet.marks i = glyph d (s.source i) i

/-- A page is followed by itself or by a fresh one, in which the clock is blank too. -/
theorem marks_print (c : UInt8) (t : Sheet) :
    (t.print c).marks = t.marks ∨ (t.print c).marks = fun _ => 0 := by
  have hnew : ∀ t : Sheet, t.newline.marks = t.marks ∨ t.newline.marks = fun _ => 0 := by
    intro t
    unfold Sheet.newline
    split_ifs
    · exact Or.inr rfl
    · exact Or.inl rfl
  unfold Sheet.print
  split_ifs
  · exact hnew t
  · exact hnew t
  · exact Or.inl rfl

/-- Printing leaves the marks, or clears them all with the page. -/
theorem marks_prints (str : List UInt8) (t : Sheet) :
    (str.foldl Sheet.print t).marks = t.marks ∨
      (str.foldl Sheet.print t).marks = fun _ => 0 := by
  induction str generalizing t with
  | nil => exact Or.inl rfl
  | cons c str ih =>
      obtain h | h := ih (t.print c)
      · rw [List.foldl_cons, h]
        exact marks_print c t
      · exact Or.inr h

/-- What else comes to the screen leaves the cells of the clock alone, or blanks them all. -/
theorem marks_event (c : UInt8) (x : Transcript) (e : Event) :
    (x.next c (.event e)).sheet.marks = x.sheet.marks ∨
      (x.next c (.event e)).sheet.marks = fun _ => 0 := by
  cases e with
  | poll => exact Or.inl rfl
  | clear => exact Or.inr rfl
  | puts str color =>
      have h := marks_prints str (if str.head? = some 0x0A then x.shown else x.sheet)
      rw [apply_ite Sheet.marks, show x.shown.marks = x.sheet.marks from rfl, ite_self] at h
      exact h
  | key scancode =>
      left
      unfold Transcript.next Transcript.type
      dsimp only
      split_ifs <;> rfl

/-- Every cell of the clock needs a step to be written. -/
theorem needed_pos (s : Corner) (i : Fin 8) : 0 < s.needed i := by
  unfold Corner.needed
  split_ifs <;> decide

/-- Where a cell is written from depends on what was written and on the last two times. -/
theorem source_congr {s' : Corner} (h : s'.Written i ↔ s.Written i) (hl : s'.last = s.last)
    (hb : s'.before = s.before) : s'.source i = s.source i := by
  unfold Corner.source
  rw [hl, hb]
  exact if_congr h rfl rfl

/-- What a cell needs depends on whether it was written. -/
theorem needed_congr {s' : Corner} (h : s'.Written i ↔ s.Written i) :
    s'.needed i = s.needed i := if_congr h rfl rfl

/-! ### One moment -/

/-- Whatever else comes to the screen keeps what the corner shows. -/
theorem Keeps.other (h : Keeps fuel d s) {e : Event}
    (ho : InOrder (s.console, s.transcript) (.event e)) :
    ∃ s', turn fuel (.other e) s = some ((), s') ∧ Keeps fuel d s' := by
  obtain ⟨m, hwatch, hdisplays⟩ := h.displays.next ho
  have hnext := congrArg (Option.map fun r : Unit × Console × Transcript => ((), ({ s with
    console := r.2.1
    transcript := r.2.2
    rounds := if r.2.2.sheet.marks = s.transcript.sheet.marks then s.rounds else 0 } : Corner)))
    hwatch
  refine ⟨_, hnext, hdisplays, h.mode, h.enough, h.nodup, h.reading, fun i => ?_, fun i hi => ?_⟩
  · obtain hsame | hblank := marks_event (Sight.character s.console (.event e)) s.transcript e
    · dsimp only
      rw [hsame]
      exact h.marks i
    · exact Or.inl (congrFun hblank i)
  · dsimp only at hi ⊢
    split_ifs at hi with hsame
    · rw [hsame]
      exact h.certain i hi
    · exact absurd hi (Nat.not_le.2 (needed_pos _ i))

/-- Time that passes keeps what the corner shows. -/
theorem Keeps.time (h : Keeps fuel d s) {busy : List UInt8} (t : Time)
    (hbusy : busy.length < fuel) :
    ∃ s', turn fuel (.time t busy) s = some ((), s') ∧ Keeps fuel d s' :=
  ⟨_, rfl, h.displays, h.mode, hbusy, h.nodup, h.reading, h.marks, h.certain⟩

/-- A new round: what was the last reading is the one before now. -/
theorem Keeps.read (h : Keeps fuel d s) (hc : s.cells = []) :
    ∃ s', turn fuel .call s = some ((), s') ∧ Keeps fuel d s' := by
  have hread : readCmos rtc fuel s.device =
      some (leaves d.Binary d.Hours24 s.device.time,
        { s.device with busy := [], index := 0x0B }) := by
    have hbinary : decide s.device.Binary = decide d.Binary :=
      decide_eq_decide.2 (by rw [Clock.Binary, h.mode, Clock.Binary])
    have hhours : decide s.device.Hours24 = decide d.Hours24 :=
      decide_eq_decide.2 (by rw [Clock.Hours24, h.mode, Clock.Hours24])
    rw [readCmos_eq h.enough, hbinary, hhours]
  let s' : Corner := { s with
    device := { s.device with busy := [], index := 0x0B }
    timeArray := leaves d.Binary d.Hours24 s.device.time
    cells := List.finRange 8
    last := some s.device.time
    before := s.last
    rounds := s.rounds + 1 }
  have hnext : turn fuel .call s = some ((), s') := by
    unfold turn
    dsimp only
    rw [hc]
    dsimp only
    rw [hread]
    rfl
  have hold : ∀ i, s.Written i := fun i hi => List.not_mem_nil (hc ▸ hi)
  have hnew : ∀ i, ¬s'.Written i := fun i hi => hi (List.mem_finRange i)
  have hsource : ∀ i, s'.source i = s.source i := fun i =>
    (if_neg (hnew i)).trans (if_pos (hold i)).symm
  refine ⟨s', hnext, h.displays, h.mode, Nat.zero_lt_of_lt h.enough,
    List.nodup_finRange 8, fun _ _ => rfl, fun i => ?_, fun i hi => ?_⟩
  · rw [hsource]
    exact h.marks i
  · rw [hsource]
    refine h.certain i ?_
    rw [Corner.needed, if_neg (hnew i)] at hi
    rw [Corner.needed, if_pos (hold i)]
    exact Nat.le_of_succ_le_succ hi

/-- The next cell is written. -/
theorem Keeps.write (h : Keeps fuel d s) {cells : List (Fin 8)} (hc : s.cells = j :: cells) :
    ∃ s', turn fuel .call s = some ((), s') ∧ Keeps fuel d s' := by
  obtain ⟨m, hwatch, hdisplays⟩ :=
    h.displays.next (e := .mark j (face s.timeArray j)) trivial
  let s' : Corner := { s with
    console := m
    transcript := s.transcript.next 0 (.mark j (face s.timeArray j))
    cells := cells }
  have hnext : turn fuel .call s = some ((), s') := by
    unfold turn
    dsimp only
    rw [hc]
    dsimp only
    rw [hwatch]
    rfl
  have hnodup : (j :: cells).Nodup := hc ▸ h.nodup
  have hread := h.reading (by rw [hc]; exact List.cons_ne_nil _ _)
  have hface : face s.timeArray j = glyph d s.last j := hread j
  have hmark : s'.transcript.sheet.marks j = glyph d (s'.source j) j := by
    have hw : s'.Written j := (List.nodup_cons.1 hnodup).1
    rw [Corner.source, if_pos hw]
    exact (Function.update_self _ _ _).trans hface
  have hother : ∀ i, i ≠ j → (s'.Written i ↔ s.Written i) ∧
      s'.transcript.sheet.marks i = s.transcript.sheet.marks i := by
    intro i hi
    refine ⟨?_, Function.update_of_ne hi _ _⟩
    rw [Corner.Written, Corner.Written, hc, List.mem_cons, or_iff_right hi]
  refine ⟨s', hnext, hdisplays, h.mode, h.enough, (List.nodup_cons.1 hnodup).2, fun _ => hread,
    fun i => ?_, fun i hi => ?_⟩
  · by_cases hij : i = j
    · exact hij ▸ Or.inr hmark
    · obtain ⟨hw, hm⟩ := hother i hij
      rw [hm, source_congr hw rfl rfl]
      exact h.marks i
  · by_cases hij : i = j
    · exact hij ▸ hmark
    · obtain ⟨hw, hm⟩ := hother i hij
      rw [needed_congr hw] at hi
      rw [hm, source_congr hw rfl rfl]
      exact h.certain i hi

/-! ### Runs -/

/-- The corner is blank at the start. -/
theorem keeps_start (h : d.busy.length < fuel) (stack : List UInt8) :
    Keeps fuel d (.start d stack) where
  displays := displays_start
  mode := rfl
  enough := h
  nodup := List.nodup_nil
  reading hc := absurd rfl hc
  marks _ := Or.inl rfl
  certain _ hi := absurd hi (Nat.not_le.2 (needed_pos _ _))

/-- A clock of a PC, at eight and at work on it. -/
def morning : Clock := ⟨0, ⟨Fin.ofNat 24 8, Fin.ofNat 60 0, Fin.ofNat 60 7⟩, 2, [0x26, 0x11]⟩

/-- A second goes by and a key comes within a round; the screen is cleared within the next. -/
def hurry : List Moment :=
  List.replicate 5 .call ++
    [.time ⟨Fin.ofNat 24 8, Fin.ofNat 60 0, Fin.ofNat 60 8⟩ [0], .other (.key 0x1E)] ++
    List.replicate 7 .call ++ [.other .clear] ++ List.replicate 3 .call

end Screen
end Jatos
