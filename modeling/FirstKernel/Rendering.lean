import Mathlib.Data.List.GetD
import FirstKernel.KernelLog
import FirstKernel.Pixels
import FirstKernel.Terminal

/-!
# The screen renders a terminal

The frame buffer is the picture of a terminal of 37 rows of 50 cells, and
the cursor of the driver is the terminal's (`Renders`). Each character
printed does to the picture what it does to the cells, so the same holds
after any sequence of calls. That every cell from the cursor on is blank,
and the strip below the last row black, is what keeps scrolling exact.

What a cell holds is a parameter (`Cells`): all that the driver needs is
that it has a picture.
-/

namespace FirstKernel

/-- What the cells of a terminal may hold, and what it looks like. -/
structure Cells (α : Type) where
  blank : α
  glyph : UInt8 → UInt32 → α
  picture : α → Picture
  picture_blank : picture blank = black
  picture_glyph : ∀ c color, picture (glyph c color) = charPicture c color

variable {α : Type}

namespace Cells

/-- The pictures of the cells, of which the first ones are shown. -/
def pictures (v : Cells α) (shown : List α) (n : Nat) : Picture :=
  v.picture (shown.getD n v.blank)

theorem pictures_of_le (v : Cells α) {shown : List α} {n : Nat} (h : shown.length ≤ n) :
    v.pictures shown n = black := by
  rw [pictures, List.getD_eq_default _ _ h]
  exact v.picture_blank

theorem pictures_append_singleton (v : Cells α) (shown : List α) (a : α) :
    v.pictures (shown ++ [a]) =
      Function.update (v.pictures shown) shown.length (v.picture a) := by
  funext n
  rcases Nat.lt_trichotomy n shown.length with hlt | heq | hgt
  · rw [Function.update_of_ne (Nat.ne_of_lt hlt), pictures, pictures,
      List.getD_append _ _ _ _ hlt]
  · subst heq
    rw [Function.update_self, pictures, List.getD_append_right _ _ _ _ (Nat.le_refl _)]
    simp
  · rw [Function.update_of_ne (Nat.ne_of_gt hgt), v.pictures_of_le (Nat.le_of_lt hgt),
      v.pictures_of_le (by rw [List.length_append]; exact hgt)]

theorem pictures_append_blanks (v : Cells α) (shown : List α) (k : Nat) :
    v.pictures (shown ++ List.replicate k v.blank) = v.pictures shown := by
  funext n
  rcases Nat.lt_or_ge n shown.length with hlt | hge
  · rw [pictures, pictures, List.getD_append _ _ _ _ hlt]
  · rw [v.pictures_of_le hge, pictures, List.getD_append_right _ _ _ _ hge,
      List.getD_eq_getElem?_getD, List.getElem?_getD_replicate_default_eq]
    exact v.picture_blank

theorem pictures_dropLast (v : Cells α) (shown : List α) :
    v.pictures shown.dropLast = Function.update (v.pictures shown) (shown.length - 1) black := by
  funext n
  rcases Nat.lt_or_ge n (shown.length - 1) with hlt | hge
  · rw [Function.update_of_ne (Nat.ne_of_lt hlt), pictures, pictures,
      List.getD_eq_getElem?_getD, List.getD_eq_getElem?_getD, List.getElem?_dropLast,
      if_pos hlt]
  · rw [v.pictures_of_le (by rw [List.length_dropLast]; exact hge)]
    by_cases hn : n = shown.length - 1
    · rw [hn, Function.update_self]
    · rw [Function.update_of_ne hn, v.pictures_of_le (by omega)]

theorem pictures_drop (v : Cells α) (shown : List α) (k : Nat) :
    v.pictures (shown.drop k) = fun n => v.pictures shown (n + k) := by
  funext n
  rw [pictures, pictures, List.getD_eq_getElem?_getD, List.getD_eq_getElem?_getD,
    List.getElem?_drop, Nat.add_comm]

end Cells

/-- The screen shows the pictures of the cells, and the cursor is where they end. That
may be below the last row, as it is before the screen scrolls. -/
structure Renders (v : Cells α) (mem : FrameBuffer) (s : Screen) (shown : List α) : Prop where
  vgaNull_eq : s.vgaNull = false
  row_eq : s.currentRow = Int32.ofNat (shown.length / 50)
  col_eq : s.currentCol = Int32.ofNat (shown.length % 50)
  mem_eq : s.vgaMem = framebuffer (v.pictures shown) mem
  le : shown.length ≤ 1850

theorem clearScreen_eq {s : Screen} (hvga : s.vgaNull = false) :
    clearScreen s = { s with
      vgaMem := fun i => if i < 800 * 600 * 3 then 0 else s.vgaMem i
      currentCol := 0
      currentRow := 0 } :=
  if_neg (Bool.eq_false_iff.mp hvga)

theorem scrollScreen_eq {s : Screen} (hvga : s.vgaNull = false) :
    scrollScreen s = { s with
      vgaMem := fun i =>
        if i < 600 * 2400 - 38400 then s.vgaMem (i + 38400)
        else if i < 600 * 2400 then 0
        else s.vgaMem i
      currentRow := 36
      currentCol := 0 } :=
  if_neg (Bool.eq_false_iff.mp hvga)

/-! ## Drawing a cell -/

theorem ofNat_mul_sixteen (n : Nat) : Int32.ofNat n * 16 = Int32.ofNat (n * 16) :=
  (Int32.ofNat_mul n 16).symm

/-- A character is drawn into a cell that is black, so nothing remains below it. -/
theorem drawCharGraphic_framebuffer (c : UInt8) (color : UInt32) {row col : Nat} (hrow : row < 37)
    (hcol : col < 50) {pictures : Nat → Picture} (hblack : pictures (row * 50 + col) = black)
    (mem : FrameBuffer) :
    drawCharGraphic c (Int32.ofNat col * 16) (Int32.ofNat row * 16) color
        (framebuffer pictures mem) =
      framebuffer (Function.update pictures (row * 50 + col) (charPicture c color)) mem := by
  by_cases hc : charValue c < 32 ∨ 127 < charValue c
  · rw [drawCharGraphic, if_pos hc, charPicture_undrawn hc, ← hblack, Function.update_eq_self]
    rfl
  · rw [ofNat_mul_sixteen, ofNat_mul_sixteen]
    exact (drawCharGraphic_paints hc (by omega) (by omega) color).framebuffer_eq hrow hcol
      pictures mem

theorem drawRectangle_framebuffer {row col : Nat} (hrow : row < 37) (hcol : col < 50)
    (pictures : Nat → Picture) (mem : FrameBuffer) :
    drawRectangle (Int32.ofNat col * 16) (Int32.ofNat row * 16) 16 16 0
        (framebuffer pictures mem) =
      framebuffer (Function.update pictures (row * 50 + col) black) mem := by
  rw [ofNat_mul_sixteen, ofNat_mul_sixteen]
  have hpaints := drawRectangle_paints (col * 16) (row * 16) 16 16 (by omega) (by omega) 0
  refine Paints.framebuffer_eq hrow hcol (hpaints.of_eqOn fun i _ => ?_) pictures mem
  exact component_zero (i % 3)

/-! ## Printing -/

namespace Renders

variable {v : Cells α} {mem : FrameBuffer} {s : Screen} {shown : List α}

theorem logChar (h : Renders v mem s shown) (c : UInt8) :
    Renders v mem (logChar c { s with emitted := s.emitted ++ [c] }) shown := by
  unfold FirstKernel.logChar
  split <;> exact ⟨h.vgaNull_eq, h.row_eq, h.col_eq, h.mem_eq, h.le⟩

/-- The end of the line has blanks up to the next row. -/
theorem newline (h : Renders v mem s shown) (hlt : shown.length < 1850) :
    Renders v mem { s with currentRow := s.currentRow + 1, currentCol := 0 }
      (shown ++ List.replicate (50 - shown.length % 50) v.blank) := by
  have hlen : (shown ++ List.replicate (50 - shown.length % 50) v.blank).length =
      (shown.length / 50 + 1) * 50 := by
    rw [List.length_append, List.length_replicate]
    omega
  refine ⟨h.vgaNull_eq, ?_, ?_, ?_, ?_⟩
  · rw [hlen, Nat.mul_div_cancel _ (by decide), Int32.ofNat_add, ← h.row_eq]
    rfl
  · rw [hlen, Nat.mul_mod_left]
    rfl
  · rw [v.pictures_append_blanks]
    exact h.mem_eq
  · rw [hlen]
    omega

/-- A glyph takes the cell at the cursor, which moves on. -/
theorem glyph (h : Renders v mem s shown) (hlt : shown.length < 1850) {c : UInt8}
    (hnl : c ≠ 0x0A) (hbs : c ≠ 0x08) :
    Renders v mem (placeChar c s) (shown ++ [v.glyph c s.currentColor]) := by
  have hlen : (shown ++ [v.glyph c s.currentColor]).length = shown.length + 1 := by
    rw [List.length_append]
    rfl
  have hcursor : shown.length / 50 * 50 + shown.length % 50 = shown.length := by omega
  have hmem : drawCharGraphic c (s.currentCol * 16) (s.currentRow * 16) s.currentColor s.vgaMem =
      framebuffer (v.pictures (shown ++ [v.glyph c s.currentColor])) mem := by
    have hblack : v.pictures shown (shown.length / 50 * 50 + shown.length % 50) = black :=
      v.pictures_of_le (Nat.le_of_eq hcursor.symm)
    rw [h.mem_eq, h.row_eq, h.col_eq, drawCharGraphic_framebuffer c s.currentColor (by omega)
      (by omega) hblack, hcursor, v.pictures_append_singleton, v.picture_glyph]
  have hnext : s.currentCol + 1 = Int32.ofNat (shown.length % 50 + 1) := by
    rw [h.col_eq, Int32.ofNat_add]
    rfl
  have hwrap : 50 ≤ s.currentCol + 1 ↔ 50 ≤ shown.length % 50 + 1 := by
    rw [hnext]
    exact Int32.ofNat_le_iff_le (by decide) (by omega)
  rw [placeChar, if_neg hnl, if_neg hbs]
  by_cases hfull : 50 ≤ shown.length % 50 + 1
  · rw [if_pos (hwrap.mpr hfull)]
    refine ⟨h.vgaNull_eq, ?_, ?_, hmem, by omega⟩
    · have hrow : (shown.length + 1) / 50 = shown.length / 50 + 1 := by omega
      rw [hlen, hrow, Int32.ofNat_add, ← h.row_eq]
      rfl
    · have hcol : (shown.length + 1) % 50 = 0 := by omega
      rw [hlen, hcol]
      rfl
  · rw [if_neg fun hle => hfull (hwrap.mp hle)]
    refine ⟨h.vgaNull_eq, ?_, ?_, hmem, by omega⟩
    · have hrow : (shown.length + 1) / 50 = shown.length / 50 := by omega
      rw [hlen, hrow]
      exact h.row_eq
    · have hcol : (shown.length + 1) % 50 = shown.length % 50 + 1 := by omega
      rw [hlen, hcol]
      exact hnext

end Renders

/-- The cursor of `backspace_on_screen`, which then blanks the cell there. -/
def stepBack (s : Screen) : Screen :=
  if 0 < s.currentCol then { s with currentCol := s.currentCol - 1 }
  else if 0 < s.currentRow then { s with currentRow := s.currentRow - 1, currentCol := 49 }
  else s

theorem stepBack_cursor {s : Screen} {n : Nat} (hn : n < 1850)
    (hrow : s.currentRow = Int32.ofNat (n / 50)) (hcol : s.currentCol = Int32.ofNat (n % 50)) :
    (stepBack s).currentRow = Int32.ofNat ((n - 1) / 50) ∧
      (stepBack s).currentCol = Int32.ofNat ((n - 1) % 50) := by
  have hpos : ∀ {k : Nat}, k < 1850 → (0 < Int32.ofNat k ↔ 0 < k) := fun hk =>
    Int32.ofNat_lt_iff_lt (by decide) (by omega)
  unfold stepBack
  by_cases hcol0 : 0 < n % 50
  · rw [if_pos (by rw [hcol]; exact (hpos (by omega)).mpr hcol0)]
    have hrow1 : (n - 1) / 50 = n / 50 := by omega
    have hcol1 : (n - 1) % 50 = n % 50 - 1 := by omega
    rw [hrow1, hcol1, Int32.ofNat_sub _ _ hcol0, ← hcol]
    exact ⟨hrow, rfl⟩
  · rw [if_neg (by rw [hcol]; exact fun h => hcol0 ((hpos (by omega)).mp h))]
    by_cases hrow0 : 0 < n / 50
    · rw [if_pos (by rw [hrow]; exact (hpos (by omega)).mpr hrow0)]
      have hrow1 : (n - 1) / 50 = n / 50 - 1 := by omega
      have hcol1 : (n - 1) % 50 = 49 := by omega
      rw [hrow1, hcol1, Int32.ofNat_sub _ _ hrow0, ← hrow]
      exact ⟨rfl, rfl⟩
    · rw [if_neg (by rw [hrow]; exact fun h => hrow0 ((hpos (by omega)).mp h))]
      have hzero : n - 1 = n := by omega
      rw [hzero]
      exact ⟨hrow, hcol⟩

theorem stepBack_frame (s : Screen) :
    (stepBack s).vgaMem = s.vgaMem ∧ (stepBack s).vgaNull = s.vgaNull ∧
      (stepBack s).currentColor = s.currentColor := by
  unfold stepBack
  split
  · exact ⟨rfl, rfl, rfl⟩
  · split <;> exact ⟨rfl, rfl, rfl⟩

namespace Renders

variable {v : Cells α} {mem : FrameBuffer} {s : Screen} {shown : List α}

theorem backspace (h : Renders v mem s shown) (hlt : shown.length < 1850) :
    Renders v mem (backspaceOnScreen s) shown.dropLast := by
  obtain ⟨hrow, hcol⟩ := stepBack_cursor hlt h.row_eq h.col_eq
  obtain ⟨hmem, hnull, -⟩ := stepBack_frame s
  have hcursor : (shown.length - 1) / 50 * 50 + (shown.length - 1) % 50 = shown.length - 1 := by
    omega
  show Renders v mem { stepBack s with
    vgaMem := drawRectangle ((stepBack s).currentCol * 16) ((stepBack s).currentRow * 16) 16 16 0
      (stepBack s).vgaMem } shown.dropLast
  refine ⟨hnull.trans h.vgaNull_eq, ?_, ?_, ?_, ?_⟩
  · rw [List.length_dropLast]
    exact hrow
  · rw [List.length_dropLast]
    exact hcol
  · show drawRectangle _ _ 16 16 0 (stepBack s).vgaMem = _
    rw [hmem, h.mem_eq, hrow, hcol, drawRectangle_framebuffer (by omega) (by omega), hcursor,
      v.pictures_dropLast]
  · rw [List.length_dropLast]
    omega

/-- The screen scrolls when the cursor has left it. -/
theorem scroll (h : Renders v mem s shown) :
    Renders v mem (if 37 ≤ s.currentRow then scrollScreen s else s)
      (Terminal.scrolled 37 50 shown) := by
  have hle := h.le
  have hout : 37 ≤ s.currentRow ↔ 37 ≤ shown.length / 50 := by
    rw [h.row_eq]
    exact Int32.ofNat_le_iff_le (by decide) (by omega)
  by_cases hfull : shown.length = 1850
  · have hdrop : (shown.drop 50).length = 1800 := by
      rw [List.length_drop, hfull]
    rw [if_pos (hout.mpr (by omega)), scrollScreen_eq h.vgaNull_eq, Terminal.scrolled,
      if_pos hfull]
    refine ⟨h.vgaNull_eq, ?_, ?_, ?_, by omega⟩
    · rw [hdrop]
      rfl
    · rw [hdrop]
      rfl
    · show (fun i => if i < 600 * 2400 - 38400 then s.vgaMem (i + 38400)
        else if i < 600 * 2400 then 0 else s.vgaMem i) = _
      rw [v.pictures_drop, h.mem_eq, scroll_framebuffer fun n hn =>
        v.pictures_of_le (hfull.trans_le hn)]
  · rw [if_neg fun h37 => by have := hout.mp h37; omega, Terminal.scrolled, if_neg hfull]
    exact h

end Renders

theorem logChar_currentColor (c : UInt8) (s : Screen) :
    (logChar c { s with emitted := s.emitted ++ [c] }).currentColor = s.currentColor := by
  unfold logChar
  split <;> rfl

/-- What printing a character does to the terminal. -/
def Terminal.type (v : Cells α) (color : UInt32) (c : UInt8) (t : Terminal α 37 50) :
    Terminal α 37 50 :=
  if c = 0x0A then t.newline v.blank
  else if c = 0x08 then t.backspace
  else t.put (v.glyph c color)

/-- **Step lemma.** A character printed is a character typed. -/
theorem renders_printChar {v : Cells α} {mem : FrameBuffer} {s : Screen} {t : Terminal α 37 50}
    (h : Renders v mem s t.shown) (c : UInt8) :
    Renders v mem (printChar c s) (t.type v s.currentColor c).shown := by
  have hlog := h.logChar c
  have hcolor := logChar_currentColor c s
  rw [printChar, Terminal.type]
  generalize logChar c { s with emitted := s.emitted ++ [c] } = s1 at hlog hcolor
  by_cases hnl : c = 0x0A
  · rw [if_pos hnl, placeChar, if_pos hnl]
    exact (hlog.newline t.fits).scroll
  · by_cases hbs : c = 0x08
    · rw [if_neg hnl, if_pos hbs, placeChar, if_neg hnl, if_pos hbs]
      have hscroll := (hlog.backspace t.fits).scroll
      rw [Terminal.scrolled, if_neg (Nat.ne_of_lt t.backspace_fits)] at hscroll
      exact hscroll
    · rw [if_neg hnl, if_neg hbs, ← hcolor]
      exact (hlog.glyph t.fits hnl hbs).scroll

theorem placeChar_currentColor (c : UInt8) (s : Screen) :
    (placeChar c s).currentColor = s.currentColor := by
  unfold placeChar
  split
  · rfl
  · split
    · exact (stepBack_frame s).2.2
    · split <;> rfl

theorem printChar_currentColor (c : UInt8) (s : Screen) :
    (printChar c s).currentColor = s.currentColor := by
  have hscroll : ∀ s : Screen, (scrollScreen s).currentColor = s.currentColor := by
    intro s
    unfold scrollScreen
    split <;> rfl
  have hplace := (placeChar_currentColor c _).trans (logChar_currentColor c s)
  rw [printChar]
  split
  · exact (hscroll _).trans hplace
  · exact hplace

/-! ## Calls -/

/-- What a cell of the console holds: nothing, or a character in the colour that was
current when it was printed. -/
inductive Cell where
  | blank
  | char (c : UInt8) (color : UInt32)
deriving DecidableEq

def Cell.picture : Cell → Picture
  | .blank => black
  | .char c color => charPicture c color

def charCells : Cells Cell := ⟨.blank, .char, Cell.picture, rfl, fun _ _ => rfl⟩

inductive ScreenCall where
  | printChar (c : UInt8)
  | setColor (color : UInt32)
  | clearScreen

def ScreenCall.exec : ScreenCall → Screen → Screen
  | .printChar c => FirstKernel.printChar c
  | .setColor color => FirstKernel.setColor color
  | .clearScreen => FirstKernel.clearScreen

/-- A terminal and the colour that it is written in. -/
structure Console where
  terminal : Terminal Cell 37 50
  color : UInt32

theorem terminal_pos : 0 < 37 * 50 := by decide

namespace Console

def exec : ScreenCall → Console → Console
  | .printChar c, t => { t with terminal := t.terminal.type charCells t.color c }
  | .setColor new, t => { t with color := new }
  | .clearScreen, t => { t with terminal := .clear terminal_pos }

/-- A console that has just been cleared. -/
def cleared (color : UInt32) : Console := ⟨.clear terminal_pos, color⟩

end Console

def execCalls (calls : List ScreenCall) (s : Screen) : Screen :=
  calls.foldl (fun s call => call.exec s) s

def Console.execCalls (calls : List ScreenCall) (t : Console) : Console :=
  calls.foldl (fun t call => t.exec call) t

/-- The cell of the screen, in row-major order, that a byte belongs to. -/
def cellAt (i : Nat) : Nat := i / 3 / 800 / 16 * 50 + i / 3 % 800 / 16

/-- The cell at the cursor. -/
def cursor (s : Screen) : Nat := s.currentRow.toNatClampNeg * 50 + s.currentCol.toNatClampNeg

/-- The cursor is on the screen, and all from it on is black. -/
structure ClearAhead (s : Screen) : Prop where
  col_range : 0 ≤ s.currentCol ∧ s.currentCol < 50
  row_range : 0 ≤ s.currentRow ∧ s.currentRow < 37
  black_after : ∀ i < 592 * 2400, cursor s ≤ cellAt i → s.vgaMem i = 0
  black_below : ∀ i, 592 * 2400 ≤ i → i < 600 * 2400 → s.vgaMem i = 0

/-- The screen shows the terminal, and has not written outside of it. -/
structure Shows (s : Screen) (t : Terminal Cell 37 50) (mem : FrameBuffer) : Prop
    extends ClearAhead s where
  cursor_eq : s.currentRow = Int32.ofNat t.row ∧ s.currentCol = Int32.ofNat t.col
  mem_eq : s.vgaMem = framebuffer (fun n => (t.cell .blank n).picture) mem
  outside : ∀ i, 600 * 2400 ≤ i → s.vgaMem i = mem i

theorem Renders.cursor_eq {v : Cells α} {mem : FrameBuffer} {s : Screen} {shown : List α}
    (h : Renders v mem s shown) : cursor s = shown.length := by
  have hle := h.le
  rw [cursor, h.row_eq, h.col_eq, Int32.toNatClampNeg_ofNat_of_lt (by omega),
    Int32.toNatClampNeg_ofNat_of_lt (by omega)]
  omega

theorem Renders.clearAhead {v : Cells α} {mem : FrameBuffer} {s : Screen} {t : Terminal α 37 50}
    (h : Renders v mem s t.shown) : ClearAhead s := by
  have hrow := t.row_lt
  have hcol := t.col_lt
  have hrow_eq : s.currentRow = Int32.ofNat t.row := h.row_eq
  have hcol_eq : s.currentCol = Int32.ofNat t.col := h.col_eq
  refine ⟨?_, ?_, fun i hi hle => ?_, fun i hge hlt => ?_⟩
  · rw [hcol_eq]
    exact ⟨Int32.zero_le_ofNat_of_lt (by omega),
      (Int32.ofNat_lt_iff_lt (by omega) (by decide)).mpr hcol⟩
  · rw [hrow_eq]
    exact ⟨Int32.zero_le_ofNat_of_lt (by omega),
      (Int32.ofNat_lt_iff_lt (by omega) (by decide)).mpr hrow⟩
  · rw [h.cursor_eq] at hle
    rw [h.mem_eq, framebuffer, if_pos hi]
    show v.pictures t.shown (cellAt i) _ _ _ = 0
    rw [v.pictures_of_le hle]
    rfl
  · rw [h.mem_eq, framebuffer, if_neg (by omega), if_pos hlt]

theorem Renders.shows {mem : FrameBuffer} {s : Screen} {t : Terminal Cell 37 50}
    (h : Renders charCells mem s t.shown) : Shows s t mem where
  toClearAhead := h.clearAhead
  cursor_eq := ⟨h.row_eq, h.col_eq⟩
  mem_eq := h.mem_eq
  outside i hi := by
    rw [h.mem_eq, framebuffer, if_neg (by omega), if_neg (by omega)]

/-- A cleared screen renders a cleared terminal. -/
theorem renders_clearScreen (v : Cells α) {s : Screen} (hvga : s.vgaNull = false) :
    Renders v s.vgaMem (clearScreen s) [] := by
  rw [clearScreen_eq hvga]
  refine ⟨hvga, ?_, ?_, ?_, Nat.zero_le _⟩
  · rw [List.length_nil]
    rfl
  · rw [List.length_nil]
    rfl
  show (fun i => if i < 800 * 600 * 3 then 0 else s.vgaMem i) = _
  rw [clear_framebuffer]
  exact congrArg (fun pictures => framebuffer pictures s.vgaMem)
    (funext fun n => (v.pictures_of_le (Nat.zero_le n)).symm)

/-- The run lemma: the colour is the console's, and what was off the screen stays. -/
theorem renders_execCalls {mem : FrameBuffer} : ∀ (calls : List ScreenCall) {s : Screen}
    {t : Console}, Renders charCells mem s t.terminal.shown → s.currentColor = t.color →
    Renders charCells mem (execCalls calls s) (t.execCalls calls).terminal.shown
  | [], _, _, h, _ => h
  | .printChar c :: calls, s, t, h, hcolor => by
      have hstep := renders_printChar h c
      rw [hcolor] at hstep
      exact renders_execCalls calls (t := t.exec (.printChar c)) hstep
        ((printChar_currentColor c s).trans hcolor)
  | .setColor _ :: calls, _, _, h, _ =>
      renders_execCalls calls ⟨h.vgaNull_eq, h.row_eq, h.col_eq, h.mem_eq, h.le⟩ rfl
  | .clearScreen :: calls, s, t, h, hcolor => by
      have hclear := renders_clearScreen charCells h.vgaNull_eq
      have hmem : framebuffer (charCells.pictures []) s.vgaMem =
          framebuffer (charCells.pictures []) mem := by
        rw [h.mem_eq]
        exact framebuffer_framebuffer _ _ mem
      refine renders_execCalls calls (s := clearScreen s) (t := Console.exec .clearScreen t)
        ⟨hclear.vgaNull_eq, hclear.row_eq, hclear.col_eq, hclear.mem_eq.trans hmem, hclear.le⟩ ?_
      rw [clearScreen_eq h.vgaNull_eq]
      exact hcolor

/-- **The frame buffer renders a terminal.** After any sequence of calls on a cleared
screen the frame buffer is the picture of the terminal that they were made on, and a pixel
is never stored out of range. -/
theorem shows_execCalls {s : Screen} (hvga : s.vgaNull = false) (calls : List ScreenCall) :
    (∀ x y : Int32, 0 ≤ x → x < 800 → 0 ≤ y → y < 600 →
      0 ≤ (pixelOffset x y).toInt ∧ (pixelOffset x y).toInt + 2 < 1440000) ∧
    Shows (execCalls calls (clearScreen s))
      ((Console.cleared s.currentColor).execCalls calls).terminal s.vgaMem := by
  have hcolor : (clearScreen s).currentColor = s.currentColor := by
    rw [clearScreen_eq hvga]
  have hclear : Renders charCells s.vgaMem (clearScreen s)
      (Console.cleared s.currentColor).terminal.shown := renders_clearScreen charCells hvga
  exact ⟨fun _ _ hx0 hx hy0 hy => pixelOffset_inRange hx0 hx hy0 hy,
    (renders_execCalls calls hclear hcolor).shows⟩

/-- An A and the end of a line, on the screen at boot. -/
theorem shows_execCalls_boot :
    Shows (execCalls [.printChar 0x41, .printChar 0x0A] (clearScreen bootScreen))
      ((Console.cleared 0x00FFFFFF).execCalls [.printChar 0x41, .printChar 0x0A]).terminal
      fun _ => 0 :=
  (shows_execCalls (s := bootScreen) rfl [.printChar 0x41, .printChar 0x0A]).2

end FirstKernel
