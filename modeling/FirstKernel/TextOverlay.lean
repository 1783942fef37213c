import FirstKernel.MouseOverlay
import FirstKernel.Rendering

/-!
# Text and the pointer

The functions that print know nothing of the pointer, which is drawn in
the frame buffer that they draw in, nor of the pixels that the mouse has
saved. A character drawn under the pointer is gone when those are put
back, and a screen that scrolls takes the image of the pointer along. The
text and the pointer leave each other alone just when no call has an
effect on the saved pixels or on the image (`unspoiled_iff`).
-/

namespace FirstKernel

/-- The screen and the mouse, which draw in the frame buffer of the screen. -/
structure Display where
  screen : Screen
  mouse : Mouse

inductive DisplayStep where
  | text (call : ScreenCall)
  | interrupt (status data : UInt8)

namespace DisplayStep

def exec : DisplayStep → Display → Display
  | .text call, d => { d with screen := call.exec d.screen }
  | .interrupt status data, d =>
      let r := mouseHandler status data d.mouse d.screen.vgaMem
      { screen := { d.screen with vgaMem := r.2 }, mouse := r.1 }

/-- The step on a screen without a mouse. -/
def alone : DisplayStep → Screen → Screen
  | .text call, s => call.exec s
  | .interrupt _ _, s => s

end DisplayStep

/-- After each step, the screen without the pointer is the one that the text alone
has made. -/
def Unspoiled : List DisplayStep → Display → Screen → Prop
  | [], _, _ => True
  | step :: steps, d, s =>
      withoutPointer (step.exec d).mouse (step.exec d).screen.vgaMem = (step.alone s).vgaMem ∧
        Unspoiled steps (step.exec d) (step.alone s)

/-- The cursor is at the cell of the screen that has the number. -/
structure CursorAt (s : Screen) (n : Nat) : Prop where
  row_eq : s.currentRow = Int32.ofNat (n / 50)
  col_eq : s.currentCol = Int32.ofNat (n % 50)
  lt : n < 1850

/-- The pointer is drawn over the background, and what is under it is saved. -/
structure DrawnOver (background : FrameBuffer) (d : Display) : Prop
    extends OnScreen d.mouse where
  prev_x : d.mouse.prevMouseX = d.mouse.mouseX
  prev_y : d.mouse.prevMouseY = d.mouse.mouseY
  vgaNull_eq : d.screen.vgaNull = false
  cursorAt : ∃ n, CursorAt d.screen n
  saved : ∃ buffer, d.mouse.mouseBackBuffer =
    saveBackground d.mouse.mouseX d.mouse.mouseY background buffer
  drawn : ∃ fillColor, d.screen.vgaMem =
    drawMousePointer d.mouse.mouseX d.mouse.mouseY fillColor background

/-! ## What a call does -/

/-- What a character stores at a byte: in the cell at the cursor, or, for a backspace,
in the one before. -/
def inkByte (c : UInt8) (s : Screen) (i : Nat) : Option UInt8 :=
  if c = 0x0A then none
  else if c = 0x08 then if cellAt i = cursor s - 1 then some 0 else none
  else if charValue c < 32 ∨ 127 < charValue c then none
  else if cellAt i = cursor s then
    some (charPicture c s.currentColor (i / 3 / 800 % 16) (i / 3 % 800 % 16) (i % 3))
  else none

/-- The character takes the cursor off the screen. -/
def Scrolls (c : UInt8) (s : Screen) : Prop :=
  if c = 0x0A then 1800 ≤ cursor s else c ≠ 0x08 ∧ cursor s = 1849

instance (c : UInt8) (s : Screen) : Decidable (Scrolls c s) :=
  inferInstanceAs (Decidable (if c = 0x0A then 1800 ≤ cursor s else c ≠ 0x08 ∧ cursor s = 1849))

/-- The background, byte by byte: under the pointer it is what was saved. -/
def backgroundByte (d : Display) (i : Nat) : UInt8 :=
  if InBox d.mouse i then savedByte d.mouse i else d.screen.vgaMem i

/-- The character is drawn and the screen scrolls: what comes up under the pointer is
what was there, and of the pointer's image nothing is seen where it goes up. -/
structure SparedByScroll (c : UInt8) (d : Display) : Prop where
  saved : ∀ i, InBox d.mouse i → savedByte d.mouse i =
    if i < 600 * 2400 - 38400 then
      (inkByte c d.screen (i + 38400)).getD (backgroundByte d (i + 38400))
    else 0
  image : ∀ i, InBox d.mouse i → 38400 ≤ i → inkByte c d.screen i = none →
    d.screen.vgaMem i = savedByte d.mouse i

/-- The call draws under the pointer only what is there. -/
def SparesPointer : ScreenCall → Display → Prop
  | .printChar c, d =>
      if Scrolls c d.screen then SparedByScroll c d
      else ∀ i, InBox d.mouse i → ∀ b ∈ inkByte c d.screen i, b = savedByte d.mouse i
  | .setColor _, _ => True
  | .clearScreen, d => ∀ i, InBox d.mouse i → savedByte d.mouse i = 0

/-- Each call of the run spares the pointer, in the state in which it is made. -/
def EachSpares : List DisplayStep → Display → Prop
  | [], _ => True
  | .text call :: steps, d =>
      SparesPointer call d ∧ EachSpares steps ((DisplayStep.text call).exec d)
  | .interrupt status data :: steps, d =>
      EachSpares steps ((DisplayStep.interrupt status data).exec d)

/-! ## What print_char does to the frame buffer -/

theorem inRectangle_cell_iff (n i : Nat) :
    InRectangle (n % 50 * 16) (n / 50 * 16) 16 16 (i / 3) ↔ cellAt i = n := by
  unfold InRectangle cellAt
  omega

theorem CursorAt.cursor_eq {s : Screen} {n : Nat} (h : CursorAt s n) : cursor s = n := by
  have hlt := h.lt
  rw [cursor, h.row_eq, h.col_eq, Int32.toNatClampNeg_ofNat_of_lt (by omega),
    Int32.toNatClampNeg_ofNat_of_lt (by omega)]
  omega

theorem drawRectangle_cell {n : Nat} (hn : n < 1850) :
    Paints (fun i => cellAt i = n) (fun _ => 0)
      (drawRectangle (Int32.ofNat (n % 50) * 16) (Int32.ofNat (n / 50) * 16) 16 16 0) := by
  rw [ofNat_mul_sixteen, ofNat_mul_sixteen]
  have hpaints := drawRectangle_paints (n % 50 * 16) (n / 50 * 16) 16 16 (by omega) (by omega) 0
  exact (hpaints.of_eqOn fun i _ => component_zero (i % 3)).of_iff (inRectangle_cell_iff n)

theorem drawCharGraphic_cell {c : UInt8} (hc : ¬(charValue c < 32 ∨ 127 < charValue c)) {n : Nat}
    (hn : n < 1850) (color : UInt32) :
    Paints (fun i => cellAt i = n)
      (fun i => charPicture c color (i / 3 / 800 % 16) (i / 3 % 800 % 16) (i % 3))
      (drawCharGraphic c (Int32.ofNat (n % 50) * 16) (Int32.ofNat (n / 50) * 16) color) := by
  rw [ofNat_mul_sixteen, ofNat_mul_sixteen]
  refine ((drawCharGraphic_paints hc (by omega) (by omega) color).of_eqOn fun i hi => ?_).of_iff
    (inRectangle_cell_iff n)
  unfold InRectangle at hi
  have hrow : i / 3 / 800 - n / 50 * 16 = i / 3 / 800 % 16 := by omega
  have hcol : i / 3 % 800 - n % 50 * 16 = i / 3 % 800 % 16 := by omega
  rw [hrow, hcol]

/-- A region painted, byte by byte. -/
theorem Paints.apply_eq {region : Nat → Prop} {picture : Nat → UInt8}
    {draw : FrameBuffer → FrameBuffer} (h : Paints region picture draw) (mem : FrameBuffer)
    (i : Nat) [Decidable (region i)] :
    draw mem i = (if region i then some (picture i) else none).getD (mem i) := by
  by_cases hi : region i
  · rw [if_pos hi]
    exact (h mem i).1 hi
  · rw [if_neg hi]
    exact (h mem i).2 hi

theorem placeChar_vgaMem {s : Screen} {n : Nat} (h : CursorAt s n) (c : UInt8) (i : Nat) :
    (placeChar c s).vgaMem i = (inkByte c s i).getD (s.vgaMem i) := by
  have hlt := h.lt
  rw [placeChar, inkByte, h.cursor_eq]
  by_cases hnl : c = 0x0A
  · rw [if_pos hnl, if_pos hnl, Option.getD_none]
  · rw [if_neg hnl, if_neg hnl]
    by_cases hbs : c = 0x08
    · obtain ⟨hrow, hcol⟩ := stepBack_cursor hlt h.row_eq h.col_eq
      have hblank := (drawRectangle_cell (n := n - 1) (by omega)).apply_eq (stepBack s).vgaMem i
      rw [← hrow, ← hcol, (stepBack_frame s).1] at hblank
      rw [if_pos hbs, if_pos hbs, ← hblank, ← (stepBack_frame s).1]
      rfl
    · rw [if_neg hbs, if_neg hbs]
      have hglyph : drawCharGraphic c (s.currentCol * 16) (s.currentRow * 16) s.currentColor
          s.vgaMem i = (if charValue c < 32 ∨ 127 < charValue c then none
            else if cellAt i = n then
              some (charPicture c s.currentColor (i / 3 / 800 % 16) (i / 3 % 800 % 16) (i % 3))
            else none).getD (s.vgaMem i) := by
        by_cases hc : charValue c < 32 ∨ 127 < charValue c
        · rw [if_pos hc, drawCharGraphic, if_pos hc]
          rfl
        · rw [if_neg hc, h.row_eq, h.col_eq]
          exact (drawCharGraphic_cell hc hlt s.currentColor).apply_eq s.vgaMem i
      rw [← hglyph]
      split <;> rfl

theorem placeChar_row_le {s : Screen} {n : Nat} (h : CursorAt s n) (c : UInt8) :
    37 ≤ (placeChar c s).currentRow ↔ Scrolls c s := by
  have hlt := h.lt
  have hrow : ∀ k < 38, (37 ≤ Int32.ofNat k ↔ 37 ≤ k) := fun k hk =>
    Int32.ofNat_le_iff_le (by decide) (by omega)
  have hnext : s.currentRow + 1 = Int32.ofNat (n / 50 + 1) := by
    rw [h.row_eq, Int32.ofNat_add]
    rfl
  unfold placeChar Scrolls
  rw [h.cursor_eq]
  by_cases hnl : c = 0x0A
  · rw [if_pos hnl, if_pos hnl]
    simp only [hnext]
    rw [hrow _ (by omega)]
    omega
  · rw [if_neg hnl, if_neg hnl]
    by_cases hbs : c = 0x08
    · obtain ⟨hback, -⟩ := stepBack_cursor hlt h.row_eq h.col_eq
      have hplaced : (backspaceOnScreen s).currentRow = Int32.ofNat ((n - 1) / 50) := hback
      rw [if_pos hbs, hplaced, hrow _ (by omega)]
      refine iff_of_false (by omega) fun hscrolls => hscrolls.1 hbs
    · have hcol : s.currentCol + 1 = Int32.ofNat (n % 50 + 1) := by
        rw [h.col_eq, Int32.ofNat_add]
        rfl
      have hfull : 50 ≤ s.currentCol + 1 ↔ 50 ≤ n % 50 + 1 := by
        rw [hcol]
        exact Int32.ofNat_le_iff_le (by decide) (by omega)
      rw [if_neg hbs]
      simp only [hfull, ne_eq, hbs, not_false_eq_true, true_and]
      split
      · simp only [hnext]
        rw [hrow _ (by omega)]
        omega
      · simp only [h.row_eq]
        rw [hrow _ (by omega)]
        omega

theorem logged_cursorAt {s : Screen} {n : Nat} (h : CursorAt s n) (c : UInt8) :
    CursorAt (logChar c { s with emitted := s.emitted ++ [c] }) n := by
  unfold logChar
  split <;> exact ⟨h.row_eq, h.col_eq, h.lt⟩

/-- Taking the log along changes nothing that is drawn with. -/
theorem logged_frame (c : UInt8) (s : Screen) :
    let s' := logChar c { s with emitted := s.emitted ++ [c] }
    s'.vgaMem = s.vgaMem ∧ s'.vgaNull = s.vgaNull ∧ inkByte c s' = inkByte c s ∧
      (Scrolls c s' ↔ Scrolls c s) := by
  unfold logChar
  split <;> exact ⟨rfl, rfl, rfl, Iff.rfl⟩

theorem placeChar_vgaNull (c : UInt8) (s : Screen) : (placeChar c s).vgaNull = s.vgaNull := by
  unfold placeChar
  split
  · rfl
  · split
    · exact (stepBack_frame s).2.1
    · split <;> rfl

theorem inkByte_of_le {c : UInt8} {s : Screen} {n i : Nat} (h : CursorAt s n)
    (hi : 600 * 2400 ≤ i) : inkByte c s i = none := by
  have hlt := h.lt
  have hcell : 1850 ≤ cellAt i := by
    unfold cellAt
    omega
  have hpast : ¬cellAt i = n - 1 := by omega
  have hpast' : ¬cellAt i = n := by omega
  simp [inkByte, h.cursor_eq, hpast, hpast']

/-- **The frame buffer after a character**: what it draws, and scrolled if it is at the
end of the screen. -/
theorem printChar_vgaMem {s : Screen} {n : Nat} (h : CursorAt s n) (hvga : s.vgaNull = false)
    (c : UInt8) (i : Nat) :
    (printChar c s).vgaMem i =
      if Scrolls c s then
        if i < 600 * 2400 - 38400 then (inkByte c s (i + 38400)).getD (s.vgaMem (i + 38400))
        else if i < 600 * 2400 then 0
        else s.vgaMem i
      else (inkByte c s i).getD (s.vgaMem i) := by
  have hlogged := logged_cursorAt h c
  obtain ⟨hmem, hnull, hink, hscrolls⟩ := logged_frame c s
  unfold printChar
  generalize logChar c { s with emitted := s.emitted ++ [c] } = s' at *
  have hplaced : ∀ i, (placeChar c s').vgaMem i = (inkByte c s i).getD (s.vgaMem i) := by
    intro i
    rw [placeChar_vgaMem hlogged, hink, hmem]
  simp only [placeChar_row_le hlogged, hscrolls]
  by_cases hfull : Scrolls c s
  · rw [if_pos hfull, if_pos hfull,
      scrollScreen_eq ((placeChar_vgaNull c s').trans (hnull.trans hvga))]
    simp only [hplaced]
    by_cases hi : i < 600 * 2400
    · simp only [if_pos hi]
    · rw [if_neg (by omega), if_neg hi, if_neg (by omega), if_neg hi,
        inkByte_of_le h (Nat.not_lt.mp hi), Option.getD_none]
  · rw [if_neg hfull, if_neg hfull]
    exact hplaced i

/-! ## The text does not look at the frame buffer -/

/-- The screens differ in the frame buffer only. -/
def SameText (s t : Screen) : Prop := t = { s with vgaMem := t.vgaMem }

namespace SameText

variable {s t : Screen}

theorem backspaceOnScreen (h : SameText s t) :
    SameText (backspaceOnScreen s) (backspaceOnScreen t) := by
  rw [h]
  unfold SameText FirstKernel.backspaceOnScreen
  simp only
  split
  · rfl
  · split <;> rfl

theorem placeChar (h : SameText s t) (c : UInt8) : SameText (placeChar c s) (placeChar c t) := by
  unfold FirstKernel.placeChar
  split
  · rw [h]
    rfl
  · split
    · exact h.backspaceOnScreen
    · rw [h]
      unfold SameText
      simp only
      split <;> rfl

theorem logChar (h : SameText s t) (c : UInt8) :
    SameText (logChar c { s with emitted := s.emitted ++ [c] })
      (logChar c { t with emitted := t.emitted ++ [c] }) := by
  rw [h]
  unfold SameText FirstKernel.logChar
  simp only
  split <;> rfl

theorem scrollScreen (h : SameText s t) : SameText (scrollScreen s) (scrollScreen t) := by
  rw [h]
  unfold SameText FirstKernel.scrollScreen
  simp only
  split <;> rfl

theorem printChar (h : SameText s t) (c : UInt8) : SameText (printChar c s) (printChar c t) := by
  have hplaced := (h.logChar c).placeChar c
  have hrow : ∀ {s t : Screen}, SameText s t → t.currentRow = s.currentRow := by
    intro s t h
    rw [h]
  unfold FirstKernel.printChar
  simp only [hrow hplaced]
  split
  · exact hplaced.scrollScreen
  · exact hplaced

theorem exec (h : SameText s t) : ∀ call : ScreenCall, SameText (call.exec s) (call.exec t)
  | .printChar c => h.printChar c
  | .setColor color => by
      rw [h]
      rfl
  | .clearScreen => by
      rw [h]
      unfold SameText ScreenCall.exec clearScreen
      simp only
      split <;> rfl

end SameText

/-- The cursor stays on the screen: the cells before it are those of a terminal. -/
theorem cursorAt_exec {s : Screen} {n : Nat} (h : CursorAt s n) (hvga : s.vgaNull = false) :
    ∀ call : ScreenCall, (call.exec s).vgaNull = false ∧ ∃ n', CursorAt (call.exec s) n'
  | .printChar c => by
      let t : Terminal Cell 37 50 := ⟨List.replicate n .blank, by
        rw [List.length_replicate]
        exact h.lt⟩
      have hlen : t.shown.length = n := List.length_replicate
      have hrenders : Renders charCells (fun _ => 0)
          { s with vgaMem := framebuffer (charCells.pictures t.shown) fun _ => 0 } t.shown := by
        refine ⟨hvga, ?_, ?_, rfl, Nat.le_of_lt t.fits⟩
        · rw [hlen]
          exact h.row_eq
        · rw [hlen]
          exact h.col_eq
      have hstep := renders_printChar hrenders c
      have hsame : SameText s
        { s with vgaMem := framebuffer (charCells.pictures t.shown) fun _ => 0 } := rfl
      have hprinted := hsame.printChar c
      rw [hprinted] at hstep
      exact ⟨hstep.vgaNull_eq, _, hstep.row_eq, hstep.col_eq, Terminal.fits _⟩
  | .setColor _ => ⟨hvga, n, h.row_eq, h.col_eq, h.lt⟩
  | .clearScreen => by
      refine ⟨?_, 0, ?_⟩ <;> rw [ScreenCall.exec, clearScreen_eq hvga]
      · exact hvga
      · exact ⟨rfl, rfl, by decide⟩

/-! ## One step -/

/-- Taking the pointer away yields the text's screen. -/
structure Alongside (d : Display) (s : Screen) : Prop
    extends Overlaid s.vgaMem (d.mouse, d.screen.vgaMem) where
  sameText : SameText d.screen s
  vgaNull_eq : d.screen.vgaNull = false
  cursorAt : ∃ n, CursorAt d.screen n

namespace Alongside

variable {d : Display} {s : Screen}

theorem saved_eq (h : Alongside d s) : ∀ i, InBox d.mouse i → savedByte d.mouse i = s.vgaMem i :=
  ((withoutPointer_eq_iff h.toOnScreen _ _).mp h.without_eq).1

theorem outside_eq (h : Alongside d s) : ∀ i, ¬InBox d.mouse i → d.screen.vgaMem i = s.vgaMem i :=
  ((withoutPointer_eq_iff h.toOnScreen _ _).mp h.without_eq).2

theorem backgroundByte_eq (h : Alongside d s) (i : Nat) : backgroundByte d i = s.vgaMem i := by
  unfold backgroundByte
  split
  · next hi => exact h.saved_eq i hi
  · next hi => exact h.outside_eq i hi

theorem inBox_lt (h : Alongside d s) {i : Nat} (hi : InBox d.mouse i) : i < 600 * 2400 := by
  have hle : d.mouse.mouseY.toNatClampNeg + 16 ≤ 600 := h.toOnScreen.at.y_le
  obtain ⟨-, -, hlt⟩ := hi
  omega

theorem clearScreen_iff (h : Alongside d s) :
    withoutPointer d.mouse (clearScreen d.screen).vgaMem = (clearScreen s).vgaMem ↔
      SparesPointer .clearScreen d := by
  have hvga : s.vgaNull = false := by
    rw [h.sameText]
    exact h.vgaNull_eq
  rw [withoutPointer_eq_iff h.toOnScreen, clearScreen_eq h.vgaNull_eq, clearScreen_eq hvga]
  simp only [SparesPointer]
  constructor
  · rintro ⟨hin, -⟩ i hi
    have hlt := h.inBox_lt hi
    rw [hin i hi, if_pos (by omega)]
  · intro hspares
    refine ⟨fun i hi => ?_, fun i hi => ?_⟩
    · have hlt := h.inBox_lt hi
      rw [hspares i hi, if_pos (by omega)]
    · rw [h.outside_eq i hi]

/-- The image of the pointer goes up by its own height, out of the box. -/
theorem not_inBox_of_add (m : Mouse) {i : Nat} (hi : InBox m (i + 38400)) : ¬InBox m i := by
  unfold InBox InRectangle at *
  omega

theorem printChar_iff (h : Alongside d s) (c : UInt8) :
    withoutPointer d.mouse (printChar c d.screen).vgaMem = (printChar c s).vgaMem ↔
      SparesPointer (.printChar c) d := by
  obtain ⟨n, hcursor⟩ := h.cursorAt
  have hcursor' : CursorAt s n := by
    rw [h.sameText]
    exact ⟨hcursor.row_eq, hcursor.col_eq, hcursor.lt⟩
  have hvga : s.vgaNull = false := by
    rw [h.sameText]
    exact h.vgaNull_eq
  have hink : inkByte c s = inkByte c d.screen := by
    rw [h.sameText]
    rfl
  have hscrolls : Scrolls c s ↔ Scrolls c d.screen := by
    rw [h.sameText]
    exact Iff.rfl
  rw [withoutPointer_eq_iff h.toOnScreen]
  simp only [printChar_vgaMem hcursor h.vgaNull_eq, printChar_vgaMem hcursor' hvga, hink, hscrolls,
    SparesPointer]
  by_cases hfull : Scrolls c d.screen
  · simp only [if_pos hfull]
    constructor
    · rintro ⟨hin, hout⟩
      refine ⟨fun i hi => ?_, fun i hi hup hclear => ?_⟩
      · have hlt := h.inBox_lt hi
        rw [hin i hi, h.backgroundByte_eq, if_pos hlt]
      · have hlt := h.inBox_lt hi
        have hback : i - 38400 + 38400 = i := by omega
        have himage := hout (i - 38400) (not_inBox_of_add d.mouse (hback.symm ▸ hi))
        rw [hback, if_pos (by omega), if_pos (by omega), hclear] at himage
        rw [h.saved_eq i hi]
        exact himage
    · intro hspares
      refine ⟨fun i hi => ?_, fun i hi => ?_⟩
      · have hlt := h.inBox_lt hi
        rw [hspares.saved i hi, h.backgroundByte_eq, if_pos hlt]
      · by_cases hcopied : i < 600 * 2400 - 38400
        · rw [if_pos hcopied, if_pos hcopied]
          cases hbyte : inkByte c d.screen (i + 38400) with
          | some b => rfl
          | none =>
              rw [Option.getD_none, Option.getD_none]
              by_cases himage : InBox d.mouse (i + 38400)
              · rw [hspares.image _ himage (by omega) hbyte, h.saved_eq _ himage]
              · exact h.outside_eq _ himage
        · rw [if_neg hcopied, if_neg hcopied, h.outside_eq i hi]
  · simp only [if_neg hfull]
    constructor
    · rintro ⟨hin, -⟩ i hi b hb
      rw [hin i hi, hb]
      rfl
    · intro hspares
      refine ⟨fun i hi => ?_, fun i hi => ?_⟩
      · cases hbyte : inkByte c d.screen i with
        | some b => exact (hspares i hi b hbyte).symm
        | none => exact h.saved_eq i hi
      · rw [h.outside_eq i hi]

/-- **Step lemma.** Taking the pointer away after a call yields the text's screen just
when the call spares the pointer. -/
theorem text_iff (h : Alongside d s) : ∀ call : ScreenCall,
    withoutPointer d.mouse (call.exec d.screen).vgaMem = (call.exec s).vgaMem ↔
      SparesPointer call d
  | .printChar c => h.printChar_iff c
  | .setColor _ => iff_of_true h.without_eq trivial
  | .clearScreen => h.clearScreen_iff

theorem text (h : Alongside d s) {call : ScreenCall} (hspares : SparesPointer call d) :
    Alongside ((DisplayStep.text call).exec d) (call.exec s) := by
  obtain ⟨n, hcursor⟩ := h.cursorAt
  obtain ⟨hvga, hnext⟩ := cursorAt_exec hcursor h.vgaNull_eq call
  exact ⟨⟨h.toOnScreen, h.prev_x, h.prev_y, (h.text_iff call).mpr hspares⟩, h.sameText.exec call,
    hvga, hnext⟩

theorem interrupt (h : Alongside d s) (status data : UInt8) :
    Alongside ((DisplayStep.interrupt status data).exec d) s := by
  refine ⟨overlaid_mouseHandler h.toOverlaid status data, ?_, h.vgaNull_eq, ?_⟩
  · exact h.sameText
  · obtain ⟨n, hcursor⟩ := h.cursorAt
    exact ⟨n, hcursor.row_eq, hcursor.col_eq, hcursor.lt⟩

end Alongside

/-! ## Runs -/

theorem unspoiled_iff_of_alongside : ∀ (steps : List DisplayStep) {d : Display} {s : Screen},
    Alongside d s → (Unspoiled steps d s ↔ EachSpares steps d)
  | [], _, _, _ => Iff.rfl
  | .text call :: steps, d, s, h => by
      rw [Unspoiled, EachSpares]
      constructor
      · rintro ⟨hstep, hrest⟩
        have hspares := (h.text_iff call).mp hstep
        exact ⟨hspares, (unspoiled_iff_of_alongside steps (h.text hspares)).mp hrest⟩
      · rintro ⟨hspares, hrest⟩
        exact ⟨(h.text_iff call).mpr hspares,
          (unspoiled_iff_of_alongside steps (h.text hspares)).mpr hrest⟩
  | .interrupt status data :: steps, d, s, h => by
      have hnext := h.interrupt status data
      rw [Unspoiled, EachSpares, ← unspoiled_iff_of_alongside steps hnext]
      exact ⟨fun hall => hall.2, fun hrest => ⟨hnext.without_eq, hrest⟩⟩

theorem DrawnOver.alongside {background : FrameBuffer} {d : Display} (h : DrawnOver background d) :
    Alongside d { d.screen with vgaMem := background } := by
  obtain ⟨buffer, hsaved⟩ := h.saved
  obtain ⟨fillColor, hdrawn⟩ := h.drawn
  refine ⟨⟨h.toOnScreen, h.prev_x, h.prev_y, ?_⟩, rfl, h.vgaNull_eq, h.cursorAt⟩
  simp only [hdrawn]
  exact withoutPointer_drawMousePointer h.toOnScreen hsaved fillColor

/-- **Text and the pointer.** From a background with the pointer drawn over it, text and
mouse leave each other alone just when each call spares the pointer. -/
theorem unspoiled_iff {background : FrameBuffer} {d : Display} (h : DrawnOver background d)
    (steps : List DisplayStep) :
    Unspoiled steps d { d.screen with vgaMem := background } ↔ EachSpares steps d :=
  unspoiled_iff_of_alongside steps h.alongside

/-- The pointer where it starts, over a background of one shade. -/
def pointerOver (shade : UInt8) : Display where
  screen := { bootScreen with
    vgaMem := drawMousePointer bootMouse.mouseX bootMouse.mouseY 0x00FFFFFF fun _ => shade }
  mouse := { bootMouse with
    mouseBackBuffer :=
      saveBackground bootMouse.mouseX bootMouse.mouseY (fun _ => shade) fun _ => 0 }

theorem drawnOver_pointerOver (shade : UInt8) :
    DrawnOver (fun _ => shade) (pointerOver shade) where
  toOnScreen := onScreen_bootMouse.congr rfl rfl
  prev_x := rfl
  prev_y := rfl
  vgaNull_eq := rfl
  cursorAt := ⟨0, rfl, rfl, by decide⟩
  saved := ⟨fun _ => 0, by simp only [pointerOver]⟩
  drawn := ⟨0x00FFFFFF, by simp only [pointerOver]⟩

theorem unspoiled_iff_pointerOver :
    Unspoiled [.text (.printChar 0x41), .interrupt 0x20 0x08] (pointerOver 0)
        { (pointerOver 0).screen with vgaMem := fun _ => 0 } ↔
      EachSpares [.text (.printChar 0x41), .interrupt 0x20 0x08] (pointerOver 0) :=
  unspoiled_iff (drawnOver_pointerOver 0) _

/-- Of a white screen that is cleared, what was under the pointer stays. -/
theorem not_unspoiled_clearScreen :
    ¬Unspoiled [.text .clearScreen] (pointerOver 0xFF)
      { (pointerOver 0xFF).screen with vgaMem := fun _ => 0xFF } := by
  rintro ⟨hclear, -⟩
  have hspares := (drawnOver_pointerOver 0xFF).alongside.clearScreen_iff.mp hclear
  have hbox : InBox (pointerOver 0xFF).mouse ((300 * 800 + 400) * 3) := by
    decide
  have hsaved := (drawnOver_pointerOver 0xFF).alongside.saved_eq _ hbox
  rw [hspares _ hbox] at hsaved
  revert hsaved
  decide

end FirstKernel
