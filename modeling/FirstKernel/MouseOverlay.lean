import FirstKernel.MousePointer

/-!
# The pointer as an overlay

The handler puts back what was under the pointer, moves, saves what is
under the new place and draws there. So at any time there is a background
that putting back what was saved yields (`Overlaid`), and no interrupt
changes it. At boot nothing has been saved: the back buffer is zero, and
the background is what was on the screen with a black box in the middle.
-/

namespace FirstKernel

/-- The byte is in the box of the pointer. -/
def InBox (m : Mouse) (i : Nat) : Prop :=
  InRectangle m.mouseX.toNatClampNeg m.mouseY.toNatClampNeg 16 16 (i / 3)

instance (m : Mouse) (i : Nat) : Decidable (InBox m i) :=
  inferInstanceAs (Decidable (InRectangle _ _ 16 16 (i / 3)))

/-- The byte that was saved for a place under the pointer. -/
def savedByte (m : Mouse) (i : Nat) : UInt8 :=
  savedPicture m.mouseX.toNatClampNeg m.mouseY.toNatClampNeg m.mouseBackBuffer i

/-- The frame buffer with the saved pixels written back where the pointer is. -/
def withoutPointer (m : Mouse) (vgaMem : FrameBuffer) : FrameBuffer :=
  restoreBackground m.mouseX m.mouseY m.mouseBackBuffer vgaMem

/-- Writing the saved pixels back yields the original, which is also what is on the
screen outside of the pointer's box. -/
structure NonDestructive (original : FrameBuffer) (s : Mouse × FrameBuffer) : Prop where
  restored : withoutPointer s.1 s.2 = original
  outside : ∀ i, ¬InBox s.1 i → s.2 i = original i

/-! ## Positions as numbers -/

/-- The position of a pointer on the screen. -/
structure At (m : Mouse) (x y : Nat) : Prop where
  x_eq : m.mouseX = Int32.ofNat x
  y_eq : m.mouseY = Int32.ofNat y
  x_le : x + 16 ≤ 800
  y_le : y + 16 ≤ 600

theorem OnScreen.at {m : Mouse} (h : OnScreen m) :
    At m m.mouseX.toNatClampNeg m.mouseY.toNatClampNeg := by
  obtain ⟨hx0, hx, hy0, hy⟩ := h
  refine ⟨?_, ?_, ?_, ?_⟩
  · exact (Int32.ofNat_toNatClampNeg _ (Int32.le_iff_toInt_le.mpr hx0)).symm
  · exact (Int32.ofNat_toNatClampNeg _ (Int32.le_iff_toInt_le.mpr hy0)).symm
  · rw [Int32.toNatClampNeg]
    omega
  · rw [Int32.toNatClampNeg]
    omega

theorem withoutPointer_eq_iff {m : Mouse} (hm : OnScreen m) (mem mem' : FrameBuffer) :
    withoutPointer m mem = mem' ↔
      (∀ i, InBox m i → savedByte m i = mem' i) ∧ ∀ i, ¬InBox m i → mem i = mem' i := by
  obtain ⟨hx, hy, hxle, hyle⟩ := hm.at
  have hpaints := restoreBackground_paints hxle hyle m.mouseBackBuffer
  rw [← hx, ← hy] at hpaints
  exact hpaints.eq_iff mem mem'

/-- The pixels under the box, saved, and the pointer drawn: putting them back takes the
pointer away. -/
theorem withoutPointer_drawMousePointer {m : Mouse} (hm : OnScreen m) {mem : FrameBuffer}
    {buffer : Fin 256 → UInt32}
    (hsaved : m.mouseBackBuffer = saveBackground m.mouseX m.mouseY mem buffer)
    (fillColor : UInt32) :
    withoutPointer m (drawMousePointer m.mouseX m.mouseY fillColor mem) = mem := by
  obtain ⟨hx, hy, hxle, hyle⟩ := hm.at
  generalize m.mouseX.toNatClampNeg = x at hx hxle
  generalize m.mouseY.toNatClampNeg = y at hy hyle
  rw [withoutPointer, hsaved, hx, hy]
  refine ((restoreBackground_paints hxle hyle _).eq_iff _ _).mpr ⟨fun i hi => ?_, fun i hi => ?_⟩
  · exact savedPicture_saveBackground hxle hyle mem buffer hi
  · exact drawMousePointer_of_notMem hxle hyle fillColor mem hi

/-! ## The invariant -/

/-- The background is what putting the saved pixels back yields. -/
structure Overlaid (background : FrameBuffer) (s : Mouse × FrameBuffer) : Prop
    extends OnScreen s.1 where
  prev_x : s.1.prevMouseX = s.1.mouseX
  prev_y : s.1.prevMouseY = s.1.mouseY
  without_eq : withoutPointer s.1 s.2 = background

/-- What a packet does on the screen, with the background that it puts back. -/
structure Redraws (background : FrameBuffer) (m : Mouse) (s : Mouse × FrameBuffer) : Prop where
  prev_x : s.1.prevMouseX = s.1.mouseX
  prev_y : s.1.prevMouseY = s.1.mouseY
  buffer_eq : s.1.mouseBackBuffer =
    saveBackground s.1.mouseX s.1.mouseY background m.mouseBackBuffer
  drawn : ∃ fillColor, s.2 = drawMousePointer s.1.mouseX s.1.mouseY fillColor background

theorem redraws_movePointer (m : Mouse) (vgaMem : FrameBuffer) :
    Redraws (restoreBackground m.prevMouseX m.prevMouseY m.mouseBackBuffer vgaMem) m
      (movePointer m vgaMem) := by
  refine ⟨?_, ?_, ?_, ?_⟩
  · simp only [movePointer]
  · simp only [movePointer]
  · simp only [movePointer]
  · simp only [movePointer]
    exact ⟨_, rfl⟩

theorem overlaid_movePointer {background : FrameBuffer} {m : Mouse} {vgaMem : FrameBuffer}
    (h : Overlaid background (m, vgaMem)) : Overlaid background (movePointer m vgaMem) := by
  have hscreen := onScreen_movePointer m vgaMem
  have hredraws := redraws_movePointer m vgaMem
  have hback : restoreBackground m.prevMouseX m.prevMouseY m.mouseBackBuffer vgaMem =
      background := by
    rw [h.prev_x, h.prev_y]
    exact h.without_eq
  rw [hback] at hredraws
  obtain ⟨fillColor, hdrawn⟩ := hredraws.drawn
  refine ⟨hscreen, hredraws.prev_x, hredraws.prev_y, ?_⟩
  rw [hdrawn]
  exact withoutPointer_drawMousePointer hscreen hredraws.buffer_eq fillColor

/-- Nothing of the pointer has changed, nor has the screen. -/
theorem Overlaid.congr {background : FrameBuffer} {m m' : Mouse} {vgaMem : FrameBuffer}
    (h : Overlaid background (m, vgaMem)) (hx : m'.mouseX = m.mouseX) (hy : m'.mouseY = m.mouseY)
    (hpx : m'.prevMouseX = m.prevMouseX) (hpy : m'.prevMouseY = m.prevMouseY)
    (hbuffer : m'.mouseBackBuffer = m.mouseBackBuffer) : Overlaid background (m', vgaMem) := by
  refine ⟨h.toOnScreen.congr hx hy, ?_, ?_, ?_⟩
  · exact hpx.trans (h.prev_x.trans hx.symm)
  · exact hpy.trans (h.prev_y.trans hy.symm)
  · simp only [withoutPointer, hx, hy, hbuffer]
    exact h.without_eq

theorem overlaid_takeByte {background : FrameBuffer} {m : Mouse} {vgaMem : FrameBuffer}
    (h : Overlaid background (m, vgaMem)) (byte : UInt8) :
    Overlaid background (takeByte byte m vgaMem) := by
  by_cases hlt : m.mouseCycle.val + 1 < 3
  · rw [takeByte_of_lt hlt]
    exact h.congr rfl rfl rfl rfl rfl
  · rw [takeByte_of_last hlt]
    simp only
    split
    · exact h.congr rfl rfl rfl rfl rfl
    · exact overlaid_movePointer (h.congr rfl rfl rfl rfl rfl)

/-- **Step lemma.** An interrupt leaves the background as it is. -/
theorem overlaid_mouseHandler {background : FrameBuffer} {m : Mouse} {vgaMem : FrameBuffer}
    (h : Overlaid background (m, vgaMem)) (status byte : UInt8) :
    Overlaid background (mouseHandler status byte m vgaMem) := by
  unfold mouseHandler
  split
  · exact h.congr rfl rfl rfl rfl rfl
  · exact (overlaid_takeByte h byte).congr rfl rfl rfl rfl rfl

theorem overlaid_handleAll {background : FrameBuffer} :
    ∀ (interrupts : List (UInt8 × UInt8)) {s : Mouse × FrameBuffer},
    Overlaid background s → Overlaid background (handleAll interrupts s)
  | [], _, h => h
  | i :: is, _, h => overlaid_handleAll is (overlaid_mouseHandler h i.1 i.2)

/-! ## From boot -/

/-- The box of the pointer at boot, in which nothing has been saved. -/
def BlackAtStart (original : FrameBuffer) : Prop :=
  ∀ i, InRectangle 400 300 16 16 (i / 3) → original i = 0

theorem overlaid_bootMouse (original : FrameBuffer) :
    Overlaid (withoutPointer bootMouse original) (bootMouse, original) :=
  ⟨onScreen_bootMouse, rfl, rfl, rfl⟩

theorem withoutPointer_bootMouse_eq_iff (original : FrameBuffer) :
    withoutPointer bootMouse original = original ↔ BlackAtStart original := by
  have hpaints := restoreBackground_paints (x := 400) (y := 300) (by decide) (by decide)
    bootMouse.mouseBackBuffer
  have hzero : ∀ i, savedPicture 400 300 bootMouse.mouseBackBuffer i = 0 :=
    fun i => component_zero (i % 3)
  rw [withoutPointer, BlackAtStart]
  refine (hpaints.eq_iff original original).trans ?_
  simp only [hzero, implies_true, and_true, eq_comm]

/-- The rest of the screen is seen as it is, so only what is written back matters. -/
theorem Overlaid.restores_iff {background original : FrameBuffer} {s : Mouse × FrameBuffer}
    (h : Overlaid background s) : NonDestructive original s ↔ background = original := by
  constructor
  · intro hnon
    exact h.without_eq.symm.trans hnon.restored
  · rintro rfl
    exact ⟨h.without_eq, ((withoutPointer_eq_iff h.toOnScreen _ _).mp h.without_eq).2⟩

/-- **The pointer is an overlay.** Whatever the mouse sends from boot on, the original
frame buffer can be had again just when it was black where the pointer starts. -/
theorem nonDestructive_iff (original : FrameBuffer) (interrupts : List (UInt8 × UInt8)) :
    NonDestructive original (handleAll interrupts (bootMouse, original)) ↔
      BlackAtStart original :=
  (overlaid_handleAll interrupts (overlaid_bootMouse original)).restores_iff.trans
    (withoutPointer_bootMouse_eq_iff original)

/-- A white screen has a black box in it after the first packet. -/
theorem not_nonDestructive_white :
    ¬NonDestructive (fun _ => 0xFF)
      (handleAll (right 1).interrupts (bootMouse, fun _ => 0xFF)) := by
  intro h
  have hrestored := h.restored
  rw [(overlaid_handleAll _ (overlaid_bootMouse fun _ => 0xFF)).without_eq,
    withoutPointer_bootMouse_eq_iff] at hrestored
  have hwhite := hrestored ((300 * 800 + 400) * 3) (by unfold InRectangle; decide)
  revert hwhite
  decide

end FirstKernel
