import FirstKernel.Painting
import FirstKernel.Screen

/-!
# What the drawing functions paint

`put_pixel` clips, so `draw_rectangle` paints the part of its rectangle
that is on the screen, with any corner and any extent: the sums `x + j`
and `y + i` wrap around, but a sum that has wrapped is negative and comes
back on no other side (`exists_add_eq_iff`). `draw_char_graphic` paints a
cell of the screen. A pixel is three bytes, so byte `i` is in pixel
`i / 3`, and that is in column `i / 3 % 800` of row `i / 3 / 800`.
-/

namespace FirstKernel

/-! ## Coordinates -/

/-- The byte that `put_pixel` stores a pixel from. -/
def pixelOffset (x y : Int32) : Int32 := y * 800 * 3 + x * 3

theorem pixelOffset_ofNat (x y : Nat) :
    pixelOffset (Int32.ofNat x) (Int32.ofNat y) = Int32.ofNat ((y * 800 + x) * 3) := by
  rw [Nat.add_mul, Int32.ofNat_add, Int32.ofNat_mul, Int32.ofNat_mul, Int32.ofNat_mul]
  rfl

theorem toNatClampNeg_lt {x : Int32} {n : Nat} (h : x < Int32.ofNat n)
    (hn : 0 < n ∧ n < 2 ^ 31) : x.toNatClampNeg < n := by
  have hlt := Int32.lt_iff_toInt_lt.mp h
  rw [Int32.toInt_ofNat_of_lt hn.2] at hlt
  rw [Int32.toNatClampNeg]
  omega

/-- On the screen no byte is stored out of range. -/
theorem pixelOffset_inRange {x y : Int32} (hx0 : 0 ≤ x) (hx : x < 800) (hy0 : 0 ≤ y)
    (hy : y < 600) : 0 ≤ (pixelOffset x y).toInt ∧ (pixelOffset x y).toInt + 2 < 1440000 := by
  have hx' := Int32.ofNat_toNatClampNeg x hx0
  have hy' := Int32.ofNat_toNatClampNeg y hy0
  have hxn := toNatClampNeg_lt (n := 800) hx (by decide)
  have hyn := toNatClampNeg_lt (n := 600) hy (by decide)
  rw [← hx', ← hy', pixelOffset_ofNat, Int32.toInt_ofNat_of_lt (by omega)]
  omega

theorem ofNat_add_ofNat (a b : Nat) : Int32.ofNat a + Int32.ofNat b = Int32.ofNat (a + b) :=
  (Int32.ofNat_add a b).symm

/-! ## Pixels -/

/-- The byte of a colour for a place in its pixel. -/
def component (color : UInt32) : Nat → UInt8
  | 0 => (color &&& 0xFF).toUInt8
  | 1 => (color >>> 8 &&& 0xFF).toUInt8
  | _ => (color >>> 16 &&& 0xFF).toUInt8

theorem pixel_onScreen {x y : Nat} (hx : x < 800) (hy : y < 600) :
    0 ≤ Int32.ofNat x ∧ Int32.ofNat x < 800 ∧ 0 ≤ Int32.ofNat y ∧ Int32.ofNat y < 600 :=
  ⟨Int32.zero_le_ofNat_of_lt (by omega), (Int32.ofNat_lt_iff_lt (by omega) (by decide)).mpr hx,
    Int32.zero_le_ofNat_of_lt (by omega), (Int32.ofNat_lt_iff_lt (by omega) (by decide)).mpr hy⟩

theorem toNatClampNeg_pixelOffset {x y : Nat} (hx : x < 800) (hy : y < 600) :
    (pixelOffset (Int32.ofNat x) (Int32.ofNat y)).toNatClampNeg = (y * 800 + x) * 3 := by
  rw [pixelOffset_ofNat, Int32.toNatClampNeg_ofNat_of_lt (by omega)]

theorem putPixel_onScreen {x y : Nat} (hx : x < 800) (hy : y < 600) (color : UInt32)
    (mem : FrameBuffer) :
    putPixel (Int32.ofNat x) (Int32.ofNat y) color mem =
      Function.update (Function.update (Function.update mem ((y * 800 + x) * 3)
        (component color 0)) ((y * 800 + x) * 3 + 1) (component color 1))
        ((y * 800 + x) * 3 + 2) (component color 2) := by
  have hoffset : (Int32.ofNat y * 800 * 3 + Int32.ofNat x * 3).toNatClampNeg =
      (y * 800 + x) * 3 := toNatClampNeg_pixelOffset hx hy
  rw [putPixel, if_pos (pixel_onScreen hx hy), hoffset]
  rfl

theorem putPixel_paints {x y : Nat} (hx : x < 800) (hy : y < 600) (color : UInt32) :
    Paints (fun i => i / 3 = y * 800 + x) (fun i => component color (i % 3))
      (putPixel (Int32.ofNat x) (Int32.ofNat y) color) := by
  have hbyte : ∀ k, k < 3 → component color k = component color (((y * 800 + x) * 3 + k) % 3) :=
    fun k hk => congrArg (component color) (by omega)
  rw [funext (putPixel_onScreen hx hy color)]
  have h0 := Paints.update (fun i => component color (i % 3)) ((y * 800 + x) * 3)
  have h1 := Paints.update (fun i => component color (i % 3)) ((y * 800 + x) * 3 + 1)
  have h2 := Paints.update (fun i => component color (i % 3)) ((y * 800 + x) * 3 + 2)
  rw [← hbyte 1 (by decide)] at h1
  rw [← hbyte 2 (by decide)] at h2
  rw [← Nat.add_zero ((y * 800 + x) * 3), ← hbyte 0 (by decide), Nat.add_zero] at h0
  refine ((h0.comp h1).comp h2).of_iff fun i => ?_
  omega

/-- The test of `put_pixel` and `get_pixel`. -/
def PixelOnScreen (x y : Int32) : Prop := 0 ≤ x ∧ x < 800 ∧ 0 ≤ y ∧ y < 600

instance (x y : Int32) : Decidable (PixelOnScreen x y) := inferInstanceAs (Decidable (_ ∧ _))

theorem pixelOnScreen_iff (x y : Int32) :
    PixelOnScreen x y ↔
      ∃ a b : Nat, a < 800 ∧ b < 600 ∧ x = Int32.ofNat a ∧ y = Int32.ofNat b := by
  constructor
  · rintro ⟨hx0, hx, hy0, hy⟩
    exact ⟨x.toNatClampNeg, y.toNatClampNeg, toNatClampNeg_lt (n := 800) hx (by decide),
      toNatClampNeg_lt (n := 600) hy (by decide), (Int32.ofNat_toNatClampNeg x hx0).symm,
      (Int32.ofNat_toNatClampNeg y hy0).symm⟩
  · rintro ⟨a, b, ha, hb, rfl, rfl⟩
    exact pixel_onScreen ha hb

/-- The byte is in the pixel. -/
def InPixel (x y : Int32) (i : Nat) : Prop :=
  i < 800 * 600 * 3 ∧ x.toInt = (i / 3 % 800 : Nat) ∧ y.toInt = (i / 3 / 800 : Nat)

theorem inPixel_ofNat_iff {a b : Nat} (ha : a < 800) (hb : b < 600) (i : Nat) :
    InPixel (Int32.ofNat a) (Int32.ofNat b) i ↔ i / 3 = b * 800 + a := by
  rw [InPixel, Int32.toInt_ofNat_of_lt (by omega), Int32.toInt_ofNat_of_lt (by omega)]
  omega

theorem InPixel.onScreen {x y : Int32} {i : Nat} (h : InPixel x y i) : PixelOnScreen x y := by
  obtain ⟨hi, hx, hy⟩ := h
  have hx' : x = Int32.ofNat (i / 3 % 800) := by
    rw [← Int32.toInt_inj, Int32.toInt_ofNat_of_lt (by omega), hx]
  have hy' : y = Int32.ofNat (i / 3 / 800) := by
    rw [← Int32.toInt_inj, Int32.toInt_ofNat_of_lt (by omega), hy]
  exact (pixelOnScreen_iff x y).mpr ⟨_, _, by omega, by omega, hx', hy'⟩

/-- `put_pixel` paints the pixel if it is on the screen, and nothing else. -/
theorem putPixel_paints_clipped (x y : Int32) (color : UInt32) :
    Paints (InPixel x y) (fun i => component color (i % 3)) (putPixel x y color) := by
  by_cases hon : PixelOnScreen x y
  · obtain ⟨a, b, ha, hb, rfl, rfl⟩ := (pixelOnScreen_iff x y).mp hon
    exact (putPixel_paints ha hb color).of_iff fun i => (inPixel_ofNat_iff ha hb i).symm
  · have hdraw : putPixel x y color = fun mem => mem := by
      funext mem
      exact if_neg hon
    rw [hdraw]
    exact Paints.nothing.of_iff fun i => iff_of_false id fun h => hon h.onScreen

/-! ## Rectangles -/

theorem forBelow_paints_int {picture : Nat → UInt8} {body : Int32 → FrameBuffer → FrameBuffer}
    {regions : Nat → Nat → Prop} {n : Int32}
    (h : ∀ k < n.toNatClampNeg, Paints (regions k) picture (body (Int32.ofNat k))) :
    Paints (fun i => ∃ k < n.toNatClampNeg, regions k i) picture (forBelow n body) := by
  have hloop : Paints (fun i => ∃ k ∈ List.range n.toNatClampNeg, regions k i) picture
      (forBelow n body) := Paints.foldl fun k hk => h k (List.mem_range.mp hk)
  exact hloop.of_iff fun i => by simp only [List.mem_range]

theorem forBelow_paints {picture : Nat → UInt8} {body : Int32 → FrameBuffer → FrameBuffer}
    {regions : Nat → Nat → Prop} {n : Nat} (hn : n < 2 ^ 31)
    (h : ∀ k < n, Paints (regions k) picture (body (Int32.ofNat k))) :
    Paints (fun i => ∃ k < n, regions k i) picture (forBelow (Int32.ofNat n) body) := by
  have hclamp : (Int32.ofNat n).toNatClampNeg = n := Int32.toNatClampNeg_ofNat_of_lt hn
  have hloop := forBelow_paints_int (n := Int32.ofNat n) (fun k hk => h k (hclamp ▸ hk))
  rw [hclamp] at hloop
  exact hloop

/-- The pixel is in the rectangle. -/
def InRectangle (x y width height : Nat) (pixel : Nat) : Prop :=
  (x ≤ pixel % 800 ∧ pixel % 800 < x + width) ∧ y ≤ pixel / 800 ∧ pixel / 800 < y + height

instance (x y width height pixel : Nat) : Decidable (InRectangle x y width height pixel) :=
  inferInstanceAs (Decidable (_ ∧ _))

/-- The pixel is in the rectangle, the sums taken over the integers. -/
def Covers (x y width height : Int32) (a b : Int) : Prop :=
  (x.toInt ≤ a ∧ a < x.toInt + width.toInt) ∧ y.toInt ≤ b ∧ b < y.toInt + height.toInt

instance (x y width height : Int32) (a b : Int) : Decidable (Covers x y width height a b) :=
  inferInstanceAs (Decidable (_ ∧ _))

/-- A coordinate on the screen is reached from `x` just when it is inside the extent: a sum
that has wrapped around is negative. -/
theorem exists_add_eq_iff (x width : Int32) (a : Nat) :
    (∃ j < width.toNatClampNeg, (x + Int32.ofNat j).toInt = a ∧ a < 800) ↔
      (x.toInt ≤ a ∧ a < x.toInt + width.toInt) ∧ a < 800 := by
  have hxlow := x.le_toInt
  have hxhigh := x.toInt_lt
  have hwidth := width.toInt_lt
  have hclamp : width.toNatClampNeg = width.toInt.toNat := rfl
  have hadd : ∀ j < width.toNatClampNeg,
      (x + Int32.ofNat j).toInt = (x.toInt + j).bmod (2 ^ 32) := by
    intro j hj
    rw [Int32.toInt_add, Int32.toInt_ofNat_of_lt (by omega)]
  constructor
  · rintro ⟨j, hj, heq, ha⟩
    have hmod : (a : Int) % 2 ^ 32 = (x.toInt + j) % 2 ^ 32 := by
      rw [← heq, hadd j hj]
      exact Int.bmod_emod
    omega
  · rintro ⟨⟨hle, hlt⟩, ha⟩
    refine ⟨(a - x.toInt).toNat, by omega, ?_, ha⟩
    rw [hadd _ (by omega), Int.bmod_eq_of_le (by omega) (by omega)]
    omega

theorem drawRectangle_paints_clipped (x y width height : Int32) (color : UInt32) :
    Paints (fun i => i < 800 * 600 * 3 ∧ Covers x y width height (i / 3 % 800 : Nat)
      (i / 3 / 800 : Nat)) (fun i => component color (i % 3))
      (drawRectangle x y width height color) := by
  have hrow : ∀ k < height.toNatClampNeg,
      Paints (fun i => ∃ j < width.toNatClampNeg,
          InPixel (x + Int32.ofNat j) (y + Int32.ofNat k) i)
        (fun i => component color (i % 3))
        (forBelow width fun j => putPixel (x + j) (y + Int32.ofNat k) color) :=
    fun k _ => forBelow_paints_int fun j _ => putPixel_paints_clipped _ _ color
  refine (forBelow_paints_int hrow).of_iff fun i => ?_
  have hcol := exists_add_eq_iff x width (i / 3 % 800)
  have hline := exists_add_eq_iff y height (i / 3 / 800)
  simp only [InPixel, Covers]
  constructor
  · rintro ⟨k, hk, j, hj, hi, hx, hy⟩
    exact ⟨hi, (hcol.mp ⟨j, hj, hx, by omega⟩).1, (hline.mp ⟨k, hk, hy, by omega⟩).1⟩
  · rintro ⟨hi, hx, hy⟩
    obtain ⟨j, hj, hxj, -⟩ := hcol.mpr ⟨hx, by omega⟩
    obtain ⟨k, hk, hyk, -⟩ := hline.mpr ⟨hy, by omega⟩
    exact ⟨k, hk, j, hj, hi, hxj, hyk⟩

theorem drawRectangle_paints (x y width height : Nat) (hx : x + width ≤ 800)
    (hy : y + height ≤ 600) (color : UInt32) :
    Paints (fun i => InRectangle x y width height (i / 3)) (fun i => component color (i % 3))
      (drawRectangle (Int32.ofNat x) (Int32.ofNat y) (Int32.ofNat width) (Int32.ofNat height)
        color) := by
  refine (drawRectangle_paints_clipped _ _ _ _ color).of_iff fun i => ?_
  rw [Covers, Int32.toInt_ofNat_of_lt (by omega), Int32.toInt_ofNat_of_lt (by omega),
    Int32.toInt_ofNat_of_lt (by omega), Int32.toInt_ofNat_of_lt (by omega)]
  unfold InRectangle
  omega

/-! ## Glyphs -/

/-- The font has the pixel of the glyph set. -/
def glyphBit (c : UInt8) (row col : Nat) : Bool := (font8x8 c row).toNat.testBit (7 - col)

/-- What stands in a cell: for each pixel of its 16 by 16, the bytes. -/
abbrev Picture := Nat → Nat → Nat → UInt8

def black : Picture := fun _ _ _ => 0

/-- A character in a colour: each pixel of its glyph doubled both ways. -/
def charPicture (c : UInt8) (color : UInt32) : Picture := fun row col =>
  component (if glyphBit c (row / 2) (col / 2) then color else 0)

theorem component_zero : ∀ k, component 0 k = 0
  | 0 | 1 | _ + 2 => rfl

/-- A character that is not drawn has no glyph. -/
theorem charPicture_undrawn {c : UInt8} (hc : charValue c < 32 ∨ 127 < charValue c)
    (color : UInt32) : charPicture c color = black := by
  have hlt := c.toNat_lt
  have hfont : ∀ row, font8x8 c row = 0 := by
    intro row
    by_cases hlow : c.toNat < 32
    · exact if_pos hlow
    · have hout : glyphs.length ≤ c.toNat - 32 := by
        have hlen : glyphs.length = 91 := rfl
        unfold charValue at hc
        split at hc <;> omega
      have hnone : glyphs.getD (c.toNat - 32) [] = [] := by
        rw [List.getD_eq_getElem?_getD, List.getElem?_eq_none hout]
        rfl
      rw [font8x8, if_neg hlow, hnone]
      rfl
  funext row col k
  have hbit : glyphBit c (row / 2) (col / 2) = false := by
    rw [glyphBit, hfont]
    exact Nat.zero_testBit _
  rw [charPicture, hbit]
  exact component_zero k

theorem shift_eq_zero_iff (b : UInt8) {k : Nat} (hk : k < 8) :
    (b >>> (7 - Int32.ofNat k).toUInt32.toUInt8) &&& 1 = 0 ↔ b.toNat.testBit (7 - k) = false := by
  have hshift : (7 - Int32.ofNat k).toUInt32.toUInt8.toNat % 8 = 7 - k := by
    match k, hk with
    | 0, _ | 1, _ | 2, _ | 3, _ | 4, _ | 5, _ | 6, _ | 7, _ => rfl
  rw [← UInt8.toNat_inj, UInt8.toNat_and, UInt8.toNat_shiftRight, hshift, Nat.testBit]
  show (b.toNat >>> (7 - k)) &&& 1 = 0 ↔ _
  rw [Nat.and_comm]
  simp

theorem drawCharGraphic_paints {c : UInt8} (hc : ¬(charValue c < 32 ∨ 127 < charValue c))
    {x y : Nat} (hx : x + 16 ≤ 800) (hy : y + 16 ≤ 600) (color : UInt32) :
    Paints (fun i => InRectangle x y 16 16 (i / 3))
      (fun i => charPicture c color (i / 3 / 800 - y) (i / 3 % 800 - x) (i % 3))
      (drawCharGraphic c (Int32.ofNat x) (Int32.ofNat y) color) := by
  rw [drawCharGraphic, if_neg hc]
  have hdot : ∀ cy < 8, ∀ cx < 8, Paints
      (fun i => InRectangle (x + cx * 2) (y + cy * 2) 2 2 (i / 3))
      (fun i => charPicture c color (i / 3 / 800 - y) (i / 3 % 800 - x) (i % 3))
      (drawRectangle (Int32.ofNat x + Int32.ofNat cx * 2) (Int32.ofNat y + Int32.ofNat cy * 2)
        2 2 (if (font8x8 c (Int32.ofNat cy).toNatClampNeg >>>
          (7 - Int32.ofNat cx).toUInt32.toUInt8) &&& 1 = 0 then 0 else color)) := by
    intro cy hcy cx hcx
    have hx2 : Int32.ofNat x + Int32.ofNat cx * 2 = Int32.ofNat (x + cx * 2) := by
      rw [Int32.ofNat_add, Int32.ofNat_mul]
      rfl
    have hy2 : Int32.ofNat y + Int32.ofNat cy * 2 = Int32.ofNat (y + cy * 2) := by
      rw [Int32.ofNat_add, Int32.ofNat_mul]
      rfl
    rw [hx2, hy2, Int32.toNatClampNeg_ofNat_of_lt (by omega)]
    refine (drawRectangle_paints (x + cx * 2) (y + cy * 2) 2 2 (by omega) (by omega) _).of_eqOn
      fun i hi => ?_
    obtain ⟨⟨hx1, hx2⟩, hy1, hy2⟩ := hi
    have hrow : (i / 3 / 800 - y) / 2 = cy := by omega
    have hcol : (i / 3 % 800 - x) / 2 = cx := by omega
    rw [charPicture, hrow, hcol, glyphBit]
    simp only [shift_eq_zero_iff _ hcx]
    cases (font8x8 c cy).toNat.testBit (7 - cx) <;> rfl
  refine (forBelow_paints (n := 8) (by decide) fun cy hcy =>
    forBelow_paints (n := 8) (by decide) fun cx hcx => hdot cy hcy cx hcx).of_iff fun i => ?_
  unfold InRectangle
  constructor
  · rintro ⟨cy, hcy, cx, hcx, h⟩
    omega
  · intro h
    exact ⟨(i / 3 / 800 - y) / 2, by omega, (i / 3 % 800 - x) / 2, by omega, by omega⟩

/-! ## Cells -/

/-- The frame buffer that shows the pictures in 37 rows of 50 cells, black in the strip
of eight pixels below them. The bytes after it are not on the screen. -/
def framebuffer (pictures : Nat → Picture) (mem : FrameBuffer) : FrameBuffer := fun i =>
  if i < 592 * 2400 then
    pictures (i / 3 / 800 / 16 * 50 + i / 3 % 800 / 16) (i / 3 / 800 % 16) (i / 3 % 800 % 16)
      (i % 3)
  else if i < 600 * 2400 then 0
  else mem i

theorem framebuffer_framebuffer (pictures pictures' : Nat → Picture) (mem : FrameBuffer) :
    framebuffer pictures (framebuffer pictures' mem) = framebuffer pictures mem := by
  funext i
  unfold framebuffer
  by_cases hlt : i < 592 * 2400
  · rw [if_pos hlt, if_pos hlt]
  · rw [if_neg hlt, if_neg hlt, if_neg hlt]
    split <;> rfl

/-- Painting over a cell exchanges its picture. -/
theorem Paints.framebuffer_eq {draw : FrameBuffer → FrameBuffer} {picture : Picture}
    {row col : Nat} (hrow : row < 37) (hcol : col < 50)
    (h : Paints (fun i => InRectangle (col * 16) (row * 16) 16 16 (i / 3))
      (fun i => picture (i / 3 / 800 - row * 16) (i / 3 % 800 - col * 16) (i % 3)) draw)
    (pictures : Nat → Picture) (mem : FrameBuffer) :
    draw (framebuffer pictures mem) =
      framebuffer (Function.update pictures (row * 50 + col) picture) mem := by
  funext i
  obtain ⟨hin, hout⟩ := h (framebuffer pictures mem) i
  by_cases hi : InRectangle (col * 16) (row * 16) 16 16 (i / 3)
  · rw [hin hi]
    obtain ⟨⟨hx1, hx2⟩, hy1, hy2⟩ := hi
    have hlt : i < 592 * 2400 := by omega
    have hcell : i / 3 / 800 / 16 * 50 + i / 3 % 800 / 16 = row * 50 + col := by omega
    have hy : i / 3 / 800 - row * 16 = i / 3 / 800 % 16 := by omega
    have hx : i / 3 % 800 - col * 16 = i / 3 % 800 % 16 := by omega
    rw [framebuffer, if_pos hlt, hcell, Function.update_self, ← hy, ← hx]
  · rw [hout hi]
    unfold framebuffer
    by_cases hlt : i < 592 * 2400
    · have hcell : i / 3 / 800 / 16 * 50 + i / 3 % 800 / 16 ≠ row * 50 + col := by
        intro heq
        refine hi ⟨?_, ?_⟩ <;> omega
      rw [if_pos hlt, if_pos hlt, Function.update_of_ne hcell]
    · rw [if_neg hlt, if_neg hlt]

/-- Scrolling shows the pictures of the cells one row on. What comes up from the strip is
black, so no picture below the last row may show. -/
theorem scroll_framebuffer {pictures : Nat → Picture}
    (hblack : ∀ n, 1850 ≤ n → pictures n = black) (mem : FrameBuffer) :
    (fun i =>
      if i < 600 * 2400 - 38400 then framebuffer pictures mem (i + 38400)
      else if i < 600 * 2400 then 0
      else framebuffer pictures mem i) = framebuffer (fun n => pictures (n + 50)) mem := by
  funext i
  by_cases hcopied : i < 600 * 2400 - 38400
  · rw [if_pos hcopied]
    by_cases hcell : i + 38400 < 592 * 2400
    · have hnext : (i + 38400) / 3 / 800 / 16 * 50 + (i + 38400) / 3 % 800 / 16 =
          i / 3 / 800 / 16 * 50 + i / 3 % 800 / 16 + 50 := by omega
      have hrow : (i + 38400) / 3 / 800 % 16 = i / 3 / 800 % 16 := by omega
      have hcol : (i + 38400) / 3 % 800 % 16 = i / 3 % 800 % 16 := by omega
      have hbyte : (i + 38400) % 3 = i % 3 := by omega
      have hlt : i < 592 * 2400 := by omega
      rw [framebuffer, if_pos hcell, hnext, hrow, hcol, hbyte, framebuffer, if_pos hlt]
    · -- the strip comes up to where the last row was
      have hlast : 1850 ≤ i / 3 / 800 / 16 * 50 + i / 3 % 800 / 16 + 50 := by omega
      have hlt : i < 592 * 2400 := by omega
      have hstrip : i + 38400 < 600 * 2400 := by omega
      rw [framebuffer, if_neg hcell, if_pos hstrip, framebuffer, if_pos hlt, hblack _ hlast]
      rfl
  · rw [if_neg hcopied]
    unfold framebuffer
    by_cases hlt : i < 592 * 2400
    · have hlast : 1850 ≤ i / 3 / 800 / 16 * 50 + i / 3 % 800 / 16 + 50 := by omega
      have hscreen : i < 600 * 2400 := by omega
      rw [if_pos hscreen, if_pos hlt]
      show 0 = pictures (i / 3 / 800 / 16 * 50 + i / 3 % 800 / 16 + 50) _ _ _
      rw [hblack _ hlast]
      rfl
    · rw [if_neg hlt, if_neg hlt]
      split <;> rfl

theorem clear_framebuffer (mem : FrameBuffer) :
    (fun i => if i < 800 * 600 * 3 then 0 else mem i) = framebuffer (fun _ => black) mem := by
  funext i
  unfold framebuffer
  by_cases hlt : i < 592 * 2400
  · rw [if_pos hlt, if_pos (by omega)]
    rfl
  · rw [if_neg hlt]

end FirstKernel
