import FirstKernel.MouseMotion
import FirstKernel.Pixels

/-!
# The pointer and what is under it

The pointer is drawn in a box of 16 by 16 pixels, of which the handler
has saved what was there. With the box on the screen, writing the saved
pixels back paints them (`restoreBackground_paints`), and the pointer is
painted inside the box (`drawMousePointer_paints`); a pixel that went
through `get_pixel` comes back as the bytes it had (`component_getPixel`).
-/

namespace FirstKernel

/-! ## Pixels through `get_pixel` -/

theorem toNat_component (color : UInt32) {k : Nat} (hk : k < 3) :
    (component color k).toNat = color.toNat / 256 ^ k % 256 := by
  have hmask : ∀ n : Nat, n &&& 255 = n % 256 := fun n => Nat.and_two_pow_sub_one_eq_mod n 8
  match k, hk with
  | 0, _ | 1, _ | 2, _ => simp [component, hmask, Nat.shiftRight_eq_div_pow]

theorem toNat_packed (r g b : UInt8) :
    (r.toUInt32 <<< 16 ||| g.toUInt32 <<< 8 ||| b.toUInt32).toNat =
      (r.toNat * 256 + g.toNat) * 256 + b.toNat := by
  have hr := r.toNat_lt
  have hg := g.toNat_lt
  have hr' : (r.toUInt32 <<< 16).toNat = (r.toNat * 256) <<< 8 := by
    rw [UInt32.toNat_shiftLeft, UInt8.toNat_toUInt32, Nat.shiftLeft_eq, Nat.shiftLeft_eq]
    show r.toNat * 2 ^ 16 % 2 ^ 32 = _
    omega
  have hg' : (g.toUInt32 <<< 8).toNat = g.toNat <<< 8 := by
    rw [UInt32.toNat_shiftLeft, UInt8.toNat_toUInt32, Nat.shiftLeft_eq, Nat.shiftLeft_eq]
    show g.toNat * 2 ^ 8 % 2 ^ 32 = _
    omega
  rw [UInt32.toNat_or, UInt32.toNat_or, hr', hg', UInt8.toNat_toUInt32,
    ← Nat.shiftLeft_or_distrib]
  have hor : r.toNat * 256 ||| g.toNat = r.toNat * 256 + g.toNat := by
    have h := Nat.shiftLeft_add_eq_or_of_lt hg r.toNat
    rw [Nat.shiftLeft_eq] at h
    exact h.symm
  rw [hor, ← Nat.shiftLeft_add_eq_or_of_lt b.toNat_lt, Nat.shiftLeft_eq]

theorem toNat_getPixel {x y : Nat} (hx : x < 800) (hy : y < 600) (mem : FrameBuffer) :
    (getPixel (Int32.ofNat x) (Int32.ofNat y) mem).toNat =
      ((mem ((y * 800 + x) * 3 + 2)).toNat * 256 + (mem ((y * 800 + x) * 3 + 1)).toNat) * 256 +
        (mem ((y * 800 + x) * 3)).toNat := by
  have hoffset : (Int32.ofNat y * 800 * 3 + Int32.ofNat x * 3).toNatClampNeg =
      (y * 800 + x) * 3 := toNatClampNeg_pixelOffset hx hy
  rw [getPixel, if_pos (pixel_onScreen hx hy), hoffset]
  exact toNat_packed ..

/-- The bytes of a pixel come back from the colour that was read. -/
theorem component_getPixel {x y k : Nat} (hx : x < 800) (hy : y < 600) (hk : k < 3)
    (mem : FrameBuffer) :
    component (getPixel (Int32.ofNat x) (Int32.ofNat y) mem) k =
      mem ((y * 800 + x) * 3 + k) := by
  have h0 := (mem ((y * 800 + x) * 3)).toNat_lt
  have h1 := (mem ((y * 800 + x) * 3 + 1)).toNat_lt
  have h2 := (mem ((y * 800 + x) * 3 + 2)).toNat_lt
  rw [← UInt8.toNat_inj, toNat_component _ hk, toNat_getPixel hx hy]
  match k, hk with
  | 0, _ => simp only [Nat.pow_zero, Nat.add_zero]; omega
  | 1, _ => simp only [Nat.pow_one]; omega
  | 2, _ => simp only [show 256 ^ 2 = 65536 from rfl]; omega

/-! ## The box -/

theorem eachPixel_paints {ι β : Type} {picture : ι → β}
    {body : Fin 16 → Fin 16 → (ι → β) → ι → β} {regions : Fin 16 → Fin 16 → ι → Prop}
    (h : ∀ i j, Paints (regions i j) picture (body i j)) :
    Paints (fun n => ∃ i j, regions i j n) picture (eachPixel body) := by
  have hrow : ∀ i ∈ List.finRange 16, Paints (fun n => ∃ j ∈ List.finRange 16, regions i j n)
      picture fun mem => (List.finRange 16).foldl (fun mem j => body i j mem) mem :=
    fun i _ => Paints.foldl fun j _ => h i j
  exact (Paints.foldl hrow).of_iff fun n => by simp

theorem mod_sixteen_lt (n : Nat) : n % 16 < 16 := Nat.mod_lt n (by decide)

/-- Where the pixel of a byte is saved, for a box at `x` and `y`. -/
def boxIndex (x y i : Nat) : Fin 256 :=
  backIndex ⟨(i / 3 / 800 - y) % 16, mod_sixteen_lt _⟩ ⟨(i / 3 % 800 - x) % 16, mod_sixteen_lt _⟩

theorem boxIndex_eq {x y i : Nat} {row col : Fin 16} (hx : x + 16 ≤ 800)
    (h : i / 3 = (y + row.val) * 800 + (x + col.val)) : boxIndex x y i = backIndex row col := by
  have hrow : (i / 3 / 800 - y) % 16 = row.val := by omega
  have hcol : (i / 3 % 800 - x) % 16 = col.val := by omega
  unfold boxIndex
  exact congrArg₂ backIndex (Fin.ext hrow) (Fin.ext hcol)

theorem exists_inBox_iff {x y : Nat} (hx : x + 16 ≤ 800) (n : Nat) :
    (∃ row col : Fin 16, n = (y + row.val) * 800 + (x + col.val)) ↔
      InRectangle x y 16 16 n := by
  unfold InRectangle
  constructor
  · rintro ⟨row, col, h⟩
    omega
  · intro h
    exact ⟨⟨n / 800 - y, by omega⟩, ⟨n % 800 - x, by omega⟩, by simp only; omega⟩

/-- What is restored to a box: for each byte in it the saved one. -/
def savedPicture (x y : Nat) (buffer : Fin 256 → UInt32) (i : Nat) : UInt8 :=
  component (buffer (boxIndex x y i)) (i % 3)

theorem restoreBackground_paints {x y : Nat} (hx : x + 16 ≤ 800) (hy : y + 16 ≤ 600)
    (buffer : Fin 256 → UInt32) :
    Paints (fun i => InRectangle x y 16 16 (i / 3)) (savedPicture x y buffer)
      (restoreBackground (Int32.ofNat x) (Int32.ofNat y) buffer) := by
  have hpixel : ∀ row col : Fin 16, Paints (fun i => i / 3 = (y + row.val) * 800 + (x + col.val))
      (savedPicture x y buffer) (putPixel (Int32.ofNat x + Int32.ofNat col.val)
        (Int32.ofNat y + Int32.ofNat row.val) (buffer (backIndex row col))) := by
    intro row col
    rw [ofNat_add_ofNat, ofNat_add_ofNat]
    refine (putPixel_paints (by omega) (by omega) _).of_eqOn fun i hi => ?_
    rw [savedPicture, boxIndex_eq hx hi]
  exact (eachPixel_paints hpixel).of_iff fun i => exists_inBox_iff hx (i / 3)

/-- The back buffer takes the pixels of the box, row by row. -/
theorem saveBackground_eq (x y : Nat) (mem : FrameBuffer) (buffer : Fin 256 → UInt32)
    (row col : Fin 16) :
    saveBackground (Int32.ofNat x) (Int32.ofNat y) mem buffer (backIndex row col) =
      getPixel (Int32.ofNat (x + col.val)) (Int32.ofNat (y + row.val)) mem := by
  let pixels : Fin 256 → UInt32 := fun k =>
    getPixel (Int32.ofNat (x + k.val % 16)) (Int32.ofNat (y + k.val / 16)) mem
  have hpixels : ∀ i j : Fin 16, pixels (backIndex i j) =
      getPixel (Int32.ofNat x + Int32.ofNat j.val) (Int32.ofNat y + Int32.ofNat i.val) mem := by
    intro i j
    have hrow : (backIndex i j).val / 16 = i.val := by simp only [backIndex]; omega
    have hcol : (backIndex i j).val % 16 = j.val := by simp only [backIndex]; omega
    simp only [pixels, hrow, hcol, ofNat_add_ofNat]
  have hsave : ∀ i j : Fin 16, Paints (fun k => k = backIndex i j) pixels
      fun buffer => Function.update buffer (backIndex i j) (getPixel
        (Int32.ofNat x + Int32.ofNat j.val) (Int32.ofNat y + Int32.ofNat i.val) mem) := by
    intro i j
    rw [← hpixels]
    exact Paints.update pixels (backIndex i j)
  have hin := (eachPixel_paints hsave buffer (backIndex row col)).1 ⟨row, col, rfl⟩
  rw [saveBackground, hin, hpixels, ofNat_add_ofNat, ofNat_add_ofNat]

theorem savedPicture_saveBackground {x y : Nat} (hx : x + 16 ≤ 800) (hy : y + 16 ≤ 600)
    (mem : FrameBuffer) (buffer : Fin 256 → UInt32) {i : Nat}
    (hi : InRectangle x y 16 16 (i / 3)) :
    savedPicture x y (saveBackground (Int32.ofNat x) (Int32.ofNat y) mem buffer) i = mem i := by
  obtain ⟨row, col, h⟩ := (exists_inBox_iff hx (i / 3)).mpr hi
  have hbyte : ((y + row.val) * 800 + (x + col.val)) * 3 + i % 3 = i := by omega
  rw [savedPicture, boxIndex_eq hx h, saveBackground_eq,
    component_getPixel (by omega) (by omega) (Nat.mod_lt i (by decide)), hbyte]

/-! ## The pointer -/

def pointerShade (row col : Nat) : Nat := (mousePointer.getD row []).getD col 0

/-- The pointer at `x` and `y`, filled with a colour. -/
def pointerPicture (x y : Nat) (fillColor : UInt32) (i : Nat) : UInt8 :=
  component (if pointerShade (i / 3 / 800 - y) (i / 3 % 800 - x) = 1 then 0 else fillColor) (i % 3)

theorem drawMousePointer_paints {x y : Nat} (hx : x + 16 ≤ 800) (hy : y + 16 ≤ 600)
    (fillColor : UInt32) :
    Paints (fun i => InRectangle x y 16 16 (i / 3) ∧
        (pointerShade (i / 3 / 800 - y) (i / 3 % 800 - x) = 1 ∨
          pointerShade (i / 3 / 800 - y) (i / 3 % 800 - x) = 2))
      (pointerPicture x y fillColor)
      (drawMousePointer (Int32.ofNat x) (Int32.ofNat y) fillColor) := by
  have hpixel : ∀ row col : Fin 16, Paints
      (fun i => i / 3 = (y + row.val) * 800 + (x + col.val) ∧
        (pointerShade row.val col.val = 1 ∨ pointerShade row.val col.val = 2))
      (pointerPicture x y fillColor) fun mem =>
        if pointerShade row.val col.val = 1 then
          putPixel (Int32.ofNat x + Int32.ofNat col.val) (Int32.ofNat y + Int32.ofNat row.val) 0 mem
        else if pointerShade row.val col.val = 2 then
          putPixel (Int32.ofNat x + Int32.ofNat col.val) (Int32.ofNat y + Int32.ofNat row.val)
            fillColor mem
        else mem := by
    intro row col
    rw [ofNat_add_ofNat, ofNat_add_ofNat]
    have hplace : ∀ i, i / 3 = (y + row.val) * 800 + (x + col.val) →
        pointerPicture x y fillColor i =
          component (if pointerShade row.val col.val = 1 then 0 else fillColor) (i % 3) := by
      intro i hi
      have hrow : i / 3 / 800 - y = row.val := by omega
      have hcol : i / 3 % 800 - x = col.val := by omega
      rw [pointerPicture, hrow, hcol]
    by_cases h1 : pointerShade row.val col.val = 1
    · simp only [h1, if_true, true_or, and_true] at hplace ⊢
      exact (putPixel_paints (by omega) (by omega) 0).of_eqOn fun i hi => (hplace i hi).symm
    · by_cases h2 : pointerShade row.val col.val = 2
      · simp only [h2] at hplace ⊢
        exact ((putPixel_paints (by omega) (by omega) fillColor).of_eqOn
          fun i hi => (hplace i hi).symm).of_iff fun i => by simp
      · simp only [h1, h2, if_false, or_self, and_false]
        exact Paints.nothing
  refine (eachPixel_paints hpixel).of_iff fun i => ?_
  constructor
  · rintro ⟨row, col, hi, hshade⟩
    have hrow : i / 3 / 800 - y = row.val := by omega
    have hcol : i / 3 % 800 - x = col.val := by omega
    rw [hrow, hcol]
    exact ⟨(exists_inBox_iff hx _).mp ⟨row, col, hi⟩, hshade⟩
  · rintro ⟨hbox, hshade⟩
    obtain ⟨row, col, hi⟩ := (exists_inBox_iff hx _).mpr hbox
    have hrow : i / 3 / 800 - y = row.val := by omega
    have hcol : i / 3 % 800 - x = col.val := by omega
    rw [hrow, hcol] at hshade
    exact ⟨row, col, hi, hshade⟩

/-- Outside its box the pointer leaves all as it was. -/
theorem drawMousePointer_of_notMem {x y : Nat} (hx : x + 16 ≤ 800) (hy : y + 16 ≤ 600)
    (fillColor : UInt32) (mem : FrameBuffer) {i : Nat} (hi : ¬InRectangle x y 16 16 (i / 3)) :
    drawMousePointer (Int32.ofNat x) (Int32.ofNat y) fillColor mem i = mem i :=
  (drawMousePointer_paints hx hy fillColor mem i).2 fun h => hi h.1

end FirstKernel
