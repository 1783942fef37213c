import FirstKernel.MousePointer

/-!
# Rectangles, pixel by pixel

What `draw_rectangle` leaves for `get_pixel` to read, and what it stores.
Its stores are collected beside it by the same loops: the index into
`vga_mem` and the byte, in order. The index is an `int`, and of this `int`
it is said that it is inside the frame (`InFrame`).
-/

namespace FirstKernel

/-! ## Pixels -/

/-- Three bytes of a colour are read back as its lower 24 bits. -/
theorem getPixel_of_component {x y : Nat} (hx : x < 800) (hy : y < 600) {mem : FrameBuffer}
    {color : UInt32} (h : ∀ k < 3, mem ((y * 800 + x) * 3 + k) = component color k) :
    getPixel (Int32.ofNat x) (Int32.ofNat y) mem = color &&& 0xFFFFFF := by
  have h0 : mem ((y * 800 + x) * 3) = component color 0 := h 0 (by decide)
  have hmask : color.toNat &&& 0xFFFFFF = color.toNat % 2 ^ 24 :=
    Nat.and_two_pow_sub_one_eq_mod color.toNat 24
  have hand : (color &&& 0xFFFFFF).toNat = color.toNat % 2 ^ 24 := by
    rw [UInt32.toNat_and]
    exact hmask
  rw [← UInt32.toNat_inj, toNat_getPixel hx hy, h0, h 1 (by decide), h 2 (by decide),
    toNat_component color (by decide), toNat_component color (by decide),
    toNat_component color (by decide), hand]
  omega

theorem getPixel_congr {x y : Int32} {mem mem' : FrameBuffer}
    (h : ∀ i, InPixel x y i → mem i = mem' i) : getPixel x y mem = getPixel x y mem' := by
  by_cases hon : PixelOnScreen x y
  · obtain ⟨a, b, ha, hb, rfl, rfl⟩ := (pixelOnScreen_iff x y).mp hon
    have hbyte : ∀ k < 3, mem ((b * 800 + a) * 3 + k) = mem' ((b * 800 + a) * 3 + k) :=
      fun k hk => h _ ((inPixel_ofNat_iff ha hb _).mpr (by omega))
    have h0 : mem ((b * 800 + a) * 3) = mem' ((b * 800 + a) * 3) := hbyte 0 (by decide)
    rw [← UInt32.toNat_inj, toNat_getPixel ha hb, toNat_getPixel ha hb, h0,
      hbyte 1 (by decide), hbyte 2 (by decide)]
  · have hoff : ∀ mem, getPixel x y mem = 0 := fun mem => if_neg hon
    rw [hoff, hoff]

/-! ## Stores -/

/-- The stores of `put_pixel`. -/
def putPixelStores (x y : Int32) (color : UInt32) : List (Int32 × UInt8) :=
  if 0 ≤ x ∧ x < 800 ∧ 0 ≤ y ∧ y < 600 then
    let offset := y * 800 * 3 + x * 3
    [(offset, (color &&& 0xFF).toUInt8), (offset + 1, (color >>> 8 &&& 0xFF).toUInt8),
      (offset + 2, (color >>> 16 &&& 0xFF).toUInt8)]
  else []

/-- The stores of `draw_rectangle`, after those made before. -/
def drawRectangleStores (x y width height : Int32) (color : UInt32) :
    List (Int32 × UInt8) → List (Int32 × UInt8) :=
  forBelow height fun i => forBelow width fun j stores =>
    stores ++ putPixelStores (x + j) (y + i) color

/-- `vga_mem[i] = b`, for each of the stores. -/
def storeAll (stores : List (Int32 × UInt8)) (vgaMem : FrameBuffer) : FrameBuffer :=
  stores.foldl (fun vgaMem store => Function.update vgaMem store.1.toNatClampNeg store.2) vgaMem

def InFrame (i : Int32) : Prop := 0 ≤ i.toInt ∧ i.toInt < 800 * 600 * 3

theorem putPixelStores_onScreen {x y : Nat} (hx : x < 800) (hy : y < 600) (color : UInt32) :
    putPixelStores (Int32.ofNat x) (Int32.ofNat y) color =
      [(Int32.ofNat ((y * 800 + x) * 3), component color 0),
        (Int32.ofNat ((y * 800 + x) * 3 + 1), component color 1),
        (Int32.ofNat ((y * 800 + x) * 3 + 2), component color 2)] := by
  have hoffset : Int32.ofNat y * 800 * 3 + Int32.ofNat x * 3 =
      Int32.ofNat ((y * 800 + x) * 3) := pixelOffset_ofNat x y
  have h1 := ofNat_add_ofNat ((y * 800 + x) * 3) 1
  have h2 := ofNat_add_ofNat ((y * 800 + x) * 3) 2
  rw [putPixelStores, if_pos (pixel_onScreen hx hy), hoffset, ← h1, ← h2]
  rfl

theorem putPixelStores_offScreen {x y : Int32} (h : ¬PixelOnScreen x y) (color : UInt32) :
    putPixelStores x y color = [] := if_neg h

theorem putPixelStores_inFrame (x y : Int32) (color : UInt32) :
    ∀ store ∈ putPixelStores x y color, InFrame store.1 := by
  intro store hmem
  by_cases hon : PixelOnScreen x y
  · obtain ⟨a, b, ha, hb, rfl, rfl⟩ := (pixelOnScreen_iff x y).mp hon
    have hstore : ∀ i, i < 800 * 600 * 3 → InFrame (Int32.ofNat i) := by
      intro i hi
      rw [InFrame, Int32.toInt_ofNat_of_lt (by omega)]
      omega
    rw [putPixelStores_onScreen ha hb] at hmem
    simp only [List.mem_cons, List.not_mem_nil, or_false] at hmem
    rcases hmem with rfl | rfl | rfl
    · exact hstore _ (by omega)
    · exact hstore _ (by omega)
    · exact hstore _ (by omega)
  · rw [putPixelStores_offScreen hon] at hmem
    cases hmem

theorem putPixel_eq_storeAll (x y : Int32) (color : UInt32) (mem : FrameBuffer) :
    putPixel x y color mem = storeAll (putPixelStores x y color) mem := by
  by_cases hon : PixelOnScreen x y
  · obtain ⟨a, b, ha, hb, rfl, rfl⟩ := (pixelOnScreen_iff x y).mp hon
    have hindex : ∀ i, i < 800 * 600 * 3 → (Int32.ofNat i).toNatClampNeg = i :=
      fun i hi => Int32.toNatClampNeg_ofNat_of_lt (by omega)
    rw [putPixel_onScreen ha hb, putPixelStores_onScreen ha hb]
    simp only [storeAll, List.foldl_cons, List.foldl_nil]
    rw [hindex _ (by omega), hindex _ (by omega), hindex _ (by omega)]
  · have hdraw : putPixel x y color mem = mem := if_neg hon
    rw [hdraw, putPixelStores_offScreen hon]
    rfl

/-- The stores that were collected beside a drawing are those it has made, and all of them
are in the frame buffer. -/
def Collected (mem : FrameBuffer) (mem' : FrameBuffer) (stores : List (Int32 × UInt8)) : Prop :=
  mem' = storeAll stores mem ∧ ∀ store ∈ stores, InFrame store.1

theorem Collected.putPixel {mem mem' : FrameBuffer} {stores : List (Int32 × UInt8)}
    (h : Collected mem mem' stores) (x y : Int32) (color : UInt32) :
    Collected mem (putPixel x y color mem') (stores ++ putPixelStores x y color) := by
  obtain ⟨hmem, hin⟩ := h
  refine ⟨?_, fun store hstore => ?_⟩
  · rw [putPixel_eq_storeAll, hmem, storeAll, storeAll, storeAll, List.foldl_append]
  · rcases List.mem_append.mp hstore with hold | hnew
    · exact hin store hold
    · exact putPixelStores_inFrame x y color store hnew

/-- Two loops in step keep what their rounds keep. -/
theorem forBelow_rel {σ τ : Type} {n : Int32} {body : Int32 → σ → σ} {body' : Int32 → τ → τ}
    {R : σ → τ → Prop} (hstep : ∀ k s t, R s t → R (body k s) (body' k t)) {s : σ} {t : τ}
    (h : R s t) : R (forBelow n body s) (forBelow n body' t) :=
  List.foldl_rel h fun _ _ s t hst => hstep _ s t hst

theorem collected_drawRectangle (x y width height : Int32) (color : UInt32) (mem : FrameBuffer) :
    Collected mem (drawRectangle x y width height color mem)
      (drawRectangleStores x y width height color []) := by
  have hstart : Collected mem mem [] := ⟨rfl, fun _ hmem => absurd hmem List.not_mem_nil⟩
  exact forBelow_rel (fun _ _ _ hrow => forBelow_rel (fun _ _ _ h => h.putPixel _ _ color) hrow)
    hstart

/-- **Rectangles are exact and clipped**: the pixels of the screen inside the rectangle have
its colour, every other pixel is unchanged, and every byte is stored inside the frame. -/
theorem drawRectangle_exact (x y width height : Int32) (color : UInt32) (mem : FrameBuffer) :
    (∀ a b : Int32, PixelOnScreen a b → Covers x y width height a.toInt b.toInt →
      getPixel a b (drawRectangle x y width height color mem) = color &&& 0xFFFFFF) ∧
    (∀ a b : Int32, ¬(PixelOnScreen a b ∧ Covers x y width height a.toInt b.toInt) →
      getPixel a b (drawRectangle x y width height color mem) = getPixel a b mem) ∧
    drawRectangle x y width height color mem =
      storeAll (drawRectangleStores x y width height color []) mem ∧
    ∀ store ∈ drawRectangleStores x y width height color [],
      0 ≤ store.1.toInt ∧ store.1.toInt < 800 * 600 * 3 := by
  have hpaints := drawRectangle_paints_clipped x y width height color mem
  refine ⟨fun a b hon hcov => ?_, fun a b hnot => ?_, collected_drawRectangle ..⟩
  · obtain ⟨a, b, ha, hb, rfl, rfl⟩ := (pixelOnScreen_iff a b).mp hon
    rw [Int32.toInt_ofNat_of_lt (by omega), Int32.toInt_ofNat_of_lt (by omega)] at hcov
    refine getPixel_of_component ha hb fun k hk => ?_
    have hcol : ((b * 800 + a) * 3 + k) / 3 % 800 = a := by omega
    have hrow : ((b * 800 + a) * 3 + k) / 3 / 800 = b := by omega
    have hplace : ((b * 800 + a) * 3 + k) % 3 = k := by omega
    have hin := (hpaints ((b * 800 + a) * 3 + k)).1
    simp only [hcol, hrow, hplace] at hin
    exact hin ⟨by omega, hcov⟩
  · refine getPixel_congr fun i hi => (hpaints i).2 fun hcov => hnot ⟨hi.onScreen, ?_⟩
    rw [hi.2.1, hi.2.2]
    exact hcov.2

end FirstKernel
