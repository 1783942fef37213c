import FirstKernel.MouseFraming

/-!
# The movement in a mouse packet

A packet holds two movements of nine bits in two's complement, the low
eight bits in a byte of their own and the sign in the header. The
handler keeps the bytes as signed `char`s, so a low byte from 128 on is
negative whatever the header says (`toInt_delta`). A movement up or to
the right by 128 or more goes the other way. The limits of the screen
never make up for that, so the positions of a run are right just when no
packet has such a movement (`motionsExact_iff`).
-/

namespace FirstKernel

/-- A packet with the overflow bits clear, and the status that is read with each of
its bytes. -/
structure Delivery extends Packet where
  noOverflow : b0 &&& 0xC0 = 0
  status : Fin 3 → UInt8
  ready : ∀ i, status i &&& 0x20 ≠ 0

def Delivery.interrupts (p : Delivery) : List (UInt8 × UInt8) :=
  [(p.status 0, p.b0), (p.status 1, p.b1), (p.status 2, p.b2)]

/-- The handler runs once for each status and data byte. -/
def handleAll (interrupts : List (UInt8 × UInt8)) (s : Mouse × FrameBuffer) :
    Mouse × FrameBuffer :=
  interrupts.foldl (fun s i => mouseHandler i.1 i.2 s.1 s.2) s

/-- A movement of nine bits, by its low byte and its sign. -/
def nineBits (low : UInt8) (sign : Bool) : Int := low.toNat - 256 * sign.toNat

def Delivery.dx (p : Delivery) : Int := nineBits p.b1 (p.b0 &&& 0x10 ≠ 0)

def Delivery.dy (p : Delivery) : Int := nineBits p.b2 (p.b0 &&& 0x20 ≠ 0)

def clamp (v low high : Int) : Int := max low (min high v)

/-- The position in `m'` is that in `m` moved by the packet. -/
structure MotionExact (p : Delivery) (m m' : Mouse) : Prop where
  x_eq : m'.mouseX.toInt = clamp (m.mouseX.toInt + p.dx) 0 784
  y_eq : m'.mouseY.toInt = clamp (m.mouseY.toInt - p.dy) 0 584

/-- After each packet of the run the position is right. -/
def MotionsExact : List Delivery → Mouse × FrameBuffer → Prop
  | [], _ => True
  | p :: ps, s =>
      let s' := handleAll p.interrupts s
      MotionExact p s.1 s'.1 ∧ MotionsExact ps s'

/-- A movement that is not negative fits a signed byte. -/
structure Delivery.Slow (p : Delivery) : Prop where
  x_lt : p.b0 &&& 0x10 = 0 → p.b1 < 128
  y_lt : p.b0 &&& 0x20 = 0 → p.b2 < 128

/-! ## Positions -/

structure OnScreen (m : Mouse) : Prop where
  x_ge : 0 ≤ m.mouseX.toInt
  x_le : m.mouseX.toInt ≤ 784
  y_ge : 0 ≤ m.mouseY.toInt
  y_le : m.mouseY.toInt ≤ 584

theorem toInt_limited {high : Int32} (v : Int32) (h : 0 ≤ high) :
    (limited high v).toInt = clamp v.toInt 0 high.toInt := by
  have hzero : (0 : Int32).toInt = 0 := rfl
  unfold limited clamp
  simp only [Int32.lt_iff_toInt_lt, Int32.le_iff_toInt_le] at *
  split <;> split <;> simp_all <;> omega

theorem clamp_ge (v high : Int) : 0 ≤ clamp v 0 high := Int.le_max_left ..

theorem clamp_le {high : Int} (v : Int) (h : 0 ≤ high) : clamp v 0 high ≤ high := by
  unfold clamp
  omega

/-- The code's movement: the low byte counts as a `char`. -/
theorem toInt_delta (low : UInt8) (sign : Bool) :
    (delta low sign).toInt =
      nineBits low (sign || decide (128 ≤ low)) := by
  have hall : ∀ (n : Fin 256) (sign : Bool), (delta (UInt8.ofNat n.val) sign).toInt =
      nineBits (UInt8.ofNat n.val) (sign || decide (128 ≤ UInt8.ofNat n.val)) := by
    decide +kernel
  have hlow := hall ⟨low.toNat, low.toNat_lt⟩ sign
  rwa [UInt8.ofNat_toNat] at hlow

theorem nineBits_ge (low : UInt8) (sign : Bool) : -256 ≤ nineBits low sign := by
  have := sign.toNat_le
  unfold nineBits
  omega

theorem nineBits_le (low : UInt8) (sign : Bool) : nineBits low sign ≤ 255 := by
  have := low.toNat_lt
  unfold nineBits
  omega

theorem onScreen_bootMouse : OnScreen bootMouse := ⟨by decide, by decide, by decide, by decide⟩

theorem OnScreen.congr {m m' : Mouse} (h : OnScreen m) (hx : m'.mouseX = m.mouseX)
    (hy : m'.mouseY = m.mouseY) : OnScreen m' :=
  ⟨hx ▸ h.x_ge, hx ▸ h.x_le, hy ▸ h.y_ge, hy ▸ h.y_le⟩

theorem onScreen_movePointer (m : Mouse) (vgaMem : FrameBuffer) :
    OnScreen (movePointer m vgaMem).1 := by
  have hx : (movePointer m vgaMem).1.mouseX.toInt = clamp _ 0 784 :=
    toInt_limited (m.mouseX + delta (m.mouseBytes 1) (m.mouseBytes 0 &&& 0x10 ≠ 0)) (by decide)
  have hy : (movePointer m vgaMem).1.mouseY.toInt = clamp _ 0 584 :=
    toInt_limited (m.mouseY - delta (m.mouseBytes 2) (m.mouseBytes 0 &&& 0x20 ≠ 0)) (by decide)
  refine ⟨?_, ?_, ?_, ?_⟩
  · rw [hx]
    exact clamp_ge ..
  · rw [hx]
    exact clamp_le _ (by decide)
  · rw [hy]
    exact clamp_ge ..
  · rw [hy]
    exact clamp_le _ (by decide)

theorem onScreen_takeByte {m : Mouse} (h : OnScreen m) (byte : UInt8) (vgaMem : FrameBuffer) :
    OnScreen (takeByte byte m vgaMem).1 := by
  by_cases hlt : m.mouseCycle.val + 1 < 3
  · rw [takeByte_of_lt hlt]
    exact h.congr rfl rfl
  · rw [takeByte_of_last hlt]
    simp only
    split
    · exact h.congr rfl rfl
    · exact onScreen_movePointer ..

theorem onScreen_mouseHandler {m : Mouse} (h : OnScreen m) (status byte : UInt8)
    (vgaMem : FrameBuffer) : OnScreen (mouseHandler status byte m vgaMem).1 := by
  unfold mouseHandler
  split
  · exact h.congr rfl rfl
  · exact (onScreen_takeByte h byte vgaMem).congr rfl rfl

/-- The pointer stays on the screen, whatever the interrupts bring. -/
theorem onScreen_handleAll : ∀ (interrupts : List (UInt8 × UInt8)) {s : Mouse × FrameBuffer},
    OnScreen s.1 → OnScreen (handleAll interrupts s).1
  | [], _, h => h
  | i :: is, s, h => onScreen_handleAll is (onScreen_mouseHandler h i.1 i.2 s.2)

/-! ## One packet -/

/-- A byte has been put with the others, and the position is as it was. -/
structure Collects (m : Mouse) (byte : UInt8) (m' : Mouse) : Prop where
  bytes_eq : m'.mouseBytes = Function.update m.mouseBytes m.mouseCycle byte
  cycle_eq : m'.mouseCycle.val = m.mouseCycle.val + 1
  x_eq : m'.mouseX = m.mouseX
  y_eq : m'.mouseY = m.mouseY

theorem mouseHandler_collects {status : UInt8} (hready : status &&& 0x20 ≠ 0) {m : Mouse}
    (hlt : m.mouseCycle.val + 1 < 3) (byte : UInt8) (vgaMem : FrameBuffer) :
    Collects m byte (mouseHandler status byte m vgaMem).1 := by
  rw [mouseHandler_ready hready, takeByte_of_lt hlt]
  exact ⟨rfl, rfl, rfl, rfl⟩

/-- The header and the movements in `bytes` have gone to the position. -/
structure Moves (bytes : Fin 3 → UInt8) (m m' : Mouse) : Prop where
  cycle_eq : m'.mouseCycle = 0
  x_eq : m'.mouseX = limited 784 (m.mouseX + delta (bytes 1) (bytes 0 &&& 0x10 ≠ 0))
  y_eq : m'.mouseY = limited 584 (m.mouseY - delta (bytes 2) (bytes 0 &&& 0x20 ≠ 0))

theorem mouseHandler_moves {status : UInt8} (hready : status &&& 0x20 ≠ 0) {m : Mouse}
    (hlast : ¬m.mouseCycle.val + 1 < 3) (byte : UInt8)
    (hpass : Passes (Function.update m.mouseBytes m.mouseCycle byte)) (vgaMem : FrameBuffer) :
    Moves (Function.update m.mouseBytes m.mouseCycle byte) m
      (mouseHandler status byte m vgaMem).1 := by
  rw [mouseHandler_ready hready, takeByte_of_last hlast]
  simp only [if_neg hpass]
  exact ⟨rfl, rfl, rfl⟩

theorem moves_handleAll (p : Delivery) {s : Mouse × FrameBuffer} (h : s.1.mouseCycle = 0) :
    Moves p.cells s.1 (handleAll p.interrupts s).1 := by
  have hc1 := mouseHandler_collects (p.ready 0) (m := s.1) (by rw [h]; decide) p.b0 s.2
  let s1 := mouseHandler (p.status 0) p.b0 s.1 s.2
  have h1 : s1.1.mouseCycle = 1 := Fin.ext (hc1.cycle_eq.trans (by rw [h]; rfl))
  have hc2 := mouseHandler_collects (p.ready 1) (m := s1.1) (by rw [h1]; decide) p.b1 s1.2
  let s2 := mouseHandler (p.status 1) p.b1 s1.1 s1.2
  have h2 : s2.1.mouseCycle = 2 := Fin.ext (hc2.cycle_eq.trans (by rw [h1]; rfl))
  have hcells : Function.update s2.1.mouseBytes s2.1.mouseCycle p.b2 = p.cells := by
    rw [hc2.bytes_eq, hc1.bytes_eq, h2, h1, h]
    exact eq_of_three rfl rfl rfl
  have hm := mouseHandler_moves (p.ready 2) (m := s2.1) (by rw [h2]; decide) p.b2
    (by rw [hcells]; exact p.header) s2.2
  rw [hcells] at hm
  exact ⟨hm.cycle_eq, by rw [← hc1.x_eq, ← hc2.x_eq]; exact hm.x_eq,
    by rw [← hc1.y_eq, ← hc2.y_eq]; exact hm.y_eq⟩

/-! ## Runs -/

/-- With the sign the code takes, a movement is right or 256 short. -/
theorem nineBits_or (low : UInt8) (sign : Bool) :
    nineBits low (sign || decide (128 ≤ low)) = nineBits low sign ∧
      (sign = false → low < 128) ∨
    nineBits low (sign || decide (128 ≤ low)) = nineBits low sign - 256 ∧
      128 ≤ nineBits low sign ∧ ¬(sign = false → low < 128) := by
  cases sign with
  | true => exact Or.inl ⟨rfl, fun h => by cases h⟩
  | false =>
      by_cases hlow : 128 ≤ low
      · refine Or.inr ⟨?_, ?_, fun h => absurd (h rfl) (UInt8.not_lt.mpr hlow)⟩
        · rw [decide_eq_true hlow]
          simp [nineBits]
        · have := UInt8.le_iff_toNat_le.mp hlow
          simp only [nineBits, Bool.toNat_false]
          simp at this
          omega
      · exact Or.inl ⟨by rw [decide_eq_false hlow]; rfl, fun _ => UInt8.not_le.mp hlow⟩

/-- Whatever tells a movement from one 256 short tells whether the packet is slow. -/
theorem nineBits_or_iff {f : Int → Int} (low : UInt8) (sign : Bool)
    (hf : ∀ d, 128 ≤ d → d ≤ 255 → f (d - 256) ≠ f d) :
    f (nineBits low (sign || decide (128 ≤ low))) = f (nineBits low sign) ↔
      (sign = false → low < 128) := by
  rcases nineBits_or low sign with ⟨heq, hslow⟩ | ⟨heq, hge, hfast⟩
  · rw [heq]
    exact iff_of_true rfl hslow
  · rw [heq]
    exact iff_of_false (hf _ hge (nineBits_le low sign)) hfast

/-- A movement 256 short is seen on the screen, whatever the limits do. -/
theorem clamp_add_eq_iff {v high : Int} (low : UInt8) (sign : Bool) (hv : 0 ≤ v)
    (hhigh : v ≤ high) (hpos : 256 ≤ high) :
    clamp (v + nineBits low (sign || decide (128 ≤ low))) 0 high =
      clamp (v + nineBits low sign) 0 high ↔ (sign = false → low < 128) := by
  refine nineBits_or_iff (f := fun d => clamp (v + d) 0 high) low sign fun d hge hle => ?_
  unfold clamp
  omega

theorem clamp_sub_eq_iff {v high : Int} (low : UInt8) (sign : Bool) (hv : 0 ≤ v)
    (hhigh : v ≤ high) (hpos : 256 ≤ high) :
    clamp (v - nineBits low (sign || decide (128 ≤ low))) 0 high =
      clamp (v - nineBits low sign) 0 high ↔ (sign = false → low < 128) := by
  refine nineBits_or_iff (f := fun d => clamp (v - d) 0 high) low sign fun d hge hle => ?_
  unfold clamp
  omega

theorem toInt_add_delta {v : Int32} (hv : 0 ≤ v.toInt) (hhigh : v.toInt ≤ 784) (low : UInt8)
    (sign : Bool) :
    (v + delta low sign).toInt = v.toInt + nineBits low (sign || decide (128 ≤ low)) := by
  have hge := nineBits_ge low (sign || decide (128 ≤ low))
  have hle := nineBits_le low (sign || decide (128 ≤ low))
  rw [Int32.toInt_add, toInt_delta]
  exact Int.bmod_eq_of_le (by omega) (by omega)

theorem toInt_sub_delta {v : Int32} (hv : 0 ≤ v.toInt) (hhigh : v.toInt ≤ 784) (low : UInt8)
    (sign : Bool) :
    (v - delta low sign).toInt = v.toInt - nineBits low (sign || decide (128 ≤ low)) := by
  have hge := nineBits_ge low (sign || decide (128 ≤ low))
  have hle := nineBits_le low (sign || decide (128 ≤ low))
  rw [Int32.toInt_sub, toInt_delta]
  exact Int.bmod_eq_of_le (by omega) (by omega)

theorem sign_eq_false_iff (b mask : UInt8) : decide (b &&& mask ≠ 0) = false ↔ b &&& mask = 0 := by
  rw [decide_eq_false_iff_not, not_not]

/-- One packet moves the position as it says just when it is slow. -/
theorem motionExact_iff (p : Delivery) {m m' : Mouse} (hm : OnScreen m)
    (hmoves : Moves p.cells m m') : MotionExact p m m' ↔ p.Slow := by
  have hx : m'.mouseX.toInt =
      clamp (m.mouseX.toInt + nineBits p.b1 (p.b0 &&& 0x10 ≠ 0 || decide (128 ≤ p.b1))) 0 784 := by
    rw [hmoves.x_eq, toInt_limited _ (by decide)]
    exact congrArg (clamp · 0 784) (toInt_add_delta hm.x_ge hm.x_le ..)
  have hy : m'.mouseY.toInt =
      clamp (m.mouseY.toInt - nineBits p.b2 (p.b0 &&& 0x20 ≠ 0 || decide (128 ≤ p.b2))) 0 584 := by
    rw [hmoves.y_eq, toInt_limited _ (by decide)]
    exact congrArg (clamp · 0 584)
      (toInt_sub_delta hm.y_ge (Int.le_trans hm.y_le (by decide)) ..)
  have hxIff := clamp_add_eq_iff p.b1 (p.b0 &&& 0x10 ≠ 0) hm.x_ge hm.x_le
    (by decide)
  have hyIff := clamp_sub_eq_iff p.b2 (p.b0 &&& 0x20 ≠ 0) hm.y_ge hm.y_le
    (by decide)
  rw [← hx, sign_eq_false_iff] at hxIff
  rw [← hy, sign_eq_false_iff] at hyIff
  exact ⟨fun h => ⟨hxIff.mp h.x_eq, hyIff.mp h.y_eq⟩,
    fun h => ⟨hxIff.mpr h.x_lt, hyIff.mpr h.y_lt⟩⟩

theorem motionsExact_iff_of_onScreen : ∀ (ps : List Delivery) {s : Mouse × FrameBuffer},
    s.1.mouseCycle = 0 → OnScreen s.1 → (MotionsExact ps s ↔ ∀ p ∈ ps, p.Slow)
  | [], _, _, _ => iff_of_true trivial fun _ hp => absurd hp List.not_mem_nil
  | p :: ps, s, hcycle, hscreen => by
      have hmoves := moves_handleAll p hcycle
      rw [List.forall_mem_cons]
      exact and_congr (motionExact_iff p hscreen hmoves) (motionsExact_iff_of_onScreen ps
        hmoves.cycle_eq (onScreen_handleAll p.interrupts hscreen))

/-- **Motion.** After any interrupts, the positions after the packets that follow are
right just when each of the packets is slow. -/
theorem motionsExact_iff (before : List (UInt8 × UInt8)) (vgaMem : FrameBuffer)
    (hcycle : (handleAll before (bootMouse, vgaMem)).1.mouseCycle = 0) (ps : List Delivery) :
    MotionsExact ps (handleAll before (bootMouse, vgaMem)) ↔ ∀ p ∈ ps, p.Slow :=
  motionsExact_iff_of_onScreen ps hcycle (onScreen_handleAll before onScreen_bootMouse)

theorem ready_const : ∀ _ : Fin 3, (0x20 : UInt8) &&& 0x20 ≠ 0 := fun _ => by decide

theorem noOverflow_eight : (0x08 : UInt8) &&& 0xC0 = 0 := by decide

/-- A movement to the right. -/
def right (b1 : UInt8) : Delivery :=
  ⟨⟨0x08, b1, 0, header_eight⟩, noOverflow_eight, fun _ => 0x20, ready_const⟩

/-- A movement to the left by 206 and down by 196. -/
def leftDown : Delivery :=
  ⟨⟨0x38, 50, 60, by decide⟩, by decide, fun _ => 0x21, fun _ => by decide⟩

/-- A packet has been taken, among interrupts that came without a byte. -/
def onePacketBefore : List (UInt8 × UInt8) :=
  [(0x00, 0xFF), (0x20, 0x08), (0x20, 5), (0x01, 7), (0x20, 3)]

/-- Movements of more than 127 are no harm to the left and down. -/
theorem motionsExact_iff_leftDown :
    MotionsExact [right 127, leftDown, right 1]
      (handleAll onePacketBefore (bootMouse, fun _ => 0)) := by
  refine (motionsExact_iff onePacketBefore (fun _ => 0) ?_ _).mpr ?_
  · decide +kernel
  · intro p hp
    simp only [List.mem_cons, List.not_mem_nil, or_false] at hp
    rcases hp with rfl | rfl | rfl <;> exact ⟨by decide, by decide⟩

/-- Sent to the right by 200, the pointer goes left by 56. -/
theorem not_motionsExact_right :
    ¬MotionsExact [right 200] (handleAll [] (bootMouse, fun _ => 0)) := by
  rintro ⟨hexact, _⟩
  have hmoves := moves_handleAll (right 200) (s := (bootMouse, fun _ => 0)) rfl
  have hx := hexact.x_eq
  rw [show handleAll [] (bootMouse, fun _ => 0) = (bootMouse, fun _ => 0) from rfl,
    hmoves.x_eq] at hx
  revert hx
  decide +kernel

end FirstKernel
