import FirstKernel.MathCommand
import FirstKernel.Ports

/-!
# The timer chip, `drivers/speaker.c` and `drivers/timer.c`

Both `play_sound` and `init_timer` give the chip a divisor of its clock of
1193180 Hz, as a low and a high byte for the port of their channel. The
high byte of `init_timer` is `divisor >> 8`, that of `play_sound` is the
truth value of `divisor > 8`. A division by zero raises the divide
exception (`Trap`).
-/

namespace FirstKernel

variable {σ : Type}

def playSound (ports : BytePorts σ) (frequency : Int32) (s : σ) : Except Trap σ := do
  let divisor ← divide 1193180 frequency
  let s := ports.bytesOut 0x43 0xb6 s
  let s := ports.bytesOut 0x42 (divisor &&& 0xFF).toUInt32.toUInt8 s
  let s := ports.bytesOut 0x42 ((if divisor > 8 then 1 else 0 : Int32) &&& 0xFF).toUInt32.toUInt8 s
  let (tmp, s) := ports.bytesIn 0x61 s
  .ok (if tmp ≠ tmp ||| 3 then ports.bytesOut 0x61 (tmp ||| 3) s else s)

/-- `init_timer`, with the new `current_frecuency`. -/
def initTimer (ports : BytePorts σ) (frecuency : UInt32) (s : σ) : Except Trap (UInt32 × σ) :=
  if frecuency = 0 then .error .divideError
  else
    let divisor := 1193180 / frecuency
    let s := ports.bytesOut 0x43 0x36 s
    let s := ports.bytesOut 0x40 (divisor &&& 0xFF).toUInt8 s
    let s := ports.bytesOut 0x40 (divisor >>> 8 &&& 0xFF).toUInt8 s
    .ok (frecuency, s)

/-! ## Divisors -/

/-- The clock has a divisor for the frequency that is not zero and has 16 bits. -/
def HasDivisor (f : Nat) : Prop := 0 < 1193180 / f ∧ 1193180 / f < 2 ^ 16

instance (f : Nat) : Decidable (HasDivisor f) := inferInstanceAs (Decidable (_ ∧ _))

theorem HasDivisor.pos {f : Nat} (h : HasDivisor f) : 0 < f :=
  Nat.pos_of_ne_zero fun hf => absurd h.1 (by rw [hf]; decide)

theorem HasDivisor.le {f : Nat} (h : HasDivisor f) : f ≤ 1193180 :=
  Nat.le_of_not_lt fun hlt => absurd h.1 (by rw [Nat.div_eq_of_lt hlt]; decide)

theorem divide_clock {f : Nat} (hpos : 0 < f) (hlt : f < 2 ^ 31) :
    divide 1193180 (Int32.ofNat f) = .ok (Int32.ofNat (1193180 / f)) := by
  have htoInt : (Int32.ofNat f).toInt = f := Int32.toInt_ofNat_of_lt hlt
  have hzero : Int32.ofNat f ≠ 0 := by
    intro heq
    have hint := congrArg Int32.toInt heq
    rw [htoInt] at hint
    exact absurd hint (by simpa using Nat.ne_of_gt hpos)
  have hquotient : (1193180 : Int32).toInt.tdiv (Int32.ofNat f).toInt = (1193180 / f : Nat) := by
    rw [htoInt]
    rfl
  have hle : 1193180 / f ≤ 1193180 := Nat.div_le_self ..
  rw [divide, if_neg hzero, hquotient]
  generalize 1193180 / f = divisor at hle
  simp only
  rw [if_pos (by omega), Int32.ofInt_eq_ofNat]

/-- A log holds the divisor of a frequency for a port, low byte and high byte. -/
def Programs (port : UInt16) (f : Nat) (log : PortLog) : Prop :=
  ∃ low high : UInt8, writtenTo port log = [low, high] ∧
    low.toNat + 256 * high.toNat = 1193180 / f

/-- Both routines return, and have programmed the divisor of the frequency. -/
def DivisorProgrammed (answers : UInt16 → UInt8) (f : Nat) : Prop :=
  (∃ log, playSound (recorder answers) (Int32.ofNat f) [] = .ok log ∧ Programs 0x42 f log) ∧
  ∃ frecuency log, initTimer (recorder answers) (UInt32.ofNat f) [] = .ok (frecuency, log) ∧
    Programs 0x40 f log

theorem toUInt8_and_mask (x : UInt32) : (x &&& 0xFF).toUInt8 = x.toUInt8 := by
  rw [← UInt8.toNat_inj, UInt32.toNat_toUInt8, UInt32.toNat_toUInt8, UInt32.toNat_and]
  show (x.toNat &&& 2 ^ 8 - 1) % 2 ^ 8 = _
  rw [Nat.and_two_pow_sub_one_eq_mod, Nat.mod_mod]

/-- What `play_sound` sends: the high byte is the truth value of `divisor > 8`. -/
theorem playSound_written (answers : UInt16 → UInt8) {f : Nat} (h : HasDivisor f) :
    ∃ log, playSound (recorder answers) (Int32.ofNat f) [] = .ok log ∧
      writtenTo 0x42 log =
        [UInt8.ofNat (1193180 / f), if 8 < 1193180 / f then 1 else 0] := by
  have hdivide := divide_clock h.pos (Nat.lt_of_le_of_lt h.le (by decide))
  have hlt := h.2
  generalize hd : 1193180 / f = divisor at hdivide hlt
  have hlow : (Int32.ofNat divisor &&& 0xFF).toUInt32.toUInt8 = UInt8.ofNat divisor := by
    rw [Int32.toUInt32_and, Int32.toUInt32_ofNat', Int32.toUInt32_ofNat, toUInt8_and_mask,
      UInt32.toUInt8_ofNat']
  have hhigh : ((if Int32.ofNat divisor > 8 then 1 else 0 : Int32) &&& 0xFF).toUInt32.toUInt8 =
      if 8 < divisor then 1 else 0 := by
    have hgt : Int32.ofNat divisor > 8 ↔ 8 < divisor :=
      Int32.ofNat_lt_iff_lt (by decide) (by omega)
    by_cases hcmp : 8 < divisor
    · rw [if_pos (hgt.mpr hcmp), if_pos hcmp]
      rfl
    · rw [if_neg fun hlt => hcmp (hgt.mp hlt), if_neg hcmp]
      rfl
  rw [playSound, hdivide]
  refine ⟨_, rfl, ?_⟩
  rw [hlow, hhigh]
  have hgate : ∀ (p : Prop) [Decidable p] (log : PortLog) (v : UInt8),
      writtenTo 0x42 (if p then log ++ [(0x61, v)] else log) = writtenTo 0x42 log := by
    intro p _ log v
    split
    · rw [writtenTo, List.filterMap_append]
      exact List.append_nil _
    · rfl
  exact hgate _ _ _

theorem initTimer_written (answers : UInt16 → UInt8) {f : Nat} (h : HasDivisor f) :
    ∃ log, initTimer (recorder answers) (UInt32.ofNat f) [] = .ok (UInt32.ofNat f, log) ∧
      writtenTo 0x40 log =
        [UInt8.ofNat (1193180 / f), UInt8.ofNat (1193180 / f / 256)] := by
  have hpos := h.pos
  have hle := h.le
  have hlt := h.2
  have hnat : ∀ n < 2 ^ 32, (UInt32.ofNat n).toNat = n :=
    fun n hn => UInt32.toNat_ofNat_of_lt' hn
  have hzero : UInt32.ofNat f ≠ 0 := by
    intro heq
    have hf := congrArg UInt32.toNat heq
    rw [hnat f (by omega)] at hf
    exact absurd hf (Nat.ne_of_gt hpos)
  have hdiv : 1193180 / UInt32.ofNat f = UInt32.ofNat (1193180 / f) := by
    rw [← UInt32.toNat_inj, UInt32.toNat_div, hnat f (by omega), hnat _ (by omega)]
    rfl
  have hshift : UInt32.ofNat (1193180 / f) >>> 8 = UInt32.ofNat (1193180 / f / 256) := by
    rw [← UInt32.toNat_inj, UInt32.toNat_shiftRight, hnat _ (by omega), hnat _ (by omega),
      Nat.shiftRight_eq_div_pow]
    rfl
  rw [initTimer, if_neg hzero]
  refine ⟨_, rfl, ?_⟩
  rw [hdiv, hshift, toUInt8_and_mask, toUInt8_and_mask, UInt32.toUInt8_ofNat',
    UInt32.toUInt8_ofNat']
  rfl

/-! ## Which divisors are programmed -/

theorem initTimer_programs (answers : UInt16 → UInt8) {f : Nat} (h : HasDivisor f) :
    ∃ frecuency log, initTimer (recorder answers) (UInt32.ofNat f) [] = .ok (frecuency, log) ∧
      Programs 0x40 f log := by
  obtain ⟨log, hok, hwritten⟩ := initTimer_written answers h
  have hlt := h.2
  refine ⟨_, log, hok, _, _, hwritten, ?_⟩
  rw [UInt8.toNat_ofNat', UInt8.toNat_ofNat']
  generalize 1193180 / f = divisor at hlt
  omega

/-- The truth value of `divisor > 8` is the high byte of few divisors. -/
theorem truthValue_iff (divisor : Nat) :
    (UInt8.ofNat divisor).toNat + 256 * (if 8 < divisor then 1 else 0 : UInt8).toNat = divisor ↔
      divisor < 9 ∨ 256 ≤ divisor ∧ divisor < 512 := by
  rw [UInt8.toNat_ofNat']
  by_cases hcmp : 8 < divisor
  · rw [if_pos hcmp, UInt8.toNat_one]
    omega
  · rw [if_neg hcmp, UInt8.toNat_zero]
    omega

theorem playSound_programs_iff (answers : UInt16 → UInt8) {f : Nat} (h : HasDivisor f) :
    (∃ log, playSound (recorder answers) (Int32.ofNat f) [] = .ok log ∧ Programs 0x42 f log) ↔
      (2331 ≤ f ∧ f ≤ 4660) ∨ 132576 ≤ f := by
  obtain ⟨log, hok, hwritten⟩ := playSound_written answers h
  have hpos := h.pos
  have hbound : ∀ k, k ≤ 1193180 / f ↔ k * f ≤ 1193180 := fun k => Nat.le_div_iff_mul_le hpos
  have h9 := hbound 9
  have h256 := hbound 256
  have h512 := hbound 512
  have hprograms : Programs 0x42 f log ↔
      1193180 / f < 9 ∨ 256 ≤ 1193180 / f ∧ 1193180 / f < 512 := by
    rw [← truthValue_iff, Programs, hwritten]
    constructor
    · rintro ⟨low, high, heq, hvalue⟩
      cases heq
      exact hvalue
    · exact fun hvalue => ⟨_, _, rfl, hvalue⟩
  have hlog : (∃ log, playSound (recorder answers) (Int32.ofNat f) [] = .ok log ∧
      Programs 0x42 f log) ↔ Programs 0x42 f log := by
    constructor
    · rintro ⟨log', hok', hlog'⟩
      cases hok.symm.trans hok'
      exact hlog'
    · exact fun hlog => ⟨log, hok, hlog⟩
  rw [hlog, hprograms]
  omega

/-- **Both routines program the divisor** of the frequency just when its high byte happens to be
the truth value that `play_sound` sends. -/
theorem divisorProgrammed_iff (answers : UInt16 → UInt8) {f : Nat} (h : HasDivisor f) :
    DivisorProgrammed answers f ↔ (2331 ≤ f ∧ f ≤ 4660) ∨ 132576 ≤ f := by
  rw [DivisorProgrammed, playSound_programs_iff answers h]
  exact and_iff_left (initTimer_programs answers h)

theorem divisorProgrammed_3000 :
    HasDivisor 3000 ∧ DivisorProgrammed (fun _ => 0) 3000 :=
  ⟨by decide, (divisorProgrammed_iff (fun _ => 0) (by decide)).mpr (Or.inl (by decide))⟩

/-- The tone of `beep`: its divisor is 1193, and `play_sound` programs 425. -/
theorem not_divisorProgrammed_beep :
    HasDivisor 1000 ∧ ¬DivisorProgrammed (fun _ => 0) 1000 := by
  refine ⟨by decide, fun h => ?_⟩
  have hrange := (playSound_programs_iff (fun _ => 0) (by decide)).mp h.1
  exact absurd hrange (by decide)

end FirstKernel
