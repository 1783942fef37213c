import FirstKernel.Numbers
import FirstKernel.Ports

/-!
# The time of day, `drivers/rtc.c`

`print_time` reads hour, minute and second of the clock one after the
other, while the clock goes on. What it prints is the time of day at the
last reading, less a minute for each one that began between the readings
of minute and second, and less an hour for each one between those of hour
and minute (`printTime_iff`). In a call that takes less than a minute it
is a time of the call exactly if neither began (`printTime_during`).
-/

namespace FirstKernel

variable {σ : Type}

def getRtcRegister (ports : BytePorts σ) (reg : UInt8) (s : σ) : UInt8 × σ :=
  ports.bytesIn 0x71 (ports.bytesOut 0x70 reg s)

/-- `(b & 0x0F) + ((b / 16) * 10)`, in an `unsigned char`. -/
def fromBcd (b : UInt8) : UInt8 := (b &&& 0x0F) + b / 16 * 10

/-- `print_time`, with what it prints. -/
def printTime (ports : BytePorts σ) (s : σ) : List Text × σ :=
  let h := getRtcRegister ports 0x04 s
  let m := getRtcRegister ports 0x02 h.2
  let s := getRtcRegister ports 0x00 m.2
  ([text "local hour of the hardware: ", itoa (fromBcd h.1).toUInt32.toInt32, text ":",
    itoa (fromBcd m.1).toUInt32.toInt32, text ":", itoa (fromBcd s.1).toUInt32.toInt32,
    text "\n"], s.2)

/-! ## The clock -/

/-- A number below 100, a decimal digit in each half. -/
def bcd (n : Nat) : UInt8 := UInt8.ofNat (n / 10 * 16 + n % 10)

/-- The registers of the time of day, where `now` counts seconds from a midnight. -/
def timeRegister (now : Nat) (index : UInt8) : Option UInt8 :=
  if index = 0x00 then some (bcd (now % 60))
  else if index = 0x02 then some (bcd (now / 60 % 60))
  else if index = 0x04 then some (bcd (now / 3600 % 24))
  else none

/-- A clock of 24 hours behind the ports, whose registers are not read while they change. It may
go on at every access, and never goes back. -/
structure Rtc (σ : Type) where
  ports : BytePorts σ
  now : σ → Nat
  index : σ → UInt8
  index_out : ∀ reg s, index (ports.bytesOut 0x70 reg s) = reg
  now_out : ∀ reg s, now s ≤ now (ports.bytesOut 0x70 reg s)
  register_in : ∀ s v, timeRegister (now s) (index s) = some v → (ports.bytesIn 0x71 s).1 = v
  now_in : ∀ s, now s ≤ now (ports.bytesIn 0x71 s).2

/-- What is printed of a time of day. -/
def timeLines (h m s : Nat) : List Text :=
  [text "local hour of the hardware: ", (digitsText h).reverse, text ":",
    (digitsText m).reverse, text ":", (digitsText s).reverse, text "\n"]

/-- The time of day that many seconds after a midnight. -/
def clockLines (t : Nat) : List Text := timeLines (t / 3600 % 24) (t / 60 % 60) (t % 60)

theorem timeLines_inj {h m s h' m' s' : Nat} :
    timeLines h m s = timeLines h' m' s' ↔ h = h' ∧ m = m' ∧ s = s' := by
  have hdigits : ∀ {a b : Nat}, (digitsText a).reverse = (digitsText b).reverse → a = b := by
    intro a b heq
    have hvalue := congrArg decimalValue heq
    rwa [decimalValue_reverse_digitsText, decimalValue_reverse_digitsText] at hvalue
  constructor
  · intro heq
    simp only [timeLines, List.cons.injEq, true_and, and_true] at heq
    exact ⟨hdigits heq.1, hdigits heq.2.1, hdigits heq.2.2⟩
  · rintro ⟨rfl, rfl, rfl⟩
    rfl

theorem fromBcd_bcd : ∀ n < 60, fromBcd (bcd n) = UInt8.ofNat n := by decide

/-- A register is printed as the number that it holds. -/
theorem itoa_fromBcd_bcd {n : Nat} (hn : n < 60) :
    itoa (fromBcd (bcd n)).toUInt32.toInt32 = (digitsText n).reverse := by
  have hall : ∀ n < 60, 0 ≤ (UInt8.ofNat n).toUInt32.toInt32 ∧
      (UInt8.ofNat n).toUInt32.toInt32.toInt.toNat = n := by decide
  obtain ⟨hle, hvalue⟩ := hall n hn
  rw [fromBcd_bcd n hn, itoa_of_nonneg hle, hvalue]

/-- The digits of `d` are those of hour, minute and second at three moments exactly if `d` is
behind the last of them by the minutes and hours that began in between. -/
theorem digits_iff {t1 t2 t3 : Nat} (h12 : t1 ≤ t2) (h23 : t2 ≤ t3) (d : Nat) :
    (d / 3600 % 24 = t1 / 3600 % 24 ∧ d / 60 % 60 = t2 / 60 % 60 ∧ d % 60 = t3 % 60) ↔
      (d + 60 * (t3 / 60 - t2 / 60) + 3600 * (t2 / 3600 - t1 / 3600)) % 86400 = t3 % 86400 := by
  omega

namespace Rtc

variable (c : Rtc σ) (s : σ)

/-- When a register is read. -/
def readAt (reg : UInt8) : Nat := c.now (c.ports.bytesOut 0x70 reg s)

theorem le_readAt (reg : UInt8) : c.now s ≤ c.readAt s reg := c.now_out reg s

theorem readAt_le (reg : UInt8) : c.readAt s reg ≤ c.now (getRtcRegister c.ports reg s).2 :=
  c.now_in _

theorem getRtcRegister_eq (reg : UInt8) {v : UInt8}
    (h : timeRegister (c.readAt s reg) reg = some v) :
    (getRtcRegister c.ports reg s).1 = v := by
  refine c.register_in _ v ?_
  rw [c.index_out]
  exact h

/-- When the hour, the minute and the second are read. -/
def hourRead : Nat := c.readAt s 0x04

def minuteRead : Nat := c.readAt (getRtcRegister c.ports 0x04 s).2 0x02

def secondRead : Nat :=
  c.readAt (getRtcRegister c.ports 0x02 (getRtcRegister c.ports 0x04 s).2).2 0x00

theorem hourRead_le_minuteRead : c.hourRead s ≤ c.minuteRead s :=
  (c.readAt_le s _).trans (c.le_readAt _ _)

theorem minuteRead_le_secondRead : c.minuteRead s ≤ c.secondRead s :=
  (c.readAt_le _ _).trans (c.le_readAt _ _)

theorem printTime_eq : (printTime c.ports s).1 =
    timeLines (c.hourRead s / 3600 % 24) (c.minuteRead s / 60 % 60) (c.secondRead s % 60) := by
  have hhour := c.getRtcRegister_eq s 0x04 rfl
  have hminute := c.getRtcRegister_eq (getRtcRegister c.ports 0x04 s).2 0x02 rfl
  have hsecond := c.getRtcRegister_eq
    (getRtcRegister c.ports 0x02 (getRtcRegister c.ports 0x04 s).2).2 0x00 rfl
  rw [printTime]
  simp only [hhour, hminute, hsecond]
  rw [itoa_fromBcd_bcd (by omega), itoa_fromBcd_bcd (by omega), itoa_fromBcd_bcd (by omega)]
  rfl

/-- The minutes and the hours, in seconds, that began after the minute and the hour were read. -/
def behind : Nat :=
  60 * (c.secondRead s / 60 - c.minuteRead s / 60) +
    3600 * (c.minuteRead s / 3600 - c.hourRead s / 3600)

/-- **What is printed.** It is the time of day at the reading of the second, but for the minutes
and the hours that began in between. -/
theorem printTime_iff (d : Nat) : (printTime c.ports s).1 = clockLines d ↔
    (d + c.behind s) % 86400 = c.secondRead s % 86400 := by
  rw [c.printTime_eq, clockLines, timeLines_inj, behind, ← Nat.add_assoc,
    ← digits_iff (c.hourRead_le_minuteRead s) (c.minuteRead_le_secondRead s)]
  simp only [eq_comm]

/-- **A call of less than a minute.** What it prints is right, a minute behind or an hour behind;
only if it is right has the clock shown it during the call. -/
theorem printTime_during (h : c.now (printTime c.ports s).2 < c.now s + 60) :
    (c.behind s = 0 ∨ c.behind s = 60 ∨ c.behind s = 3600) ∧
      (printTime c.ports s).1 = clockLines (c.secondRead s + 86400 - c.behind s) ∧
      ((∃ t, c.now s ≤ t ∧ t ≤ c.now (printTime c.ports s).2 ∧
        (printTime c.ports s).1 = clockLines t) ↔ c.behind s = 0) := by
  have hstart : c.now s ≤ c.hourRead s := c.le_readAt s _
  have hminute := c.hourRead_le_minuteRead s
  have hsecond := c.minuteRead_le_secondRead s
  have hend : c.secondRead s ≤ c.now (printTime c.ports s).2 := c.readAt_le _ _
  have hbehind : c.behind s = 0 ∨ c.behind s = 60 ∨ c.behind s = 3600 := by
    unfold behind
    omega
  refine ⟨hbehind, (c.printTime_iff s _).mpr (by omega), ⟨fun ⟨t, hfrom, hto, hshown⟩ => ?_,
    fun hzero => ⟨c.secondRead s, by omega, hend, (c.printTime_iff s _).mpr (by omega)⟩⟩⟩
  have hcongr := (c.printTime_iff s t).mp hshown
  omega

/-- A clock that goes on by a second at every reading. -/
def tickingClock : Rtc (UInt8 × Nat) where
  ports :=
    { bytesIn := fun _ s => ((timeRegister s.2 s.1).getD 0, (s.1, s.2 + 1))
      bytesOut := fun port data s => (if port = 0x70 then data else s.1, s.2) }
  now s := s.2
  index s := s.1
  index_out _ _ := rfl
  now_out _ _ := Nat.le_refl _
  register_in s v h := by
    show (timeRegister s.2 s.1).getD 0 = v
    rw [h, Option.getD_some]
  now_in _ := Nat.le_succ _

/-- From one second before eleven on, ten o'clock is printed. -/
theorem printTime_during_hourBegins :
    (printTime tickingClock.ports (0, 39599)).1 = timeLines 10 0 1 ∧
      ¬∃ t, 39599 ≤ t ∧ t ≤ 39602 ∧
        (printTime tickingClock.ports (0, 39599)).1 = clockLines t := by
  obtain ⟨-, hshown, hright⟩ := printTime_during tickingClock (0, 39599) (by decide)
  exact ⟨hshown, fun hduring => absurd (hright.mp hduring) (by decide)⟩

end Rtc

end FirstKernel
