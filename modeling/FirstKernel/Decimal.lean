import Mathlib.Data.Nat.Digits.Lemmas

/-!
# Decimal numerals

The numeral of a number in ASCII. `digitsText` is what a loop over the
remainders by ten writes, least significant digit first; read backwards it
is the numeral of the number (`numeral_digitsText`), of as many characters
as the powers of ten say (`length_digitsText_le_iff`).
-/

namespace FirstKernel

/-- The ASCII digit of a number below ten. -/
def digitChar (d : Nat) : UInt8 := UInt8.ofNat (0x30 + d)

def IsDigit (c : UInt8) : Prop := 0x30 ≤ c.toNat ∧ c.toNat < 0x3A

def digitValue (c : UInt8) : Nat := c.toNat - 0x30

/-- The digits of a number, least significant first; zero has one. -/
def digitsText (n : Nat) : List UInt8 :=
  if n = 0 then [digitChar 0] else (Nat.digits 10 n).map digitChar

/-- The value of a text of digits, most significant first. -/
def decimalValue (t : List UInt8) : Nat := Nat.ofDigits 10 (t.reverse.map digitValue)

/-- The numeral of a number: digits only, and no zero in front of others. -/
structure Numeral (t : List UInt8) (n : Nat) : Prop where
  ne_nil : t ≠ []
  isDigit : ∀ c ∈ t, IsDigit c
  noLeadingZero : t.head? = some (digitChar 0) → t = [digitChar 0]
  value_eq : decimalValue t = n

/-- The numeral of an integer, with a minus sign if it is negative. -/
def Denotes (t : List UInt8) (z : Int) : Prop :=
  if z < 0 then t.head? = some 0x2D ∧ Numeral t.tail z.natAbs else Numeral t z.toNat

/-! ## One digit -/

theorem toNat_digitChar {d : Nat} (h : d < 10) : (digitChar d).toNat = 0x30 + d := by
  rw [digitChar, UInt8.toNat_ofNat', Nat.mod_eq_of_lt (by omega)]

theorem isDigit_digitChar {d : Nat} (h : d < 10) : IsDigit (digitChar d) := by
  rw [IsDigit, toNat_digitChar h]
  omega

theorem digitValue_digitChar {d : Nat} (h : d < 10) : digitValue (digitChar d) = d := by
  rw [digitValue, toNat_digitChar h, Nat.add_sub_cancel_left]

theorem map_digitValue_digitChar {ds : List Nat} (h : ∀ d ∈ ds, d < 10) :
    (ds.map digitChar).map digitValue = ds := by
  rw [List.map_map]
  exact (List.map_congr_left fun d hd => digitValue_digitChar (h d hd)).trans (List.map_id ds)

/-! ## The digits of a number -/

theorem digitsText_of_pos {n : Nat} (h : 0 < n) :
    digitsText n = (Nat.digits 10 n).map digitChar := if_neg (Nat.ne_of_gt h)

/-- One round of the loop over the remainders. -/
theorem digitsText_eq (n : Nat) :
    digitsText n = digitChar (n % 10) :: if 0 < n / 10 then digitsText (n / 10) else [] := by
  rcases Nat.eq_zero_or_pos n with rfl | hpos
  · simp [digitsText]
  · rw [digitsText_of_pos hpos, Nat.digits_def' (by decide) hpos, List.map_cons]
    by_cases hdiv : 0 < n / 10
    · rw [if_pos hdiv, digitsText_of_pos hdiv]
    · rw [if_neg hdiv, Nat.eq_zero_of_not_pos hdiv, Nat.digits_zero, List.map_nil]

theorem isDigit_of_mem_digitsText {n : Nat} : ∀ c ∈ digitsText n, IsDigit c := by
  intro c hc
  unfold digitsText at hc
  split at hc
  · rw [List.mem_singleton.mp hc]
    exact isDigit_digitChar (by decide)
  · obtain ⟨d, hd, rfl⟩ := List.mem_map.mp hc
    exact isDigit_digitChar (Nat.digits_lt_base (by decide) hd)

theorem decimalValue_reverse_digitsText (n : Nat) : decimalValue (digitsText n).reverse = n := by
  rw [decimalValue, List.reverse_reverse]
  rcases Nat.eq_zero_or_pos n with rfl | hpos
  · rfl
  · rw [digitsText_of_pos hpos,
      map_digitValue_digitChar fun d hd => Nat.digits_lt_base (by decide) hd, Nat.ofDigits_digits]

theorem length_digitsText_le_iff {n k : Nat} (hk : 0 < k) :
    (digitsText n).length ≤ k ↔ n < 10 ^ k := by
  rcases Nat.eq_zero_or_pos n with rfl | hpos
  · exact iff_of_true hk (Nat.pow_pos (by decide))
  · rw [digitsText_of_pos hpos, List.length_map, Nat.digits_length_le_iff (by decide)]

theorem pow_le_of_length_digitsText {n k : Nat} (hn : 0 < n)
    (hk : (digitsText n).length = k + 1) : 10 ^ k ≤ n := by
  rcases Nat.eq_zero_or_pos k with rfl | hpos
  · exact hn
  · by_contra hlt
    have hle := (length_digitsText_le_iff hpos).mpr (Nat.lt_of_not_le hlt)
    omega

/-! ## Numerals -/

@[simp] theorem decimalValue_nil : decimalValue [] = 0 := rfl

theorem decimalValue_append_singleton (t : List UInt8) (c : UInt8) :
    decimalValue (t ++ [c]) = 10 * decimalValue t + digitValue c := by
  rw [decimalValue, decimalValue, List.reverse_append, List.reverse_singleton,
    List.singleton_append, List.map_cons, Nat.ofDigits_cons, Nat.add_comm]

theorem digitsText_ne_nil (n : Nat) : digitsText n ≠ [] := by
  rw [digitsText_eq]
  exact List.cons_ne_nil _ _

/-- The last digit of a number other than zero is not a zero. -/
theorem getLast?_digitsText {n : Nat} (h : 0 < n) :
    (digitsText n).getLast? ≠ some (digitChar 0) := by
  have hne : Nat.digits 10 n ≠ [] := Nat.digits_ne_nil_iff_ne_zero.mpr (Nat.ne_of_gt h)
  rw [digitsText_of_pos h, List.getLast?_map, List.getLast?_eq_getLast_of_ne_nil hne,
    Option.map_some]
  intro heq
  have hlt : (Nat.digits 10 n).getLast hne < 10 :=
    Nat.digits_lt_base (by decide) (List.getLast_mem hne)
  have hzero := congrArg digitValue (Option.some.inj heq)
  rw [digitValue_digitChar hlt, digitValue_digitChar (by decide)] at hzero
  exact Nat.getLast_digit_ne_zero 10 (Nat.ne_of_gt h) hzero

theorem numeral_digitsText (n : Nat) : Numeral (digitsText n).reverse n where
  ne_nil := by
    rw [ne_eq, List.reverse_eq_nil_iff]
    exact digitsText_ne_nil n
  isDigit c hc := isDigit_of_mem_digitsText c (List.mem_reverse.mp hc)
  noLeadingZero h := by
    rcases Nat.eq_zero_or_pos n with rfl | hpos
    · rfl
    · rw [List.head?_reverse] at h
      exact absurd h (getLast?_digitsText hpos)
  value_eq := decimalValue_reverse_digitsText n

end FirstKernel
