import FirstKernel.CString
import FirstKernel.Decimal

/-!
# Numbers as text, in the arrays of the callers

`itoa` of `libc/string.c` stores into an array of its caller, character by
character: the digits from the last one on, the sign, the terminator, and
then `reverse` exchanges the cells from both ends. An array of `m` cells
takes the stores below `m`; another one is the fault `outOfRange`. The
characters are those of `itoa` on texts, if they and the terminator fit
(`itoaInto_eq`).
-/

namespace FirstKernel

variable {m : Nat}

/-- `str[i] = c` -/
def storeChar (i : Nat) (c : UInt8) (str : Buffer m) : Except Fault (Buffer m) :=
  if i < m then .ok (str.set i c) else .error (.outOfRange i)

/-- `str[i]` -/
def loadChar (i : Nat) (str : Buffer m) : Except Fault UInt8 :=
  if h : i < m then .ok (str ⟨i, h⟩) else .error (.outOfRange i)

/-- The loop of `reverse`, with the rounds that are left. -/
def reverseLoop : Nat → Nat → Nat → Buffer m → Except Fault (Buffer m)
  | 0, _, _, _ => .error .outOfFuel
  | rounds + 1, start, last, str =>
      if start < last then do
        let temp ← loadChar start str
        let c ← loadChar last str
        let str ← storeChar start c str
        let str ← storeChar last temp str
        reverseLoop rounds (start + 1) (last - 1) str
      else .ok str

def reverse (length : Nat) (str : Buffer m) : Except Fault (Buffer m) :=
  reverseLoop (length + 1) 0 (length - 1) str

/-- The digit loop of `itoa`, from index `i` on: the index after the digits. An `int` has at
most ten. -/
def digitLoop : Nat → Int32 → Nat → Buffer m → Except Fault (Nat × Buffer m)
  | 0, _, _, _ => .error .outOfFuel
  | rounds + 1, n, i, str => do
      let str ← storeChar i (n % 10 + 48).toUInt32.toUInt8 str
      if 0 < n / 10 then digitLoop rounds (n / 10) (i + 1) str else .ok (i + 1, str)

/-- The end of `itoa`: the terminator at index `i`, and `reverse`. -/
def itoaEnd (i : Nat) (str : Buffer m) : Except Fault (Buffer m) := do
  let str ← storeChar i 0 str
  reverse i str

/-- `itoa`, into an array. -/
def itoaInto (n : Int32) (str : Buffer m) : Except Fault (Buffer m) := do
  let (i, str) ← digitLoop 10 (if n < 0 then -n else n) 0 str
  if n < 0 then do
    let str ← storeChar i 0x2D str
    itoaEnd (i + 1) str
  else itoaEnd i str

/-! ## Stores one after another -/

/-- The characters of a text from index `i` on, until one does not fit. -/
def storeChars : Nat → Text → Buffer m → Except Fault (Buffer m)
  | _, [], str => .ok str
  | i, c :: xs, str => do
      let str ← storeChar i c str
      storeChars (i + 1) xs str

theorem bind_ok_right {ε α : Type} (x : Except ε α) : (x >>= fun a => .ok a) = x := by
  cases x <;> rfl

theorem storeChars_append (xs ys : Text) (i : Nat) (str : Buffer m) :
    storeChars i (xs ++ ys) str =
      storeChars i xs str >>= fun str => storeChars (i + xs.length) ys str := by
  induction xs generalizing i str with
  | nil => rfl
  | cons c xs ih =>
      rw [List.cons_append, storeChars, storeChars]
      cases storeChar i c str with
      | error e => rfl
      | ok str' =>
          show storeChars (i + 1) (xs ++ ys) str' = _
          rw [ih, List.length_cons, Nat.add_assoc, Nat.add_comm 1]
          rfl

theorem storeChars_singleton (i : Nat) (c : UInt8) (str : Buffer m) :
    storeChars i [c] str = storeChar i c str := bind_ok_right _

/-- The text is stored whole, or the array ends before it does. -/
theorem storeChars_eq (xs : Text) {i : Nat} (hi : i ≤ m) (str : Buffer m) :
    storeChars i xs str =
      if i + xs.length ≤ m then .ok (str.blit i xs) else .error (.outOfRange m) := by
  induction xs generalizing i str with
  | nil => rw [storeChars, List.length_nil, Nat.add_zero, if_pos hi, Buffer.blit_nil]
  | cons c xs ih =>
      rw [storeChars, storeChar, List.length_cons]
      by_cases hlt : i < m
      · rw [if_pos hlt, Buffer.blit_cons]
        show storeChars (i + 1) xs (str.set i c) = _
        rw [ih (i := i + 1) hlt, Nat.add_assoc, Nat.add_comm 1]
      · obtain rfl : i = m := Nat.le_antisymm hi (Nat.le_of_not_lt hlt)
        rw [if_neg hlt, if_neg (by omega)]
        rfl

/-! ## `reverse` -/

/-- The cells from `start` to `last` are in the opposite order, the others as they were. -/
structure Reversed (start last : Nat) (str str' : Buffer m) : Prop where
  mirrored : ∀ i j : Fin m, start ≤ i.val → i.val ≤ last → i.val + j.val = start + last →
    str' i = str j
  kept : ∀ i : Fin m, i.val < start ∨ last < i.val → str' i = str i

theorem Reversed.refl {start last : Nat} (h : last ≤ start) (str : Buffer m) :
    Reversed start last str str where
  mirrored i j hlo hhi hsum := congrArg str (Fin.ext (by omega))
  kept _ _ := rfl

/-- One round: the cells at the two ends are exchanged. -/
theorem Reversed.of_swap {start last : Nat} (hlt : start < last) (hm : last < m)
    {str str' : Buffer m}
    (h : Reversed (start + 1) (last - 1)
      ((str.set start (str ⟨last, hm⟩)).set last (str ⟨start, Nat.lt_trans hlt hm⟩)) str') :
    Reversed start last str str' where
  mirrored i j hlo hhi hsum := by
    rcases Nat.lt_or_eq_of_le hlo with hstart | hstart
    · rcases Nat.lt_or_eq_of_le hhi with hlast | hlast
      · rw [h.mirrored i j hstart (by omega) (by omega), Buffer.set_of_ne _ _ (by omega),
          Buffer.set_of_ne _ _ (by omega)]
      · have hj : j.val = start := by omega
        obtain rfl : i = ⟨last, hm⟩ := Fin.ext hlast
        obtain rfl : j = ⟨start, Nat.lt_trans hlt hm⟩ := Fin.ext hj
        rw [h.kept _ (Or.inr (by omega)), Buffer.set_self]
    · have hj : j.val = last := by omega
      obtain rfl : i = ⟨start, Nat.lt_trans hlt hm⟩ := Fin.ext hstart.symm
      obtain rfl : j = ⟨last, hm⟩ := Fin.ext hj
      rw [h.kept _ (Or.inl (Nat.lt_succ_self _)), Buffer.set_of_ne _ _ (Nat.ne_of_lt hlt),
        Buffer.set_self]
  kept i hi := by
    rw [h.kept i (by omega), Buffer.set_of_ne _ _ (by omega), Buffer.set_of_ne _ _ (by omega)]

theorem reverseLoop_ok : ∀ (rounds start last : Nat) (str : Buffer m),
    (start < last → last < m) → last ≤ start + 2 * rounds →
      ∃ str', reverseLoop (rounds + 1) start last str = .ok str' ∧
        Reversed start last str str'
  | rounds, start, last, str, hm, hrounds => by
      by_cases hlt : start < last
      · have hlast : last < m := hm hlt
        cases rounds with
        | zero => omega
        | succ rounds =>
            obtain ⟨str', hloop, hrev⟩ := reverseLoop_ok rounds (start + 1) (last - 1)
              ((str.set start (str ⟨last, hlast⟩)).set last (str ⟨start, by omega⟩))
              (by omega) (by omega)
            refine ⟨str', ?_, hrev.of_swap hlt hlast⟩
            rw [reverseLoop, if_pos hlt, loadChar, loadChar, dif_pos (Nat.lt_trans hlt hlast),
              dif_pos hlast]
            simp only [storeChar, if_pos (Nat.lt_trans hlt hlast), if_pos hlast]
            exact hloop
      · refine ⟨str, ?_, .refl (Nat.le_of_not_lt hlt) str⟩
        rw [reverseLoop, if_neg hlt]

theorem blit_terminated_of_ge {xs : Text} (str : Buffer m) {i : Fin m} (h : xs.length ≤ i.val) :
    str.blit 0 (xs ++ [0]) i = (([0] : Text)[i.val - xs.length]?).getD (str i) := by
  rw [Buffer.blit, if_pos (Nat.zero_le _), Nat.sub_zero, List.getElem?_append_right h]

/-- A text in the array, with its terminator, is reversed in its place. -/
theorem reverse_blit (xs : Text) (str : Buffer m) (h : xs.length < m) :
    reverse xs.length (str.blit 0 (xs ++ [0])) = .ok (str.blit 0 (xs.reverse ++ [0])) := by
  obtain ⟨str', hloop, hrev⟩ := reverseLoop_ok xs.length 0 (xs.length - 1)
    (str.blit 0 (xs ++ [0])) (by omega) (by omega)
  rw [reverse, hloop]
  refine congrArg Except.ok (funext fun i => ?_)
  rcases Nat.lt_or_ge i.val xs.length with hi | hi
  · have hj : xs.length - 1 - i.val < xs.length := by omega
    have hcell : (xs ++ [0])[xs.length - 1 - i.val]? = some xs[xs.length - 1 - i.val] := by
      rw [List.getElem?_append_left hj, List.getElem?_eq_getElem hj]
    have hcell' : (xs.reverse ++ [0])[i.val]? = some xs[xs.length - 1 - i.val] := by
      rw [List.getElem?_append_left (by simpa using hi), List.getElem?_reverse hi,
        List.getElem?_eq_getElem hj]
    let j : Fin m := ⟨xs.length - 1 - i.val, by omega⟩
    have hsum : i.val + j.val = 0 + (xs.length - 1) := by
      simp only [j]
      omega
    rw [hrev.mirrored i j (Nat.zero_le _) (by omega) hsum, Buffer.blit_of_mem str (Nat.zero_le _)
      hcell, Buffer.blit_of_mem str (Nat.zero_le _) hcell']
  · have hkept : str' i = str.blit 0 (xs ++ [0]) i := by
      rcases Nat.eq_zero_or_pos i.val with hzero | hpos
      · exact hrev.mirrored i i (Nat.zero_le _) (by omega) (by omega)
      · exact hrev.kept i (Or.inr (by omega))
    have hi' : xs.reverse.length ≤ i.val := by
      rw [List.length_reverse]
      exact hi
    rw [hkept, blit_terminated_of_ge str hi, blit_terminated_of_ge str hi', List.length_reverse]

/-! ## `itoa` -/

theorem toInt_div_ten {n : Int32} (h : 0 < n / 10) : (n / 10).toInt = n.toInt / 10 := by
  have hdiv : (n / 10).toInt = n.toInt.tdiv 10 := Int32.toInt_div_of_ne_right n 10 (by decide)
  have hpos : 0 < n.toInt.tdiv 10 := by
    rw [← hdiv]
    exact Int32.lt_iff_toInt_lt.mp h
  have hnonneg : 0 ≤ n.toInt := by
    by_contra hneg
    have hle : (-n.toInt).tdiv 10 < 0 := by
      rw [Int.neg_tdiv]
      omega
    exact absurd (Int.tdiv_nonneg (by omega) (by decide)) (Int.not_le.mpr hle)
  rw [hdiv, Int.tdiv_eq_ediv_of_nonneg hnonneg]

/-- The loop has rounds enough, and stores the digits. -/
theorem digitLoop_eq : ∀ (rounds : Nat) {n : Int32} (i : Nat) (str : Buffer m),
    n.toInt < 10 ^ (rounds + 1) →
      digitLoop (rounds + 1) n i str =
        storeChars i (itoaDigits (rounds + 1) n) str >>= fun str =>
          .ok (i + (itoaDigits (rounds + 1) n).length, str)
  | rounds, n, i, str, hn => by
      rw [digitLoop, itoaDigits, storeChars]
      cases storeChar i (n % 10 + 48).toUInt32.toUInt8 str with
      | error e => rfl
      | ok str' =>
          show (if 0 < n / 10 then digitLoop rounds (n / 10) (i + 1) str' else _) =
            storeChars (i + 1) _ str' >>= _
          by_cases hpos : 0 < n / 10
          · have hdiv := toInt_div_ten hpos
            have hpos' : 0 < n.toInt / 10 := hdiv ▸ Int32.lt_iff_toInt_lt.mp hpos
            cases rounds with
            | zero => omega
            | succ rounds =>
                have hlt : (n / 10).toInt < 10 ^ (rounds + 1) := by
                  rw [hdiv]
                  omega
                rw [if_pos hpos, if_pos hpos, digitLoop_eq rounds _ _ hlt, List.length_cons,
                  Nat.add_assoc, Nat.add_comm 1]
          · rw [if_neg hpos, if_neg hpos]
            rfl

/-- What `itoa` stores before `reverse`. -/
theorem itoaInto_eq_storeChars (n : Int32) (str : Buffer m) :
    itoaInto n str =
      storeChars 0 ((itoa n).reverse ++ [0]) str >>= reverse (itoa n).length := by
  have habs : (if n < 0 then -n else n).toInt < 10 ^ (9 + 1) := by
    have hlt := (if n < 0 then -n else n).toInt_lt
    omega
  rw [itoaInto, digitLoop_eq 9 0 str habs, itoa, List.reverse_reverse, List.length_reverse]
  simp only [Nat.zero_add]
  generalize itoaDigits (9 + 1) (if n < 0 then -n else n) = digits
  by_cases hneg : n < 0
  · simp only [if_pos hneg, storeChars_append]
    cases storeChars 0 digits str with
    | error e => rfl
    | ok str' =>
        have hsign : text "-" = [0x2D] := rfl
        have hlen : (digits ++ [0x2D]).length = digits.length + 1 := List.length_append
        show (storeChar digits.length 0x2D str' >>= itoaEnd (digits.length + 1)) =
          storeChars (0 + digits.length) (text "-") str' >>=
            (fun str => storeChars (0 + (digits ++ text "-").length) [0] str) >>=
            reverse (digits ++ text "-").length
        rw [hsign, hlen, Nat.zero_add, Nat.zero_add, storeChars_singleton]
        simp only [storeChars_singleton]
        cases storeChar digits.length 0x2D str' <;> rfl
  · simp only [if_neg hneg, storeChars_append]
    cases storeChars 0 digits str with
    | error e => rfl
    | ok str' =>
        show itoaEnd digits.length str' =
          storeChars (0 + digits.length) [0] str' >>= reverse digits.length
        rw [Nat.zero_add, storeChars_singleton]
        rfl

/-- **`itoa` in an array.** The characters and their terminator are left in it, if they fit. -/
theorem itoaInto_eq (n : Int32) (str : Buffer m) :
    itoaInto n str =
      if (itoa n).length < m then .ok (str.blit 0 (itoa n ++ [0]))
      else .error (.outOfRange m) := by
  have hlen : (itoa n).reverse.length = (itoa n).length := List.length_reverse
  rw [itoaInto_eq_storeChars, storeChars_eq _ (Nat.zero_le m), List.length_append, hlen,
    List.length_singleton, Nat.zero_add]
  by_cases hlt : (itoa n).length < m
  · have hrev := reverse_blit (itoa n).reverse str (hlen ▸ hlt)
    rw [List.reverse_reverse, hlen] at hrev
    rw [if_pos hlt, if_pos (Nat.succ_le_of_lt hlt)]
    exact hrev
  · rw [if_neg hlt, if_neg fun h => hlt (Nat.lt_of_succ_le h)]
    rfl

/-! ## The characters -/

theorem itoaDigits_ofNat : ∀ (rounds : Nat) {k : Nat}, k < 10 ^ (rounds + 1) → k < 2 ^ 31 →
    itoaDigits (rounds + 1) (Int32.ofNat k) = digitsText k
  | rounds, k, hk, hlt => by
      have hmod : Int32.ofNat k % 10 = Int32.ofNat (k % 10) :=
        (Int32.ofNat_mod hlt (by decide)).symm
      have hdiv : Int32.ofNat k / 10 = Int32.ofNat (k / 10) :=
        (Int32.ofNat_div hlt (by decide)).symm
      have hpos : 0 < Int32.ofNat (k / 10) ↔ 0 < k / 10 :=
        Int32.ofNat_lt_iff_lt (by decide) (by omega)
      have hdigit : (Int32.ofNat (k % 10) + 48).toUInt32.toUInt8 = digitChar (k % 10) := by
        rw [show (48 : Int32) = Int32.ofNat 48 from rfl, ← Int32.ofNat_add, Int32.toUInt32_ofNat',
          UInt32.toUInt8_ofNat', Nat.add_comm]
        rfl
      rw [itoaDigits, hmod, hdiv, hdigit, digitsText_eq]
      by_cases hrest : 0 < k / 10
      · cases rounds with
        | zero => omega
        | succ rounds =>
            rw [if_pos (hpos.mpr hrest), if_pos hrest,
              itoaDigits_ofNat rounds (by omega) (by omega)]
      · rw [if_neg fun h => hrest (hpos.mp h), if_neg hrest]

theorem itoa_of_nonneg {n : Int32} (h : 0 ≤ n) :
    itoa n = (digitsText n.toInt.toNat).reverse := by
  have hle : 0 ≤ n.toInt := Int32.le_iff_toInt_le.mp h
  have hlt := n.toInt_lt
  have hneg : ¬n < 0 := Int32.not_lt.mpr h
  have hofNat : n = Int32.ofNat n.toInt.toNat := by
    rw [← Int32.ofInt_eq_ofNat, Int.toNat_of_nonneg hle, Int32.ofInt_toInt]
  rw [itoa]
  simp only [if_neg hneg]
  rw [congrArg (itoaDigits 10) hofNat, itoaDigits_ofNat 9 (by omega) (by omega)]

theorem itoa_of_neg {n : Int32} (h : n < 0) (hmin : n ≠ Int32.minValue) :
    itoa n = 0x2D :: (digitsText n.toInt.natAbs).reverse := by
  have hlt : n.toInt < 0 := Int32.lt_iff_toInt_lt.mp h
  have hle := n.le_toInt
  have hne : n.toInt ≠ -2 ^ 31 := fun heq => hmin (Int32.toInt_inj.mp heq)
  have hofNat : -n = Int32.ofNat n.toInt.natAbs := by
    rw [← Int32.ofInt_eq_ofNat, Int.ofNat_natAbs_of_nonpos (Int.le_of_lt hlt), Int32.ofInt_neg,
      Int32.ofInt_toInt]
  rw [itoa]
  simp only [if_pos h]
  rw [hofNat, itoaDigits_ofNat 9 (by omega) (by omega), List.reverse_append]
  rfl

/-- The number without a positive counterpart: its one digit is a parenthesis. -/
theorem itoa_minValue : itoa Int32.minValue = text "-(" := by
  decide +kernel

/-- The digits, with a sign in front of those of a negative number, but for the least one. -/
theorem itoa_cases (n : Int32) :
    (0 ≤ n.toInt ∧ itoa n = (digitsText n.toInt.toNat).reverse) ∨
    (n = Int32.minValue ∧ itoa n = text "-(") ∨
    (-2 ^ 31 < n.toInt ∧ n.toInt < 0 ∧
      itoa n = 0x2D :: (digitsText n.toInt.natAbs).reverse) := by
  rcases Int32.le_or_lt 0 n with hpos | hneg
  · exact Or.inl ⟨Int32.le_iff_toInt_le.mp hpos, itoa_of_nonneg hpos⟩
  · by_cases hmin : n = Int32.minValue
    · exact Or.inr (Or.inl ⟨hmin, hmin ▸ itoa_minValue⟩)
    · have hle := n.le_toInt
      have hne : n.toInt ≠ -2 ^ 31 := fun heq => hmin (Int32.toInt_inj.mp heq)
      exact Or.inr (Or.inr ⟨by omega, Int32.lt_iff_toInt_lt.mp hneg, itoa_of_neg hneg hmin⟩)

theorem zero_notMem_itoa (n : Int32) : (0 : UInt8) ∉ itoa n := by
  have hdigits : ∀ k, (0 : UInt8) ∉ (digitsText k).reverse := fun k hmem =>
    absurd (isDigit_of_mem_digitsText 0 (List.mem_reverse.mp hmem)).1 (by decide)
  rcases itoa_cases n with ⟨-, heq⟩ | ⟨-, heq⟩ | ⟨-, -, heq⟩
  · rw [heq]
    exact hdigits _
  · rw [heq]
    decide
  · rw [heq, List.mem_cons, not_or]
    exact ⟨by decide, hdigits _⟩

theorem length_itoa_lt (n : Int32) : (itoa n).length < 12 := by
  have hlt := n.toInt_lt
  have hdigits : ∀ k : Nat, k < 10 ^ 10 → (digitsText k).reverse.length ≤ 10 := fun k hk => by
    rw [List.length_reverse]
    exact (length_digitsText_le_iff (by decide)).mpr hk
  rcases itoa_cases n with ⟨hpos, heq⟩ | ⟨-, heq⟩ | ⟨hlow, hneg, heq⟩
  · have hten := hdigits n.toInt.toNat (by omega)
    rw [heq]
    omega
  · rw [heq]
    decide
  · have hten := hdigits n.toInt.natAbs (by omega)
    rw [heq, List.length_cons]
    omega

/-! ## What a caller finds -/

/-- `itoa` leaves a string with `P` in every array that takes it, and one of twelve cells does. -/
def Leaves (n : Int32) (P : CString → Prop) : Prop :=
  ∀ (m : Nat) (str : Buffer m),
    (12 ≤ m → ∃ b, itoaInto n str = .ok b) ∧
      ∀ b, itoaInto n str = .ok b → (∃ i, b i = 0) ∧ P (stringAt (List.ofFn b))

/-- A text that was stored with its terminator is the string in the array. -/
theorem stringAt_blit {xs : Text} (hxs : (0 : UInt8) ∉ xs) (hlt : xs.length < m)
    (str : Buffer m) :
    str.blit 0 (xs ++ [0]) ⟨xs.length, hlt⟩ = 0 ∧
      (stringAt (List.ofFn (str.blit 0 (xs ++ [0])))).chars = xs := by
  have hend : str.blit 0 (xs ++ [0]) ⟨xs.length, hlt⟩ = 0 :=
    str.blit_of_mem (Nat.zero_le _) (by simp)
  refine ⟨hend, stringAt_ofFn hxs hlt (fun k hk => ?_) hend⟩
  refine str.blit_of_mem (Nat.zero_le _) ?_
  rw [Nat.sub_zero, List.getElem?_append_left hk, List.getElem?_eq_getElem hk]

theorem leaves_iff {n : Int32} {P : CString → Prop} :
    Leaves n P ↔ P ⟨itoa n, zero_notMem_itoa n⟩ := by
  have hstring : ∀ {m : Nat} (str : Buffer m), (itoa n).length < m →
      stringAt (List.ofFn (str.blit 0 (itoa n ++ [0]))) = ⟨itoa n, zero_notMem_itoa n⟩ :=
    fun str hlt => CString.ext (stringAt_blit (zero_notMem_itoa n) hlt str).2
  refine ⟨fun h => ?_, fun h m str => ⟨fun hm => ?_, fun b hb => ?_⟩⟩
  · have hlt := length_itoa_lt n
    have hok := itoaInto_eq n (Buffer.zeros 12)
    rw [if_pos hlt] at hok
    have hleft := ((h 12 (Buffer.zeros 12)).2 _ hok).2
    rwa [hstring _ hlt] at hleft
  · exact ⟨_, by rw [itoaInto_eq, if_pos (Nat.lt_of_lt_of_le (length_itoa_lt n) hm)]⟩
  · rw [itoaInto_eq] at hb
    split at hb
    · rename_i hlt
      cases hb
      exact ⟨⟨_, (stringAt_blit (zero_notMem_itoa n) hlt str).1⟩, (hstring str hlt).symm ▸ h⟩
    · cases hb

/-- The text is the numeral of the number, except for the least one. -/
theorem denotes_itoa_iff (n : Int32) : Denotes (itoa n) n.toInt ↔ n ≠ Int32.minValue := by
  rcases itoa_cases n with ⟨hpos, heq⟩ | ⟨hmin, heq⟩ | ⟨hlow, hneg, heq⟩
  · refine iff_of_true ?_ fun hmin => ?_
    · rw [Denotes, if_neg (Int.not_lt.mpr hpos), heq]
      exact numeral_digitsText _
    · rw [hmin] at hpos
      exact absurd hpos (by decide)
  · refine iff_of_false (fun h => ?_) (not_not.mpr hmin)
    have hneg : n.toInt < 0 := by
      rw [hmin]
      decide
    rw [Denotes, if_pos hneg, heq] at h
    exact absurd (h.2.isDigit 0x28 (by decide)).1 (by decide)
  · refine iff_of_true ?_ fun hmin => ?_
    · rw [Denotes, if_pos hneg, heq]
      exact ⟨rfl, numeral_digitsText _⟩
    · rw [hmin] at hlow
      exact absurd hlow (by decide)

/-- **Printed numbers are numerals.** -/
theorem itoa_leaves_numeral_iff (n : Int32) :
    Leaves n (fun s => Denotes s.chars n.toInt) ↔ n ≠ Int32.minValue :=
  leaves_iff.trans (denotes_itoa_iff n)

theorem not_itoa_leaves_numeral :
    ¬Leaves (-2147483648) (fun s => Denotes s.chars (-2147483648)) :=
  fun h => (denotes_itoa_iff (-2147483648)).mp (leaves_iff.mp h) rfl

/-! ## Reading a number back -/

/-- What the loop of `atoi` makes of a text, from a value on and without the wrapping: every
character counts as a digit. -/
def textValueFrom (z : Int) (t : Text) : Int :=
  t.foldl (fun v c => v * 10 + (charValue c - 0x30)) z

def textValue (t : Text) : Int := textValueFrom 0 t

theorem toInt_toInt8 (c : UInt8) : c.toInt8.toInt = charValue c := by
  have hlt := c.toNat_lt
  rw [← UInt8.ofNat_toNat (x := c), UInt8.toInt8_ofNat', Int8.toInt_ofNat', UInt8.ofNat_toNat,
    charValue, Int.bmod_def, Int8.size]
  split <;> split <;> omega

theorem atoi_eq_ofInt (s : CString) : atoi s = Int32.ofInt (textValue s.chars) := by
  have hstep : ∀ (z : Int) (c : UInt8), Int32.ofInt z * 10 + c.toInt8.toInt32 - 48 =
      Int32.ofInt (z * 10 + (charValue c - 0x30)) := by
    intro z c
    rw [← toInt_toInt8, ← Int.add_sub_assoc, Int32.ofInt_sub, Int32.ofInt_add, Int32.ofInt_mul,
      Int32.ofInt_int8ToInt]
    rfl
  show s.chars.foldl (fun res c => res * 10 + c.toInt8.toInt32 - 48) (Int32.ofInt 0) =
    Int32.ofInt (s.chars.foldl (fun v c => v * 10 + (charValue c - 0x30)) 0)
  exact List.foldl_hom Int32.ofInt hstep

theorem ofInt_eq_ofInt_iff {a b : Int} :
    Int32.ofInt a = Int32.ofInt b ↔ (2 ^ 32 : Int) ∣ a - b := by
  rw [← Int32.toInt_inj, Int32.toInt_ofInt, Int32.toInt_ofInt,
    Int.bmod_eq_bmod_iff_bmod_sub_eq_zero, ← Int.dvd_iff_bmod_eq_zero]
  rfl

/-- `atoi` yields a number when the text counts as it, up to the wrapping. -/
theorem atoi_eq_iff (s : CString) (n : Int) :
    atoi s = Int32.ofInt n ↔ (2 ^ 32 : Int) ∣ textValue s.chars - n := by
  rw [atoi_eq_ofInt, ofInt_eq_ofInt_iff]

theorem textValueFrom_digits (z : Int) {t : Text} (h : ∀ c ∈ t, IsDigit c) :
    textValueFrom z t = z * 10 ^ t.length + decimalValue t := by
  induction t using List.reverseRecOn with
  | nil => simp [textValueFrom]
  | append_singleton t c ih =>
      have hc : charValue c - 0x30 = digitValue c := by
        obtain ⟨hlo, hhi⟩ := h c (List.mem_append_right _ (List.mem_singleton_self c))
        rw [charValue, if_pos (by omega), digitValue]
        omega
      have hstep : textValueFrom z (t ++ [c]) = textValueFrom z t * 10 + (charValue c - 0x30) := by
        rw [textValueFrom, List.foldl_append]
        rfl
      rw [hstep, ih fun d hd => h d (List.mem_append_left _ hd), hc,
        decimalValue_append_singleton, List.length_append, List.length_singleton, pow_succ]
      push_cast
      ring

theorem textValue_numeral {t : Text} {n : Nat} (h : Numeral t n) : textValue t = n := by
  rw [textValue, textValueFrom_digits 0 h.isDigit, h.value_eq, Int.zero_mul, Int.zero_add]

/-- The sign counts as a digit, of value minus three. -/
theorem textValue_sign {t : Text} {n : Nat} (h : Numeral t n) :
    textValue (0x2D :: t) = -3 * 10 ^ t.length + n := by
  rw [← h.value_eq, ← textValueFrom_digits (-3) h.isDigit]
  rfl

/-- Modulo `2 ^ 32`, twice a number is three times the next power of ten for one number only. -/
theorem minus_three_iff {a k : Nat} (hlo : 10 ^ k ≤ a) (hhi : a < 10 ^ (k + 1))
    (hlt : a < 2 ^ 31) :
    (2 ^ 32 : Int) ∣ -3 * 10 ^ (k + 1) + a - -a ↔ a = 2115098112 := by
  have hk : k < 10 := by
    by_contra hge
    have hpow : 10 ^ 10 ≤ 10 ^ k := Nat.pow_le_pow_right (by decide) (Nat.le_of_not_lt hge)
    omega
  interval_cases k <;> omega

theorem textValue_sign_digitsText_iff {a : Nat} (ha : 0 < a) (hlt : a < 2 ^ 31) :
    (2 ^ 32 : Int) ∣ textValue (0x2D :: (digitsText a).reverse) - -a ↔ a = 2115098112 := by
  obtain ⟨k, hk⟩ := Nat.exists_eq_succ_of_ne_zero
    (fun h => digitsText_ne_nil a (List.length_eq_zero_iff.mp h))
  have hlo := pow_le_of_length_digitsText ha hk
  have hhi := (length_digitsText_le_iff (Nat.succ_pos k)).mp (Nat.le_of_eq hk)
  rw [textValue_sign (numeral_digitsText a), List.length_reverse, hk]
  exact minus_three_iff hlo hhi hlt

theorem atoi_itoa_eq_iff (n : Int32) :
    atoi ⟨itoa n, zero_notMem_itoa n⟩ = n ↔ (2 ^ 32 : Int) ∣ textValue (itoa n) - n.toInt := by
  rw [← atoi_eq_iff ⟨itoa n, zero_notMem_itoa n⟩, Int32.ofInt_toInt]

/-- **Numbers read back.** -/
theorem atoi_itoa_iff (n : Int32) :
    Leaves n (fun s => atoi s = n) ↔ 0 ≤ n ∨ n = -2115098112 := by
  have hsign : 0 ≤ n ↔ 0 ≤ n.toInt := Int32.le_iff_toInt_le
  have hnumber : n = -2115098112 ↔ n.toInt = -2115098112 := Int32.toInt_inj.symm
  rw [leaves_iff, atoi_itoa_eq_iff, hsign, hnumber]
  rcases itoa_cases n with ⟨hpos, heq⟩ | ⟨hmin, heq⟩ | ⟨hlow, hneg, heq⟩
  · refine iff_of_true ?_ (Or.inl hpos)
    rw [heq, textValue_numeral (numeral_digitsText _), Int.toNat_of_nonneg hpos, Int.sub_self]
    exact dvd_zero _
  · rw [heq, hmin]
    exact iff_of_false (by decide) (by decide)
  · obtain ⟨a, ha⟩ := Int.exists_eq_neg_ofNat (Int.le_of_lt hneg)
    rw [ha] at hlow hneg
    rw [heq, ha, Int.natAbs_neg, Int.natAbs_natCast,
      textValue_sign_digitsText_iff (by omega) (by omega)]
    omega

theorem not_atoi_itoa : ¬Leaves (-1) (fun s => atoi s = -1) := by
  rw [leaves_iff]
  decide +kernel

end FirstKernel
