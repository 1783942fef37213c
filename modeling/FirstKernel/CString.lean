import Mathlib.Data.List.TakeWhile
import FirstKernel.Bytes
import FirstKernel.Runs

/-!
# C strings

NUL-terminated strings as the characters before the terminator
(`CString` carries that none of them is NUL), and the functions of
`libc/string.c` that the file system and the shell run on them. Plain
`char` is signed here, so a character compared with an `unsigned char`
counts as `charValue`.
-/

namespace FirstKernel

abbrev Text := List UInt8

/-- The bytes of an ASCII literal of the source. -/
def text (s : String) : Text := s.toList.map fun c => UInt8.ofNat c.toNat

@[ext] structure CString where
  chars : Text
  noNul : (0 : UInt8) ∉ chars
deriving DecidableEq

/-- The string in a `char` array: what stands before the first NUL. -/
def stringAt (buffer : Text) : CString where
  chars := buffer.takeWhile (· ≠ 0)
  noNul h := by simpa using List.mem_takeWhile_imp h

/-- A `char` of value `b` after the integer promotions. -/
def charValue (b : UInt8) : Int :=
  if b.toNat < 128 then b.toNat else b.toNat - 256

theorem takeWhile_eq_of_forall_ne {xs : Text} (h : (0 : UInt8) ∉ xs) :
    xs.takeWhile (· ≠ 0) = xs := by
  refine List.takeWhile_eq_self_iff.mpr fun x hx => decide_eq_true ?_
  rintro rfl
  exact h hx

theorem stringAt_chars {xs : Text} (h : (0 : UInt8) ∉ xs) : (stringAt xs).chars = xs :=
  takeWhile_eq_of_forall_ne h

theorem stringAt_of_prefix {xs l : Text} (h : xs ++ [0] <+: l) (hxs : (0 : UInt8) ∉ xs) :
    (stringAt l).chars = xs := by
  obtain ⟨t, rfl⟩ := h
  have hne : ∀ c ∈ xs, decide (c ≠ 0) = true := fun c hc =>
    decide_eq_true fun h0 => hxs (h0 ▸ hc)
  rw [stringAt, List.append_assoc]
  show (xs ++ 0 :: t).takeWhile (· ≠ 0) = xs
  rw [List.takeWhile_append_of_pos hne, List.takeWhile_cons_of_neg (by decide), List.append_nil]

theorem ofFn_update {α : Type*} {n : Nat} (f : Fin n → α) (i : Fin n) (a : α) :
    List.ofFn (Function.update f i a) = (List.ofFn f).set i.val a := by
  refine List.ext_getElem (by simp) fun k h1 h2 => ?_
  rw [List.getElem_ofFn, List.getElem_set]
  by_cases hk : i.val = k
  · subst hk
    rw [if_pos rfl]
    exact Function.update_self ..
  · rw [if_neg hk, List.getElem_ofFn]
    exact Function.update_of_ne (fun heq => hk (congrArg Fin.val heq).symm) ..

/-- A buffer that holds `xs` and then a terminator is the string `xs`. -/
theorem stringAt_ofFn {n : Nat} {b : Buffer n} {xs : Text} (hxs : (0 : UInt8) ∉ xs)
    (hlen : xs.length < n) (hb : ∀ k (h : k < xs.length), b ⟨k, by omega⟩ = xs[k])
    (hend : b ⟨xs.length, hlen⟩ = 0) : (stringAt (List.ofFn b)).chars = xs := by
  have htake : (List.ofFn b).take xs.length = xs := by
    refine List.ext_getElem (by simp; omega) fun k h1 h2 => ?_
    rw [List.getElem_take, List.getElem_ofFn]
    exact hb k h2
  have hlt : xs.length < (List.ofFn b).length := by
    rw [List.length_ofFn]
    exact hlen
  have hdrop : (List.ofFn b).drop xs.length = 0 :: (List.ofFn b).drop (xs.length + 1) := by
    rw [List.drop_eq_getElem_cons hlt, List.getElem_ofFn, hend]
  refine stringAt_of_prefix ⟨(List.ofFn b).drop (xs.length + 1), ?_⟩ hxs
  rw [List.append_assoc, List.singleton_append, ← hdrop]
  conv_rhs => rw [← List.take_append_drop xs.length (List.ofFn b), htake]

def strlen (s : CString) : Nat := s.chars.length

def strcmpChars : Text → Text → Int
  | [], [] => 0
  | [], b :: _ => 0 - charValue b
  | a :: _, [] => charValue a - 0
  | a :: as, b :: bs =>
      if a = b then strcmpChars as bs else charValue a - charValue b

def strcmp (s1 s2 : CString) : Int := strcmpChars s1.chars s2.chars

/-- The digits `itoa` stores, least significant first: one for `n % 10`, and the
loop goes on while `n / 10` is positive. -/
def itoaDigits : Nat → Int32 → Text
  | 0, _ => []
  | fuel + 1, n =>
      (n % 10 + 48).toUInt32.toUInt8 ::
        if 0 < n / 10 then itoaDigits fuel (n / 10) else []

/-- `itoa`, with its `reverse`. An `int` has at most ten digits, so ten rounds
of the digit loop are all there are. -/
def itoa (n : Int32) : Text :=
  let isNegative := n < 0
  let n := if isNegative then -n else n
  let digits := itoaDigits 10 n
  (if isNegative then digits ++ text "-" else digits).reverse

def hexChars : Text := text "0123456789ABCDEF"

/-- The digits that the loop of `hex_to_string` stores, least significant first. -/
def hexDigits : Nat → UInt32 → Text
  | 0, _ => []
  | rounds + 1, n =>
      hexChars.getD (n &&& 0x0F).toNat 0 :: hexDigits rounds (n >>> 4)

def hexToString (n : UInt32) : Text := text "0x" ++ (hexDigits 8 n).reverse

def atoi (s : CString) : Int32 :=
  s.chars.foldl (fun res c => res * 10 + c.toInt8.toInt32 - 48) 0

/-- The comparison of the strings from index `i` of their arrays on, for at most
`rounds` more characters. -/
def strncmpFrom (i : Nat) : Nat → Text → Text → Except Fault Int
  | 0, _, _ => .ok 0
  | rounds + 1, a :: s1, b :: s2 =>
      if a ≠ b then .ok (charValue a - charValue b)
      else if a = 0 then .ok 0
      else strncmpFrom (i + 1) rounds s1 s2
  | _ + 1, _, _ => .error (.outOfRange i)

def strncmp (s1 s2 : Text) (n : Nat) : Except Fault Int := strncmpFrom 0 n s1 s2

/-! ## Tokens -/

/-- Where the loop of `strtok` stops: the first cell from `start` on that holds
the delimiter or a terminator. -/
def tokenEnd {n : Nat} (delim : UInt8) (buffer : Buffer n) (start : Nat) : Option (Fin n) :=
  (List.finRange n).find? fun i =>
    decide (start ≤ i.val ∧ (buffer i = 0 ∨ buffer i = delim))

/-- `strtok` on the strings in one array; pointers are offsets. The token, the array
and the static `last_token` afterwards. -/
def strtok {n : Nat} (str : Option Nat) (delim : UInt8) (buffer : Buffer n)
    (lastToken : Option Nat) : Except Fault (Option Nat × Buffer n × Option Nat) :=
  match str.or lastToken with
  | none => .ok (none, buffer, none)
  | some start =>
      match tokenEnd delim buffer start with
      | none => .error (.outOfRange n)
      | some i =>
          if buffer i = 0 then
            .ok (if i.val = start then none else some start, buffer, some i.val)
          else .ok (some start, Function.update buffer i 0, some (i.val + 1))

/-- The string that a pointer into an array points at. -/
def stringFrom {n : Nat} (buffer : Buffer n) (start : Nat) : CString :=
  stringAt ((List.ofFn buffer).drop start)

/-! ## Names -/

/-- `s` truncated or padded with blanks to `n` characters, as the loops
`(i < len) ? s[i] : ' '` of the shell and the file system do. -/
def padded (n : Nat) (s : CString) : Buffer n := fun i =>
  (s.chars[i.val]?).getD 0x20

theorem padded_of_lt {n : Nat} {s : CString} {i : Fin n}
    (h : i.val < strlen s) : padded n s i = s.chars[i.val] := by
  simp [padded, List.getElem?_eq_getElem h]

theorem padded_of_ge {n : Nat} {s : CString} {i : Fin n}
    (h : strlen s ≤ i.val) : padded n s i = 0x20 := by
  simp [padded, List.getElem?_eq_none h]

theorem padded_ne_zero {n : Nat} (s : CString) (i : Fin n) : padded n s i ≠ 0 := by
  rcases Nat.lt_or_ge i.val (strlen s) with h | h
  · rw [padded_of_lt h]
    exact fun hz => s.noNul (hz ▸ List.getElem_mem h)
  · rw [padded_of_ge h]
    decide

def SevenBit (s : CString) : Prop := ∀ c ∈ s.chars, c.toNat < 128

instance (s : CString) : Decidable (SevenBit s) :=
  List.decidableBAll (fun c : UInt8 => c.toNat < 128) s.chars

theorem SevenBit.padded {s : CString} (h : SevenBit s) (n : Nat) (i : Fin n) :
    (padded n s i).toNat < 128 := by
  rcases Nat.lt_or_ge i.val (strlen s) with hlt | hge
  · rw [padded_of_lt hlt]
    exact h _ (List.getElem_mem hlt)
  · rw [padded_of_ge hge]
    decide

/-- A `char` equals an `unsigned char` exactly when they are the same 7-bit
byte. -/
theorem charValue_eq_toNat {a b : UInt8} :
    charValue a = b.toNat ↔ a = b ∧ a.toNat < 128 := by
  have ha := a.toNat_lt
  rw [← UInt8.toNat_inj]
  unfold charValue
  split <;> omega

theorem strcmpChars_eq_zero : ∀ {s t : Text}, (0 : UInt8) ∉ s → (0 : UInt8) ∉ t →
    (strcmpChars s t = 0 ↔ s = t)
  | [], [], _, _ => by simp [strcmpChars]
  | [], b :: t, _, ht => by
      have hb : b ≠ 0 := fun h => ht (h ▸ List.mem_cons_self ..)
      have hb' : b.toNat ≠ 0 := fun h => hb (UInt8.toNat_inj.mp h)
      have hlt := b.toNat_lt
      simp only [strcmpChars, charValue, reduceCtorEq, iff_false]
      split <;> omega
  | a :: s, [], hs, _ => by
      have ha : a ≠ 0 := fun h => hs (h ▸ List.mem_cons_self ..)
      have ha' : a.toNat ≠ 0 := fun h => ha (UInt8.toNat_inj.mp h)
      have hlt := a.toNat_lt
      simp only [strcmpChars, charValue, reduceCtorEq, iff_false]
      split <;> omega
  | a :: s, b :: t, hs, ht => by
      have ih := strcmpChars_eq_zero (fun h => hs (List.mem_cons_of_mem _ h))
        (fun h => ht (List.mem_cons_of_mem _ h))
      by_cases hab : a = b
      · simp [strcmpChars, hab, ih]
      · have hne : a.toNat ≠ b.toNat := fun h => hab (UInt8.toNat_inj.mp h)
        have ha := a.toNat_lt
        have hb := b.toNat_lt
        simp only [strcmpChars, hab, if_false, List.cons.injEq, false_and, iff_false,
          charValue]
        split <;> split <;> omega

theorem strcmp_eq_zero {s t : CString} : strcmp s t = 0 ↔ s = t := by
  rw [strcmp, strcmpChars_eq_zero s.noNul t.noNul, CString.ext_iff]

end FirstKernel
