import FirstKernel.CommandLine
import FirstKernel.KernelLog
import FirstKernel.Numbers

/-!
# `cmd_math`

`math a op b`, from `kernel/shell.c`. The operands are what `atoi` makes
of the first and the third word. The division is that of the processor:
where there is no quotient, or it is no `int`, the divide exception is
raised, and its handler `isr0` ends in a jump to itself, so the command
does not return (`Trap`). The result is formatted in an array of ten
cells on the stack, whose contents `resultStr` are arbitrary.
-/

namespace FirstKernel

variable {size : Nat → Nat}

/-- What keeps `cmd_math` from returning. -/
inductive Trap where
  | divideError
  | fault (f : Fault)
deriving DecidableEq

/-- `a / b` -/
def divide (a b : Int32) : Except Trap Int32 :=
  if b = 0 then .error .divideError
  else
    let quotient := a.toInt.tdiv b.toInt
    if -2 ^ 31 ≤ quotient ∧ quotient < 2 ^ 31 then .ok (Int32.ofInt quotient)
    else .error .divideError

/-- The array `result_str` is filled and printed. -/
def printResult (resultStr : Buffer 10) (result : Int32) : Except Trap (List Text) :=
  match itoaInto result resultStr with
  | .ok resultStr =>
      .ok [text "the result is: ", (stringAt (List.ofFn resultStr)).chars, text "\n"]
  | .error f => .error (.fault f)

/-- What `cmd_math` prints. -/
def cmdMath (resultStr : Buffer 10) :
    Option CString → Option CString → Option CString → Except Trap (List Text)
  | some arg1, some arg2, some arg3 =>
      let arg1Num := atoi arg1
      let arg2Num := atoi arg3
      if strcmpChars arg2.chars (text "/") = 0 then do
        let result ← divide arg1Num arg2Num
        printResult resultStr result
      else if strcmpChars arg2.chars (text "+") = 0 then
        printResult resultStr (arg1Num + arg2Num)
      else if strcmpChars arg2.chars (text "-") = 0 then
        printResult resultStr (arg1Num - arg2Num)
      else if strcmpChars arg2.chars (text "*") = 0 then
        printResult resultStr (arg1Num * arg2Num)
      else .ok []
  | _, _, _ => .ok [text "Error: missing args\n -use: math [number] [+|-|/|*] [number]\n"]

/-- The trap that has stopped a command. -/
def trapOf {α : Type} : Except Trap α → Option Trap
  | .ok _ => none
  | .error t => some t

def mathWord (tokens : List (Option Argument)) (n : Nat) : Option CString :=
  (tokens[n]?).join.map fun a => stringAt a.chars

/-- `cmd_math` with the words it has got; the world is what has stopped it, if anything. -/
def mathAct (args : Nat → Int32) (resultStr : Buffer 10) : Act (Option Trap) :=
  fun _ tokens r =>
    let report := cmdMath resultStr (mathWord tokens 0) (mathWord tokens 1) (mathWord tokens 2)
    (match report with
      | .ok messages => printMessages args messages r.1
      | .error _ => r.1,
      trapOf report)

/-- A line with the command `math`, which asks for three words. -/
structure MathLine (size : Nat → Nat) extends CommandLine size where
  threeWords : delims = [0x20, 0x20, 0x20]
  isMath : toCommandLine.word = text "math"

theorem trapOf_eq_some_iff {α : Type} {r : Except Trap α} {t : Trap} :
    trapOf r = some t ↔ r = .error t := by
  cases r <;> simp [trapOf]

/-! ## The division -/

theorem tdiv_range_iff {a b : Int32} (hb : b ≠ 0) :
    (-2 ^ 31 ≤ a.toInt.tdiv b.toInt ∧ a.toInt.tdiv b.toInt < 2 ^ 31) ↔
      ¬(a = Int32.minValue ∧ b = -1) := by
  have hle := a.le_toInt
  have hlt := a.toInt_lt
  have hzero : b.toInt ≠ 0 := fun h => hb (Int32.toInt_inj.mp h)
  have hmin : a = Int32.minValue ↔ a.toInt = -2 ^ 31 := Int32.toInt_inj.symm
  have hminus : b = -1 ↔ b.toInt = -1 := Int32.toInt_inj.symm
  rw [hmin, hminus]
  by_cases hone : b.toInt = 1
  · rw [hone, Int.tdiv_one]
    omega
  · by_cases hneg : b.toInt = -1
    · rw [hneg, Int.tdiv_neg, Int.tdiv_one]
      omega
    · have hquotient : (a.toInt.tdiv b.toInt).natAbs = a.toInt.natAbs / b.toInt.natAbs :=
        Int.natAbs_tdiv ..
      have hhalf : a.toInt.natAbs / b.toInt.natAbs ≤ a.toInt.natAbs / 2 :=
        Nat.div_le_div_left (by omega) (by decide)
      omega

/-- The quotient is an `int` but for the least one by minus one. -/
theorem divide_eq (a b : Int32) :
    divide a b =
      if b = 0 ∨ a = Int32.minValue ∧ b = -1 then .error .divideError
      else .ok (Int32.ofInt (a.toInt.tdiv b.toInt)) := by
  rw [divide]
  by_cases hb : b = 0
  · rw [if_pos hb, if_pos (Or.inl hb)]
  · simp only [if_neg hb, tdiv_range_iff hb, or_iff_right hb, ite_not]

/-! ## The command -/

theorem printResult_ne_divideError (resultStr : Buffer 10) (result : Int32) :
    printResult resultStr result ≠ .error .divideError := by
  rw [printResult]
  cases itoaInto result resultStr <;> exact fun h => by cases h

/-- Only the division raises the exception. -/
theorem cmdMath_divideError_iff (resultStr : Buffer 10) (arg1 arg2 arg3 : CString) :
    cmdMath resultStr (some arg1) (some arg2) (some arg3) = .error .divideError ↔
      arg2.chars = text "/" ∧
        (atoi arg3 = 0 ∨ atoi arg1 = Int32.minValue ∧ atoi arg3 = -1) := by
  have hslash : strcmpChars arg2.chars (text "/") = 0 ↔ arg2.chars = text "/" :=
    strcmpChars_eq_zero arg2.noNul (by decide)
  rw [cmdMath]
  simp only [hslash]
  by_cases hop : arg2.chars = text "/"
  · rw [if_pos hop]
    rw [divide_eq]
    split
    · rename_i hcond
      exact iff_of_true rfl ⟨hop, hcond⟩
    · rename_i hcond
      exact iff_of_false (printResult_ne_divideError resultStr _) fun h => hcond h.2
  · rw [if_neg hop]
    refine iff_of_false ?_ fun h => hop h.1
    split
    · exact printResult_ne_divideError _ _
    · split
      · exact printResult_ne_divideError _ _
      · split
        · exact printResult_ne_divideError _ _
        · exact fun h => by cases h

/-! ## Command lines -/

/-- What `cmd_math` prints for the words of a text. -/
def mathReport (resultStr : Buffer 10) (arguments : Text) : Except Trap (List Text) :=
  let word n := ((fields 0x20 arguments)[n]?).map stringAt
  cmdMath resultStr (word 0) (word 1) (word 2)

/-- A division by a text that counts as zero, or of the least `int` by minus one; a character
counts by its distance from the digit zero, and the value of a text wraps. -/
def BadDivision (arguments : Text) : Prop :=
  ∃ a b rest, fields 0x20 arguments = a :: text "/" :: b :: rest ∧
    ((2 ^ 32 : Int) ∣ textValue b ∨
      (2 ^ 32 : Int) ∣ textValue a - 2 ^ 31 ∧ (2 ^ 32 : Int) ∣ textValue b + 1)

theorem mathReport_divideError_iff (resultStr : Buffer 10) {arguments : Text}
    (hnul : (0 : UInt8) ∉ arguments) :
    mathReport resultStr arguments = .error .divideError ↔ BadDivision arguments := by
  have hword : ∀ word ∈ fields 0x20 arguments, (stringAt word).chars = word := fun word hmem =>
    stringAt_chars fun h0 => hnul (mem_of_mem_fields hmem h0)
  rw [mathReport, BadDivision]
  match hfields : fields 0x20 arguments with
  | a :: op :: b :: rest =>
      rw [hfields] at hword
      have ha := hword a (by simp)
      have hop := hword op (by simp)
      have hb := hword b (by simp)
      have hzero : atoi (stringAt b) = 0 ↔ (2 ^ 32 : Int) ∣ textValue b := by
        rw [show (0 : Int32) = Int32.ofInt 0 from rfl, atoi_eq_iff, hb, Int.sub_zero]
      have hminus : atoi (stringAt b) = -1 ↔ (2 ^ 32 : Int) ∣ textValue b + 1 := by
        rw [show (-1 : Int32) = Int32.ofInt (-1) from rfl, atoi_eq_iff, hb, Int.sub_neg]
      have hmin : atoi (stringAt a) = Int32.minValue ↔ (2 ^ 32 : Int) ∣ textValue a - 2 ^ 31 := by
        rw [show Int32.minValue = Int32.ofInt (2 ^ 31) from rfl, atoi_eq_iff, ha]
      show cmdMath resultStr (some (stringAt a)) (some (stringAt op)) (some (stringAt b)) = _ ↔ _
      rw [cmdMath_divideError_iff, hop, hzero, hminus, hmin]
      refine ⟨fun ⟨hslash, hvalue⟩ => ⟨a, b, rest, by rw [hslash], hvalue⟩, ?_⟩
      rintro ⟨a', b', rest', heq, hvalue⟩
      obtain ⟨rfl, rfl, rfl, -⟩ := by simpa using heq
      exact ⟨rfl, hvalue⟩
  | [] => exact iff_of_false (fun h => by cases h) (by simp)
  | [a] => exact iff_of_false (fun h => by cases h) (by simp)
  | [a, op] => exact iff_of_false (fun h => by cases h) (by simp)

namespace MathLine

theorem mathWord_tokens (c : MathLine size) (n : Nat) (hn : n < 3) :
    mathWord c.tokens n = ((fields 0x20 c.arguments)[n]?).map stringAt := by
  have hanswer : answer 0x20 0 c.arguments [0x20, 0x20, 0x20] n =
      (fields 0x20 c.arguments)[n]? := by
    interval_cases n <;> rfl
  have hn' : n < List.length [(0x20 : UInt8), 0x20, 0x20] := hn
  rw [mathWord, CommandLine.tokens, c.threeWords, List.getElem?_map, List.getElem?_range hn',
    Option.map_some, Option.join_some, hanswer, Option.map_map]
  rfl

theorem noNul_arguments (c : MathLine size) : (0 : UInt8) ∉ c.arguments := fun h0 =>
  c.tokenized.noNul ((List.dropWhile_sublist _).subset (List.mem_of_mem_tail h0))

/-- The command gets the words of the line, and ends as it does on them. -/
theorem exec_ok (args : Nat → Int32) (resultStr : Buffer 10) (c : MathLine size)
    (s : Session size (Option Trap)) :
    ∃ s', c.exec args (mathAct args resultStr) s = .ok s' ∧
      s'.world = trapOf (mathReport resultStr c.arguments) := by
  obtain ⟨s', hexec, heffect⟩ := c.toCommandLine.exec_ok args (mathAct args resultStr) s
  refine ⟨s', hexec, ?_⟩
  have hline : c.line ≠ [] := fun hnil => by
    have hword := c.isMath
    rw [CommandLine.word, hnil] at hword
    cases hword
  have hmem : c.word ∈ commands := by
    rw [c.isMath]
    decide +kernel
  rw [CommandLine.effect, if_neg hline, if_pos hmem] at heffect
  have hworld : s'.world = _ := congrArg Prod.snd heffect
  rw [hworld, mathAct]
  simp only [c.mathWord_tokens 0 (by decide), c.mathWord_tokens 1 (by decide),
    c.mathWord_tokens 2 (by decide)]
  rfl

theorem exec_divides_iff (args : Nat → Int32) (resultStr : Buffer 10) (c : MathLine size)
    (s : Session size (Option Trap)) :
    ∃ s', c.exec args (mathAct args resultStr) s = .ok s' ∧
      (s'.world = some .divideError ↔ BadDivision c.arguments) := by
  obtain ⟨s', hexec, hworld⟩ := c.exec_ok args resultStr s
  refine ⟨s', hexec, ?_⟩
  rw [hworld, trapOf_eq_some_iff, mathReport_divideError_iff resultStr c.noNul_arguments]

end MathLine

/-- **No divide exception**, except for a division by a text that counts as zero or of the
least `int` by minus one. -/
theorem math_undivided_iff (args : Nat → Int32) (resultStr : Buffer 10) (c : MathLine size)
    (s : Session size (Option Trap)) :
    (∃ s', c.exec args (mathAct args resultStr) s = .ok s' ∧ s'.world ≠ some .divideError) ↔
      ¬BadDivision c.arguments := by
  obtain ⟨s', hexec, hdivides⟩ := c.exec_divides_iff args resultStr s
  rw [← not_congr hdivides]
  refine ⟨fun ⟨s₁, hs₁, hne⟩ => ?_, fun hne => ⟨s', hexec, hne⟩⟩
  rw [hexec] at hs₁
  cases hs₁
  exact hne

/-- `math 1 / 0`, typed into the array of the keyboard. -/
def oneByZero : MathLine (fun _ => 255) where
  input := 0
  content := Buffer.blit (Buffer.zeros 256) 0 (text "math 1 / 0")
  ended := ⟨Fin.last 255, by decide +kernel⟩
  delims := [0x20, 0x20, 0x20]
  delims_eq delim h := Or.inl (by simpa using h)
  threeWords := rfl
  isMath := by decide +kernel

theorem badDivision_oneByZero : BadDivision oneByZero.arguments :=
  ⟨text "1", text "0", [], by decide +kernel, Or.inl (by decide +kernel)⟩

theorem not_math_undivided :
    ¬∃ s', oneByZero.exec (fun _ => 0) (mathAct (fun _ => 0) (Buffer.zeros 10))
        ⟨fun _ => Buffer.zeros 256, none, bootScreen, none⟩ = .ok s' ∧
      s'.world ≠ some .divideError := by
  rintro ⟨s', hexec, hne⟩
  obtain ⟨s₁, hexec', hdivides⟩ := oneByZero.exec_divides_iff (fun _ => 0) (Buffer.zeros 10)
    ⟨fun _ => Buffer.zeros 256, none, bootScreen, none⟩
  rw [hexec'] at hexec
  cases hexec
  exact hne (hdivides.mpr badDivision_oneByZero)

end FirstKernel
