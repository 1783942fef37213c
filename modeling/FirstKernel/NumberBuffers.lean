import FirstKernel.Fat16
import FirstKernel.MathCommand

/-!
# The arrays that numbers are formatted in

`cmd_math` and `list_files` give `itoa` an array of ten cells on the stack.
The sign, the digits and the terminator fit for the numbers of at most
nine digits, or eight after a sign (`ShortNumber`), and for the least
`int`, of which only two characters are stored. What the stack holds
before is arbitrary.
-/

namespace FirstKernel

/-- A number that ten cells have room for. -/
def ShortNumber (n : Int32) : Prop :=
  n = Int32.minValue ∨ -100000000 < n ∧ n < 1000000000

/-! ## Ten cells -/

theorem length_itoa_lt_ten_iff (n : Int32) : (itoa n).length < 10 ↔ ShortNumber n := by
  have hlow : -100000000 < n ↔ -100000000 < n.toInt := Int32.lt_iff_toInt_lt
  have hhigh : n < 1000000000 ↔ n.toInt < 1000000000 := Int32.lt_iff_toInt_lt
  have hleast : n = Int32.minValue ↔ n.toInt = -2 ^ 31 := Int32.toInt_inj.symm
  rw [ShortNumber, hlow, hhigh, hleast]
  rcases itoa_cases n with ⟨hpos, heq⟩ | ⟨hmin, heq⟩ | ⟨hmin, hneg, heq⟩
  · have hdigits : (digitsText n.toInt.toNat).length ≤ 9 ↔ n.toInt.toNat < 10 ^ 9 :=
      length_digitsText_le_iff (by decide)
    rw [heq, List.length_reverse, Nat.lt_succ_iff, hdigits]
    omega
  · refine iff_of_true ?_ (Or.inl (hleast.mp hmin))
    rw [heq]
    decide
  · have hdigits : (digitsText n.toInt.natAbs).length ≤ 8 ↔ n.toInt.natAbs < 10 ^ 8 :=
      length_digitsText_le_iff (by decide)
    rw [heq, List.length_cons, List.length_reverse, Nat.succ_lt_succ_iff, Nat.lt_succ_iff, hdigits]
    omega

theorem itoaInto_ok_iff (n : Int32) (str : Buffer 10) :
    (∃ b, itoaInto n str = .ok b) ↔ ShortNumber n := by
  rw [← length_itoa_lt_ten_iff, itoaInto_eq]
  split
  · rename_i h
    exact iff_of_true ⟨_, rfl⟩ h
  · rename_i h
    refine iff_of_false ?_ h
    rintro ⟨b, hb⟩
    cases hb

/-! ## `cmd_math` -/

/-- What the operators compute, where the result is an `int`. -/
def operation (op : Text) : Option (Int → Int → Int) :=
  if op = text "/" then some Int.tdiv
  else if op = text "+" then some (· + ·)
  else if op = text "-" then some (· - ·)
  else if op = text "*" then some (· * ·)
  else none

theorem printResult_stores_iff (resultStr : Buffer 10) (result : Int32) :
    (∀ f, printResult resultStr result ≠ .error (.fault f)) ↔ ShortNumber result := by
  rw [← itoaInto_ok_iff result resultStr, printResult]
  cases itoaInto result resultStr with
  | ok b => exact iff_of_true (fun f h => by cases h) ⟨b, rfl⟩
  | error e =>
      refine iff_of_false (fun h => h e rfl) ?_
      rintro ⟨b, hb⟩
      cases hb

/-- Where there is no quotient, the number that stands for it is short. -/
theorem divide_stores_iff (resultStr : Buffer 10) (a b : Int32) :
    (∀ f, (divide a b >>= printResult resultStr) ≠ .error (.fault f)) ↔
      ShortNumber (Int32.ofInt (a.toInt.tdiv b.toInt)) := by
  rw [divide_eq]
  split
  · rename_i hbad
    refine iff_of_true (fun f h => by cases h) ?_
    rcases hbad with rfl | ⟨rfl, rfl⟩
    · rw [show (0 : Int32).toInt = 0 from rfl, Int.tdiv_zero]
      exact Or.inr (by decide)
    · exact Or.inl (by decide)
  · exact printResult_stores_iff resultStr _

/-- The result of the operation is what has to fit. -/
theorem cmdMath_stores_iff (resultStr : Buffer 10) (arg1 arg2 arg3 : CString) :
    (∀ f, cmdMath resultStr (some arg1) (some arg2) (some arg3) ≠ .error (.fault f)) ↔
      ∀ compute ∈ operation arg2.chars,
        ShortNumber (Int32.ofInt (compute (atoi arg1).toInt (atoi arg3).toInt)) := by
  have hname : ∀ name : Text, (0 : UInt8) ∉ name →
      (strcmpChars arg2.chars name = 0 ↔ arg2.chars = name) := fun name =>
    strcmpChars_eq_zero arg2.noNul
  have hsome : ∀ f : Int → Int → Int,
      (∀ compute ∈ some f, ShortNumber (Int32.ofInt (compute (atoi arg1).toInt (atoi arg3).toInt)))
        ↔ ShortNumber (Int32.ofInt (f (atoi arg1).toInt (atoi arg3).toInt)) := fun f => by
    simp only [Option.mem_some_iff, forall_eq']
  rw [cmdMath, operation]
  simp only [hname (text "/") (by decide), hname (text "+") (by decide),
    hname (text "-") (by decide), hname (text "*") (by decide)]
  by_cases hdiv : arg2.chars = text "/"
  · rw [if_pos hdiv, if_pos hdiv, hsome]
    exact divide_stores_iff resultStr _ _
  · rw [if_neg hdiv, if_neg hdiv]
    by_cases hadd : arg2.chars = text "+"
    · rw [if_pos hadd, if_pos hadd, hsome, Int32.ofInt_add, Int32.ofInt_toInt,
        Int32.ofInt_toInt]
      exact printResult_stores_iff resultStr _
    · rw [if_neg hadd, if_neg hadd]
      by_cases hsub : arg2.chars = text "-"
      · rw [if_pos hsub, if_pos hsub, hsome, Int32.ofInt_sub, Int32.ofInt_toInt,
          Int32.ofInt_toInt]
        exact printResult_stores_iff resultStr _
      · rw [if_neg hsub, if_neg hsub]
        by_cases hmul : arg2.chars = text "*"
        · rw [if_pos hmul, if_pos hmul, hsome, Int32.ofInt_mul,
            Int32.ofInt_toInt, Int32.ofInt_toInt]
          exact printResult_stores_iff resultStr _
        · rw [if_neg hmul, if_neg hmul]
          exact iff_of_true (fun f h => by cases h) fun compute h => by cases h

/-! ## `list_files` -/

/-- The entry is printed with its size formatted in `size_str`. -/
def listEntryInto (sizeStr : Buffer 10) (entries : Sector) (i : Slot) : Except Fault (List Text) :=
  let filename := (stringAt (List.ofFn (entries.name i))).chars
  let ext := (stringAt (List.ofFn (entries.ext i))).chars
  if entries.attributes i = 0x10 then .ok [text "[DIR] ", filename, text "\n"]
  else
    match itoaInto (entries.size i).toInt32 sizeStr with
    | .ok sizeStr =>
        .ok [text "File: ", filename, text ".", ext, text " (",
          (stringAt (List.ofFn sizeStr)).chars, text " bytes)\n"]
    | .error e => .error e

/-- The loop of `list_files` over the entries that it prints. -/
def listEntriesInto (stack : Slot → Buffer 10) (entries : Sector) :
    List Slot → Except Fault (List Text)
  | [] => .ok []
  | i :: rest => do
      let messages ← listEntryInto (stack i) entries i
      let others ← listEntriesInto stack entries rest
      .ok (messages ++ others)

/-- `list_files`, with the arrays as the stack has them in the rounds of its loop. -/
def listFilesInto (stack : Slot → Buffer 10) (fs : Fs) : Except Fault Fs := do
  let entries := readCurrentDirectory fs
  let title := if fs.currentDirCluster = 0 then text "\n--- ROOT DIR ---\n"
    else text "\n--- FOLDER DIR ---\n"
  let filesFound := listed entries (List.finRange 16)
  let messages ← listEntriesInto stack entries filesFound
  .ok (printAll (title :: (messages ++
    if filesFound = [] then [text "Files not found\n", text "---------------\n"] else [])) fs)

/-- The number that an entry is printed with fits. -/
def ShortSize (entries : Sector) (i : Slot) : Prop :=
  entries.attributes i ≠ 0x10 → ShortNumber (entries.size i).toInt32

theorem listEntryInto_of_short (sizeStr : Buffer 10) {entries : Sector} {i : Slot}
    (h : ShortSize entries i) : listEntryInto sizeStr entries i = .ok (listEntry entries i) := by
  rw [listEntryInto, listEntry]
  by_cases hdir : entries.attributes i = 0x10
  · rw [if_pos hdir, if_pos hdir]
  · have hlt := (length_itoa_lt_ten_iff _).mpr (h hdir)
    rw [if_neg hdir, if_neg hdir, itoaInto_eq, if_pos hlt]
    simp only [(stringAt_blit (zero_notMem_itoa _) hlt sizeStr).2]

theorem short_of_listEntryInto {sizeStr : Buffer 10} {entries : Sector} {i : Slot}
    {messages : List Text} (h : listEntryInto sizeStr entries i = .ok messages) :
    ShortSize entries i := by
  intro hdir
  rw [listEntryInto] at h
  simp only [if_neg hdir] at h
  refine (itoaInto_ok_iff _ sizeStr).mp ?_
  cases hsize : itoaInto (entries.size i).toInt32 sizeStr with
  | ok b => exact ⟨b, rfl⟩
  | error e =>
      rw [hsize] at h
      cases h

theorem listEntriesInto_of_short (stack : Slot → Buffer 10) {entries : Sector} :
    ∀ {slots : List Slot}, (∀ i ∈ slots, ShortSize entries i) →
      listEntriesInto stack entries slots = .ok (slots.flatMap (listEntry entries))
  | [], _ => rfl
  | i :: rest, h => by
      rw [listEntriesInto, listEntryInto_of_short _ (h i (List.mem_cons_self ..)),
        listEntriesInto_of_short stack fun j hj => h j (List.mem_cons_of_mem _ hj)]
      rfl

theorem short_of_listEntriesInto {stack : Slot → Buffer 10} {entries : Sector} :
    ∀ {slots : List Slot} {messages : List Text},
      listEntriesInto stack entries slots = .ok messages → ∀ i ∈ slots, ShortSize entries i
  | [], _, _ => fun i hi => by cases hi
  | i :: rest, messages, h => by
      rw [listEntriesInto] at h
      cases hentry : listEntryInto (stack i) entries i with
      | error e =>
          rw [hentry] at h
          cases h
      | ok line =>
          cases hrest : listEntriesInto stack entries rest with
          | error e =>
              rw [hentry, hrest] at h
              cases h
          | ok lines =>
              intro j hj
              rcases List.mem_cons.mp hj with rfl | hj
              · exact short_of_listEntryInto hentry
              · exact short_of_listEntriesInto hrest j hj

/-- With room for the sizes, the listing is the one of the model without arrays. -/
theorem listFilesInto_of_short (stack : Slot → Buffer 10) {fs : Fs}
    (h : ∀ i ∈ listed (readCurrentDirectory fs) (List.finRange 16),
      ShortSize (readCurrentDirectory fs) i) :
    listFilesInto stack fs = .ok (listFiles fs) := by
  rw [listFilesInto]
  simp only [listEntriesInto_of_short stack h]
  rfl

theorem listFilesInto_ok_iff (stack : Slot → Buffer 10) (fs : Fs) :
    (∃ fs', listFilesInto stack fs = .ok fs') ↔
      ∀ i ∈ listed (readCurrentDirectory fs) (List.finRange 16),
        ShortSize (readCurrentDirectory fs) i := by
  refine ⟨fun ⟨fs', hok⟩ => ?_, fun h => ⟨_, listFilesInto_of_short stack h⟩⟩
  rw [listFilesInto] at hok
  cases hloop : listEntriesInto stack (readCurrentDirectory fs)
      (listed (readCurrentDirectory fs) (List.finRange 16)) with
  | ok messages => exact short_of_listEntriesInto hloop
  | error e =>
      simp only [hloop] at hok
      cases hok

/-- **Formatted numbers fit** in the arrays of `cmd_math` and `list_files` just when they are
short. -/
theorem formatted_fit_iff (n : Int32) (buffer : Buffer 10) (arg1 arg2 arg3 : CString)
    (stack : Slot → Buffer 10) (fs : Fs) :
    ((∃ b, itoaInto n buffer = .ok b) ↔ ShortNumber n) ∧
    ((∀ f, cmdMath buffer (some arg1) (some arg2) (some arg3) ≠ .error (.fault f)) ↔
      ∀ compute ∈ operation arg2.chars,
        ShortNumber (Int32.ofInt (compute (atoi arg1).toInt (atoi arg3).toInt))) ∧
    ((∃ fs', listFilesInto stack fs = .ok fs') ↔
      ∀ i ∈ listed (readCurrentDirectory fs) (List.finRange 16),
        ShortSize (readCurrentDirectory fs) i) :=
  ⟨itoaInto_ok_iff n buffer, cmdMath_stores_iff buffer arg1 arg2 arg3,
    listFilesInto_ok_iff stack fs⟩

/-- `math 1000000000 + 0` stores its terminator behind the array. -/
theorem not_formatted_fit :
    ¬∀ f, cmdMath (Buffer.zeros 10) (some (stringAt (text "1000000000")))
      (some (stringAt (text "+"))) (some (stringAt (text "0"))) ≠ .error (.fault f) :=
  fun h => h (.outOfRange 10) (by decide +kernel)

end FirstKernel
