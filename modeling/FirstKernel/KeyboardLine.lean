import FirstKernel.KernelLog
import FirstKernel.Keyboard
import FirstKernel.LineEditor

/-!
# The keyboard edits a line

`key_buffer` and `buffer_index` hold the line of a `LineEditor`, and
`last_command` its history (`Tracks`). Each scancode is a key of that
editor or none (`keyOf`), by the state of shift and caps lock, and the
handler does to the buffers what the key does to the line
(`outcome_keyboardHandler`). Since a run of the handler ends in a fault as
soon as an index is out of range, that also says that none ever is.

The line never holds a terminator, so the terminator that Enter writes
after it makes it the string that `execute_command` is given.
-/

namespace FirstKernel

/-! ## Cells -/

theorem prefix_set_of_le {α : Type*} {xs l : List α} (h : xs <+: l) {i : Nat}
    (hi : xs.length ≤ i) (a : α) : xs <+: l.set i a := by
  obtain ⟨t, rfl⟩ := h
  rw [List.set_append_right _ _ hi]
  exact List.prefix_append xs _

theorem append_prefix_set {α : Type*} {xs l : List α} (h : xs <+: l)
    (hlt : xs.length < l.length) (a : α) : xs ++ [a] <+: l.set xs.length a := by
  obtain ⟨t, rfl⟩ := h
  cases t with
  | nil => simp at hlt
  | cons b t =>
      rw [List.set_append_right _ _ (Nat.le_refl _), Nat.sub_self, List.set_cons_zero]
      exact ⟨t, by simp⟩

/-- A cell that takes the next element of a list that is copied. -/
theorem take_succ_prefix_set {α : Type*} {xs l : List α} {j : Nat} (hj : j < xs.length)
    (h : xs.take j <+: l) (hlt : j < l.length) : xs.take (j + 1) <+: l.set j xs[j] := by
  have hlen : (xs.take j).length = j := by
    rw [List.length_take]
    omega
  have happend := append_prefix_set h (by rw [hlen]; exact hlt) xs[j]
  rw [hlen] at happend
  rw [List.take_succ_eq_append_getElem hj]
  exact happend

/-! ## Comparing with a command -/

theorem charValue_inj {a b : UInt8} (h : charValue a = charValue b) : a = b := by
  have ha := a.toNat_lt
  have hb := b.toNat_lt
  refine UInt8.toNat_inj.mp ?_
  unfold charValue at h
  split at h <;> split at h <;> omega

/-- `strncmp` over the length of the line tells whether a string begins with it. -/
theorem strncmpFrom_line : ∀ {line : Text} (i : Nat) (rest command : Text),
    (0 : UInt8) ∉ line →
    ∃ r, strncmpFrom i line.length (line ++ rest) (command ++ [0]) = .ok r ∧
      (r = 0 ↔ line <+: command)
  | [], _, _, _, _ => ⟨0, rfl, iff_of_true rfl (List.nil_prefix)⟩
  | a :: line, i, rest, [], hnul => by
      have ha : a ≠ 0 := fun h0 => hnul (h0 ▸ List.mem_cons_self ..)
      refine ⟨charValue a - charValue 0, ?_, ?_⟩
      · simp [strncmpFrom, ha]
      · refine iff_of_false (fun h0 => ha (charValue_inj (by omega))) fun hpre => ?_
        exact absurd (List.prefix_nil.mp hpre) (List.cons_ne_nil a line)
  | a :: line, i, rest, b :: command, hnul => by
      have ha : a ≠ 0 := fun h0 => hnul (h0 ▸ List.mem_cons_self ..)
      by_cases hab : a = b
      · obtain ⟨r, hr, hiff⟩ := strncmpFrom_line (i + 1) rest command
          fun hmem => hnul (List.mem_cons_of_mem _ hmem)
        refine ⟨r, ?_, ?_⟩
        · rw [List.length_cons, List.cons_append, List.cons_append, strncmpFrom,
            if_neg (not_not.mpr hab), if_neg ha, hr]
        · rw [hiff, List.cons_prefix_cons]
          exact (and_iff_right hab).symm
      · refine ⟨charValue a - charValue b, ?_, ?_⟩
        · rw [List.length_cons, List.cons_append, List.cons_append, strncmpFrom, if_pos hab]
        · refine iff_of_false (fun h0 => hab (charValue_inj (by omega))) fun hpre => ?_
          exact hab (List.cons_prefix_cons.mp hpre).1

theorem firstCompletion_eq {line cells : Text} (hcells : line <+: cells)
    (hnul : (0 : UInt8) ∉ line) : ∀ commands : List Text,
    firstCompletion cells line.length commands =
      .ok (commands.find? fun c => decide (line <+: c))
  | [] => rfl
  | command :: rest => by
      obtain ⟨t, rfl⟩ := hcells
      obtain ⟨r, hr, hiff⟩ := strncmpFrom_line 0 t command hnul
      have ih := firstCompletion_eq (List.prefix_append line t) hnul rest
      simp only [firstCompletion, strncmp, hr, ih]
      by_cases h0 : r = 0
      · have hp : decide (line <+: command) = true := decide_eq_true (hiff.mp h0)
        simp only [if_pos h0, List.find?_cons, hp]
      · have hp : decide (line <+: command) = false := decide_eq_false fun h => h0 (hiff.mpr h)
        simp only [if_neg h0, List.find?_cons, hp]

/-! ## Modifiers -/

structure Modifiers where
  shift : Bool
  caps : Bool

namespace Modifiers

def after (m : Modifiers) (scancode : UInt8) : Modifiers :=
  if scancode = 0x2A ∨ scancode = 0x36 then { m with shift := true }
  else if scancode = 0xAA ∨ scancode = 0xB6 then { m with shift := false }
  else if scancode = 0x3A then { m with caps := !m.caps }
  else m

end Modifiers

variable {σ : Type}

/-- The keyboard's flags are the modifiers. -/
def Keyboard.modifiers (k : Keyboard σ) : Modifiers := ⟨k.shiftPressed, k.capsLocks⟩

/-! ## What the buffers hold -/

/-- The buffer holds the line. -/
structure HoldsLine (k : Keyboard σ) (line : Text) : Prop where
  index_eq : k.bufferIndex = line.length
  cells : line <+: List.ofFn k.shell.keyBuffer

/-- A character that the editor may hold. -/
def Plain (c : UInt8) : Prop := c ≠ 0 ∧ c ≠ 0x0A ∧ c ≠ 0x08

instance (c : UInt8) : Decidable (Plain c) := inferInstanceAs (Decidable (_ ∧ _))

/-- A key that edits the line with such a character or none. -/
def Editing : Key UInt8 → Prop
  | .char c => Plain c
  | .enter => False
  | _ => True

theorem Editing.ne_enter {key : Key UInt8} (h : Editing key) : key ≠ .enter := fun henter => by
  rw [henter] at h
  exact h

theorem Editing.plain {key : Key UInt8} (h : Editing key) (c : UInt8) (hc : key = .char c) :
    Plain c := by
  rw [hc] at h
  exact h

/-- The buffers hold the line and the history of the editor. -/
structure Tracks (k : Keyboard σ) (e : LineEditor UInt8) : Prop extends HoldsLine k e.line where
  fits : e.Fits 255
  plain : e.Only Plain
  lastLen_eq : k.lastCommandLen = e.history.length
  lastCells : e.history <+: List.ofFn k.lastCommand
  executed_eq : k.executed.map CString.chars = e.submitted

/-- Only the line has been edited, and `echo` put out. -/
structure Edited (k : Keyboard σ) (echo : Text) (k' : Keyboard σ) : Prop where
  screen_eq : k'.shell.screen = printChars echo k.shell.screen
  lastCommand_eq : k'.lastCommand = k.lastCommand
  lastLen_eq : k'.lastCommandLen = k.lastCommandLen
  executed_eq : k'.executed = k.executed
  modifiers_eq : k'.modifiers = k.modifiers

theorem Edited.refl (k : Keyboard σ) : Edited k [] k := ⟨rfl, rfl, rfl, rfl, rfl⟩

theorem Edited.trans {k k' k'' : Keyboard σ} {echo echo' : Text} (h : Edited k echo k')
    (h' : Edited k' echo' k'') : Edited k (echo ++ echo') k'' where
  screen_eq := by rw [h'.screen_eq, h.screen_eq, printChars, printChars, printChars,
    List.foldl_append]
  lastCommand_eq := h'.lastCommand_eq.trans h.lastCommand_eq
  lastLen_eq := h'.lastLen_eq.trans h.lastLen_eq
  executed_eq := h'.executed_eq.trans h.executed_eq
  modifiers_eq := h'.modifiers_eq.trans h.modifiers_eq

theorem Edited.of_index {k k' : Keyboard σ} {i : Int} {echo : Text}
    (h : Edited { k with bufferIndex := i } echo k') : Edited k echo k' :=
  ⟨h.1, h.2, h.3, h.4, h.5⟩

theorem Tracks.noNul {k : Keyboard σ} {e : LineEditor UInt8} (h : Tracks k e) :
    (0 : UInt8) ∉ e.line := fun hmem => (h.plain.line 0 hmem).1 rfl

theorem osCommands_fit : ∀ c ∈ osCommands, c.length ≤ 255 ∧ ∀ a ∈ c, Plain a := by
  decide +kernel

/-- The history is as it was, so only the new line has to be in the buffer. -/
theorem Tracks.edited {k k' : Keyboard σ} {e : LineEditor UInt8} {key : Key UInt8} {echo : Text}
    (h : Tracks k e) (hed : Edited k echo k')
    (hline : HoldsLine k' (LineEditor.press 255 osCommands e key).line) (hkey : Editing key) :
    Tracks k' (LineEditor.press 255 osCommands e key) := by
  have hsubmitted : (LineEditor.press 255 osCommands e key).submitted = e.submitted :=
    LineEditor.submitted_press hkey.ne_enter
  have hhistory : (LineEditor.press 255 osCommands e key).history = e.history := by
    rw [LineEditor.history, hsubmitted]
    rfl
  refine ⟨hline, h.fits.press (fun c hc => (osCommands_fit c hc).1) key,
    h.plain.press (fun c hc => (osCommands_fit c hc).2) hkey.plain, ?_, ?_, ?_⟩
  · rw [hhistory]
    exact hed.lastLen_eq.trans h.lastLen_eq
  · rw [hhistory, hed.lastCommand_eq]
    exact h.lastCells
  · rw [hsubmitted, hed.executed_eq]
    exact h.executed_eq

/-- The cell has been set, and nothing put out. -/
structure CellSet (k : Keyboard σ) (i : Nat) (c : UInt8) (k' : Keyboard σ) : Prop where
  cells_eq : List.ofFn k'.shell.keyBuffer = (List.ofFn k.shell.keyBuffer).set i c
  index_eq : k'.bufferIndex = k.bufferIndex
  edited : Edited k [] k'

theorem setKey_ok (k : Keyboard σ) {i : Nat} (hi : i < 256) (c : UInt8) :
    ∃ k', k.setKey i c = .ok k' ∧ CellSet k i c k' := by
  have hrange : (0 : Int) ≤ i ∧ (i : Int).toNat < 256 := ⟨Int.natCast_nonneg i, hi⟩
  refine ⟨_, dif_pos hrange, ?_, rfl, ⟨rfl, rfl, rfl, rfl, rfl⟩⟩
  exact ofFn_update k.shell.keyBuffer ⟨i, hi⟩ c

/-- A cell from the end of the line on does not matter. -/
theorem CellSet.holdsLine {k k' : Keyboard σ} {i : Nat} {c : UInt8} {line : Text}
    (hcell : CellSet k i c k') (hcells : line <+: List.ofFn k.shell.keyBuffer)
    (hle : line.length ≤ i) (hindex : k.bufferIndex = line.length) : HoldsLine k' line where
  index_eq := hcell.index_eq.trans hindex
  cells := by
    rw [hcell.cells_eq]
    exact prefix_set_of_le hcells hle c

theorem edited_printChar (k : Keyboard σ) (c : UInt8) : Edited k [c] (k.printChar c) :=
  ⟨rfl, rfl, rfl, rfl, rfl⟩

theorem appendKey_ok {k : Keyboard σ} {line : Text} (h : HoldsLine k line)
    (hlt : line.length < 256) (c : UInt8) :
    ∃ k', k.appendKey c = .ok k' ∧ Edited k [c] k' ∧ HoldsLine k' (line ++ [c]) := by
  obtain ⟨k1, hset, hcell⟩ := setKey_ok k hlt c
  rw [Keyboard.appendKey, h.index_eq, hset]
  have hed := hcell.edited
  refine ⟨_, rfl, ⟨?_, hed.lastCommand_eq, hed.lastLen_eq, hed.executed_eq, hed.modifiers_eq⟩,
    ?_, ?_⟩
  · show printChar c k1.shell.screen = printChar c k.shell.screen
    exact congrArg (printChar c) hed.screen_eq
  · show k1.bufferIndex + 1 = _
    rw [hcell.index_eq, h.index_eq, List.length_append]
    rfl
  · show _ <+: List.ofFn k1.shell.keyBuffer
    rw [hcell.cells_eq]
    exact append_prefix_set h.cells (by rw [List.length_ofFn]; exact hlt) c

/-! ## Keys -/

/-- What the handler puts out for a key other than Enter. -/
def echo (e : LineEditor UInt8) : Key UInt8 → Text
  | .char c => if e.line.length < 255 then [c] else []
  | .backspace => if e.line = [] then [] else [0x08]
  | .tab => (LineEditor.completed osCommands e.line).drop e.line.length
  | .up => if e.history = [] then [] else List.replicate e.line.length 0x08 ++ e.history
  | .enter => []

/-- The outcome of a key other than Enter. -/
def Presses (k : Keyboard σ) (e : LineEditor UInt8) (key : Key UInt8)
    (result : Except Fault (Keyboard σ)) : Prop :=
  ∃ k', result = .ok k' ∧ Edited k (echo e key) k' ∧
    HoldsLine k' (LineEditor.press 255 osCommands e key).line

theorem presses_char {k : Keyboard σ} {e : LineEditor UInt8} (h : Tracks k e)
    (args : Nat → Int32) (handler : Text → Handler σ) {c : UInt8} (hc : Plain c) :
    Presses k e (.char c) (typeChar args handler c k) := by
  obtain ⟨hnul, hnl, hbs⟩ := hc
  rw [typeChar, if_neg hnl, if_neg hbs, if_pos hnul, h.index_eq, Presses, echo, LineEditor.press]
  by_cases hlt : e.line.length < 255
  · rw [if_pos (by omega), if_pos hlt, if_pos hlt]
    exact appendKey_ok h.toHoldsLine (by omega) c
  · rw [if_neg (by omega), if_neg hlt, if_neg hlt]
    exact ⟨k, rfl, .refl k, h.toHoldsLine⟩

theorem presses_backspace {k : Keyboard σ} {e : LineEditor UInt8} (h : Tracks k e)
    (args : Nat → Int32) (handler : Text → Handler σ) :
    Presses k e .backspace (typeChar args handler 0x08 k) := by
  rw [typeChar, if_neg (by decide), if_pos rfl, h.index_eq, Presses, echo, LineEditor.press]
  have hle := h.fits.line_le
  by_cases hnil : e.line = []
  · have hdrop : e.line.dropLast = e.line := by
      rw [hnil]
      rfl
    rw [if_neg (by simp [hnil]), if_pos hnil]
    simp only [hdrop]
    exact ⟨k, rfl, .refl k, h.toHoldsLine⟩
  · have hpos := List.length_pos_iff.mpr hnil
    have hcast : (e.line.length : Int) - 1 = ((e.line.length - 1 : Nat) : Int) := by omega
    rw [if_pos (by omega), if_neg hnil, hcast]
    obtain ⟨k1, hset, hcell⟩ := setKey_ok
      { k with bufferIndex := ((e.line.length - 1 : Nat) : Int) }
      (i := e.line.length - 1) (by omega) 0
    rw [hset]
    have hline : HoldsLine k1 e.line.dropLast := hcell.holdsLine
      ((List.dropLast_prefix e.line).trans h.cells) (by rw [List.length_dropLast])
      (by rw [List.length_dropLast])
    exact ⟨_, rfl, hcell.edited.of_index.trans (edited_printChar k1 0x08), hline.index_eq,
      hline.cells⟩

/-! ## TAB -/

/-- The rounds of the loop add the letters of the command that the line lacks. -/
theorem completeLetters_ok {command : Text} (hcommand : command.length ≤ 255) {n : Nat}
    (hn : n ≤ command.length) {k : Keyboard σ} (h : HoldsLine k (command.take n)) :
    ∃ k', loopBelow (command.length - k.bufferIndex) (fun _ => completeLetter command) k =
        .ok k' ∧
      Edited k (command.drop n) k' ∧ HoldsLine k' command := by
  have hrounds : ((command.length : Int) - k.bufferIndex).toNat = command.length - n := by
    rw [h.index_eq, List.length_take]
    omega
  have hround : ∀ j k1, j < command.length - n →
      (Edited k ((command.drop n).take j) k1 ∧ HoldsLine k1 (command.take (n + j))) →
      ∃ k2, completeLetter command k1 = .ok k2 ∧
        (Edited k ((command.drop n).take (j + 1)) k2 ∧
          HoldsLine k2 (command.take (n + (j + 1)))) := by
    intro j k1 hj hk1
    obtain ⟨hed, hline⟩ := hk1
    have hlt : n + j < command.length := by omega
    have hindex : k1.bufferIndex.toNat = n + j := by
      rw [hline.index_eq, List.length_take]
      omega
    have hletter : (command ++ [0])[n + j]? = some command[n + j] := by
      rw [List.getElem?_append_left hlt, List.getElem?_eq_getElem hlt]
    obtain ⟨k2, hk2, hed2, hline2⟩ := appendKey_ok hline
      (by rw [List.length_take]; omega) command[n + j]
    refine ⟨k2, ?_, ?_, ?_⟩
    · simp only [completeLetter, hindex, hletter]
      exact hk2
    · have htake : (command.drop n).take (j + 1) =
          (command.drop n).take j ++ [command[n + j]] := by
        rw [List.take_add_one, List.getElem?_drop, List.getElem?_eq_getElem hlt]
        rfl
      rw [htake]
      exact hed.trans hed2
    · rw [← Nat.add_assoc, List.take_succ_eq_append_getElem hlt]
      exact hline2
  obtain ⟨k', hk', hed, hline⟩ := foldlM_range_invariant (n := command.length - n) (s := k) hround
    ⟨by rw [List.take_zero]; exact .refl k, by rw [Nat.add_zero]; exact h⟩
  refine ⟨k', ?_, ?_, ?_⟩
  · rw [loopBelow, hrounds]
    exact hk'
  · rwa [List.take_of_length_le (by rw [List.length_drop])] at hed
  · rwa [List.take_of_length_le (by omega)] at hline

theorem presses_tab {k : Keyboard σ} {e : LineEditor UInt8} (h : Tracks k e) :
    Presses k e .tab (autocompleteTab k) := by
  rw [autocompleteTab, h.index_eq, Presses, echo, LineEditor.press, LineEditor.completed]
  have hle := h.fits.line_le
  by_cases hnil : e.line = []
  · rw [if_pos (by simp [hnil]), if_pos hnil, List.drop_length]
    exact ⟨k, rfl, .refl k, h.toHoldsLine⟩
  · have hpos := List.length_pos_iff.mpr hnil
    rw [if_neg (by omega), if_neg hnil]
    obtain ⟨k1, hset, hcell⟩ := setKey_ok k (i := e.line.length) (by omega) 0
    have hline := hcell.holdsLine h.cells (Nat.le_refl _) h.index_eq
    have hfirst := firstCompletion_eq hline.cells h.noNul osCommands
    have hindex : k1.bufferIndex.toNat = e.line.length := by
      rw [hline.index_eq]
      rfl
    simp only [hset, hindex, hfirst]
    cases hfind : osCommands.find? fun c => decide (e.line <+: c) with
    | none =>
        simp only [Option.getD_none, List.drop_length]
        exact ⟨k1, rfl, hcell.edited, hline⟩
    | some command =>
        have hfit := (osCommands_fit command (List.mem_of_find?_eq_some hfind)).1
        have hpre : e.line <+: command := of_decide_eq_true
          (List.find?_some (p := fun c => decide (e.line <+: c)) hfind)
        have htake : command.take e.line.length = e.line := (List.prefix_iff_eq_take.mp hpre).symm
        obtain ⟨k2, hk2, hed2, hline2⟩ := completeLetters_ok hfit hpre.length_le
          (htake.symm ▸ hline)
        exact ⟨k2, hk2, hcell.edited.trans hed2, hline2⟩

/-! ## Up -/

theorem getAt_of_prefix {buffer : Buffer 256} {xs : Text} (h : xs <+: List.ofFn buffer) {i : Nat}
    (hi : i < xs.length) : Keyboard.getAt buffer i = .ok xs[i] := by
  have hlen := h.length_le
  rw [List.length_ofFn] at hlen
  have hrange : (0 : Int) ≤ i ∧ (i : Int).toNat < 256 := ⟨Int.natCast_nonneg i, by
    rw [Int.toNat_natCast]
    omega⟩
  have hcell : buffer ⟨i, hrange.2⟩ = xs[i] := by
    have hget := h.getElem hi
    rw [List.getElem_ofFn] at hget
    exact hget.symm
  rw [Keyboard.getAt, dif_pos hrange]
  exact congrArg Except.ok hcell

/-- Erasing only moves the index and puts out a backspace a character. -/
theorem eraseLine_spec : ∀ (n : Nat) (k : Keyboard σ),
    Edited k (List.replicate n 0x08) (eraseLine n k) ∧
      (eraseLine n k).shell.keyBuffer = k.shell.keyBuffer
  | 0, k => ⟨.refl k, rfl⟩
  | n + 1, k => by
      obtain ⟨hed, hbuffer⟩ :=
        eraseLine_spec n { k.printChar 0x08 with bufferIndex := k.bufferIndex - 1 }
      refine ⟨?_, hbuffer⟩
      have hone : Edited k [0x08] { k.printChar 0x08 with bufferIndex := k.bufferIndex - 1 } :=
        ⟨rfl, rfl, rfl, rfl, rfl⟩
      rw [List.replicate_succ]
      exact hone.trans hed

/-- The rounds of the loop bring the letters of the last line back. -/
theorem recallLetters_ok {last : Text} (hfits : last.length ≤ 255) {k : Keyboard σ}
    (hlast : last <+: List.ofFn k.lastCommand) :
    ∃ k', loopBelow last.length recallLetter k = .ok k' ∧
      Edited k last k' ∧ last <+: List.ofFn k'.shell.keyBuffer := by
  have hround : ∀ j k1, j < last.length →
      (Edited k (last.take j) k1 ∧ last.take j <+: List.ofFn k1.shell.keyBuffer) →
      ∃ k2, recallLetter j k1 = .ok k2 ∧
        (Edited k (last.take (j + 1)) k2 ∧ last.take (j + 1) <+: List.ofFn k2.shell.keyBuffer) := by
    intro j k1 hj hk1
    obtain ⟨hed, hcells⟩ := hk1
    have hget : Keyboard.getAt k1.lastCommand j = .ok last[j] :=
      getAt_of_prefix (by rw [hed.lastCommand_eq]; exact hlast) hj
    obtain ⟨k2, hset, hcell⟩ := setKey_ok k1 (i := j) (by omega) last[j]
    refine ⟨k2.printChar last[j], ?_, ?_, ?_⟩
    · rw [recallLetter, hget]
      simp only [hset]
    · rw [List.take_succ_eq_append_getElem hj]
      exact hed.trans (hcell.edited.trans (edited_printChar k2 last[j]))
    · show _ <+: List.ofFn k2.shell.keyBuffer
      rw [hcell.cells_eq]
      exact take_succ_prefix_set hj hcells (by rw [List.length_ofFn]; omega)
  obtain ⟨k', hk', hed, hcells⟩ := foldlM_range_invariant (n := last.length) (s := k) hround
    ⟨by rw [List.take_zero]; exact .refl k, by rw [List.take_zero]; exact List.nil_prefix⟩
  rw [List.take_length] at hed hcells
  exact ⟨k', hk', hed, hcells⟩

theorem presses_up {k : Keyboard σ} {e : LineEditor UInt8} (h : Tracks k e)
    (hne : e.history ≠ []) : Presses k e .up (recallCommand k) := by
  rw [recallCommand, h.index_eq, h.lastLen_eq, Presses, echo, LineEditor.press, if_neg hne,
    if_neg hne, Int.toNat_natCast]
  obtain ⟨hed1, -⟩ := eraseLine_spec e.line.length k
  have hlast1 : e.history <+: List.ofFn (eraseLine e.line.length k).lastCommand := by
    rw [hed1.lastCommand_eq]
    exact h.lastCells
  have hfits := h.fits.history_le
  obtain ⟨k2, hk2, hed2, hcells2⟩ := recallLetters_ok hfits hlast1
  have hlen2 : k2.lastCommandLen = e.history.length :=
    hed2.lastLen_eq.trans (hed1.lastLen_eq.trans h.lastLen_eq)
  obtain ⟨k3, hset, hcell⟩ := setKey_ok { k2 with bufferIndex := (e.history.length : Int) }
    (i := e.history.length) (by omega) 0
  have hed := (hed1.trans hed2).trans hcell.edited.of_index
  rw [List.append_nil] at hed
  rw [← hlen2] at hset
  simp only [hk2]
  exact ⟨k3, hset, hed, hcell.holdsLine hcells2 (Nat.le_refl _) rfl⟩

/-! ## Enter -/

/-- Keeping a line copies it with its terminator; the line stays. -/
structure Kept (k : Keyboard σ) (line : Text) (k' : Keyboard σ) : Prop where
  shell_eq : k'.shell = k.shell
  index_eq : k'.bufferIndex = k.bufferIndex
  executed_eq : k'.executed = k.executed
  modifiers_eq : k'.modifiers = k.modifiers
  lastLen_eq : k'.lastCommandLen = if line = [] then k.lastCommandLen else line.length
  lastCells : line ≠ [] → line <+: List.ofFn k'.lastCommand
  lastCommand_eq : line = [] → k'.lastCommand = k.lastCommand

theorem setLast_ok (k : Keyboard σ) {i : Nat} (hi : i < 256) (c : UInt8) :
    k.setLast i c = .ok { k with lastCommand := Function.update k.lastCommand ⟨i, hi⟩ c } := by
  have hrange : (0 : Int) ≤ i ∧ (i : Int).toNat < 256 := ⟨Int.natCast_nonneg i, hi⟩
  exact dif_pos hrange

/-- The rounds of the loop copy the cells of the line into `last_command`. -/
theorem keepLetters_ok {cells : Text} (hfits : cells.length ≤ 256) {k : Keyboard σ}
    (hcells : cells <+: List.ofFn k.shell.keyBuffer) :
    ∃ last, loopBelow cells.length keepLetter k = .ok { k with lastCommand := last } ∧
      cells <+: List.ofFn last := by
  have hround : ∀ j k1, j < cells.length →
      (∃ last, k1 = { k with lastCommand := last } ∧ cells.take j <+: List.ofFn last) →
      ∃ k2, keepLetter j k1 = .ok k2 ∧
        ∃ last, k2 = { k with lastCommand := last } ∧ cells.take (j + 1) <+: List.ofFn last := by
    rintro j k1 hj ⟨last, rfl, hlast⟩
    have hj256 : j < 256 := by omega
    have hget := getAt_of_prefix hcells hj
    refine ⟨_, ?_, Function.update last ⟨j, hj256⟩ cells[j], rfl, ?_⟩
    · rw [keepLetter, hget]
      exact setLast_ok { k with lastCommand := last } hj256 cells[j]
    · rw [ofFn_update]
      exact take_succ_prefix_set hj hlast (by rw [List.length_ofFn]; exact hj256)
  obtain ⟨k', hk', last, rfl, hlast⟩ := foldlM_range_invariant (n := cells.length) (s := k) hround
    ⟨k.lastCommand, rfl, List.nil_prefix⟩
  rw [List.take_length] at hlast
  exact ⟨last, hk', hlast⟩

theorem keepCommand_ok {line : Text} (hle : line.length ≤ 255) {k : Keyboard σ}
    (hindex : k.bufferIndex = line.length)
    (hcells : line ++ [0] <+: List.ofFn k.shell.keyBuffer) :
    ∃ k', keepCommand k = .ok k' ∧ Kept k line k' := by
  rw [keepCommand, hindex]
  by_cases hnil : line = []
  · rw [if_neg (by simp [hnil])]
    exact ⟨k, rfl, rfl, rfl, rfl, rfl, (if_pos hnil).symm, fun hne => absurd hnil hne,
      fun _ => rfl⟩
  · have hpos := List.length_pos_iff.mpr hnil
    have hlen : (line ++ [(0 : UInt8)]).length ≤ 256 := by
      rw [List.length_append]
      exact Nat.succ_le_succ hle
    obtain ⟨last, hlast, hpre⟩ := keepLetters_ok hlen hcells
    rw [List.length_append] at hlast
    rw [if_pos (by omega)]
    have hcast : (line.length : Int) + 1 = ((line.length + [(0 : UInt8)].length : Nat) : Int) :=
      rfl
    rw [hcast, hlast]
    exact ⟨_, rfl, rfl, rfl, rfl, rfl, hindex.trans (if_neg hnil).symm,
      fun _ => (List.prefix_append line [0]).trans hpre, fun h0 => absurd h0 hnil⟩

theorem tokenEnd_isSome {line : Text} {n : Nat} {buffer : Buffer n}
    (h : line ++ [0] <+: List.ofFn buffer) (delim : UInt8) :
    (tokenEnd delim buffer 0).isSome = true := by
  have hlt : line.length < n := by
    have hlen := h.length_le
    rw [List.length_append, List.length_ofFn] at hlen
    exact hlen
  have hzero : buffer ⟨line.length, hlt⟩ = 0 := by
    have hget := h.getElem (i := line.length) (by rw [List.length_append]; exact Nat.lt_succ_self _)
    rw [List.getElem_ofFn, List.getElem_append_right (Nat.le_refl _)] at hget
    rw [← hget]
    simp
  rw [tokenEnd, List.find?_isSome]
  exact ⟨⟨line.length, hlt⟩, List.mem_finRange _,
    decide_eq_true ⟨Nat.zero_le _, Or.inl hzero⟩⟩

/-- A terminated line is taken apart, so running it returns if its handler does. -/
theorem executeCommand_ok (args : Nat → Int32) {handler : Text → Handler σ}
    (hreturns : ∀ name s, ∃ s', handler name s = .ok s') {line : Text} {s : Shell σ}
    (h : line ++ [0] <+: List.ofFn s.keyBuffer) : ∃ s', executeCommand args handler s = .ok s' := by
  rw [executeCommand]
  by_cases hfirst : s.keyBuffer ⟨0, by decide⟩ = 0
  · exact ⟨s, if_pos hfirst⟩
  · rw [if_neg hfirst]
    obtain ⟨i, hi⟩ := Option.isSome_iff_exists.mp (tokenEnd_isSome h 0x20)
    have htoken : ∃ s1, s.token (some 0) 0x20 = .ok (some 0, s1) := by
      rw [Shell.token, strtok, Option.some_or]
      simp only [hi]
      by_cases hend : s.keyBuffer i = 0
      · have hne : i.val ≠ 0 := fun h0 => hfirst (by
          rw [← hend]
          exact congrArg s.keyBuffer (Fin.ext h0.symm))
        rw [if_pos hend, if_neg hne]
        exact ⟨_, rfl⟩
      · rw [if_neg hend]
        exact ⟨_, rfl⟩
    obtain ⟨s1, hs1⟩ := htoken
    rw [hs1]
    cases hfind : commands.find? (isCommand (stringFrom s1.keyBuffer 0)) with
    | none =>
        simp only [hfind]
        exact ⟨_, rfl⟩
    | some name =>
        simp only [hfind]
        exact hreturns name s1

/-- The line is executed, and if that does not fail the line is emptied. -/
theorem tracks_pressEnter (args : Nat → Int32) (handler : Text → Handler σ) {k : Keyboard σ}
    {e : LineEditor UInt8} (h : Tracks k e) :
    (∃ k', pressEnter args handler k = .ok k' ∧
      Tracks k' (LineEditor.press 255 osCommands e .enter) ∧ k'.modifiers = k.modifiers) ∨
    ∃ s fault, e.line ++ [0] <+: List.ofFn s.keyBuffer ∧
      executeCommand args handler s = .error fault ∧ pressEnter args handler k = .error fault := by
  have hle := h.fits.line_le
  obtain ⟨k1, hset, hcell⟩ := setKey_ok (k.printChar 0x0A) (i := e.line.length) (by omega) 0
  have hed1 : Edited k [0x0A] k1 := (edited_printChar k 0x0A).trans hcell.edited
  have hcells1 : e.line ++ [0] <+: List.ofFn k1.shell.keyBuffer := by
    rw [hcell.cells_eq]
    exact append_prefix_set h.cells (by rw [List.length_ofFn]; omega) 0
  obtain ⟨k2, hkeep, hk2⟩ := keepCommand_ok hle (hcell.index_eq.trans h.index_eq) hcells1
  rw [← hk2.shell_eq] at hcells1
  have hstring : (stringAt (List.ofFn k2.shell.keyBuffer)).chars = e.line :=
    stringAt_of_prefix hcells1 h.noNul
  rw [pressEnter, h.index_eq, hset]
  cases hexec : executeCommand args handler k2.shell with
  | error fault =>
      refine Or.inr ⟨k2.shell, fault, hcells1, hexec, ?_⟩
      simp only [hkeep, hexec]
  | ok shell =>
      have hpos : 0 < 256 := by decide
      obtain ⟨k3, hset3, hcell3⟩ := setKey_ok { k2 with
        shell := shell
        executed := k2.executed ++ [stringAt (List.ofFn k2.shell.keyBuffer)] } hpos 0
      rw [Int.natCast_zero] at hset3
      simp only [hkeep, hexec, hset3]
      have hed3 := hcell3.edited
      have hhistory : (LineEditor.press 255 osCommands e .enter).history =
          if e.line = [] then e.history else e.line := LineEditor.history_submit e e.line
      refine Or.inl ⟨_, rfl, ⟨⟨rfl, List.nil_prefix⟩,
        h.fits.press (fun c hc => (osCommands_fit c hc).1) .enter,
        h.plain.press (fun c hc => (osCommands_fit c hc).2) nofun, ?_, ?_, ?_⟩, ?_⟩
      · show k3.lastCommandLen = _
        rw [hed3.lastLen_eq, hhistory]
        show k2.lastCommandLen = _
        rw [hk2.lastLen_eq, hed1.lastLen_eq, h.lastLen_eq]
        split <;> rfl
      · show _ <+: List.ofFn k3.lastCommand
        rw [hed3.lastCommand_eq, hhistory]
        show _ <+: List.ofFn k2.lastCommand
        split
        · next hnil =>
            rw [hk2.lastCommand_eq hnil, hed1.lastCommand_eq]
            exact h.lastCells
        · next hne => exact hk2.lastCells hne
      · show k3.executed.map CString.chars = e.submitted ++ [e.line]
        rw [hed3.executed_eq]
        show (k2.executed ++ _).map CString.chars = _
        rw [List.map_append, hk2.executed_eq, hed1.executed_eq, h.executed_eq,
          List.map_singleton, hstring]
      · have hmods := hed3.modifiers_eq.trans (hk2.modifiers_eq.trans hed1.modifiers_eq)
        unfold Keyboard.modifiers at hmods ⊢
        exact hmods

/-! ## Scancodes -/

/-- The key of a table character. -/
def keyOfChar (c : UInt8) : Option (Key UInt8) :=
  if c = 0x0A then some .enter
  else if c = 0x08 then some .backspace
  else if c = 0 then none
  else some (.char c)

/-- The key that a scancode stands for, if it is not a modifier or unknown. -/
def keyOf (m : Modifiers) (scancode : UInt8) : Option (Key UInt8) :=
  if scancode = 0x0F then some .tab
  else if scancode = 0x48 then some .up
  else if scancode ∈ [0x2A, 0x36, 0x3A] then none
  else if scancode ≤ 57 then keyOfChar (finalChar m.shift m.caps scancode)
  else none

/-- The keys that a sequence of scancodes stands for. -/
def keysOf : Modifiers → List UInt8 → List (Key UInt8)
  | _, [] => []
  | m, scancode :: scancodes => (keyOf m scancode).toList ++ keysOf (m.after scancode) scancodes

/-- What the handler makes of a scancode, up to what a command does to the screen. -/
structure Handles (k : Keyboard σ) (e : LineEditor UInt8) (scancode : UInt8)
    (k' : Keyboard σ) : Prop where
  tracks : Tracks k' (LineEditor.pressAll 255 osCommands e (keyOf k.modifiers scancode).toList)
  modifiers_eq : k'.modifiers = k.modifiers.after scancode
  screen_eq : keyOf k.modifiers scancode ≠ some .enter →
    k'.shell.screen =
      printChars ((keyOf k.modifiers scancode).elim [] (echo e)) k.shell.screen

/-- Neither buffer depends on the flags and the ports. -/
theorem Tracks.of_flags {k : Keyboard σ} {e : LineEditor UInt8} (h : Tracks k e)
    (shift caps : Bool) (ports : List (UInt16 × UInt8)) :
    Tracks { k with shiftPressed := shift, capsLocks := caps, ports := ports } e :=
  ⟨⟨h.index_eq, h.cells⟩, h.fits, h.plain, h.lastLen_eq, h.lastCells, h.executed_eq⟩

/-- The handler does what the scancode's key does, unless that is Enter and the command
fails. -/
def Outcome (args : Nat → Int32) (handler : Text → Handler σ) (k : Keyboard σ)
    (e : LineEditor UInt8) (scancode : UInt8) (result : Except Fault (Keyboard σ)) : Prop :=
  (∃ k', result = .ok k' ∧ Handles k e scancode k') ∨
    keyOf k.modifiers scancode = some .enter ∧
      ∃ s fault, e.line ++ [0] <+: List.ofFn s.keyBuffer ∧
        executeCommand args handler s = .error fault ∧ result = .error fault

/-- A key other than Enter and the end of the interrupt. -/
theorem Presses.outcome {args : Nat → Int32} {handler : Text → Handler σ} {k : Keyboard σ}
    {e : LineEditor UInt8} {key : Key UInt8} {result : Except Fault (Keyboard σ)}
    {scancode : UInt8} (hpress : Presses k e key result) (h : Tracks k e)
    (hkey : keyOf k.modifiers scancode = some key) (hediting : Editing key)
    (hmods : k.modifiers.after scancode = k.modifiers) :
    Outcome args handler k e scancode (result.map Keyboard.endOfInterrupt) := by
  obtain ⟨k1, rfl, hed, hline⟩ := hpress
  refine Or.inl ⟨_, rfl, ?_, ?_, fun _ => ?_⟩
  · rw [hkey]
    exact (h.edited hed hline hediting).of_flags _ _ _
  · rw [hmods]
    exact hed.modifiers_eq
  · rw [hkey]
    exact hed.screen_eq

/-- A scancode that stands for no key. -/
theorem handles_none {k : Keyboard σ} {e : LineEditor UInt8} {scancode : UInt8}
    (h : Tracks k e) (hkey : keyOf k.modifiers scancode = none) {m : Modifiers}
    (hmods : k.modifiers.after scancode = m) :
    Handles k e scancode
      { k with shiftPressed := m.shift, capsLocks := m.caps }.endOfInterrupt := by
  refine ⟨?_, hmods.symm, fun _ => ?_⟩
  · rw [hkey]
    exact h.of_flags _ _ _
  · rw [hkey]
    rfl

/-- A scancode of the character tables. -/
theorem outcome_typeChar (args : Nat → Int32) (handler : Text → Handler σ) {k : Keyboard σ}
    {e : LineEditor UInt8} {scancode : UInt8} (h : Tracks k e)
    (hkey : keyOf k.modifiers scancode =
      keyOfChar (finalChar k.shiftPressed k.capsLocks scancode))
    (hmods : k.modifiers.after scancode = k.modifiers) :
    Outcome args handler k e scancode
      ((typeChar args handler (finalChar k.shiftPressed k.capsLocks scancode) k).map
        Keyboard.endOfInterrupt) := by
  generalize finalChar k.shiftPressed k.capsLocks scancode = c at hkey
  rw [keyOfChar] at hkey
  by_cases hnl : c = 0x0A
  · rw [if_pos hnl] at hkey
    rw [typeChar, if_pos hnl]
    rcases tracks_pressEnter args handler h with ⟨k1, hk1, htracks, hmods1⟩ | hfail
    · rw [hk1]
      refine Or.inl ⟨_, rfl, ?_, hmods1.trans hmods.symm, fun hne => absurd hkey hne⟩
      rw [hkey]
      exact htracks.of_flags _ _ _
    · obtain ⟨s, fault, hcells, hexec, hfault⟩ := hfail
      rw [hfault]
      exact Or.inr ⟨hkey, s, fault, hcells, hexec, rfl⟩
  rw [if_neg hnl] at hkey
  by_cases hbs : c = 0x08
  · rw [if_pos hbs] at hkey
    rw [hbs]
    exact (presses_backspace h args handler).outcome h hkey trivial hmods
  rw [if_neg hbs] at hkey
  by_cases hnul : c = 0
  · rw [if_pos hnul] at hkey
    rw [typeChar, if_neg hnl, if_neg hbs, if_neg (not_not.mpr hnul)]
    exact Or.inl ⟨_, rfl, handles_none h hkey hmods⟩
  · rw [if_neg hnul] at hkey
    have hplain : Plain c := ⟨hnul, hnl, hbs⟩
    exact (presses_char h args handler hplain).outcome h hkey hplain hmods

/-- **Step lemma.** A scancode does to the buffers what its key does to the line. -/
theorem outcome_keyboardHandler (args : Nat → Int32) (handler : Text → Handler σ)
    {k : Keyboard σ} {e : LineEditor UInt8} (h : Tracks k e) (scancode : UInt8) :
    Outcome args handler k e scancode (keyboardHandler args handler scancode k) := by
  unfold keyboardHandler
  by_cases htab : scancode = 0x0F
  · subst htab
    rw [if_pos rfl]
    exact (presses_tab h).outcome h rfl trivial rfl
  rw [if_neg htab]
  by_cases hup : scancode = 0x48
  · subst hup
    by_cases hne : e.history = []
    · have hlen : ¬ 0 < k.lastCommandLen := by
        rw [h.lastLen_eq, hne]
        decide
      rw [if_neg fun hand => hlen hand.2]
      refine Or.inl ⟨_, rfl, ?_, rfl, fun _ => ?_⟩
      · show Tracks _ (LineEditor.press 255 osCommands e .up)
        rw [LineEditor.press, if_pos hne]
        exact h.of_flags _ _ _
      · show k.shell.screen = printChars (echo e .up) k.shell.screen
        rw [echo, if_pos hne]
        rfl
    · have hlen : 0 < k.lastCommandLen := by
        rw [h.lastLen_eq]
        exact Int.natCast_pos.mpr (List.length_pos_iff.mpr hne)
      rw [if_pos ⟨rfl, hlen⟩]
      exact (presses_up h hne).outcome h rfl trivial rfl
  rw [if_neg fun hand => hup hand.1]
  by_cases hpress : scancode = 0x2A ∨ scancode = 0x36
  · rw [if_pos hpress]
    refine Or.inl ⟨_, rfl, ?_⟩
    rcases hpress with rfl | rfl
    · exact handles_none (m := ⟨true, k.capsLocks⟩) h rfl rfl
    · exact handles_none (m := ⟨true, k.capsLocks⟩) h rfl rfl
  rw [if_neg hpress]
  by_cases hrelease : scancode = 0xAA ∨ scancode = 0xB6
  · rw [if_pos hrelease]
    refine Or.inl ⟨_, rfl, ?_⟩
    rcases hrelease with rfl | rfl
    · exact handles_none (m := ⟨false, k.capsLocks⟩) h rfl rfl
    · exact handles_none (m := ⟨false, k.capsLocks⟩) h rfl rfl
  rw [if_neg hrelease]
  by_cases hcaps : scancode = 0x3A
  · subst hcaps
    rw [if_pos rfl]
    exact Or.inl ⟨_, rfl, handles_none (m := ⟨k.shiftPressed, !k.capsLocks⟩) h rfl rfl⟩
  rw [if_neg hcaps]
  have hmods : k.modifiers.after scancode = k.modifiers := by
    rw [Modifiers.after, if_neg hpress, if_neg hrelease, if_neg hcaps]
  have hmem : scancode ∉ [(0x2A : UInt8), 0x36, 0x3A] := by
    simp only [List.mem_cons, List.not_mem_nil, or_false, not_or] at hpress ⊢
    exact ⟨hpress.1, hpress.2, hcaps⟩
  by_cases hle : scancode ≤ 57
  · rw [if_pos hle]
    refine outcome_typeChar args handler h ?_ hmods
    rw [keyOf, if_neg htab, if_neg hup, if_neg hmem, if_pos hle]
    rfl
  · rw [if_neg hle]
    refine Or.inl ⟨_, rfl, handles_none h ?_ hmods⟩
    rw [keyOf, if_neg htab, if_neg hup, if_neg hmem, if_neg hle]

theorem Outcome.handles_of_returns {args : Nat → Int32} {handler : Text → Handler σ}
    {k : Keyboard σ} {e : LineEditor UInt8} {scancode : UInt8}
    {result : Except Fault (Keyboard σ)} (h : Outcome args handler k e scancode result)
    (hreturns : ∀ name s, ∃ s', handler name s = .ok s') :
    ∃ k', result = .ok k' ∧ Handles k e scancode k' := by
  rcases h with hok | ⟨_, s, fault, hcells, hexec, _⟩
  · exact hok
  · obtain ⟨s', hs'⟩ := executeCommand_ok args hreturns hcells
    rw [hexec] at hs'
    cases hs'

/-! ## Runs -/

/-- The keyboard at boot: the variables of the editor are zero. -/
def bootKeyboard (shell : Shell σ) : Keyboard σ where
  shell := shell
  shiftPressed := false
  capsLocks := false
  bufferIndex := 0
  lastCommand := fun _ => 0
  lastCommandLen := 0
  executed := []
  ports := []

/-- The indices are in range, and the buffers and the commands read as the editor's. -/
structure ReadsAs (k : Keyboard σ) (e : LineEditor UInt8) : Prop where
  index_range : 0 ≤ k.bufferIndex ∧ k.bufferIndex ≤ 255
  lastLen_range : 0 ≤ k.lastCommandLen ∧ k.lastCommandLen ≤ 255
  line_eq : (List.ofFn k.shell.keyBuffer).take k.bufferIndex.toNat = e.line
  history_eq : (List.ofFn k.lastCommand).take k.lastCommandLen.toNat = e.history
  executed_eq : k.executed.map CString.chars = e.submitted

theorem Tracks.readsAs {k : Keyboard σ} {e : LineEditor UInt8} (h : Tracks k e) :
    ReadsAs k e where
  index_range := by
    have hle := h.fits.line_le
    rw [h.index_eq]
    omega
  lastLen_range := by
    have hle := h.fits.history_le
    rw [h.lastLen_eq]
    omega
  line_eq := by
    rw [h.index_eq, Int.toNat_natCast]
    exact (List.prefix_iff_eq_take.mp h.cells).symm
  history_eq := by
    rw [h.lastLen_eq, Int.toNat_natCast]
    exact (List.prefix_iff_eq_take.mp h.lastCells).symm
  executed_eq := h.executed_eq

theorem tracks_boot (shell : Shell σ) : Tracks (bootKeyboard shell) .empty where
  index_eq := rfl
  cells := List.nil_prefix
  fits := ⟨Nat.zero_le _, Nat.zero_le _⟩
  plain := ⟨fun _ h => absurd h List.not_mem_nil, fun _ h => absurd h List.not_mem_nil⟩
  lastLen_eq := rfl
  lastCells := List.nil_prefix
  executed_eq := rfl

/-- A step that returns has done what the scancode's key does. -/
theorem Outcome.handles {args : Nat → Int32} {handler : Text → Handler σ} {k k' : Keyboard σ}
    {e : LineEditor UInt8} {scancode : UInt8} {result : Except Fault (Keyboard σ)}
    (h : Outcome args handler k e scancode result) (hok : result = .ok k') :
    Handles k e scancode k' := by
  rcases h with ⟨k1, hk1, hhandles⟩ | ⟨_, _, _, _, _, hfail⟩
  · rw [hk1] at hok
    cases hok
    exact hhandles
  · rw [hfail] at hok
    cases hok

theorem tracks_of_runs {args : Nat → Int32} {handler : Text → Handler σ} :
    ∀ (scancodes : List UInt8) {k k' : Keyboard σ} {e : LineEditor UInt8}, Tracks k e →
      runs (keyboardHandler args handler) scancodes k = .ok k' →
      Tracks k' (LineEditor.pressAll 255 osCommands e (keysOf k.modifiers scancodes))
  | [], _, _, _, h, hrun => by
      cases hrun
      exact h
  | scancode :: scancodes, k, k', e, h, hrun => by
      obtain ⟨k1, hk1, hrest⟩ := runs_cons_eq_ok hrun
      have hhandles := (outcome_keyboardHandler args handler h scancode).handles hk1
      have htracks := tracks_of_runs scancodes hhandles.tracks hrest
      rw [hhandles.modifiers_eq, LineEditor.pressAll, LineEditor.pressAll,
        ← List.foldl_append] at htracks
      exact htracks

theorem runs_ok (args : Nat → Int32) {handler : Text → Handler σ}
    (hreturns : ∀ name s, ∃ s', handler name s = .ok s') (scancodes : List UInt8)
    {k : Keyboard σ} {e : LineEditor UInt8} (h : Tracks k e) :
    ∃ k', runs (keyboardHandler args handler) scancodes k = .ok k' := by
  have hstep : ∀ scancode (k : Keyboard σ), (∃ e, Tracks k e) → True →
      ∃ k', keyboardHandler args handler scancode k = .ok k' ∧ ∃ e, Tracks k' e := by
    rintro scancode k ⟨e, h⟩ -
    obtain ⟨k1, hk1, hhandles⟩ :=
      (outcome_keyboardHandler args handler h scancode).handles_of_returns hreturns
    exact ⟨k1, hk1, _, hhandles.tracks⟩
  obtain ⟨k', hrun, _⟩ := runs_invariant hstep scancodes k ⟨e, h⟩ (guarded_true scancodes k)
  exact ⟨k', hrun⟩

/-- **The keyboard edits a line.** Any sequence of scancodes leaves the buffers as the
line editor that was pressed the keys it stands for, and the lines submitted to it are
the commands that were run. -/
theorem readsAs_runs (args : Nat → Int32) {handler : Text → Handler σ}
    (hreturns : ∀ name s, ∃ s', handler name s = .ok s') (shell : Shell σ)
    (scancodes : List UInt8) :
    ∃ k, runs (keyboardHandler args handler) scancodes (bootKeyboard shell) = .ok k ∧
      ReadsAs k (LineEditor.pressAll 255 osCommands .empty
        (keysOf ⟨false, false⟩ scancodes)) := by
  obtain ⟨k, hrun⟩ := runs_ok args hreturns scancodes (tracks_boot shell)
  exact ⟨k, hrun, (tracks_of_runs scancodes (tracks_boot shell) hrun).readsAs⟩

/-- The letters h and e, TAB, Enter and Up, where every command does nothing. -/
theorem readsAs_runs_help :
    ∃ k, runs (keyboardHandler (fun _ => 0) fun _ => .ok) [0x23, 0x12, 0x0F, 0x1C, 0x48]
        (bootKeyboard ⟨fun _ => 0, none, bootScreen, ()⟩) = .ok k ∧
      ReadsAs k ⟨text "help", [text "help"]⟩ :=
  readsAs_runs (fun _ => 0) (fun _ s => ⟨s, rfl⟩) ⟨fun _ => 0, none, bootScreen, ()⟩
    [0x23, 0x12, 0x0F, 0x1C, 0x48]

end FirstKernel
