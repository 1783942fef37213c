import Mathlib.Data.List.Infix

/-!
# A line editor

What a command line does, apart from any buffer: a line of at most
`capacity` characters that grows and shrinks at its end, is completed to
the first of some commands that it begins, and is replaced by the last
line that was submitted. An empty line is submitted but not remembered.

No key makes the line longer than the capacity as long as the commands
fit in it (`Fits.press`), and the line has no characters but those of
commands and those that were typed (`Only.press`).
-/

namespace FirstKernel

inductive Key (α : Type*) where
  | char (a : α)
  | backspace
  | tab
  | up
  | enter
deriving DecidableEq

structure LineEditor (α : Type*) where
  line : List α
  submitted : List (List α)

namespace LineEditor

variable {α : Type*}

def empty : LineEditor α := ⟨[], []⟩

/-- The last line submitted that was not empty, if there is one. -/
def history (e : LineEditor α) : List α := (e.submitted.findRev? fun l => !l.isEmpty).getD []

/-- What is remembered of a line that is submitted. -/
theorem history_submit (e : LineEditor α) (line : List α) :
    history ⟨[], e.submitted ++ [line]⟩ = if line = [] then e.history else line := by
  unfold history
  cases line with
  | nil => simp
  | cons a line => simp

variable [DecidableEq α]

/-- The first command that the line begins, or the line itself. -/
def completed (commands : List (List α)) (line : List α) : List α :=
  if line = [] then line else (commands.find? fun c => decide (line <+: c)).getD line

def press (capacity : Nat) (commands : List (List α)) (e : LineEditor α) :
    Key α → LineEditor α
  | .char a => if e.line.length < capacity then { e with line := e.line ++ [a] } else e
  | .backspace => { e with line := e.line.dropLast }
  | .tab => { e with line := completed commands e.line }
  | .up => if e.history = [] then e else { e with line := e.history }
  | .enter => { line := [], submitted := e.submitted ++ [e.line] }

/-- Only Enter submits. -/
theorem submitted_press {capacity : Nat} {commands : List (List α)} {e : LineEditor α} {key : Key α}
    (hkey : key ≠ .enter) : (press capacity commands e key).submitted = e.submitted := by
  cases key with
  | char a => rw [press]; split <;> rfl
  | backspace => rfl
  | tab => rfl
  | up => rw [press]; split <;> rfl
  | enter => exact absurd rfl hkey

def pressAll (capacity : Nat) (commands : List (List α)) (e : LineEditor α)
    (keys : List (Key α)) : LineEditor α :=
  keys.foldl (press capacity commands) e

/-- The completion is a command that the line begins, or nothing has happened. -/
theorem completed_cases (commands : List (List α)) (line : List α) :
    completed commands line = line ∨
      completed commands line ∈ commands ∧ line <+: completed commands line := by
  unfold completed
  split
  · exact Or.inl rfl
  · cases hfind : commands.find? fun c => decide (line <+: c) with
    | none => exact Or.inl rfl
    | some c =>
        have hpre := List.find?_some hfind
        exact Or.inr ⟨List.mem_of_find?_eq_some hfind, of_decide_eq_true hpre⟩

/-- The line and the last one fit in the capacity. -/
structure Fits (capacity : Nat) (e : LineEditor α) : Prop where
  line_le : e.line.length ≤ capacity
  history_le : e.history.length ≤ capacity

theorem Fits.press {capacity : Nat} {commands : List (List α)} {e : LineEditor α}
    (h : Fits capacity e) (hcommands : ∀ c ∈ commands, c.length ≤ capacity) (key : Key α) :
    Fits capacity (press capacity commands e key) := by
  cases key with
  | char a =>
      simp only [LineEditor.press]
      split
      · next hlt =>
          refine ⟨?_, h.history_le⟩
          rw [List.length_append]
          exact hlt
      · exact h
  | backspace =>
      have hline := h.line_le
      refine ⟨?_, h.history_le⟩
      simp only [LineEditor.press, List.length_dropLast]
      omega
  | tab =>
      refine ⟨?_, h.history_le⟩
      rcases completed_cases commands e.line with heq | ⟨hmem, -⟩
      · simp only [LineEditor.press, heq]
        exact h.line_le
      · exact hcommands _ hmem
  | up =>
      simp only [LineEditor.press]
      split
      · exact h
      · exact ⟨h.history_le, h.history_le⟩
  | enter =>
      refine ⟨Nat.zero_le _, ?_⟩
      simp only [LineEditor.press, history_submit]
      split
      · exact h.history_le
      · exact h.line_le

/-- The line and the last one are of such characters. -/
structure Only (P : α → Prop) (e : LineEditor α) : Prop where
  line : ∀ a ∈ e.line, P a
  history : ∀ a ∈ e.history, P a

theorem Only.press {P : α → Prop} {capacity : Nat} {commands : List (List α)}
    {e : LineEditor α} (h : Only P e) (hcommands : ∀ c ∈ commands, ∀ a ∈ c, P a) {key : Key α}
    (hkey : ∀ a, key = .char a → P a) : Only P (press capacity commands e key) := by
  cases key with
  | char a =>
      simp only [LineEditor.press]
      split
      · refine ⟨fun b hb => ?_, h.history⟩
        rcases List.mem_append.mp hb with hb | hb
        · exact h.line b hb
        · rw [List.mem_singleton.mp hb]
          exact hkey a rfl
      · exact h
  | backspace => exact ⟨fun b hb => h.line b (List.dropLast_subset e.line hb), h.history⟩
  | tab =>
      refine ⟨?_, h.history⟩
      rcases completed_cases commands e.line with heq | ⟨hmem, -⟩
      · simp only [LineEditor.press, heq]
        exact h.line
      · exact hcommands _ hmem
  | up =>
      simp only [LineEditor.press]
      split
      · exact h
      · exact ⟨h.history, h.history⟩
  | enter =>
      refine ⟨fun b hb => absurd hb List.not_mem_nil, ?_⟩
      simp only [LineEditor.press, history_submit]
      split
      · exact h.history
      · exact h.line

end LineEditor

end FirstKernel
