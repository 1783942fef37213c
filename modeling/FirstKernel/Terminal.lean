import Mathlib.Data.List.Infix

/-!
# A terminal

The cells of a terminal of `rows` by `cols` fill one after the other, row
by row, and everything from the cursor on is blank. So a terminal is what
it shows before the cursor (`Terminal`), and the cursor is where that
ends. When the last cell is filled, or the last line ended, the first row
scrolls away.
-/

namespace FirstKernel

structure Terminal (α : Type*) (rows cols : Nat) where
  shown : List α
  fits : shown.length < rows * cols

namespace Terminal

variable {α : Type*} {rows cols : Nat}

def row (t : Terminal α rows cols) : Nat := t.shown.length / cols

def col (t : Terminal α rows cols) : Nat := t.shown.length % cols

/-- The cell at a place in row-major order. -/
def cell (blank : α) (t : Terminal α rows cols) (i : Nat) : α := t.shown.getD i blank

theorem cols_pos (t : Terminal α rows cols) : 0 < cols :=
  Nat.pos_of_mul_pos_left (Nat.zero_lt_of_lt t.fits)

theorem row_lt (t : Terminal α rows cols) : t.row < rows := Nat.div_lt_of_lt_mul
  (Nat.mul_comm rows cols ▸ t.fits)

theorem col_lt (t : Terminal α rows cols) : t.col < cols := Nat.mod_lt _ t.cols_pos

/-- Cells that reach the end of the last row scroll. -/
def scrolled (rows cols : Nat) (shown : List α) : List α :=
  if shown.length = rows * cols then shown.drop cols else shown

theorem scrolled_fits {shown : List α} (hpos : 0 < rows * cols)
    (hle : shown.length ≤ rows * cols) : (scrolled rows cols shown).length < rows * cols := by
  unfold scrolled
  split
  · next hfull =>
      have hcols : 0 < cols := Nat.pos_of_mul_pos_left hpos
      rw [List.length_drop]
      omega
  · next hnot => exact Nat.lt_of_le_of_ne hle hnot

/-- A terminal that has been cleared. -/
def clear (hpos : 0 < rows * cols) : Terminal α rows cols := ⟨[], hpos⟩

theorem put_fits (t : Terminal α rows cols) (a : α) :
    (scrolled rows cols (t.shown ++ [a])).length < rows * cols := by
  refine scrolled_fits (Nat.zero_lt_of_lt t.fits) ?_
  rw [List.length_append]
  exact t.fits

def put (a : α) (t : Terminal α rows cols) : Terminal α rows cols :=
  ⟨scrolled rows cols (t.shown ++ [a]), t.put_fits a⟩

/-- The cells up to the end of the row become blank. -/
def lineEnded (blank : α) (t : Terminal α rows cols) : List α :=
  t.shown ++ List.replicate (cols - t.col) blank

theorem length_lineEnded (blank : α) (t : Terminal α rows cols) :
    (t.lineEnded blank).length = (t.row + 1) * cols := by
  have hcol := t.col_lt
  have hcursor : cols * t.row + t.col = t.shown.length := Nat.div_add_mod _ _
  rw [lineEnded, List.length_append, List.length_replicate, Nat.add_mul, Nat.mul_comm, ← hcursor]
  omega

theorem newline_fits (blank : α) (t : Terminal α rows cols) :
    (scrolled rows cols (t.lineEnded blank)).length < rows * cols := by
  refine scrolled_fits (Nat.zero_lt_of_lt t.fits) ?_
  rw [length_lineEnded]
  exact Nat.mul_le_mul_right cols t.row_lt

def newline (blank : α) (t : Terminal α rows cols) : Terminal α rows cols :=
  ⟨scrolled rows cols (t.lineEnded blank), t.newline_fits blank⟩

theorem backspace_fits (t : Terminal α rows cols) : t.shown.dropLast.length < rows * cols := by
  rw [List.length_dropLast]
  exact Nat.lt_of_le_of_lt (Nat.sub_le _ _) t.fits

/-- The cursor steps back, if it can, and the cell there becomes blank. -/
def backspace (t : Terminal α rows cols) : Terminal α rows cols :=
  ⟨t.shown.dropLast, t.backspace_fits⟩

/-! ## A line that is being typed -/

/-- After the text `base` a line of at most `capacity` cells has been typed, and so many
rows have scrolled away since. -/
structure Typed (capacity : Nat) (base line : List α) (gone : Nat)
    (t : Terminal α rows cols) : Prop where
  shown_eq : t.shown = (base ++ line).drop (gone * cols)
  line_le : line.length ≤ capacity
  gone_le : gone = 0 ∨ gone * cols + rows * cols ≤ base.length + capacity + cols

variable {capacity : Nat} {base line : List α} {gone : Nat} {t : Terminal α rows cols}

theorem typed_nil (capacity : Nat) (t : Terminal α rows cols) : Typed capacity t.shown [] 0 t :=
  ⟨by rw [List.append_nil, Nat.zero_mul, List.drop_zero], Nat.zero_le _, Or.inl rfl⟩

namespace Typed

/-- As long as a line and a row have room, only what stood before the line scrolls away. -/
theorem gone_le_base (h : Typed capacity base line gone t)
    (hroom : capacity + cols ≤ rows * cols) : gone * cols ≤ base.length := by
  rcases h.gone_le with h0 | hle
  · rw [h0, Nat.zero_mul]
    exact Nat.zero_le _
  · omega

theorem put (h : Typed capacity base line gone t) (hroom : capacity + cols ≤ rows * cols)
    (hlt : line.length < capacity) (a : α) :
    ∃ gone', Typed capacity base (line ++ [a]) gone' (t.put a) := by
  have hbase := h.gone_le_base hroom
  have hlen : (line ++ [a]).length = line.length + 1 := by
    rw [List.length_append]
    rfl
  have hshown : t.shown ++ [a] = (base ++ (line ++ [a])).drop (gone * cols) := by
    rw [h.shown_eq, List.drop_append_of_le_length hbase, List.drop_append_of_le_length hbase,
      List.append_assoc]
  by_cases hfull : (t.shown ++ [a]).length = rows * cols
  · refine ⟨gone + 1, ?_, by omega, Or.inr ?_⟩
    · show Terminal.scrolled rows cols (t.shown ++ [a]) = _
      rw [Terminal.scrolled, if_pos hfull, hshown, List.drop_drop, Nat.succ_mul]
    · rw [hshown, List.length_drop, List.length_append] at hfull
      rw [Nat.succ_mul]
      omega
  · refine ⟨gone, ?_, by omega, h.gone_le⟩
    show Terminal.scrolled rows cols (t.shown ++ [a]) = _
    rw [Terminal.scrolled, if_neg hfull, hshown]

theorem backspace (h : Typed capacity base line gone t)
    (hroom : capacity + cols ≤ rows * cols) (hne : line ≠ []) :
    Typed capacity base line.dropLast gone t.backspace := by
  have hbase := h.gone_le_base hroom
  refine ⟨?_, ?_, h.gone_le⟩
  · show t.shown.dropLast = _
    rw [h.shown_eq, List.drop_append_of_le_length hbase,
      List.drop_append_of_le_length hbase, List.dropLast_append_of_ne_nil hne]
  · have hle := h.line_le
    rw [List.length_dropLast]
    omega

end Typed

end Terminal

end FirstKernel
