import Mathlib.Data.List.Basic
import Mathlib.Data.List.TakeWhile

/-!
# Reading a text field by field

A reader takes a text apart from the front: each read names a delimiter
and takes what is before the first one, with the delimiter (`nextField`).
Reads with one separator yield the fields between the separators, without
the last if it is empty; a read with a delimiter that does not occur
yields all that remains (`readFields_eq`).
-/

namespace FirstKernel

variable {α : Type*} [DecidableEq α]

/-- One read: what it yields, and what remains. At the end there is nothing to yield. -/
def nextField (delim : α) (rest : List α) : Option (List α) × List α :=
  if rest = [] then (none, [])
  else (some (rest.takeWhile (· ≠ delim)), (rest.dropWhile (· ≠ delim)).tail)

/-- Successive reads. -/
def readFields : List α → List α → List (Option (List α))
  | [], _ => []
  | delim :: delims, rest => (nextField delim rest).1 :: readFields delims (nextField delim rest).2

/-- The fields of a text, without an empty one at its end. -/
def fields (sep : α) (rest : List α) : List (List α) :=
  if (rest.splitOn sep).getLast? = some [] then (rest.splitOn sep).dropLast else rest.splitOn sep

/-- What comes after as many separators, if it is not empty. -/
def unread (sep : α) (n : Nat) (rest : List α) : Option (List α) :=
  if [sep].intercalate ((rest.splitOn sep).drop n) = [] then none
  else some ([sep].intercalate ((rest.splitOn sep).drop n))

/-- What the read with an index yields, if each read is for a separator or for all that
remains. -/
def answer (sep all : α) (rest delims : List α) (n : Nat) : Option (List α) :=
  if all ∈ delims.take n then none
  else if delims[n]? = some all then unread sep n rest
  else (fields sep rest)[n]?

/-! ## One read -/

@[simp] theorem nextField_nil (delim : α) : nextField delim [] = (none, []) := rfl

theorem nextField_append {delim : α} {field : List α} (h : delim ∉ field) (rest : List α) :
    nextField delim (field ++ delim :: rest) = (some field, rest) := by
  have hbefore : ∀ c ∈ field, decide (c ≠ delim) = true := fun c hc =>
    decide_eq_true fun heq => h (heq ▸ hc)
  have hne : field ++ delim :: rest ≠ [] := by simp
  rw [nextField, if_neg hne, List.takeWhile_append_of_pos hbefore,
    List.dropWhile_append_of_pos hbefore]
  simp

theorem nextField_last {delim : α} {field : List α} (h : delim ∉ field) (hne : field ≠ []) :
    nextField delim field = (some field, []) := by
  have hbefore : ∀ c ∈ field, decide (c ≠ delim) = true := fun c hc =>
    decide_eq_true fun heq => h (heq ▸ hc)
  rw [nextField, if_neg hne, List.takeWhile_eq_self_iff.mpr hbefore,
    List.dropWhile_eq_nil_iff.mpr hbefore, List.tail_nil]

theorem mem_of_mem_nextField {delim c : α} {rest : List α} (h : c ∈ (nextField delim rest).2) :
    c ∈ rest := by
  unfold nextField at h
  split at h
  · cases h
  · exact (List.dropWhile_sublist _).subset (List.mem_of_mem_tail h)

theorem mem_of_mem_nextField_fst {delim c : α} {rest field : List α}
    (h : (nextField delim rest).1 = some field) (hc : c ∈ field) : c ∈ rest := by
  unfold nextField at h
  split at h
  · cases h
  · cases h
    exact (List.takeWhile_sublist _).subset hc

/-- A text is a field, or one with its delimiter and a rest. -/
theorem eq_field_or_append (delim : α) (rest : List α) :
    delim ∉ rest ∨ ∃ field rest', delim ∉ field ∧ rest = field ++ delim :: rest' := by
  by_cases hmem : delim ∈ rest
  · obtain ⟨field, rest', hsplit, hfield⟩ := List.eq_append_cons_of_mem hmem
    exact Or.inr ⟨field, rest', hfield, hsplit⟩
  · exact Or.inl hmem

@[simp] theorem readFields_nil (delims : List α) :
    readFields delims ([] : List α) = List.replicate delims.length none := by
  induction delims with
  | nil => rfl
  | cons delim delims ih => rw [readFields, nextField_nil, ih]; rfl

/-! ## Fields -/

@[simp] theorem fields_nil (sep : α) : fields sep ([] : List α) = [] := by
  simp [fields]

theorem fields_append {sep : α} {field : List α} (h : sep ∉ field) (rest : List α) :
    fields sep (field ++ sep :: rest) = field :: fields sep rest := by
  have hsplit : (field ++ sep :: rest).splitOn sep = field :: rest.splitOn sep :=
    List.splitOn_append_cons_self_of_not_mem h rest
  obtain ⟨f, fs, hrest⟩ := List.exists_cons_of_ne_nil (List.splitOn_ne_nil sep rest)
  unfold fields
  rw [hsplit, hrest, List.getLast?_cons_cons]
  split <;> rfl

theorem fields_last {sep : α} {field : List α} (h : sep ∉ field) (hne : field ≠ []) :
    fields sep field = [field] := by
  simp [fields, List.splitOn_eq_singleton h, hne]

theorem mem_of_mem_fields {sep c : α} : ∀ {rest field : List α},
    field ∈ fields sep rest → c ∈ field → c ∈ rest
  | rest, field, h, hc => by
      rcases eq_field_or_append sep rest with hlast | ⟨first, rest', hfirst, heq⟩
      · by_cases hnil : rest = []
        · rw [hnil, fields_nil] at h
          cases h
        · rw [fields_last hlast hnil, List.mem_singleton] at h
          exact h ▸ hc
      · rw [heq, fields_append hfirst] at h
        rw [heq]
        rcases List.mem_cons.mp h with rfl | htail
        · exact List.mem_append_left _ hc
        · have hmem := mem_of_mem_fields htail hc
          exact List.mem_append_right _ (List.mem_cons_of_mem _ hmem)
termination_by rest => rest.length
decreasing_by
  rw [heq, List.length_append, List.length_cons]
  omega

/-- The first field is what one read yields, and the others are those of what remains. -/
theorem getElem?_fields_zero (sep : α) (rest : List α) :
    (fields sep rest)[0]? = (nextField sep rest).1 := by
  by_cases hne : rest = []
  · subst hne
    simp
  · rcases eq_field_or_append sep rest with hlast | ⟨field, rest', hfield, rfl⟩
    · rw [fields_last hlast hne, nextField_last hlast hne]
      rfl
    · rw [fields_append hfield, nextField_append hfield]
      rfl

theorem getElem?_fields_succ (sep : α) (rest : List α) (n : Nat) :
    (fields sep rest)[n + 1]? = (fields sep (nextField sep rest).2)[n]? := by
  by_cases hne : rest = []
  · subst hne
    simp
  · rcases eq_field_or_append sep rest with hlast | ⟨field, rest', hfield, rfl⟩
    · rw [fields_last hlast hne, nextField_last hlast hne, fields_nil]
      rfl
    · rw [fields_append hfield, nextField_append hfield]
      rfl

example : fields 0 [1, 0, 0, 2, 0] = [[1], [], [2]] := by decide

/-! ## All that remains -/

@[simp] theorem unread_nil (sep : α) (n : Nat) : unread sep n ([] : List α) = none := by
  cases n <;> simp [unread]

theorem unread_zero (sep : α) {rest : List α} (hne : rest ≠ []) :
    unread sep 0 rest = some rest := by
  rw [unread, List.drop_zero, List.intercalate_splitOn, if_neg hne]

theorem unread_succ (sep : α) (n : Nat) (rest : List α) :
    unread sep (n + 1) rest = unread sep n (nextField sep rest).2 := by
  by_cases hne : rest = []
  · subst hne
    simp
  · rcases eq_field_or_append sep rest with hlast | ⟨field, rest', hfield, rfl⟩
    · rw [nextField_last hlast hne, unread_nil]
      simp [unread, List.splitOn_eq_singleton hlast]
    · have hsplit : (field ++ sep :: rest').splitOn sep = field :: rest'.splitOn sep :=
        List.splitOn_append_cons_self_of_not_mem hfield rest'
      rw [nextField_append hfield, unread, hsplit, List.drop_succ_cons]
      rfl

/-! ## Successive reads -/

theorem answer_succ {sep all : α} (hne : sep ≠ all) (rest delims : List α) (n : Nat) :
    answer sep all rest (sep :: delims) (n + 1) =
      answer sep all (nextField sep rest).2 delims n := by
  unfold answer
  simp [hne.symm, unread_succ, getElem?_fields_succ]

example : (List.range 3).map (answer 0 9 [1, 0, 2, 0, 3] [0, 9, 0]) =
    [some [1], some [2, 0, 3], none] := by decide

/-- After all that remains has been read there is nothing more. -/
theorem answer_succ_all (sep all : α) (rest delims : List α) (n : Nat) :
    answer sep all rest (all :: delims) (n + 1) = none := by
  simp [answer]

theorem readFields_eq {sep all : α} (hne : sep ≠ all) : ∀ {delims rest : List α},
    (∀ delim ∈ delims, delim = sep ∨ delim = all) → all ∉ rest →
    readFields delims rest = (List.range delims.length).map (answer sep all rest delims)
  | [], _, _, _ => rfl
  | delim :: delims, rest, hdelims, hall => by
      rw [List.forall_mem_cons] at hdelims
      rw [readFields, List.length_cons, List.range_succ_eq_map, List.map_cons, List.map_map]
      rcases hdelims.1 with hdelim | hdelim
      · subst hdelim
        have hrest : all ∉ (nextField delim rest).2 := fun h => hall (mem_of_mem_nextField h)
        have hhead : answer delim all rest (delim :: delims) 0 = (nextField delim rest).1 := by
          simp [answer, hne, getElem?_fields_zero]
        rw [readFields_eq hne hdelims.2 hrest, hhead]
        refine congrArg _ (List.map_congr_left fun n _ => ?_)
        exact (answer_succ hne rest delims n).symm
      · subst hdelim
        have hnext : nextField delim rest = (unread sep 0 rest, []) := by
          by_cases hempty : rest = []
          · subst hempty
            simp
          · rw [nextField_last hall hempty, unread_zero sep hempty]
        have hhead : answer sep delim rest (delim :: delims) 0 = unread sep 0 rest := by
          simp [answer]
        rw [hnext, readFields_nil, hhead, ← List.length_range (n := delims.length),
          ← List.map_const', List.length_range]
        refine congrArg _ (List.map_congr_left fun n _ => ?_)
        exact (answer_succ_all sep delim rest delims n).symm

end FirstKernel
