import Mathlib.Data.List.DropRight
import FirstKernel.RoundRobin

/-!
# A log in a ring of cells

A buffer of `n` cells that is written round and round: `push` stores at
the index and moves it on, and `wrapped` remembers that the index has
been past the last cell. The cells from the index on are then older than
those before it, so the log reads `oldest` before `newest`
(`contents`), and holds the last `n` elements that were pushed
(`contents_pushAll`).

`scan` reads the same cells from the first on. Once the ring has wrapped
it finds the newest elements twice, first and last (`scan_eq`), and is
the log only if the index stands on the first cell
(`scan_eq_contents_iff`).
-/

namespace FirstKernel

structure RingLog (α : Type*) (n : Nat) where
  buffer : Fin n → α
  index : Fin n
  wrapped : Bool

namespace RingLog

variable {α : Type*} {n : Nat}

def push (r : RingLog α n) (a : α) : RingLog α n where
  buffer := Function.update r.buffer r.index a
  index := RoundRobin.cycle r.index
  wrapped := r.wrapped || decide (n ≤ r.index.val + 1)

def pushAll (r : RingLog α n) (xs : List α) : RingLog α n := xs.foldl push r

def cells (r : RingLog α n) : List α := List.ofFn r.buffer

def newest (r : RingLog α n) : List α := r.cells.take r.index

def oldest (r : RingLog α n) : List α := r.cells.drop r.index

/-- What is in the log, in the order it was pushed. -/
def contents (r : RingLog α n) : List α :=
  if r.wrapped then r.oldest ++ r.newest else r.newest

/-- All cells if the ring has wrapped, and then those before the index. -/
def scan (r : RingLog α n) : List α :=
  (if r.wrapped then r.cells else []) ++ r.newest

/-! ## One push -/

theorem length_cells (r : RingLog α n) : r.cells.length = n := List.length_ofFn

theorem length_newest (r : RingLog α n) : r.newest.length = r.index.val := by
  rw [newest, List.length_take, length_cells]
  omega

theorem length_oldest (r : RingLog α n) : r.oldest.length = n - r.index.val := by
  rw [oldest, List.length_drop, length_cells]

theorem newest_append_oldest (r : RingLog α n) : r.newest ++ r.oldest = r.cells :=
  List.take_append_drop _ _

theorem cells_push (r : RingLog α n) (a : α) :
    (r.push a).cells = r.newest ++ a :: r.oldest.tail := by
  have hset : (r.push a).cells = r.cells.set r.index a := by
    refine List.ext_getElem (by simp [length_cells]) fun i h1 h2 => ?_
    rw [length_cells] at h1
    simp only [cells, push, List.getElem_ofFn, List.getElem_set]
    by_cases hi : r.index.val = i
    · subst hi
      rw [if_pos rfl]
      exact Function.update_self ..
    · rw [if_neg hi]
      exact Function.update_of_ne (fun heq => hi (congrArg Fin.val heq).symm) ..
  have hlt : r.index.val < r.cells.length := by
    rw [length_cells]
    exact r.index.isLt
  rw [hset, List.set_eq_take_append_cons_drop, if_pos hlt, newest, oldest, List.tail_drop]

/-- Short of the last cell, the new element comes after the newest. -/
theorem push_of_lt {r : RingLog α n} {a : α} (h : r.index.val + 1 < n) :
    (r.push a).newest = r.newest ++ [a] ∧ (r.push a).oldest = r.oldest.tail ∧
      (r.push a).wrapped = r.wrapped := by
  have hindex : (r.push a).index.val = (r.newest ++ [a]).length := by
    rw [List.length_append, length_newest]
    simp [push, RoundRobin.cycle, h]
  have hcells : (r.push a).cells = (r.newest ++ [a]) ++ r.oldest.tail := by
    rw [cells_push]
    simp
  refine ⟨?_, ?_, ?_⟩
  · rw [newest, hindex, hcells]
    exact List.take_left
  · rw [oldest, hindex, hcells]
    exact List.drop_left
  · simp [push, h]

/-- At the last cell the ring has come round, and all it holds is old. -/
theorem push_of_last {r : RingLog α n} {a : α} (h : ¬r.index.val + 1 < n) :
    (r.push a).newest = [] ∧ (r.push a).oldest = r.newest ++ [a] ∧
      (r.push a).wrapped = true := by
  have hindex : (r.push a).index.val = 0 := by simp [push, RoundRobin.cycle, h]
  have htail : r.oldest.tail = [] := by
    refine List.eq_nil_of_length_eq_zero ?_
    rw [List.length_tail, length_oldest]
    omega
  refine ⟨by rw [newest, hindex]; rfl, ?_, ?_⟩
  · rw [oldest, hindex, List.drop_zero, cells_push, htail]
  · simp only [push, Bool.or_eq_true, decide_eq_true_eq]
    exact Or.inr (Nat.not_lt.mp h)

theorem rtake_of_length_le {m : Nat} {l : List α} (h : l.length ≤ m) : l.rtake m = l := by
  rw [List.rtake, Nat.sub_eq_zero_of_le h, List.drop_zero]

theorem rtake_cons_of_length {m : Nat} {x : α} {l : List α} (h : l.length = m) :
    (x :: l).rtake m = l := by
  rw [List.rtake, List.length_cons, h, Nat.add_sub_cancel_left, List.drop_one, List.tail_cons]

theorem rtake_rtake_append (m : Nat) (l l' : List α) :
    (l.rtake m ++ l').rtake m = (l ++ l').rtake m := by
  have hdrop : l.rtake m ++ l' = (l ++ l').drop (l.length - m) := by
    rw [List.drop_append_of_le_length (Nat.sub_le ..), List.rtake]
  rw [hdrop]
  simp only [List.rtake, List.drop_drop, List.length_drop, List.length_append]
  congr 1
  omega

theorem contents_push (r : RingLog α n) (a : α) :
    (r.push a).contents = (r.contents ++ [a]).rtake n := by
  have hidx := r.index.isLt
  have hnew := r.length_newest
  have hold := r.length_oldest
  obtain ⟨x, t, ht⟩ : ∃ x t, r.oldest = x :: t := by
    refine List.exists_cons_of_length_pos ?_
    omega
  have hlen : t.length = n - r.index.val - 1 := by
    rw [ht, List.length_cons] at hold
    omega
  have hfull : (x :: (t ++ (r.newest ++ [a]))).rtake n = t ++ (r.newest ++ [a]) := by
    refine rtake_cons_of_length ?_
    simp only [List.length_append, List.length_singleton]
    omega
  have hroom : (r.newest ++ [a]).rtake n = r.newest ++ [a] := by
    refine rtake_of_length_le ?_
    simp only [List.length_append, List.length_singleton]
    omega
  by_cases hlast : r.index.val + 1 < n
  · obtain ⟨h1, h2, h3⟩ := push_of_lt (a := a) hlast
    simp only [contents, h1, h2, h3]
    by_cases hw : r.wrapped
    · simp only [if_pos hw, ht, List.tail_cons, List.cons_append, List.append_assoc]
      exact hfull.symm
    · simp only [if_neg hw]
      exact hroom.symm
  · obtain ⟨h1, h2, h3⟩ := push_of_last (a := a) hlast
    have hnil : t = [] := List.eq_nil_of_length_eq_zero (by omega)
    simp only [contents, h1, h2, h3, if_true, List.append_nil]
    rw [hnil, List.nil_append] at hfull
    by_cases hw : r.wrapped
    · simp only [if_pos hw, ht, hnil, List.cons_append, List.nil_append]
      exact hfull.symm
    · simp only [if_neg hw]
      exact hroom.symm

/-! ## Many pushes -/

/-- **The ring keeps the last `n`.** -/
theorem contents_pushAll : ∀ (r : RingLog α n) (xs : List α), r.contents.length ≤ n →
    (r.pushAll xs).contents = (r.contents ++ xs).rtake n
  | r, [], h => by
      rw [List.append_nil, rtake_of_length_le h]
      rfl
  | r, a :: xs, _ => by
      have hle : (r.push a).contents.length ≤ n := by
        rw [contents_push, List.rtake, List.length_drop]
        omega
      show ((r.push a).pushAll xs).contents = _
      rw [contents_pushAll (r.push a) xs hle, contents_push, rtake_rtake_append,
        List.append_assoc, List.singleton_append]

/-- A ring in which nothing has been pushed, whatever its cells hold. -/
structure Empty (r : RingLog α n) : Prop where
  index_eq : r.index.val = 0
  not_wrapped : r.wrapped = false

theorem Empty.contents_eq {r : RingLog α n} (h : r.Empty) : r.contents = [] := by
  simp [contents, h.not_wrapped, newest, h.index_eq]

theorem Empty.contents_pushAll {r : RingLog α n} (h : r.Empty) (xs : List α) :
    (r.pushAll xs).contents = xs.rtake n := by
  have hnil := h.contents_eq
  rw [RingLog.contents_pushAll r xs (by simp [hnil]), hnil, List.nil_append]

/-- Where the index stands, and whether it has wrapped, is a matter of how much
was pushed. -/
theorem Empty.index_wrapped {r : RingLog α n} (h : r.Empty) (xs : List α) :
    (r.pushAll xs).index.val = xs.length % n ∧
      ((r.pushAll xs).wrapped = true ↔ n ≤ xs.length) := by
  have hn : 0 < n := Nat.zero_lt_of_lt r.index.isLt
  induction xs using List.reverseRecOn with
  | nil =>
      refine ⟨by rw [List.length_nil, Nat.zero_mod]; exact h.index_eq, ?_⟩
      have hunwrapped : (r.pushAll []).wrapped = false := h.not_wrapped
      rw [hunwrapped, List.length_nil]
      exact ⟨fun hc => Bool.noConfusion hc, fun hc => absurd hc (Nat.not_le.mpr hn)⟩
  | append_singleton xs a ih =>
      obtain ⟨hindex, hwrapped⟩ := ih
      have hstep : r.pushAll (xs ++ [a]) = (r.pushAll xs).push a := by
        simp [pushAll]
      have hdiv := Nat.div_add_mod xs.length n
      have hle := Nat.mod_le xs.length n
      rw [hstep, List.length_append, List.length_singleton]
      by_cases hlast : (r.pushAll xs).index.val + 1 < n
      · obtain ⟨h1, -, h3⟩ := push_of_lt (a := a) hlast
        refine ⟨?_, ?_⟩
        · rw [← length_newest, h1, List.length_append, List.length_singleton,
            length_newest, hindex, ← hdiv, Nat.add_assoc, Nat.mul_add_mod,
            Nat.mul_add_mod, Nat.mod_mod]
          exact (Nat.mod_eq_of_lt (hindex ▸ hlast)).symm
        · rw [h3, hwrapped]
          refine ⟨fun hc => Nat.le_succ_of_le hc, fun hc => ?_⟩
          by_contra hlt
          have hmod := Nat.mod_eq_of_lt (Nat.not_le.mp hlt)
          omega
      · obtain ⟨h1, -, h3⟩ := push_of_last (a := a) hlast
        refine ⟨?_, ?_⟩
        · have hmul : xs.length + 1 = n * (xs.length / n + 1) := by
            have hlt := Nat.mod_lt xs.length hn
            rw [Nat.mul_add, Nat.mul_one]
            omega
          rw [← length_newest, h1, hmul, Nat.mul_mod_right]
          rfl
        · rw [h3]
          exact ⟨fun _ => by omega, fun _ => rfl⟩

/-! ## Scanning from the first cell -/

theorem scan_eq {r : RingLog α n} (h : r.wrapped = true) :
    r.scan = r.newest ++ r.oldest ++ r.newest := by
  rw [scan, if_pos h, newest_append_oldest]

/-- **When the scan is the log.** -/
theorem scan_eq_contents_iff (r : RingLog α n) :
    r.scan = r.contents ↔ (r.wrapped = true → r.index.val = 0) := by
  constructor
  · intro heq hw
    have hlen := congrArg List.length heq
    simp only [scan_eq hw, contents, if_pos hw, List.length_append, length_newest] at hlen
    omega
  · intro hzero
    cases hw : r.wrapped with
    | false => simp [scan, contents, hw]
    | true =>
        have hnew : r.newest = [] := by
          rw [newest, hzero hw, List.take_zero]
        rw [scan_eq hw, contents, if_pos hw, hnew, List.nil_append]

end RingLog

end FirstKernel
