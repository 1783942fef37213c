import FirstKernel.Walk

/-!
# Round robin over a fixed number of slots

A search that goes round a ring of `n` slots, from the one after `c` on,
to the first that is active. It ends as soon as one slot is active
(`exists_search`), which is when the `do ... while` loop that computes
it terminates.

`gap c t` is how far `t` lies ahead of `c`, from 1 for the next slot to
`n` for `c` itself. A search that does not stop at an active `t` comes
closer to it (`Search.eq_or_gap_lt`): within `n` searches an active slot
has its turn, whatever other slots become active meanwhile.
-/

namespace FirstKernel

namespace RoundRobin

variable {n : Nat} {active : Fin n → Prop}

/-- The slot after `c`; after the last comes slot 0. -/
def cycle (c : Fin n) : Fin n :=
  if h : c.val + 1 < n then ⟨c.val + 1, h⟩ else ⟨0, Nat.zero_lt_of_lt c.isLt⟩

def gap (c t : Fin n) : Nat :=
  if c.val < t.val then t.val - c.val else n - c.val + t.val

theorem gap_pos (c t : Fin n) : 0 < gap c t := by
  have := c.isLt
  unfold gap
  split <;> omega

theorem gap_le (c t : Fin n) : gap c t ≤ n := by
  have := c.isLt
  have := t.isLt
  unfold gap
  split <;> omega

theorem gap_cycle {c t : Fin n} (h : cycle c ≠ t) : gap (cycle c) t + 1 = gap c t := by
  have hc := c.isLt
  have ht := t.isLt
  have hne : (cycle c).val ≠ t.val := fun heq => h (Fin.ext heq)
  unfold cycle at hne ⊢
  split at hne
  · next hlt =>
      simp only [dif_pos hlt, gap] at hne ⊢
      split <;> split <;> omega
  · next hlt =>
      simp only [dif_neg hlt, gap] at hne ⊢
      split <;> split <;> omega

/-- Starting after `c`, the search passes the inactive slots `l` and stops at `z`. -/
def Search (active : Fin n → Prop) (c : Fin n) (l : List (Fin n)) (z : Fin n) : Prop :=
  Walk (fun x => ¬active x) cycle (cycle c) l z

theorem Search.here {c : Fin n} (h : active (cycle c)) : Search active c [] (cycle c) :=
  @Walk.stop _ (fun x => ¬active x) cycle _ (not_not.mpr h)

theorem Search.pass {c z : Fin n} {l : List (Fin n)} (h : ¬active (cycle c))
    (hw : Search active (cycle c) l z) : Search active c (cycle c :: l) z :=
  @Walk.step _ (fun x => ¬active x) cycle _ _ _ h hw

theorem Search.active_end {c z : Fin n} {l : List (Fin n)} (h : Search active c l z) :
    active z := by
  have hout : ¬¬active z := @Walk.not_inside_end _ (fun x => ¬active x) cycle _ _ _ h
  exact not_not.mp hout

/-- A search passes at most the other slots. -/
theorem Search.length_lt {c z : Fin n} {l : List (Fin n)} (h : Search active c l z) :
    l.length < n := by
  have hz : z ∉ l := fun hmem => Walk.inside_of_mem h z hmem h.active_end
  have hle := (List.nodup_cons.mpr ⟨hz, Walk.nodup h⟩).length_le_card
  rwa [List.length_cons, Fintype.card_fin] at hle

theorem exists_search {t : Fin n} (ht : active t) :
    ∀ c : Fin n, ∃ l z, Search active c l z := by
  intro c
  induction hg : gap c t generalizing c with
  | zero => exact absurd (gap_pos c t) (by omega)
  | succ g ih =>
      by_cases hnext : active (cycle c)
      · exact ⟨[], cycle c, .here hnext⟩
      · have hne : cycle c ≠ t := fun heq => hnext (heq ▸ ht)
        have hgap := gap_cycle hne
        obtain ⟨l, z, hw⟩ := ih (cycle c) (by omega)
        exact ⟨cycle c :: l, z, .pass hnext hw⟩

/-- **Progress.** A search stops at a given active slot or comes closer to it. -/
theorem Search.eq_or_gap_lt {c z t : Fin n} {l : List (Fin n)}
    (h : Search active c l z) (ht : active t) : z = t ∨ gap z t < gap c t := by
  induction l generalizing c with
  | nil =>
      cases h with
      | stop _ =>
          by_cases heq : cycle c = t
          · exact Or.inl heq
          · have := gap_cycle heq
            exact Or.inr (by omega)
  | cons x l ih =>
      cases h with
      | step hin hw =>
          have hne : cycle c ≠ t := fun heq => hin (heq ▸ ht)
          have hgap := gap_cycle hne
          rcases ih hw with heq | hlt
          · exact Or.inl heq
          · exact Or.inr (by omega)

end RoundRobin

end FirstKernel
