import FirstKernel.FatOps

/-!
# Directory sectors after a store

What filling or deleting one slot does to a directory sector: the bytes
of the other slots are untouched (`SameSlot`), so a slot reads as
before unless it is the one written, and the sector's live entries are
the old ones with the slot added (`live_fillEntry`) or removed
(`live_setName0`). That a filled slot adds nothing else rests on the
sector being tidy: had the slot been unused, whatever stood in the slots
after it would come to life.
-/

namespace FirstKernel

/-- The two sectors agree on the 32 bytes of slot `j`. -/
def SameSlot (b b' : Sector) (j : Slot) : Prop :=
  ∀ k : Fin 512, k.val / 32 = j.val → b' k = b k

namespace SameSlot

variable {b b' : Sector} {j : Slot}

theorem name_eq (h : SameSlot b b' j) (m : Fin 8) : b'.name j m = b.name j m := by
  refine h _ ?_
  show (32 * j.val + m.val) / 32 = j.val
  omega

theorem whole_name_eq (h : SameSlot b b' j) : b'.name j = b.name j := funext h.name_eq

theorem attributes_eq (h : SameSlot b b' j) : b'.attributes j = b.attributes j := by
  refine h _ ?_
  show (32 * j.val + 11) / 32 = j.val
  omega

theorem clusterLow_eq (h : SameSlot b b' j) : b'.clusterLow j = b.clusterLow j := by
  have h0 : b' ⟨32 * j.val + 26, by omega⟩ = b ⟨32 * j.val + 26, by omega⟩ := by
    refine h _ ?_
    show (32 * j.val + 26) / 32 = j.val
    omega
  have h1 : b' ⟨32 * j.val + 26 + 1, by omega⟩ = b ⟨32 * j.val + 26 + 1, by omega⟩ := by
    refine h _ ?_
    show (32 * j.val + 26 + 1) / 32 = j.val
    omega
  rw [Sector.clusterLow, Sector.clusterLow, Buffer.load16, Buffer.load16, h0, h1]

end SameSlot

/-! ## Filling a slot -/

/-- The eight bytes that a stored name is looked up by. -/
def nameOf (name : Buffer 11) : Buffer 8 := fun m => name ⟨m.val, by omega⟩

variable {b : Sector} {i : Slot} {name : Buffer 11} {size : UInt32}
  {attributes : UInt8} {cluster : UInt16}

theorem fillEntry_of_div_ne {k : Fin 512} (h : k.val / 32 ≠ i.val) :
    b.fillEntry i name size attributes cluster k = b k := by
  unfold Sector.fillEntry Buffer.store16 Buffer.set Buffer.store32
  rcases Nat.lt_or_gt_of_ne h with hlt | hgt
  · have hk : k.val < 32 * i.val := by omega
    rw [Buffer.blit_of_lt _ _ (by omega), Buffer.blit_of_lt _ _ (by omega),
      Buffer.blit_of_lt _ _ (by omega), Buffer.blit_of_lt _ _ hk]
  · have hk : 32 * i.val + 32 ≤ k.val := by omega
    rw [Buffer.blit_of_ge _ (by simp [Buffer.bytes16]; omega),
      Buffer.blit_of_ge _ (by simp; omega),
      Buffer.blit_of_ge _ (by simp [Buffer.bytes32]; omega),
      Buffer.blit_of_ge _ (by simp; omega)]

theorem sameSlot_fillEntry {j : Slot} (h : j ≠ i) :
    SameSlot b (b.fillEntry i name size attributes cluster) j := by
  intro k hk
  exact fillEntry_of_div_ne fun hki => h (Fin.ext (hk.symm.trans hki))

theorem name_fillEntry_self (m : Fin 8) :
    (b.fillEntry i name size attributes cluster).name i m = name ⟨m.val, by omega⟩ := by
  unfold Sector.name Sector.fillEntry Buffer.store16 Buffer.set Buffer.store32
  rw [Buffer.blit_of_lt _ _ (by show 32 * i.val + m.val < _; omega),
    Buffer.blit_of_lt _ _ (by show 32 * i.val + m.val < _; omega),
    Buffer.blit_of_lt _ _ (by show 32 * i.val + m.val < _; omega)]
  refine Buffer.blit_of_mem _ (Nat.le_add_right ..) ?_
  have hlen : m.val < (List.ofFn name).length := by
    rw [List.length_ofFn]; omega
  rw [Nat.add_sub_cancel_left, List.getElem?_eq_getElem hlen, List.getElem_ofFn]

theorem attributes_fillEntry_self :
    (b.fillEntry i name size attributes cluster).attributes i = attributes := by
  unfold Sector.attributes Sector.fillEntry Buffer.store16
  rw [Buffer.blit_of_lt _ _ (by show 32 * i.val + 11 < _; omega)]
  exact Buffer.set_self _ _ _

theorem clusterLow_fillEntry_self :
    (b.fillEntry i name size attributes cluster).clusterLow i = cluster :=
  Buffer.load16_store16 _ _ _

theorem ext_fillEntry_self (m : Fin 3) :
    (b.fillEntry i name size attributes cluster).ext i m = name ⟨8 + m.val, by omega⟩ := by
  unfold Sector.ext Sector.fillEntry Buffer.store16 Buffer.set Buffer.store32
  rw [Buffer.blit_of_lt _ _ (by show 32 * i.val + 8 + m.val < _; omega),
    Buffer.blit_of_lt _ _ (by show 32 * i.val + 8 + m.val < _; omega),
    Buffer.blit_of_lt _ _ (by show 32 * i.val + 8 + m.val < _; omega)]
  refine Buffer.blit_of_mem _ (by show 32 * i.val ≤ 32 * i.val + 8 + m.val; omega) ?_
  have hlen : 8 + m.val < (List.ofFn name).length := by
    rw [List.length_ofFn]; omega
  have hoff : 32 * i.val + 8 + m.val - 32 * i.val = 8 + m.val := by omega
  simp only [hoff]
  rw [List.getElem?_eq_getElem hlen, List.getElem_ofFn]

theorem size_fillEntry_self :
    (b.fillEntry i name size attributes cluster).size i = size := by
  unfold Sector.size Sector.fillEntry Buffer.store16 Buffer.set
  have hword : ∀ v : UInt16, (Buffer.bytes16 v).length = 2 := fun _ => rfl
  rw [Buffer.load32_blit_of_disjoint _ _ (Or.inr (by rw [hword])),
    Buffer.load32_blit_of_disjoint _ _
      (Or.inr (by rw [List.length_singleton]; omega))]
  exact Buffer.load32_store32 _ _ _

theorem name0_fillEntry (j : Slot) :
    (b.fillEntry i name size attributes cluster).name j 0
      = if j = i then name 0 else b.name j 0 := by
  by_cases hj : j = i
  · subst hj
    rw [if_pos rfl, name_fillEntry_self]
    rfl
  · rw [if_neg hj, (sameSlot_fillEntry hj).name_eq]

/-- The live entries after filling a free slot: the old ones, and the new one
unless its first byte is the deletion mark. -/
theorem live_fillEntry (htidy : Tidy b) (hfree : findFreeDirEntry b = some i)
    (hname : name 0 ≠ 0) (j : Slot) :
    Live (b.fillEntry i name size attributes cluster) j ↔
      if j = i then name 0 ≠ 0xE5 else Live b j := by
  obtain ⟨hvacant, hused⟩ := findFreeDirEntry_eq_some.mp hfree
  simp only [Live, name0_fillEntry]
  by_cases hji : j = i
  · subst hji
    simp only [if_true, and_iff_left_iff_imp]
    intro _ k hk
    by_cases hkj : k = j
    · rw [if_pos hkj]; exact hname
    · rw [if_neg hkj]
      exact (hused k (lt_of_le_of_ne hk hkj)).1
  · simp only [if_neg hji]
    refine and_congr_right fun hE5 => ⟨fun h k hk => ?_, fun h k hk => ?_⟩
    · by_cases hki : k = i
      · subst hki
        rcases hvacant with h0 | h5
        · -- the slots after an unused slot were unused, so `j` is not live either
          have hlt : k < j := lt_of_le_of_ne hk (Ne.symm hji)
          have hj := h j (Fin.le_refl j)
          rw [if_neg hji] at hj
          exact absurd (htidy k j hlt h0) hj
        · rw [h5]; decide
      · have := h k hk
        rwa [if_neg hki] at this
    · by_cases hki : k = i
      · rw [if_pos hki]; exact hname
      · rw [if_neg hki]; exact h k hk

theorem tidy_fillEntry (htidy : Tidy b) (hfree : findFreeDirEntry b = some i)
    (hname : name 0 ≠ 0) : Tidy (b.fillEntry i name size attributes cluster) := by
  obtain ⟨-, hused⟩ := findFreeDirEntry_eq_some.mp hfree
  intro p q hpq hp
  rw [name0_fillEntry] at hp ⊢
  by_cases hpi : p = i
  · rw [if_pos hpi] at hp
    exact absurd hp hname
  · rw [if_neg hpi] at hp
    by_cases hqi : q = i
    · exact absurd hp (hused p (hqi ▸ hpq)).1
    · rw [if_neg hqi]
      exact htidy p q hpq hp

theorem not_live_of_findFreeDirEntry (hfree : findFreeDirEntry b = some i) :
    ¬Live b i := by
  obtain ⟨hvacant, -⟩ := findFreeDirEntry_eq_some.mp hfree
  rintro ⟨h5, h0⟩
  rcases hvacant with h | h
  · exact h0 i (Fin.le_refl i) h
  · exact h5 h

/-! ## Deleting a slot -/

theorem setName0_of_ne {v : UInt8} {k : Fin 512} (h : k.val ≠ 32 * i.val) :
    b.setName0 i v k = b k :=
  Buffer.set_of_ne b v h

theorem sameSlot_setName0 {v : UInt8} {j : Slot} (h : j ≠ i) :
    SameSlot b (b.setName0 i v) j := by
  intro k hk
  refine setName0_of_ne fun hki => h (Fin.ext ?_)
  omega

theorem name0_setName0 {v : UInt8} (j : Slot) :
    (b.setName0 i v).name j 0 = if j = i then v else b.name j 0 := by
  by_cases hj : j = i
  · subst hj
    rw [if_pos rfl]
    exact Buffer.set_self b v _
  · rw [if_neg hj, (sameSlot_setName0 hj).name_eq]

theorem live_setName0 (hlive : Live b i) (j : Slot) :
    Live (b.setName0 i 0xE5) j ↔ Live b j ∧ j ≠ i := by
  simp only [Live, name0_setName0]
  by_cases hji : j = i
  · simp [hji]
  · simp only [hji, if_false, ne_eq, not_false_eq_true, and_true]
    refine and_congr_right fun _ => ⟨fun h k hk => ?_, fun h k hk => ?_⟩
    · by_cases hki : k = i
      · rw [hki]; exact hlive.2 i (Fin.le_refl i)
      · have := h k hk
        rwa [if_neg hki] at this
    · by_cases hki : k = i
      · rw [if_pos hki]; decide
      · rw [if_neg hki]; exact h k hk

theorem tidy_setName0 (htidy : Tidy b) (hlive : Live b i) :
    Tidy (b.setName0 i 0xE5) := by
  intro p q hpq hp
  rw [name0_setName0] at hp ⊢
  by_cases hpi : p = i
  · rw [if_pos hpi] at hp
    exact absurd hp (by decide)
  · rw [if_neg hpi] at hp
    have hq := htidy p q hpq hp
    by_cases hqi : q = i
    · exact absurd (hqi ▸ hq) (hlive.2 i (Fin.le_refl i))
    · rw [if_neg hqi]
      exact hq

end FirstKernel
