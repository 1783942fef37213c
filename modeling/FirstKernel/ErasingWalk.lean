import FirstKernel.Walk

/-!
# Walks that erase their links

A `while` loop that follows links like that of `Walk`, but on leaving a
node makes it point at `nil`, which is outside. It needs no assumption on
the links: where it comes back to a node it has left, the next step is to
`nil`. So it ends from every start (`ErasingWalk.exists_le`), and what it
visits is what the links at the start lead to
(`ErasingWalk.mem_or_eq_of_links`, `ErasingWalk.links_or_eq_nil`). Where
the plain walk ends, the two are the same (`ErasingWalk.of_walk`).
-/

namespace FirstKernel

open Relation

variable {α : Type*} [DecidableEq α] {inside : α → Prop} {nil : α} {next : α → α}

/-- The loop started at `a` visits `l`, in order, and stops at `z`; `next` are the
links when it starts. -/
inductive ErasingWalk (inside : α → Prop) (nil : α) : (α → α) → α → List α → α → Prop
  | stop {next : α → α} {a : α} (h : ¬inside a) : ErasingWalk inside nil next a [] a
  | step {next : α → α} {a : α} {l : List α} {z : α} (h : inside a)
      (hw : ErasingWalk inside nil (Function.update next a nil) (next a) l z) :
      ErasingWalk inside nil next a (a :: l) z

/-- An erased link is on no way but the ways to `nil`. -/
theorem links_of_update {a b x : α} (hnil : ¬inside nil)
    (h : ReflTransGen (Link inside (Function.update next a nil)) b x) :
    ReflTransGen (Link inside next) b x ∨ x = nil := by
  induction h with
  | refl => exact Or.inl .refl
  | @tail y x _ hlink ih =>
      obtain ⟨hin, rfl⟩ := hlink
      rcases ih with hreach | rfl
      · by_cases hy : y = a
        · subst hy
          exact Or.inr (Function.update_self ..)
        · rw [Function.update_of_ne hy]
          exact Or.inl (hreach.tail ⟨hin, rfl⟩)
      · exact absurd hin hnil

/-- After the first step there is no need to come back: what is reached from `a`
is `a`, or is reached from its link without using it again. -/
theorem links_update_of_links {a x : α} (h : ReflTransGen (Link inside next) a x) :
    x = a ∨ ReflTransGen (Link inside (Function.update next a nil)) (next a) x := by
  induction h with
  | refl => exact Or.inl rfl
  | @tail y x _ hlink ih =>
      obtain ⟨hin, rfl⟩ := hlink
      by_cases hy : y = a
      · subst hy
        exact Or.inr .refl
      · rcases ih with heq | hreach
        · exact absurd heq hy
        · exact Or.inr (hreach.tail ⟨hin, Function.update_of_ne hy ..⟩)

namespace ErasingWalk

theorem single {a : α} (hnil : ¬inside nil) (hin : inside a) (hlink : next a = nil) :
    ErasingWalk inside nil next a [a] nil := by
  refine .step hin ?_
  rw [hlink]
  exact .stop hnil

/-- A walk that ends never comes back to a link, so it may as well erase them. -/
theorem of_walk {next' : α → α} {a z : α} {l : List α} (h : Walk inside next a l z)
    (hagree : ∀ x ∈ l, next' x = next x) : ErasingWalk inside nil next' a l z := by
  induction h generalizing next' with
  | stop hout => exact .stop hout
  | @step a l z hin hw ih =>
      have hnot : a ∉ l := (List.nodup_cons.mp (Walk.step hin hw).nodup).1
      refine .step hin ?_
      rw [hagree a (List.mem_cons_self ..)]
      refine ih fun x hx => ?_
      have hxa : x ≠ a := fun heq => hnot (heq ▸ hx)
      rw [Function.update_of_ne hxa, hagree x (List.mem_cons_of_mem _ hx)]

theorem not_inside_end {a z : α} {l : List α} (h : ErasingWalk inside nil next a l z) :
    ¬inside z := by
  induction h with
  | stop hout => exact hout
  | step _ _ ih => exact ih

theorem inside_of_mem {a z : α} {l : List α} (h : ErasingWalk inside nil next a l z) :
    ∀ x ∈ l, inside x := by
  induction h with
  | stop _ => intro x hx; cases hx
  | step hin _ ih =>
      intro x hx
      rcases List.mem_cons.mp hx with rfl | hx'
      · exact hin
      · exact ih x hx'

/-- **The loop ends from every start.** Each round but the last erases a link, so
it visits at most one node more than there are links to erase. -/
theorem exists_le (hnil : ¬inside nil) : ∀ (s : Finset α) {next : α → α},
    (∀ x, inside x → next x ≠ nil → x ∈ s) → ∀ a, ∃ l z,
      ErasingWalk inside nil next a l z ∧ l.length ≤ s.card + 1 := by
  intro s
  induction hn : s.card generalizing s with
  | zero =>
      intro next hs a
      obtain rfl := Finset.card_eq_zero.mp hn
      by_cases hin : inside a
      · have hlink : next a = nil := by
          by_contra hne
          exact absurd (hs a hin hne) (Finset.notMem_empty a)
        exact ⟨[a], nil, .single hnil hin hlink, Nat.le_refl _⟩
      · exact ⟨[], a, .stop hin, Nat.zero_le _⟩
  | succ n ih =>
      intro next hs a
      by_cases hin : inside a
      · by_cases hlink : next a = nil
        · exact ⟨[a], nil, .single hnil hin hlink, Nat.le_add_left ..⟩
        · have ha : a ∈ s := hs a hin hlink
          have hcard : (s.erase a).card = n := by
            rw [Finset.card_erase_of_mem ha, hn]
            rfl
          have hrest : ∀ x, inside x → Function.update next a nil x ≠ nil → x ∈ s.erase a := by
            intro x hx hne
            have hxa : x ≠ a := fun heq => hne (heq ▸ Function.update_self ..)
            rw [Function.update_of_ne hxa] at hne
            exact Finset.mem_erase.mpr ⟨hxa, hs x hx hne⟩
          obtain ⟨l, z, hw, hlen⟩ := ih (s.erase a) hcard hrest (next a)
          exact ⟨a :: l, z, .step hin hw, Nat.succ_le_succ hlen⟩
      · exact ⟨[], a, .stop hin, Nat.zero_le _⟩

/-- Every node that the links at the start lead to is visited, or is the end. -/
theorem mem_or_eq_of_links {a z x : α} {l : List α} (h : ErasingWalk inside nil next a l z)
    (hr : ReflTransGen (Link inside next) a x) : x ∈ l ∨ x = z := by
  induction h with
  | stop hout =>
      rcases ReflTransGen.cases_head hr with rfl | ⟨b, hab, _⟩
      · exact Or.inr rfl
      · exact absurd hab.1 hout
  | step _ _ ih =>
      rcases links_update_of_links hr with rfl | hrest
      · exact Or.inl (List.mem_cons_self ..)
      · exact (ih hrest).imp (List.mem_cons_of_mem _) id

/-- The loop stops at a node that the links at the start lead to, or at `nil`. -/
theorem links_or_eq_nil {a z : α} {l : List α} (hnil : ¬inside nil)
    (h : ErasingWalk inside nil next a l z) :
    ReflTransGen (Link inside next) a z ∨ z = nil := by
  induction h with
  | stop _ => exact Or.inl .refl
  | step hin _ ih =>
      rcases ih with hreach | rfl
      · exact (links_of_update hnil hreach).imp (.head ⟨hin, rfl⟩) id
      · exact Or.inr rfl

end ErasingWalk

end FirstKernel
