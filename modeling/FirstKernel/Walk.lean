import Mathlib.Data.Fintype.Card
import Mathlib.Logic.Relation

/-!
# Walks along a function

A `while` loop that follows links: start at `a`, and as long as the
current node is `inside`, visit it and go on to `next` of it. `Walk`
relates a start to the nodes such a loop visits and to the first node
outside, where it stops; a loop that runs for ever is related to
nothing.

The link function does not change during the walk, so a node visited
twice would be visited for ever: a walk that ends is repetition free
(`Walk.nodup`), hence at most as long as the type is large
(`Walk.length_le`), and every walk from the same start is the same
walk (`Walk.unique`). Two link functions that agree on the visited
nodes have the same walk (`Walk.congr`), which is the frame rule for
updates of links that are not on the walk.
-/

namespace FirstKernel

variable {α : Type*} {inside : α → Prop} {next next' : α → α}

/-- The loop started at `a` visits the nodes `l`, in order, and stops at `z`. -/
inductive Walk (inside : α → Prop) (next : α → α) : α → List α → α → Prop
  | stop {a : α} (h : ¬inside a) : Walk inside next a [] a
  | step {a : α} {l : List α} {z : α} (h : inside a)
      (hw : Walk inside next (next a) l z) : Walk inside next a (a :: l) z

/-- One link of a walk: from an inside node to the node it points at. -/
def Link (inside : α → Prop) (next : α → α) (a b : α) : Prop :=
  inside a ∧ next a = b

namespace Walk

theorem single {a z : α} (ha : inside a) (hn : next a = z) (hz : ¬inside z) :
    Walk inside next a [a] z := by
  subst hn
  exact .step ha (.stop hz)

theorem inside_of_mem {a z : α} {l : List α} (h : Walk inside next a l z) :
    ∀ x ∈ l, inside x := by
  induction h with
  | stop _ => intro x hx; cases hx
  | step ha _ ih =>
      intro x hx
      rcases List.mem_cons.mp hx with rfl | hx'
      · exact ha
      · exact ih x hx'

theorem not_inside_end {a z : α} {l : List α} (h : Walk inside next a l z) :
    ¬inside z := by
  induction h with
  | stop h => exact h
  | step _ _ ih => exact ih

/-- The loop is deterministic. -/
theorem unique {a z z' : α} {l l' : List α} (h : Walk inside next a l z)
    (h' : Walk inside next a l' z') : l = l' ∧ z = z' := by
  induction h generalizing l' with
  | stop hout =>
      cases h' with
      | stop _ => exact ⟨rfl, rfl⟩
      | step hin _ => exact absurd hin hout
  | step hin _ ih =>
      cases h' with
      | stop hout => exact absurd hin hout
      | step _ hw' =>
          obtain ⟨hl, hz⟩ := ih hw'
          exact ⟨by rw [hl], hz⟩

/-- From every visited node the loop would visit a final part of the walk. -/
theorem suffix_of_mem {a z x : α} {l : List α} (h : Walk inside next a l z)
    (hx : x ∈ l) : ∃ l', Walk inside next x l' z ∧ l' <:+ l := by
  induction h with
  | stop _ => cases hx
  | @step a l z hin hw ih =>
      rcases List.mem_cons.mp hx with rfl | hx'
      · exact ⟨_, .step hin hw, List.suffix_rfl⟩
      · obtain ⟨l', hw', hsuf⟩ := ih hx'
        exact ⟨l', hw', hsuf.trans (List.suffix_cons a l)⟩

/-- A walk that ends never visits a node twice: the walk from the second
visit would be shorter than itself. -/
theorem nodup {a z : α} {l : List α} (h : Walk inside next a l z) : l.Nodup := by
  induction h with
  | stop _ => exact List.nodup_nil
  | @step a l z hin hw ih =>
      refine List.nodup_cons.mpr ⟨fun ha => ?_, ih⟩
      obtain ⟨l', hw', hsuf⟩ := hw.suffix_of_mem ha
      have heq : a :: l = l' := ((Walk.step hin hw).unique hw').1
      have hle := hsuf.length_le
      rw [← heq, List.length_cons] at hle
      omega

/-- A type with room for `n` values has no longer walks. -/
theorem length_le {n : Nat} {f : α → Fin n} (hf : Function.Injective f) {a z : α}
    {l : List α} (h : Walk inside next a l z) : l.length ≤ n := by
  have hle := (h.nodup.map hf).length_le_card
  rwa [List.length_map, Fintype.card_fin] at hle

/-- Links do not leave the walk before its end. -/
theorem next_mem_or_eq {a x z : α} {l : List α} (h : Walk inside next a l z)
    (hx : x ∈ l) : next x ∈ l ∨ next x = z := by
  induction h with
  | stop _ => cases hx
  | step _ hw ih =>
      rcases List.mem_cons.mp hx with rfl | hx'
      · cases hw with
        | stop _ => exact Or.inr rfl
        | step _ _ => exact Or.inl (List.mem_cons_of_mem _ (List.mem_cons_self ..))
      · exact (ih hx').imp (List.mem_cons_of_mem _) id

/-- **Frame rule.** Links that are not on the walk may change freely. -/
theorem congr {a z : α} {l : List α} (h : Walk inside next a l z)
    (hagree : ∀ x ∈ l, next' x = next x) : Walk inside next' a l z := by
  induction h with
  | stop hout => exact .stop hout
  | @step a l z hin hw ih =>
      refine .step hin ?_
      rw [hagree a (List.mem_cons_self ..)]
      exact ih fun x hx => hagree x (List.mem_cons_of_mem _ hx)

/-- The inside predicate may change off the walk as long as its end stays outside. -/
theorem congr_inside {inside' : α → Prop} {a z : α} {l : List α}
    (h : Walk inside next a l z) (hin : ∀ x ∈ l, inside' x) (hz : ¬inside' z) :
    Walk inside' next a l z := by
  induction h with
  | stop _ => exact .stop hz
  | @step a l z _ hw ih =>
      exact .step (hin a (List.mem_cons_self ..))
        (ih (fun x hx => hin x (List.mem_cons_of_mem _ hx)) hz)

theorem head_mem {a z : α} {l : List α} (h : Walk inside next a l z)
    (ha : inside a) : a ∈ l := by
  cases h with
  | stop hout => exact absurd ha hout
  | step _ _ => exact List.mem_cons_self ..

/-- Every node that links lead to from the start is visited, or is the end. -/
theorem mem_or_eq_of_links {a x z : α} {l : List α} (h : Walk inside next a l z)
    (hr : Relation.ReflTransGen (Link inside next) a x) : x ∈ l ∨ x = z := by
  induction h with
  | stop hout =>
      rcases Relation.ReflTransGen.cases_head hr with rfl | ⟨b, hab, _⟩
      · exact Or.inr rfl
      · exact absurd hab.1 hout
  | @step a l z hin hw ih =>
      rcases Relation.ReflTransGen.cases_head hr with rfl | ⟨b, hab, hb⟩
      · exact Or.inl (List.mem_cons_self ..)
      · obtain rfl := hab.2
        exact (ih hb).imp (List.mem_cons_of_mem _) id

theorem links_of_mem {a x z : α} {l : List α} (h : Walk inside next a l z)
    (hx : x ∈ l) : Relation.ReflTransGen (Link inside next) a x := by
  induction h with
  | stop _ => cases hx
  | step hin _ ih =>
      rcases List.mem_cons.mp hx with rfl | hx'
      · exact .refl
      · exact .head ⟨hin, rfl⟩ (ih hx')

theorem links_end {a z : α} {l : List α} (h : Walk inside next a l z) :
    Relation.ReflTransGen (Link inside next) a z := by
  induction h with
  | stop _ => exact .refl
  | step hin _ ih => exact .head ⟨hin, rfl⟩ ih

/-- The visited nodes are the inside nodes that links lead to. -/
theorem mem_iff {a x z : α} {l : List α} (h : Walk inside next a l z) :
    x ∈ l ↔ inside x ∧ Relation.ReflTransGen (Link inside next) a x := by
  refine ⟨fun hx => ⟨h.inside_of_mem x hx, h.links_of_mem hx⟩, fun ⟨hin, hr⟩ => ?_⟩
  rcases h.mem_or_eq_of_links hr with hx | rfl
  · exact hx
  · exact absurd hin h.not_inside_end

/-- A walk that ends meets no node that links lead back to. -/
theorem acyclic {a z x : α} {l : List α} (h : Walk inside next a l z)
    (hr : Relation.ReflTransGen (Link inside next) a x) :
    ¬Relation.TransGen (Link inside next) x x := by
  intro hcycle
  obtain ⟨b, hxb, hback⟩ := Relation.TransGen.head'_iff.mp hcycle
  obtain ⟨hin, rfl⟩ := hxb
  obtain ⟨l', hw, -⟩ := h.suffix_of_mem (h.mem_iff.mpr ⟨hin, hr⟩)
  cases hw with
  | stop hout => exact hout hin
  | step _ hrest =>
      have hnodup := (Walk.step hin hrest).nodup
      rcases hrest.mem_or_eq_of_links hback with hmem | rfl
      · exact (List.nodup_cons.mp hnodup).1 hmem
      · exact hrest.not_inside_end hin

/-- On a finite type a loop that never comes back to a node ends: going on is
well founded. -/
theorem exists_of_acyclic [Finite α] {a : α}
    (hacyclic : ∀ x, Relation.ReflTransGen (Link inside next) a x →
      ¬Relation.TransGen (Link inside next) x x) :
    ∃ l z, Walk inside next a l z := by
  let r : α → α → Prop := fun y x =>
    Relation.ReflTransGen (Link inside next) a x ∧ Relation.TransGen (Link inside next) x y
  have htrans : IsTrans α r := ⟨fun _ _ _ hxy hyz => ⟨hyz.1, hyz.2.trans hxy.2⟩⟩
  have hirrefl : Std.Irrefl r := ⟨fun x hx => hacyclic x hx.1 hx.2⟩
  have hwalk : ∀ x, Relation.ReflTransGen (Link inside next) a x →
      ∃ l z, Walk inside next x l z := by
    intro x
    induction x using (Finite.wellFounded_of_trans_of_irrefl r).induction with
    | h x ih =>
        intro hx
        by_cases hin : inside x
        · have hlink : Link inside next x (next x) := ⟨hin, rfl⟩
          obtain ⟨l, z, hw⟩ := ih (next x) ⟨hx, .single hlink⟩ (hx.tail hlink)
          exact ⟨x :: l, z, .step hin hw⟩
        · exact ⟨[], x, .stop hin⟩
  exact hwalk a .refl

/-- A loop over a finite type ends just when it meets no cycle. -/
theorem exists_iff_acyclic [Finite α] {a : α} :
    (∃ l z, Walk inside next a l z) ↔
      ∀ x, Relation.ReflTransGen (Link inside next) a x →
        ¬Relation.TransGen (Link inside next) x x :=
  ⟨fun ⟨_, _, hw⟩ _ hx => hw.acyclic hx, exists_of_acyclic⟩

end Walk

/-- Links that are not followed may change freely. -/
theorem reflTransGen_link_congr {h k : α}
    (hagree : ∀ x, inside x → Relation.ReflTransGen (Link inside next) h x →
      next' x = next x) :
    Relation.ReflTransGen (Link inside next') h k ↔
      Relation.ReflTransGen (Link inside next) h k := by
  constructor
  · intro hk
    induction hk with
    | refl => exact .refl
    | tail _ hlink ih =>
        obtain ⟨hin, rfl⟩ := hlink
        exact .tail ih ⟨hin, (hagree _ hin ih).symm⟩
  · intro hk
    induction hk with
    | refl => exact .refl
    | tail hpath hlink ih =>
        obtain ⟨hin, rfl⟩ := hlink
        exact .tail ih ⟨hin, hagree _ hin hpath⟩

end FirstKernel
