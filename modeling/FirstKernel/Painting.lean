import Mathlib.Logic.Function.Basic

/-!
# Painting

Drawing code stores into a memory `ι → β` cell by cell, loop in loop. What
a piece of it does is said by a region and a picture: it stores what the
picture has at the cells of the region, and leaves the others
(`Paints`). Pieces that draw one picture compose to their regions' union,
so a loop is described by what its rounds paint (`Paints.foldl`).
-/

namespace FirstKernel

variable {ι β κ : Type*}

/-- `draw` stores `picture` at the cells of `region`, and nothing else. -/
def Paints (region : ι → Prop) (picture : ι → β) (draw : (ι → β) → ι → β) : Prop :=
  ∀ mem i, (region i → draw mem i = picture i) ∧ (¬region i → draw mem i = mem i)

namespace Paints

variable {region region' : ι → Prop} {picture picture' : ι → β}
  {draw draw' : (ι → β) → ι → β}

theorem nothing : Paints (fun _ => False) picture fun mem : ι → β => mem :=
  fun _ _ => ⟨False.elim, fun _ => rfl⟩

theorem update [DecidableEq ι] (picture : ι → β) (i : ι) :
    Paints (fun j => j = i) picture fun mem => Function.update mem i (picture i) := by
  intro mem j
  refine ⟨fun h => ?_, fun h => Function.update_of_ne h _ _⟩
  subst h
  exact Function.update_self ..

theorem comp (h : Paints region picture draw) (h' : Paints region' picture draw') :
    Paints (fun i => region i ∨ region' i) picture fun mem => draw' (draw mem) := by
  intro mem i
  obtain ⟨hin, hout⟩ := h mem i
  obtain ⟨hin', hout'⟩ := h' (draw mem) i
  refine ⟨fun hor => ?_, fun hnor => ?_⟩
  · by_cases hi : region' i
    · exact hin' hi
    · exact (hout' hi).trans (hin (hor.resolve_right hi))
  · rw [not_or] at hnor
    exact (hout' hnor.2).trans (hout hnor.1)

theorem of_iff (h : Paints region picture draw) (hiff : ∀ i, region i ↔ region' i) :
    Paints region' picture draw :=
  fun mem i => ⟨fun hi => (h mem i).1 ((hiff i).mpr hi),
    fun hi => (h mem i).2 fun hr => hi ((hiff i).mp hr)⟩

/-- Only the picture inside the region matters. -/
theorem of_eqOn (h : Paints region picture draw)
    (heq : ∀ i, region i → picture i = picture' i) : Paints region picture' draw :=
  fun mem i => ⟨fun hi => ((h mem i).1 hi).trans (heq i hi), (h mem i).2⟩

/-- What has been painted is a memory just when the picture has it in the region, and it
was there outside. -/
theorem eq_iff (h : Paints region picture draw) (mem mem' : ι → β) :
    draw mem = mem' ↔
      (∀ i, region i → picture i = mem' i) ∧ ∀ i, ¬region i → mem i = mem' i := by
  constructor
  · intro heq
    exact ⟨fun i hi => ((h mem i).1 hi).symm.trans (congrFun heq i),
      fun i hi => ((h mem i).2 hi).symm.trans (congrFun heq i)⟩
  · rintro ⟨hin, hout⟩
    funext i
    by_cases hi : region i
    · exact ((h mem i).1 hi).trans (hin i hi)
    · exact ((h mem i).2 hi).trans (hout i hi)

/-- The rounds of a loop paint together what each of them paints. -/
theorem foldl {body : κ → (ι → β) → ι → β} {regions : κ → ι → Prop} : ∀ {rounds : List κ},
    (∀ k ∈ rounds, Paints (regions k) picture (body k)) →
    Paints (fun i => ∃ k ∈ rounds, regions k i) picture
      fun mem => rounds.foldl (fun mem k => body k mem) mem
  | [], _ => nothing.of_iff fun i => iff_of_false id fun ⟨_, hmem, _⟩ => List.not_mem_nil hmem
  | k :: rounds, h => by
      have hk := h k (List.mem_cons_self ..)
      have hrest := foldl fun k' hk' => h k' (List.mem_cons_of_mem k hk')
      refine (hk.comp hrest).of_iff fun i => ?_
      simp only [List.mem_cons, exists_eq_or_imp]

end Paints

end FirstKernel
