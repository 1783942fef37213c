import FirstKernel.Forest

/-!
# Directories by their paths

A directory of a forest is what the slots on the way from the root lead to
(`dirAt`); the last slot comes first. In a sound forest there is one way
to each directory (`Sound.dirAt_inj`). An insertion adds at most one path,
and what is unlinked goes with everything below it.
-/

namespace FirstKernel

namespace Forest

variable {K S : Type*} {f f' : Forest K S}

/-- The directory at the end of a path. -/
def dirAt (f : Forest K S) : List S → Option K
  | [] => some f.root
  | s :: p =>
      match f.dirAt p with
      | none => none
      | some d =>
          match f.entry d s with
          | none => none
          | some e => if e.isDir then some e.head else none

theorem dirAt_nil (f : Forest K S) : f.dirAt [] = some f.root := rfl

theorem dirAt_cons {s : S} {p : List S} {x : K} :
    f.dirAt (s :: p) = some x ↔
      ∃ d e, f.dirAt p = some d ∧ f.entry d s = some e ∧ e.isDir = true ∧ e.head = x := by
  constructor
  · intro h
    rw [dirAt] at h
    split at h
    · cases h
    · next d hd =>
        split at h
        · cases h
        · next e he =>
            split at h
            · next hdir => exact ⟨d, e, hd, he, hdir, Option.some.inj h⟩
            · cases h
  · rintro ⟨d, e, hd, he, hdir, rfl⟩
    rw [dirAt, hd]
    simp only [he, if_pos hdir]

theorem reachable_of_dirAt : ∀ {p : List S} {x : K}, f.dirAt p = some x → f.Reachable x
  | [], _, h => Option.some.inj h ▸ f.reachable_root
  | _ :: _, _, h => by
      obtain ⟨d, e, hd, he, hdir, rfl⟩ := dirAt_cons.mp h
      exact Live.reachable_head ⟨reachable_of_dirAt hd, he⟩ hdir

theorem Reachable.exists_dirAt {x : K} (h : f.Reachable x) : ∃ p, f.dirAt p = some x := by
  induction h with
  | refl => exact ⟨[], rfl⟩
  | tail _ hsub ih =>
      obtain ⟨p, hp⟩ := ih
      obtain ⟨s, e, he, hdir, rfl⟩ := hsub
      exact ⟨s :: p, dirAt_cons.mpr ⟨_, e, hp, he, hdir, rfl⟩⟩

/-- A path to a directory ends in an entry that owns it, so it does not lead to the root. -/
theorem Sound.dirAt_cons_ne_root (hs : f.Sound) {s : S} {p : List S} :
    f.dirAt (s :: p) ≠ some f.root := by
  intro h
  obtain ⟨d, e, hd, he, -, hroot⟩ := dirAt_cons.mp h
  have hlive : f.Live d s e := ⟨reachable_of_dirAt hd, he⟩
  have hown := hs.owns_head hlive
  rw [hroot] at hown
  exact hs.root_unowned hlive (hroot ▸ hown)

/-- **One way to each directory.** -/
theorem Sound.dirAt_inj (hs : f.Sound) : ∀ {p q : List S} {x : K},
    f.dirAt p = some x → f.dirAt q = some x → p = q
  | [], [], _, _, _ => rfl
  | [], _ :: _, _, hp, hq => absurd (hq.trans hp.symm) hs.dirAt_cons_ne_root
  | _ :: _, [], _, hp, hq => absurd (hp.trans hq.symm) hs.dirAt_cons_ne_root
  | s :: p, t :: q, _, hp, hq => by
      obtain ⟨d, e, hd, he, hdir, rfl⟩ := dirAt_cons.mp hp
      obtain ⟨d', e', hd', he', -, hhead⟩ := dirAt_cons.mp hq
      have hlive : f.Live d s e := ⟨reachable_of_dirAt hd, he⟩
      have hlive' : f.Live d' t e' := ⟨reachable_of_dirAt hd', he'⟩
      obtain ⟨rfl, rfl⟩ := hs.disjoint hlive hlive' (hs.owns_head hlive)
        (hhead ▸ hs.owns_head hlive')
      rw [hs.dirAt_inj hd hd']

/-- The one new path is that of the inserted entry. -/
theorem Insert.dirAt_iff {d c : K} {s : S} {e : Option (Entry K)} (h : Insert f f' d s c e)
    (hs : f.Sound) {p : List S} (hp : f.dirAt p = some d) : ∀ {q : List S} {x : K},
    f'.dirAt q = some x ↔
      f.dirAt q = some x ∨ (q = s :: p ∧ x = c ∧ ∃ a, e = some a ∧ a.isDir = true)
  | [], x => by
      rw [dirAt_nil, dirAt_nil, h.root_eq]
      exact (or_iff_left fun hq => List.cons_ne_nil _ _ hq.1.symm).symm
  | t :: q, x => by
      rw [dirAt_cons, dirAt_cons]
      constructor
      · rintro ⟨y, a, hy, ha, hdir, rfl⟩
        rcases (h.dirAt_iff hs hp).mp hy with hold | ⟨-, rfl, b, hb, hbdir⟩
        · rcases (h.entry_iff hs (reachable_of_dirAt hold) t a).mp ha with hent | ⟨rfl, rfl, hnew⟩
          · exact Or.inl ⟨y, a, hold, hent, hdir, rfl⟩
          · rw [hs.dirAt_inj hold hp]
            exact Or.inr ⟨rfl, h.head_eq a hnew, a, hnew, hdir⟩
        · rw [h.entry_head b hb hbdir t] at ha
          cases ha
      · rintro (⟨y, a, hy, ha, hdir, rfl⟩ | ⟨heq, rfl, a, ha, hdir⟩)
        · exact ⟨y, a, (h.dirAt_iff hs hp).mpr (Or.inl hy),
            (h.entry_iff hs (reachable_of_dirAt hy) t a).mpr (Or.inl ha), hdir, rfl⟩
        · obtain ⟨rfl, rfl⟩ := List.cons_eq_cons.mp heq
          exact ⟨d, a, (h.dirAt_iff hs hp).mpr (Or.inl hp), h.entry_new.trans ha, hdir,
            h.head_eq a ha⟩

/-- The paths that are gone are those through the unlinked entry. -/
theorem Unlink.dirAt_iff {d : K} {s : S} {e : Entry K} (h : Unlink f f' d s e) (hs : f.Sound)
    {p : List S} (hp : f.dirAt p = some d) : ∀ {q : List S} {x : K},
    f'.dirAt q = some x ↔ f.dirAt q = some x ∧ ¬(s :: p) <:+ q
  | [], x => by
      rw [dirAt_nil, dirAt_nil, h.root_eq]
      exact (and_iff_left fun hq => List.cons_ne_nil _ _ (List.suffix_nil.mp hq)).symm
  | t :: q, x => by
      rw [dirAt_cons, dirAt_cons, List.suffix_cons_iff, not_or]
      constructor
      · rintro ⟨y, a, hy, ha, hdir, rfl⟩
        obtain ⟨hold, hq⟩ := (h.dirAt_iff hs hp).mp hy
        obtain ⟨hent, hne⟩ := (h.entry_iff y t a).mp ha
        refine ⟨⟨y, a, hold, hent, hdir, rfl⟩, fun heq => hne ?_, hq⟩
        obtain ⟨rfl, rfl⟩ := List.cons_eq_cons.mp heq
        exact ⟨Option.some.inj (hold.symm.trans hp), rfl⟩
      · rintro ⟨⟨y, a, hy, ha, hdir, rfl⟩, hne, hq⟩
        refine ⟨y, a, (h.dirAt_iff hs hp).mpr ⟨hy, hq⟩, (h.entry_iff y t a).mpr ⟨ha, ?_⟩, hdir, rfl⟩
        rintro ⟨rfl, rfl⟩
        exact hne (by rw [hs.dirAt_inj hy hp])

end Forest

end FirstKernel
