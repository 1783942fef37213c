import Mathlib.Algebra.BigOperators.Group.Finset.Basic
import Mathlib.Data.Fintype.Prod
import Mathlib.Logic.Relation

/-!
# Directory forests over a pool of blocks

The abstract picture behind a hierarchical volume, over arbitrary types
`K` of blocks and `S` of directory slots. Some blocks are directories:
`entry d s` is what slot `s` of directory `d` holds. An entry names its
`head` block and owns every block that `Owns` relates to the head; the
`Free` blocks are owned by nobody.

Only what the root reaches through directory entries counts (`Live`):
a block may hold stale bytes that look like a directory, and the bytes
of a file may look like anything. `Sound` says that the live entries own
pairwise disjoint sets of blocks in use.

Two transitions are enough for every file system operation. `Alloc`
turns a free block into the sole block of a new leaf (or, with no entry,
into a block lost for ever), `Prune` unlinks one entry and frees what it
owns - and only that, so the contents of a pruned directory become
unreachable while their blocks stay in use. Each is made of a step of
the tree alone (`Insert`, `Unlink`), which is what an interrupted
operation may leave behind, and of the matching change of ownership.

Both keep `Sound` (`Alloc.sound`, `Prune.sound`); that no block is lost
(`Conserved`) is kept by an `Alloc` with an entry and by a `Prune` of a
leaf (`Alloc.conserved`, `Prune.conserved`), and is an equation between
numbers of blocks (`Conserved.card_free_add`).
-/

namespace FirstKernel

open Relation

/-- What a directory slot in use says: the first block of the entry, and
whether that block is a directory in turn. -/
structure Entry (K : Type*) where
  head : K
  isDir : Bool

structure Forest (K S : Type*) where
  root : K
  entry : K → S → Option (Entry K)
  /-- `Owns h k`: an entry with head `h` owns block `k`. -/
  Owns : K → K → Prop
  Free : K → Prop

/-- The last node of a path need not be left again on the way: cut the path
at its first arrival. -/
theorem reflTransGen_avoiding_end {α : Type*} {r : α → α → Prop} {a x : α}
    (h : ReflTransGen r a x) : ReflTransGen (fun u v => r u v ∧ u ≠ x) a x := by
  induction h using ReflTransGen.head_induction_on with
  | refl => exact .refl
  | @head a b hab _ ih =>
      by_cases hax : a = x
      · rw [hax]
      · exact .head ⟨hab, hax⟩ ih

namespace Forest

variable {K S : Type*} {f f' : Forest K S}

def Subdir (f : Forest K S) (d d' : K) : Prop :=
  ∃ s e, f.entry d s = some e ∧ e.isDir = true ∧ e.head = d'

/-- The directories the root reaches, itself included. -/
def Reachable (f : Forest K S) (d : K) : Prop :=
  ReflTransGen f.Subdir f.root d

def Live (f : Forest K S) (d : K) (s : S) (e : Entry K) : Prop :=
  f.Reachable d ∧ f.entry d s = some e

structure Sound (f : Forest K S) : Prop where
  owns_head : ∀ {d s e}, f.Live d s e → f.Owns e.head e.head
  owned_used : ∀ {d s e k}, f.Live d s e → f.Owns e.head k → ¬f.Free k
  disjoint : ∀ {d s e d' s' e' k}, f.Live d s e → f.Live d' s' e' →
    f.Owns e.head k → f.Owns e'.head k → d = d' ∧ s = s'
  root_used : ¬f.Free f.root
  root_unowned : ∀ {d s e}, f.Live d s e → ¬f.Owns e.head f.root

/-- No block of the pool is lost: it is free or some live entry owns it. -/
def Conserved (f : Forest K S) (pool : Finset K) : Prop :=
  ∀ k ∈ pool, ¬f.Free k → ∃ d s e, f.Live d s e ∧ f.Owns e.head k

/-! ## Reachability -/

theorem reachable_root (f : Forest K S) : f.Reachable f.root := .refl

theorem Live.reachable_head {d : K} {s : S} {e : Entry K} (h : f.Live d s e)
    (hdir : e.isDir = true) : f.Reachable e.head :=
  .tail h.1 ⟨s, e, h.2, hdir, rfl⟩

theorem reachable_cases {x : K} (h : f.Reachable x) :
    x = f.root ∨ ∃ d s e, f.Live d s e ∧ e.isDir = true ∧ e.head = x := by
  rcases ReflTransGen.cases_tail h with rfl | ⟨d, hd, s, e, he, hdir, hx⟩
  · exact Or.inl rfl
  · exact Or.inr ⟨d, s, e, ⟨hd, he⟩, hdir, hx⟩

theorem Sound.reachable_used (hs : f.Sound) {x : K} (h : f.Reachable x) :
    ¬f.Free x := by
  rcases reachable_cases h with rfl | ⟨d, s, e, hlive, -, rfl⟩
  · exact hs.root_used
  · exact hs.owned_used hlive (hs.owns_head hlive)

theorem reachable_eq_root_of_empty (h : ∀ s, f.entry f.root s = none) {x : K}
    (hx : f.Reachable x) : x = f.root := by
  induction hx with
  | refl => rfl
  | tail _ hsub ih =>
      obtain ⟨s, e, he, -⟩ := hsub
      rw [ih, h s] at he
      cases he

/-! ## Paths

The way to a directory, as the slots it leads through, last slot first. -/

inductive Path (f : Forest K S) : K → List (K × S) → Prop
  | root : Path f f.root []
  | sub {x : K} {edges : List (K × S)} {s : S} {e : Entry K}
      (hp : Path f x edges) (he : f.entry x s = some e) (hdir : e.isDir = true) :
      Path f e.head ((x, s) :: edges)

theorem Path.reachable {x : K} {edges : List (K × S)} (h : f.Path x edges) :
    f.Reachable x := by
  induction h with
  | root => exact f.reachable_root
  | sub _ he hdir ih => exact Live.reachable_head ⟨ih, he⟩ hdir

theorem Reachable.exists_path {x : K} (h : f.Reachable x) :
    ∃ edges, f.Path x edges := by
  induction h with
  | refl => exact ⟨[], .root⟩
  | tail _ hsub ih =>
      obtain ⟨edges, hp⟩ := ih
      obtain ⟨s, e, he, hdir, rfl⟩ := hsub
      exact ⟨_, .sub hp he hdir⟩

/-- Only the empty path leads to the root, which no entry owns. -/
theorem Sound.path_root_iff (hs : f.Sound) {x : K} {edges : List (K × S)} (h : f.Path x edges) :
    x = f.root ↔ edges = [] := by
  cases h with
  | root => exact iff_of_true rfl rfl
  | @sub x edges s e hp he hdir =>
      have hlive : f.Live x s e := ⟨hp.reachable, he⟩
      refine iff_of_false (fun hroot => ?_) (List.cons_ne_nil _ _)
      have hown := hs.owns_head hlive
      rw [hroot] at hown
      exact hs.root_unowned hlive (hroot ▸ hown)

/-! ## Insertion -/

/-- Slot `s` of directory `d` was vacant and now holds `e`, a leaf whose head is
the free block `c`. -/
structure Insert (f f' : Forest K S) (d : K) (s : S) (c : K)
    (e : Option (Entry K)) : Prop where
  reach : f.Reachable d
  free : f.Free c
  root_eq : f'.root = f.root
  head_eq : ∀ a, e = some a → a.head = c
  vacant : f.entry d s = none
  entry_new : f'.entry d s = e
  entry_dir : ∀ t, t ≠ s → f'.entry d t = f.entry d t
  entry_other : ∀ x, x ≠ d → x ≠ c → ∀ t, f'.entry x t = f.entry x t
  entry_head : ∀ a, e = some a → a.isDir = true → ∀ t, f'.entry c t = none

namespace Insert

variable {d c : K} {s : S} {e : Option (Entry K)}

theorem ne_of_reachable (h : Insert f f' d s c e) (hs : f.Sound) {x : K}
    (hx : f.Reachable x) : x ≠ c :=
  fun hxc => hs.reachable_used hx (hxc ▸ h.free)

/-- A directory that was there has its old entries, and the new one. -/
theorem entry_iff (h : Insert f f' d s c e) (hs : f.Sound) {x : K}
    (hx : f.Reachable x) (t : S) (a : Entry K) :
    f'.entry x t = some a ↔
      f.entry x t = some a ∨ (x = d ∧ t = s ∧ e = some a) := by
  have hxc := h.ne_of_reachable hs hx
  by_cases hxd : x = d
  · subst hxd
    by_cases hts : t = s
    · subst hts
      rw [h.entry_new, h.vacant]
      simp
    · rw [h.entry_dir t hts]
      simp [hts]
  · rw [h.entry_other x hxd hxc]
    simp [hxd]

theorem reachable_mono (h : Insert f f' d s c e) (hs : f.Sound) {x : K}
    (hx : f.Reachable x) : f'.Reachable x := by
  induction hx with
  | refl => rw [← h.root_eq]; exact f'.reachable_root
  | tail hy hsub ih =>
      obtain ⟨t, a, ha, hdir, rfl⟩ := hsub
      exact .tail ih ⟨t, a, (h.entry_iff hs hy t a).mpr (Or.inl ha), hdir, rfl⟩

theorem reachable_iff (h : Insert f f' d s c e) (hs : f.Sound) {x : K} :
    f'.Reachable x ↔
      f.Reachable x ∨ (x = c ∧ ∃ a, e = some a ∧ a.isDir = true) := by
  constructor
  · intro hx
    induction hx with
    | refl => rw [h.root_eq]; exact Or.inl f.reachable_root
    | tail _ hsub ih =>
        obtain ⟨t, a, ha, hdir, rfl⟩ := hsub
        rcases ih with hy | ⟨rfl, b, hb, hbdir⟩
        · rcases (h.entry_iff hs hy t a).mp ha with hold | ⟨-, -, hnew⟩
          · exact Or.inl (.tail hy ⟨t, a, hold, hdir, rfl⟩)
          · exact Or.inr ⟨h.head_eq a hnew, a, hnew, hdir⟩
        · rw [h.entry_head b hb hbdir t] at ha
          cases ha
  · rintro (hx | ⟨rfl, a, ha, hdir⟩)
    · exact h.reachable_mono hs hx
    · have hlive : f'.Live d s a :=
        ⟨h.reachable_mono hs h.reach, by rw [h.entry_new, ha]⟩
      have hr := hlive.reachable_head hdir
      rwa [h.head_eq a ha] at hr

theorem live_iff (h : Insert f f' d s c e) (hs : f.Sound) {x : K} {t : S}
    {a : Entry K} :
    f'.Live x t a ↔ f.Live x t a ∨ (x = d ∧ t = s ∧ e = some a) := by
  constructor
  · rintro ⟨hx, ha⟩
    rcases (h.reachable_iff hs).mp hx with hold | ⟨rfl, b, hb, hbdir⟩
    · exact ((h.entry_iff hs hold t a).mp ha).imp (fun h1 => ⟨hold, h1⟩) id
    · rw [h.entry_head b hb hbdir t] at ha
      cases ha
  · rintro (⟨hx, ha⟩ | ⟨rfl, rfl, hnew⟩)
    · exact ⟨h.reachable_mono hs hx, (h.entry_iff hs hx t a).mpr (Or.inl ha)⟩
    · exact ⟨h.reachable_mono hs h.reach, by rw [h.entry_new, hnew]⟩

theorem path (h : Insert f f' d s c e) (hs : f.Sound) {x : K}
    {edges : List (K × S)} (hp : f.Path x edges) : f'.Path x edges := by
  induction hp with
  | root => rw [← h.root_eq]; exact .root
  | sub hp he hdir ih =>
      exact .sub ih ((h.entry_iff hs hp.reachable _ _).mpr (Or.inl he)) hdir

end Insert

/-! ## Allocation -/

/-- An insertion after which `c` is in use, as the only block of the entry. With
`e = none` the block is taken although no entry names it. -/
structure Alloc (f f' : Forest K S) (d : K) (s : S) (c : K)
    (e : Option (Entry K)) : Prop extends Insert f f' d s c e where
  owns_new : ∀ k, f'.Owns c k ↔ k = c
  owns_old : ∀ h, ¬f.Owns h c → ∀ k, f'.Owns h k ↔ f.Owns h k
  free_iff : ∀ k, f'.Free k ↔ f.Free k ∧ k ≠ c

namespace Alloc

variable {d c : K} {s : S} {e : Option (Entry K)}

/-- The free block was on no live entry's chain, so those chains are as before. -/
theorem owns_iff_of_live (h : Alloc f f' d s c e) (hs : f.Sound) {x : K} {t : S}
    {a : Entry K} (ha : f.Live x t a) (k : K) :
    f'.Owns a.head k ↔ f.Owns a.head k :=
  h.owns_old a.head (fun hc => hs.owned_used ha hc h.free) k

theorem sound (h : Alloc f f' d s c e) (hs : f.Sound) : f'.Sound where
  owns_head := by
    intro x t a ha
    rcases (h.live_iff hs).mp ha with hold | ⟨rfl, rfl, hnew⟩
    · exact (h.owns_iff_of_live hs hold _).mpr (hs.owns_head hold)
    · rw [h.head_eq a hnew, h.owns_new]
  owned_used := by
    intro x t a k ha hk hfree
    obtain ⟨hfree', hkc⟩ := (h.free_iff k).mp hfree
    rcases (h.live_iff hs).mp ha with hold | ⟨rfl, rfl, hnew⟩
    · exact hs.owned_used hold ((h.owns_iff_of_live hs hold k).mp hk) hfree'
    · rw [h.head_eq a hnew, h.owns_new] at hk
      exact hkc hk
  disjoint := by
    intro x t a x' t' a' k ha ha' hk hk'
    rcases (h.live_iff hs).mp ha with hold | ⟨rfl, rfl, hnew⟩ <;>
      rcases (h.live_iff hs).mp ha' with hold' | ⟨rfl, rfl, hnew'⟩
    · exact hs.disjoint hold hold' ((h.owns_iff_of_live hs hold k).mp hk)
        ((h.owns_iff_of_live hs hold' k).mp hk')
    · -- an old entry cannot own the block that was free
      rw [h.head_eq a' hnew', h.owns_new] at hk'
      exact absurd h.free
        (hs.owned_used hold (hk' ▸ (h.owns_iff_of_live hs hold k).mp hk))
    · rw [h.head_eq a hnew, h.owns_new] at hk
      exact absurd h.free
        (hs.owned_used hold' (hk ▸ (h.owns_iff_of_live hs hold' k).mp hk'))
    · exact ⟨rfl, rfl⟩
  root_used := by
    rw [h.root_eq, h.free_iff]
    exact fun hfree => hs.root_used hfree.1
  root_unowned := by
    intro x t a ha
    rw [h.root_eq]
    rcases (h.live_iff hs).mp ha with hold | ⟨rfl, rfl, hnew⟩
    · rw [h.owns_iff_of_live hs hold]
      exact hs.root_unowned hold
    · rw [h.head_eq a hnew, h.owns_new]
      exact h.ne_of_reachable hs f.reachable_root

theorem conserved (h : Alloc f f' d s c e) (hs : f.Sound) {pool : Finset K}
    (hc : f.Conserved pool) (he : e.isSome) : f'.Conserved pool := by
  obtain ⟨a, rfl⟩ := Option.isSome_iff_exists.mp he
  intro k hk hused
  by_cases hkc : k = c
  · subst hkc
    refine ⟨d, s, a, (h.live_iff hs).mpr (Or.inr ⟨rfl, rfl, rfl⟩), ?_⟩
    rw [h.head_eq a rfl, h.owns_new]
  · have hused' : ¬f.Free k := fun hf => hused ((h.free_iff k).mpr ⟨hf, hkc⟩)
    obtain ⟨x, t, b, hb, hown⟩ := hc k hk hused'
    exact ⟨x, t, b, (h.live_iff hs).mpr (Or.inl hb),
      (h.owns_iff_of_live hs hb k).mpr hown⟩

end Alloc

/-! ## Unlinking -/

/-- The live entry `e` in slot `s` of directory `d` is gone, and no other slot has
changed. -/
structure Unlink (f f' : Forest K S) (d : K) (s : S) (e : Entry K) : Prop where
  live : f.Live d s e
  root_eq : f'.root = f.root
  entry_gone : f'.entry d s = none
  entry_dir : ∀ t, t ≠ s → f'.entry d t = f.entry d t
  entry_other : ∀ x, x ≠ d → ∀ t, f'.entry x t = f.entry x t

namespace Unlink

variable {d : K} {s : S} {e : Entry K}

theorem entry_iff (h : Unlink f f' d s e) (x : K) (t : S) (a : Entry K) :
    f'.entry x t = some a ↔ f.entry x t = some a ∧ ¬(x = d ∧ t = s) := by
  by_cases hxd : x = d
  · subst hxd
    by_cases hts : t = s
    · subst hts
      rw [h.entry_gone]
      simp
    · rw [h.entry_dir t hts]
      simp [hts]
  · rw [h.entry_other x hxd]
    simp [hxd]

theorem reachable_of (h : Unlink f f' d s e) {x : K} (hx : f'.Reachable x) :
    f.Reachable x := by
  induction hx with
  | refl => rw [h.root_eq]; exact f.reachable_root
  | tail _ hsub ih =>
      obtain ⟨t, a, ha, hdir, rfl⟩ := hsub
      exact .tail ih ⟨t, a, ((h.entry_iff _ t a).mp ha).1, hdir, rfl⟩

theorem live_of (h : Unlink f f' d s e) {x : K} {t : S} {a : Entry K}
    (ha : f'.Live x t a) : f.Live x t a ∧ ¬(x = d ∧ t = s) :=
  ⟨⟨h.reachable_of ha.1, ((h.entry_iff x t a).mp ha.2).1⟩,
    ((h.entry_iff x t a).mp ha.2).2⟩

/-- The directory an entry is pruned from stays reachable: the way to it, cut at
the first arrival, uses no slot of it. -/
theorem reachable_dir (h : Unlink f f' d s e) : f'.Reachable d := by
  have hstay : (fun u v => f.Subdir u v ∧ u ≠ d) ≤ f'.Subdir := by
    rintro u v ⟨⟨t, a, ha, hdir, hv⟩, hud⟩
    exact ⟨t, a, (h.entry_iff u t a).mpr ⟨ha, fun hc => hud hc.1⟩, hdir, hv⟩
  have hr := ReflTransGen.mono hstay _ _ (reflTransGen_avoiding_end h.live.1)
  rwa [← h.root_eq] at hr

theorem path (h : Unlink f f' d s e) {x : K} {edges : List (K × S)}
    (hp : f.Path x edges) (hmem : (d, s) ∉ edges) : f'.Path x edges := by
  induction hp with
  | root => rw [← h.root_eq]; exact .root
  | @sub x edges t a hp he hdir ih =>
      rw [List.mem_cons, not_or] at hmem
      refine .sub (ih hmem.2) ((h.entry_iff x t a).mpr ⟨he, ?_⟩) hdir
      rintro ⟨rfl, rfl⟩
      exact hmem.1 rfl

/-- Pruning an entry that is not a directory with contents makes nothing else
unreachable. -/
theorem reachable_or_eq (h : Unlink f f' d s e)
    (hleaf : e.isDir = true → ∀ t, f.entry e.head t = none) {x : K}
    (hx : f.Reachable x) : f'.Reachable x ∨ (e.isDir = true ∧ x = e.head) := by
  induction hx with
  | refl => rw [← h.root_eq]; exact Or.inl f'.reachable_root
  | @tail y z _ hsub ih =>
      obtain ⟨t, a, ha, hdir, rfl⟩ := hsub
      rcases ih with hy | ⟨hed, rfl⟩
      · by_cases hds : y = d ∧ t = s
        · obtain ⟨rfl, rfl⟩ := hds
          obtain rfl : a = e := Option.some.inj (ha.symm.trans h.live.2)
          exact Or.inr ⟨hdir, rfl⟩
        · exact Or.inl (.tail hy ⟨t, a, (h.entry_iff y t a).mpr ⟨ha, hds⟩, hdir, rfl⟩)
      · rw [hleaf hed t] at ha
        cases ha

end Unlink

/-! ## Pruning -/

/-- An unlinking that frees what the entry owned, and nothing else: the blocks
below a pruned directory stay in use. -/
structure Prune (f f' : Forest K S) (d : K) (s : S) (e : Entry K) : Prop
    extends Unlink f f' d s e where
  owns_old : ∀ h, (∀ k, f.Owns h k → ¬f.Owns e.head k) →
    ∀ k, f'.Owns h k ↔ f.Owns h k
  free_iff : ∀ k, f'.Free k ↔ f.Free k ∨ f.Owns e.head k

namespace Prune

variable {d : K} {s : S} {e : Entry K}

/-- Other live entries own what they owned: their chains do not meet the freed one. -/
theorem owns_iff_of_live (h : Prune f f' d s e) (hs : f.Sound) {x : K} {t : S}
    {a : Entry K} (ha : f.Live x t a) (hne : ¬(x = d ∧ t = s)) (k : K) :
    f'.Owns a.head k ↔ f.Owns a.head k :=
  h.owns_old a.head
    (fun _ hk hk' => hne (hs.disjoint ha h.live hk hk')) k

theorem sound (h : Prune f f' d s e) (hs : f.Sound) : f'.Sound where
  owns_head := by
    intro x t a ha
    obtain ⟨hold, hne⟩ := h.live_of ha
    exact (h.owns_iff_of_live hs hold hne _).mpr (hs.owns_head hold)
  owned_used := by
    intro x t a k ha hk hfree
    obtain ⟨hold, hne⟩ := h.live_of ha
    have hk' := (h.owns_iff_of_live hs hold hne k).mp hk
    rcases (h.free_iff k).mp hfree with hf | ho
    · exact hs.owned_used hold hk' hf
    · exact hne (hs.disjoint hold h.live hk' ho)
  disjoint := by
    intro x t a x' t' a' k ha ha' hk hk'
    obtain ⟨hold, hne⟩ := h.live_of ha
    obtain ⟨hold', hne'⟩ := h.live_of ha'
    exact hs.disjoint hold hold' ((h.owns_iff_of_live hs hold hne k).mp hk)
      ((h.owns_iff_of_live hs hold' hne' k).mp hk')
  root_used := by
    rw [h.root_eq, h.free_iff]
    rintro (hf | ho)
    · exact hs.root_used hf
    · exact hs.root_unowned h.live ho
  root_unowned := by
    intro x t a ha
    obtain ⟨hold, hne⟩ := h.live_of ha
    rw [h.root_eq, h.owns_iff_of_live hs hold hne]
    exact hs.root_unowned hold

theorem conserved (h : Prune f f' d s e) (hs : f.Sound) {pool : Finset K}
    (hc : f.Conserved pool)
    (hleaf : e.isDir = true → ∀ t, f.entry e.head t = none) :
    f'.Conserved pool := by
  intro k hk hused
  rw [h.free_iff, not_or] at hused
  obtain ⟨x, t, a, ha, hown⟩ := hc k hk hused.1
  have hne : ¬(x = d ∧ t = s) := by
    rintro ⟨rfl, rfl⟩
    obtain rfl : a = e := Option.some.inj (ha.2.symm.trans h.live.2)
    exact hused.2 hown
  have hx : f'.Reachable x := by
    rcases h.reachable_or_eq hleaf ha.1 with hx | ⟨hed, rfl⟩
    · exact hx
    · have hnone := hleaf hed t
      rw [ha.2] at hnone
      cases hnone
  exact ⟨x, t, a, ⟨hx, (h.entry_iff x t a).mpr ⟨ha.2, hne⟩⟩,
    (h.owns_iff_of_live hs ha hne k).mpr hown⟩

end Prune

/-! ## Counting blocks -/

open Classical in
/-- The slots of the reachable directories that hold an entry. -/
@[irreducible] noncomputable def liveSlots [Fintype K] [Fintype S] (f : Forest K S) :
    Finset (K × S) :=
  {p | ∃ e, f.Live p.1 p.2 e}

theorem mem_liveSlots [Fintype K] [Fintype S] {p : K × S} :
    p ∈ f.liveSlots ↔ ∃ e, f.Live p.1 p.2 e := by
  unfold liveSlots
  simp

/-- **Conservation.** When nothing is lost, the blocks of the pool are the free
ones together with the pairwise disjoint sets that the live entries own, so
their numbers add up. -/
theorem Conserved.card_free_add [Fintype K] [Fintype S] {pool : Finset K}
    (hc : f.Conserved pool) (hs : f.Sound) (owned : K × S → Finset K)
    (howned : ∀ d s e, f.Live d s e → ∀ k, k ∈ owned (d, s) ↔ f.Owns e.head k)
    (hpool : ∀ d s e k, f.Live d s e → f.Owns e.head k → k ∈ pool)
    [DecidablePred f.Free] :
    (pool.filter f.Free).card + ∑ p ∈ f.liveSlots, (owned p).card
      = pool.card := by
  classical
  have hlive : ∀ p ∈ f.liveSlots, ∃ e, f.Live p.1 p.2 e := fun p hp =>
    mem_liveSlots.mp hp
  have hdisj : ∀ p ∈ f.liveSlots, ∀ q ∈ f.liveSlots, p ≠ q →
      Disjoint (owned p) (owned q) := by
    intro p hp q hq hpq
    obtain ⟨e, he⟩ := hlive p hp
    obtain ⟨e', he'⟩ := hlive q hq
    refine Finset.disjoint_left.mpr fun k hk hk' => hpq ?_
    obtain ⟨h1, h2⟩ := hs.disjoint he he' ((howned _ _ e he k).mp hk)
      ((howned _ _ e' he' k).mp hk')
    exact Prod.ext h1 h2
  have hused : pool.filter (fun k => ¬f.Free k) = f.liveSlots.biUnion owned := by
    ext k
    rw [Finset.mem_filter, Finset.mem_biUnion]
    constructor
    · rintro ⟨hk, hnf⟩
      obtain ⟨d, s, e, he, hown⟩ := hc k hk hnf
      exact ⟨(d, s), mem_liveSlots.mpr ⟨e, he⟩, (howned d s e he k).mpr hown⟩
    · rintro ⟨p, hp, hk⟩
      obtain ⟨e, he⟩ := hlive p hp
      have hown := (howned _ _ e he k).mp hk
      exact ⟨hpool _ _ e k he hown, hs.owned_used he hown⟩
  rw [← Finset.card_biUnion hdisj, ← hused]
  exact Finset.card_filter_add_card_filter_not f.Free

end Forest

end FirstKernel
