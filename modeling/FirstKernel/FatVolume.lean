import FirstKernel.FatChain
import FirstKernel.Forest

/-!
# Well-formed volumes

What a disk says when it is read as a volume. `Live` entries are the
slots in use before the first `0x00` slot of a directory sector, the
directories are what sector 68 reaches through entries with attribute
`0x10`, and a `Chain` is a walk through sector 50 that stays among the
data clusters 2..255 and ends in an end mark. `WellFormed` is the
invariant of the file system.

`forestOf` reads the same disk as a `Forest`, and `WellFormed.sound`
connects the two: in a well-formed volume the live entries own disjoint
sets of allocated clusters. `wellFormed_of_sound` goes back, so the
file system operations only have to be shown to be the `Alloc` and
`Prune` transitions of the forest.
-/

namespace FirstKernel

open Relation

/-- The data clusters, whose links sector 50 holds. -/
def InData (c : UInt16) : Prop := 2 ≤ c.toNat ∧ c.toNat ≤ 255

instance (c : UInt16) : Decidable (InData c) :=
  inferInstanceAs (Decidable (_ ∧ _))

theorem InData.lt {c : UInt16} (h : InData c) : c.toNat < 256 := by
  have := h.2
  omega

theorem InData.inChain {c : UInt16} (h : InData c) : InChain c := by
  obtain ⟨h1, h2⟩ := h
  exact ⟨h1, by omega⟩

theorem not_inData_zero : ¬InData 0 := by decide

/-! ## Entries -/

/-- The directory sector of cluster `d`, the root directory for 0. -/
def dir (disk : Nat → Sector) (d : UInt16) : Sector := disk (dirSector d)

/-- Slot `i` holds a live entry: it is not deleted, and neither it nor a slot
before it is unused. -/
def Live (b : Sector) (i : Slot) : Prop :=
  b.name i 0 ≠ 0xE5 ∧ ∀ j ≤ i, b.name j 0 ≠ 0x00

instance (b : Sector) (i : Slot) : Decidable (Live b i) :=
  inferInstanceAs (Decidable (_ ∧ _))

/-- No slot after an unused slot is in use. -/
def Tidy (b : Sector) : Prop :=
  ∀ i j : Slot, i < j → b.name i 0 = 0x00 → b.name j 0 = 0x00

/-- The disk as a forest: blocks are clusters, and 0 stands for the root. -/
def forestOf (disk : Nat → Sector) : Forest UInt16 Slot where
  root := 0
  entry d i :=
    if Live (dir disk d) i then
      some ⟨(dir disk d).clusterLow i, decide ((dir disk d).attributes i = 0x10)⟩
    else none
  Owns h k := InData k ∧ ReflTransGen (Link InData (disk 50).link) h k
  Free c := InData c ∧ (disk 50).link c = 0

/-- Directory `d` is the root or reached from it through live entries with
attribute `0x10`. -/
def Reachable (disk : Nat → Sector) (d : UInt16) : Prop := (forestOf disk).Reachable d

def LiveEntry (disk : Nat → Sector) (d : UInt16) (i : Slot) : Prop :=
  Reachable disk d ∧ Live (dir disk d) i

/-- `entries[i].cluster_low` of directory `d` -/
def headOf (disk : Nat → Sector) (d : UInt16) (i : Slot) : UInt16 :=
  (dir disk d).clusterLow i

/-- The FAT chain from cluster `h`: the clusters `l`, all in 2..255, and an end
mark after the last. That the walk ends makes it acyclic (`Walk.nodup`). -/
def Chain (disk : Nat → Sector) (h : UInt16) (l : List UInt16) : Prop :=
  InData h ∧ ∃ z, Walk InData (disk 50).link h l z ∧ 0xFFF8 ≤ z.toNat

structure WellFormed (fs : Fs) : Prop where
  chains : ∀ d i, LiveEntry fs.disk d i → ∃ l, Chain fs.disk (headOf fs.disk d i) l
  disjoint : ∀ d i d' i' l l', LiveEntry fs.disk d i → LiveEntry fs.disk d' i' →
    Chain fs.disk (headOf fs.disk d i) l → Chain fs.disk (headOf fs.disk d' i') l' →
    (d, i) ≠ (d', i') → l.Disjoint l'
  tidy : ∀ d, Reachable fs.disk d → Tidy (dir fs.disk d)
  cwd : Reachable fs.disk fs.currentDirCluster

/-! ## The disk as a forest -/

theorem entry_eq_some {disk : Nat → Sector} {d : UInt16} {i : Slot}
    {e : Entry UInt16} :
    (forestOf disk).entry d i = some e ↔ Live (dir disk d) i ∧
      e = ⟨headOf disk d i, decide ((dir disk d).attributes i = 0x10)⟩ := by
  simp only [forestOf, headOf]
  split
  · next h => simp [h, eq_comm]
  · next h => simp [h]

theorem entry_eq_none {disk : Nat → Sector} {d : UInt16} {i : Slot} :
    (forestOf disk).entry d i = none ↔ ¬Live (dir disk d) i := by
  simp [forestOf]

theorem LiveEntry.live {disk : Nat → Sector} {d : UInt16} {i : Slot}
    (h : LiveEntry disk d i) : (forestOf disk).Live d i
      ⟨headOf disk d i, decide ((dir disk d).attributes i = 0x10)⟩ :=
  ⟨h.1, entry_eq_some.mpr ⟨h.2, rfl⟩⟩

theorem liveEntry_of_live {disk : Nat → Sector} {d : UInt16} {i : Slot}
    {e : Entry UInt16} (h : (forestOf disk).Live d i e) :
    LiveEntry disk d i ∧ e.head = headOf disk d i := by
  obtain ⟨hlive, rfl⟩ := entry_eq_some.mp h.2
  exact ⟨⟨h.1, hlive⟩, rfl⟩

/-- The clusters on a chain are what its head owns. -/
theorem Chain.mem_iff {disk : Nat → Sector} {h : UInt16} {l : List UInt16}
    (hc : Chain disk h l) (x : UInt16) : x ∈ l ↔ (forestOf disk).Owns h x := by
  obtain ⟨-, z, hw, -⟩ := hc
  exact hw.mem_iff

theorem Chain.unique {disk : Nat → Sector} {h : UInt16} {l l' : List UInt16}
    (hc : Chain disk h l) (hc' : Chain disk h l') : l = l' := by
  obtain ⟨-, z, hw, -⟩ := hc
  obtain ⟨-, z', hw', -⟩ := hc'
  exact (hw.unique hw').1

theorem Chain.head_mem {disk : Nat → Sector} {h : UInt16} {l : List UInt16}
    (hc : Chain disk h l) : h ∈ l := by
  obtain ⟨hin, z, hw, -⟩ := hc
  exact hw.head_mem hin

theorem Chain.inData {disk : Nat → Sector} {h : UInt16} {l : List UInt16}
    (hc : Chain disk h l) : ∀ x ∈ l, InData x := by
  obtain ⟨-, z, hw, -⟩ := hc
  exact hw.inside_of_mem

/-- No cluster on a chain is marked free. -/
theorem Chain.link_ne_zero {disk : Nat → Sector} {h : UInt16} {l : List UInt16}
    (hc : Chain disk h l) {x : UInt16} (hx : x ∈ l) : (disk 50).link x ≠ 0 := by
  obtain ⟨-, z, hw, hz⟩ := hc
  intro h0
  rcases hw.next_mem_or_eq hx with hmem | heq
  · rw [h0] at hmem
    exact not_inData_zero (hw.inside_of_mem 0 hmem)
  · rw [← heq, h0] at hz
    exact absurd hz (by decide)

/-- A chain only depends on the links of its own clusters. -/
theorem Chain.congr {disk disk' : Nat → Sector} {h : UInt16} {l : List UInt16}
    (hc : Chain disk h l) (hagree : ∀ x ∈ l, (disk' 50).link x = (disk 50).link x) :
    Chain disk' h l := by
  obtain ⟨hin, z, hw, hz⟩ := hc
  exact ⟨hin, z, hw.congr hagree, hz⟩

/-- Both walks of the source go along a chain. -/
theorem Chain.walk {disk : Nat → Sector} {h : UInt16} {l : List UInt16}
    (hc : Chain disk h l) : ∃ z, Walk InChain (disk 50).link h l z := by
  obtain ⟨-, z, hw, hz⟩ := hc
  refine ⟨z, hw.congr_inside (fun x hx => (hw.inside_of_mem x hx).inChain) ?_⟩
  rintro ⟨-, hlt⟩
  omega

theorem Chain.catWalk {disk : Nat → Sector} {h : UInt16} {l : List UInt16}
    (hc : Chain disk h l) : ∃ z, CatWalk disk h l z := by
  obtain ⟨z, hw⟩ := hc.walk
  exact ⟨z, hw.congr fun x hx => getNextCluster_of_lt disk (hc.inData x hx).lt⟩

theorem WellFormed.sound {fs : Fs} (h : WellFormed fs) : (forestOf fs.disk).Sound where
  owns_head := by
    intro d i e he
    obtain ⟨hlive, hhead⟩ := liveEntry_of_live he
    obtain ⟨l, hc⟩ := h.chains d i hlive
    rw [hhead]
    exact ⟨hc.1, .refl⟩
  owned_used := by
    intro d i e k he hown hfree
    obtain ⟨hlive, hhead⟩ := liveEntry_of_live he
    obtain ⟨l, hc⟩ := h.chains d i hlive
    rw [hhead] at hown
    exact hc.link_ne_zero ((hc.mem_iff k).mpr hown) hfree.2
  disjoint := by
    intro d i e d' i' e' k he he' hown hown'
    obtain ⟨hlive, hhead⟩ := liveEntry_of_live he
    obtain ⟨hlive', hhead'⟩ := liveEntry_of_live he'
    obtain ⟨l, hc⟩ := h.chains d i hlive
    obtain ⟨l', hc'⟩ := h.chains d' i' hlive'
    rw [hhead] at hown
    rw [hhead'] at hown'
    by_contra hne
    have hdis := h.disjoint d i d' i' l l' hlive hlive' hc hc'
      fun heq => hne (Prod.mk.inj heq)
    exact hdis ((hc.mem_iff k).mpr hown) ((hc'.mem_iff k).mpr hown')
  root_used := fun hfree => not_inData_zero hfree.1
  root_unowned := fun _ hown => not_inData_zero hown.1

theorem wellFormed_of_sound {fs : Fs} (hs : (forestOf fs.disk).Sound)
    (hchains : ∀ d i, LiveEntry fs.disk d i → ∃ l, Chain fs.disk (headOf fs.disk d i) l)
    (htidy : ∀ d, Reachable fs.disk d → Tidy (dir fs.disk d))
    (hcwd : Reachable fs.disk fs.currentDirCluster) : WellFormed fs where
  chains := hchains
  disjoint := by
    intro d i d' i' l l' hlive hlive' hc hc' hne x hx hx'
    obtain ⟨rfl, rfl⟩ := hs.disjoint hlive.live hlive'.live ((hc.mem_iff x).mp hx)
      ((hc'.mem_iff x).mp hx')
    exact hne rfl
  tidy := htidy
  cwd := hcwd

/-! ## Facts about well-formed volumes -/

theorem WellFormed.not_free_of_reachable {fs : Fs} (h : WellFormed fs) {d : UInt16}
    (hd : Reachable fs.disk d) : ¬(forestOf fs.disk).Free d :=
  h.sound.reachable_used hd

end FirstKernel
