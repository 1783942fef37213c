import FirstKernel.ErasingWalk
import FirstKernel.Fat16

/-!
# The two chain walks

`cat_file` follows a chain with `get_next_cluster`, which computes the FAT
sector and the byte offset of each link; `remove_file` follows it in one
copy of sector 50 that it zeroes on the way. `catChain` is the `Walk` of
`getNextCluster` (`catChain_eq_ok`), and `freeChain` is the `ErasingWalk`
of the links of sector 50, as long as it stays in it
(`freeChain_of_erasingWalk`, `erasingWalk_of_freeChain`). Where both
loops end they go the same way (`freeChain_of_walk`), because a walk that
ends never comes back to an entry it has zeroed.

The loops part where a link leaves sector 50: `get_next_cluster` goes on
to the next FAT sector, `remove_file` indexes past the end of its buffer
(`freeChain_far`). That this is the only difference is the subject of
`FatSameWalk`.
-/

namespace FirstKernel

/-- The link of a cluster as sector 50 has it; clusters from 256 on have none there. -/
def Sector.link (b : Sector) (c : UInt16) : UInt16 :=
  if h : c.toNat < 256 then b.fatEntry ⟨c.toNat, h⟩ else 0

theorem Sector.link_of_lt (b : Sector) {c : UInt16} (h : c.toNat < 256) :
    b.link c = b.fatEntry ⟨c.toNat, h⟩ := dif_pos h

theorem Sector.fatEntry_setFatEntry_self (b : Sector) (c : Fin 256) (v : UInt16) :
    (b.setFatEntry c v).fatEntry c = v :=
  Buffer.load16_store16 b v _

theorem Sector.fatEntry_setFatEntry_of_ne (b : Sector) {c x : Fin 256} (v : UInt16)
    (h : x ≠ c) : (b.setFatEntry c v).fatEntry x = b.fatEntry x := by
  have hne : x.val ≠ c.val := fun heq => h (Fin.ext heq)
  exact Buffer.load16_store16_of_ne b v _ (by omega)

theorem Sector.link_setFatEntry (b : Sector) {c : UInt16} (h : c.toNat < 256)
    (v x : UInt16) :
    (b.setFatEntry ⟨c.toNat, h⟩ v).link x = if x = c then v else b.link x := by
  by_cases hx : x.toNat < 256
  · rw [Sector.link_of_lt _ hx, Sector.link_of_lt _ hx]
    by_cases hxc : x = c
    · subst hxc
      rw [if_pos rfl, fatEntry_setFatEntry_self]
    · have hne : (⟨x.toNat, hx⟩ : Fin 256) ≠ ⟨c.toNat, h⟩ := fun heq =>
        hxc (UInt16.toNat_inj.mp (Fin.mk.inj heq))
      rw [if_neg hxc, fatEntry_setFatEntry_of_ne b v hne]
  · have hxc : x ≠ c := fun heq => hx (heq ▸ h)
    rw [if_neg hxc, Sector.link, Sector.link, dif_neg hx, dif_neg hx]

/-- Below 256, `get_next_cluster` reads the entry in sector 50. -/
theorem getNextCluster_of_lt (disk : Nat → Sector) {c : UInt16} (h : c.toNat < 256) :
    getNextCluster c disk = (disk 50).link c := by
  have hs : c.toNat * 2 / 512 = 0 := by omega
  have ho : c.toNat * 2 % 512 = 2 * c.toNat := by omega
  simp only [getNextCluster, hs, ho, Nat.add_zero]
  rw [Sector.link_of_lt _ h, Sector.fatEntry, ← Buffer.load16_eq_shift_or]

/-! ## The walk of `cat_file` -/

/-- The string that `cat_file` prints for one cluster. -/
def clusterText (disk : Nat → Sector) (c : UInt16) : Text :=
  (stringAt (List.ofFn (Buffer.set (disk (clusterToSector c)) 511 0))).chars

/-- The state after the loop has visited the clusters `l`. -/
def Fs.afterCat (fs : Fs) (l : List UInt16) : Fs :=
  { fs with
    printed := fs.printed ++ l.map (clusterText fs.disk)
    visited := fs.visited ++ l }

def CatWalk (disk : Nat → Sector) : UInt16 → List UInt16 → UInt16 → Prop :=
  Walk InChain (getNextCluster · disk)

theorem walk_length_lt_chainFuel {next : UInt16 → UInt16} {inside : UInt16 → Prop}
    {a z : UInt16} {l : List UInt16} (h : Walk inside next a l z) :
    l.length < chainFuel := by
  have hinj : Function.Injective UInt16.toFin := fun x y hxy => UInt16.toFin_inj.mp hxy
  rw [chainFuel]
  exact Nat.lt_succ_of_le (h.length_le hinj)

@[simp] theorem afterCat_nil (fs : Fs) : fs.afterCat [] = fs := by
  simp [Fs.afterCat]

theorem afterCat_afterCat (fs : Fs) (l l' : List UInt16) :
    (fs.afterCat l).afterCat l' = fs.afterCat (l ++ l') := by
  simp [Fs.afterCat]

theorem catChain_stop {fuel : Nat} {a : UInt16} {fs : Fs} (h : ¬InChain a) :
    catChain (fuel + 1) a fs = .ok fs := by
  rw [catChain, if_neg h]

theorem catChain_step {fuel : Nat} {a : UInt16} {fs : Fs} (h : InChain a) :
    catChain (fuel + 1) a fs
      = catChain fuel (getNextCluster a fs.disk) (fs.afterCat [a]) := by
  rw [catChain, if_pos h]
  rfl

theorem catChain_of_walk {disk : Nat → Sector} {a z : UInt16} {l : List UInt16}
    (h : CatWalk disk a l z) :
    ∀ (fuel : Nat) (fs : Fs), fs.disk = disk → l.length < fuel →
      catChain fuel a fs = .ok (fs.afterCat l) := by
  induction h with
  | stop hout =>
      intro fuel fs _ hlt
      obtain ⟨fuel, rfl⟩ : ∃ n, fuel = n + 1 := ⟨fuel - 1, by omega⟩
      rw [catChain_stop hout, afterCat_nil]
  | @step a l z hin _ ih =>
      intro fuel fs hd hlt
      obtain ⟨fuel, rfl⟩ : ∃ n, fuel = n + 1 := ⟨fuel - 1, by omega⟩
      rw [List.length_cons] at hlt
      subst hd
      rw [catChain_step hin, ih fuel (fs.afterCat [a]) rfl (by omega), afterCat_afterCat]
      rfl

theorem walk_of_catChain : ∀ {fuel : Nat} {a : UInt16} {fs fs' : Fs},
    catChain fuel a fs = .ok fs' → ∃ l z, CatWalk fs.disk a l z
  | 0, _, _, _, h => by cases h
  | fuel + 1, a, fs, fs', h => by
      rw [catChain] at h
      split at h
      · next hin =>
          obtain ⟨l, z, hw⟩ := walk_of_catChain h
          exact ⟨a :: l, z, .step hin hw⟩
      · next hout => exact ⟨[], a, .stop hout⟩

/-- **`catChain` is the walk.** It returns exactly when the walk ends, and then
has printed and visited the clusters on it. -/
theorem catChain_eq_ok (a : UInt16) (fs fs' : Fs) :
    catChain chainFuel a fs = .ok fs' ↔
      ∃ l z, CatWalk fs.disk a l z ∧ fs' = fs.afterCat l := by
  constructor
  · intro h
    obtain ⟨l, z, hw⟩ := walk_of_catChain h
    have heq := catChain_of_walk hw chainFuel fs rfl (walk_length_lt_chainFuel hw)
    exact ⟨l, z, hw, Except.ok.inj (h.symm.trans heq)⟩
  · rintro ⟨l, z, hw, rfl⟩
    exact catChain_of_walk hw chainFuel fs rfl (walk_length_lt_chainFuel hw)

/-! ## The walk of `remove_file` -/

theorem freeChain_stop {fuel : Nat} {a : UInt16} {fat : Sector} (h : ¬InChain a) :
    freeChain (fuel + 1) a fat = .ok ([], fat) := by
  rw [freeChain, if_neg h]

theorem freeChain_step {fuel : Nat} {a : UInt16} {fat : Sector} (hin : InChain a)
    (ha : a.toNat < 256) :
    freeChain (fuel + 1) a fat =
      match freeChain fuel (fat.link a) (fat.setFatEntry ⟨a.toNat, ha⟩ 0) with
      | .ok (visited, fat') => .ok (a :: visited, fat')
      | .error e => .error e := by
  rw [Sector.link_of_lt fat ha]
  exact (if_pos hin).trans (dif_pos ha)

theorem freeChain_far {fuel : Nat} {a : UInt16} {fat : Sector} (hin : InChain a)
    (ha : ¬a.toNat < 256) :
    freeChain (fuel + 1) a fat = .error (.outOfRange a.toNat) := by
  rw [freeChain, if_pos hin, dif_neg ha]

/-- The clusters whose links the loop has in its buffer. -/
def InSector50 (c : UInt16) : Prop := 2 ≤ c.toNat ∧ c.toNat < 256

theorem not_inSector50_zero : ¬InSector50 0 := fun h => absurd h.1 (by decide)

theorem InSector50.inChain {c : UInt16} (h : InSector50 c) : InChain c := by
  obtain ⟨h2, h256⟩ := h
  exact ⟨h2, by omega⟩

theorem update_link (fat : Sector) {a : UInt16} (ha : a.toNat < 256) :
    (fat.setFatEntry ⟨a.toNat, ha⟩ 0).link = Function.update fat.link a 0 := by
  funext x
  rw [Sector.link_setFatEntry fat ha, Function.update_apply]

/-- An erasing walk that ends outside the chain is freed in order, each link read
before the walk zeroes it. -/
theorem freeChain_of_erasingWalk {next : UInt16 → UInt16} {a z : UInt16} {l : List UInt16}
    (h : ErasingWalk InSector50 0 next a l z) (hz : ¬InChain z) :
    ∀ {fuel : Nat} {fat : Sector}, fat.link = next → l.length < fuel →
      ∃ fat', freeChain fuel a fat = .ok (l, fat') ∧
        ∀ x, fat'.link x = if x ∈ l then 0 else fat.link x := by
  induction h with
  | stop _ =>
      intro fuel fat _ hlt
      obtain ⟨fuel, rfl⟩ : ∃ n, fuel = n + 1 := ⟨fuel - 1, by omega⟩
      exact ⟨fat, freeChain_stop hz, fun x => by simp⟩
  | @step next a l z hin _ ih =>
      intro fuel fat hnext hlt
      obtain ⟨fuel, rfl⟩ : ∃ n, fuel = n + 1 := ⟨fuel - 1, by omega⟩
      subst hnext
      obtain ⟨fat', hrun, hlink⟩ := ih hz (update_link fat hin.2) (Nat.lt_of_succ_lt_succ hlt)
      refine ⟨fat', by rw [freeChain_step hin.inChain hin.2, hrun], fun x => ?_⟩
      rw [hlink x, Sector.link_setFatEntry fat hin.2]
      by_cases hxa : x = a <;> by_cases hxl : x ∈ l <;> simp [hxa, hxl]

theorem erasingWalk_of_freeChain : ∀ {fuel : Nat} {a : UInt16} {fat fat' : Sector}
    {l : List UInt16}, freeChain fuel a fat = .ok (l, fat') →
      ∃ z, ErasingWalk InSector50 0 fat.link a l z ∧ ¬InChain z
  | 0, _, _, _, _, h => by cases h
  | fuel + 1, a, fat, fat', l, h => by
      by_cases hin : InChain a
      · by_cases ha : a.toNat < 256
        · rw [freeChain_step hin ha] at h
          split at h
          · next visited fat'' hrun =>
              obtain ⟨rfl, rfl⟩ := Prod.mk.inj (Except.ok.inj h)
              obtain ⟨z, hw, hz⟩ := erasingWalk_of_freeChain hrun
              rw [update_link fat ha] at hw
              exact ⟨z, .step ⟨hin.1, ha⟩ hw, hz⟩
          · cases h
        · rw [freeChain_far hin ha] at h
          cases h
      · rw [freeChain_stop hin] at h
        obtain ⟨rfl, rfl⟩ := Prod.mk.inj (Except.ok.inj h)
        exact ⟨a, .stop fun h50 => hin h50.inChain, hin⟩

/-- A chain whose clusters all have their link in sector 50 is freed in order. -/
theorem freeChain_of_walk {next : UInt16 → UInt16} {a z : UInt16} {l : List UInt16}
    (h : Walk InChain next a l z) (fuel : Nat) (fat : Sector)
    (hlt256 : ∀ x ∈ l, x.toNat < 256) (hnext : ∀ x ∈ l, next x = fat.link x)
    (hlt : l.length < fuel) :
    ∃ fat', freeChain fuel a fat = .ok (l, fat') ∧
      ∀ x, fat'.link x = if x ∈ l then 0 else fat.link x := by
  have hz : ¬InChain z := h.not_inside_end
  have hw : Walk InSector50 next a l z :=
    h.congr_inside (fun x hx => ⟨(h.inside_of_mem x hx).1, hlt256 x hx⟩) fun hz50 => hz hz50.inChain
  exact freeChain_of_erasingWalk (.of_walk hw fun x hx => (hnext x hx).symm) hz rfl hlt

theorem freeChain_lt {fuel : Nat} {a : UInt16} {fat fat' : Sector} {l : List UInt16}
    (h : freeChain fuel a fat = .ok (l, fat')) : ∀ x ∈ l, x.toNat < 256 := by
  obtain ⟨z, hw, -⟩ := erasingWalk_of_freeChain h
  exact fun x hx => (hw.inside_of_mem x hx).2

end FirstKernel
