import FirstKernel.FatSameWalk
import Mathlib.Order.Interval.Finset.Nat

/-!
# Where the chain walks end

The links are whatever the disk holds, so a chain may run in a circle.
`remove_file` zeroes each link on leaving it: its loop is an
`ErasingWalk`, ends on every circle, and returns just when it is not led
out of its copy of sector 50 (`removeFile_endsWithin_iff`). `cat_file`
changes no link, and on a circle prints the same clusters for ever
(`catFile_ends_iff`).
-/

namespace FirstKernel

open Relation

/-- The call returns, and has visited at most `n` clusters. -/
def EndsWithin (n : Nat) (fs : Fs) (r : Except Fault Fs) : Prop :=
  ∃ fs' l, r = .ok fs' ∧ fs'.visited = fs.visited ++ l ∧ l.length ≤ n

/-- Following the links from `start` never comes back to a cluster. -/
def MeetsNoCycle (disk : Nat → Sector) (start : UInt16) : Prop :=
  ∀ c, ReflTransGen (Link InChain (getNextCluster · disk)) start c →
    ¬TransGen (Link InChain (getNextCluster · disk)) c c

instance finite_clusters : Finite UInt16 :=
  Finite.of_injective UInt16.toFin fun _ _ h => UInt16.toFin_inj.mp h

/-- Different clusters of sector 50 are no more than it has entries. -/
theorem length_le_of_nodup {l : List UInt16} (hnodup : l.Nodup)
    (hlt : ∀ x ∈ l, x.toNat < 256) : l.length ≤ 256 := by
  have hsub : l.map UInt16.toNat ⊆ List.range 256 := by
    intro n hn
    obtain ⟨x, hx, rfl⟩ := List.mem_map.mp hn
    exact List.mem_range.mpr (hlt x hx)
  have hle := ((hnodup.map fun _ _ h => UInt16.toNat_inj.mp h).subperm hsub).length_le
  rwa [List.length_map, List.length_range] at hle

/-! ## `cat_file` -/

/-- **`cat_file` returns just when it meets no cycle.** -/
theorem catFile_ends_iff {filename : CString} {fs : Fs} {i : Slot}
    (hlook : lookup filename fs = some i) :
    (∃ fs', catFile filename fs = .ok fs') ↔
      MeetsNoCycle fs.disk ((readCurrentDirectory fs).clusterLow i) := by
  rw [MeetsNoCycle, ← Walk.exists_iff_acyclic]
  constructor
  · rintro ⟨fs', hrun⟩
    obtain ⟨l, z, hw, -⟩ := (catFile_some hlook).mp hrun
    exact ⟨l, z, hw⟩
  · rintro ⟨l, z, hw⟩
    exact ⟨_, (catFile_some hlook).mpr ⟨l, z, hw, rfl⟩⟩

/-! ## `remove_file` -/

theorem not_inChain_or_far {z : UInt16} (hz : ¬InSector50 z) :
    ¬InChain z ↔ z.toNat < 256 ∨ 0xFFF8 ≤ z.toNat := by
  simp only [InSector50, InChain] at hz ⊢
  omega

/-- The loop is led out of its buffer where the chain is. -/
theorem erasingWalk_ends_iff {disk : Nat → Sector} {a z : UInt16} {l : List UInt16}
    (h : ErasingWalk InSector50 0 (disk 50).link a l z) :
    ¬InChain z ↔ StaysInSector50 disk a := by
  rw [not_inChain_or_far h.not_inside_end]
  constructor
  · intro hz c hc
    rcases h.mem_or_eq_of_links hc with hmem | rfl
    · exact Or.inl (h.inside_of_mem c hmem).2
    · exact hz
  · intro hstay
    rcases h.links_or_eq_nil not_inSector50_zero with hreach | rfl
    · exact hstay z hreach
    · exact Or.inl (by decide)

/-- There are 254 links to erase. -/
theorem exists_erasingWalk (fat : Sector) (a : UInt16) :
    ∃ l z, ErasingWalk InSector50 0 fat.link a l z ∧ l.length ≤ 256 := by
  let s : Finset UInt16 := (Finset.Ico 2 256).image UInt16.ofNat
  have hs : ∀ x, InSector50 x → fat.link x ≠ 0 → x ∈ s := fun x hx _ =>
    Finset.mem_image.mpr ⟨x.toNat, Finset.mem_Ico.mpr hx, UInt16.ofNat_toNat⟩
  obtain ⟨l, z, hw, hlen⟩ := ErasingWalk.exists_le not_inSector50_zero s hs a
  have hcard : s.card ≤ 254 := Finset.card_image_le.trans (by simp)
  exact ⟨l, z, hw, by omega⟩

theorem staysInSector50_of_freeChain {disk : Nat → Sector} {fuel : Nat} {a : UInt16}
    {l : List UInt16} {fat' : Sector} (hrun : freeChain fuel a (disk 50) = .ok (l, fat')) :
    StaysInSector50 disk a := by
  obtain ⟨z, hw, hz⟩ := erasingWalk_of_freeChain hrun
  exact (erasingWalk_ends_iff hw).mp hz

theorem freeChain_of_staysInSector50 {disk : Nat → Sector} {a : UInt16}
    (hstay : StaysInSector50 disk a) :
    ∃ l fat', freeChain chainFuel a (disk 50) = .ok (l, fat') ∧ l.length ≤ 256 := by
  obtain ⟨l, z, hw, hlen⟩ := exists_erasingWalk (disk 50) a
  have hfuel : l.length < chainFuel := by
    rw [chainFuel]
    omega
  obtain ⟨fat', hrun, -⟩ := freeChain_of_erasingWalk hw ((erasingWalk_ends_iff hw).mpr hstay)
    rfl hfuel
  exact ⟨l, fat', hrun, hlen⟩

/-- An entry without clusters is only marked as deleted. -/
theorem removeFile_some_of_lt {filename : CString} {fs : Fs} {i : Slot}
    (h : lookup filename fs = some i)
    (hstart : ¬2 ≤ ((readCurrentDirectory fs).clusterLow i).toNat) :
    removeFile filename fs = .ok (printAll (removeReport filename)
      (writeCurrentDirectory ((readCurrentDirectory fs).setName0 i 0xE5) fs)) := by
  unfold removeFile
  rw [h]
  exact if_neg hstart

/-- **`remove_file` returns just when it is not led out of sector 50.** -/
theorem removeFile_endsWithin_iff {filename : CString} {fs : Fs} {i : Slot}
    (hlook : lookup filename fs = some i) :
    EndsWithin 256 fs (removeFile filename fs) ↔
      StaysInSector50 fs.disk ((readCurrentDirectory fs).clusterLow i) := by
  by_cases hstart : 2 ≤ ((readCurrentDirectory fs).clusterLow i).toNat
  · rw [EndsWithin, removeFile_some hlook hstart]
    constructor
    · rintro ⟨fs', l, hrun, -, -⟩
      split at hrun
      · next visited fat' hchain => exact staysInSector50_of_freeChain hchain
      · cases hrun
    · intro hstay
      obtain ⟨l, fat', hchain, hlen⟩ := freeChain_of_staysInSector50 hstay
      rw [hchain]
      exact ⟨_, l, rfl, rfl, hlen⟩
  · rw [removeFile_some_of_lt hlook hstart]
    refine iff_of_true ⟨_, [], rfl, (List.append_nil _).symm, Nat.zero_le _⟩ fun c hc => ?_
    rcases ReflTransGen.cases_head hc with rfl | ⟨b, hab, _⟩
    · exact Or.inl (by omega)
    · exact absurd hab.1.1 hstart

/-! ## Both -/

/-- The chain of the entry, if there is one, is a line in sector 50. -/
def LinearInSector50 (filename : CString) (fs : Fs) : Prop :=
  ∀ i ∈ lookup filename fs,
    StaysInSector50 fs.disk ((readCurrentDirectory fs).clusterLow i) ∧
      MeetsNoCycle fs.disk ((readCurrentDirectory fs).clusterLow i)

/-- A line that stays in sector 50 is read without leaving it. -/
theorem catFile_endsWithin {filename : CString} {fs : Fs} {i : Slot}
    (hlook : lookup filename fs = some i)
    (hstay : StaysInSector50 fs.disk ((readCurrentDirectory fs).clusterLow i))
    (hcycle : MeetsNoCycle fs.disk ((readCurrentDirectory fs).clusterLow i)) :
    EndsWithin 256 fs (catFile filename fs) := by
  obtain ⟨fs', hrun⟩ := (catFile_ends_iff hlook).mpr hcycle
  obtain ⟨l, z, hw, rfl⟩ := (catFile_some hlook).mp hrun
  exact ⟨_, l, hrun, rfl, length_le_of_nodup hw.nodup (lt_of_staysInSector50 hw hstay)⟩

/-- **The chain walks end.** On any disk, from any directory and for any name, both
calls return within as many clusters as sector 50 has entries just when the chain
there is a line in that sector. -/
theorem chainWalks_end_iff (filename : CString) (fs : Fs) :
    (EndsWithin 256 fs (catFile filename fs) ∧ EndsWithin 256 fs (removeFile filename fs)) ↔
      LinearInSector50 filename fs := by
  rw [LinearInSector50]
  cases hlook : lookup filename fs with
  | none =>
      rw [catFile_none hlook, removeFile_none hlook]
      have hends : ∀ message, EndsWithin 256 fs (.ok (print message fs)) := fun message =>
        ⟨_, [], rfl, (List.append_nil _).symm, Nat.zero_le _⟩
      exact iff_of_true ⟨hends _, hends _⟩ fun i hi => by cases hi
  | some i =>
      rw [removeFile_endsWithin_iff hlook]
      constructor
      · rintro ⟨⟨fs', l, hrun, -, -⟩, hstay⟩ j hj
        obtain rfl := Option.some.inj hj
        exact ⟨hstay, (catFile_ends_iff hlook).mp ⟨fs', hrun⟩⟩
      · intro h
        obtain ⟨hstay, hcycle⟩ := h i rfl
        exact ⟨catFile_endsWithin hlook hstay hcycle, hstay⟩

/-- The cluster of the file has itself as the next. -/
def loopFs : Fs := oneFileFs 2 1 [(2, 2)] (Buffer.zeros 512)

/-- `cat_file` prints cluster 2 of it for ever. -/
theorem not_chainWalks_end_loopFs :
    ¬(EndsWithin 256 loopFs (catFile strA loopFs) ∧
      EndsWithin 256 loopFs (removeFile strA loopFs)) := by
  rintro ⟨⟨fs', l, hrun, -, -⟩, -⟩
  have hlook : lookup strA loopFs = some 0 := by decide +kernel
  have hhead : (readCurrentDirectory loopFs).clusterLow 0 = 2 := by decide +kernel
  have hnext : getNextCluster 2 loopFs.disk = 2 := by decide +kernel
  have hmeets := (catFile_ends_iff hlook).mp ⟨fs', hrun⟩
  rw [hhead] at hmeets
  exact hmeets 2 .refl (.single ⟨by decide, hnext⟩)

end FirstKernel
