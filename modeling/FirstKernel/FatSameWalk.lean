import FirstKernel.FatOps

/-!
# Reading and deleting along the same chain

`cat_file` and `remove_file` started on one entry of an arbitrary disk.
As long as the links of sector 50 stay below 256 the two walks visit the
same clusters in the same order, and exactly their FAT entries are
zeroed. A link to 256 or beyond is where they part: `get_next_cluster`
turns to the next FAT sector, while `remove_file` indexes its copy of
sector 50 past the end (`removeFile_ok_lt`).
-/

namespace FirstKernel

open Relation

/-- Following the links of sector 50 from `start` never meets a number that is
neither an index of that sector nor an end mark. -/
def StaysInSector50 (disk : Nat → Sector) (start : UInt16) : Prop :=
  ∀ c, ReflTransGen (Link (fun c => 2 ≤ c.toNat ∧ c.toNat < 256) (disk 50).link) start c →
    c.toNat < 256 ∨ 0xFFF8 ≤ c.toNat

/-- `remove_file` returns, having visited the clusters that `cat_file` visited
and zeroed exactly their entries. -/
def SameWalk (filename : CString) (fs fsCat : Fs) : Prop :=
  ∃ fsRm l, removeFile filename fs = .ok fsRm ∧
    fsCat.visited = fs.visited ++ l ∧ fsRm.visited = fs.visited ++ l ∧
    ∀ c : UInt16, c.toNat < 256 →
      (fsRm.disk 50).link c = if c ∈ l then 0 else (fs.disk 50).link c

theorem staysInSector50_of_lt {disk : Nat → Sector} {a z : UInt16} {l : List UInt16}
    (hw : CatWalk disk a l z) (hlt : ∀ x ∈ l, x.toNat < 256) :
    StaysInSector50 disk a := by
  intro c hc
  have hsub : Link (fun c => 2 ≤ c.toNat ∧ c.toNat < 256) (disk 50).link
      ≤ Link InChain (getNextCluster · disk) := by
    rintro x y ⟨⟨h2, h256⟩, rfl⟩
    exact ⟨⟨h2, by omega⟩, getNextCluster_of_lt disk h256⟩
  rcases hw.mem_or_eq_of_links (ReflTransGen.mono hsub _ _ hc) with hmem | rfl
  · exact Or.inl (hlt c hmem)
  · have hout := hw.not_inside_end
    simp only [InChain] at hout
    omega

theorem lt_of_staysInSector50 {disk : Nat → Sector} {a z : UInt16} {l : List UInt16}
    (hw : CatWalk disk a l z) (hstay : StaysInSector50 disk a) :
    ∀ x ∈ l, x.toNat < 256 := by
  induction hw with
  | stop _ => intro x hx; cases hx
  | @step a l z hin _ ih =>
      have ha : a.toNat < 256 := by
        rcases hstay a .refl with h | h
        · exact h
        · have := hin.2
          omega
      have hlink := getNextCluster_of_lt disk ha
      intro x hx
      rcases List.mem_cons.mp hx with rfl | hx'
      · exact ha
      · refine ih (fun c hc => hstay c (.head ⟨⟨hin.1, ha⟩, hlink.symm⟩ hc)) x hx'

/-- Every cluster `remove_file` visits is an index of its buffer. -/
theorem removeFile_ok_lt {filename : CString} {fs fs' : Fs} {i : Slot} {l : List UInt16}
    (hlook : lookup filename fs = some i)
    (hstart : 2 ≤ ((readCurrentDirectory fs).clusterLow i).toNat)
    (hrun : removeFile filename fs = .ok fs') (hvis : fs'.visited = fs.visited ++ l) :
    ∀ x ∈ l, x.toNat < 256 := by
  rw [removeFile_some hlook hstart] at hrun
  split at hrun
  · next visited fat' hchain =>
      obtain rfl := Except.ok.inj hrun
      obtain rfl : visited = l := List.append_cancel_left hvis
      exact freeChain_lt hchain
  · cases hrun

/-- **The two walks agree exactly below 256.** -/
theorem removeFile_follows_catFile_iff {filename : CString} {fs fsCat : Fs} {i : Slot}
    (hlook : lookup filename fs = some i)
    (hstart : 2 ≤ ((readCurrentDirectory fs).clusterLow i).toNat)
    (hcat : catFile filename fs = .ok fsCat) :
    SameWalk filename fs fsCat ↔
      StaysInSector50 fs.disk ((readCurrentDirectory fs).clusterLow i) := by
  obtain ⟨l, z, hw, rfl⟩ := (catFile_some hlook).mp hcat
  constructor
  · rintro ⟨fsRm, l', hrm, hvisCat, hvisRm, -⟩
    obtain rfl : l = l' := List.append_cancel_left hvisCat
    exact staysInSector50_of_lt hw (removeFile_ok_lt hlook hstart hrm hvisRm)
  · intro hstay
    have hlt := lt_of_staysInSector50 hw hstay
    have hw50 : Walk InChain (fs.disk 50).link _ l z :=
      hw.congr fun x hx => (getNextCluster_of_lt fs.disk (hlt x hx)).symm
    obtain ⟨fat', hfat, hrm⟩ := removeFile_of_walk hlook hstart hw50 hlt
    refine ⟨_, l, hrm, rfl, rfl, fun c _ => ?_⟩
    rw [← hfat c]
    exact congrArg (Sector.link · c) (removeWrites_fat fs i fat' fs.disk)

theorem slot_pos : 0 < 16 := Nat.succ_pos 15

/-- Sector 50 with one more link. -/
def Sector.withLink (fat : Sector) (link : UInt16 × UInt16) : Sector :=
  if h : link.1.toNat < 256 then fat.setFatEntry ⟨link.1.toNat, h⟩ link.2 else fat

/-- A disk whose root directory has one file, with these links and these data in its
first cluster. -/
def oneFileFs (start : UInt16) (size : UInt32) (links : List (UInt16 × UInt16))
    (data : Sector) : Fs where
  disk lba :=
    if lba = 68 then
      Sector.fillEntry (Buffer.zeros 512) ⟨0, slot_pos⟩ (fatName strA strTxt).bytes size 0x20 start
    else if lba = 50 then links.foldl Sector.withLink (Buffer.zeros 512)
    else if lba = clusterToSector start then data
    else Buffer.zeros 512
  currentDirCluster := 0
  writes := []
  printed := []
  visited := []

/-- A file in clusters 2 and 255. -/
def splitFs : Fs := oneFileFs 2 1 [(2, 255), (255, 0xFFFF)] (Buffer.zeros 512)

/-- The file is deleted along the chain it was read along. -/
theorem removeFile_follows_catFile_splitFs :
    ∃ fsCat, catFile strA splitFs = .ok fsCat ∧ fsCat.visited = [2, 255] ∧
      SameWalk strA splitFs fsCat := by
  have hlook : lookup strA splitFs = some 0 := by decide +kernel
  have hhead : (readCurrentDirectory splitFs).clusterLow 0 = 2 := by decide +kernel
  have hnext2 : getNextCluster 2 splitFs.disk = 255 := by decide +kernel
  have hnext255 : getNextCluster 255 splitFs.disk = 0xFFFF := by decide +kernel
  have hw : CatWalk splitFs.disk ((readCurrentDirectory splitFs).clusterLow 0) [2, 255]
      0xFFFF := by
    rw [hhead]
    refine .step (by decide) ?_
    rw [hnext2]
    exact .single (by decide) hnext255 (by decide)
  have hcat := (catFile_some hlook).mpr ⟨[2, 255], _, hw, rfl⟩
  refine ⟨_, hcat, rfl,
    (removeFile_follows_catFile_iff hlook (by rw [hhead]; decide) hcat).mpr ?_⟩
  refine staysInSector50_of_lt hw fun c hc => ?_
  simp only [List.mem_cons, List.not_mem_nil, or_false] at hc
  rcases hc with rfl | rfl <;> decide

/-- A disk whose root directory has one file at cluster 256, of one cluster: its
end mark is the first entry of sector 51. -/
def farFs : Fs where
  disk lba :=
    if lba = 68 then
      Sector.fillEntry (Buffer.zeros 512) 0 (fatName strA strTxt).bytes 1 0x20 256
    else if lba = 51 then Sector.setFatEntry (Buffer.zeros 512) 0 0xFFFF
    else Buffer.zeros 512
  currentDirCluster := 0
  writes := []
  printed := []
  visited := []

/-- `cat_file` reads cluster 256, which `remove_file` cannot visit. -/
theorem not_sameWalk_farFs :
    ∃ i fsCat, lookup strA farFs = some i ∧
      2 ≤ ((readCurrentDirectory farFs).clusterLow i).toNat ∧
      catFile strA farFs = .ok fsCat ∧ ¬SameWalk strA farFs fsCat := by
  have hlook : lookup strA farFs = some 0 := by decide +kernel
  have hhead : (readCurrentDirectory farFs).clusterLow 0 = 256 := by decide +kernel
  have hnext : getNextCluster 256 farFs.disk = 0xFFFF := by decide +kernel
  have hw : CatWalk farFs.disk ((readCurrentDirectory farFs).clusterLow 0)
      [256] 0xFFFF := by
    rw [hhead]
    exact .single (by decide) hnext (by decide)
  have hstart : 2 ≤ ((readCurrentDirectory farFs).clusterLow 0).toNat := by
    rw [hhead]; decide
  refine ⟨0, _, hlook, hstart, (catFile_some hlook).mpr ⟨[256], _, hw, rfl⟩, ?_⟩
  rintro ⟨fsRm, l, hrm, hvisCat, hvisRm, -⟩
  obtain rfl : [256] = l := List.append_cancel_left hvisCat
  exact absurd (removeFile_ok_lt hlook hstart hrm hvisRm 256 (by simp)) (by decide)

end FirstKernel
