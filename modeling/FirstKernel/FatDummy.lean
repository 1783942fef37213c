import FirstKernel.FatRuns

/-!
# The dummy file

`create_dummy_file` does not ask what the volume holds: it writes a root
directory with one entry, two data sectors and two links of the FAT. On
a volume whose root has no live entry, which then is all there is, the
result is a well-formed volume with one file of two clusters
(`DummyMade.wellFormed`). Otherwise every entry of the root is gone, and
none of them can be the dummy: entries that the other operations have
made have one cluster each, since those operations only ever free a
cluster or mark it as the end of a chain (`EndsOnly`). So the operation
respects the volume just when the root has no live entry
(`createDummyFile_respects_iff`).
-/

namespace FirstKernel

open Relation

/-- The entry in slot `i` of directory `d` is found again, with the same name,
attributes and data, wherever these are now. -/
def FoundAgain (fs fs' : Fs) (d : UInt16) (i : Slot) : Prop :=
  ∃ d' i' l l', LiveEntry fs'.disk d' i' ∧
    (dir fs'.disk d').name i' = (dir fs.disk d).name i ∧
    (dir fs'.disk d').attributes i' = (dir fs.disk d).attributes i ∧
    Chain fs.disk (headOf fs.disk d i) l ∧ Chain fs'.disk (headOf fs'.disk d' i') l' ∧
    l'.map (fun x => fs'.disk (clusterToSector x)) = l.map fun x => fs.disk (clusterToSector x)

/-- The dummy has been added to the volume and nothing has been lost. -/
structure DummyAdded (fs fs' : Fs) : Prop where
  wellFormed : WellFormed fs'
  cwd_eq : fs'.currentDirCluster = fs.currentDirCluster
  not_cwd : fs.currentDirCluster ≠ 2 ∧ fs.currentDirCluster ≠ 3
  not_shared : ∀ d i l, LiveEntry fs'.disk d i → (d, i) ≠ (0, 0) →
    Chain fs'.disk (headOf fs'.disk d i) l → 2 ∉ l ∧ 3 ∉ l
  found : ∀ d i, LiveEntry fs.disk d i → FoundAgain fs fs' d i

/-- The dummy has been added, or refused. -/
def RespectsVolume (fs fs' : Fs) : Prop :=
  DummyAdded fs fs' ∨ fs'.disk = fs.disk ∧ fs'.currentDirCluster = fs.currentDirCluster

/-! ## Links of the volumes in question -/

/-- Every data cluster is free or the end of a chain. -/
def EndsOnly (disk : Nat → Sector) : Prop :=
  ∀ c, InData c → (disk 50).link c = 0 ∨ (disk 50).link c = 0xFFFF

theorem Formatted.endsOnly {fs : Fs} (h : Formatted fs) : EndsOnly fs.disk := by
  intro c hc
  rw [Sector.link_of_lt _ hc.lt]
  exact Or.inl (h.fat ⟨c.toNat, hc.lt⟩ hc.1)

theorem Effect.endsOnly {call : Call} {fs fs' : Fs} (h : Effect call fs fs')
    (hends : EndsOnly fs.disk) : EndsOnly fs'.disk := by
  cases h with
  | quiet hd => rwa [hd]
  | moved hd => rwa [hd]
  | created _ h =>
      intro c hc
      rw [h.at_fat, Sector.link_setFatEntry]
      split
      · exact Or.inr rfl
      · exact hends c hc
  | removed _ h =>
      intro c hc
      rw [h.at_fat]
      split
      · exact Or.inl rfl
      · exact hends c hc

theorem EndsOnly.length_eq {disk : Nat → Sector} (hends : EndsOnly disk) {h : UInt16}
    {l : List UInt16} (hc : Chain disk h l) : l.length = 1 := by
  obtain ⟨hin, z, hw, -⟩ := hc
  have hout : ¬InData ((disk 50).link h) := by
    rcases hends h hin with heq | heq
    · rw [heq]
      decide
    · rw [heq]
      decide
  have hone : Walk InData (disk 50).link h [h] ((disk 50).link h) := .step hin (.stop hout)
  rw [(hw.unique hone).1]
  rfl

/-- The invariant of the volumes that the other operations make. -/
structure Ordinary (fs : Fs) : Prop where
  wellFormed : WellFormed fs
  endsOnly : EndsOnly fs.disk

theorem Ordinary.runs {fs : Fs} (h : Ordinary fs) (calls : List Call) :
    ∃ fs', runs exec calls fs = .ok fs' ∧ Ordinary fs' :=
  runs_invariant (fun call _ hs _ => by
    obtain ⟨fs', hrun, heff⟩ := exec_effect hs.wellFormed call
    exact ⟨fs', hrun, heff.wellFormed hs.wellFormed, heff.endsOnly hs.endsOnly⟩)
    calls fs h (guarded_true calls fs)

/-! ## What the operation writes -/

/-- What is left of a disk, and what has been put there. -/
structure DummyMade (fs fs' : Fs) : Prop where
  root_eq : dir fs'.disk 0 = dummyRoot
  link_two : (fs'.disk 50).link 2 = 3
  link_three : (fs'.disk 50).link 3 = 0xFFFF
  cwd_eq : fs'.currentDirCluster = fs.currentDirCluster

theorem dummyMade (fs : Fs) : DummyMade fs (createDummyFile fs) := by
  have hfat : (createDummyFile fs).disk 50 =
      Sector.setFatEntry (Sector.setFatEntry (fs.disk 50) ⟨(2 : UInt16).toNat, by decide⟩ 3)
        ⟨(3 : UInt16).toNat, by decide⟩ 0xFFFF := by
    simp [createDummyFile, print, writeSector, readSector]
  refine ⟨?_, ?_, ?_, rfl⟩
  · show (createDummyFile fs).disk 68 = dummyRoot
    simp [createDummyFile, print, writeSector]
  · rw [hfat, Sector.link_setFatEntry, if_neg (by decide), Sector.link_setFatEntry, if_pos rfl]
  · rw [hfat, Sector.link_setFatEntry, if_pos rfl]

theorem live_dummyRoot (i : Slot) : Live dummyRoot i ↔ i = 0 := by
  revert i
  decide +kernel

namespace DummyMade

variable {fs fs' : Fs}

theorem reachable (h : DummyMade fs fs') {d : UInt16} (hd : Reachable fs'.disk d) : d = 0 := by
  induction hd with
  | refl => rfl
  | tail _ hsub ih =>
      obtain ⟨i, e, he, hdir, -⟩ := hsub
      rw [ih] at he
      obtain ⟨hlive, rfl⟩ := entry_eq_some.mp he
      rw [h.root_eq, live_dummyRoot] at hlive
      have hfile : decide (dummyRoot.attributes 0 = 0x10) = true := by
        rw [h.root_eq, hlive] at hdir
        exact hdir
      exact absurd hfile (by decide +kernel)

/-- The dummy is the only entry. -/
theorem liveEntry_iff (h : DummyMade fs fs') {d : UInt16} {i : Slot} :
    LiveEntry fs'.disk d i ↔ (d, i) = (0, 0) := by
  constructor
  · rintro ⟨hd, hlive⟩
    have hzero := h.reachable hd
    rw [hzero, h.root_eq, live_dummyRoot] at hlive
    rw [hzero, hlive]
  · intro heq
    obtain ⟨rfl, rfl⟩ := Prod.mk.inj heq
    refine ⟨Forest.reachable_root _, ?_⟩
    rw [h.root_eq, live_dummyRoot]

theorem headOf_eq (h : DummyMade fs fs') : headOf fs'.disk 0 0 = 2 := by
  rw [headOf, h.root_eq]
  decide +kernel

theorem chain (h : DummyMade fs fs') : Chain fs'.disk (headOf fs'.disk 0 0) [2, 3] := by
  rw [h.headOf_eq]
  refine ⟨by decide, 0xFFFF, .step (by decide) ?_, by decide⟩
  rw [h.link_two]
  refine .step (by decide) ?_
  rw [h.link_three]
  exact .stop (by decide)

theorem wellFormed (h : DummyMade fs fs') (hcwd : fs.currentDirCluster = 0) :
    WellFormed fs' where
  chains d i hlive := by
    obtain ⟨rfl, rfl⟩ := Prod.mk.inj (h.liveEntry_iff.mp hlive)
    exact ⟨_, h.chain⟩
  disjoint d i d' i' l l' hlive hlive' _ _ hne :=
    absurd ((h.liveEntry_iff.mp hlive).trans (h.liveEntry_iff.mp hlive').symm) hne
  tidy d hd := by
    rw [h.reachable hd, h.root_eq]
    have hzero : ∀ j : Slot, j ≠ 0 → dummyRoot.name j 0 = 0 := by decide +kernel
    exact fun i j hij _ => hzero j fun h0 => absurd (h0 ▸ hij) (Fin.not_lt_zero i)
  cwd := by
    rw [h.cwd_eq, hcwd]
    exact Forest.reachable_root _

end DummyMade

/-- With an empty root the operation is in order. -/
theorem dummyAdded {fs : Fs} (h : Ordinary fs) (hroot : ∀ i, ¬Live (dir fs.disk 0) i) :
    DummyAdded fs (createDummyFile fs) := by
  have hmade := dummyMade fs
  have hreach : ∀ {d}, Reachable fs.disk d → d = 0 := fun hd =>
    Forest.reachable_eq_root_of_empty (fun i => entry_eq_none.mpr (hroot i)) hd
  have hcwd := hreach h.wellFormed.cwd
  refine ⟨hmade.wellFormed hcwd, hmade.cwd_eq, ?_, ?_, ?_⟩
  · rw [hcwd]
    exact ⟨by decide, by decide⟩
  · exact fun d i l hlive hne _ => absurd (hmade.liveEntry_iff.mp hlive) hne
  · rintro d i ⟨hd, hlive⟩
    rw [hreach hd] at hlive
    exact absurd hlive (hroot i)

theorem respectsVolume_iff {fs : Fs} (h : Ordinary fs) :
    RespectsVolume fs (createDummyFile fs) ↔ ∀ i, ¬Live (dir fs.disk 0) i := by
  have hmade := dummyMade fs
  constructor
  · rintro (hadded | ⟨hsame, -⟩) i hlive
    · -- an entry of one cluster does not have the data of the dummy's two
      have hentry : LiveEntry fs.disk 0 i := ⟨Forest.reachable_root _, hlive⟩
      obtain ⟨d', i', l, l', hlive', -, -, hc, hc', hdata⟩ := hadded.found 0 i hentry
      obtain ⟨rfl, rfl⟩ := Prod.mk.inj (hmade.liveEntry_iff.mp hlive')
      have hlen := congrArg List.length hdata
      rw [List.length_map, List.length_map, h.endsOnly.length_eq hc,
        hc'.unique hmade.chain] at hlen
      exact absurd hlen (by decide)
    · have hlink := hmade.link_two
      rw [hsame] at hlink
      rcases h.endsOnly 2 (by decide) with h0 | hend
      · rw [h0] at hlink
        exact absurd hlink (by decide)
      · rw [hend] at hlink
        exact absurd hlink (by decide)
  · exact fun hroot => Or.inl (dummyAdded h hroot)

/-- **The dummy.** After any calls from a formatted disk, the operation respects the
volume just when the root directory has no live entry. -/
theorem createDummyFile_respects_iff {fs₀ fs : Fs} (h₀ : Formatted fs₀) (calls : List Call)
    (hrun : runs exec calls fs₀ = .ok fs) :
    RespectsVolume fs (createDummyFile fs) ↔ ∀ i, ¬Live (dir fs.disk 0) i := by
  obtain ⟨fs', hrun', hord⟩ := Ordinary.runs ⟨h₀.wellFormed, h₀.endsOnly⟩ calls
  obtain rfl := Except.ok.inj (hrun.symm.trans hrun')
  exact respectsVolume_iff hord

/-- After a directory with a file in it has been deleted, the root is empty and the volume is
respected; in a directory that is still there it is not. -/
theorem createDummyFile_respects_iff_mkdir :
    (∃ fs, runs exec [.makeDirectory strA, .changeDirectory strA,
        .writeFile (fatName strA strTxt) strHi, .changeDirectory dotDot, .removeFile strA]
        blankFs = .ok fs ∧ RespectsVolume fs (createDummyFile fs)) ∧
      ∃ fs, runs exec [.makeDirectory strA, .changeDirectory strA] blankFs = .ok fs ∧
        fs.currentDirCluster = 2 ∧ ¬RespectsVolume fs (createDummyFile fs) := by
  constructor
  · obtain ⟨fs, hrun, hend⟩ := exists_of_endsWith
      (r := runs exec [.makeDirectory strA, .changeDirectory strA,
        .writeFile (fatName strA strTxt) strHi, .changeDirectory dotDot, .removeFile strA]
        blankFs)
      (p := fun fs => decide (∀ i, ¬Live (dir fs.disk 0) i)) (by decide +kernel)
    exact ⟨fs, hrun, (createDummyFile_respects_iff formatted_blankFs _ hrun).mpr
      (of_decide_eq_true hend)⟩
  · obtain ⟨fs, hrun, hend⟩ := exists_of_endsWith
      (r := runs exec [.makeDirectory strA, .changeDirectory strA] blankFs)
      (p := fun fs => decide (fs.currentDirCluster = 2 ∧ Live (dir fs.disk 0) 0))
      (by decide +kernel)
    obtain ⟨hcwd, hlive⟩ := of_decide_eq_true hend
    refine ⟨fs, hrun, hcwd, fun h => ?_⟩
    exact (createDummyFile_respects_iff formatted_blankFs _ hrun).mp h 0 hlive

/-- A directory in the root is lost. -/
theorem not_respectsVolume_mkdir :
    ¬RespectsVolume (makeDirectory strA blankFs)
      (createDummyFile (makeDirectory strA blankFs)) := by
  obtain ⟨fs, hrun, hord⟩ := Ordinary.runs
    ⟨formatted_blankFs.wellFormed, formatted_blankFs.endsOnly⟩ [.makeDirectory strA]
  obtain rfl := Except.ok.inj hrun
  intro h
  exact (respectsVolume_iff hord).mp h 0 (by decide +kernel)

end FirstKernel
