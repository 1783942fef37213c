import FirstKernel.FatStores

/-!
# Deleting undoes creating

A creation takes the first free cluster and the first free slot; deleting
the entry by its name finds that slot again, because no other entry has
the name, and frees that cluster alone, because the chain ends there. Of
the creation remains the deletion mark in the slot, which counts as free
as before, and what stands in the sector of the cluster. So rounds of
creating and deleting go on for ever (`rounds_restore`).
-/

namespace FirstKernel

/-- The calls that create an entry. -/
inductive Creation where
  | file (filename : FatName) (content : CString)
  | directory (dirname : CString)

namespace Creation

def run : Creation → Fs → Fs
  | .file filename content, fs => writeFile filename content fs
  | .directory dirname, fs => makeDirectory dirname fs

def name : Creation → Buffer 11
  | .file filename _ => filename.bytes
  | .directory dirname => dirName dirname

def call : Creation → Call
  | .file filename content => .writeFile filename content
  | .directory dirname => .makeDirectory dirname

theorem name_ne_zero (c : Creation) : c.name 0 ≠ 0 := by
  have hnew : c.call.newName = some c.name := by
    cases c <;> rfl
  exact Call.newName_ne_zero hnew

end Creation

/-- A creation, and the name by which the new entry is deleted again. -/
structure Round where
  creation : Creation
  target : CString
  target_eq : padded 8 target = nameOf creation.name
  sevenBit : ∀ m, (nameOf creation.name m).toNat < 128

namespace Round

def exec (r : Round) (fs : Fs) : Except Fault Fs := removeFile r.target (r.creation.run fs)

/-- No live entry of the current directory has the name. -/
def Fresh (r : Round) (fs : Fs) : Prop :=
  ∀ i, Live (readCurrentDirectory fs) i →
    (readCurrentDirectory fs).name i ≠ nameOf r.creation.name

/-- Neither call reports an error. -/
def Succeeds (r : Round) (fs : Fs) : Prop :=
  ¬ReportsError fs (r.creation.run fs) ∧
    ∃ fs', r.exec fs = .ok fs' ∧ ¬ReportsError (r.creation.run fs) fs'

end Round

/-! ## What is restored -/

def Sector.entryBytes (b : Sector) (i : Slot) : Buffer 32 := fun m =>
  b ⟨32 * i.val + m.val, by omega⟩

/-- The live entries of a directory, in order. -/
def liveEntries (b : Sector) : List (Buffer 32) :=
  ((List.finRange 16).filter fun i => decide (Live b i)).map b.entryBytes

structure Restores (fs fs' : Fs) : Prop where
  cwd_eq : fs'.currentDirCluster = fs.currentDirCluster
  fat_eq : fs'.disk 50 = fs.disk 50
  entries_eq : liveEntries (readCurrentDirectory fs') = liveEntries (readCurrentDirectory fs)
  cluster_eq : findFreeCluster fs' = findFreeCluster fs
  slot_eq : findFreeDirEntry (readCurrentDirectory fs') =
    findFreeDirEntry (readCurrentDirectory fs)

theorem Restores.refl (fs : Fs) : Restores fs fs := ⟨rfl, rfl, rfl, rfl, rfl⟩

theorem Restores.trans {fs fs' fs'' : Fs} (h : Restores fs fs') (h' : Restores fs' fs'') :
    Restores fs fs'' where
  cwd_eq := h'.cwd_eq.trans h.cwd_eq
  fat_eq := h'.fat_eq.trans h.fat_eq
  entries_eq := h'.entries_eq.trans h.entries_eq
  cluster_eq := h'.cluster_eq.trans h.cluster_eq
  slot_eq := h'.slot_eq.trans h.slot_eq

theorem mem_liveEntries {b : Sector} {e : Buffer 32} :
    e ∈ liveEntries b ↔ ∃ i, Live b i ∧ b.entryBytes i = e := by
  simp [liveEntries]

theorem name_eq_of_entryBytes {b b' : Sector} {i j : Slot}
    (h : b'.entryBytes j = b.entryBytes i) : b'.name j = b.name i :=
  funext fun m => congrFun h ⟨m.val, by omega⟩

theorem liveEntries_congr {b b' : Sector} (hlive : ∀ i, Live b' i ↔ Live b i)
    (hslot : ∀ i, Live b i → SameSlot b b' i) : liveEntries b' = liveEntries b := by
  have hfilter : (List.finRange 16).filter (fun i => decide (Live b' i)) =
      (List.finRange 16).filter (fun i => decide (Live b i)) :=
    List.filter_congr fun i _ => decide_eq_decide.mpr (hlive i)
  rw [liveEntries, hfilter]
  refine List.map_congr_left fun i hi => funext fun m => ?_
  have hmem := of_decide_eq_true (List.mem_filter.mp hi).2
  refine hslot i hmem _ ?_
  show (32 * i.val + m.val) / 32 = i.val
  omega

/-- What is fresh stays so. -/
theorem Round.Fresh.of_restores {r : Round} {fs fs' : Fs} (h : r.Fresh fs)
    (hrestores : Restores fs fs') : r.Fresh fs' := by
  intro i hlive hname
  have hmem : (readCurrentDirectory fs').entryBytes i ∈ liveEntries (readCurrentDirectory fs') :=
    mem_liveEntries.mpr ⟨i, hlive, rfl⟩
  rw [hrestores.entries_eq] at hmem
  obtain ⟨j, hj, hbytes⟩ := mem_liveEntries.mp hmem
  exact h j hj ((name_eq_of_entryBytes hbytes).trans hname)

/-- The links are all there is in sector 50. -/
theorem sector_eq_of_link_eq {b b' : Sector} (h : ∀ c, b.link c = b'.link c) : b = b' := by
  have hentry : ∀ c : Fin 256, b.fatEntry c = b'.fatEntry c := by
    intro c
    have hval : (UInt16.ofNat c.val).toNat = c.val := by
      rw [UInt16.toNat_ofNat']
      omega
    have hlt : (UInt16.ofNat c.val).toNat < 256 := by omega
    have hc : (⟨(UInt16.ofNat c.val).toNat, hlt⟩ : Fin 256) = c := Fin.ext hval
    have hlink := h (UInt16.ofNat c.val)
    rw [Sector.link_of_lt _ hlt, Sector.link_of_lt _ hlt, hc] at hlink
    exact hlink
  exact Buffer.eq_of_load16 rfl fun i hi => hentry ⟨i, by omega⟩

theorem findFreeCluster_congr {fs fs' : Fs} (h : fs'.disk 50 = fs.disk 50) :
    findFreeCluster fs' = findFreeCluster fs := by
  unfold findFreeCluster readSector
  rw [h]

/-! ## A round -/

section

variable {fs fs1 fs2 : Fs} {i : Slot} {name : Buffer 11} {size : UInt32} {attributes : UInt8}
  {data : Sector} {l : List UInt16}

/-- The new entry is found by its name. -/
theorem Created.lookup_new (h : Created fs fs1 i name size attributes data)
    (hwf : WellFormed fs) (hname : name 0 ≠ 0) {target : CString}
    (htarget : padded 8 target = nameOf name) (h7 : ∀ m, (nameOf name m).toNat < 128)
    (hfresh : ∀ j, Live (readCurrentDirectory fs) j →
      (readCurrentDirectory fs).name j ≠ nameOf name) : lookup target fs1 = some i := by
  have hdir : readCurrentDirectory fs1 = dir fs1.disk fs.currentDirCluster := by
    rw [← h.cwd_eq]
    rfl
  rw [lookup, hdir, htarget]
  refine findEntry_eq_some.mpr ⟨?_, nameMatches_iff_eq.mpr ⟨?_, h7⟩, fun j hj hlive hmatch => ?_⟩
  · exact h.inserted.live_new hwf hname (h7 0)
  · rw [h.at_dir]
    exact funext name_fillEntry_self
  · have hji : j ≠ i := Fin.ne_of_lt hj
    have hold := (h.inserted.live_iff hwf hname j).mp hlive
    rw [if_neg hji] at hold
    rw [nameMatches_iff_eq, (h.inserted.sameSlot hji).whole_name_eq] at hmatch
    exact hfresh j hold hmatch.1

theorem Created.restores (h : Created fs fs1 i name size attributes data) (hwf : WellFormed fs)
    (hname : name 0 ≠ 0) (hr : Removed fs1 fs2 i l) : Restores fs fs2 := by
  have hcwd : fs2.currentDirCluster = fs.currentDirCluster := hr.cwd_eq.trans h.cwd_eq
  have hdir : readCurrentDirectory fs2 = (dir fs1.disk fs.currentDirCluster).setName0 i 0xE5 := by
    rw [← h.cwd_eq, ← hr.at_dir, ← hr.cwd_eq]
    rfl
  have hvacant := not_live_of_findFreeDirEntry h.slot_free
  -- the chain of the new entry is its one cluster
  have hchain : l = [findFreeCluster fs] := by
    have hl := hr.chain
    rw [h.cwd_eq, h.headOf_new] at hl
    exact hl.unique h.chain_new
  have hfat : fs2.disk 50 = fs.disk 50 := by
    refine sector_eq_of_link_eq fun x => ?_
    rw [hr.at_fat, h.link_eq, hchain]
    by_cases hx : x = findFreeCluster fs
    · rw [if_pos (List.mem_singleton.mpr hx), hx]
      exact h.cluster_free.2.symm
    · rw [if_neg fun hmem => hx (List.mem_singleton.mp hmem), if_neg hx]
  have hlive1 : Live (dir fs1.disk fs.currentDirCluster) i := by
    rw [← h.cwd_eq]
    exact hr.live
  refine ⟨hcwd, hfat, ?_, findFreeCluster_congr hfat, ?_⟩
  · rw [hdir]
    refine liveEntries_congr (fun j => ?_) fun j hj k hk => ?_
    · rw [live_setName0 hlive1, h.inserted.live_iff hwf hname]
      by_cases hji : j = i
      · rw [hji]
        exact iff_of_false (fun hboth => hboth.2 rfl) hvacant
      · rw [if_neg hji]
        exact and_iff_left hji
    · have hji : j ≠ i := fun heq => hvacant (heq ▸ hj)
      rw [sameSlot_setName0 hji k hk]
      exact h.inserted.sameSlot hji k hk
  · have hbefore := (findFreeDirEntry_eq_some.mp h.slot_free).2
    rw [hdir, readCurrentDirectory,
      show findFreeDirEntry (readSector _ fs) = some i from h.slot_free]
    refine findFreeDirEntry_eq_some.mpr ⟨Or.inr ?_, fun j hj => ?_⟩
    · rw [name0_setName0, if_pos rfl]
    · have hji : j ≠ i := Fin.ne_of_lt hj
      rw [name0_setName0, if_neg hji, (h.inserted.sameSlot hji).name_eq]
      exact hbefore j hj

end

/-- A creation is refused when there is no room, and otherwise done. -/
theorem Creation.refused_or_created {fs : Fs} (hwf : WellFormed fs) : ∀ c : Creation,
    ((DiskFull fs ∨ DirectoryFull fs) ∧ ReportsError fs (c.run fs)) ∨
    (¬(DiskFull fs ∨ DirectoryFull fs) ∧ ¬ReportsError fs (c.run fs) ∧
      ∃ i size attributes data, Created fs (c.run fs) i c.name size attributes data ∧
        (attributes = 0x10 → ∀ j, data.name j 0 = 0))
  | .file filename content => by
      rcases writeFile_refused_or_created hwf filename content with
        ⟨hfull, herror, -⟩ | ⟨hroom, hok, i, hcreated⟩
      · exact Or.inl ⟨hfull, herror⟩
      · exact Or.inr ⟨hroom, hok, i, _, _, _, hcreated, fun h => absurd h (by decide)⟩
  | .directory dirname => by
      have hfullText : text "Error: root dir is full\n" ∈ errorTexts := by
        decide
      rcases createEntry_refused_or_created hwf hfullText
        (dirName dirname) 0 0x10 (Buffer.zeros 512) (text "Directory '")
        dirname.chars (text "' successfuly create\n") with
        ⟨hfull, herror, -⟩ | ⟨hroom, hok, i, hcreated⟩
      · exact Or.inl ⟨hfull, herror⟩
      · exact Or.inr ⟨hroom, hok, i, _, _, _, hcreated, fun _ _ => rfl⟩

/-- **Step.** In a directory with room a round succeeds, and leaves things as they were. -/
theorem Round.exec_ok {fs : Fs} (hwf : WellFormed fs) {r : Round} (hfresh : r.Fresh fs)
    (hroom : ¬(DiskFull fs ∨ DirectoryFull fs)) :
    ∃ fs', r.exec fs = .ok fs' ∧ r.Succeeds fs ∧ WellFormed fs' ∧ Restores fs fs' := by
  have hname := r.creation.name_ne_zero
  rcases r.creation.refused_or_created hwf with
    ⟨hfull, -⟩ | ⟨-, hok, i, size, attributes, data, hcreated, hdata⟩
  · exact absurd hfull hroom
  · have hwf1 := hcreated.wellFormed hwf hname hdata
    have hlook := hcreated.lookup_new hwf hname r.target_eq r.sevenBit hfresh
    obtain ⟨fs', l, hrun, hremoved, hreport⟩ := removeFile_outcome hwf1 hlook
    exact ⟨fs', hrun, ⟨hok, fs', hrun, not_reportsError_of_report hreport⟩,
      hremoved.wellFormed hwf1, hcreated.restores hwf hname hremoved⟩

theorem Restores.room {fs fs' : Fs} (h : Restores fs fs')
    (hroom : ¬(DiskFull fs ∨ DirectoryFull fs)) : ¬(DiskFull fs' ∨ DirectoryFull fs') := by
  rw [← findFreeCluster_eq_zero_iff, ← findFreeDirEntry_eq_none_iff, h.cluster_eq, h.slot_eq,
    findFreeCluster_eq_zero_iff, findFreeDirEntry_eq_none_iff]
  exact hroom

/-- **Run.** Rounds go on for ever in a directory with room. -/
theorem rounds_ok : ∀ (rounds : List Round) {fs : Fs}, WellFormed fs →
    (∀ r ∈ rounds, r.Fresh fs) → ¬(DiskFull fs ∨ DirectoryFull fs) →
    Guarded Round.exec Round.Succeeds rounds fs ∧
      ∃ fs', runs Round.exec rounds fs = .ok fs' ∧ Restores fs fs'
  | [], fs, _, _, _ => ⟨trivial, fs, rfl, .refl fs⟩
  | r :: rounds, fs, hwf, hfresh, hroom => by
      obtain ⟨fs1, hexec, hsucceeds, hwf1, hrestores⟩ :=
        r.exec_ok hwf (hfresh r (List.mem_cons_self ..)) hroom
      have hfresh1 : ∀ q ∈ rounds, q.Fresh fs1 := fun q hq =>
        (hfresh q (List.mem_cons_of_mem _ hq)).of_restores hrestores
      obtain ⟨hguarded, fs', hrun, hrest⟩ :=
        rounds_ok rounds hwf1 hfresh1 (hrestores.room hroom)
      refine ⟨⟨hsucceeds, fun s hs => ?_⟩, fs', (runs_cons_ok hexec).trans hrun,
        hrestores.trans hrest⟩
      obtain rfl := Except.ok.inj (hexec.symm.trans hs)
      exact hguarded

/-- **Deleting undoes creating.** If the first creation succeeds, then so does every
call of the rounds, and the file allocation table, the live entries and the two searches
are in the end what they were. -/
theorem rounds_restore {fs : Fs} (hwf : WellFormed fs) {rounds : List Round}
    (hfresh : ∀ r ∈ rounds, r.Fresh fs)
    (hfirst : ∀ r ∈ rounds.head?, ¬ReportsError fs (r.creation.run fs)) :
    Guarded Round.exec Round.Succeeds rounds fs ∧
      ∃ fs', runs Round.exec rounds fs = .ok fs' ∧ Restores fs fs' := by
  cases rounds with
  | nil => exact ⟨trivial, fs, rfl, .refl fs⟩
  | cons r rounds =>
      rcases r.creation.refused_or_created hwf with ⟨-, herror⟩ | ⟨hroom, -⟩
      · exact absurd herror (hfirst r rfl)
      · exact rounds_ok _ hwf hfresh hroom

/-- The directory `A`, made and deleted, and then the file `A`. -/
def roundsA : List Round :=
  [⟨.directory strA, strA, (nameOf_dirName strA).symm, by decide +kernel⟩,
    ⟨.file (fatName strA strTxt) strHi, strA, (nameOf_fatName strA strTxt).symm,
      by decide +kernel⟩]

theorem rounds_restore_blankFs :
    Guarded Round.exec Round.Succeeds roundsA blankFs ∧
      ∃ fs', runs Round.exec roundsA blankFs = .ok fs' ∧ Restores blankFs fs' := by
  refine rounds_restore formatted_blankFs.wellFormed (fun r _ i hlive => ?_) fun r hr => ?_
  · exact absurd hlive (formatted_blankFs.not_live i)
  · obtain rfl := Option.some.inj hr
    exact not_reportsError_of_length (by decide +kernel)

end FirstKernel
