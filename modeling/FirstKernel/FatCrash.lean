import FirstKernel.FatRuns

/-!
# Stopping between two writes

An operation that is cut off has issued a prefix of its `write_sector`
calls. `remove_file` deletes the slot before it frees the chain, so
every prefix leaves a safe disk. A creation writes the directory first
and the FAT last: until then the entry that is `UnderWay` points at a
cluster that is still marked free, though no other entry owns it, and
until `make_directory` has cleared the new directory's sector, that sector
shows whatever it held before (`Stale`). All other entries are safe after
every prefix (`interruptSafe_exec`).
-/

namespace FirstKernel

/-- Leaving out the entries in `U`, no live entry points at a cluster that is
marked free, and leaving out those in `S`, no two own the same cluster. -/
structure CrashSafe (disk : Nat → Sector) (U S : UInt16 → Slot → Prop) : Prop where
  head_used : ∀ d i, LiveEntry disk d i → ¬U d i → (disk 50).link (headOf disk d i) ≠ 0
  disjoint : ∀ d i d' i' c, LiveEntry disk d i → LiveEntry disk d' i' → ¬S d i →
    ¬S d' i' → (forestOf disk).Owns (headOf disk d i) c →
    (forestOf disk).Owns (headOf disk d' i') c → d = d' ∧ i = i'

/-- The entry that is being created, after `k` of the writes `ws` of a creation, but not all. -/
def UnderWay (call : Call) (fs : Fs) (ws : List (Nat × Sector)) (k : Nat) (d : UInt16)
    (i : Slot) : Prop :=
  0 < k ∧ k < ws.length ∧ call.newName ≠ none ∧ d = fs.currentDirCluster ∧
    findFreeDirEntry (readCurrentDirectory fs) = some i

/-- After the first write of `make_directory`: what the new directory's sector held before. -/
def Stale (call : Call) (fs : Fs) (ws : List (Nat × Sector)) (k : Nat) (d : UInt16)
    (_ : Slot) : Prop :=
  k = 1 ∧ k < ws.length ∧ (∃ dirname, call = .makeDirectory dirname) ∧ ¬Reachable fs.disk d

/-- The call issued the writes that take the one disk to the other, and after every prefix of
them all entries are safe, but for the one that is being created, which may point at a free
cluster, and for stale ones. -/
def InterruptSafe (call : Call) (fs fs' : Fs) : Prop :=
  ∃ ws, fs'.writes = fs.writes ++ ws ∧ fs'.disk = applyWrites ws fs.disk ∧
    ∀ k, CrashSafe (applyWrites (ws.take k) fs.disk)
      (fun d i => UnderWay call fs ws k d i ∨ Stale call fs ws k d i) (Stale call fs ws k)

theorem owns_of_fat {fs : Fs} {disk : Nat → Sector} (hfat : disk 50 = fs.disk 50)
    (h c : UInt16) : (forestOf disk).Owns h c ↔ (forestOf fs.disk).Owns h c :=
  owns_congr (fun x _ => by rw [hfat]) c

/-- With the FAT of a well-formed volume, entries that were live in it have a cluster in use. -/
theorem head_used_of_old {fs : Fs} (hwf : WellFormed fs) {disk : Nat → Sector}
    (hfat : disk 50 = fs.disk 50) {d : UInt16} {i : Slot} (hlive : LiveEntry fs.disk d i)
    (hhead : headOf disk d i = headOf fs.disk d i) : (disk 50).link (headOf disk d i) ≠ 0 := by
  obtain ⟨l, hchain⟩ := hwf.chains d i hlive
  rw [hfat, hhead]
  exact hchain.link_ne_zero hchain.head_mem

/-- With the FAT of a well-formed volume, entries that were live in it are safe. -/
theorem crashSafe_of_old {fs : Fs} (hwf : WellFormed fs) {disk : Nat → Sector}
    (hfat : disk 50 = fs.disk 50)
    (hold : ∀ d i, LiveEntry disk d i →
      LiveEntry fs.disk d i ∧ headOf disk d i = headOf fs.disk d i)
    (U S : UInt16 → Slot → Prop) : CrashSafe disk U S where
  head_used := by
    intro d i hlive _
    obtain ⟨hlive', hhead⟩ := hold d i hlive
    exact head_used_of_old hwf hfat hlive' hhead
  disjoint := by
    intro d i d' i' c hlive hlive' _ _ hown hown'
    obtain ⟨hl, hhead⟩ := hold d i hlive
    obtain ⟨hl', hhead'⟩ := hold d' i' hlive'
    rw [hhead, owns_of_fat hfat] at hown
    rw [hhead', owns_of_fat hfat] at hown'
    exact hwf.sound.disjoint hl.live hl'.live hown hown'

theorem WellFormed.crashSafe {fs : Fs} (hwf : WellFormed fs)
    (U S : UInt16 → Slot → Prop) : CrashSafe fs.disk U S :=
  crashSafe_of_old hwf rfl (fun _ _ hlive => ⟨hlive, rfl⟩) U S

theorem WellFormed.interruptSafe_of_quiet {fs fs' : Fs} (hwf : WellFormed fs) (call : Call)
    (hwrites : fs'.writes = fs.writes) (hdisk : fs'.disk = fs.disk) :
    InterruptSafe call fs fs' := by
  refine ⟨[], by rw [hwrites, List.append_nil], hdisk, fun k => ?_⟩
  rw [List.take_nil]
  exact hwf.crashSafe _ _

theorem liveEntry_of_forest {disk disk' : Nat → Sector} {d : UInt16} {i : Slot}
    {e : Entry UInt16} (h : (forestOf disk).Live d i e)
    (h' : (forestOf disk').Live d i e) :
    LiveEntry disk d i ∧ headOf disk' d i = headOf disk d i := by
  obtain ⟨hlive, hhead⟩ := liveEntry_of_live h
  obtain ⟨-, hhead'⟩ := liveEntry_of_live h'
  exact ⟨hlive, hhead'.symm.trans hhead⟩

/-! ## Deletion -/

theorem Unlinked.crashSafe {fs : Fs} (hwf : WellFormed fs) {disk : Nat → Sector}
    {i : Slot} (h : Unlinked fs disk i) (hfat : disk 50 = fs.disk 50)
    (U S : UInt16 → Slot → Prop) : CrashSafe disk U S := by
  refine crashSafe_of_old hwf hfat (fun d j hlive => ?_) U S
  exact liveEntry_of_forest ((h.unlink hwf).live_of hlive.live).1 hlive.live

/-- After its first write, a deletion has only unlinked the entry. -/
theorem unlinked_of_first {fs : Fs} {i : Slot}
    (hlive : Live (dir fs.disk fs.currentDirCluster) i) (fat' : Sector) :
    Unlinked fs (applyWrites ((removeWrites fs i fat').take 1) fs.disk) i where
  live := hlive
  at_dir := by
    simp only [dir, removeWrites, List.take_succ_cons, List.take_zero, applyWrites_cons,
      applyWrites_nil]
    exact Function.update_self ..
  dir_other := by
    intro x hx
    exact Function.update_of_ne (fun heq => hx (dirSector_injective heq)) ..

/-! ## Creation -/

section Creation

variable {fs : Fs} {i : Slot} {name : Buffer 11} {size : UInt32} {attributes : UInt8}

/-- The entries of the directories that were there before are the old ones, but
for the slot that is filled. -/
theorem Inserted.liveEntry_old {disk : Nat → Sector}
    (h : Inserted fs disk i name size attributes) (hwf : WellFormed fs)
    (hname : name 0 ≠ 0) {d : UInt16} {j : Slot} (hlive : LiveEntry disk d j)
    (hd : Reachable fs.disk d) (hne : ¬(d = fs.currentDirCluster ∧ j = i)) :
    LiveEntry fs.disk d j ∧ headOf disk d j = headOf fs.disk d j := by
  by_cases hcwd : d = fs.currentDirCluster
  · subst hcwd
    have hji : j ≠ i := fun heq => hne ⟨rfl, heq⟩
    have hold := (h.live_iff hwf hname j).mp hlive.2
    rw [if_neg hji] at hold
    exact ⟨⟨hd, hold⟩, (h.sameSlot hji).clusterLow_eq⟩
  · have hsame := h.dir_of_reachable hwf hd hcwd
    refine ⟨⟨hd, ?_⟩, ?_⟩
    · rw [← hsame]
      exact hlive.2
    · rw [headOf, headOf, hsame]

theorem Inserted.headOf_new {disk : Nat → Sector}
    (h : Inserted fs disk i name size attributes) :
    headOf disk fs.currentDirCluster i = findFreeCluster fs := by
  rw [headOf, h.at_dir, clusterLow_fillEntry_self]

/-- A free cluster has no link to follow. -/
theorem owns_free {disk : Nat → Sector} {c k : UInt16} (hc : (forestOf disk).Free c)
    (h : (forestOf disk).Owns c k) : k = c := by
  obtain ⟨hk, hwalk⟩ := h
  rcases Relation.ReflTransGen.cases_head hwalk with rfl | ⟨z, ⟨-, hz⟩, hrest⟩
  · rfl
  · obtain rfl : (0 : UInt16) = z := hc.2.symm.trans hz
    rcases Relation.ReflTransGen.cases_head hrest with rfl | ⟨_, ⟨hzero, -⟩, -⟩
    · exact absurd hk not_inData_zero
    · exact absurd hzero not_inData_zero

/-- As long as the FAT is untouched, the new entry may point at a free cluster, which no other
entry owns; entries that are neither it nor old ones are stale. -/
theorem Inserted.crashSafe {disk : Nat → Sector}
    (h : Inserted fs disk i name size attributes) (hwf : WellFormed fs)
    (hfat : disk 50 = fs.disk 50) {U S : UInt16 → Slot → Prop}
    (hU : U fs.currentDirCluster i) (hSU : ∀ d j, S d j → U d j)
    (hcases : ∀ d j, LiveEntry disk d j → ¬S d j → (d = fs.currentDirCluster ∧ j = i) ∨
      (LiveEntry fs.disk d j ∧ headOf disk d j = headOf fs.disk d j)) :
    CrashSafe disk U S where
  head_used := by
    intro d j hlive hdj
    rcases hcases d j hlive fun hS => hdj (hSU d j hS) with ⟨rfl, rfl⟩ | ⟨hold, hhead⟩
    · exact absurd hU hdj
    · exact head_used_of_old hwf hfat hold hhead
  disjoint := by
    -- the new entry owns the free cluster alone, which no old entry owns
    have hnew : ∀ c, (forestOf disk).Owns (headOf disk fs.currentDirCluster i) c →
        c = findFreeCluster fs := by
      intro c hown
      rw [h.headOf_new, owns_of_fat hfat] at hown
      exact owns_free h.cluster_free hown
    have hold : ∀ d j c, LiveEntry fs.disk d j → headOf disk d j = headOf fs.disk d j →
        (forestOf disk).Owns (headOf disk d j) c → c ≠ findFreeCluster fs := by
      rintro d j _ hlive hhead hown rfl
      rw [hhead, owns_of_fat hfat] at hown
      exact hwf.sound.owned_used hlive.live hown h.cluster_free
    intro d j d' j' c hlive hlive' hS hS' hown hown'
    rcases hcases d j hlive hS with ⟨rfl, rfl⟩ | ⟨hl, hhead⟩
    · rcases hcases d' j' hlive' hS' with ⟨rfl, rfl⟩ | ⟨hl', hhead'⟩
      · exact ⟨rfl, rfl⟩
      · exact absurd (hnew c hown) (hold d' j' c hl' hhead' hown')
    · rcases hcases d' j' hlive' hS' with ⟨rfl, rfl⟩ | ⟨hl', hhead'⟩
      · exact absurd (hnew c hown') (hold d j c hl hhead hown)
      · rw [hhead, owns_of_fat hfat] at hown
        rw [hhead', owns_of_fat hfat] at hown'
        exact hwf.sound.disjoint hl.live hl'.live hown hown'

variable {data : Sector}

/-- After one or two writes the directory is filled and the FAT untouched. -/
theorem inserted_of_prefix (hwf : WellFormed fs) (hc : findFreeCluster fs ≠ 0)
    (hi : findFreeDirEntry (readCurrentDirectory fs) = some i) {k : Nat} (h0 : 0 < k)
    (h3 : k < 3) :
    Inserted fs (applyWrites ((createWrites fs i name size attributes data).take k) fs.disk)
        i name size attributes ∧
      applyWrites ((createWrites fs i name size attributes data).take k) fs.disk 50
        = fs.disk 50 ∧
      (k = 2 → dir (applyWrites ((createWrites fs i name size attributes data).take k)
        fs.disk) (findFreeCluster fs) = data) := by
  have hfree := findFreeCluster_free hc
  have hDT := dirSector_cwd_ne hwf hfree
  have hD := dirSector_ne_fat fs.currentDirCluster
  have hT := clusterToSector_ne_fat hfree.1
  have hother : ∀ x, x ≠ fs.currentDirCluster →
      dirSector x ≠ dirSector fs.currentDirCluster := fun x hx heq =>
    hx (dirSector_injective heq)
  have hother' : ∀ x, x ≠ findFreeCluster fs →
      dirSector x ≠ clusterToSector (findFreeCluster fs) := fun x hx heq => by
    rw [← dirSector_of_inData hfree.1] at heq
    exact hx (dirSector_injective heq)
  obtain rfl | rfl : k = 1 ∨ k = 2 := by omega
  · simp only [createWrites, List.take_succ_cons, List.take_zero, applyWrites_cons,
      applyWrites_nil]
    refine ⟨⟨hfree, hi, Function.update_self .., fun x hx _ => ?_⟩, ?_, fun h => ?_⟩
    · exact Function.update_of_ne (hother x hx) ..
    · exact Function.update_of_ne (Ne.symm hD) ..
    · omega
  · simp only [createWrites, List.take_succ_cons, List.take_zero, applyWrites_cons,
      applyWrites_nil]
    refine ⟨⟨hfree, hi, ?_, fun x hx hxc => ?_⟩, ?_, fun _ => ?_⟩
    · rw [dir, Function.update_of_ne hDT, Function.update_self]
      rfl
    · rw [dir, Function.update_of_ne (hother' x hxc), Function.update_of_ne (hother x hx)]
      rfl
    · rw [Function.update_of_ne (Ne.symm hT), Function.update_of_ne (Ne.symm hD)]
    · rw [dir, dirSector_of_inData hfree.1, Function.update_self]

theorem interruptSafe_createEntry (hwf : WellFormed fs) {call : Call} (dirFull : Text)
    (hnew : call.newName = some name) (size : UInt32) (attributes : UInt8) (data : Sector)
    (report : List Text)
    (hdata : attributes = 0x10 →
      (∃ dirname, call = .makeDirectory dirname) ∧ ∀ j, data.name j 0 = 0) :
    InterruptSafe call fs (createEntry dirFull name size attributes data report fs) := by
  have hname := Call.newName_ne_zero hnew
  rcases createEntry_cases dirFull name size attributes data report fs with
    ⟨-, heq⟩ | ⟨-, -, heq⟩ | ⟨hc, i, hi, heq⟩
  · rw [heq]
    exact hwf.interruptSafe_of_quiet call rfl rfl
  · rw [heq]
    exact hwf.interruptSafe_of_quiet call rfl rfl
  · refine ⟨createWrites fs i name size attributes data, by rw [heq]; rfl,
      by rw [heq]; rfl, fun k => ?_⟩
    rcases Nat.eq_zero_or_pos k with rfl | h0
    · exact hwf.crashSafe _ _
    · by_cases h3 : k < 3
      · obtain ⟨hins, hfat, hsector⟩ := inserted_of_prefix hwf hc hi h0 h3
        have hcreating : call.newName ≠ none := by rw [hnew]; exact Option.some_ne_none _
        refine hins.crashSafe hwf hfat (Or.inl ⟨h0, h3, hcreating, rfl, hi⟩)
          (fun _ _ => Or.inr) fun d j hlive hdj => ?_
        by_cases hslot : d = fs.currentDirCluster ∧ j = i
        · exact Or.inl hslot
        · refine Or.inr ?_
          by_cases hstale : k = 1 ∧ attributes = 0x10
          · -- the sector of the new directory is not cleared yet
            refine hins.liveEntry_old hwf hname hlive ?_ hslot
            by_contra hd
            exact hdj ⟨hstale.1, h3, (hdata hstale.2).1, hd⟩
          · have hempty : attributes = 0x10 → ∀ m, (dir (applyWrites ((createWrites fs i name
                size attributes data).take k) fs.disk) (findFreeCluster fs)).name m 0 = 0 := by
              intro hattr m
              have hk : k ≠ 1 := fun h1 => hstale ⟨h1, hattr⟩
              rw [hsector (by omega)]
              exact (hdata hattr).2 m
            rcases ((hins.insert hwf hname hempty).live_iff hwf.sound).mp hlive.live with
              hold | ⟨rfl, rfl, -⟩
            · exact liveEntry_of_forest hold hlive.live
            · exact absurd ⟨rfl, rfl⟩ hslot
      · have hall : (createWrites fs i name size attributes data).take k
            = createWrites fs i name size attributes data :=
          List.take_of_length_le (Nat.not_lt.mp h3)
        have hcreated := created_of_writes hwf hc hi name size attributes data report
        rw [hall]
        exact (hcreated.wellFormed hwf hname fun h => (hdata h).2).crashSafe _ _

end Creation

/-! ## Every operation -/

/-- **What an interruption can leave behind.** In a well-formed volume every call
returns, and after every prefix of the writes it issued all entries are safe, but for the
one that a creation has under way and for stale ones. A deletion has neither. -/
theorem interruptSafe_exec {fs : Fs} (hwf : WellFormed fs) (call : Call) :
    ∃ fs', exec call fs = .ok fs' ∧ InterruptSafe call fs fs' := by
  cases call with
  | writeFile filename content =>
      have hnew : (Call.writeFile filename content).newName = some filename.bytes := rfl
      exact ⟨_, rfl, interruptSafe_createEntry hwf _ hnew _ 0x20 _ _ fun h =>
        absurd h (by decide)⟩
  | makeDirectory dirname =>
      have hnew : (Call.makeDirectory dirname).newName = some (dirName dirname) := rfl
      exact ⟨_, rfl, interruptSafe_createEntry hwf _ hnew 0 0x10 (Buffer.zeros 512) _
        fun _ => ⟨⟨dirname, rfl⟩, fun _ => rfl⟩⟩
  | removeFile filename =>
      cases hlook : lookup filename fs with
      | none => exact ⟨_, removeFile_none hlook, hwf.interruptSafe_of_quiet _ rfl rfl⟩
      | some i =>
          obtain ⟨l, fat', hchain, hfat, hrun⟩ := removeFile_removed hwf hlook
          refine ⟨_, hrun, removeWrites fs i fat', rfl, rfl, fun k => ?_⟩
          have hlive := lookup_live hlook
          obtain rfl | rfl | hk : k = 0 ∨ k = 1 ∨ 2 ≤ k := by omega
          · exact hwf.crashSafe _ _
          · refine (unlinked_of_first hlive fat').crashSafe hwf ?_ _ _
            exact Function.update_of_ne (Ne.symm (dirSector_ne_fat _)) ..
          · have hall : (removeWrites fs i fat').take k = removeWrites fs i fat' :=
              List.take_of_length_le hk
            have hremoved := removed_of_writes hlive hchain hfat (removeReport filename)
            rw [hall]
            exact (hremoved.wellFormed hwf).crashSafe _ _
  | changeDirectory dirname =>
      refine ⟨_, rfl, ?_⟩
      unfold changeDirectory
      simp only
      split
      · exact hwf.interruptSafe_of_quiet _ rfl rfl
      · split
        · exact hwf.interruptSafe_of_quiet _ rfl rfl
        · split <;> exact hwf.interruptSafe_of_quiet _ rfl rfl
  | catFile filename =>
      cases hlook : lookup filename fs with
      | none => exact ⟨_, catFile_none hlook, hwf.interruptSafe_of_quiet _ rfl rfl⟩
      | some i =>
          obtain ⟨l, -, hrun⟩ := catFile_chain hwf hlook
          exact ⟨_, hrun, hwf.interruptSafe_of_quiet _ rfl rfl⟩
  | listFiles => exact ⟨_, rfl, hwf.interruptSafe_of_quiet _ rfl rfl⟩

/-- A directory beside a file. -/
theorem interruptSafe_exec_noteFs :
    LiveEntry noteFs.disk 0 0 ∧ ∃ fs', exec (.makeDirectory strTxt) noteFs = .ok fs' ∧
      InterruptSafe (.makeDirectory strTxt) noteFs fs' :=
  ⟨liveEntry_noteFs, interruptSafe_exec wellFormed_noteFs _⟩

/-- A formatted volume in whose first free cluster an entry for that cluster is left over. -/
def staleFs : Fs :=
  { blankFs with
    disk := Function.update blankFs.disk 100 (Sector.fillEntry (Buffer.zeros 512)
      ⟨0, Nat.succ_pos 15⟩ (fatName strA strTxt).bytes 0 0x20 2) }

theorem wellFormed_staleFs : WellFormed staleFs :=
  Formatted.wellFormed ⟨fun _ _ => rfl, rfl, rfl⟩

/-- After the first write of `write_file`, the new entry points at cluster 2, which
is still marked free. After that of `make_directory`, so does an entry of the new directory,
and both own the cluster. -/
theorem not_crashSafe_first_write :
    (WellFormed blankFs ∧ ∃ fs' ws,
      exec (.writeFile (fatName strA strTxt) strHi) blankFs = .ok fs' ∧
      fs'.writes = blankFs.writes ++ ws ∧
      ¬CrashSafe (applyWrites (ws.take 1) blankFs.disk) (fun _ _ => False)
        fun _ _ => False) ∧
    (WellFormed staleFs ∧ ∃ fs' ws,
      exec (.makeDirectory strA) staleFs = .ok fs' ∧
      fs'.writes = staleFs.writes ++ ws ∧
      ¬CrashSafe (applyWrites (ws.take 1) staleFs.disk)
        (UnderWay (.makeDirectory strA) staleFs ws 1) (Stale (.makeDirectory strA) staleFs ws 1) ∧
      ¬CrashSafe (applyWrites (ws.take 1) staleFs.disk)
        (fun d i => UnderWay (.makeDirectory strA) staleFs ws 1 d i ∨
          Stale (.makeDirectory strA) staleFs ws 1 d i) fun _ _ => False) := by
  constructor
  · refine ⟨formatted_blankFs.wellFormed, _,
      (writeFile (fatName strA strTxt) strHi blankFs).writes, rfl, rfl, fun h => ?_⟩
    have hlive : Live (dir (applyWrites
        ((writeFile (fatName strA strTxt) strHi blankFs).writes.take 1) blankFs.disk) 0) 0 := by
      decide +kernel
    refine h.head_used 0 0 ⟨Forest.reachable_root _, hlive⟩ id ?_
    decide +kernel
  · refine ⟨wellFormed_staleFs, _, (makeDirectory strA staleFs).writes, rfl, rfl, ?_⟩
    generalize hdisk :
      applyWrites ((makeDirectory strA staleFs).writes.take 1) staleFs.disk = disk
    have hnew : Live (dir disk 0) 0 ∧ headOf disk 0 0 = 2 ∧ (dir disk 0).attributes 0 = 0x10 := by
      subst hdisk
      decide +kernel
    have hold : Live (dir disk 2) 0 ∧ headOf disk 2 0 = 2 ∧ (disk 50).link 2 = 0 := by
      subst hdisk
      decide +kernel
    obtain ⟨hlive, hhead, hattr⟩ := hnew
    obtain ⟨hlive', hhead', hlink⟩ := hold
    have hroot : LiveEntry disk 0 0 := ⟨Forest.reachable_root _, hlive⟩
    have hdir : Reachable disk 2 := by
      have h := hroot.live.reachable_head (decide_eq_true hattr)
      rwa [show (⟨headOf disk 0 0, _⟩ : Entry UInt16).head = 2 from hhead] at h
    have howns : ∀ {h : UInt16}, h = 2 → (forestOf disk).Owns h 2 := by
      rintro _ rfl
      exact ⟨by decide, .refl⟩
    refine ⟨fun h => h.head_used 2 0 ⟨hdir, hlive'⟩ (fun hway => ?_) ?_, fun h => ?_⟩
    · exact absurd hway.2.2.2.1 (by decide)
    · rw [hhead']
      exact hlink
    · exact absurd (h.disjoint 0 0 2 0 2 hroot ⟨hdir, hlive'⟩ id id (howns hhead)
        (howns hhead')).1 (by decide)

end FirstKernel
