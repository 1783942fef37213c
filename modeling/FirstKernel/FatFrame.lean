import FirstKernel.FatRuns

/-!
# What an operation leaves alone

Frame conditions of `write_file`, `make_directory` and `remove_file` on a
well-formed volume. A call that reports an error has changed nothing.
One that succeeds has changed one slot of the current directory, in a
creation also one free cluster with its FAT entry (`CreationOnly`), in a
deletion the FAT entries of one chain (`RemovalOnly`). Every other live
entry therefore keeps its slot, its chain and its data (`Keeps`), with
one reservation: the sector of the current directory is the data of the
entry that the directory was entered through, and there the one slot
differs.
-/

namespace FirstKernel

def Call.isUpdate : Call → Bool
  | .writeFile _ _ => true
  | .makeDirectory _ => true
  | .removeFile _ => true
  | _ => false

/-- The messages with which the three operations refuse. -/
def errorTexts : List Text :=
  [text "Error: disk is full\n",
    text "Error: cannot create more file within the main root\n",
    text "Error: root dir is full\n", text "Error: file not fount.\n"]

def ReportsError (fs fs' : Fs) : Prop :=
  ∃ message ∈ errorTexts, fs'.printed = fs.printed ++ [message]

/-- The two states differ in a free slot of the current directory, the sector of a
free cluster, and the FAT entry of that cluster. -/
structure CreationOnly (fs fs' : Fs) (i : Slot) (c : UInt16) : Prop where
  slot_free : (dir fs.disk fs.currentDirCluster).name i 0 = 0x00 ∨
    (dir fs.disk fs.currentDirCluster).name i 0 = 0xE5
  cluster_free : InData c ∧ (fs.disk 50).link c = 0
  at_dir : ∀ k : Fin 512, k.val / 32 ≠ i.val →
    dir fs'.disk fs.currentDirCluster k = dir fs.disk fs.currentDirCluster k
  at_fat : ∀ x, (fs'.disk 50).link x = if x = c then 0xFFFF else (fs.disk 50).link x
  other : ∀ lba, lba ≠ dirSector fs.currentDirCluster → lba ≠ clusterToSector c →
    lba ≠ 50 → fs'.disk lba = fs.disk lba

/-- The two states differ in the first name byte of a live slot of the current
directory, and in the FAT entries of the chain of that slot. -/
structure RemovalOnly (fs fs' : Fs) (i : Slot) (l : List UInt16) : Prop where
  live : Live (dir fs.disk fs.currentDirCluster) i
  chain : Chain fs.disk (headOf fs.disk fs.currentDirCluster i) l
  deleted : (dir fs'.disk fs.currentDirCluster).name i 0 = 0xE5
  at_dir : ∀ k : Fin 512, k.val ≠ 32 * i.val →
    dir fs'.disk fs.currentDirCluster k = dir fs.disk fs.currentDirCluster k
  at_fat : ∀ x, (fs'.disk 50).link x = if x ∈ l then 0 else (fs.disk 50).link x
  other : ∀ lba, lba ≠ dirSector fs.currentDirCluster → lba ≠ 50 →
    fs'.disk lba = fs.disk lba

/-- The entry in slot `j` of directory `d` is as it was, with its chain and, but for
slot `i` of the current directory, with its data. -/
structure Keeps (fs fs' : Fs) (i : Slot) (d : UInt16) (j : Slot) : Prop where
  live : Live (dir fs'.disk d) j
  slot : SameSlot (dir fs.disk d) (dir fs'.disk d) j
  chain : ∀ l, Chain fs.disk (headOf fs.disk d j) l → Chain fs'.disk (headOf fs.disk d j) l
  data : ∀ l, Chain fs.disk (headOf fs.disk d j) l → ∀ x ∈ l, ∀ k : Fin 512,
    fs'.disk (clusterToSector x) k = fs.disk (clusterToSector x) k ∨
      (clusterToSector x = dirSector fs.currentDirCluster ∧ k.val / 32 = i.val)

/-- A cluster that is not the current directory keeps its data; the directory keeps it
but for slot `i`. -/
theorem data_or_slot {fs fs' : Fs} {i : Slot} {x : UInt16}
    (hdir : ∀ k : Fin 512, k.val / 32 ≠ i.val →
      dir fs'.disk fs.currentDirCluster k = dir fs.disk fs.currentDirCluster k)
    (hother : clusterToSector x ≠ dirSector fs.currentDirCluster →
      fs'.disk (clusterToSector x) = fs.disk (clusterToSector x)) (k : Fin 512) :
    fs'.disk (clusterToSector x) k = fs.disk (clusterToSector x) k ∨
      (clusterToSector x = dirSector fs.currentDirCluster ∧ k.val / 32 = i.val) := by
  by_cases hcwd : clusterToSector x = dirSector fs.currentDirCluster
  · by_cases hk : k.val / 32 = i.val
    · exact Or.inr ⟨hcwd, hk⟩
    · rw [hcwd]
      exact Or.inl (hdir k hk)
  · rw [hother hcwd]
    exact Or.inl rfl

/-! ## Creation -/

section Creation

variable {fs fs' : Fs} {i : Slot} {name : Buffer 11} {size : UInt32}
  {attributes : UInt8} {data : Sector}

theorem Created.creationOnly (h : Created fs fs' i name size attributes data) :
    CreationOnly fs fs' i (findFreeCluster fs) where
  slot_free := (findFreeDirEntry_eq_some.mp h.slot_free).1
  cluster_free := h.cluster_free
  at_dir := by
    intro k hk
    rw [h.at_dir]
    exact fillEntry_of_div_ne hk
  at_fat := h.link_eq
  other := h.other

theorem Created.keeps (h : Created fs fs' i name size attributes data)
    (hwf : WellFormed fs) (hname : name 0 ≠ 0) {d : UInt16} {j : Slot}
    (hlive : LiveEntry fs.disk d j) : Keeps fs fs' i d j := by
  have hslot : Live (dir fs'.disk d) j ∧ SameSlot (dir fs.disk d) (dir fs'.disk d) j := by
    by_cases hcwd : d = fs.currentDirCluster
    · subst hcwd
      have hji : j ≠ i := fun heq =>
        not_live_of_findFreeDirEntry h.slot_free (heq ▸ hlive.2)
      refine ⟨(h.inserted.live_iff hwf hname j).mpr ?_, h.inserted.sameSlot hji⟩
      rw [if_neg hji]
      exact hlive.2
    · rw [h.inserted.dir_of_reachable hwf hlive.1 hcwd]
      exact ⟨hlive.2, fun _ _ => rfl⟩
  refine ⟨hslot.1, hslot.2, fun l => h.chain_old, fun l hchain x hx k => ?_⟩
  have hin := hchain.inData x hx
  have hnew : clusterToSector x ≠ clusterToSector (findFreeCluster fs) := fun heq =>
    h.not_mem hchain (clusterToSector_inj h.cluster_inData hin heq ▸ hx)
  exact data_or_slot h.creationOnly.at_dir
    (fun hcwd => h.other _ hcwd hnew (clusterToSector_ne_fat hin)) k

end Creation

/-! ## Deletion -/

section Deletion

variable {fs fs' : Fs} {i : Slot} {l : List UInt16}

theorem Removed.removalOnly (h : Removed fs fs' i l) : RemovalOnly fs fs' i l where
  live := h.live
  chain := h.chain
  deleted := by rw [h.at_dir, name0_setName0, if_pos rfl]
  at_dir := by
    intro k hk
    rw [h.at_dir]
    exact setName0_of_ne hk
  at_fat := h.at_fat
  other := h.other

theorem Removed.keeps (h : Removed fs fs' i l) (hwf : WellFormed fs) {d : UInt16}
    {j : Slot} (hlive : LiveEntry fs.disk d j)
    (hne : ¬(d = fs.currentDirCluster ∧ j = i)) : Keeps fs fs' i d j := by
  have hslot : Live (dir fs'.disk d) j ∧ SameSlot (dir fs.disk d) (dir fs'.disk d) j := by
    by_cases hcwd : d = fs.currentDirCluster
    · subst hcwd
      have hji : j ≠ i := fun heq => hne ⟨rfl, heq⟩
      exact ⟨(h.unlinked.live_iff j).mpr ⟨hlive.2, hji⟩, h.unlinked.sameSlot hji⟩
    · rw [h.unlinked.dir_other d hcwd]
      exact ⟨hlive.2, fun _ _ => rfl⟩
  refine ⟨hslot.1, hslot.2, fun l' => h.chain_old hwf hlive hne, fun l' hchain x hx k => ?_⟩
  have hin := hchain.inData x hx
  exact data_or_slot (fun k hk => h.removalOnly.at_dir k (by omega))
    (fun hcwd => h.other _ hcwd (clusterToSector_ne_fat hin)) k

end Deletion

/-! ## Every operation -/

/-- What the call changed in slot `i` of the current directory and beyond. -/
def Changes (call : Call) (fs fs' : Fs) (i : Slot) : Prop :=
  (call.newName ≠ none ∧ ∃ c, CreationOnly fs fs' i c) ∨
    (call.newName = none ∧ ∃ l, RemovalOnly fs fs' i l)

structure Framed (call : Call) (fs fs' : Fs) : Prop where
  cwd_eq : fs'.currentDirCluster = fs.currentDirCluster
  of_error : ReportsError fs fs' → fs'.disk = fs.disk
  of_success : ¬ReportsError fs fs' → ∃ i, Changes call fs fs' i ∧
    ∀ d j, LiveEntry fs.disk d j → ¬(d = fs.currentDirCluster ∧ j = i) →
      Keeps fs fs' i d j

/-- A report of success is three messages. -/
theorem not_reportsError_of_length {fs fs' : Fs}
    (h : fs'.printed.length = fs.printed.length + 3) : ¬ReportsError fs fs' := by
  rintro ⟨message, -, hprinted⟩
  rw [hprinted, List.length_append, List.length_singleton] at h
  omega

theorem not_reportsError_of_report {fs fs' : Fs} {a b c : Text}
    (h : fs'.printed = fs.printed ++ [a, b, c]) : ¬ReportsError fs fs' :=
  not_reportsError_of_length (by rw [h, List.length_append]; rfl)

theorem framed_print (call : Call) (fs : Fs) {message : Text} (h : message ∈ errorTexts) :
    Framed call fs (print message fs) where
  cwd_eq := rfl
  of_error _ := rfl
  of_success hno := absurd ⟨message, h, rfl⟩ hno

theorem framed_createEntry {fs : Fs} (hwf : WellFormed fs) {call : Call} {dirFull : Text}
    (hfull : dirFull ∈ errorTexts) {name : Buffer 11} (hnew : call.newName = some name)
    (size : UInt32) (attributes : UInt8) (data : Sector) (a b c : Text) :
    Framed call fs (createEntry dirFull name size attributes data [a, b, c] fs) := by
  rcases createEntry_outcome hwf dirFull name size attributes data [a, b, c] with
    ⟨message, hmessage, heq⟩ | ⟨i, hcreated, hreport⟩
  · rw [heq]
    refine framed_print call fs ?_
    rcases hmessage with rfl | rfl
    · decide
    · exact hfull
  · refine ⟨hcreated.cwd_eq, fun herr => absurd herr (not_reportsError_of_report hreport),
      fun _ => ⟨i, Or.inl ⟨?_, _, hcreated.creationOnly⟩, fun d j hlive _ => ?_⟩⟩
    · rw [hnew]
      exact Option.some_ne_none name
    · exact hcreated.keeps hwf (Call.newName_ne_zero hnew) hlive

/-- **The operations change only what they are about.** -/
theorem framed_exec {fs : Fs} (hwf : WellFormed fs) {call : Call}
    (hcall : call.isUpdate = true) :
    ∃ fs', exec call fs = .ok fs' ∧ Framed call fs fs' := by
  cases call with
  | writeFile filename content =>
      exact ⟨_, rfl, framed_createEntry hwf (by decide) rfl _ _ _ _ _ _⟩
  | makeDirectory dirname =>
      exact ⟨_, rfl, framed_createEntry hwf (by decide) rfl _ _ _ _ _ _⟩
  | removeFile filename =>
      cases hlook : lookup filename fs with
      | none => exact ⟨_, removeFile_none hlook, framed_print _ fs (by decide)⟩
      | some i =>
          obtain ⟨fs', l, hrun, hremoved, hreport⟩ := removeFile_outcome hwf hlook
          refine ⟨fs', hrun, hremoved.cwd_eq,
            fun herr => absurd herr (not_reportsError_of_report hreport),
            fun _ => ⟨i, Or.inr ⟨rfl, l, hremoved.removalOnly⟩, fun d j hlive hne => ?_⟩⟩
          exact hremoved.keeps hwf hlive hne
  | changeDirectory dirname => cases hcall
  | catFile filename => cases hcall
  | listFiles => cases hcall

/-- A directory beside a file. -/
theorem framed_exec_noteFs :
    LiveEntry noteFs.disk 0 0 ∧ ∃ fs', exec (.makeDirectory strTxt) noteFs = .ok fs' ∧
      Framed (.makeDirectory strTxt) noteFs fs' :=
  ⟨liveEntry_noteFs, framed_exec wellFormed_noteFs rfl⟩

/-- A file written in directory `A` changes the data of the entry `A` itself. -/
theorem not_data_kept_of_parent :
    ∃ fs fs', runs exec [.makeDirectory strA, .changeDirectory strA] blankFs = .ok fs ∧
      WellFormed fs ∧ exec (.writeFile (fatName strA strTxt) strHi) fs = .ok fs' ∧
      ¬ReportsError fs fs' ∧ fs.currentDirCluster = 2 ∧ LiveEntry fs.disk 0 0 ∧
      Chain fs.disk (headOf fs.disk 0 0) [2] ∧
      fs'.disk (clusterToSector 2) ≠ fs.disk (clusterToSector 2) := by
  obtain ⟨fs, hrun, hwf⟩ := formatted_blankFs.wellFormed.runs
    [.makeDirectory strA, .changeDirectory strA]
  obtain rfl : changeDirectory strA (makeDirectory strA blankFs) = fs := Except.ok.inj hrun
  have hcwd : (changeDirectory strA (makeDirectory strA blankFs)).currentDirCluster = 2 := by
    decide +kernel
  have hlive : Live (dir (changeDirectory strA (makeDirectory strA blankFs)).disk 0) 0 := by
    decide +kernel
  have hhead : headOf (changeDirectory strA (makeDirectory strA blankFs)).disk 0 0 = 2 := by
    decide +kernel
  have hlink : ((changeDirectory strA (makeDirectory strA blankFs)).disk 50).link 2
      = 0xFFFF := by
    decide +kernel
  refine ⟨_, _, rfl, hwf, rfl, not_reportsError_of_length (by decide +kernel), hcwd,
    ⟨Forest.reachable_root _, hlive⟩, ?_, fun h => ?_⟩
  · rw [hhead]
    exact ⟨by decide, 0xFFFF, .single (by decide) hlink (by decide), by decide⟩
  · have hbyte : (writeFile (fatName strA strTxt) strHi
        (changeDirectory strA (makeDirectory strA blankFs))).disk (clusterToSector 2) 0
        ≠ (changeDirectory strA (makeDirectory strA blankFs)).disk (clusterToSector 2) 0 := by
      decide +kernel
    exact hbyte (congrFun h 0)

end FirstKernel
