import FirstKernel.FatInvariant

/-!
# Runs of the file system

`Effect` says what one call can do to a well-formed volume: nothing,
move the shell, create an entry, or remove one. Every call returns with
one of these effects (`exec_effect`); in particular the chain walks of
`cat_file` and `remove_file` end, inside sector 50. Results about runs
are an induction with one case per effect, the first being that
well-formedness is never lost (`wellFormed_runs`).
-/

namespace FirstKernel

/-- The eleven bytes that a creating call stores as the name. -/
def Call.newName : Call → Option (Buffer 11)
  | .writeFile filename _ => some filename.bytes
  | .makeDirectory dirname => some (dirName dirname)
  | _ => none

/-- What a call can do to a well-formed volume. -/
inductive Effect : Call → Fs → Fs → Prop
  | quiet {call : Call} {fs fs' : Fs} (hd : fs'.disk = fs.disk)
      (hc : fs'.currentDirCluster = fs.currentDirCluster) : Effect call fs fs'
  | moved {dirname : CString} {fs fs' : Fs} (hd : fs'.disk = fs.disk)
      (hc : fs'.currentDirCluster = 0 ∨ ∃ i, lookup dirname fs = some i ∧
        (dir fs.disk fs.currentDirCluster).attributes i = 0x10 ∧
        fs'.currentDirCluster = headOf fs.disk fs.currentDirCluster i) :
      Effect (.changeDirectory dirname) fs fs'
  | created {call : Call} {fs fs' : Fs} {i : Slot} {name : Buffer 11} {size : UInt32}
      {attributes : UInt8} {data : Sector} (hnew : call.newName = some name)
      (h : Created fs fs' i name size attributes data)
      (hdata : attributes = 0x10 → ∀ j, data.name j 0 = 0) : Effect call fs fs'
  | removed {filename : CString} {fs fs' : Fs} {i : Slot} {l : List UInt16}
      (hlook : lookup filename fs = some i) (h : Removed fs fs' i l) :
      Effect (.removeFile filename) fs fs'

theorem Call.newName_ne_zero {call : Call} {name : Buffer 11}
    (h : call.newName = some name) : name 0 ≠ 0 := by
  cases call <;> simp only [Call.newName, reduceCtorEq, Option.some.injEq] at h
  case writeFile filename _ =>
      subst h
      exact filename.noNul 0
  case makeDirectory dirname =>
      subst h
      exact @append_ne_zero 8 3 _ _ (padded_ne_zero dirname) (fun _ => by decide) 0

theorem nameOf_fatName (name ext : CString) :
    nameOf (fatName name ext).bytes = padded 8 name :=
  funext fun m => Fin.append_left (padded 8 name) (padded 3 ext) m

theorem nameOf_dirName (dirname : CString) : nameOf (dirName dirname) = padded 8 dirname :=
  funext fun m => Fin.append_left (padded 8 dirname) (fun _ : Fin 3 => (0x20 : UInt8)) m

/-- A creation is refused with a message, or done and reported. -/
theorem createEntry_outcome {fs : Fs} (hwf : WellFormed fs) (dirFull : Text)
    (name : Buffer 11) (size : UInt32) (attributes : UInt8) (data : Sector)
    (report : List Text) :
    (∃ message, (message = text "Error: disk is full\n" ∨ message = dirFull) ∧
      createEntry dirFull name size attributes data report fs = print message fs) ∨
    ∃ i, Created fs (createEntry dirFull name size attributes data report fs) i name size
        attributes data ∧
      (createEntry dirFull name size attributes data report fs).printed
        = fs.printed ++ report := by
  rcases createEntry_cases dirFull name size attributes data report fs with
    ⟨-, heq⟩ | ⟨-, -, heq⟩ | ⟨hc, i, hi, heq⟩
  · exact Or.inl ⟨_, Or.inl rfl, heq⟩
  · exact Or.inl ⟨_, Or.inr rfl, heq⟩
  · rw [heq]
    exact Or.inr ⟨i, created_of_writes hwf hc hi name size attributes data report, rfl⟩

theorem effect_createEntry {fs : Fs} (hwf : WellFormed fs) {call : Call}
    {name : Buffer 11} (hnew : call.newName = some name) (dirFull : Text)
    (size : UInt32) {attributes : UInt8} {data : Sector} (report : List Text)
    (hdata : attributes = 0x10 → ∀ j, data.name j 0 = 0) :
    Effect call fs (createEntry dirFull name size attributes data report fs) := by
  rcases createEntry_outcome hwf dirFull name size attributes data report with
    ⟨message, -, heq⟩ | ⟨i, hcreated, -⟩
  · rw [heq]
    exact .quiet rfl rfl
  · exact .created hnew hcreated hdata

/-- In a well-formed volume `remove_file` returns, with the entry deleted and its
chain freed. -/
theorem removeFile_removed {fs : Fs} (hwf : WellFormed fs) {filename : CString}
    {i : Slot} (hlook : lookup filename fs = some i) :
    ∃ l fat', Chain fs.disk (headOf fs.disk fs.currentDirCluster i) l ∧
      (∀ x, fat'.link x = if x ∈ l then 0 else (fs.disk 50).link x) ∧
      removeFile filename fs = .ok (printAll (removeReport filename)
        (Fs.withWrites (removeWrites fs i fat')
          { fs with visited := fs.visited ++ l })) := by
  obtain ⟨l, hchain⟩ := hwf.chains _ i ⟨hwf.cwd, lookup_live hlook⟩
  obtain ⟨z, hw⟩ := hchain.walk
  obtain ⟨fat', hfat, hrun⟩ := removeFile_of_walk hlook hchain.1.1 hw
    fun x hx => (hchain.inData x hx).lt
  exact ⟨l, fat', hchain, hfat, hrun⟩

theorem removeFile_outcome {fs : Fs} (hwf : WellFormed fs) {filename : CString}
    {i : Slot} (hlook : lookup filename fs = some i) :
    ∃ fs' l, removeFile filename fs = .ok fs' ∧ Removed fs fs' i l ∧
      fs'.printed = fs.printed ++ removeReport filename := by
  obtain ⟨l, fat', hchain, hfat, hrun⟩ := removeFile_removed hwf hlook
  exact ⟨_, l, hrun, removed_of_writes (lookup_live hlook) hchain hfat _, rfl⟩

/-- In a well-formed volume `cat_file` returns, having printed the chain. -/
theorem catFile_chain {fs : Fs} (hwf : WellFormed fs) {filename : CString}
    {i : Slot} (hlook : lookup filename fs = some i) :
    ∃ l, Chain fs.disk (headOf fs.disk fs.currentDirCluster i) l ∧
      catFile filename fs
        = .ok (print (text "\n\n") ((print (text "\n") fs).afterCat l)) := by
  obtain ⟨l, hchain⟩ := hwf.chains _ i ⟨hwf.cwd, lookup_live hlook⟩
  obtain ⟨z, hw⟩ := hchain.catWalk
  exact ⟨l, hchain, (catFile_some hlook).mpr ⟨l, z, hw, rfl⟩⟩

theorem effect_changeDirectory (dirname : CString) (fs : Fs) :
    Effect (.changeDirectory dirname) fs (changeDirectory dirname fs) := by
  unfold changeDirectory
  split
  · exact .moved rfl (Or.inl rfl)
  · simp only
    split
    · exact .quiet rfl rfl
    · next i hlook =>
        split
        · next hattr => exact .moved rfl (Or.inr ⟨i, hlook, hattr, rfl⟩)
        · exact .quiet rfl rfl

theorem exec_effect {fs : Fs} (hwf : WellFormed fs) (call : Call) :
    ∃ fs', exec call fs = .ok fs' ∧ Effect call fs fs' := by
  cases call with
  | writeFile filename content =>
      exact ⟨_, rfl, effect_createEntry hwf rfl _ _ _ fun h => absurd h (by decide)⟩
  | makeDirectory dirname =>
      exact ⟨_, rfl, effect_createEntry hwf rfl _ _ _ fun _ _ => rfl⟩
  | removeFile filename =>
      cases hlook : lookup filename fs with
      | none => exact ⟨_, removeFile_none hlook, .quiet rfl rfl⟩
      | some i =>
          obtain ⟨fs', l, hrun, hremoved, -⟩ := removeFile_outcome hwf hlook
          exact ⟨fs', hrun, .removed hlook hremoved⟩
  | changeDirectory dirname => exact ⟨_, rfl, effect_changeDirectory dirname fs⟩
  | catFile filename =>
      cases hlook : lookup filename fs with
      | none => exact ⟨_, catFile_none hlook, .quiet rfl rfl⟩
      | some i =>
          obtain ⟨l, -, hrun⟩ := catFile_chain hwf hlook
          exact ⟨_, hrun, .quiet rfl rfl⟩
  | listFiles => exact ⟨_, rfl, .quiet rfl rfl⟩

theorem Effect.wellFormed {call : Call} {fs fs' : Fs} (h : Effect call fs fs')
    (hwf : WellFormed fs) : WellFormed fs' := by
  cases h with
  | quiet hd hc => exact hwf.congr hd hc
  | moved hd hc =>
      refine ⟨by rw [hd]; exact hwf.chains, by rw [hd]; exact hwf.disjoint,
        by rw [hd]; exact hwf.tidy, ?_⟩
      rw [hd]
      rcases hc with h0 | ⟨i, hlook, hattr, hhead⟩
      · rw [h0]; exact Forest.reachable_root _
      · -- the directory entered is the head of a live directory entry
        have hlive : LiveEntry fs.disk fs.currentDirCluster i :=
          ⟨hwf.cwd, lookup_live hlook⟩
        rw [hhead]
        exact hlive.live.reachable_head (decide_eq_true hattr)
  | created hnew h hdata => exact h.wellFormed hwf (Call.newName_ne_zero hnew) hdata
  | removed _ h => exact h.wellFormed hwf

theorem exec_wellFormed {fs : Fs} (hwf : WellFormed fs) (call : Call) :
    ∃ fs', exec call fs = .ok fs' ∧ WellFormed fs' := by
  obtain ⟨fs', hrun, heff⟩ := exec_effect hwf call
  exact ⟨fs', hrun, heff.wellFormed hwf⟩

/-! ## Formatted disks -/

theorem Formatted.not_live {fs : Fs} (h : Formatted fs) (i : Slot) :
    ¬Live (dir fs.disk 0) i := by
  intro hlive
  have hroot : dir fs.disk 0 = Buffer.zeros 512 := h.root
  rw [hroot] at hlive
  exact hlive.2 i (Fin.le_refl i) rfl

theorem Formatted.reachable {fs : Fs} (h : Formatted fs) {d : UInt16}
    (hd : Reachable fs.disk d) : d = 0 :=
  Forest.reachable_eq_root_of_empty (fun i => entry_eq_none.mpr (h.not_live i)) hd

theorem Formatted.not_liveEntry {fs : Fs} (h : Formatted fs) (d : UInt16) (i : Slot) :
    ¬LiveEntry fs.disk d i := by
  rintro ⟨hd, hlive⟩
  rw [h.reachable hd] at hlive
  exact h.not_live i hlive

theorem Formatted.wellFormed {fs : Fs} (h : Formatted fs) : WellFormed fs where
  chains d i hlive := absurd hlive (h.not_liveEntry d i)
  disjoint d i _ _ _ _ hlive := absurd hlive (h.not_liveEntry d i)
  tidy d hd := by
    rw [h.reachable hd]
    have hroot : dir fs.disk 0 = Buffer.zeros 512 := h.root
    rw [hroot]
    exact fun _ _ _ _ => rfl
  cwd := by
    rw [h.cwd]
    exact Forest.reachable_root _

theorem formatted_blankFs : Formatted blankFs := by
  refine ⟨fun c _ => ?_, rfl, rfl⟩
  rfl

/-! ## The invariant over runs -/

theorem WellFormed.runs {fs : Fs} (hwf : WellFormed fs) (calls : List Call) :
    ∃ fs', runs exec calls fs = .ok fs' ∧ WellFormed fs' :=
  runs_invariant (fun call _ hwf _ => exec_wellFormed hwf call) calls fs hwf
    (guarded_true calls fs)

/-- **Volume well-formedness is an invariant.** A formatted disk is well formed,
and from a well-formed volume every sequence of calls returns, each state it
passes through being well formed. -/
theorem wellFormed_runs :
    (∀ fs, Formatted fs → WellFormed fs) ∧
    ∀ fs, WellFormed fs → ∀ calls pre : List Call, pre <+: calls →
      ∃ fs', runs exec pre fs = .ok fs' ∧ WellFormed fs' :=
  ⟨fun _ h => h.wellFormed, fun _ hwf _ pre _ => hwf.runs pre⟩

/-- Deleting a directory with a file in it, from a formatted disk. -/
theorem wellFormed_runs_blankFs :
    ∃ fs', runs exec [.makeDirectory strA, .changeDirectory strA,
      .writeFile (fatName strA strTxt) strHi, .changeDirectory dotDot, .removeFile strA]
      blankFs = .ok fs' ∧ WellFormed fs' :=
  wellFormed_runs.2 blankFs (wellFormed_runs.1 blankFs formatted_blankFs) _ _
    (List.prefix_refl _)

/-- A volume with one file. -/
def noteFs : Fs := writeFile (fatName strA strTxt) strHi blankFs

theorem wellFormed_noteFs : WellFormed noteFs := by
  obtain ⟨fs', hrun, hwf⟩ :=
    exec_wellFormed formatted_blankFs.wellFormed (.writeFile (fatName strA strTxt) strHi)
  obtain rfl := Except.ok.inj hrun
  exact hwf

theorem liveEntry_noteFs : LiveEntry noteFs.disk 0 0 := by
  have hlive : Live (dir noteFs.disk 0) 0 := by decide +kernel
  exact ⟨Forest.reachable_root _, hlive⟩

end FirstKernel
