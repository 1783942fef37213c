import FirstKernel.FatRuns

/-!
# `cd` and `cd ..`

`change_directory` keeps one cluster number and no path, and no directory
has an entry for its parent. So entering a directory extends the way from
the root by the entry that was entered, and `..` does not shorten it by
that entry: like `/`, it leads to the root. From a directory in the root
that is one level up, from anywhere deeper it is not
(`changeDirectory_dotDot_runs`).
-/

namespace FirstKernel

/-- `change_directory` finds the name and enters the directory. -/
def Enters (dirname : CString) (fs : Fs) : Prop :=
  dirname ≠ slash ∧ dirname ≠ dotDot ∧ ∃ i, lookup dirname fs = some i ∧
    (readCurrentDirectory fs).attributes i = 0x10

theorem changeDirectory_dotDot (fs : Fs) :
    (changeDirectory dotDot fs).currentDirCluster = 0 := by
  have hmatch : strcmp dotDot slash = 0 ∨ strcmp dotDot dotDot = 0 :=
    Or.inr (strcmp_eq_zero.mpr rfl)
  rw [changeDirectory, if_pos hmatch]
  rfl

/-- Entering a directory goes to the first cluster of its entry. -/
theorem changeDirectory_of_lookup {dirname : CString} {fs : Fs} {i : Slot}
    (hslash : dirname ≠ slash) (hdotDot : dirname ≠ dotDot) (hlook : lookup dirname fs = some i)
    (hattr : (readCurrentDirectory fs).attributes i = 0x10) :
    (changeDirectory dirname fs).disk = fs.disk ∧
      (changeDirectory dirname fs).currentDirCluster =
        headOf fs.disk fs.currentDirCluster i := by
  have hname : ¬(strcmp dirname slash = 0 ∨ strcmp dirname dotDot = 0) := by
    rw [strcmp_eq_zero, strcmp_eq_zero, not_or]
    exact ⟨hslash, hdotDot⟩
  rw [changeDirectory, if_neg hname]
  simp only [hlook, if_pos hattr]
  exact ⟨rfl, rfl⟩

/-- The way from the root to a directory, as the slots it leads through. -/
def LeadsTo (fs : Fs) (edges : List (UInt16 × Slot)) (d : UInt16) : Prop :=
  (forestOf fs.disk).Path d edges

/-- What `cd dirname` and then `cd ..` do: one level down, and then to the root. The
former directory is restored if it was the root. -/
structure DownAndRoot (dirname : CString) (fs : Fs) : Prop where
  reached : ∃ edges, LeadsTo fs edges fs.currentDirCluster
  down : ∃ i, ∀ edges, LeadsTo fs edges fs.currentDirCluster →
    LeadsTo fs ((fs.currentDirCluster, i) :: edges)
      (changeDirectory dirname fs).currentDirCluster
  root : (changeDirectory dotDot (changeDirectory dirname fs)).currentDirCluster = 0
  restores_iff : ∀ edges, LeadsTo fs edges fs.currentDirCluster →
    ((changeDirectory dotDot (changeDirectory dirname fs)).currentDirCluster =
      fs.currentDirCluster ↔ edges = [])

theorem WellFormed.downAndRoot {fs : Fs} (hwf : WellFormed fs) {dirname : CString}
    (henters : Enters dirname fs) : DownAndRoot dirname fs := by
  obtain ⟨hslash, hdotDot, i, hlook, hattr⟩ := henters
  obtain ⟨-, hcwd⟩ := changeDirectory_of_lookup hslash hdotDot hlook hattr
  refine ⟨Forest.Reachable.exists_path hwf.cwd, ⟨i, fun edges hpath => ?_⟩,
    changeDirectory_dotDot _, fun edges hpath => ?_⟩
  · have hlive : LiveEntry fs.disk fs.currentDirCluster i := ⟨hwf.cwd, lookup_live hlook⟩
    rw [hcwd]
    exact .sub hpath hlive.live.2 (decide_eq_true hattr)
  · rw [changeDirectory_dotDot, eq_comm]
    exact hwf.sound.path_root_iff hpath

/-- **`cd ..` leads to the root.** In every state that calls on a formatted disk reach,
it undoes `cd` just where no slot leads to the current directory. -/
theorem changeDirectory_dotDot_runs {fs : Fs} (hfs : Formatted fs) (calls : List Call) :
    ∃ fs', runs exec calls fs = .ok fs' ∧
      ∀ dirname, Enters dirname fs' → DownAndRoot dirname fs' := by
  obtain ⟨fs', hrun, hwf⟩ := hfs.wellFormed.runs calls
  exact ⟨fs', hrun, fun _ henters => hwf.downAndRoot henters⟩

/-- A directory made in the root. -/
theorem changeDirectory_dotDot_runs_blankFs :
    ∃ fs', runs exec [.makeDirectory strA] blankFs = .ok fs' ∧ DownAndRoot strA fs' := by
  obtain ⟨fs', hrun, hcd⟩ := changeDirectory_dotDot_runs formatted_blankFs [.makeDirectory strA]
  obtain rfl := Except.ok.inj hrun
  exact ⟨_, rfl, hcd strA
    ⟨by decide, by decide, 0, by decide +kernel, by decide +kernel⟩⟩

/-- From a directory in a directory, `cd ..` goes two levels up. -/
theorem not_cd_undone :
    ∃ fs, runs exec [.makeDirectory strA, .changeDirectory strA, .makeDirectory strHi] blankFs
        = .ok fs ∧ Enters strHi fs ∧
      (changeDirectory dotDot (changeDirectory strHi fs)).currentDirCluster
        ≠ fs.currentDirCluster := by
  refine ⟨_, rfl, ⟨by decide, by decide, 0, by decide +kernel, by decide +kernel⟩, ?_⟩
  rw [changeDirectory_dotDot]
  decide +kernel

end FirstKernel
