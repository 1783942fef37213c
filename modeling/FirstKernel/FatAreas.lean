import FirstKernel.FatOps
import FirstKernel.Runs

/-!
# Which sectors are written

The file system owns sector 50, the root directory in sector 68 and the
data sectors from 100 on. Its calls write sector 50, the sector of a
cluster that is free, and the sector of the working directory, which
`change_directory` takes from the disk as it finds it there. Every
cluster number has its sector among these but one: cluster 1 has sector
99 (`dirSector_inArea_iff`). So the calls keep to the areas just when
none creates an entry in a directory that claims to be in cluster 1
(`writes_inArea_iff`), whatever else the disk holds.
-/

namespace FirstKernel

def InArea (lba : Nat) : Prop := lba = 50 ∨ lba = 68 ∨ 100 ≤ lba

instance (lba : Nat) : Decidable (InArea lba) := inferInstanceAs (Decidable (_ ∨ _))

def Call.removes : Call → Bool
  | .removeFile _ => true
  | _ => false

/-- In cluster 1, the call creates no entry: it is not a creation, or the disk or
the directory is full. -/
def SparesCluster1 : Call → Fs → Prop
  | .writeFile _ _, fs | .makeDirectory _, fs =>
      fs.currentDirCluster = 1 →
        findFreeCluster fs = 0 ∨ findFreeDirEntry (readCurrentDirectory fs) = none
  | _, _ => True

/-- A shell that has just been started, on any disk. -/
def freshFs (disk : Nat → Sector) : Fs := ⟨disk, 0, [], [], []⟩

theorem dirSector_inArea_iff (d : UInt16) : InArea (dirSector d) ↔ d ≠ 1 := by
  unfold InArea dirSector clusterToSector
  by_cases hroot : d = 0
  · subst hroot
    exact iff_of_true (Or.inr (Or.inl rfl)) (by decide)
  · rw [if_neg hroot, Ne, ← UInt16.toNat_inj, UInt16.toNat_one]
    have hne : d.toNat ≠ 0 := fun h0 => hroot (UInt16.toNat_inj.mp h0)
    omega

theorem clusterToSector_inArea {c : UInt16} (h : InData c) : InArea (clusterToSector c) := by
  have := h.1
  unfold InArea clusterToSector
  omega

/-- The call has written the sectors `ws`, all in the areas just if `p`. -/
structure Wrote (fs fs' : Fs) (ws : List (Nat × Sector)) (p : Prop) : Prop where
  writes_eq : fs'.writes = fs.writes ++ ws
  inArea_iff : (∀ w ∈ ws, InArea w.1) ↔ p

theorem wrote_nothing {fs fs' : Fs} {p : Prop} (hwrites : fs'.writes = fs.writes) (hp : p) :
    Wrote fs fs' [] p where
  writes_eq := by rw [hwrites, List.append_nil]
  inArea_iff := iff_of_true (fun w hw => absurd hw List.not_mem_nil) hp

theorem wrote_createEntry (dirFull : Text) (name : Buffer 11) (size : UInt32)
    (attributes : UInt8) (data : Sector) (report : List Text) (fs : Fs) :
    ∃ ws, Wrote fs (createEntry dirFull name size attributes data report fs) ws
      (fs.currentDirCluster = 1 →
        findFreeCluster fs = 0 ∨ findFreeDirEntry (readCurrentDirectory fs) = none) := by
  rcases createEntry_cases dirFull name size attributes data report fs with
    ⟨hfull, heq⟩ | ⟨_, hslots, heq⟩ | ⟨hfree, i, hslot, heq⟩
  · exact ⟨[], wrote_nothing (by rw [heq]; rfl) fun _ => Or.inl hfull⟩
  · exact ⟨[], wrote_nothing (by rw [heq]; rfl) fun _ => Or.inr hslots⟩
  · refine ⟨_, by rw [heq]; rfl, ?_⟩
    have hcluster := clusterToSector_inArea (findFreeCluster_free hfree).1
    have hnone : ¬(findFreeCluster fs = 0 ∨ findFreeDirEntry (readCurrentDirectory fs) = none) := by
      rintro (h | h)
      · exact hfree h
      · rw [hslot] at h
        cases h
    simp only [createWrites, List.forall_mem_cons, dirSector_inArea_iff]
    constructor
    · exact fun h hone => absurd hone h.1
    · exact fun h => ⟨fun hone => hnone (h hone), hcluster, Or.inl rfl,
        fun w hw => absurd hw List.not_mem_nil⟩

theorem writes_catFile {filename : CString} {fs fs' : Fs} (h : catFile filename fs = .ok fs') :
    fs'.writes = fs.writes := by
  cases hlook : lookup filename fs with
  | none =>
      rw [catFile_none hlook] at h
      obtain rfl := Except.ok.inj h
      rfl
  | some i =>
      obtain ⟨l, z, -, rfl⟩ := (catFile_some hlook).mp h
      rfl

theorem writes_changeDirectory (dirname : CString) (fs : Fs) :
    (changeDirectory dirname fs).writes = fs.writes := by
  unfold changeDirectory
  split
  · rfl
  · simp only
    split
    · rfl
    · split <;> rfl

/-- **Step.** A call writes in the areas just if it creates nothing in cluster 1. -/
theorem wrote_exec {c : Call} {fs fs' : Fs} (hc : c.removes = false)
    (h : exec c fs = .ok fs') : ∃ ws, Wrote fs fs' ws (SparesCluster1 c fs) := by
  cases c with
  | writeFile filename content =>
      obtain rfl := Except.ok.inj h
      exact wrote_createEntry ..
  | makeDirectory dirname =>
      obtain rfl := Except.ok.inj h
      exact wrote_createEntry ..
  | removeFile filename => cases hc
  | changeDirectory dirname =>
      obtain rfl := Except.ok.inj h
      exact ⟨[], wrote_nothing (writes_changeDirectory dirname fs) trivial⟩
  | catFile filename => exact ⟨[], wrote_nothing (writes_catFile h) trivial⟩
  | listFiles =>
      obtain rfl := Except.ok.inj h
      exact ⟨[], wrote_nothing rfl trivial⟩

theorem wrote_runs : ∀ (calls : List Call) {fs fs' : Fs}, (∀ c ∈ calls, c.removes = false) →
    runs exec calls fs = .ok fs' → ∃ ws, Wrote fs fs' ws (Guarded exec SparesCluster1 calls fs)
  | [], fs, fs', _, h => by
      obtain rfl := Except.ok.inj h
      exact ⟨[], wrote_nothing rfl trivial⟩
  | c :: calls, fs, fs', hcalls, h => by
      obtain ⟨hc, hcalls⟩ := List.forall_mem_cons.mp hcalls
      obtain ⟨fs1, hstep, hrun⟩ := runs_cons_eq_ok h
      obtain ⟨ws, hws⟩ := wrote_exec hc hstep
      obtain ⟨ws', hws'⟩ := wrote_runs calls hcalls hrun
      refine ⟨ws ++ ws', ?_, ?_⟩
      · rw [hws'.writes_eq, hws.writes_eq, List.append_assoc]
      · rw [List.forall_mem_append, hws.inArea_iff, hws'.inArea_iff, Guarded, hstep]
        exact and_congr_right fun _ =>
          ⟨fun hg s hs => Except.ok.inj hs ▸ hg, fun hg => hg fs1 rfl⟩

/-- **Areas.** On any disk, calls that remove nothing write only the sectors of the
file system just when none of them creates an entry in cluster 1. -/
theorem writes_inArea_iff (disk : Nat → Sector) (calls : List Call)
    (hcalls : ∀ c ∈ calls, c.removes = false) {fs : Fs}
    (hrun : runs exec calls (freshFs disk) = .ok fs) :
    (∀ w ∈ fs.writes, InArea w.1) ↔ Guarded exec SparesCluster1 calls (freshFs disk) := by
  obtain ⟨ws, hws⟩ := wrote_runs calls hcalls hrun
  rw [hws.writes_eq]
  exact hws.inArea_iff

def zeroDisk : Nat → Sector := fun _ => Buffer.zeros 512

theorem firstSlot_lt : 0 < 16 := by decide

/-- The root has a directory `A` in a cluster that was never taken. -/
def corruptDisk (cluster : UInt16) : Nat → Sector :=
  Function.update zeroDisk 68
    (Sector.fillEntry (Buffer.zeros 512) ⟨0, firstSlot_lt⟩ (dirName strA) 0 0x10 cluster)

/-- It is entered, and a file and a directory are created there. -/
def callsThere : List Call :=
  [.changeDirectory strA, .writeFile (fatName strA strTxt) strHi, .makeDirectory strA]

/-- Even the number that marks a bad cluster is no harm. -/
theorem writes_inArea_iff_badCluster :
    ∃ fs, runs exec callsThere (freshFs (corruptDisk 0xFFF7)) = .ok fs ∧
      fs.writes.map Prod.fst = [0x10059, 100, 50, 0x10059, 101, 50] ∧
      ∀ w ∈ fs.writes, InArea w.1 := by
  obtain ⟨fs, hrun, hend⟩ := exists_of_endsWith
    (r := runs exec callsThere (freshFs (corruptDisk 0xFFF7)))
    (p := fun fs => decide (fs.writes.map Prod.fst = [0x10059, 100, 50, 0x10059, 101, 50]))
    (by decide +kernel)
  refine ⟨fs, hrun, of_decide_eq_true hend, (writes_inArea_iff _ callsThere ?_ hrun).mpr ?_⟩
  · decide
  · refine ⟨trivial, fun fs1 h1 => ⟨fun hone => ?_,
      fun fs2 h2 => ⟨fun hone => ?_, fun _ _ => trivial⟩⟩⟩
    · obtain rfl := Except.ok.inj h1
      exact absurd hone (by decide +kernel)
    · obtain rfl := Except.ok.inj h1
      obtain rfl := Except.ok.inj h2
      exact absurd hone (by decide +kernel)

/-- A file that is written in that directory goes to sector 99. -/
theorem not_writes_inArea :
    ∃ fs, runs exec [.changeDirectory strA, .writeFile (fatName strA strTxt) strHi]
        (freshFs (corruptDisk 1)) = .ok fs ∧
      ¬∀ w ∈ fs.writes, InArea w.1 := by
  obtain ⟨fs, hrun, hend⟩ := exists_of_endsWith
    (r := runs exec [.changeDirectory strA, .writeFile (fatName strA strTxt) strHi]
      (freshFs (corruptDisk 1)))
    (p := fun fs => decide (99 ∈ fs.writes.map Prod.fst)) (by decide +kernel)
  refine ⟨fs, hrun, fun hall => ?_⟩
  obtain ⟨w, hw, h99⟩ := List.mem_map.mp (of_decide_eq_true hend)
  have harea := hall w hw
  rw [h99] at harea
  exact absurd harea (by decide)

end FirstKernel
