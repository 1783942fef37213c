import FirstKernel.FatConserve
import FirstKernel.FatFrame

/-!
# Written files are durable

A file that `write_file` has stored stays what it is until somebody
removes it. `Stored` is the invariant: the entry stands in its slot of a
directory that the same slots still lead to, under a name no other entry
of the directory has, and its one cluster holds the contents. Every call
that is `Sparing` keeps it, by the frame conditions of `FatFrame`, and in
a state with it `cat_file` prints the contents between a newline and two
(`writeFile_durable`).
-/

namespace FirstKernel

/-- A file stands in slot `i` of directory `d`, which the slots `edges` lead to. -/
structure Stored (d : UInt16) (edges : List (UInt16 × Slot)) (i : Slot) (name : Buffer 8)
    (data : Sector) (fs : Fs) : Prop where
  wellFormed : WellFormed fs
  path : (forestOf fs.disk).Path d edges
  live : Live (dir fs.disk d) i
  isFile : (dir fs.disk d).attributes i ≠ 0x10
  name_eq : (dir fs.disk d).name i = name
  unique : ∀ j, Live (dir fs.disk d) j → (dir fs.disk d).name j = name → j = i
  chain : Chain fs.disk (headOf fs.disk d i) [headOf fs.disk d i]
  data_eq : fs.disk (clusterToSector (headOf fs.disk d i)) = data

/-- The call removes neither the entry in slot `i` of `d` nor one on the way `edges`
to `d`, and creates no entry called `name` in `d`. -/
def Sparing (d : UInt16) (edges : List (UInt16 × Slot)) (i : Slot) (name : Buffer 8)
    (call : Call) (fs : Fs) : Prop :=
  (∀ filename j, call = .removeFile filename → lookup filename fs = some j →
    (fs.currentDirCluster, j) ∉ (d, i) :: edges) ∧
  ∀ new, call.newName = some new → fs.currentDirCluster = d → nameOf new = name →
    DiskFull fs ∨ DirectoryFull fs

namespace Stored

variable {d : UInt16} {edges : List (UInt16 × Slot)} {i : Slot} {name : Buffer 8}
  {data : Sector} {fs fs' : Fs}

theorem liveEntry (h : Stored d edges i name data fs) : LiveEntry fs.disk d i :=
  ⟨h.path.reachable, h.live⟩

/-- The cluster of the file is not a directory. -/
theorem dirSector_ne (h : Stored d edges i name data fs) {x : UInt16}
    (hx : Reachable fs.disk x) : clusterToSector (headOf fs.disk d i) ≠ dirSector x := by
  rw [← dirSector_of_inData h.chain.1]
  intro heq
  obtain rfl := dirSector_injective heq
  rcases Forest.reachable_cases hx with hroot | ⟨y, j, e, he, hdir, hhead⟩
  · have h0 : headOf fs.disk d i = 0 := hroot
    exact not_inData_zero (h0 ▸ h.chain.1)
  · -- the only entry with this cluster is the file itself
    have hown : (forestOf fs.disk).Owns e.head (headOf fs.disk d i) := by
      rw [hhead]
      exact ⟨h.chain.1, .refl⟩
    obtain ⟨rfl, rfl⟩ := h.wellFormed.sound.disjoint he h.liveEntry.live hown
      ⟨h.chain.1, .refl⟩
    obtain ⟨-, rfl⟩ := entry_eq_some.mp he.2
    exact h.isFile (of_decide_eq_true hdir)

theorem of_disk (h : Stored d edges i name data fs) (hwf : WellFormed fs')
    (hd : fs'.disk = fs.disk) : Stored d edges i name data fs' where
  wellFormed := hwf
  path := by rw [hd]; exact h.path
  live := by rw [hd]; exact h.live
  isFile := by rw [hd]; exact h.isFile
  name_eq := by rw [hd]; exact h.name_eq
  unique := by rw [hd]; exact h.unique
  chain := by rw [hd]; exact h.chain
  data_eq := by rw [hd]; exact h.data_eq

/-- What has to be shown of an operation that keeps the entry. -/
theorem of_keeps (h : Stored d edges i name data fs) (hwf : WellFormed fs') {s : Slot}
    (hkeeps : Keeps fs fs' s d i) (hpath : (forestOf fs'.disk).Path d edges)
    (hunique : ∀ j, Live (dir fs'.disk d) j → (dir fs'.disk d).name j = name →
      Live (dir fs.disk d) j ∧ (dir fs.disk d).name j = name) :
    Stored d edges i name data fs' := by
  have hhead : headOf fs'.disk d i = headOf fs.disk d i := hkeeps.slot.clusterLow_eq
  refine ⟨hwf, hpath, hkeeps.live, ?_, ?_, fun j hj hname => ?_, ?_, ?_⟩
  · rw [hkeeps.slot.attributes_eq]
    exact h.isFile
  · rw [← h.name_eq]
    exact hkeeps.slot.whole_name_eq
  · obtain ⟨hlive, hold⟩ := hunique j hj hname
    exact h.unique j hlive hold
  · rw [hhead]
    exact hkeeps.chain _ h.chain
  · rw [hhead, ← h.data_eq]
    funext k
    rcases hkeeps.data _ h.chain _ (List.mem_singleton_self _) k with heq | ⟨heq, -⟩
    · exact heq
    · exact absurd heq (h.dirSector_ne h.wellFormed.cwd)

theorem created (h : Stored d edges i name data fs) {s : Slot} {new : Buffer 11}
    {size : UInt32} {attributes : UInt8} {data' : Sector}
    (hc : Created fs fs' s new size attributes data') (hnew : new 0 ≠ 0)
    (hdata : attributes = 0x10 → ∀ j, data'.name j 0 = 0)
    (hother : fs.currentDirCluster = d → nameOf new ≠ name) :
    Stored d edges i name data fs' := by
  have hwf := h.wellFormed
  refine h.of_keeps (hc.wellFormed hwf hnew hdata) (hc.keeps hwf hnew h.liveEntry)
    ((hc.alloc hwf hnew hdata).path hwf.sound h.path) fun j hj hname => ?_
  by_cases hcwd : d = fs.currentDirCluster
  · subst hcwd
    have hlive := (hc.inserted.live_iff hwf hnew j).mp hj
    by_cases hjs : j = s
    · subst hjs
      refine absurd ?_ (hother rfl)
      rw [← hname, hc.at_dir]
      exact funext fun m => (name_fillEntry_self m).symm
    · rw [if_neg hjs] at hlive
      exact ⟨hlive, hname ▸ (hc.inserted.sameSlot hjs).whole_name_eq.symm⟩
  · rw [hc.inserted.dir_of_reachable hwf h.path.reachable hcwd] at hj hname
    exact ⟨hj, hname⟩

theorem removed (h : Stored d edges i name data fs) {s : Slot} {l : List UInt16}
    (hr : Removed fs fs' s l) (hspare : (fs.currentDirCluster, s) ∉ (d, i) :: edges) :
    Stored d edges i name data fs' := by
  have hwf := h.wellFormed
  rw [List.mem_cons, not_or] at hspare
  have hne : ¬(d = fs.currentDirCluster ∧ i = s) := fun heq =>
    hspare.1 (by rw [heq.1, heq.2])
  refine h.of_keeps (hr.wellFormed hwf) (hr.keeps hwf h.liveEntry hne)
    ((hr.prune hwf).path h.path hspare.2) fun j hj hname => ?_
  by_cases hcwd : d = fs.currentDirCluster
  · subst hcwd
    obtain ⟨hlive, hjs⟩ := (hr.unlinked.live_iff j).mp hj
    exact ⟨hlive, hname ▸ (hr.unlinked.sameSlot hjs).whole_name_eq.symm⟩
  · rw [hr.unlinked.dir_other d hcwd] at hj hname
    exact ⟨hj, hname⟩

theorem effect (h : Stored d edges i name data fs) {call : Call}
    (heff : Effect call fs fs') (hspare : Sparing d edges i name call fs) :
    Stored d edges i name data fs' := by
  cases heff with
  | quiet hd hc => exact h.of_disk (h.wellFormed.congr hd hc) hd
  | moved hd hc => exact h.of_disk ((Effect.moved hd hc).wellFormed h.wellFormed) hd
  | created hnew hc hdata =>
      exact h.created hc (Call.newName_ne_zero hnew) hdata fun hcwd hname =>
        hc.not_full (hspare.2 _ hnew hcwd hname)
  | removed hlook hr => exact h.removed hr (hspare.1 _ _ rfl hlook)

end Stored

/-! ## Reading the file back -/

theorem clusterText_contentSector {disk : Nat → Sector} {c : UInt16} {content : CString}
    (h : disk (clusterToSector c) = contentSector content) (hlen : strlen content ≤ 511) :
    clusterText disk c = content.chars := by
  have htake : content.chars.take 511 = content.chars := List.take_of_length_le hlen
  have hlt : content.chars.length < 512 := Nat.lt_succ_of_le hlen
  rw [clusterText, h, contentSector, htake]
  refine stringAt_ofFn content.noNul hlt (fun k hk => ?_) ?_
  · have hne : k ≠ 511 := by
      have : content.chars.length ≤ 511 := hlen
      omega
    rw [Buffer.set_of_ne _ _ hne]
    refine Buffer.blit_of_mem _ (Nat.zero_le _) ?_
    rw [Nat.sub_zero, List.getElem?_eq_getElem hk]
  · by_cases hfull : content.chars.length = 511
    · simp only [hfull]
      exact Buffer.set_self _ 0 (by decide)
    · rw [Buffer.set_of_ne _ _ hfull, Buffer.blit_of_ge]
      · rfl
      · exact Nat.le_of_eq (Nat.zero_add _)

/-- In its directory the file is found by its name and printed. -/
theorem Stored.catFile_ok {d : UInt16} {edges : List (UInt16 × Slot)} {i : Slot}
    {name content : CString} {fs : Fs}
    (h : Stored d edges i (padded 8 name) (contentSector content) fs)
    (hname : SevenBit name) (hlen : strlen content ≤ 511)
    (hcwd : fs.currentDirCluster = d) :
    lookup name fs = some i ∧ ∃ fs', catFile name fs = .ok fs' ∧
      fs'.printed = fs.printed ++ [text "\n", content.chars, text "\n\n"] := by
  subst hcwd
  have hlook : lookup name fs = some i := by
    refine findEntry_eq_some.mpr ⟨h.live, (nameMatches_iff (hname.padded 8)).mpr h.name_eq,
      fun j hj hlive hm => ?_⟩
    have hji := h.unique j hlive ((nameMatches_iff (hname.padded 8)).mp hm)
    exact absurd hji (Fin.ne_of_lt hj)
  obtain ⟨l, hchain, hrun⟩ := catFile_chain h.wellFormed hlook
  obtain rfl := hchain.unique h.chain
  refine ⟨hlook, _, hrun, ?_⟩
  simp [Fs.afterCat, print, clusterText_contentSector h.data_eq hlen]

/-! ## Writing it -/

/-- A creation is refused on a full disk and in a full directory, and otherwise done. -/
theorem createEntry_refused_or_created {fs : Fs} (hwf : WellFormed fs) {dirFull : Text}
    (hfull : dirFull ∈ errorTexts) (name : Buffer 11) (size : UInt32) (attributes : UInt8)
    (data : Sector) (a b c : Text) :
    ((DiskFull fs ∨ DirectoryFull fs) ∧
      ReportsError fs (createEntry dirFull name size attributes data [a, b, c] fs) ∧
      (createEntry dirFull name size attributes data [a, b, c] fs).disk = fs.disk) ∨
    (¬(DiskFull fs ∨ DirectoryFull fs) ∧
      ¬ReportsError fs (createEntry dirFull name size attributes data [a, b, c] fs) ∧
      ∃ i, Created fs (createEntry dirFull name size attributes data [a, b, c] fs) i name size
        attributes data) := by
  rcases createEntry_cases dirFull name size attributes data [a, b, c] fs with
    ⟨hc, heq⟩ | ⟨-, hs, heq⟩ | ⟨hc, i, hi, heq⟩
  · rw [heq]
    exact Or.inl ⟨Or.inl (findFreeCluster_eq_zero_iff.mp hc), ⟨_, by decide, rfl⟩, rfl⟩
  · rw [heq]
    exact Or.inl ⟨Or.inr (findFreeDirEntry_eq_none_iff.mp hs), ⟨_, hfull, rfl⟩, rfl⟩
  · rw [heq]
    have hcreated := created_of_writes hwf hc hi name size attributes data [a, b, c]
    exact Or.inr ⟨hcreated.not_full, not_reportsError_of_report rfl, i, hcreated⟩

theorem writeFile_refused_or_created {fs : Fs} (hwf : WellFormed fs) (filename : FatName)
    (content : CString) :
    ((DiskFull fs ∨ DirectoryFull fs) ∧ ReportsError fs (writeFile filename content fs) ∧
      (writeFile filename content fs).disk = fs.disk) ∨
    (¬(DiskFull fs ∨ DirectoryFull fs) ∧ ¬ReportsError fs (writeFile filename content fs) ∧
      ∃ i, Created fs (writeFile filename content fs) i filename.bytes
        (UInt32.ofNat (strlen content)) 0x20 (contentSector content)) :=
  createEntry_refused_or_created hwf (by decide) ..

/-- A new file is stored, if no other entry of the directory has its name. -/
theorem Created.stored {fs fs' : Fs} {i : Slot} {name ext content : CString}
    {size : UInt32} (hc : Created fs fs' i (fatName name ext).bytes size 0x20
      (contentSector content))
    (hwf : WellFormed fs) (hname : SevenBit name) (hfresh : lookup name fs = none)
    {edges : List (UInt16 × Slot)} (hpath : (forestOf fs.disk).Path fs.currentDirCluster edges) :
    Stored fs.currentDirCluster edges i (padded 8 name) (contentSector content) fs' := by
  have hnew : (fatName name ext).bytes 0 ≠ 0 := (fatName name ext).noNul 0
  have hdata : (0x20 : UInt8) = 0x10 → ∀ j, (contentSector content).name j 0 = 0 :=
    fun h => absurd h (by decide)
  have hslot : (dir fs'.disk fs.currentDirCluster).name i = padded 8 name := by
    rw [hc.at_dir, ← nameOf_fatName name ext]
    exact funext name_fillEntry_self
  have h7 := hname.padded 8 0
  rw [← nameOf_fatName name ext] at h7
  refine ⟨hc.wellFormed hwf hnew hdata, (hc.alloc hwf hnew hdata).path hwf.sound hpath,
    hc.inserted.live_new hwf hnew h7, ?_, hslot, fun j hj hjname => ?_, ?_, ?_⟩
  · rw [hc.at_dir, attributes_fillEntry_self]
    decide
  · by_contra hji
    have hold := (hc.inserted.live_iff hwf hnew j).mp hj
    rw [if_neg hji] at hold
    refine findEntry_eq_none.mp hfresh j hold ((nameMatches_iff (hname.padded 8)).mpr ?_)
    rw [← hjname]
    exact (hc.inserted.sameSlot hji).whole_name_eq.symm
  · rw [hc.headOf_new]
    exact hc.chain_new
  · rw [hc.headOf_new]
    exact hc.at_data

/-- **Written files are durable.** A file written under a 7-bit name that no live
entry of the current directory has is found by that name, and its contents are
printed, whenever a run of sparing calls is back in the directory. -/
theorem writeFile_durable {fs : Fs} (hwf : WellFormed fs) {name ext content : CString}
    (hname : SevenBit name) (hfresh : lookup name fs = none) (hlen : strlen content ≤ 511)
    (hok : ¬ReportsError fs (writeFile (fatName name ext) content fs)) :
    ∃ i, findFreeDirEntry (readCurrentDirectory fs) = some i ∧
      (∃ edges, (forestOf fs.disk).Path fs.currentDirCluster edges) ∧
      ∀ edges, (forestOf fs.disk).Path fs.currentDirCluster edges → ∀ calls,
        Guarded exec (Sparing fs.currentDirCluster edges i (padded 8 name)) calls
          (writeFile (fatName name ext) content fs) →
        ∃ fs', runs exec calls (writeFile (fatName name ext) content fs) = .ok fs' ∧
          (fs'.currentDirCluster = fs.currentDirCluster →
            lookup name fs' = some i ∧ ∃ fs'', catFile name fs' = .ok fs'' ∧
              fs''.printed = fs'.printed ++ [text "\n", content.chars, text "\n\n"]) := by
  rcases writeFile_refused_or_created hwf (fatName name ext) content with
    ⟨-, herror, -⟩ | ⟨-, -, i, hc⟩
  · exact absurd herror hok
  refine ⟨i, hc.slot_free, Forest.Reachable.exists_path hwf.cwd,
    fun edges hpath calls hcalls => ?_⟩
  obtain ⟨fs', hrun, hstored⟩ := runs_invariant
    (fun call fs1 (h : Stored fs.currentDirCluster edges i (padded 8 name)
        (contentSector content) fs1) hspare => by
      obtain ⟨fs2, hstep, heff⟩ := exec_effect h.wellFormed call
      exact ⟨fs2, hstep, h.effect heff hspare⟩)
    calls _ (hc.stored hwf hname hfresh hpath) hcalls
  exact ⟨fs', hrun, hstored.catFile_ok hname hlen⟩

/-- The file `A` survives a directory made next to it and a file `A` written there. -/
theorem writeFile_durable_blankFs :
    ∃ fs', runs exec [.makeDirectory strHi, .changeDirectory strHi,
        .writeFile (fatName strA strTxt) strTxt, .changeDirectory dotDot]
        (writeFile (fatName strA strTxt) strHi blankFs) = .ok fs' ∧
      ∃ fs'', catFile strA fs' = .ok fs'' ∧
        fs''.printed = fs'.printed ++ [text "\n", text "hi", text "\n\n"] := by
  have hok : ¬ReportsError blankFs (writeFile (fatName strA strTxt) strHi blankFs) :=
    not_reportsError_of_length (by decide +kernel)
  obtain ⟨i, -, -, hdurable⟩ := writeFile_durable formatted_blankFs.wellFormed (by decide)
    (by decide +kernel) (by decide) hok
  have hguard : Guarded exec (Sparing 0 [] i (padded 8 strA)) [.makeDirectory strHi,
      .changeDirectory strHi, .writeFile (fatName strA strTxt) strTxt,
      .changeDirectory dotDot] (writeFile (fatName strA strTxt) strHi blankFs) := by
    refine ⟨⟨fun _ _ h => ?_, fun name h _ hname => ?_⟩, fun s1 h1 =>
      ⟨⟨fun _ _ h => ?_, fun _ h => ?_⟩, fun s2 h2 =>
      ⟨⟨fun _ _ h => ?_, fun _ _ hcwd => ?_⟩, fun s3 h3 =>
      ⟨⟨fun _ _ h => ?_, fun _ h => ?_⟩, fun _ _ => trivial⟩⟩⟩⟩
    · cases h
    · obtain rfl := Option.some.inj h
      exact absurd hname (by decide)
    · cases h
    · cases h
    · cases h
    · obtain rfl := Except.ok.inj h1
      obtain rfl := Except.ok.inj h2
      refine absurd hcwd ?_
      decide +kernel
    · cases h
    · cases h
  obtain ⟨fs', hrun, hcat⟩ := hdurable [] .root _ hguard
  have hcwd : fs'.currentDirCluster = blankFs.currentDirCluster := by
    obtain rfl := Except.ok.inj hrun
    decide +kernel
  exact ⟨fs', hrun, (hcat hcwd).2⟩

/-- What `cat_file` prints begins and ends with newlines that are not in the file. -/
theorem not_printed_exactly :
    ∃ fs', catFile strA (writeFile (fatName strA strTxt) strHi blankFs) = .ok fs' ∧
      (fs'.printed.drop
        (writeFile (fatName strA strTxt) strHi blankFs).printed.length).flatten
        ≠ strHi.chars := by
  obtain ⟨fs', hrun, hend⟩ := exists_of_endsWith
    (r := catFile strA (writeFile (fatName strA strTxt) strHi blankFs))
    (p := fun fs => decide ((fs.printed.drop
      (writeFile (fatName strA strTxt) strHi blankFs).printed.length).flatten
      ≠ strHi.chars)) (by decide +kernel)
  exact ⟨fs', hrun, of_decide_eq_true hend⟩

end FirstKernel
