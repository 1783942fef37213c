import FirstKernel.FatSlots

/-!
# Creating and deleting on a well-formed volume

On a well-formed volume a creation changes three different sectors
(`Created`) and a deletion two (`Removed`). Read as forests, these are an
`Alloc` and a `Prune` (`Created.alloc`, `Removed.prune`), so the live
entries still own disjoint chains; the rest of `WellFormed` is about the
chains and slots that the call does not touch.

The directory sector is written first. What the tree looks like from
then on is the subject of `Inserted` and `Unlinked`, which say nothing
about the FAT.

The names are arbitrary C strings. A name whose first byte is the
deletion mark is the odd one out: it takes a cluster, but the slot it
fills is not live.
-/

namespace FirstKernel

open Relation

/-- A free slot of the current directory has been filled with an entry whose first
cluster is the free cluster; other directories are as they were. -/
structure Inserted (fs : Fs) (disk : Nat → Sector) (i : Slot) (name : Buffer 11)
    (size : UInt32) (attributes : UInt8) : Prop where
  cluster_free : (forestOf fs.disk).Free (findFreeCluster fs)
  slot_free : findFreeDirEntry (dir fs.disk fs.currentDirCluster) = some i
  at_dir : dir disk fs.currentDirCluster
    = (dir fs.disk fs.currentDirCluster).fillEntry i name size attributes
      (findFreeCluster fs)
  dir_other : ∀ x, x ≠ fs.currentDirCluster → x ≠ findFreeCluster fs →
    dir disk x = dir fs.disk x

/-- A live slot of the current directory has been deleted; other directories are
as they were. -/
structure Unlinked (fs : Fs) (disk : Nat → Sector) (i : Slot) : Prop where
  live : Live (dir fs.disk fs.currentDirCluster) i
  at_dir : dir disk fs.currentDirCluster
    = (dir fs.disk fs.currentDirCluster).setName0 i 0xE5
  dir_other : ∀ x, x ≠ fs.currentDirCluster → dir disk x = dir fs.disk x

/-- What a successful creation does to a well-formed volume. -/
structure Created (fs fs' : Fs) (i : Slot) (name : Buffer 11) (size : UInt32)
    (attributes : UInt8) (data : Sector) : Prop where
  cluster_free : (forestOf fs.disk).Free (findFreeCluster fs)
  slot_free : findFreeDirEntry (dir fs.disk fs.currentDirCluster) = some i
  cwd_eq : fs'.currentDirCluster = fs.currentDirCluster
  at_dir : dir fs'.disk fs.currentDirCluster
    = (dir fs.disk fs.currentDirCluster).fillEntry i name size attributes
      (findFreeCluster fs)
  at_data : fs'.disk (clusterToSector (findFreeCluster fs)) = data
  at_fat : fs'.disk 50 = (fs.disk 50).setFatEntry
    ⟨(findFreeCluster fs).toNat, findFreeCluster_lt fs⟩ 0xFFFF
  other : ∀ lba, lba ≠ dirSector fs.currentDirCluster →
    lba ≠ clusterToSector (findFreeCluster fs) → lba ≠ 50 → fs'.disk lba = fs.disk lba

/-- What a successful deletion of slot `i`, with chain `l`, does to a well-formed
volume. -/
structure Removed (fs fs' : Fs) (i : Slot) (l : List UInt16) : Prop where
  live : Live (dir fs.disk fs.currentDirCluster) i
  chain : Chain fs.disk (headOf fs.disk fs.currentDirCluster i) l
  cwd_eq : fs'.currentDirCluster = fs.currentDirCluster
  at_dir : dir fs'.disk fs.currentDirCluster
    = (dir fs.disk fs.currentDirCluster).setName0 i 0xE5
  at_fat : ∀ x, (fs'.disk 50).link x = if x ∈ l then 0 else (fs.disk 50).link x
  other : ∀ lba, lba ≠ dirSector fs.currentDirCluster → lba ≠ 50 →
    fs'.disk lba = fs.disk lba

theorem WellFormed.congr {fs fs' : Fs} (h : WellFormed fs) (hd : fs'.disk = fs.disk)
    (hc : fs'.currentDirCluster = fs.currentDirCluster) : WellFormed fs' where
  chains := by rw [hd]; exact h.chains
  disjoint := by rw [hd]; exact h.disjoint
  tidy := by rw [hd]; exact h.tidy
  cwd := by rw [hd, hc]; exact h.cwd

/-- Slots that look alike hold the same entry. -/
theorem entry_congr {disk disk' : Nat → Sector} {d : UInt16} {i : Slot}
    (hlive : Live (dir disk' d) i ↔ Live (dir disk d) i)
    (hslot : SameSlot (dir disk d) (dir disk' d) i) :
    (forestOf disk').entry d i = (forestOf disk).entry d i := by
  simp only [forestOf, hlive, hslot.clusterLow_eq, hslot.attributes_eq]

/-- A head owns the same clusters as before when no followed link has changed. -/
theorem owns_congr {disk disk' : Nat → Sector} {h : UInt16}
    (hagree : ∀ x, (forestOf disk).Owns h x → (disk' 50).link x = (disk 50).link x)
    (k : UInt16) : (forestOf disk').Owns h k ↔ (forestOf disk).Owns h k :=
  and_congr_right fun _ => reflTransGen_link_congr fun x hx hr => hagree x ⟨hx, hr⟩

/-! ## Creation -/

/-- A free cluster is not the current directory. -/
theorem dirSector_cwd_ne {fs : Fs} (hwf : WellFormed fs) {c : UInt16}
    (hc : (forestOf fs.disk).Free c) :
    dirSector fs.currentDirCluster ≠ clusterToSector c := by
  rw [← dirSector_of_inData hc.1]
  intro heq
  exact hwf.not_free_of_reachable hwf.cwd (dirSector_injective heq ▸ hc)

theorem created_of_writes {fs : Fs} (hwf : WellFormed fs) (hc : findFreeCluster fs ≠ 0)
    {i : Slot} (hi : findFreeDirEntry (readCurrentDirectory fs) = some i)
    (name : Buffer 11) (size : UInt32) (attributes : UInt8) (data : Sector)
    (report : List Text) :
    Created fs (printAll report
      (fs.withWrites (createWrites fs i name size attributes data)))
      i name size attributes data := by
  have hfree := findFreeCluster_free hc
  have hDT := dirSector_cwd_ne hwf hfree
  have hD := dirSector_ne_fat fs.currentDirCluster
  have hT := clusterToSector_ne_fat hfree.1
  refine ⟨hfree, hi, rfl, ?_, ?_, ?_, fun lba h1 h2 h3 => ?_⟩
  · simp only [dir, printAll_disk, withWrites_disk, applyWrites, createWrites,
      List.foldl_cons, List.foldl_nil]
    rw [Function.update_of_ne hD, Function.update_of_ne hDT, Function.update_self]
    rfl
  · simp only [printAll_disk, withWrites_disk, applyWrites, createWrites,
      List.foldl_cons, List.foldl_nil]
    rw [Function.update_of_ne hT, Function.update_self]
  · simp only [printAll_disk, withWrites_disk, applyWrites, createWrites,
      List.foldl_cons, List.foldl_nil]
    rw [Function.update_self]
  · refine applyWrites_of_ne fun w hw => ?_
    simp only [createWrites, List.mem_cons, List.not_mem_nil, or_false] at hw
    rcases hw with rfl | rfl | rfl
    · exact Ne.symm h1
    · exact Ne.symm h2
    · exact Ne.symm h3

/-- The entry that a creation adds to the forest. -/
def newEntry (name : Buffer 11) (attributes : UInt8) (c : UInt16) :
    Option (Entry UInt16) :=
  if name 0 = 0xE5 then none else some ⟨c, decide (attributes = 0x10)⟩

theorem newEntry_eq_some {name : Buffer 11} {attributes : UInt8} {c : UInt16}
    {a : Entry UInt16} (h : newEntry name attributes c = some a) :
    name 0 ≠ 0xE5 ∧ a = ⟨c, decide (attributes = 0x10)⟩ := by
  unfold newEntry at h
  split at h
  · cases h
  · next hname => exact ⟨hname, (Option.some.inj h).symm⟩

namespace Inserted

variable {fs : Fs} {disk : Nat → Sector} {i : Slot} {name : Buffer 11} {size : UInt32}
  {attributes : UInt8}

/-- The other directories that were reachable are untouched. -/
theorem dir_of_reachable (h : Inserted fs disk i name size attributes) (hwf : WellFormed fs)
    {d : UInt16} (hd : Reachable fs.disk d) (hne : d ≠ fs.currentDirCluster) :
    dir disk d = dir fs.disk d := by
  refine h.dir_other d hne fun heq => ?_
  exact hwf.not_free_of_reachable hd (heq ▸ h.cluster_free)

theorem live_iff (h : Inserted fs disk i name size attributes) (hwf : WellFormed fs)
    (hname : name 0 ≠ 0) (j : Slot) :
    Live (dir disk fs.currentDirCluster) j ↔
      if j = i then name 0 ≠ 0xE5 else Live (dir fs.disk fs.currentDirCluster) j := by
  rw [h.at_dir]
  exact live_fillEntry (hwf.tidy _ hwf.cwd) h.slot_free hname j

/-- The new entry is live if its name starts with a 7-bit byte, which the deletion mark is not. -/
theorem live_new (h : Inserted fs disk i name size attributes) (hwf : WellFormed fs)
    (hname : name 0 ≠ 0) (h7 : (name 0).toNat < 128) : Live (dir disk fs.currentDirCluster) i := by
  refine (h.live_iff hwf hname i).mpr ?_
  rw [if_pos rfl]
  intro hmark
  rw [hmark] at h7
  exact absurd h7 (by decide)

theorem sameSlot (h : Inserted fs disk i name size attributes) {j : Slot} (hj : j ≠ i) :
    SameSlot (dir fs.disk fs.currentDirCluster) (dir disk fs.currentDirCluster) j := by
  rw [h.at_dir]
  exact sameSlot_fillEntry hj

theorem entry_new (h : Inserted fs disk i name size attributes) (hwf : WellFormed fs)
    (hname : name 0 ≠ 0) :
    (forestOf disk).entry fs.currentDirCluster i
      = newEntry name attributes (findFreeCluster fs) := by
  have hlive := h.live_iff hwf hname i
  rw [if_pos rfl] at hlive
  simp only [forestOf, newEntry, hlive, ite_not]
  rw [h.at_dir, clusterLow_fillEntry_self, attributes_fillEntry_self]

/-- **A creation is an insertion.** A new directory has to come with an empty
sector, and no name starts with the terminator. -/
theorem insert (h : Inserted fs disk i name size attributes) (hwf : WellFormed fs)
    (hname : name 0 ≠ 0)
    (hempty : attributes = 0x10 → ∀ j, (dir disk (findFreeCluster fs)).name j 0 = 0) :
    Forest.Insert (forestOf fs.disk) (forestOf disk) fs.currentDirCluster i
      (findFreeCluster fs) (newEntry name attributes (findFreeCluster fs)) where
  reach := hwf.cwd
  free := h.cluster_free
  root_eq := rfl
  head_eq := fun a ha => by rw [(newEntry_eq_some ha).2]
  vacant := entry_eq_none.mpr (not_live_of_findFreeDirEntry h.slot_free)
  entry_new := h.entry_new hwf hname
  entry_dir := by
    intro t ht
    have hlive := h.live_iff hwf hname t
    rw [if_neg ht] at hlive
    exact entry_congr hlive (h.sameSlot ht)
  entry_other := by
    intro x hxd hxc t
    have hx := h.dir_other x hxd hxc
    exact entry_congr (by rw [hx]) (by rw [hx]; exact fun _ _ => rfl)
  entry_head := by
    intro a ha hdir t
    obtain ⟨-, rfl⟩ := newEntry_eq_some ha
    rw [entry_eq_none]
    exact fun hlive => hlive.2 t (Fin.le_refl t) (hempty (of_decide_eq_true hdir) t)

end Inserted

namespace Created

variable {fs fs' : Fs} {i : Slot} {name : Buffer 11} {size : UInt32}
  {attributes : UInt8} {data : Sector}

theorem link_eq (h : Created fs fs' i name size attributes data) (x : UInt16) :
    (fs'.disk 50).link x
      = if x = findFreeCluster fs then 0xFFFF else (fs.disk 50).link x := by
  rw [h.at_fat]
  exact Sector.link_setFatEntry _ (findFreeCluster_lt fs) _ _

theorem cluster_inData (h : Created fs fs' i name size attributes data) :
    InData (findFreeCluster fs) := h.cluster_free.1

/-- No old chain goes through the cluster, which was free. -/
theorem not_mem (h : Created fs fs' i name size attributes data) {x : UInt16}
    {l : List UInt16} (hchain : Chain fs.disk x l) : findFreeCluster fs ∉ l :=
  fun hmem => hchain.link_ne_zero hmem h.cluster_free.2

theorem chain_old (h : Created fs fs' i name size attributes data) {x : UInt16}
    {l : List UInt16} (hchain : Chain fs.disk x l) : Chain fs'.disk x l := by
  refine hchain.congr fun y hy => ?_
  rw [h.link_eq, if_neg (ne_of_mem_of_not_mem hy (h.not_mem hchain))]

theorem headOf_new (h : Created fs fs' i name size attributes data) :
    headOf fs'.disk fs.currentDirCluster i = findFreeCluster fs := by
  rw [headOf, h.at_dir, clusterLow_fillEntry_self]

/-- The new entry has a chain of one cluster. -/
theorem chain_new (h : Created fs fs' i name size attributes data) :
    Chain fs'.disk (findFreeCluster fs) [findFreeCluster fs] := by
  have hend : (fs'.disk 50).link (findFreeCluster fs) = 0xFFFF := by
    rw [h.link_eq, if_pos rfl]
  exact ⟨h.cluster_inData, 0xFFFF, .single h.cluster_inData hend (by decide), by decide⟩

theorem dir_new (h : Created fs fs' i name size attributes data) :
    dir fs'.disk (findFreeCluster fs) = data := by
  rw [dir, dirSector_of_inData h.cluster_inData]
  exact h.at_data

theorem inserted (h : Created fs fs' i name size attributes data) :
    Inserted fs fs'.disk i name size attributes where
  cluster_free := h.cluster_free
  slot_free := h.slot_free
  at_dir := h.at_dir
  dir_other := by
    intro x hd hc
    refine h.other _ (fun heq => hd (dirSector_injective heq)) ?_ (dirSector_ne_fat x)
    rw [← dirSector_of_inData h.cluster_inData]
    exact fun heq => hc (dirSector_injective heq)

/-- **A creation is an allocation.** -/
theorem alloc (h : Created fs fs' i name size attributes data) (hwf : WellFormed fs)
    (hname : name 0 ≠ 0) (hdata : attributes = 0x10 → ∀ j, data.name j 0 = 0) :
    Forest.Alloc (forestOf fs.disk) (forestOf fs'.disk) fs.currentDirCluster i
      (findFreeCluster fs) (newEntry name attributes (findFreeCluster fs)) where
  toInsert := h.inserted.insert hwf hname (by rw [h.dir_new]; exact hdata)
  owns_new := by
    intro k
    rw [← h.chain_new.mem_iff k, List.mem_singleton]
  owns_old := by
    intro x hx k
    refine owns_congr (fun y hy => ?_) k
    have hne : y ≠ findFreeCluster fs := fun heq => hx (heq ▸ hy)
    rw [h.link_eq, if_neg hne]
  free_iff := by
    intro k
    simp only [forestOf, h.link_eq]
    by_cases hk : k = findFreeCluster fs
    · simp [hk]
    · simp [hk]

theorem wellFormed (h : Created fs fs' i name size attributes data)
    (hwf : WellFormed fs) (hname : name 0 ≠ 0)
    (hdata : attributes = 0x10 → ∀ j, data.name j 0 = 0) : WellFormed fs' := by
  have halloc := h.alloc hwf hname hdata
  have hreach : ∀ d, Reachable fs'.disk d →
      Reachable fs.disk d ∨ (d = findFreeCluster fs ∧ attributes = 0x10) := by
    intro d hd
    refine ((halloc.reachable_iff hwf.sound).mp hd).imp id fun hnew => ?_
    obtain ⟨rfl, a, ha, hdir⟩ := hnew
    obtain ⟨-, rfl⟩ := newEntry_eq_some ha
    exact ⟨rfl, of_decide_eq_true hdir⟩
  refine wellFormed_of_sound (halloc.sound hwf.sound) ?_ ?_ ?_
  · intro d j hlive
    rcases (halloc.live_iff hwf.sound).mp hlive.live with hold | ⟨rfl, rfl, -⟩
    · -- an old entry: neither its slot nor its chain has changed
      obtain ⟨hlive', hhead⟩ := liveEntry_of_live hold
      obtain ⟨l, hchain⟩ := hwf.chains d j hlive'
      rw [show headOf fs'.disk d j = headOf fs.disk d j from hhead]
      exact ⟨l, h.chain_old hchain⟩
    · rw [h.headOf_new]
      exact ⟨_, h.chain_new⟩
  · intro d hd
    by_cases hdc : d = fs.currentDirCluster
    · rw [hdc, h.at_dir]
      exact tidy_fillEntry (hwf.tidy _ hwf.cwd) h.slot_free hname
    · rcases hreach d hd with hold | ⟨rfl, hattr⟩
      · rw [h.inserted.dir_of_reachable hwf hold hdc]
        exact hwf.tidy d hold
      · rw [h.dir_new]
        exact fun _ q _ _ => hdata hattr q
  · rw [h.cwd_eq]
    exact halloc.reachable_mono hwf.sound hwf.cwd

end Created

/-! ## Deletion -/

theorem removed_of_writes {fs : Fs} {i : Slot} {l : List UInt16} {fat' : Sector}
    (hlive : Live (dir fs.disk fs.currentDirCluster) i)
    (hchain : Chain fs.disk (headOf fs.disk fs.currentDirCluster i) l)
    (hfat : ∀ x, fat'.link x = if x ∈ l then 0 else (fs.disk 50).link x)
    (report : List Text) :
    Removed fs (printAll report (Fs.withWrites (removeWrites fs i fat')
      { fs with visited := fs.visited ++ l })) i l := by
  have hD := dirSector_ne_fat fs.currentDirCluster
  refine ⟨hlive, hchain, rfl, ?_, fun x => ?_, fun lba h1 h2 => ?_⟩
  · simp only [dir, printAll_disk, withWrites_disk, applyWrites, removeWrites,
      List.foldl_cons, List.foldl_nil]
    rw [Function.update_of_ne hD, Function.update_self]
    rfl
  · rw [← hfat x]
    exact congrArg (Sector.link · x) (removeWrites_fat fs i fat' fs.disk)
  · refine applyWrites_of_ne fun w hw => ?_
    simp only [removeWrites, List.mem_cons, List.not_mem_nil, or_false] at hw
    rcases hw with rfl | rfl
    · exact Ne.symm h1
    · exact Ne.symm h2

namespace Unlinked

variable {fs : Fs} {disk : Nat → Sector} {i : Slot}

theorem live_iff (h : Unlinked fs disk i) (j : Slot) :
    Live (dir disk fs.currentDirCluster) j ↔
      Live (dir fs.disk fs.currentDirCluster) j ∧ j ≠ i := by
  rw [h.at_dir]
  exact live_setName0 h.live j

theorem sameSlot (h : Unlinked fs disk i) {j : Slot} (hj : j ≠ i) :
    SameSlot (dir fs.disk fs.currentDirCluster) (dir disk fs.currentDirCluster) j := by
  rw [h.at_dir]
  exact sameSlot_setName0 hj

theorem unlink (h : Unlinked fs disk i) (hwf : WellFormed fs) :
    Forest.Unlink (forestOf fs.disk) (forestOf disk) fs.currentDirCluster i
      ⟨headOf fs.disk fs.currentDirCluster i,
        decide ((dir fs.disk fs.currentDirCluster).attributes i = 0x10)⟩ where
  live := LiveEntry.live ⟨hwf.cwd, h.live⟩
  root_eq := rfl
  entry_gone := by
    rw [entry_eq_none, h.live_iff]
    exact fun hc => hc.2 rfl
  entry_dir := by
    intro t ht
    refine entry_congr ?_ (h.sameSlot ht)
    rw [h.live_iff]
    exact and_iff_left ht
  entry_other := by
    intro x hxd t
    have hx := h.dir_other x hxd
    exact entry_congr (by rw [hx]) (by rw [hx]; exact fun _ _ => rfl)

end Unlinked

namespace Removed

variable {fs fs' : Fs} {i : Slot} {l : List UInt16}

theorem liveEntry (h : Removed fs fs' i l) (hwf : WellFormed fs) :
    LiveEntry fs.disk fs.currentDirCluster i :=
  ⟨hwf.cwd, h.live⟩

theorem unlinked (h : Removed fs fs' i l) : Unlinked fs fs'.disk i where
  live := h.live
  at_dir := h.at_dir
  dir_other := fun x hd =>
    h.other _ (fun heq => hd (dirSector_injective heq)) (dirSector_ne_fat x)

/-- The chains of the other live entries are untouched. -/
theorem chain_old (h : Removed fs fs' i l) (hwf : WellFormed fs) {d : UInt16} {j : Slot}
    (hlive : LiveEntry fs.disk d j) (hne : ¬(d = fs.currentDirCluster ∧ j = i))
    {l' : List UInt16} (hchain : Chain fs.disk (headOf fs.disk d j) l') :
    Chain fs'.disk (headOf fs.disk d j) l' := by
  refine hchain.congr fun x hx => ?_
  rw [h.at_fat, if_neg]
  exact hwf.disjoint d j _ i l' l hlive (h.liveEntry hwf) hchain h.chain
    (fun heq => hne (Prod.mk.inj heq)) hx

/-- **A deletion is a pruning.** -/
theorem prune (h : Removed fs fs' i l) (hwf : WellFormed fs) :
    Forest.Prune (forestOf fs.disk) (forestOf fs'.disk) fs.currentDirCluster i
      ⟨headOf fs.disk fs.currentDirCluster i,
        decide ((dir fs.disk fs.currentDirCluster).attributes i = 0x10)⟩ where
  toUnlink := h.unlinked.unlink hwf
  owns_old := by
    intro x hx k
    refine owns_congr (fun y hy => ?_) k
    rw [h.at_fat, if_neg fun hmem => hx y hy ((h.chain.mem_iff y).mp hmem)]
  free_iff := by
    intro k
    rw [← h.chain.mem_iff k]
    simp only [forestOf, h.at_fat]
    by_cases hk : k ∈ l
    · simp [hk, h.chain.inData k hk]
    · simp [hk]

theorem wellFormed (h : Removed fs fs' i l) (hwf : WellFormed fs) : WellFormed fs' := by
  have hprune := h.prune hwf
  refine wellFormed_of_sound (hprune.sound hwf.sound) ?_ ?_ ?_
  · intro d j hlive
    obtain ⟨hold, hne⟩ := hprune.live_of hlive.live
    obtain ⟨hlive', hhead⟩ := liveEntry_of_live hold
    obtain ⟨l', hchain⟩ := hwf.chains d j hlive'
    rw [show headOf fs'.disk d j = headOf fs.disk d j from hhead]
    exact ⟨l', h.chain_old hwf hlive' hne hchain⟩
  · intro d hd
    by_cases hdc : d = fs.currentDirCluster
    · rw [hdc, h.at_dir]
      exact tidy_setName0 (hwf.tidy _ hwf.cwd) h.live
    · rw [h.unlinked.dir_other d hdc]
      exact hwf.tidy d (hprune.reachable_of hd)
  · rw [h.cwd_eq]
    exact hprune.reachable_dir

end Removed

end FirstKernel
