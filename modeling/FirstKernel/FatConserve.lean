import Mathlib.Data.FinEnum
import Mathlib.Order.Interval.Finset.Nat
import FirstKernel.FatRuns

/-!
# No cluster is lost

From a formatted disk on, every cluster is free or on the chain of a live
entry, and so the free clusters and the lengths of the chains add up to
the 254 there are - as long as every call is `Conserving`. Two kinds of
calls are not. `remove_file` frees the chain of the entry alone, so the
clusters below a directory that is not empty stay in use with nothing
that leads to them; and a creation whose name starts with the deletion
mark takes a cluster for an entry that counts as deleted.
-/

namespace FirstKernel

def DiskFull (fs : Fs) : Prop := ∀ c, InData c → (fs.disk 50).link c ≠ 0

def DirectoryFull (fs : Fs) : Prop :=
  ∀ i, (dir fs.disk fs.currentDirCluster).name i 0 ≠ 0x00 ∧
    (dir fs.disk fs.currentDirCluster).name i 0 ≠ 0xE5

/-- `remove_file` does not meet a directory with live entries, and no entry is
created whose name starts with `0xE5`. -/
def Conserving (call : Call) (fs : Fs) : Prop :=
  (∀ filename i, call = .removeFile filename → lookup filename fs = some i →
    (dir fs.disk fs.currentDirCluster).attributes i = 0x10 →
    ∀ j, ¬Live (dir fs.disk (headOf fs.disk fs.currentDirCluster i)) j) ∧
  ∀ name, call.newName = some name → name 0 = 0xE5 → DiskFull fs ∨ DirectoryFull fs

/-- Every FAT entry in use is on the chain of a live entry. -/
def NoLeak (disk : Nat → Sector) : Prop :=
  ∀ c, InData c → (disk 50).link c ≠ 0 →
    ∃ d i l, LiveEntry disk d i ∧ Chain disk (headOf disk d i) l ∧ c ∈ l

theorem findFreeCluster_eq_zero_iff {fs : Fs} : findFreeCluster fs = 0 ↔ DiskFull fs := by
  constructor
  · intro hzero c hc hlink
    unfold findFreeCluster at hzero
    simp only at hzero
    cases hf : Fin.findSome? fun i : Fin 256 =>
        if 2 ≤ i.val ∧ (readSector 50 fs).fatEntry i = 0 then some (UInt16.ofNat i.val)
        else none with
    | none =>
        have hnone := Fin.findSome?_eq_none_iff.mp hf ⟨c.toNat, hc.lt⟩
        rw [Sector.link_of_lt _ hc.lt] at hlink
        rw [if_pos ⟨hc.1, hlink⟩] at hnone
        cases hnone
    | some x =>
        obtain ⟨i, hi, -⟩ := Fin.findSome?_eq_some_iff.mp hf
        rw [hf, Option.getD_some] at hzero
        split at hi
        · next hfree =>
            obtain rfl := Option.some.inj hi
            have hval := congrArg UInt16.toNat hzero
            rw [UInt16.toNat_ofNat', UInt16.toNat_zero] at hval
            omega
        · cases hi
  · intro hfull
    by_contra hne
    obtain ⟨hin, hlink⟩ := findFreeCluster_free hne
    exact hfull _ hin hlink

theorem findFreeDirEntry_eq_none_iff {fs : Fs} :
    findFreeDirEntry (readCurrentDirectory fs) = none ↔ DirectoryFull fs := by
  rw [findFreeDirEntry, Fin.findSome?_eq_none_iff]
  refine forall_congr' fun i => ?_
  rw [ite_eq_right_iff]
  simp only [reduceCtorEq, imp_false, not_or]
  rfl

/-! ## Counting -/

@[irreducible] def dataClusters : Finset UInt16 := (Finset.Icc 2 255).image UInt16.ofNat

theorem mem_dataClusters {c : UInt16} : c ∈ dataClusters ↔ InData c := by
  rw [dataClusters, Finset.mem_image]
  constructor
  · rintro ⟨n, hn, rfl⟩
    obtain ⟨h2, h255⟩ := Finset.mem_Icc.mp hn
    rw [InData, UInt16.toNat_ofNat']
    omega
  · intro hc
    exact ⟨c.toNat, Finset.mem_Icc.mpr hc, UInt16.ofNat_toNat⟩

theorem card_dataClusters : dataClusters.card = 254 := by
  rw [dataClusters, Finset.card_image_of_injOn, Nat.card_Icc]
  intro m hm n hn heq
  obtain ⟨-, hm255⟩ := Finset.mem_Icc.mp hm
  obtain ⟨-, hn255⟩ := Finset.mem_Icc.mp hn
  have hval := congrArg UInt16.toNat heq
  rw [UInt16.toNat_ofNat', UInt16.toNat_ofNat'] at hval
  omega

/-- How many clusters `find_free_cluster` can still hand out. -/
def freeCount (disk : Nat → Sector) : Nat :=
  (dataClusters.filter fun c => (disk 50).link c = 0).card

open Classical in
/-- The chain of a first cluster that has one. -/
noncomputable def chainOf (disk : Nat → Sector) (h : UInt16) : List UInt16 :=
  if hc : ∃ l, Chain disk h l then hc.choose else []

theorem chain_chainOf {disk : Nat → Sector} {h : UInt16} (hc : ∃ l, Chain disk h l) :
    Chain disk h (chainOf disk h) := by
  rw [chainOf, dif_pos hc]
  exact hc.choose_spec

theorem Chain.nodup {disk : Nat → Sector} {h : UInt16} {l : List UInt16}
    (hc : Chain disk h l) : l.Nodup := by
  obtain ⟨-, z, hw, -⟩ := hc
  exact hw.nodup

/-- The lengths of the chains of all live entries, together. -/
noncomputable def usedCount (disk : Nat → Sector) : Nat :=
  ∑ p ∈ (forestOf disk).liveSlots, (chainOf disk (headOf disk p.1 p.2)).length

theorem noLeak_of_conserved {fs : Fs} (hwf : WellFormed fs)
    (hc : (forestOf fs.disk).Conserved dataClusters) : NoLeak fs.disk := by
  intro c hin hused
  obtain ⟨d, i, e, he, hown⟩ := hc c (mem_dataClusters.mpr hin) fun hfree => hused hfree.2
  obtain ⟨hlive, hhead⟩ := liveEntry_of_live he
  obtain ⟨l, hchain⟩ := hwf.chains d i hlive
  rw [hhead] at hown
  exact ⟨d, i, l, hlive, hchain, (hchain.mem_iff c).mpr hown⟩

/-- Free clusters and chains add up to the 254 clusters. -/
theorem freeCount_add_usedCount {fs : Fs} (hwf : WellFormed fs)
    (hc : (forestOf fs.disk).Conserved dataClusters) :
    freeCount fs.disk + usedCount fs.disk = 254 := by
  classical
  have hchain : ∀ d i e, (forestOf fs.disk).Live d i e →
      Chain fs.disk e.head (chainOf fs.disk (headOf fs.disk d i)) := by
    intro d i e he
    obtain ⟨hlive, hhead⟩ := liveEntry_of_live he
    rw [hhead]
    exact chain_chainOf (hwf.chains d i hlive)
  have hcard := hc.card_free_add hwf.sound
    (fun p => (chainOf fs.disk (headOf fs.disk p.1 p.2)).toFinset)
    (fun d i e he k => by rw [List.mem_toFinset]; exact (hchain d i e he).mem_iff k)
    (fun d i e k he hown => mem_dataClusters.mpr hown.1)
  have hfree : dataClusters.filter (forestOf fs.disk).Free
      = dataClusters.filter fun c => (fs.disk 50).link c = 0 :=
    Finset.filter_congr fun c hc => and_iff_right (mem_dataClusters.mp hc)
  have hused : ∀ p ∈ (forestOf fs.disk).liveSlots,
      (chainOf fs.disk (headOf fs.disk p.1 p.2)).toFinset.card
        = (chainOf fs.disk (headOf fs.disk p.1 p.2)).length := by
    intro p hp
    obtain ⟨e, he⟩ := Forest.mem_liveSlots.mp hp
    exact List.toFinset_card_of_nodup (hchain _ _ e he).nodup
  rw [hfree, Finset.sum_congr rfl hused, card_dataClusters] at hcard
  exact hcard

/-! ## Runs -/

/-- Nothing is created on a full disk or in a full directory. -/
theorem Created.not_full {fs fs' : Fs} {i : Slot} {name : Buffer 11}
    {size : UInt32} {attributes : UInt8} {data : Sector}
    (h : Created fs fs' i name size attributes data) : ¬(DiskFull fs ∨ DirectoryFull fs) := by
  rintro (hdisk | hdir)
  · exact hdisk _ h.cluster_inData h.cluster_free.2
  · rcases (findFreeDirEntry_eq_some.mp h.slot_free).1 with h0 | hE5
    · exact (hdir i).1 h0
    · exact (hdir i).2 hE5

theorem Formatted.conserved {fs : Fs} (h : Formatted fs) :
    (forestOf fs.disk).Conserved dataClusters := by
  intro c hc hused
  have hin := mem_dataClusters.mp hc
  refine absurd ⟨hin, ?_⟩ hused
  rw [Sector.link_of_lt _ hin.lt]
  exact h.fat _ hin.1

/-- A conserving call loses nothing. -/
theorem Effect.conserved {call : Call} {fs fs' : Fs} (h : Effect call fs fs')
    (hwf : WellFormed fs) (hcall : Conserving call fs)
    (hc : (forestOf fs.disk).Conserved dataClusters) :
    (forestOf fs'.disk).Conserved dataClusters := by
  cases h with
  | quiet hd _ => rwa [hd]
  | moved hd _ => rwa [hd]
  | @created _ _ _ i name size attributes data hnew h hdata =>
      refine (h.alloc hwf (Call.newName_ne_zero hnew) hdata).conserved hwf.sound hc ?_
      have hname : name 0 ≠ 0xE5 := fun hE5 => h.not_full (hcall.2 name hnew hE5)
      rw [newEntry, if_neg hname]
      rfl
  | @removed filename _ _ i l hlook h =>
      refine (h.prune hwf).conserved hwf.sound hc fun hdir j => ?_
      exact entry_eq_none.mpr (hcall.1 filename i rfl hlook (of_decide_eq_true hdir) j)

/-- **No cluster is lost.** From a formatted disk, in every state of a run whose
calls are all conserving, each FAT entry in use is on the chain of a live
entry, and the clusters add up. -/
theorem noLeak_runs {fs : Fs} (hfs : Formatted fs) {calls : List Call}
    (hcalls : Guarded exec Conserving calls fs) {pre : List Call} (hpre : pre <+: calls) :
    ∃ fs', runs exec pre fs = .ok fs' ∧ NoLeak fs'.disk ∧
      freeCount fs'.disk + usedCount fs'.disk = 254 := by
  obtain ⟨fs', hrun, hwf, hc⟩ := runs_invariant
    (fun call fs (h : WellFormed fs ∧ (forestOf fs.disk).Conserved dataClusters) hcall => by
      obtain ⟨fs', hrun, heff⟩ := exec_effect h.1 call
      exact ⟨fs', hrun, heff.wellFormed h.1, heff.conserved h.1 hcall h.2⟩)
    pre fs ⟨hfs.wellFormed, hfs.conserved⟩ (hcalls.of_isPrefix hpre)
  exact ⟨fs', hrun, noLeak_of_conserved hwf hc, freeCount_add_usedCount hwf hc⟩

/-- Making a directory and deleting it while it is empty. -/
theorem noLeak_runs_blankFs :
    ∃ fs', runs exec [.makeDirectory strA, .removeFile strA] blankFs = .ok fs' ∧
      NoLeak fs'.disk ∧ freeCount fs'.disk + usedCount fs'.disk = 254 := by
  have hguard : Guarded exec Conserving [.makeDirectory strA, .removeFile strA] blankFs := by
    refine ⟨⟨fun _ _ h => ?_, fun name hname hE5 => ?_⟩, fun s' hs' =>
      ⟨⟨fun filename i hcall hlook _ => ?_, fun _ h => ?_⟩, fun _ _ => trivial⟩⟩
    · cases h
    · obtain rfl := Option.some.inj hname
      exact absurd hE5 (by decide)
    · obtain rfl := Except.ok.inj hs'
      obtain rfl := Call.removeFile.inj hcall
      have hslot : lookup strA (makeDirectory strA blankFs) = some 0 := by decide +kernel
      obtain rfl := Option.some.inj (hslot.symm.trans hlook)
      decide +kernel
    · cases h
  exact noLeak_runs formatted_blankFs hguard (List.prefix_refl _)

/-- Deleting a directory with a file in it: the file is out of reach, but its
cluster 3 stays in use. -/
theorem not_noLeak_directory :
    ∃ fs', runs exec [.makeDirectory strA, .changeDirectory strA,
        .writeFile (fatName strA strTxt) strHi, .changeDirectory dotDot, .removeFile strA]
        blankFs = .ok fs' ∧ ¬NoLeak fs'.disk := by
  obtain ⟨fs', hrun, hend⟩ := exists_of_endsWith
    (r := runs exec [.makeDirectory strA, .changeDirectory strA,
      .writeFile (fatName strA strTxt) strHi, .changeDirectory dotDot, .removeFile strA]
      blankFs)
    (p := fun fs => decide ((fs.disk 50).link 3 ≠ 0 ∧ ∀ i, ¬Live (dir fs.disk 0) i))
    (by decide +kernel)
  obtain ⟨hused, hempty⟩ := of_decide_eq_true hend
  refine ⟨fs', hrun, fun hleak => ?_⟩
  obtain ⟨d, i, -, ⟨hd, hlive⟩, -⟩ := hleak 3 (by decide) hused
  have hroot : d = 0 :=
    Forest.reachable_eq_root_of_empty (fun i => entry_eq_none.mpr (hempty i)) hd
  rw [hroot] at hlive
  exact hempty i hlive

end FirstKernel
