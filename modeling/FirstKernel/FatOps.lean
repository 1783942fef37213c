import FirstKernel.FatVolume

/-!
# What each operation does

One specification per function of the file system; what follows never
unfolds the functions again. A search is specified by the slot or
cluster it finds (`findEntry_eq_some`, `findFreeDirEntry_eq_some`,
`findFreeCluster_free`), an operation by the sectors it writes, in
order: `createEntry` issues `createWrites` or prints an error
(`createEntry_cases`), `removeFile` prints an error (`removeFile_none`)
or issues `removeWrites` (`removeFile_of_walk`). The other calls write
nothing.
-/

namespace FirstKernel

/-! ## Sequences of writes -/

def applyWrites (ws : List (Nat × Sector)) (disk : Nat → Sector) : Nat → Sector :=
  ws.foldl (fun disk w => Function.update disk w.1 w.2) disk

/-- The state after the `write_sector` calls `ws`. -/
def Fs.withWrites (ws : List (Nat × Sector)) (fs : Fs) : Fs :=
  { fs with disk := applyWrites ws fs.disk, writes := fs.writes ++ ws }

@[simp] theorem withWrites_disk (ws : List (Nat × Sector)) (fs : Fs) :
    (fs.withWrites ws).disk = applyWrites ws fs.disk := rfl

@[simp] theorem printAll_disk (messages : List Text) (fs : Fs) :
    (printAll messages fs).disk = fs.disk := rfl

@[simp] theorem applyWrites_nil (disk : Nat → Sector) : applyWrites [] disk = disk := rfl

theorem applyWrites_cons (w : Nat × Sector) (ws : List (Nat × Sector))
    (disk : Nat → Sector) :
    applyWrites (w :: ws) disk = applyWrites ws (Function.update disk w.1 w.2) := rfl

/-- A sector that no write addresses keeps its contents. -/
theorem applyWrites_of_ne {lba : Nat} : ∀ {ws : List (Nat × Sector)}
    {disk : Nat → Sector}, (∀ w ∈ ws, w.1 ≠ lba) → applyWrites ws disk lba = disk lba
  | [], _, _ => rfl
  | w :: ws, disk, h => by
      rw [applyWrites_cons, applyWrites_of_ne fun v hv => h v (List.mem_cons_of_mem _ hv)]
      exact Function.update_of_ne (Ne.symm (h w (List.mem_cons_self ..))) ..

/-! ## Addresses -/

theorem dirSector_ne_fat (d : UInt16) : dirSector d ≠ 50 := by
  unfold dirSector clusterToSector
  split <;> omega

theorem clusterToSector_ne_fat {c : UInt16} (h : InData c) : clusterToSector c ≠ 50 := by
  have := h.1
  unfold clusterToSector
  omega

theorem dirSector_of_inData {c : UInt16} (h : InData c) :
    dirSector c = clusterToSector c := by
  have hne : c ≠ 0 := fun h0 => not_inData_zero (h0 ▸ h)
  simp [dirSector, hne]

/-- Directories have sectors of their own: 68 for the root, 99 and up for clusters. -/
theorem dirSector_injective : Function.Injective dirSector := by
  intro c d h
  have hpos : ∀ x : UInt16, x ≠ 0 → 1 ≤ x.toNat := fun x hx =>
    Nat.one_le_iff_ne_zero.mpr fun h0 => hx (UInt16.toNat_inj.mp h0)
  unfold dirSector clusterToSector at h
  split at h <;> split at h
  · next hc hd => rw [hc, hd]
  · next _ hd => have := hpos d hd; omega
  · next hc _ => have := hpos c hc; omega
  · next hc hd =>
      have h1 := hpos c hc
      have h2 := hpos d hd
      exact UInt16.toNat_inj.mp (by omega)

theorem clusterToSector_inj {c x : UInt16} (hc : InData c) (hx : InData x)
    (h : clusterToSector x = clusterToSector c) : x = c := by
  rw [← dirSector_of_inData hc, ← dirSector_of_inData hx] at h
  exact dirSector_injective h

/-! ## Searches -/

theorem findFreeDirEntry_eq_some {b : Sector} {i : Slot} :
    findFreeDirEntry b = some i ↔ (b.name i 0 = 0x00 ∨ b.name i 0 = 0xE5) ∧
      ∀ j < i, b.name j 0 ≠ 0x00 ∧ b.name j 0 ≠ 0xE5 := by
  rw [findFreeDirEntry, Fin.findSome?_eq_some_iff]
  constructor
  · rintro ⟨k, hk, hlt⟩
    split at hk
    · next hfree =>
        obtain rfl := Option.some.inj hk
        refine ⟨hfree, fun j hj => ?_⟩
        have hnone := hlt j hj
        split at hnone
        · cases hnone
        · next hused => exact not_or.mp hused
    · cases hk
  · rintro ⟨hfree, hlt⟩
    exact ⟨i, if_pos hfree, fun j hj => if_neg (not_or.mpr (hlt j hj))⟩

/-- The lookup finds the first live entry whose name matches. -/
theorem findEntry_eq_some {b : Sector} {p : Buffer 8} {i : Slot} :
    findEntry b p = some i ↔
      Live b i ∧ nameMatches p b i ∧ ∀ j < i, Live b j → ¬nameMatches p b j := by
  rw [findEntry, Option.join_eq_some_iff, Fin.findSome?_eq_some_iff]
  constructor
  · rintro ⟨k, hk, hlt⟩
    have hbefore : ∀ j < k, b.name j 0 ≠ 0x00 ∧
        (b.name j 0 ≠ 0xE5 → ¬nameMatches p b j) := by
      intro j hj
      have hnone := hlt j hj
      split at hnone
      · cases hnone
      · next h0 =>
          refine ⟨h0, fun hE5 hm => ?_⟩
          rw [if_neg hE5, if_pos hm] at hnone
          cases hnone
    split at hk
    · cases hk
    · next h0 =>
        split at hk
        · cases hk
        · next hE5 =>
            split at hk
            · next hm =>
                obtain rfl := Option.some.inj (Option.some.inj hk)
                refine ⟨⟨hE5, fun j hj => ?_⟩, hm, fun j hj hlive => ?_⟩
                · rcases Fin.lt_or_eq_of_le hj with hlt' | rfl
                  · exact (hbefore j hlt').1
                  · exact h0
                · exact (hbefore j hj).2 hlive.1
            · cases hk
  · rintro ⟨⟨hE5, h0⟩, hm, hfirst⟩
    refine ⟨i, ?_, fun j hj => ?_⟩
    · rw [if_neg (h0 i (Fin.le_refl i)), if_neg hE5, if_pos hm]
    · rw [if_neg (h0 j (Fin.le_of_lt hj))]
      by_cases hjE5 : b.name j 0 = 0xE5
      · rw [if_pos hjE5]
      · have hlive : Live b j :=
          ⟨hjE5, fun k hk => h0 k (Fin.le_trans hk (Fin.le_of_lt hj))⟩
        rw [if_neg hjE5, if_neg (hfirst j hj hlive)]

theorem findEntry_eq_none {b : Sector} {p : Buffer 8} :
    findEntry b p = none ↔ ∀ i, Live b i → ¬nameMatches p b i := by
  constructor
  · intro hnone i
    -- the first match would have been found
    induction i using WellFoundedLT.induction with
    | ind i ih =>
        intro hlive hm
        rw [findEntry_eq_some.mpr ⟨hlive, hm, ih⟩] at hnone
        cases hnone
  · intro h
    cases hf : findEntry b p with
    | none => rfl
    | some i =>
        obtain ⟨hlive, hm, -⟩ := findEntry_eq_some.mp hf
        exact absurd hm (h i hlive)

/-- A name matches the entries that have it, byte for byte, if it is of 7-bit bytes. -/
theorem nameMatches_iff_eq {b : Sector} {i : Slot} {p : Buffer 8} :
    nameMatches p b i ↔ b.name i = p ∧ ∀ m, (p m).toNat < 128 := by
  simp only [nameMatches, charValue_eq_toNat, forall_and]
  exact and_congr_left' ⟨fun h => funext fun m => (h m).symm, fun h m => by rw [h]⟩

theorem nameMatches_iff {b : Sector} {i : Slot} {p : Buffer 8}
    (hp : ∀ m, (p m).toNat < 128) : nameMatches p b i ↔ b.name i = p :=
  nameMatches_iff_eq.trans (and_iff_left hp)

theorem lookup_live {filename : CString} {fs : Fs} {i : Slot}
    (h : lookup filename fs = some i) : Live (dir fs.disk fs.currentDirCluster) i :=
  (findEntry_eq_some.mp h).1

theorem findFreeCluster_free {fs : Fs} (h : findFreeCluster fs ≠ 0) :
    (forestOf fs.disk).Free (findFreeCluster fs) := by
  unfold findFreeCluster at h ⊢
  simp only at h ⊢
  cases hf : Fin.findSome? fun i : Fin 256 =>
      if 2 ≤ i.val ∧ (readSector 50 fs).fatEntry i = 0 then some (UInt16.ofNat i.val)
      else none with
  | none => rw [hf] at h; exact absurd rfl h
  | some c =>
      obtain ⟨i, hi, -⟩ := Fin.findSome?_eq_some_iff.mp hf
      split at hi
      · next hfree =>
          obtain rfl := Option.some.inj hi
          have hval : (UInt16.ofNat i.val).toNat = i.val := by
            rw [UInt16.toNat_ofNat']
            omega
          have hlt : (UInt16.ofNat i.val).toNat < 256 := by omega
          have hidx : (⟨(UInt16.ofNat i.val).toNat, hlt⟩ : Fin 256) = i := Fin.ext hval
          rw [Option.getD_some]
          refine ⟨⟨by omega, by omega⟩, ?_⟩
          rw [Sector.link_of_lt _ hlt, hidx]
          exact hfree.2
      · cases hi

/-! ## Creating an entry -/

/-- The `write_sector` calls of a creation: the directory, the data, the FAT. -/
def createWrites (fs : Fs) (i : Slot) (name : Buffer 11) (size : UInt32)
    (attributes : UInt8) (data : Sector) : List (Nat × Sector) :=
  let c := findFreeCluster fs
  [(dirSector fs.currentDirCluster,
      (readCurrentDirectory fs).fillEntry i name size attributes c),
    (clusterToSector c, data),
    (50, (fs.disk 50).setFatEntry ⟨c.toNat, findFreeCluster_lt fs⟩ 0xFFFF)]

/-- A creation that is refused only prints why; one that is not issues
`createWrites` and prints its report. -/
theorem createEntry_cases (dirFull : Text) (name : Buffer 11) (size : UInt32)
    (attributes : UInt8) (data : Sector) (report : List Text) (fs : Fs) :
    (findFreeCluster fs = 0 ∧
      createEntry dirFull name size attributes data report fs
        = print (text "Error: disk is full\n") fs) ∨
    (findFreeCluster fs ≠ 0 ∧ findFreeDirEntry (readCurrentDirectory fs) = none ∧
      createEntry dirFull name size attributes data report fs = print dirFull fs) ∨
    (findFreeCluster fs ≠ 0 ∧ ∃ i, findFreeDirEntry (readCurrentDirectory fs) = some i ∧
      createEntry dirFull name size attributes data report fs
        = printAll report
          (fs.withWrites (createWrites fs i name size attributes data))) := by
  by_cases hc : findFreeCluster fs = 0
  · exact Or.inl ⟨hc, by simp [createEntry, hc]⟩
  · have hT := clusterToSector_ne_fat (findFreeCluster_free hc).1
    cases hs : findFreeDirEntry (readCurrentDirectory fs) with
    | none => exact Or.inr (Or.inl ⟨hc, rfl, by simp [createEntry, hc, hs]⟩)
    | some i =>
        refine Or.inr (Or.inr ⟨hc, i, rfl, ?_⟩)
        -- the FAT is read after two writes that do not touch sector 50
        simp [createEntry, hc, hs, Fs.withWrites, createWrites, applyWrites, writeSector,
          writeCurrentDirectory, readSector, Function.update_of_ne (Ne.symm hT),
          Function.update_of_ne (Ne.symm (dirSector_ne_fat fs.currentDirCluster))]

/-! ## Removing an entry -/

/-- The `write_sector` calls of a deletion: the directory, then the FAT. -/
def removeWrites (fs : Fs) (i : Slot) (fat' : Sector) : List (Nat × Sector) :=
  [(dirSector fs.currentDirCluster, (readCurrentDirectory fs).setName0 i 0xE5), (50, fat')]

theorem removeWrites_fat (fs : Fs) (i : Slot) (fat' : Sector) (disk : Nat → Sector) :
    applyWrites (removeWrites fs i fat') disk 50 = fat' := by
  simp [removeWrites, applyWrites]

def removeReport (filename : CString) : List Text :=
  [text "file or directory '", filename.chars, text "' deleted.\n"]

theorem removeFile_none {filename : CString} {fs : Fs} (h : lookup filename fs = none) :
    removeFile filename fs = .ok (print (text "Error: file not fount.\n") fs) := by
  unfold removeFile
  rw [h]

/-- With a match whose first cluster is 2 or more, everything turns on the loop. -/
theorem removeFile_some {filename : CString} {fs : Fs} {i : Slot}
    (h : lookup filename fs = some i)
    (hstart : 2 ≤ ((readCurrentDirectory fs).clusterLow i).toNat) :
    removeFile filename fs =
      match freeChain chainFuel ((readCurrentDirectory fs).clusterLow i) (fs.disk 50) with
      | .ok (visited, fat') =>
          .ok (printAll (removeReport filename)
            (Fs.withWrites (removeWrites fs i fat')
              { fs with visited := fs.visited ++ visited }))
      | .error e => .error e := by
  have hfat : readSector 50
      (writeCurrentDirectory ((readCurrentDirectory fs).setName0 i 0xE5) fs) = fs.disk 50 :=
    Function.update_of_ne (Ne.symm (dirSector_ne_fat fs.currentDirCluster)) ..
  unfold removeFile
  rw [h]
  simp only [if_pos hstart, hfat]
  cases freeChain chainFuel ((readCurrentDirectory fs).clusterLow i) (fs.disk 50) with
  | error e => rfl
  | ok r =>
      simp [Fs.withWrites, removeWrites, applyWrites, removeReport, printAll,
        writeCurrentDirectory, writeSector]

/-- **Deletion.** When the chain of the entry lies in sector 50, the call returns:
it deletes the slot and zeroes exactly the entries of the chain. -/
theorem removeFile_of_walk {filename : CString} {fs : Fs} {i : Slot} {l : List UInt16}
    {z : UInt16} (h : lookup filename fs = some i)
    (hstart : 2 ≤ ((readCurrentDirectory fs).clusterLow i).toNat)
    (hw : Walk InChain (fs.disk 50).link ((readCurrentDirectory fs).clusterLow i) l z)
    (hlt : ∀ x ∈ l, x.toNat < 256) :
    ∃ fat', (∀ x, fat'.link x = if x ∈ l then 0 else (fs.disk 50).link x) ∧
      removeFile filename fs = .ok (printAll (removeReport filename)
        (Fs.withWrites (removeWrites fs i fat') { fs with visited := fs.visited ++ l })) := by
  obtain ⟨fat', hrun, hlink⟩ := freeChain_of_walk hw chainFuel _ hlt
    (fun x _ => rfl) (walk_length_lt_chainFuel hw)
  exact ⟨fat', hlink, by rw [removeFile_some h hstart, hrun]⟩

/-! ## Reading -/

theorem catFile_none {filename : CString} {fs : Fs} (h : lookup filename fs = none) :
    catFile filename fs = .ok (print (text "Error: File not found.\n") fs) := by
  unfold catFile
  rw [h]

/-- `cat_file` returns exactly when the chain ends, and then has printed the
clusters on it between a newline and two. -/
theorem catFile_some {filename : CString} {fs fs' : Fs} {i : Slot}
    (h : lookup filename fs = some i) :
    catFile filename fs = .ok fs' ↔
      ∃ l z, CatWalk fs.disk ((readCurrentDirectory fs).clusterLow i) l z ∧
        fs' = print (text "\n\n") ((print (text "\n") fs).afterCat l) := by
  have hchain := catChain_eq_ok ((readCurrentDirectory fs).clusterLow i)
    (print (text "\n") fs)
  unfold catFile
  simp only [h]
  constructor
  · intro hrun
    split at hrun
    · next fs1 hok =>
        obtain ⟨l, z, hw, rfl⟩ := (hchain fs1).mp hok
        exact ⟨l, z, hw, (Except.ok.inj hrun).symm⟩
    · cases hrun
  · rintro ⟨l, z, hw, rfl⟩
    rw [(hchain _).mpr ⟨l, z, hw, rfl⟩]

end FirstKernel
