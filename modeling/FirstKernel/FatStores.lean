import FirstKernel.FatContents
import FirstKernel.FatDurable

/-!
# What `write_file` stores

The size of a new file is the length of its contents, its chain is one
cluster, and the loop that copies the contents stops at byte 511: three
numbers that `write_file` computes apart. They agree for contents of at
most 511 characters. Anything longer is cut off, and the entry still has
the size of all of it, reported as saved (`writeFile_stores_iff`).
-/

namespace FirstKernel

theorem ext_lt (m : Fin 3) : 8 + m.val < 11 := by omega

/-- The three characters of the extension. -/
def extOf (name : Buffer 11) : Buffer 3 := fun m => name ⟨8 + m.val, ext_lt m⟩

/-- The live entry in slot `i` of the current directory has this name, the size of the
contents, and a chain that holds all of them in order. -/
structure HoldsFile (filename : FatName) (content : CString) (i : Slot) (fs : Fs) : Prop where
  live : Live (readCurrentDirectory fs) i
  name_eq : (readCurrentDirectory fs).name i = nameOf filename.bytes
  ext_eq : (readCurrentDirectory fs).ext i = extOf filename.bytes
  size_eq : ((readCurrentDirectory fs).size i).toNat = strlen content
  stored : ∃ l, Chain fs.disk (headOf fs.disk fs.currentDirCluster i) l ∧
    content.chars <+: l.flatMap (clusterBytes fs.disk)

/-- The file is refused with an error and an unchanged disk, or stored in a slot that
was not in use. -/
def StoresOrRefuses (filename : FatName) (content : CString) (fs : Fs) : Prop :=
  (ReportsError fs (writeFile filename content fs) ∧
    (writeFile filename content fs).disk = fs.disk) ∨
  (¬ReportsError fs (writeFile filename content fs) ∧
    ∃ i, ¬Live (readCurrentDirectory fs) i ∧
      HoldsFile filename content i (writeFile filename content fs))

/-! ## The data sector -/

/-- The sector holds the contents as long as the copying loop reaches their end. -/
theorem prefix_contentSector_iff (content : CString) :
    content.chars <+: List.ofFn (contentSector content) ↔ strlen content ≤ 511 := by
  have hlen : (content.chars.take 511).length ≤ 511 := List.length_take_le ..
  constructor
  · intro hprefix
    by_contra hlong
    have hlt : 511 < content.chars.length := not_le.mp hlong
    have hbyte := hprefix.getElem hlt
    have hend : contentSector content ⟨511, by decide⟩ = 0 :=
      Buffer.blit_of_ge _ (Nat.le_trans (Nat.le_of_eq (Nat.zero_add _)) hlen)
    -- the last byte of the sector is a terminator, and no character is
    rw [List.getElem_ofFn, hend] at hbyte
    exact content.noNul (hbyte ▸ List.getElem_mem hlt)
  · intro hshort
    have htake : content.chars.take 511 = content.chars := List.take_of_length_le hshort
    have hlt : content.chars.length < 512 := Nat.lt_succ_of_le hshort
    refine List.prefix_iff_getElem.mpr ⟨by rw [List.length_ofFn]; omega, fun k hk => ?_⟩
    rw [List.getElem_ofFn, contentSector, htake]
    refine (Buffer.blit_of_mem _ (Nat.zero_le _) ?_).symm
    rw [Nat.sub_zero, List.getElem?_eq_getElem hk]

section

variable {fs fs' : Fs} {i : Slot} {filename : FatName} {content : CString}

/-- A file that was created is stored just when its contents fit in the one sector. -/
theorem Created.holdsFile_iff
    (h : Created fs fs' i filename.bytes (UInt32.ofNat (strlen content)) 0x20
      (contentSector content))
    (hwf : WellFormed fs) (hname : ∀ m, (filename.bytes m).toNat < 128) :
    HoldsFile filename content i fs' ↔ strlen content ≤ 511 := by
  have hdir : readCurrentDirectory fs' = (dir fs.disk fs.currentDirCluster).fillEntry i
      filename.bytes (UInt32.ofNat (strlen content)) 0x20 (findFreeCluster fs) := by
    rw [← h.at_dir, ← h.cwd_eq]
    rfl
  have hhead : headOf fs'.disk fs'.currentDirCluster i = findFreeCluster fs := by
    rw [h.cwd_eq]
    exact h.headOf_new
  have hdata : ([findFreeCluster fs].flatMap (clusterBytes fs'.disk)) =
      List.ofFn (contentSector content) := by
    rw [List.flatMap_singleton, clusterBytes, h.at_data]
  constructor
  · intro hfile
    obtain ⟨l, hchain, hprefix⟩ := hfile.stored
    rw [hhead] at hchain
    obtain rfl := hchain.unique h.chain_new
    rw [hdata] at hprefix
    exact (prefix_contentSector_iff content).mp hprefix
  · intro hshort
    refine ⟨?_, ?_, ?_, ?_, [findFreeCluster fs], ?_, ?_⟩
    · have hlive := h.inserted.live_new hwf (filename.noNul 0) (hname 0)
      rw [← h.cwd_eq] at hlive
      exact hlive
    · rw [hdir]
      exact funext name_fillEntry_self
    · rw [hdir]
      exact funext ext_fillEntry_self
    · rw [hdir, size_fillEntry_self, UInt32.toNat_ofNat']
      omega
    · rw [hhead]
      exact h.chain_new
    · rw [hdata]
      exact (prefix_contentSector_iff content).mpr hshort

end

/-- With room for the file, everything turns on the length of its contents. -/
theorem stores_iff_of_room {fs : Fs} (hwf : WellFormed fs) {filename : FatName}
    (hname : ∀ m, (filename.bytes m).toNat < 128) {content : CString}
    (hroom : ¬(DiskFull fs ∨ DirectoryFull fs)) :
    StoresOrRefuses filename content fs ↔ strlen content ≤ 511 := by
  rcases writeFile_refused_or_created hwf filename content with
    ⟨hfull, -, -⟩ | ⟨-, hok, i, hcreated⟩
  · exact absurd hfull hroom
  · rw [← hcreated.holdsFile_iff hwf hname]
    constructor
    · rintro (⟨herror, -⟩ | ⟨-, j, hnew, hfile⟩)
      · exact absurd herror hok
      · -- the only entry that was not live before is the new one
        have hlive := hfile.live
        rw [readCurrentDirectory, hcreated.cwd_eq] at hlive
        have hji := (hcreated.inserted.live_iff hwf (filename.noNul 0) j).mp hlive
        by_cases heq : j = i
        · exact heq ▸ hfile
        · rw [if_neg heq] at hji
          exact absurd hji hnew
    · intro hfile
      exact Or.inr ⟨hok, i, not_live_of_findFreeDirEntry hcreated.slot_free, hfile⟩

/-- **`write_file` stores all of the contents or refuses** just when it has to refuse,
or the contents have at most 511 characters. -/
theorem writeFile_stores_iff {fs : Fs} (hwf : WellFormed fs) {filename : FatName}
    (hname : ∀ m, (filename.bytes m).toNat < 128) (content : CString) :
    StoresOrRefuses filename content fs ↔
      DiskFull fs ∨ DirectoryFull fs ∨ strlen content ≤ 511 := by
  rw [← or_assoc]
  by_cases hfull : DiskFull fs ∨ DirectoryFull fs
  · rcases writeFile_refused_or_created hwf filename content with ⟨-, hrefused⟩ | ⟨hroom, -⟩
    · exact iff_of_true (Or.inl hrefused) (Or.inl hfull)
    · exact absurd hfull hroom
  · rw [or_iff_right hfull]
    exact stores_iff_of_room hwf hname hfull

/-- A short file on an empty disk. -/
theorem writeFile_stores_iff_hi :
    StoresOrRefuses (fatName strA strTxt) strHi blankFs ↔
      DiskFull blankFs ∨ DirectoryFull blankFs ∨ strlen strHi ≤ 511 :=
  writeFile_stores_iff formatted_blankFs.wellFormed (by decide +kernel) strHi

/-- A sector full of one character. -/
def strSector : CString := ⟨List.replicate 512 0x41, by decide +kernel⟩

/-- Of 512 characters, the last one is left out. -/
theorem not_stores_sector : ¬StoresOrRefuses (fatName strA strTxt) strSector blankFs := by
  have hname : ∀ m, ((fatName strA strTxt).bytes m).toNat < 128 := by decide +kernel
  have hroom : ¬(DiskFull blankFs ∨ DirectoryFull blankFs) := by
    rintro (hdisk | hdir)
    · exact hdisk 2 (by decide) rfl
    · exact (hdir 0).1 rfl
  rw [stores_iff_of_room formatted_blankFs.wellFormed hname hroom]
  exact not_le.mpr (by decide +kernel)

end FirstKernel
