import FirstKernel.FatFrame
import FirstKernel.NumberBuffers

/-!
# Sizes that are printed

`list_files` formats each size in an array of ten cells. A file is as long
as the text it was written from, so while no text of ten digits' length
is written, every entry that the shell can come to has a size that fits
(`ShortSizes`), and the listing is the one without arrays
(`listFilesInto_ok`).
-/

namespace FirstKernel

/-- Every live entry has a size that `size_str` has room for. -/
def ShortSizes (disk : Nat → Sector) : Prop :=
  ∀ d i, LiveEntry disk d i → ShortSize (dir disk d) i

/-- The text of a file has a length of at most nine digits. -/
def Call.ShortContent : Call → Prop
  | .writeFile _ content => content.chars.length < 1000000000
  | _ => True

/-! ## The entries that are listed -/

/-- A slot is listed with no unused slot up to it. -/
theorem exists_append_of_mem_listed {entries : Sector} {i : Slot} : ∀ {slots : List Slot},
    i ∈ listed entries slots → entries.name i 0 ≠ 0xE5 ∧
      ∃ before after, slots = before ++ i :: after ∧ ∀ j ∈ before ++ [i], entries.name j 0 ≠ 0x00
  | [], h => by cases h
  | k :: rest, h => by
      rw [listed] at h
      by_cases hfree : entries.name k 0 = 0x00
      · rw [if_pos hfree] at h
        cases h
      rw [if_neg hfree] at h
      by_cases hdeleted : entries.name k 0 = 0xE5
      · rw [if_pos hdeleted] at h
        obtain ⟨hi, before, after, rfl, hbefore⟩ := exists_append_of_mem_listed h
        exact ⟨hi, k :: before, after, rfl, List.forall_mem_cons.mpr ⟨hfree, hbefore⟩⟩
      rw [if_neg hdeleted] at h
      rcases List.mem_cons.mp h with rfl | h
      · exact ⟨hdeleted, [], rest, rfl, by simpa using hfree⟩
      · obtain ⟨hi, before, after, rfl, hbefore⟩ := exists_append_of_mem_listed h
        exact ⟨hi, k :: before, after, rfl, List.forall_mem_cons.mpr ⟨hfree, hbefore⟩⟩

theorem live_of_mem_listed {entries : Sector} {i : Slot}
    (h : i ∈ listed entries (List.finRange 16)) : Live entries i := by
  obtain ⟨hi, before, after, hsplit, hbefore⟩ := exists_append_of_mem_listed h
  refine ⟨hi, fun j hj => hbefore j ?_⟩
  have hmem : j ∈ before ++ i :: after := hsplit ▸ List.mem_finRange j
  have hsorted : (before ++ i :: after).Pairwise (· < ·) := hsplit ▸ List.pairwise_lt_finRange 16
  rw [← List.singleton_append, ← List.append_assoc] at hmem hsorted
  rcases List.mem_append.mp hmem with hleft | hright
  · exact hleft
  · have hlt : i < j := (List.pairwise_append.mp hsorted).2.2 i (by simp) j hright
    exact absurd hj (Fin.not_le.mpr hlt)

theorem listFilesInto_ok (stack : Slot → Buffer 10) {fs : Fs} (hwf : WellFormed fs)
    (h : ShortSizes fs.disk) : listFilesInto stack fs = .ok (listFiles fs) :=
  listFilesInto_of_short stack fun i hi => h _ i ⟨hwf.cwd, live_of_mem_listed hi⟩

/-! ## What the calls do to the sizes -/

theorem shortNumber_ofNat {n : Nat} (h : n < 1000000000) :
    ShortNumber (UInt32.ofNat n).toInt32 := by
  have htoInt : (UInt32.ofNat n).toInt32.toInt = n := by
    show (UInt32.ofNat n).toBitVec.toInt = n
    rw [BitVec.toInt_eq_toNat_bmod]
    show Int.bmod ((UInt32.ofNat n).toNat : Int) (2 ^ 32) = n
    rw [UInt32.toNat_ofNat', Nat.mod_eq_of_lt (by omega)]
    exact Int.bmod_eq_of_le (by omega) (by omega)
  refine Or.inr ⟨Int32.lt_iff_toInt_lt.mpr ?_, Int32.lt_iff_toInt_lt.mpr ?_⟩
  · rw [htoInt]
    exact Int.lt_of_lt_of_le (by decide) (Int.natCast_nonneg n)
  · rw [htoInt]
    exact Int.ofNat_lt.mpr h

theorem SameSlot.size_eq {b b' : Sector} {j : Slot} (h : SameSlot b b' j) :
    b'.size j = b.size j := by
  have hbyte : ∀ k (hk : k < 4), b' ⟨32 * j.val + 28 + k, by omega⟩ =
      b ⟨32 * j.val + 28 + k, by omega⟩ := by
    intro k hk
    refine h _ ?_
    show (32 * j.val + 28 + k) / 32 = j.val
    omega
  rw [Sector.size, Sector.size, Buffer.load32, Buffer.load32, show b' ⟨32 * j.val + 28, _⟩ = _ from
    hbyte 0 (by decide), hbyte 1 (by decide), hbyte 2 (by decide), hbyte 3 (by decide)]

theorem Keeps.shortSize {fs fs' : Fs} {s : Slot} {d : UInt16} {i : Slot} (h : Keeps fs fs' s d i)
    (hshort : ShortSize (dir fs.disk d) i) : ShortSize (dir fs'.disk d) i := by
  rw [ShortSize, h.slot.attributes_eq, SameSlot.size_eq h.slot]
  exact hshort

theorem Created.shortSizes {fs fs' : Fs} {i : Slot} {name : Buffer 11} {size : UInt32}
    {attributes : UInt8} {data : Sector} (h : Created fs fs' i name size attributes data)
    (hwf : WellFormed fs) (hname : name 0 ≠ 0)
    (hdata : attributes = 0x10 → ∀ j, data.name j 0 = 0)
    (hsize : attributes ≠ 0x10 → ShortNumber size.toInt32) (hshort : ShortSizes fs.disk) :
    ShortSizes fs'.disk := by
  intro d j hlive
  rcases ((h.alloc hwf hname hdata).live_iff hwf.sound).mp hlive.live with hold | ⟨rfl, rfl, -⟩
  · obtain ⟨hold, -⟩ := liveEntry_of_live hold
    exact (h.keeps hwf hname hold).shortSize (hshort d j hold)
  · rw [ShortSize, h.at_dir, attributes_fillEntry_self, size_fillEntry_self]
    exact hsize

theorem Removed.shortSizes {fs fs' : Fs} {i : Slot} {l : List UInt16} (h : Removed fs fs' i l)
    (hwf : WellFormed fs) (hshort : ShortSizes fs.disk) : ShortSizes fs'.disk := by
  intro d j hlive
  obtain ⟨hold, hne⟩ := (h.prune hwf).live_of hlive.live
  obtain ⟨hold, -⟩ := liveEntry_of_live hold
  exact (h.keeps hwf hold hne).shortSize (hshort d j hold)

theorem shortSizes_createEntry {fs : Fs} (hwf : WellFormed fs) (hshort : ShortSizes fs.disk)
    (dirFull : Text) {name : Buffer 11} {size : UInt32} {attributes : UInt8} {data : Sector}
    (report : List Text) (hname : name 0 ≠ 0)
    (hdata : attributes = 0x10 → ∀ j, data.name j 0 = 0)
    (hsize : attributes ≠ 0x10 → ShortNumber size.toInt32) :
    ShortSizes (createEntry dirFull name size attributes data report fs).disk := by
  rcases createEntry_outcome hwf dirFull name size attributes data report with
    ⟨message, -, heq⟩ | ⟨i, hcreated, -⟩
  · rw [heq]
    exact hshort
  · exact hcreated.shortSizes hwf hname hdata hsize hshort

theorem exec_shortSizes {fs fs' : Fs} (hwf : WellFormed fs) (hshort : ShortSizes fs.disk)
    {call : Call} (hcall : call.ShortContent) (hexec : exec call fs = .ok fs') :
    ShortSizes fs'.disk := by
  obtain ⟨fs1, hexec1, heff⟩ := exec_effect hwf call
  obtain rfl := Except.ok.inj (hexec.symm.trans hexec1)
  cases call with
  | writeFile filename content =>
      obtain rfl := Except.ok.inj hexec
      exact shortSizes_createEntry hwf hshort _ _ (filename.noNul 0) (fun h => absurd h (by decide))
        fun _ => shortNumber_ofNat hcall
  | makeDirectory dirname =>
      obtain rfl := Except.ok.inj hexec
      have hname : (Call.makeDirectory dirname).newName = some (dirName dirname) := rfl
      exact shortSizes_createEntry hwf hshort _ _ (Call.newName_ne_zero hname) (fun _ _ => rfl)
        fun h => absurd rfl h
  | removeFile filename =>
      cases heff with
      | quiet hd _ => rwa [hd]
      | created hnew _ _ => cases hnew
      | removed _ h => exact h.shortSizes hwf hshort
  | changeDirectory dirname =>
      cases heff with
      | quiet hd _ => rwa [hd]
      | moved hd _ => rwa [hd]
      | created hnew _ _ => cases hnew
  | catFile filename =>
      cases heff with
      | quiet hd _ => rwa [hd]
      | created hnew _ _ => cases hnew
  | listFiles =>
      cases heff with
      | quiet hd _ => rwa [hd]
      | created hnew _ _ => cases hnew

theorem Formatted.shortSizes {fs : Fs} (h : Formatted fs) : ShortSizes fs.disk :=
  fun d i hlive => absurd hlive (h.not_liveEntry d i)

end FirstKernel
