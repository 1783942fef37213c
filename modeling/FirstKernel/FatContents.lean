import FirstKernel.FatSameWalk

/-!
# What `cat_file` shows of a file

A file is the sectors of its clusters, all bytes of each but the last,
which ends at its first NUL. `cat_file` hands each sector to `print` as a
string of its own, in a buffer of the size of a sector whose last byte it
needs for the terminator. So the strings leave out the last byte of every
cluster that is full (`clusterText_eq`), and are the file only when the
first cluster is the last one and is not full (`catFile_prints_iff`).
-/

namespace FirstKernel

/-- The data sector of a cluster. -/
def clusterBytes (disk : Nat → Sector) (c : UInt16) : Text :=
  List.ofFn (disk (clusterToSector c))

/-- The file whose chain is `init` and then `last`. -/
def fileContents (disk : Nat → Sector) (init : List UInt16) (last : UInt16) : Text :=
  init.flatMap (clusterBytes disk) ++ (clusterBytes disk last).takeWhile (· ≠ 0)

/-- `cat_file` prints the text, in any number of strings, between a newline and two. -/
def Prints (filename : CString) (contents : Text) (fs : Fs) : Prop :=
  ∃ fs' strings, catFile filename fs = .ok fs' ∧
    fs'.printed = fs.printed ++ [text "\n"] ++ strings ++ [text "\n\n"] ∧
    strings.flatten = contents

/-- Slot `i` of the current directory holds the first live entry of this name. -/
structure Names (filename : CString) (fs : Fs) (i : Slot) : Prop where
  live : Live (readCurrentDirectory fs) i
  name_eq : (readCurrentDirectory fs).name i = padded 8 filename
  first : ∀ j < i, Live (readCurrentDirectory fs) j →
    (readCurrentDirectory fs).name j ≠ padded 8 filename

/-! ## Finding the entry -/

theorem Names.lookup_eq {filename : CString} {fs : Fs} {i : Slot} (h : Names filename fs i)
    (hname : ∀ m, (padded 8 filename m).toNat < 128) : lookup filename fs = some i := by
  refine findEntry_eq_some.mpr ⟨h.live, nameMatches_iff_eq.mpr ⟨h.name_eq, hname⟩, ?_⟩
  intro j hj hlive hmatch
  exact h.first j hj hlive (nameMatches_iff_eq.mp hmatch).1

/-- A `char` from 128 on is negative, and equals no byte of the directory. -/
theorem lookup_of_high {filename : CString} (fs : Fs)
    (hname : ¬∀ m, (padded 8 filename m).toNat < 128) : lookup filename fs = none := by
  refine findEntry_eq_none.mpr fun i _ hmatch => ?_
  exact hname (nameMatches_iff_eq.mp hmatch).2

/-! ## The strings -/

theorem set_eq_update {n : Nat} (b : Buffer n) {off : Nat} (h : off < n) (v : UInt8) :
    Buffer.set b off v = Function.update b ⟨off, h⟩ v := by
  funext k
  by_cases hk : k = ⟨off, h⟩
  · subst hk
    rw [Buffer.set_self, Function.update_self]
  · rw [Buffer.set_of_ne b v fun heq => hk (Fin.ext heq), Function.update_of_ne hk]

theorem takeWhile_append_stop {p : UInt8 → Bool} {z : UInt8} (hz : p z = false) (xs : Text) :
    (xs ++ [z]).takeWhile p = xs.takeWhile p := by
  induction xs with
  | nil => simp [hz]
  | cons x xs ih =>
      rw [List.cons_append, List.takeWhile_cons, List.takeWhile_cons, ih]

/-- The string of a cluster stops one byte before its end at the latest. -/
theorem clusterText_eq (disk : Nat → Sector) (c : UInt16) :
    clusterText disk c = ((clusterBytes disk c).takeWhile (· ≠ 0)).take 511 := by
  have hlen : (clusterBytes disk c).length = 512 := List.length_ofFn
  have hset : List.ofFn (Buffer.set (disk (clusterToSector c)) 511 0)
      = (clusterBytes disk c).take 511 ++ [0] := by
    rw [set_eq_update _ (by decide), ofFn_update, List.set_eq_take_append_cons_drop]
    rw [← clusterBytes, if_pos (by rw [hlen]; decide), List.drop_eq_nil_of_le (by rw [hlen])]
  rw [clusterText, hset, stringAt]
  simp only
  rw [takeWhile_append_stop (by decide), List.take_takeWhile]

theorem length_flatMap_of_forall {α β : Type*} {f : α → List β} {n : Nat} : ∀ {l : List α},
    (∀ x ∈ l, (f x).length = n) → (l.flatMap f).length = n * l.length
  | [], _ => rfl
  | x :: l, h => by
      rw [List.flatMap_cons, List.length_append, h x (List.mem_cons_self ..),
        length_flatMap_of_forall fun y hy => h y (List.mem_cons_of_mem _ hy), List.length_cons]
      rw [Nat.mul_succ, Nat.add_comm]

/-- A cluster is full when it has no NUL. -/
theorem length_takeWhile_lt_iff (disk : Nat → Sector) (c : UInt16) :
    ((clusterBytes disk c).takeWhile (· ≠ 0)).length ≤ 511 ↔ 0 ∈ clusterBytes disk c := by
  have hlen : (clusterBytes disk c).length = 512 := List.length_ofFn
  constructor
  · intro hle
    by_contra hnul
    rw [takeWhile_eq_of_forall_ne hnul, hlen] at hle
    omega
  · intro hnul
    by_contra hgt
    have hprefix := List.takeWhile_prefix (l := clusterBytes disk c) (· ≠ 0)
    have heq := hprefix.eq_of_length_le (by omega)
    have hne := List.takeWhile_eq_self_iff.mp heq 0 hnul
    exact absurd hne (by decide)

/-- The strings of the clusters are the file just when no byte is left out. -/
theorem flatten_strings_iff {disk : Nat → Sector} {init : List UInt16} {last : UInt16}
    (hfull : ∀ c ∈ init, 0 ∉ clusterBytes disk c) :
    ((init ++ [last]).map (clusterText disk)).flatten = fileContents disk init last ↔
      init = [] ∧ 0 ∈ clusterBytes disk last := by
  have htext : ∀ c ∈ init, (clusterText disk c).length = 511 := by
    intro c hc
    have hlen : (clusterBytes disk c).length = 512 := List.length_ofFn
    rw [clusterText_eq, takeWhile_eq_of_forall_ne (hfull c hc), List.length_take, hlen]
    rfl
  have hbytes : ∀ c ∈ init, (clusterBytes disk c).length = 512 := fun _ _ => List.length_ofFn
  have hflatten : ((init ++ [last]).map (clusterText disk)).flatten =
      init.flatMap (clusterText disk) ++ clusterText disk last := by
    simp [List.flatMap]
  rw [hflatten, fileContents, ← length_takeWhile_lt_iff disk last]
  constructor
  · intro heq
    have hlen := congrArg List.length heq
    rw [List.length_append, List.length_append, length_flatMap_of_forall htext,
      length_flatMap_of_forall hbytes, clusterText_eq, List.length_take] at hlen
    refine ⟨List.length_eq_zero_iff.mp ?_, ?_⟩
    · omega
    · omega
  · rintro ⟨rfl, hle⟩
    rw [clusterText_eq, List.take_of_length_le hle, List.flatMap_nil, List.flatMap_nil]

/-! ## The file -/

/-- What is printed of a file that is found. -/
theorem prints_iff_flatten {filename : CString} {fs : Fs} {i : Slot} {l : List UInt16}
    {contents : Text} (hlook : lookup filename fs = some i)
    (hchain : Chain fs.disk ((readCurrentDirectory fs).clusterLow i) l) :
    Prints filename contents fs ↔ (l.map (clusterText fs.disk)).flatten = contents := by
  obtain ⟨z, hw⟩ := hchain.catWalk
  have hrun := (catFile_some hlook).mpr ⟨l, z, hw, rfl⟩
  have hprinted : (print (text "\n\n") ((print (text "\n") fs).afterCat l)).printed =
      fs.printed ++ [text "\n"] ++ l.map (clusterText fs.disk) ++ [text "\n\n"] := by
    simp only [print, Fs.afterCat]
  constructor
  · rintro ⟨fs', strings, hcat, hstrings, hflatten⟩
    obtain rfl := Except.ok.inj (hrun.symm.trans hcat)
    rw [hprinted] at hstrings
    rw [List.append_cancel_left (List.append_cancel_right hstrings)]
    exact hflatten
  · intro hflatten
    exact ⟨_, _, hrun, hprinted, hflatten⟩

theorem not_prints_of_high {filename : CString} (fs : Fs) (contents : Text)
    (hname : ¬∀ m, (padded 8 filename m).toNat < 128) : ¬Prints filename contents fs := by
  rintro ⟨fs', strings, hcat, hstrings, -⟩
  rw [catFile_none (lookup_of_high fs hname)] at hcat
  obtain rfl := Except.ok.inj hcat
  have hlen := congrArg List.length hstrings
  simp only [print, List.length_append, List.length_singleton] at hlen
  omega

/-- **`cat` outputs the whole file** just when the file has one cluster, which is not
full, and a name of 7-bit characters. -/
theorem catFile_prints_iff {filename : CString} {fs : Fs} {i : Slot} {init : List UInt16}
    {last : UInt16} (hnames : Names filename fs i)
    (hchain : Chain fs.disk ((readCurrentDirectory fs).clusterLow i) (init ++ [last]))
    (hfull : ∀ c ∈ init, 0 ∉ clusterBytes fs.disk c) :
    Prints filename (fileContents fs.disk init last) fs ↔
      (∀ m, (padded 8 filename m).toNat < 128) ∧ init = [] ∧ 0 ∈ clusterBytes fs.disk last := by
  by_cases hname : ∀ m, (padded 8 filename m).toNat < 128
  · rw [prints_iff_flatten (hnames.lookup_eq hname) hchain, flatten_strings_iff hfull]
    exact (and_iff_right hname).symm
  · exact iff_of_false (not_prints_of_high fs _ hname) fun h => hname h.1

/-- A file in clusters 2 and 5: the first is full of one character, the second is all
NUL. -/
def fragmentFs : Fs := oneFileFs 2 512 [(2, 5), (5, 0xFFFF)] fun _ => 0x41

theorem names_fragmentFs : Names strA fragmentFs 0 := by
  refine ⟨by decide +kernel, by decide +kernel, fun j hj => ?_⟩
  exact absurd hj (Fin.not_lt_zero j)

theorem chain_fragmentFs :
    Chain fragmentFs.disk ((readCurrentDirectory fragmentFs).clusterLow 0) ([2] ++ [5]) := by
  have hhead : (readCurrentDirectory fragmentFs).clusterLow 0 = 2 := by decide +kernel
  have hlink2 : (fragmentFs.disk 50).link 2 = 5 := by decide +kernel
  have hlink5 : (fragmentFs.disk 50).link 5 = 0xFFFF := by decide +kernel
  rw [hhead]
  refine ⟨by decide, 0xFFFF, .step (by decide) ?_, by decide⟩
  rw [hlink2]
  exact .single (by decide) hlink5 (by decide)

theorem full_fragmentFs : ∀ c ∈ [(2 : UInt16)], 0 ∉ clusterBytes fragmentFs.disk c := by
  intro c hc
  rw [List.mem_singleton.mp hc]
  decide +kernel

theorem catFile_prints_iff_fragmentFs :
    Prints strA (fileContents fragmentFs.disk [2] 5) fragmentFs ↔
      (∀ m, (padded 8 strA m).toNat < 128) ∧ [(2 : UInt16)] = [] ∧
        0 ∈ clusterBytes fragmentFs.disk 5 :=
  catFile_prints_iff names_fragmentFs chain_fragmentFs full_fragmentFs

/-- Of the 512 characters of this file `cat` prints 511. -/
theorem not_prints_fragmentFs :
    Names strA fragmentFs 0 ∧
      Chain fragmentFs.disk ((readCurrentDirectory fragmentFs).clusterLow 0) ([2] ++ [5]) ∧
      (∀ c ∈ [(2 : UInt16)], 0 ∉ clusterBytes fragmentFs.disk c) ∧
      ¬Prints strA (fileContents fragmentFs.disk [2] 5) fragmentFs := by
  refine ⟨names_fragmentFs, chain_fragmentFs, full_fragmentFs, ?_⟩
  have hlook := names_fragmentFs.lookup_eq (by decide)
  rw [prints_iff_flatten hlook chain_fragmentFs, flatten_strings_iff full_fragmentFs]
  rintro ⟨hnil, -⟩
  cases hnil

end FirstKernel
