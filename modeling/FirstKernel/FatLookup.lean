import FirstKernel.FatContents
import FirstKernel.RunProgram

/-!
# Four searches by name

`cat_file`, `change_directory`, `remove_file` and `execute_program` each
search the current directory for a name before they do anything. What
they should act on is the first live entry whose eight bytes are the
padded name (`FirstNamed`), and they all do, unless the name has a byte
from 128 on: the name is an array of `char`, the entry of `unsigned char`,
and no `char` equals such a byte. Then all four report that there is no
such entry, which is right only if there is none (`actByName_iff`).
-/

namespace FirstKernel

/-! ## What is done with the entry -/

/-- `cat_file`, once the entry is found. -/
def catEntry (i : Slot) (fs : Fs) : Except Fault Fs :=
  match catChain chainFuel ((readCurrentDirectory fs).clusterLow i) (print (text "\n") fs) with
  | .ok fs => .ok (print (text "\n\n") fs)
  | .error e => .error e

/-- `change_directory`, once the entry is found. -/
def enterEntry (dirname : CString) (i : Slot) (fs : Fs) : Fs :=
  if (readCurrentDirectory fs).attributes i = 0x10 then
    printAll [text "Entering the directory '", dirname.chars, text "'\n"]
      { fs with currentDirCluster := (readCurrentDirectory fs).clusterLow i }
  else
    printAll [text "Error: '", dirname.chars, text "' this is a file not a directory\n"] fs

/-- `remove_file`, once the entry is found. -/
def removeEntry (filename : CString) (i : Slot) (fs : Fs) : Except Fault Fs :=
  let buffer := readCurrentDirectory fs
  let startCluster := buffer.clusterLow i
  let fs := writeCurrentDirectory (buffer.setName0 i 0xE5) fs
  if 2 ≤ startCluster.toNat then
    match freeChain chainFuel startCluster (readSector 50 fs) with
    | .ok (visited, fatTable) =>
        let fs := { fs with visited := fs.visited ++ visited }
        .ok (printAll (removeReport filename) (writeSector 50 fatTable fs))
    | .error e => .error e
  else .ok (printAll (removeReport filename) fs)

/-- `execute_program`, once the entry is found. -/
def runEntry (filename : CString) (i : Slot) (s : Machine) : Except Fault Machine :=
  match kmalloc 512 s.freeList s.kernel.memory with
  | .ok r => .ok (s.afterRun filename i r)
  | .error e => .error e

/-- The four functions act on this entry, or report that there is none and change
nothing. -/
structure ActOn (filename : CString) (s : Machine) (found : Option Slot) : Prop where
  cat : catFile filename s.fs =
    found.elim (.ok (print (text "Error: File not found.\n") s.fs)) (catEntry · s.fs)
  cd : filename ≠ slash → filename ≠ dotDot → changeDirectory filename s.fs =
    found.elim (print (text "Error: directory not found\n") s.fs) (enterEntry filename · s.fs)
  rm : removeFile filename s.fs =
    found.elim (.ok (print (text "Error: file not fount.\n") s.fs)) (removeEntry filename · s.fs)
  run : executeProgram filename s =
    found.elim (.ok { s with fs := print (text "Error: Program not found.\n") s.fs })
      (runEntry filename · s)

/-! ## The entry they should act on -/

/-- The first live entry with the name, if there is one. -/
def FirstNamed (filename : CString) (fs : Fs) : Option Slot → Prop
  | some i => Names filename fs i
  | none => ∀ i, Live (readCurrentDirectory fs) i →
      (readCurrentDirectory fs).name i ≠ padded 8 filename

def ActByName (filename : CString) (s : Machine) : Prop :=
  ∃ found, FirstNamed filename s.fs found ∧ ActOn filename s found

/-- The four copies of the search find the same entry. -/
theorem actOn_lookup (filename : CString) (s : Machine) :
    ActOn filename s (lookup filename s.fs) := by
  constructor
  case cat =>
    unfold catFile catEntry
    cases lookup filename s.fs <;> rfl
  case cd =>
    intro hslash hdotDot
    have hname : ¬(strcmp filename slash = 0 ∨ strcmp filename dotDot = 0) := by
      rw [strcmp_eq_zero, strcmp_eq_zero, not_or]
      exact ⟨hslash, hdotDot⟩
    rw [changeDirectory, if_neg hname]
    unfold enterEntry
    cases lookup filename s.fs <;> rfl
  case rm =>
    unfold removeFile removeEntry
    cases lookup filename s.fs <;> rfl
  case run =>
    cases hlook : lookup filename s.fs with
    | none => exact executeProgram_none hlook
    | some i =>
        unfold executeProgram runEntry
        rw [hlook]
        simp only
        cases kmalloc 512 s.freeList s.kernel.memory <;> rfl

/-- With a name of 7-bit characters it is the first entry with the name. -/
theorem firstNamed_lookup {filename : CString} {fs : Fs}
    (hname : ∀ m, (padded 8 filename m).toNat < 128) :
    FirstNamed filename fs (lookup filename fs) := by
  cases hlook : lookup filename fs with
  | none =>
      intro i hlive heq
      exact findEntry_eq_none.mp hlook i hlive ((nameMatches_iff hname).mpr heq)
  | some i =>
      obtain ⟨hlive, hmatch, hfirst⟩ := findEntry_eq_some.mp hlook
      refine ⟨hlive, (nameMatches_iff hname).mp hmatch, fun j hj hjlive heq => ?_⟩
      exact hfirst j hj hjlive ((nameMatches_iff hname).mpr heq)

/-- What is printed of an entry begins and ends with newlines. -/
theorem catEntry_ne_notFound (i : Slot) (fs : Fs) :
    catEntry i fs ≠ .ok (print (text "Error: File not found.\n") fs) := by
  intro heq
  rw [catEntry] at heq
  cases hrun : catChain chainFuel ((readCurrentDirectory fs).clusterLow i)
      (print (text "\n") fs) with
  | error e =>
      rw [hrun] at heq
      cases heq
  | ok fs' =>
      obtain ⟨l, z, -, rfl⟩ := (catChain_eq_ok _ _ _).mp hrun
      rw [hrun] at heq
      have hlen := congrArg (fun fs : Fs => fs.printed.length) (Except.ok.inj heq)
      simp only [print, Fs.afterCat, List.length_append, List.length_singleton] at hlen
      omega

/-- A name with a byte from 128 on is never found. -/
theorem not_actByName_of_high {filename : CString} {s : Machine}
    (hname : ¬∀ m, (padded 8 filename m).toNat < 128) {i : Slot}
    (hlive : Live (readCurrentDirectory s.fs) i)
    (heq : (readCurrentDirectory s.fs).name i = padded 8 filename) :
    ¬ActByName filename s := by
  rintro ⟨found, hfirst, hact⟩
  cases found with
  | none => exact hfirst i hlive heq
  | some j =>
      have hcat := hact.cat
      rw [catFile_none (lookup_of_high s.fs hname)] at hcat
      exact catEntry_ne_notFound j s.fs hcat.symm

/-- **The first entry with the name** is what the four functions act on, just when the
name is of 7-bit characters or no live entry has it. -/
theorem actByName_iff (filename : CString) (s : Machine) :
    ActByName filename s ↔
      (∀ m, (padded 8 filename m).toNat < 128) ∨
        ∀ i, Live (readCurrentDirectory s.fs) i →
          (readCurrentDirectory s.fs).name i ≠ padded 8 filename := by
  by_cases hname : ∀ m, (padded 8 filename m).toNat < 128
  · exact iff_of_true ⟨_, firstNamed_lookup hname, actOn_lookup filename s⟩ (Or.inl hname)
  · rw [or_iff_right hname]
    constructor
    · intro hact i hlive heq
      exact not_actByName_of_high hname hlive heq hact
    · intro hnone
      have hact := actOn_lookup filename s
      rw [lookup_of_high s.fs hname] at hact
      exact ⟨none, hnone, hact⟩

theorem noNul_highChar : (0 : UInt8) ∉ [(0xE9 : UInt8)] := by
  decide

/-- A name of one character that is no 7-bit one. -/
def strHigh : CString := ⟨[0xE9], noNul_highChar⟩

/-- A file of that name, as `write_file` stores it. -/
def highName : Machine where
  fs := writeFile (fatName strHigh strTxt) strHi blankFs
  kernel := initMultitasking blankKernel
  freeList := 0
  esp0 := 4096
  granted := []
  buffers := []

/-- It is not found. -/
theorem not_actByName_highName : ¬ActByName strHigh highName := by
  have hname : ¬∀ m, (padded 8 strHigh m).toNat < 128 := by decide +kernel
  have hlive : Live (readCurrentDirectory highName.fs) 0 := by decide +kernel
  exact not_actByName_of_high hname hlive (by decide +kernel)

end FirstKernel
