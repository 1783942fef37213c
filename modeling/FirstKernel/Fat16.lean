import Mathlib.Data.Fin.Tuple.Basic
import FirstKernel.CString
import FirstKernel.Runs

/-!
# The file system, `fs/fat16.c`

The functions of the file system over a disk of 512-byte sectors. The
state is the disk, the module variable `current_dir_cluster`, and three
traces of what the code does on the way: the `write_sector` calls, the
strings handed to `print`, and the clusters its chain walks stop at.
The traces only grow and no function reads them.

Sector 50 is the FAT, sector 68 the root directory, and cluster `c` is
sector `100 + (c - 2)`. A directory sector holds 16 packed `dir_entry_t`
of 32 bytes; a `char buffer[512]` that the source casts to entries or to
`unsigned short` keeps its bytes here, and the casts are the accessors
in `Sector`.

A `for` loop that leaves early is `Fin.findSome?` of its body: `some`
leaves the loop with a result, `none` goes on. The two chain walks are
`while` loops that follow links found on the disk, so they run on fuel;
`FatChain` shows that running out of `chainFuel` means running for ever.
`removeFile` indexes a buffer of 256 entries with whatever the disk
says, which is the fault `outOfRange`.
-/

namespace FirstKernel

abbrev Sector := Buffer 512

abbrev Slot := Fin 16

instance neZero_nameLength : NeZero 8 := ⟨by decide⟩

instance neZero_fatNameLength : NeZero 11 := ⟨by decide⟩

structure Fs where
  disk : Nat → Sector
  currentDirCluster : UInt16
  writes : List (Nat × Sector)
  printed : List Text
  visited : List UInt16

/-- A FAT name as `cmd_write` builds it: eight name and three extension
characters, none of them the terminator. -/
structure FatName where
  bytes : Buffer 11
  noNul : ∀ i, bytes i ≠ 0

theorem append_ne_zero {m n : Nat} {a : Buffer m} {b : Buffer n}
    (ha : ∀ i, a i ≠ 0) (hb : ∀ i, b i ≠ 0) (i : Fin (m + n)) : Fin.append a b i ≠ 0 := by
  refine Fin.addCases (fun j => ?_) (fun j => ?_) i
  · rw [Fin.append_left]; exact ha j
  · rw [Fin.append_right]; exact hb j

/-- The `fat_name` array of `cmd_write`. -/
def fatName (fileName fileExt : CString) : FatName where
  bytes := Fin.append (padded 8 fileName) (padded 3 fileExt)
  noNul := @append_ne_zero 8 3 _ _ (padded_ne_zero fileName) (padded_ne_zero fileExt)

/-! ## Sectors as directory entries and FAT entries -/

namespace Sector

/-- `entries[i].name[j]` -/
def name (b : Sector) (i : Slot) (j : Fin 8) : UInt8 := b ⟨32 * i.val + j.val, by omega⟩

def ext (b : Sector) (i : Slot) (j : Fin 3) : UInt8 :=
  b ⟨32 * i.val + 8 + j.val, by omega⟩

def attributes (b : Sector) (i : Slot) : UInt8 := b ⟨32 * i.val + 11, by omega⟩

def clusterLow (b : Sector) (i : Slot) : UInt16 :=
  Buffer.load16 b (32 * i.val + 26) (by omega)

def size (b : Sector) (i : Slot) : UInt32 :=
  Buffer.load32 b (32 * i.val + 28) (by omega)

/-- `entries[i].name[0] = v` -/
def setName0 (b : Sector) (i : Slot) (v : UInt8) : Sector := Buffer.set b (32 * i.val) v

/-- The assignments that `write_file` and `make_directory` make to a slot; its
reserved and time fields keep what they held. -/
def fillEntry (b : Sector) (i : Slot) (name : Buffer 11) (size : UInt32)
    (attributes : UInt8) (cluster : UInt16) : Sector :=
  let b := Buffer.blit b (32 * i.val) (List.ofFn name)
  let b := Buffer.store32 b (32 * i.val + 28) size
  let b := Buffer.set b (32 * i.val + 11) attributes
  Buffer.store16 b (32 * i.val + 26) cluster

/-- `fat_entries[c]` -/
def fatEntry (b : Sector) (c : Fin 256) : UInt16 := Buffer.load16 b (2 * c.val) (by omega)

def setFatEntry (b : Sector) (c : Fin 256) (v : UInt16) : Sector :=
  Buffer.store16 b (2 * c.val) v

end Sector

/-! ## Sectors and prints -/

def readSector (lba : Nat) (fs : Fs) : Sector := fs.disk lba

def writeSector (lba : Nat) (buffer : Sector) (fs : Fs) : Fs :=
  { fs with disk := Function.update fs.disk lba buffer, writes := fs.writes ++ [(lba, buffer)] }

def print (message : Text) (fs : Fs) : Fs :=
  { fs with printed := fs.printed ++ [message] }

def printAll (messages : List Text) (fs : Fs) : Fs :=
  { fs with printed := fs.printed ++ messages }

def clusterToSector (cluster : UInt16) : Nat := 100 + cluster.toNat - 2

/-- The sector that `read_current_directory` and `write_current_directory` use. -/
def dirSector (cluster : UInt16) : Nat :=
  if cluster = 0 then 68 else clusterToSector cluster

def readCurrentDirectory (fs : Fs) : Sector :=
  readSector (dirSector fs.currentDirCluster) fs

def writeCurrentDirectory (buffer : Sector) (fs : Fs) : Fs :=
  writeSector (dirSector fs.currentDirCluster) buffer fs

/-- The link of a cluster, put together from two bytes of the FAT sector that
holds it. -/
def getNextCluster (currentCluster : UInt16) (disk : Nat → Sector) : UInt16 :=
  let fatOffset := currentCluster.toNat * 2
  let fatSector := 50 + fatOffset / 512
  let entryOffset := fatOffset % 512
  let buffer := disk fatSector
  let lowByte := buffer ⟨entryOffset, by omega⟩
  let highByte := buffer ⟨entryOffset + 1, by omega⟩
  highByte.toUInt16 <<< 8 ||| lowByte.toUInt16

/-! ## Searches -/

/-- The first cluster from 2 on whose entry in sector 50 is zero, or 0. -/
@[irreducible] def findFreeCluster (fs : Fs) : UInt16 :=
  let fatTable := readSector 50 fs
  (Fin.findSome? fun i : Fin 256 =>
    if 2 ≤ i.val ∧ fatTable.fatEntry i = 0 then some (UInt16.ofNat i.val) else none).getD 0

/-- The first slot that is unused (`0x00`) or deleted (`0xE5`); `none` is -1. -/
def findFreeDirEntry (entries : Sector) : Option Slot :=
  Fin.findSome? fun i : Slot =>
    if entries.name i 0 = 0x00 ∨ entries.name i 0 = 0xE5 then some i else none

/-- `padded_name` is of `char`, the stored name of `unsigned char`. -/
def nameMatches (paddedName : Buffer 8) (entries : Sector) (i : Slot) : Prop :=
  ∀ j, charValue (paddedName j) = (entries.name i j).toNat

instance (paddedName : Buffer 8) (entries : Sector) (i : Slot) :
    Decidable (nameMatches paddedName entries i) :=
  inferInstanceAs (Decidable (∀ _, _))

/-- The loop over the slots that `cat_file`, `change_directory`, `remove_file`
and `execute_program` share: it breaks at `0x00`, skips `0xE5` and leaves at the
first match. -/
def findEntry (entries : Sector) (paddedName : Buffer 8) : Option Slot :=
  (Fin.findSome? fun i : Slot =>
    if entries.name i 0 = 0x00 then some none
    else if entries.name i 0 = 0xE5 then none
    else if nameMatches paddedName entries i then some (some i)
    else none).join

/-- The slot a file name given to one of these functions resolves to. -/
def lookup (filename : CString) (fs : Fs) : Option Slot :=
  findEntry (readCurrentDirectory fs) (padded 8 filename)

theorem findFreeCluster_lt (fs : Fs) : (findFreeCluster fs).toNat < 256 := by
  unfold findFreeCluster
  simp only
  cases hf : Fin.findSome? fun i : Fin 256 =>
      if 2 ≤ i.val ∧ (readSector 50 fs).fatEntry i = 0 then some (UInt16.ofNat i.val)
      else none with
  | none => decide
  | some c =>
      obtain ⟨i, hi, -⟩ := Fin.findSome?_eq_some_iff.mp hf
      split at hi
      · obtain rfl := Option.some.inj hi
        rw [Option.getD_some, UInt16.toNat_ofNat']
        omega
      · cases hi

/-! ## Creating entries -/

/-- `write_file` and `make_directory` are this function: find a free cluster and
a free slot, fill the slot, write the directory, then the cluster, and mark
the cluster as the end of its chain last. -/
def createEntry (dirFull : Text) (name : Buffer 11) (size : UInt32)
    (attributes : UInt8) (data : Sector) (report : List Text) (fs : Fs) : Fs :=
  let freeCluster := findFreeCluster fs
  if freeCluster = 0 then print (text "Error: disk is full\n") fs
  else
    let dirBuffer := readCurrentDirectory fs
    match findFreeDirEntry dirBuffer with
    | none => print dirFull fs
    | some freeEntry =>
        let dirBuffer := dirBuffer.fillEntry freeEntry name size attributes freeCluster
        let fs := writeCurrentDirectory dirBuffer fs
        let fs := writeSector (clusterToSector freeCluster) data fs
        let fatTable := readSector 50 fs
        let fatTable :=
          fatTable.setFatEntry ⟨freeCluster.toNat, findFreeCluster_lt _⟩ 0xFFFF
        printAll report (writeSector 50 fatTable fs)

/-- `data_buffer`: the first 511 characters, the rest zero. -/
def contentSector (content : CString) : Sector :=
  Buffer.blit (Buffer.zeros 512) 0 (content.chars.take 511)

def writeFile (filename : FatName) (content : CString) (fs : Fs) : Fs :=
  createEntry (text "Error: cannot create more file within the main root\n")
    filename.bytes (UInt32.ofNat (strlen content)) 0x20 (contentSector content)
    [text "file '", List.ofFn filename.bytes, text "' save successfuly.\n"] fs

/-- The eleven name and extension bytes that `make_directory` stores. -/
def dirName (dirname : CString) : Buffer 11 :=
  Fin.append (padded 8 dirname) fun _ : Fin 3 => 0x20

def makeDirectory (dirname : CString) (fs : Fs) : Fs :=
  createEntry (text "Error: root dir is full\n") (dirName dirname) 0 0x10
    (Buffer.zeros 512)
    [text "Directory '", dirname.chars, text "' successfuly create\n"] fs

/-! ## Walking chains -/

/-- `cluster >= 2 && cluster < 0xFFF8` -/
def InChain (cluster : UInt16) : Prop := 2 ≤ cluster.toNat ∧ cluster.toNat < 0xFFF8

instance (cluster : UInt16) : Decidable (InChain cluster) :=
  inferInstanceAs (Decidable (_ ∧ _))

/-- One round more than there are clusters. -/
@[irreducible] def chainFuel : Nat := 65537

/-- The `while` loop of `cat_file`. The last byte of `file_data` is overwritten
with the terminator before it is printed. -/
def catChain : Nat → UInt16 → Fs → Except Fault Fs
  | 0, _, _ => .error .outOfFuel
  | fuel + 1, cluster, fs =>
      if InChain cluster then
        let fileData := Buffer.set (readSector (clusterToSector cluster) fs) 511 0
        let fs := print (stringAt (List.ofFn fileData)).chars
          { fs with visited := fs.visited ++ [cluster] }
        catChain fuel (getNextCluster cluster fs.disk) fs
      else .ok fs

def catFile (filename : CString) (fs : Fs) : Except Fault Fs :=
  let entries := readCurrentDirectory fs
  match lookup filename fs with
  | none => .ok (print (text "Error: File not found.\n") fs)
  | some i =>
      match catChain chainFuel (entries.clusterLow i) (print (text "\n") fs) with
      | .ok fs => .ok (print (text "\n\n") fs)
      | .error e => .error e

/-- The `while` loop of `remove_file` on its copy of sector 50, with the indices
it used. -/
def freeChain : Nat → UInt16 → Sector → Except Fault (List UInt16 × Sector)
  | 0, _, _ => .error .outOfFuel
  | fuel + 1, current, fatTable =>
      if InChain current then
        if h : current.toNat < 256 then
          let nextCluster := fatTable.fatEntry ⟨current.toNat, h⟩
          match freeChain fuel nextCluster (fatTable.setFatEntry ⟨current.toNat, h⟩ 0) with
          | .ok (visited, fatTable) => .ok (current :: visited, fatTable)
          | .error e => .error e
        else .error (.outOfRange current.toNat)
      else .ok ([], fatTable)

def removeFile (filename : CString) (fs : Fs) : Except Fault Fs :=
  let buffer := readCurrentDirectory fs
  let report := [text "file or directory '", filename.chars, text "' deleted.\n"]
  match lookup filename fs with
  | none => .ok (print (text "Error: file not fount.\n") fs)
  | some i =>
      let startCluster := buffer.clusterLow i
      let fs := writeCurrentDirectory (buffer.setName0 i 0xE5) fs
      if 2 ≤ startCluster.toNat then
        match freeChain chainFuel startCluster (readSector 50 fs) with
        | .ok (visited, fatTable) =>
            let fs := { fs with visited := fs.visited ++ visited }
            .ok (printAll report (writeSector 50 fatTable fs))
        | .error e => .error e
      else .ok (printAll report fs)

/-! ## Directories -/

def slash : CString := ⟨text "/", by decide⟩

def dotDot : CString := ⟨text "..", by decide⟩

def changeDirectory (dirname : CString) (fs : Fs) : Fs :=
  if strcmp dirname slash = 0 ∨ strcmp dirname dotDot = 0 then
    print (text "current position: root directory\n") { fs with currentDirCluster := 0 }
  else
    let entries := readCurrentDirectory fs
    match lookup dirname fs with
    | none => print (text "Error: directory not found\n") fs
    | some i =>
        if entries.attributes i = 0x10 then
          printAll [text "Entering the directory '", dirname.chars, text "'\n"]
            { fs with currentDirCluster := entries.clusterLow i }
        else
          printAll [text "Error: '", dirname.chars,
            text "' this is a file not a directory\n"] fs

/-- What `list_files` prints for one entry in use. -/
def listEntry (entries : Sector) (i : Slot) : List Text :=
  let filename := (stringAt (List.ofFn (entries.name i))).chars
  let ext := (stringAt (List.ofFn (entries.ext i))).chars
  if entries.attributes i = 0x10 then [text "[DIR] ", filename, text "\n"]
  else [text "File: ", filename, text ".", ext, text " (",
    itoa (entries.size i).toInt32, text " bytes)\n"]

/-- The entries that the loop of `list_files` prints. -/
def listed (entries : Sector) : List Slot → List Slot
  | [] => []
  | i :: rest =>
      if entries.name i 0 = 0x00 then []
      else if entries.name i 0 = 0xE5 then listed entries rest
      else i :: listed entries rest

def listFiles (fs : Fs) : Fs :=
  let entries := readCurrentDirectory fs
  let title := if fs.currentDirCluster = 0 then text "\n--- ROOT DIR ---\n"
    else text "\n--- FOLDER DIR ---\n"
  let filesFound := listed entries (List.finRange 16)
  printAll (title :: (filesFound.flatMap (listEntry entries) ++
    if filesFound = [] then [text "Files not found\n", text "---------------\n"] else [])) fs

/-! ## The dummy file -/

/-- The root sector with the one entry of `create_dummy_file`; the eleventh character
of `fake_name` is its terminator. -/
def dummyRoot : Sector :=
  let b := Buffer.blit (Buffer.zeros 512) 0 (text "SECRET TXT")
  let b := Buffer.store32 b 28 1000
  let b := Buffer.set b 11 0x20
  Buffer.store16 b 26 2

def dummyPart1 : Sector := Buffer.blit (Buffer.zeros 512) 0
  (text ">> READING CLUSTER 2... this is part 1. the disk will review the fat table and " ++
    text "jump to the next sector...\n")

def dummyPart2 : Sector := Buffer.blit (Buffer.zeros 512) 0 (text
  ">> READING CLUSTER 3... this is part 2! the Kernel just follow the map successfuly.\n")

def createDummyFile (fs : Fs) : Fs :=
  let fs := writeSector 68 dummyRoot fs
  let fs := writeSector 100 dummyPart1 fs
  let fs := writeSector 101 dummyPart2 fs
  let fatTable := readSector 50 fs
  let fatTable := fatTable.setFatEntry ⟨2, by decide⟩ 3
  let fatTable := fatTable.setFatEntry ⟨3, by decide⟩ 0xFFFF
  print (text "Fake file successfully injected into disk.\n") (writeSector 50 fatTable fs)

/-! ## Calls -/

/-- The calls the shell makes on the file system. -/
inductive Call where
  | writeFile (filename : FatName) (content : CString)
  | makeDirectory (dirname : CString)
  | removeFile (filename : CString)
  | changeDirectory (dirname : CString)
  | catFile (filename : CString)
  | listFiles

def exec : Call → Fs → Except Fault Fs
  | .writeFile filename content, fs => .ok (writeFile filename content fs)
  | .makeDirectory dirname, fs => .ok (makeDirectory dirname fs)
  | .removeFile filename, fs => removeFile filename fs
  | .changeDirectory dirname, fs => .ok (changeDirectory dirname fs)
  | .catFile filename, fs => catFile filename fs
  | .listFiles, fs => .ok (listFiles fs)

/-- A formatted disk: FAT entries from 2 on are zero, the root directory is all
zero, and the shell stands in it. -/
structure Formatted (fs : Fs) : Prop where
  fat : ∀ c : Fin 256, 2 ≤ c.val → (fs.disk 50).fatEntry c = 0
  root : fs.disk 68 = Buffer.zeros 512
  cwd : fs.currentDirCluster = 0

/-! Inputs of the worked cases in the modules below. -/

def strA : CString := ⟨text "A", by decide⟩

def strTxt : CString := ⟨text "TXT", by decide⟩

def strHi : CString := ⟨text "hi", by decide⟩

/-- A disk of zeros. -/
def blankFs : Fs where
  disk _ := Buffer.zeros 512
  currentDirCluster := 0
  writes := []
  printed := []
  visited := []

end FirstKernel
