import FirstKernel.BlockProgram
import FirstKernel.DiskStore
import FirstKernel.FatRuns

/-!
# The file system on the disk driver

The functions of `fs/fat16.c` as the programs they are: each sector they
look at comes from a `read_sector`, into an array on the stack, and what
they do next depends on it. On a disk that is a function, such a program
is the function of `Fat16` (`run_program`). On an ATA drive every access
is a call of the driver, with its register writes, polling and transfers,
and the drive ends with the sectors of that disk (`files_onDrive`).
-/

namespace FirstKernel

open BlockProgram

/-- The sector numbers that a drive can address. -/
abbrev Lba := Fin (2 ^ 28)

/-- The variables of the file system, with what it has printed. -/
structure FsVars where
  currentDirCluster : UInt16
  printed : List Text

abbrev FsProgram := BlockProgram Lba Sector

/-! ## Sector numbers -/

theorem clusterToSector_lt (cluster : UInt16) : clusterToSector cluster < 2 ^ 28 := by
  have := cluster.toNat_lt
  unfold clusterToSector
  omega

theorem dirSector_lt (cluster : UInt16) : dirSector cluster < 2 ^ 28 := by
  unfold dirSector
  split
  · decide
  · exact clusterToSector_lt cluster

theorem fatSector_lt (cluster : UInt16) : 50 + cluster.toNat * 2 / 512 < 2 ^ 28 := by
  have := cluster.toNat_lt
  omega

def clusterLba (cluster : UInt16) : Lba := ⟨clusterToSector cluster, clusterToSector_lt cluster⟩

def dirLba (cluster : UInt16) : Lba := ⟨dirSector cluster, dirSector_lt cluster⟩

theorem fat_lt : 50 < 2 ^ 28 := by decide

def fatLba : Lba := ⟨50, fat_lt⟩

/-- The sector that `get_next_cluster` reads. -/
def linkLba (cluster : UInt16) : Lba := ⟨50 + cluster.toNat * 2 / 512, fatSector_lt cluster⟩

/-! ## What is done with a sector that has been read -/

/-- The loop of `find_free_cluster`. -/
@[irreducible] def freeClusterIn (fatTable : Sector) : UInt16 :=
  (Fin.findSome? fun i : Fin 256 =>
    if 2 ≤ i.val ∧ fatTable.fatEntry i = 0 then some (UInt16.ofNat i.val) else none).getD 0

theorem findFreeCluster_eq (fs : Fs) : findFreeCluster fs = freeClusterIn (fs.disk 50) := by
  unfold findFreeCluster freeClusterIn
  rfl

/-- What `get_next_cluster` makes of the sector that it reads. -/
def linkIn (cluster : UInt16) (buffer : Sector) : UInt16 := getNextCluster cluster fun _ => buffer

/-- What `list_files` prints. -/
def listing (cwd : UInt16) (entries : Sector) : List Text :=
  let filesFound := listed entries (List.finRange 16)
  (if cwd = 0 then text "\n--- ROOT DIR ---\n" else text "\n--- FOLDER DIR ---\n") ::
    (filesFound.flatMap (listEntry entries) ++
      if filesFound = [] then [text "Files not found\n", text "---------------\n"] else [])

/-! ## The functions -/

namespace FsVars

def print (message : Text) (v : FsVars) : FsVars := { v with printed := v.printed ++ [message] }

def printAll (messages : List Text) (v : FsVars) : FsVars :=
  { v with printed := v.printed ++ messages }

end FsVars

namespace FatProgram

def readCurrentDirectory (v : FsVars) : FsProgram Sector := get (dirLba v.currentDirCluster)

def writeCurrentDirectory (buffer : Sector) (v : FsVars) : FsProgram Unit :=
  put (dirLba v.currentDirCluster) buffer

def findFreeCluster : FsProgram UInt16 := do
  let fatTable ← get fatLba
  pure (freeClusterIn fatTable)

def getNextCluster (cluster : UInt16) : FsProgram UInt16 := do
  let buffer ← get (linkLba cluster)
  pure (linkIn cluster buffer)

def createEntry (dirFull : Text) (name : Buffer 11) (size : UInt32) (attributes : UInt8)
    (data : Sector) (report : List Text) (v : FsVars) : FsProgram FsVars := do
  let freeCluster ← findFreeCluster
  if freeCluster = 0 then pure (v.print (text "Error: disk is full\n"))
  else
    let dirBuffer ← readCurrentDirectory v
    match findFreeDirEntry dirBuffer with
    | none => pure (v.print dirFull)
    | some freeEntry => do
        writeCurrentDirectory (dirBuffer.fillEntry freeEntry name size attributes freeCluster) v
        put (clusterLba freeCluster) data
        let fatTable ← get fatLba
        if h : freeCluster.toNat < 256 then do
          put fatLba (fatTable.setFatEntry ⟨freeCluster.toNat, h⟩ 0xFFFF)
          pure (v.printAll report)
        else .fail (.outOfRange freeCluster.toNat)

def writeFile (filename : FatName) (content : CString) : FsVars → FsProgram FsVars :=
  createEntry (text "Error: cannot create more file within the main root\n")
    filename.bytes (UInt32.ofNat (strlen content)) 0x20 (contentSector content)
    [text "file '", List.ofFn filename.bytes, text "' save successfuly.\n"]

def makeDirectory (dirname : CString) : FsVars → FsProgram FsVars :=
  createEntry (text "Error: root dir is full\n") (dirName dirname) 0 0x10 (Buffer.zeros 512)
    [text "Directory '", dirname.chars, text "' successfuly create\n"]

/-- The `while` loop of `cat_file`. -/
def catChain : Nat → UInt16 → FsVars → FsProgram FsVars
  | 0, _, _ => .fail .outOfFuel
  | fuel + 1, cluster, v =>
      if InChain cluster then do
        let fileData ← get (clusterLba cluster)
        let v := v.print (stringAt (List.ofFn (Buffer.set fileData 511 0))).chars
        let cluster ← getNextCluster cluster
        catChain fuel cluster v
      else pure v

def catFile (filename : CString) (v : FsVars) : FsProgram FsVars := do
  let entries ← readCurrentDirectory v
  match findEntry entries (padded 8 filename) with
  | none => pure (v.print (text "Error: File not found.\n"))
  | some i => do
      let v ← catChain chainFuel (entries.clusterLow i) (v.print (text "\n"))
      pure (v.print (text "\n\n"))

def removeFile (filename : CString) (v : FsVars) : FsProgram FsVars := do
  let buffer ← readCurrentDirectory v
  match findEntry buffer (padded 8 filename) with
  | none => pure (v.print (text "Error: file not fount.\n"))
  | some i => do
      let startCluster := buffer.clusterLow i
      let report := [text "file or directory '", filename.chars, text "' deleted.\n"]
      writeCurrentDirectory (buffer.setName0 i 0xE5) v
      if 2 ≤ startCluster.toNat then do
        let fatTable ← get fatLba
        let (_, fatTable) ← lift (freeChain chainFuel startCluster fatTable)
        put fatLba fatTable
        pure (v.printAll report)
      else pure (v.printAll report)

def changeDirectory (dirname : CString) (v : FsVars) : FsProgram FsVars :=
  if strcmp dirname slash = 0 ∨ strcmp dirname dotDot = 0 then
    pure (FsVars.print (text "current position: root directory\n")
      { v with currentDirCluster := 0 })
  else do
    let entries ← readCurrentDirectory v
    match findEntry entries (padded 8 dirname) with
    | none => pure (v.print (text "Error: directory not found\n"))
    | some i =>
        if entries.attributes i = 0x10 then
          pure (FsVars.printAll [text "Entering the directory '", dirname.chars, text "'\n"]
            { v with currentDirCluster := entries.clusterLow i })
        else
          pure (v.printAll [text "Error: '", dirname.chars,
            text "' this is a file not a directory\n"])

def listFiles (v : FsVars) : FsProgram FsVars := do
  let entries ← readCurrentDirectory v
  pure (v.printAll (listing v.currentDirCluster entries))

end FatProgram

def Call.program : Call → FsVars → FsProgram FsVars
  | .writeFile filename content => FatProgram.writeFile filename content
  | .makeDirectory dirname => FatProgram.makeDirectory dirname
  | .removeFile filename => FatProgram.removeFile filename
  | .changeDirectory dirname => FatProgram.changeDirectory dirname
  | .catFile filename => FatProgram.catFile filename
  | .listFiles => FatProgram.listFiles

/-! ## On a disk -/

def Fs.vars (fs : Fs) : FsVars := ⟨fs.currentDirCluster, fs.printed⟩

/-- The sectors that can be addressed. -/
def Fs.sectors (fs : Fs) (i : Lba) : Sector := fs.disk i.val

theorem sectors_writeSector (i : Lba) (buffer : Sector) (fs : Fs) :
    (writeSector i.val buffer fs).sectors = Function.update fs.sectors i buffer :=
  Function.update_comp_eq_of_injective fs.disk Fin.val_injective i buffer

namespace FatProgram

/-- What a program returns where the function of `Fat16` does. -/
def Runs (p : FsProgram FsVars) (fs : Fs) (r : Except Fault Fs) : Prop :=
  p.run fs.sectors = r.map fun fs' => (fs'.vars, fs'.sectors)

section

variable {α : Type} (fs : Fs)

theorem run_findFreeCluster (next : UInt16 → FsProgram α) :
    (findFreeCluster >>= next).run fs.sectors =
      (next (FirstKernel.findFreeCluster fs)).run fs.sectors := by
  rw [findFreeCluster_eq]
  rfl

theorem run_getNextCluster (cluster : UInt16) (next : UInt16 → FsProgram α) :
    (getNextCluster cluster >>= next).run fs.sectors =
      (next (FirstKernel.getNextCluster cluster fs.disk)).run fs.sectors := rfl

theorem run_readCurrentDirectory (next : Sector → FsProgram α) :
    (readCurrentDirectory fs.vars >>= next).run fs.sectors =
      (next (FirstKernel.readCurrentDirectory fs)).run fs.sectors := rfl

theorem run_writeCurrentDirectory (buffer : Sector) (next : Unit → FsProgram α) :
    (writeCurrentDirectory buffer fs.vars >>= next).run fs.sectors =
      (next ()).run (FirstKernel.writeCurrentDirectory buffer fs).sectors := by
  have hsectors := sectors_writeSector (dirLba fs.currentDirCluster) buffer fs
  exact congrArg (next ()).run hsectors.symm

theorem run_put (i : Lba) (buffer : Sector) (next : Unit → FsProgram α) :
    (put i buffer >>= next).run fs.sectors =
      (next ()).run (writeSector i.val buffer fs).sectors := by
  rw [sectors_writeSector]
  rfl

theorem run_get (i : Lba) (next : Sector → FsProgram α) :
    (get i >>= next).run fs.sectors = (next (readSector i.val fs)).run fs.sectors := rfl

end

theorem run_createEntry (dirFull : Text) (name : Buffer 11) (size : UInt32) (attributes : UInt8)
    (data : Sector) (report : List Text) (fs : Fs) :
    Runs (createEntry dirFull name size attributes data report fs.vars) fs
      (.ok (FirstKernel.createEntry dirFull name size attributes data report fs)) := by
  have hlt := findFreeCluster_lt fs
  unfold Runs createEntry FirstKernel.createEntry
  rw [run_findFreeCluster]
  by_cases hfull : FirstKernel.findFreeCluster fs = 0
  · rw [if_pos hfull, if_pos hfull]
    rfl
  · rw [if_neg hfull, if_neg hfull, run_readCurrentDirectory]
    cases hslot : findFreeDirEntry (FirstKernel.readCurrentDirectory fs) with
    | none =>
        simp only [hslot]
        rfl
    | some freeEntry =>
        simp only [hslot, run_writeCurrentDirectory, run_put, run_get, dif_pos hlt]
        rfl

theorem run_listFiles (fs : Fs) :
    Runs (listFiles fs.vars) fs (.ok (FirstKernel.listFiles fs)) := rfl

theorem run_changeDirectory (dirname : CString) (fs : Fs) :
    Runs (changeDirectory dirname fs.vars) fs (.ok (FirstKernel.changeDirectory dirname fs)) := by
  unfold Runs changeDirectory FirstKernel.changeDirectory lookup
  split
  · rfl
  · rw [run_readCurrentDirectory]
    cases findEntry (FirstKernel.readCurrentDirectory fs) (padded 8 dirname) with
    | none =>
        simp only
        rfl
    | some i =>
        simp only
        split <;> rfl

/-- The loop of `cat_file` only reads. -/
theorem run_catChain : ∀ (fuel : Nat) (cluster : UInt16) (fs : Fs),
    Runs (catChain fuel cluster fs.vars) fs (FirstKernel.catChain fuel cluster fs)
  | 0, _, _ => rfl
  | fuel + 1, cluster, fs => by
      unfold Runs catChain FirstKernel.catChain
      by_cases hin : InChain cluster
      · rw [if_pos hin, if_pos hin, run_get, run_getNextCluster]
        let fileData := Buffer.set (readSector (clusterToSector cluster) fs) 511 0
        exact run_catChain fuel _ (print (stringAt (List.ofFn fileData)).chars
          { fs with visited := fs.visited ++ [cluster] })
      · rw [if_neg hin, if_neg hin]
        rfl

theorem run_catFile (filename : CString) (fs : Fs) :
    Runs (catFile filename fs.vars) fs (FirstKernel.catFile filename fs) := by
  unfold Runs catFile FirstKernel.catFile lookup
  rw [run_readCurrentDirectory]
  cases findEntry (FirstKernel.readCurrentDirectory fs) (padded 8 filename) with
  | none =>
      simp only
      rfl
  | some i =>
      have hloop : (catChain chainFuel ((FirstKernel.readCurrentDirectory fs).clusterLow i)
          (fs.vars.print (text "\n"))).run fs.sectors = _ :=
        run_catChain chainFuel _ (print (text "\n") fs)
      simp only
      rw [run_bind, hloop]
      cases FirstKernel.catChain chainFuel ((FirstKernel.readCurrentDirectory fs).clusterLow i)
        (print (text "\n") fs) <;> rfl

theorem run_removeFile (filename : CString) (fs : Fs) :
    Runs (removeFile filename fs.vars) fs (FirstKernel.removeFile filename fs) := by
  unfold Runs removeFile FirstKernel.removeFile lookup
  rw [run_readCurrentDirectory]
  cases findEntry (FirstKernel.readCurrentDirectory fs) (padded 8 filename) with
  | none =>
      simp only
      rfl
  | some i =>
      simp only [run_writeCurrentDirectory]
      generalize hfs1 : FirstKernel.writeCurrentDirectory
        ((FirstKernel.readCurrentDirectory fs).setName0 i 0xE5) fs = fs1
      have hvars : fs.vars = fs1.vars := by rw [← hfs1]; rfl
      rw [hvars]
      split
      · have hfat : readSector fatLba.val fs1 = readSector 50 fs1 := rfl
        rw [run_get, run_bind, run_lift, hfat]
        cases freeChain chainFuel ((FirstKernel.readCurrentDirectory fs).clusterLow i)
          (readSector 50 fs1) with
        | error e => rfl
        | ok r =>
            exact run_put fs1 fatLba r.2 fun _ => pure (fs1.vars.printAll
              [text "file or directory '", filename.chars, text "' deleted.\n"])
      · rfl

end FatProgram

/-- **On a disk, a program is its function.** -/
theorem run_program (call : Call) (fs : Fs) :
    FatProgram.Runs (call.program fs.vars) fs (exec call fs) := by
  cases call with
  | writeFile filename content => exact FatProgram.run_createEntry ..
  | makeDirectory dirname => exact FatProgram.run_createEntry ..
  | removeFile filename => exact FatProgram.run_removeFile filename fs
  | changeDirectory dirname => exact FatProgram.run_changeDirectory dirname fs
  | catFile filename => exact FatProgram.run_catFile filename fs
  | listFiles => exact FatProgram.run_listFiles fs

theorem runs_program : ∀ (calls : List Call) {fs fs' : Fs}, runs exec calls fs = .ok fs' →
    runs (fun call r => (call.program r.1).run r.2) calls (fs.vars, fs.sectors) =
      .ok (fs'.vars, fs'.sectors)
  | [], _, _, hrun => by
      obtain rfl := Except.ok.inj hrun
      rfl
  | call :: calls, fs, fs', hrun => by
      obtain ⟨fs1, hstep, hrest⟩ := runs_cons_eq_ok hrun
      have hprogram := run_program call fs
      rw [FatProgram.Runs, hstep] at hprogram
      exact (runs_cons_ok hprogram).trans (runs_program calls hrest)

/-! ## On a drive -/

/-- The driver, reading into an array that holds `stack`. -/
def ataDriver {σ : Type} (ports : Ports σ) (stack : Sector) : BlockDriver Lba Sector σ where
  read rounds lba s := Ata.readSector ports rounds (Int32.ofNat lba.val) stack s
  write rounds lba buffer s := Ata.writeSector ports rounds (Int32.ofNat lba.val) buffer s

section

variable {σ : Type} (d : Ata.Drive σ) (stack : Sector)

/-- The sectors that can be addressed. -/
def driveSectors (s : σ) (i : Lba) : Sector := (d.state s).sectors i.val

theorem stores_ataDriver : Stores (ataDriver d.ports stack) d.accepts (driveSectors d) where
  read_returns i s hs := by
    obtain ⟨s', hreturns, haccepts, hsectors⟩ := Ata.readSector_ok d hs i.isLt stack
    exact ⟨s', hreturns, haccepts, funext fun j => congrFun hsectors j.val⟩
  write_returns i buffer s hs := by
    obtain ⟨s', hreturns, haccepts, hsectors⟩ := Ata.writeSector_ok d hs i.isLt buffer
    refine ⟨s', hreturns, haccepts, Eq.trans (funext fun j => congrFun hsectors j.val) ?_⟩
    exact Function.update_comp_eq_of_injective _ Fin.val_injective i buffer

/-- Calls of the file system, made on the drive. -/
def execOnDrive (rounds : Nat) (calls : List Call) (v : FsVars) (s : σ) :
    Except Fault (FsVars × σ) :=
  BlockProgram.execRuns Call.program (ataDriver d.ports stack) rounds calls v s

/-- **The file system on the drive.** Every sequence of calls on a drive with a well-formed volume
returns, with what it prints on the disk of that volume, and leaves a well-formed volume. -/
theorem files_onDrive (calls : List Call) {fs : Fs} (hwf : WellFormed fs) {s : σ}
    (hs : d.accepts s) (hsectors : driveSectors d s = fs.sectors) :
    ∃ fs' s', runs exec calls fs = .ok fs' ∧ WellFormed fs' ∧
      Returns (fun rounds => execOnDrive d stack rounds calls fs.vars s) (fs'.vars, s') ∧
      d.accepts s' ∧ driveSectors d s' = fs'.sectors := by
  obtain ⟨fs', hrun, hwf'⟩ := hwf.runs calls
  have hstore := runs_program calls hrun
  rw [← hsectors] at hstore
  obtain ⟨s', hreturns, hs', hend⟩ := (stores_ataDriver d stack).runs_returns calls hs hstore
  exact ⟨fs', s', hrun, hwf', hreturns, hs', hend⟩

end

/-- A directory is made on a drive of zeros, and a file in it. -/
theorem files_onDrive_blankDrive :
    ∃ fs' s', runs exec [.makeDirectory strA, .changeDirectory strA,
        .writeFile (fatName strA strTxt) strHi, .catFile strA] blankFs = .ok fs' ∧ WellFormed fs' ∧
      Returns (fun rounds => execOnDrive (Ata.plainDrive 3) (Buffer.zeros 512) rounds
        [.makeDirectory strA, .changeDirectory strA, .writeFile (fatName strA strTxt) strHi,
          .catFile strA] blankFs.vars Ata.blankDrive) (fs'.vars, s') ∧
      (Ata.plainDrive 3).accepts s' ∧ driveSectors (Ata.plainDrive 3) s' = fs'.sectors :=
  files_onDrive (Ata.plainDrive 3) (Buffer.zeros 512) _ formatted_blankFs.wellFormed
    (s := Ata.blankDrive) rfl rfl

end FirstKernel
