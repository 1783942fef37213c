import FirstKernel.Program
import FirstKernel.TaskStart

/-!
# `run` as a transaction

`execute_program` takes a block, loads a sector into it, creates a task
and reports it, one after the other; each of the three components may
refuse, and `execute_program` looks at none of the answers. It is all or
nothing exactly on the states in which nobody refuses
(`allOrNothing_iff`), which `Startable` spells out: there is a program, a
block that fits, a free entry in the task table, and the stack of the new
task, which is wherever the frame allocator says, does not spoil the
program.
-/

namespace FirstKernel

open Memory Relation

/-- The address that the stack of a new task holds for the code. -/
def Kernel.entryPoint (k : Kernel) (id : TaskId) : UInt32 :=
  wordAt k.memory (k.tasks id).esp 8

/-- The sector that `execute_program` loads for the entry in slot `i`. -/
def programSector (i : Slot) (s : Machine) : Sector :=
  readSector (clusterToSector ((readCurrentDirectory s.fs).clusterLow i)) s.fs

/-! ## All or nothing -/

/-- A free block of the list that is large enough. -/
structure FreeBlock (m : Memory) (freeList size block : UInt32) : Prop where
  ne_null : block ≠ 0
  listed : ReflTransGen (Link (· ≠ 0) m.blockNext) freeList block
  fits : m.BlockFits size block

/-- The program in slot `i` runs as task `id`, the only new one. -/
structure Started (filename : CString) (i : Slot) (id : TaskId) (s s' : Machine) : Prop where
  found : lookup filename s.fs = some i
  id_eq : id.val = s.kernel.taskCount
  count_eq : s'.kernel.taskCount = s.kernel.taskCount + 1
  active : (s'.kernel.tasks id).active = true
  others : ∀ t, t ≠ id → s'.kernel.tasks t = s.kernel.tasks t
  entry_ne_null : s'.kernel.entryPoint id ≠ 0
  block : FreeBlock s.kernel.memory s.freeList 512 (s'.kernel.entryPoint id - blockHeader)
  loaded : ∀ j : Fin 512,
    s'.kernel.memory (s'.kernel.entryPoint id + UInt32.ofNat j.val) = programSector i s j
  reported : s'.fs.printed = s.fs.printed ++
    [text "running '", filename.chars, text "' in the background...\n"]

/-- An error is printed, and nothing else has happened. -/
structure Reverted (s s' : Machine) : Prop where
  reported : ∃ message, text "Error" <+: message ∧
    (s'.fs.printed = s.fs.printed ++ [message] ∧ s'.kernel.printed = s.kernel.printed ∨
      s'.fs.printed = s.fs.printed ∧ s'.kernel.printed = s.kernel.printed ++ [message])
  tasks_eq : s'.kernel.tasks = s.kernel.tasks
  count_eq : s'.kernel.taskCount = s.kernel.taskCount
  memory_eq : s'.kernel.memory = s.kernel.memory

def AllOrNothing (filename : CString) (s : Machine) : Prop :=
  ∃ s', executeProgram filename s = .ok s' ∧
    ((∃ i id, Started filename i id s s') ∨ Reverted s s')

/-! ## When nobody refuses -/

/-- The block that `kmalloc` finds. -/
def FirstFit (m : Memory) (freeList size block : UInt32) : Prop :=
  block ≠ 0 ∧ ∃ l, Walk (m.BlockPassed size) m.blockNext freeList l block

/-- Where the new stack and the program overlap, they agree. -/
def StackSpares (k : Kernel) (appMemory : UInt32) (program : Sector) : Prop :=
  ∀ j : Fin 512, ∀ b ∈ (newStackBytes appMemory)[
    (appMemory + UInt32.ofNat j.val - newEsp k).toNat]?, b = program j

/-- The program in slot `i` gets a block, an entry in the task table and a stack that
does not spoil it. -/
structure Startable (i : Slot) (s : Machine) : Prop where
  room : s.kernel.taskCount < maxTask
  block : ∃ block, FirstFit s.kernel.memory s.freeList 512 block ∧ block + blockHeader ≠ 0 ∧
    StackSpares s.kernel (block + blockHeader) (programSector i s)

theorem FirstFit.freeBlock {m : Memory} {freeList size block : UInt32}
    (h : FirstFit m freeList size block) : FreeBlock m freeList size block := by
  obtain ⟨hne, l, hw⟩ := h
  have hfits : m.BlockFits size block := by
    by_contra hnot
    exact hw.not_inside_end ⟨hne, hnot⟩
  refine ⟨hne, ?_, hfits⟩
  have hsub : Link (m.BlockPassed size) m.blockNext ≤ Link (· ≠ 0) m.blockNext :=
    fun _ _ hlink => ⟨hlink.1.1, hlink.2⟩
  exact ReflTransGen.mono hsub _ _ hw.links_end

/-! ## What a call does -/

/-- The kernel once the program is in the memory that `kmalloc` returned. -/
def loadProgram (program : Sector) (r : UInt32 × Memory) (k : Kernel) : Kernel :=
  { k with memory := r.2.storeBytes r.1 (List.ofFn program) }

@[simp] theorem loadProgram_memory (program : Sector) (r : UInt32 × Memory) (k : Kernel) :
    (loadProgram program r k).memory = r.2.storeBytes r.1 (List.ofFn program) := by
  simp only [loadProgram]

@[simp] theorem loadProgram_taskCount (program : Sector) (r : UInt32 × Memory) (k : Kernel) :
    (loadProgram program r k).taskCount = k.taskCount := by
  simp only [loadProgram]

@[simp] theorem loadProgram_tasks (program : Sector) (r : UInt32 × Memory) (k : Kernel) :
    (loadProgram program r k).tasks = k.tasks := by
  simp only [loadProgram]

@[simp] theorem newEsp_loadProgram (program : Sector) (r : UInt32 × Memory) (k : Kernel) :
    newEsp (loadProgram program r k) = newEsp k := by
  simp only [newEsp, loadProgram]

/-- The state after a program was found and `kmalloc` has returned `r`. -/
def Machine.afterRun (filename : CString) (i : Slot) (r : UInt32 × Memory) (s : Machine) :
    Machine :=
  { s with
    fs := printAll [text "running '", filename.chars, text "' in the background...\n"] s.fs
    kernel := createTask r.1 (loadProgram (programSector i s) r s.kernel)
    granted := s.granted ++ grant r.1 r.2
    buffers := s.buffers ++ [r.1] }

theorem executeProgram_none {filename : CString} {s : Machine}
    (h : lookup filename s.fs = none) :
    executeProgram filename s =
      .ok { s with fs := print (text "Error: Program not found.\n") s.fs } := by
  unfold executeProgram
  rw [h]

theorem executeProgram_some {filename : CString} {s s' : Machine} {i : Slot}
    (h : lookup filename s.fs = some i) :
    executeProgram filename s = .ok s' ↔
      ∃ r, kmalloc 512 s.freeList s.kernel.memory = .ok r ∧
        s' = s.afterRun filename i r := by
  unfold executeProgram
  rw [h]
  constructor
  · intro hrun
    simp only at hrun
    split at hrun
    · cases hrun
    · next appMemory memory hgive =>
        exact ⟨(appMemory, memory), hgive, (Except.ok.inj hrun).symm⟩
  · rintro ⟨r, hgive, rfl⟩
    simp only [hgive]
    rfl

theorem entryPoint_createTask {k : Kernel} {taskCode : UInt32} {id : TaskId}
    (hid : id.val = k.taskCount) : (createTask taskCode k).entryPoint id = taskCode := by
  have hroom : k.taskCount < maxTask := hid ▸ id.isLt
  have hlen : 4 * (newStack taskCode).length ≤ 2 ^ 32 := show 4 * 11 ≤ 2 ^ 32 by decide
  have hcode : (newStack taskCode).reverse[8]? = some taskCode := rfl
  have hword := wordAt_pushAll ((pmmAllocFrame k.memoryBitmap).1 + 4096) k.memory hlen hcode
  rw [pushAll_newStack_fst] at hword
  rw [Kernel.entryPoint, tasks_createTask_self taskCode hid, createTask_eq taskCode hroom]
  exact hword

theorem getD_eq_self_iff {o : Option UInt8} {x : UInt8} : o.getD x = x ↔ ∀ b ∈ o, b = x := by
  cases o with
  | none => simp
  | some b => simp

/-- The program is there at the end if the stack spares it. -/
theorem loaded_iff {k : Kernel} {program : Sector} {r : UInt32 × Memory}
    (hroom : k.taskCount < maxTask) :
    (∀ j : Fin 512, (createTask r.1 (loadProgram program r k)).memory
      (r.1 + UInt32.ofNat j.val) = program j) ↔ StackSpares k r.1 program := by
  refine forall_congr' fun j => ?_
  have hoffset : (r.1 + UInt32.ofNat j.val - r.1).toNat = j.val := by
    simp only [UInt32.toNat_sub, UInt32.toNat_add, UInt32.toNat_ofNat']
    have := r.1.toNat_lt
    omega
  have hbyte : (loadProgram program r k).memory (r.1 + UInt32.ofNat j.val) = program j := by
    have hcell : (List.ofFn program)[j.val]? = some (program j) := by
      rw [List.getElem?_ofFn, dif_pos j.isLt]
    rw [loadProgram_memory, storeBytes_apply, hoffset, hcell, Option.getD_some]
  have hroom' : (loadProgram program r k).taskCount < maxTask := by
    rw [loadProgram_taskCount]
    exact hroom
  rw [memory_createTask r.1 hroom', storeBytes_apply, hbyte, newEsp_loadProgram]
  exact getD_eq_self_iff

/-! ## Nobody refuses -/

theorem reverted_executeProgram_none {filename : CString} {s : Machine}
    (h : lookup filename s.fs = none) : AllOrNothing filename s := by
  refine ⟨_, executeProgram_none h, Or.inr ⟨⟨_, ?_, Or.inl ⟨rfl, rfl⟩⟩, rfl, rfl, rfl⟩⟩
  decide

section

variable {filename : CString} {i : Slot} {s : Machine} {r : UInt32 × Memory}

/-- Without an entry in the task table the program is not a task, and yet reported. -/
theorem not_started_of_full {id : TaskId} (hfull : ¬s.kernel.taskCount < maxTask) :
    ¬Started filename i id s (s.afterRun filename i r) := by
  intro h
  have hfull' : ¬(loadProgram (programSector i s) r s.kernel).taskCount < maxTask := by
    rw [loadProgram_taskCount]
    exact hfull
  have hcount := h.count_eq
  rw [Machine.afterRun, createTask_full r.1 hfull'] at hcount
  simp only [loadProgram_taskCount] at hcount
  omega

theorem not_reverted_afterRun : ¬Reverted s (s.afterRun filename i r) := by
  intro h
  obtain ⟨message, -, hprinted⟩ := h.reported
  have hreport : (s.afterRun filename i r).fs.printed = s.fs.printed ++
      [text "running '", filename.chars, text "' in the background...\n"] := by
    simp only [Machine.afterRun, printAll]
  rw [hreport] at hprinted
  rcases hprinted with ⟨heq, -⟩ | ⟨heq, -⟩
  · have hone := List.append_cancel_left heq
    simp at hone
  · simp at heq

/-- With an entry, only the block and the stack are in question. -/
theorem started_iff (hlook : lookup filename s.fs = some i)
    (hroom : s.kernel.taskCount < maxTask) :
    (∃ j id, Started filename j id s (s.afterRun filename i r)) ↔
      r.1 ≠ 0 ∧ FreeBlock s.kernel.memory s.freeList 512 (r.1 - blockHeader) ∧
        StackSpares s.kernel r.1 (programSector i s) := by
  have hroom' : (loadProgram (programSector i s) r s.kernel).taskCount < maxTask := by
    rw [loadProgram_taskCount]
    exact hroom
  have hkernel : (s.afterRun filename i r).kernel =
      createTask r.1 (loadProgram (programSector i s) r s.kernel) := by
    simp only [Machine.afterRun]
  have hentry : (s.afterRun filename i r).kernel.entryPoint ⟨s.kernel.taskCount, hroom⟩ = r.1 := by
    rw [hkernel]
    refine entryPoint_createTask ?_
    rw [loadProgram_taskCount]
  constructor
  · rintro ⟨j, id, h⟩
    obtain rfl := Option.some.inj (hlook.symm.trans h.found)
    obtain rfl : id = ⟨s.kernel.taskCount, hroom⟩ := Fin.ext h.id_eq
    have hne := h.entry_ne_null
    have hblock := h.block
    have hloaded := h.loaded
    rw [hentry] at hne hblock
    simp only [hentry] at hloaded
    exact ⟨hne, hblock, (loaded_iff hroom).mp hloaded⟩
  · rintro ⟨hne, hblock, hspares⟩
    refine ⟨i, ⟨s.kernel.taskCount, hroom⟩, ?_⟩
    constructor
    case found => exact hlook
    case id_eq => exact Eq.refl s.kernel.taskCount
    case count_eq => rw [hkernel, taskCount_createTask r.1 hroom', loadProgram_taskCount]
    case active =>
      rw [hkernel, tasks_createTask_self]
      rw [loadProgram_taskCount]
    case others =>
      intro t ht
      rw [hkernel, tasks_createTask_of_ne, loadProgram_tasks]
      rw [loadProgram_taskCount]
      exact fun heq => ht (Fin.ext heq)
    case entry_ne_null =>
      rw [hentry]
      exact hne
    case block =>
      rw [hentry]
      exact hblock
    case loaded =>
      simp only [hentry]
      exact (loaded_iff hroom).mpr hspares
    case reported => simp only [Machine.afterRun, printAll]

end

theorem addr_sub_header (block : UInt32) : block + blockHeader - blockHeader = block := by
  simp

/-- **`run` is all or nothing** just when there is no such program, or nobody refuses
to start it. -/
theorem allOrNothing_iff (filename : CString) (s : Machine) :
    AllOrNothing filename s ↔ ∀ i ∈ lookup filename s.fs, Startable i s := by
  cases hlook : lookup filename s.fs with
  | none => exact iff_of_true (reverted_executeProgram_none hlook) fun i hi => by cases hi
  | some i =>
      constructor
      · rintro ⟨s', hrun, hresult⟩ j hj
        obtain rfl := Option.some.inj hj
        obtain ⟨r, hkmalloc, rfl⟩ := (executeProgram_some hlook).mp hrun
        have hstarted := hresult.resolve_right not_reverted_afterRun
        have hroom : s.kernel.taskCount < maxTask := by
          by_contra hfull
          obtain ⟨j, id, h⟩ := hstarted
          obtain rfl := Option.some.inj (hlook.symm.trans h.found)
          exact not_started_of_full hfull h
        obtain ⟨hne, -, hspares⟩ := (started_iff hlook hroom).mp hstarted
        obtain ⟨l, block, hw, rfl⟩ := kmalloc_eq_ok.mp hkmalloc
        rw [Memory.give] at hne hspares
        by_cases hnull : block = 0
        · rw [if_pos hnull] at hne
          exact absurd rfl hne
        · rw [if_neg hnull] at hne hspares
          exact ⟨hroom, block, ⟨hnull, l, hw⟩, hne, hspares⟩
      · intro h
        obtain ⟨hroom, block, hfit, hne, hspares⟩ := h i rfl
        obtain ⟨hnull, l, hw⟩ := id hfit
        have hgive : s.kernel.memory.give block =
            (block + blockHeader, s.kernel.memory.setBlockFree block 0) := if_neg hnull
        refine ⟨_, (executeProgram_some hlook).mpr
          ⟨_, kmalloc_eq_ok.mpr ⟨l, block, hw, rfl⟩, rfl⟩, Or.inl ?_⟩
        rw [started_iff hlook hroom, hgive, addr_sub_header]
        exact ⟨hne, hfit.freeBlock, hspares⟩

/-- A disk with a program `A`, a task table with room, and a heap whose one block is
in use. -/
def fullHeap : Machine where
  fs := writeFile (fatName strA strTxt) strHi blankFs
  kernel := { initMultitasking blankKernel with
    memory := (initHeap 0x100000 4096 blankKernel.memory).2.setBlockFree 0x100000 0 }
  freeList := 0x100000
  esp0 := 4096
  granted := []
  buffers := []

theorem kmalloc_fullHeap : kmalloc 512 fullHeap.freeList fullHeap.kernel.memory =
    .ok (0, fullHeap.kernel.memory) := by
  have hblock := initHeap_oneBlock (by decide : (0x100000 : UInt32) ≠ 0) 4096 blankKernel.memory
  exact (hblock.setBlockFree 0).kmalloc_taken 512

/-- `run A` puts the sector at address 0 and reports the program as running. -/
theorem not_allOrNothing_fullHeap : ¬AllOrNothing strA fullHeap := by
  have hlook : lookup strA fullHeap.fs = some 0 := by decide +kernel
  have hroom : fullHeap.kernel.taskCount < maxTask := show 1 < 3 by decide
  rintro ⟨s', hrun, hresult⟩
  obtain ⟨r, hkmalloc, rfl⟩ := (executeProgram_some hlook).mp hrun
  obtain rfl := Except.ok.inj (kmalloc_fullHeap.symm.trans hkmalloc)
  rcases hresult with hstarted | hreverted
  · exact ((started_iff hlook hroom).mp hstarted).1 rfl
  · exact not_reverted_afterRun hreverted

end FirstKernel
