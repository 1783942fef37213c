import FirstKernel.Fat16
import FirstKernel.Frames
import FirstKernel.Heap
import FirstKernel.Task

/-!
# Boot and programs, `kernel/kernel.c` and `execute_program`

The two clients of the heap. `main` makes a heap of one frame, takes the
kernel stack from it and installs the end of the stack in the TSS
(`set_kernel_stack`); `execute_program` takes a buffer from it for each
program it loads. Neither looks whether it got one.

The heap is the 4096 bytes of the frame less a header, so the kernel
stack of 4096 bytes is never granted (`kmalloc_boot`): at every boot the
stack that the TSS names is the first 4096 bytes of memory, and no run
finds the clients in memory of their own (`not_clientsContained_runs`).

The traces `granted` and `buffers`, which no function reads, are the
blocks that `kmalloc` has given out, with their sizes, and the addresses
that `execute_program` has loaded programs to.
-/

namespace FirstKernel

structure Machine where
  fs : Fs
  kernel : Kernel
  freeList : UInt32
  esp0 : UInt32
  granted : List (UInt32 × UInt32)
  buffers : List UInt32

/-- A block that `kmalloc` returned, with its size; none for the null pointer. -/
def grant (ptr : UInt32) (m : Memory) : List (UInt32 × UInt32) :=
  if ptr = 0 then [] else [(ptr, m.blockSize (ptr - blockHeader))]

/-- `main` up to `init_multitasking`, as far as memory and tasks go. -/
def boot (fs : Fs) (k : Kernel) : Except Fault Machine :=
  let (heapStart, bitmap) := pmmAllocFrame initPmm
  let (freeList, memory) := initHeap heapStart 4096 k.memory
  match kmalloc 4096 freeList memory with
  | .error e => .error e
  | .ok (stack, memory) =>
      let kernelStack := stack + 4096
      .ok {
        fs := fs
        kernel := initMultitasking { k with memoryBitmap := bitmap, memory := memory }
        freeList := freeList
        esp0 := kernelStack
        granted := grant stack memory
        buffers := [] }

def executeProgram (filename : CString) (s : Machine) : Except Fault Machine :=
  match lookup filename s.fs with
  | none => .ok { s with fs := print (text "Error: Program not found.\n") s.fs }
  | some i =>
      let cluster := (readCurrentDirectory s.fs).clusterLow i
      match kmalloc 512 s.freeList s.kernel.memory with
      | .error e => .error e
      | .ok (appMemory, memory) =>
          let granted := s.granted ++ grant appMemory memory
          let targetSector := clusterToSector cluster
          let memory := memory.storeBytes appMemory (List.ofFn (readSector targetSector s.fs))
          .ok { s with
            fs := printAll [text "running '", filename.chars, text "' in the background...\n"]
              s.fs
            kernel := createTask appMemory { s.kernel with memory := memory }
            granted := granted
            buffers := s.buffers ++ [appMemory] }

/-! ## What the clients need -/

/-- The `len` bytes from `start` on. -/
structure Region where
  start : UInt32
  len : Nat

def Region.Within (r : Region) (block : UInt32 × UInt32) : Prop :=
  block.1.toNat ≤ r.start.toNat ∧ r.start.toNat + r.len ≤ block.1.toNat + block.2.toNat

def Region.Disjoint (r r' : Region) : Prop :=
  r.start.toNat + r.len ≤ r'.start.toNat ∨ r'.start.toNat + r'.len ≤ r.start.toNat

def Machine.kernelStack (s : Machine) : Region := ⟨s.esp0 - 4096, 4096⟩

def Machine.programs (s : Machine) : List Region := s.buffers.map (⟨·, 512⟩)

/-- The kernel stack and the programs lie in blocks that were granted, and apart. -/
structure ClientsContained (s : Machine) : Prop where
  granted : ∀ r ∈ s.kernelStack :: s.programs, ∃ block ∈ s.granted, r.Within block
  apart : (s.kernelStack :: s.programs).Pairwise Region.Disjoint

/-! ## What they get -/

/-- No granted block starts at the null pointer, and the kernel stack does. -/
structure StackAtNull (s : Machine) : Prop where
  esp0_eq : s.esp0 = 4096
  granted_ne : ∀ block ∈ s.granted, block.1 ≠ 0

theorem grant_ne_null {ptr : UInt32} {m : Memory} : ∀ block ∈ grant ptr m, block.1 ≠ 0 := by
  intro block hblock
  unfold grant at hblock
  split at hblock
  · cases hblock
  · next hne => rwa [List.mem_singleton.mp hblock]

/-- The heap that `main` makes does not have 4096 bytes to give. -/
theorem kmalloc_boot (m : Memory) :
    kmalloc 4096 (initHeap 0x100000 4096 m).1 (initHeap 0x100000 4096 m).2 =
      .ok (0, (initHeap 0x100000 4096 m).2) :=
  (initHeap_oneBlock (by decide : (0x100000 : UInt32) ≠ 0) 4096 m).kmalloc_eq 4096

theorem boot_ok (fs : Fs) (k : Kernel) : ∃ s, boot fs k = .ok s ∧ StackAtNull s := by
  have hframe := pmmAllocFrame_initPmm
  rcases halloc : pmmAllocFrame initPmm with ⟨heapStart, bitmap⟩
  rw [halloc] at hframe
  subst hframe
  have hboot : boot fs k = .ok {
      fs := fs
      kernel := initMultitasking { k with
        memoryBitmap := bitmap
        memory := (initHeap 0x100000 4096 k.memory).2 }
      freeList := (initHeap 0x100000 4096 k.memory).1
      esp0 := 4096
      granted := []
      buffers := [] } := by
    rw [boot, halloc]
    simp only [kmalloc_boot]
    rfl
  exact ⟨_, hboot, rfl, fun block hblock => absurd hblock List.not_mem_nil⟩

theorem stackAtNull_executeProgram {filename : CString} {s s' : Machine} (h : StackAtNull s)
    (hrun : executeProgram filename s = .ok s') : StackAtNull s' := by
  unfold executeProgram at hrun
  split at hrun
  · obtain rfl := Except.ok.inj hrun
    exact ⟨h.esp0_eq, h.granted_ne⟩
  · simp only at hrun
    split at hrun
    · cases hrun
    · obtain rfl := Except.ok.inj hrun
      refine ⟨h.esp0_eq, fun block hblock => ?_⟩
      rcases List.mem_append.mp hblock with hold | hnew
      · exact h.granted_ne block hold
      · exact grant_ne_null block hnew

theorem StackAtNull.not_clientsContained {s : Machine} (h : StackAtNull s) :
    ¬ClientsContained s := by
  intro hc
  obtain ⟨block, hblock, hstart, -⟩ := hc.granted s.kernelStack (List.mem_cons_self ..)
  have hzero : s.kernelStack.start = 0 := by
    rw [Machine.kernelStack, h.esp0_eq]
    rfl
  rw [hzero, UInt32.toNat_zero, Nat.le_zero] at hstart
  exact h.granted_ne block hblock (UInt32.toNat_inj.mp hstart)

/-- **Boot.** Whatever was in memory and on the disk, and whatever programs are run,
the kernel stack is not memory that the heap has granted. -/
theorem not_clientsContained_runs (fs : Fs) (k : Kernel) (filenames : List CString)
    {s₀ s : Machine} (hboot : boot fs k = .ok s₀)
    (hrun : runs executeProgram filenames s₀ = .ok s) : ¬ClientsContained s := by
  obtain ⟨s', hboot', hnull⟩ := boot_ok fs k
  obtain rfl := Except.ok.inj (hboot.symm.trans hboot')
  have hend : StackAtNull s :=
    runs_preserves (fun _ _ _ h => stackAtNull_executeProgram h) filenames hnull hrun
  exact hend.not_clientsContained

/-- The variables of the kernel before `main`. -/
def blankKernel : Kernel where
  tasks _ := ⟨0, 0, false⟩
  currentTask := 0
  taskCount := 0
  memoryBitmap _ := 0
  memory _ := 0
  printed := []
  events := []

/-- A disk with one file. -/
def programFs : Fs := writeFile (fatName strA strTxt) strHi blankFs

/-- The file is run, then a name that no file has, then the file again: the second time it is
loaded to the null pointer. -/
theorem not_clientsContained_runs_twice :
    ∃ s₀ s, boot programFs blankKernel = .ok s₀ ∧
      runs executeProgram [strA, strTxt, strA] s₀ = .ok s ∧ s.buffers = [0x10000C, 0] ∧
      ¬ClientsContained s := by
  obtain ⟨s, hrun, hbuffers⟩ := exists_of_endsWith
    (r := (boot programFs blankKernel).bind (runs executeProgram [strA, strTxt, strA]))
    (p := fun s => decide (s.buffers = [0x10000C, 0])) (by decide +kernel)
  obtain ⟨s₀, hboot, -⟩ := boot_ok programFs blankKernel
  rw [hboot] at hrun
  exact ⟨s₀, s, hboot, hrun, of_decide_eq_true hbuffers,
    not_clientsContained_runs programFs blankKernel _ hboot hrun⟩

/-- The stack that the TSS names after boot, in the interrupt table. -/
theorem not_clientsContained_boot :
    ∃ s, boot blankFs blankKernel = .ok s ∧ s.kernelStack = ⟨0, 4096⟩ ∧
      ¬ClientsContained s := by
  obtain ⟨s, hboot, hnull⟩ := boot_ok blankFs blankKernel
  refine ⟨s, hboot, ?_, hnull.not_clientsContained⟩
  rw [Machine.kernelStack, hnull.esp0_eq]
  rfl

end FirstKernel
