import FirstKernel.CString
import FirstKernel.Memory
import FirstKernel.Pmm
import FirstKernel.RoundRobin
import FirstKernel.Runs

/-!
# Tasks, `cpu/task.c` and `isr32`

The task table with `create_task` and `schedule`, and the epilogue of the
timer interrupt, which resumes whatever task `schedule` picked from the
words on its stack. `create_task` builds the first such stack by hand.

The state carries two traces that no function reads: the strings handed
to `print`, and the `TaskEvent`s, newest first, which are what the
theorems about the scheduler are told in. The search of `schedule` is a
`do ... while` loop over the task table. It runs on fuel, one round for
each entry: after that it would be back where it started.
-/

namespace FirstKernel

open RoundRobin

abbrev maxTask : Nat := 3

abbrev TaskId := Fin maxTask

instance neZero_maxTask : NeZero maxTask := ⟨by decide⟩

structure Pcb where
  esp : UInt32
  id : Nat
  active : Bool

inductive TaskEvent where
  /-- `create_task` stored this `esp` for a new task. -/
  | created (id : TaskId) (esp : UInt32)
  /-- `schedule` was called with `esp` by one task and returned to another. -/
  | scheduled (preempted : TaskId) (esp : UInt32) (resumed : TaskId) (returned : UInt32)

structure Kernel where
  tasks : TaskId → Pcb
  currentTask : TaskId
  taskCount : Nat
  memoryBitmap : MemoryBitmap
  memory : Memory
  printed : List Text
  events : List TaskEvent

def initMultitasking (k : Kernel) : Kernel :=
  let tasks := fun i => { k.tasks i with active := false }
  { k with
    tasks := Function.update tasks 0 { tasks 0 with id := 0, active := true }
    taskCount := 1
    currentTask := 0
    events := [] }

/-- The loop of `schedule`. -/
def nextActive (tasks : TaskId → Pcb) : Nat → TaskId → Except Fault TaskId
  | 0, _ => .error .outOfFuel
  | fuel + 1, currentTask =>
      let currentTask := cycle currentTask
      if (tasks currentTask).active = false then nextActive tasks fuel currentTask
      else .ok currentTask

def schedule (currentEsp : UInt32) (k : Kernel) : Except Fault (UInt32 × Kernel) :=
  if k.taskCount ≤ 1 then
    .ok (currentEsp, { k with
      events := .scheduled k.currentTask currentEsp k.currentTask currentEsp :: k.events })
  else
    let tasks := Function.update k.tasks k.currentTask
      { k.tasks k.currentTask with esp := currentEsp }
    match nextActive tasks maxTask k.currentTask with
    | .error e => .error e
    | .ok currentTask =>
        let esp := (tasks currentTask).esp
        .ok (esp, { k with
          tasks := tasks
          currentTask := currentTask
          events := .scheduled k.currentTask currentEsp currentTask esp :: k.events })

/-- The words that `create_task` pushes, in the order of its stores. -/
def newStack (taskCode : UInt32) : List UInt32 :=
  [0x202, 0x08, taskCode, 0, 0, 0, 0, 0, 0, 0, 0]

/-- `task_count` indexes the table, so an entry beyond it is not a task yet. -/
def createTask (taskCode : UInt32) (k : Kernel) : Kernel :=
  if h : k.taskCount < maxTask then
    let (frame, bitmap) := pmmAllocFrame k.memoryBitmap
    let (stack, memory) := Memory.pushAll (newStack taskCode) (frame + 4096, k.memory)
    let id : TaskId := ⟨k.taskCount, h⟩
    { k with
      tasks := Function.update k.tasks id { esp := stack, id := k.taskCount, active := true }
      taskCount := k.taskCount + 1
      memoryBitmap := bitmap
      memory := memory
      events := .created id stack :: k.events }
  else { k with printed := k.printed ++ [text "Error: Max of tasks reached.\n"] }

inductive TaskCall where
  | createTask (taskCode : UInt32)
  | schedule (currentEsp : UInt32)

def TaskCall.isSchedule : TaskCall → Bool
  | .createTask _ => false
  | .schedule _ => true

def execTask : TaskCall → Kernel → Except Fault Kernel
  | .createTask taskCode, k => .ok (createTask taskCode k)
  | .schedule currentEsp, k =>
      match schedule currentEsp k with
      | .ok (_, k) => .ok k
      | .error e => .error e

/-! ## The timer interrupt -/

/-- The registers that `isr32` touches, and the addresses of the words popped. -/
structure Cpu where
  eax : UInt32
  ecx : UInt32
  edx : UInt32
  ebx : UInt32
  esp : UInt32
  ebp : UInt32
  esi : UInt32
  edi : UInt32
  ds : UInt16
  es : UInt16
  fs : UInt16
  gs : UInt16
  eip : UInt32
  cs : UInt16
  eflags : UInt32
  reads : List UInt32

namespace Cpu

def pop (m : Memory) (cpu : Cpu) : UInt32 × Cpu :=
  (m.load cpu.esp, { cpu with esp := cpu.esp + 4, reads := cpu.reads ++ [cpu.esp] })

/-- `pop eax`, and its low half into the segment registers. -/
def popSegments (m : Memory) (cpu : Cpu) : Cpu :=
  let (eax, cpu) := cpu.pop m
  { cpu with
    eax := eax
    ds := eax.toUInt16
    es := eax.toUInt16
    fs := eax.toUInt16
    gs := eax.toUInt16 }

/-- `popa`, which discards the stack pointer among its eight words. -/
def popa (m : Memory) (cpu : Cpu) : Cpu :=
  let (edi, cpu) := cpu.pop m
  let (esi, cpu) := cpu.pop m
  let (ebp, cpu) := cpu.pop m
  let (_, cpu) := cpu.pop m
  let (ebx, cpu) := cpu.pop m
  let (edx, cpu) := cpu.pop m
  let (ecx, cpu) := cpu.pop m
  let (eax, cpu) := cpu.pop m
  { cpu with
    edi := edi
    esi := esi
    ebp := ebp
    ebx := ebx
    edx := edx
    ecx := ecx
    eax := eax }

def iretd (m : Memory) (cpu : Cpu) : Cpu :=
  let (eip, cpu) := cpu.pop m
  let (cs, cpu) := cpu.pop m
  let (eflags, cpu) := cpu.pop m
  { cpu with eip := eip, cs := cs.toUInt16, eflags := eflags }

end Cpu

/-- From `mov esp, eax` on, with the value that `schedule` returned. -/
def isr32Epilogue (m : Memory) (esp : UInt32) (cpu : Cpu) : Cpu :=
  Cpu.iretd m (Cpu.popa m (Cpu.popSegments m { cpu with esp := esp, reads := [] }))

/-- What `pusha`, `mov ax, ds` and `push eax` push. -/
def contextWords (cpu : Cpu) : List UInt32 :=
  [cpu.eax, cpu.ecx, cpu.edx, cpu.ebx, cpu.esp, cpu.ebp, cpu.esi, cpu.edi,
    cpu.eax &&& 0xFFFF0000 ||| cpu.ds.toUInt32]

/-- Up to the call of `schedule`: the stack pointer it is called with, and the
memory. -/
def isr32Prologue (cpu : Cpu) (m : Memory) : UInt32 × Memory :=
  Memory.pushAll (contextWords cpu) (cpu.esp, m)

end FirstKernel
