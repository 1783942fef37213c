import FirstKernel.Program
import FirstKernel.TaskRuns

/-!
# The stacks of tasks, `create_task` and `cmd_alloc`

`create_task` adds 4096 to what `pmm_alloc_frame` returns before anything
is known about it. While frames are left, the new stack is at the end of
one that was free (`createTask_owns`). The `alloc` command takes frames
and never gives them back: 3840 of them, and the next task gets a stack
below address 4096, in memory that nobody has handed out
(`createTask_exclusive_iff`). `cmd_alloc` itself looks at the result.
-/

namespace FirstKernel

open Memory

/-- The `alloc` command. -/
def cmdAlloc (k : Kernel) : Kernel :=
  let (ptr, bitmap) := pmmAllocFrame k.memoryBitmap
  if ptr = 0 then { k with
    memoryBitmap := bitmap
    printed := k.printed ++ [text "Error: graphic memory is full\n"] }
  else { k with
    memoryBitmap := bitmap
    printed := k.printed ++
      [text "Block of 4KB reserve succesfully in: ", hexToString ptr, text "\n"] }

theorem cmdAlloc_eq (k : Kernel) : ∃ messages, cmdAlloc k = { k with
    memoryBitmap := (pmmAllocFrame k.memoryBitmap).2
    printed := k.printed ++ messages } := by
  unfold cmdAlloc
  by_cases hnull : (pmmAllocFrame k.memoryBitmap).1 = 0
  · exact ⟨_, if_pos hnull⟩
  · exact ⟨_, if_neg hnull⟩

/-! ## The frames that are left -/

/-- The bitmap after `init_pmm` and `n` calls of `pmm_alloc_frame`. -/
def allocated : Nat → MemoryBitmap
  | 0 => initPmm
  | n + 1 => (pmmAllocFrame (allocated n)).2

/-- Each of the first 3840 calls hands a frame out. -/
theorem represents_allocated (n : Nat) : ∃ live p,
    Represents ⟨allocated n, live⟩ p ∧ live.length = min n 3840 := by
  induction n with
  | zero => exact ⟨[], _, represents_bootFrames, rfl⟩
  | succ n ih =>
      obtain ⟨live, p, hp, hlen⟩ := ih
      obtain ⟨s, hstep, p', hp'⟩ := hp.allocFrame
      obtain rfl := Except.ok.inj hstep
      have hnull := hp.exactFrames.null_iff_length
      simp only at hnull hp'
      refine ⟨_, p', hp', ?_⟩
      by_cases hzero : (pmmAllocFrame (allocated n)).1 = 0
      · have hfull := hnull.mp hzero
        rw [if_pos hzero]
        omega
      · have hroom := mt hnull.mpr hzero
        rw [if_neg hzero, List.length_cons]
        omega

theorem pmmAllocFrame_allocated_of_lt {n : Nat} (hn : n < 3840) :
    ∃ b : Fin 4096, 256 ≤ b.val ∧ pmmTestBit b (allocated n) = 0 ∧
      pmmAllocFrame (allocated n) = (frameAddr b, pmmSetBit b (allocated n)) := by
  obtain ⟨live, p, hp, hlen⟩ := represents_allocated n
  rcases hp.pmmAllocFrame_cases with ⟨b, hleast, halloc⟩ | ⟨-, halloc⟩
  · have havailable : b ∈ p.available := Finset.mem_coe.mp hleast.1
    exact ⟨b, mem_nonReserved.mp (Pool.mem_available.mp havailable).1,
      (pmmTestBit_eq_zero_iff b _).mpr (hp.mem_available_iff.mp havailable), halloc⟩
  · have hfull := hp.exactFrames.null_iff_length.mp (congrArg Prod.fst halloc)
    simp only at hfull
    omega

theorem pmmAllocFrame_allocated_of_ge {n : Nat} (hn : 3840 ≤ n) :
    (pmmAllocFrame (allocated n)).1 = 0 := by
  obtain ⟨live, p, hp, hlen⟩ := represents_allocated n
  refine hp.exactFrames.null_iff_length.mpr ?_
  simp only
  omega

theorem cmdAllocs_eq {k : Kernel} (h : k.memoryBitmap = initPmm) (n : Nat) :
    ∃ messages, cmdAlloc^[n] k = { k with
      memoryBitmap := allocated n
      printed := k.printed ++ messages } := by
  induction n with
  | zero =>
      refine ⟨[], ?_⟩
      rw [List.append_nil, allocated, ← h]
      rfl
  | succ n ih =>
      obtain ⟨messages, hrun⟩ := ih
      obtain ⟨more, hstep⟩ := cmdAlloc_eq (cmdAlloc^[n] k)
      refine ⟨messages ++ more, ?_⟩
      rw [Function.iterate_succ_apply', hstep, hrun]
      simp only [allocated, List.append_assoc]

/-! ## The new stack -/

/-- The task that is created has its stack to itself: it is in a frame that was free,
and no other byte of memory has changed. -/
structure OwnsStack (b : Fin 4096) (k k' : Kernel) : Prop where
  isFrame : IsFrame (frameAddr b)
  was_free : pmmTestBit b k.memoryBitmap = 0
  marked_used : pmmTestBit b k'.memoryBitmap ≠ 0
  count_eq : k'.taskCount = k.taskCount + 1
  active : ∃ id : TaskId, id.val = k.taskCount ∧ (k'.tasks id).active = true ∧
    (frameAddr b).toNat ≤ (k'.tasks id).esp.toNat ∧
    (k'.tasks id).esp.toNat < (frameAddr b).toNat + 4096
  elsewhere : ∀ a : UInt32, a.toNat < (frameAddr b).toNat ∨ (frameAddr b).toNat + 4096 ≤ a.toNat →
    k'.memory a = k.memory a

structure Refused (k k' : Kernel) : Prop where
  tasks_eq : k'.tasks = k.tasks
  count_eq : k'.taskCount = k.taskCount
  bitmap_eq : k'.memoryBitmap = k.memoryBitmap
  memory_eq : k'.memory = k.memory

theorem createTask_owns {k : Kernel} {b : Fin 4096} (taskCode : UInt32)
    (hroom : k.taskCount < maxTask) (hb : 256 ≤ b.val)
    (hfree : pmmTestBit b k.memoryBitmap = 0)
    (halloc : pmmAllocFrame k.memoryBitmap = (frameAddr b, pmmSetBit b k.memoryBitmap)) :
    OwnsStack b k (createTask taskCode k) := by
  have hframe := toNat_frameAddr b
  have hesp : (newEsp k).toNat = (frameAddr b).toNat + 4052 := by
    rw [newEsp, halloc]
    simp only [UInt32.toNat_sub, UInt32.toNat_add, UInt32.reduceToNat]
    omega
  refine ⟨isFrame_frameAddr hb, hfree, ?_, ?_, ⟨⟨k.taskCount, hroom⟩, rfl, ?_⟩, fun a ha => ?_⟩
  · rw [createTask_eq taskCode hroom, halloc, Ne, pmmTestBit_eq_zero_iff, marked_pmmSetBit]
    simp
  · rw [createTask_eq taskCode hroom]
  · rw [createTask_eq taskCode hroom]
    simp only [Function.update_self, hesp]
    exact ⟨trivial, Nat.le_add_right .., by omega⟩
  · rw [memory_createTask taskCode hroom]
    refine storeBytes_of_ge _ ?_
    rw [length_newStackBytes, UInt32.toNat_sub, hesp]
    have := a.toNat_lt
    omega

/-- Without a frame the stack is the end of the first 4096 bytes of memory. -/
theorem newEsp_of_null {k : Kernel} (hnull : (pmmAllocFrame k.memoryBitmap).1 = 0) :
    newEsp k = 4052 := by
  rw [newEsp, hnull]
  rfl

theorem not_ownsStack_of_null {k : Kernel} {b : Fin 4096} {taskCode : UInt32}
    (hroom : k.taskCount < maxTask) (hnull : (pmmAllocFrame k.memoryBitmap).1 = 0) :
    ¬OwnsStack b k (createTask taskCode k) := by
  intro h
  obtain ⟨id, hid, -, hge, -⟩ := h.active
  obtain rfl : id = ⟨k.taskCount, hroom⟩ := Fin.ext hid
  rw [createTask_eq taskCode hroom] at hge
  simp only [Function.update_self, newEsp_of_null hnull, UInt32.reduceToNat] at hge
  have := h.isFrame.ge
  omega

theorem not_refused {k : Kernel} {taskCode : UInt32} (hroom : k.taskCount < maxTask) :
    ¬Refused k (createTask taskCode k) := by
  intro h
  have hcount := h.count_eq
  rw [createTask_eq taskCode hroom] at hcount
  exact Nat.succ_ne_self _ hcount

/-- **Task stacks are exclusively owned.** After any number of allocations, a task is
created in a frame of its own, or refused, just when there was a frame left. -/
theorem createTask_exclusive_iff (n : Nat) {k : Kernel} (taskCode : UInt32)
    (hreach : k.memoryBitmap = allocated n) (hroom : k.taskCount < maxTask) :
    (∃ b, OwnsStack b k (createTask taskCode k)) ∨ Refused k (createTask taskCode k) ↔
      n < 3840 := by
  constructor
  · rintro (⟨b, howns⟩ | hrefused)
    · by_contra hn
      have hnull := pmmAllocFrame_allocated_of_ge (not_lt.mp hn)
      rw [← hreach] at hnull
      exact not_ownsStack_of_null hroom hnull howns
    · exact absurd hrefused (not_refused hroom)
  · intro hn
    obtain ⟨b, hb, hfree, halloc⟩ := pmmAllocFrame_allocated_of_lt hn
    rw [← hreach] at hfree halloc
    exact Or.inl ⟨b, createTask_owns taskCode hroom hb hfree halloc⟩

/-- A kernel that starts with all frames. -/
def framesKernel : Kernel := { initMultitasking blankKernel with memoryBitmap := initPmm }

/-- The kernel after `n` times `alloc`. -/
def allocKernel (n : Nat) : Kernel := cmdAlloc^[n] framesKernel

theorem memoryBitmap_framesKernel : framesKernel.memoryBitmap = initPmm := by
  simp only [framesKernel]

theorem allocKernel_eq (n : Nat) : ∃ messages, allocKernel n = { framesKernel with
    memoryBitmap := allocated n
    printed := framesKernel.printed ++ messages } :=
  cmdAllocs_eq memoryBitmap_framesKernel n

theorem memoryBitmap_allocKernel (n : Nat) : (allocKernel n).memoryBitmap = allocated n := by
  obtain ⟨messages, hrun⟩ := allocKernel_eq n
  exact congrArg Kernel.memoryBitmap hrun

theorem taskCount_allocKernel (n : Nat) : (allocKernel n).taskCount < maxTask := by
  obtain ⟨messages, hrun⟩ := allocKernel_eq n
  rw [congrArg Kernel.taskCount hrun]
  exact (by decide : 1 < 3)

/-- The last frame is the stack of a task. -/
theorem createTask_exclusive_iff_lastFrame :
    (∃ b, OwnsStack b (allocKernel 3839) (createTask 0x10000 (allocKernel 3839))) ∨
      Refused (allocKernel 3839) (createTask 0x10000 (allocKernel 3839)) ↔ 3839 < 3840 :=
  createTask_exclusive_iff 3839 0x10000 (memoryBitmap_allocKernel 3839)
    (taskCount_allocKernel 3839)

/-- The task after it gets the memory below address 4096. -/
theorem not_createTask_exclusive_full :
    newEsp (allocKernel 3840) = 4052 ∧
      ¬((∃ b, OwnsStack b (allocKernel 3840) (createTask 0x10000 (allocKernel 3840))) ∨
        Refused (allocKernel 3840) (createTask 0x10000 (allocKernel 3840))) := by
  have hroom := taskCount_allocKernel 3840
  have hnull : (pmmAllocFrame (allocKernel 3840).memoryBitmap).1 = 0 := by
    rw [memoryBitmap_allocKernel]
    exact pmmAllocFrame_allocated_of_ge (Nat.le_refl _)
  refine ⟨newEsp_of_null hnull, ?_⟩
  rintro (⟨b, howns⟩ | hrefused)
  · exact not_ownsStack_of_null hroom hnull howns
  · exact not_refused hroom hrefused

end FirstKernel
