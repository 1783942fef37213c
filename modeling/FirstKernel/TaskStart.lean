import FirstKernel.TaskRuns

/-!
# The first switch to a new task

The epilogue of `isr32` pops twelve words: the saved data segment, the
eight of `popa`, and the three of `iretd`. What `isr32` itself pushes on
entry is laid out like that (`isr32Epilogue_isr32Prologue`).
`create_task` pushes eleven. The first of its eight zeros is taken for
the data segment, so `popa` runs one word into the frame of `iretd`:
the address of the task ends up in `eax`, its code segment in `eip`, its
flags in `cs`, and the flags are read past the end of the stack
(`isr32Epilogue_newStack`). No task ever starts at its code
(`newTask_never_startsAt`).
-/

namespace FirstKernel

open Memory

/-! ## The epilogue -/

/-- The `j`-th word from the stack pointer. -/
def wordAt (m : Memory) (esp : UInt32) (j : Nat) : UInt32 :=
  m.load (esp + UInt32.ofNat (4 * j))

theorem isr32Epilogue_eq (m : Memory) (esp : UInt32) (cpu : Cpu) :
    isr32Epilogue m esp cpu =
      { eax := wordAt m esp 8
        ecx := wordAt m esp 7
        edx := wordAt m esp 6
        ebx := wordAt m esp 5
        esp := esp + 48
        ebp := wordAt m esp 3
        esi := wordAt m esp 2
        edi := wordAt m esp 1
        ds := (wordAt m esp 0).toUInt16
        es := (wordAt m esp 0).toUInt16
        fs := (wordAt m esp 0).toUInt16
        gs := (wordAt m esp 0).toUInt16
        eip := wordAt m esp 9
        cs := (wordAt m esp 10).toUInt16
        eflags := wordAt m esp 11
        reads := (List.range 12).map fun j => esp + UInt32.ofNat (4 * j) } := by
  simp [isr32Epilogue, Cpu.popSegments, Cpu.popa, Cpu.iretd, Cpu.pop, wordAt,
    UInt32.add_assoc, List.range_succ]

theorem wordAt_pushAll {ws : List UInt32} {j : Nat} {w : UInt32} (sp : UInt32)
    (m : Memory) (hlen : 4 * ws.length ≤ 2 ^ 32) (h : ws.reverse[j]? = some w) :
    wordAt (pushAll ws (sp, m)).2 (pushAll ws (sp, m)).1 j = w :=
  load_pushAll_reverse sp m hlen h

/-- The words beyond the pushed ones are those that were there before. -/
theorem wordAt_pushAll_above {ws : List UInt32} {j : Nat} (sp : UInt32) (m : Memory)
    (hj : ws.length ≤ j) (hlen : 4 * (j + 1) ≤ 2 ^ 32) :
    wordAt (pushAll ws (sp, m)).2 (pushAll ws (sp, m)).1 j
      = wordAt m sp (j - ws.length) := by
  have haddr : (pushAll ws (sp, m)).1 + UInt32.ofNat (4 * j)
      = sp + UInt32.ofNat (4 * (j - ws.length)) := by
    rw [pushAll_fst, ← UInt32.toNat_inj]
    simp only [UInt32.toNat_add, UInt32.toNat_sub, UInt32.toNat_ofNat']
    have := sp.toNat_lt
    omega
  rw [wordAt, haddr, wordAt]
  refine load_pushAll_of_above m ?_
  simp only [UInt32.toNat_sub, UInt32.toNat_add, UInt32.toNat_ofNat']
  have := sp.toNat_lt
  omega

/-- **The interrupted task resumes where it was.** The epilogue undoes the
prologue; the three words above are what the processor had pushed. -/
theorem isr32Epilogue_isr32Prologue (m : Memory) (cpu cpu' : Cpu) :
    let s := isr32Prologue cpu m
    let resumed := isr32Epilogue s.2 s.1 cpu'
    resumed.eax = cpu.eax ∧ resumed.ecx = cpu.ecx ∧ resumed.edx = cpu.edx ∧
      resumed.ebx = cpu.ebx ∧ resumed.ebp = cpu.ebp ∧ resumed.esi = cpu.esi ∧
      resumed.edi = cpu.edi ∧ resumed.ds = cpu.ds ∧ resumed.eip = wordAt m cpu.esp 0 ∧
      resumed.cs = (wordAt m cpu.esp 1).toUInt16 ∧
      resumed.eflags = wordAt m cpu.esp 2 := by
  have hlen : 4 * (contextWords cpu).length ≤ 2 ^ 32 := show 4 * 9 ≤ 2 ^ 32 by decide
  have habove : ∀ j, j < 3 → wordAt (isr32Prologue cpu m).2 (isr32Prologue cpu m).1 (9 + j)
      = wordAt m cpu.esp j := by
    intro j hj
    have hge : (contextWords cpu).length ≤ 9 + j := Nat.le_add_right 9 j
    have hsub : 9 + j - (contextWords cpu).length = j := Nat.add_sub_cancel_left 9 j
    have hword := wordAt_pushAll_above cpu.esp m hge (by omega)
    rwa [hsub] at hword
  simp only [isr32Epilogue_eq]
  refine ⟨wordAt_pushAll _ m hlen rfl, wordAt_pushAll _ m hlen rfl,
    wordAt_pushAll _ m hlen rfl, wordAt_pushAll _ m hlen rfl, wordAt_pushAll _ m hlen rfl,
    wordAt_pushAll _ m hlen rfl, wordAt_pushAll _ m hlen rfl, ?_, habove 0 (by decide),
    congrArg UInt32.toUInt16 (habove 1 (by decide)), habove 2 (by decide)⟩
  have hds : wordAt (isr32Prologue cpu m).2 (isr32Prologue cpu m).1 0
      = cpu.eax &&& 0xFFFF0000 ||| cpu.ds.toUInt32 := wordAt_pushAll _ m hlen rfl
  have hhigh : (0xFFFF0000 : UInt16) = 0 := rfl
  rw [hds]
  simp [hhigh]

/-! ## The stack of a new task -/

/-- The state a task has to be started in: all words popped are words that
`create_task` wrote, from `stack` to the end of the frame. -/
def StartsAt (frame stack taskCode : UInt32) (cpu : Cpu) : Prop :=
  (∀ a ∈ cpu.reads, stack.toNat ≤ a.toNat ∧ a.toNat + 4 ≤ frame.toNat + 4096) ∧
    cpu.eip = taskCode ∧ cpu.cs = 0x08 ∧ cpu.eflags = 0x202

/-- Two memories with the same bytes in the 4096 from `frame` on. -/
def SameFrame (frame : UInt32) (m m' : Memory) : Prop :=
  ∀ a : UInt32, frame.toNat ≤ a.toNat → a.toNat < frame.toNat + 4096 → m' a = m a

/-- **Every word is one place off.** -/
theorem isr32Epilogue_newStack {frame taskCode : UInt32} {m m' : Memory}
    (hframe : frame.toNat < 2 ^ 24)
    (hm : SameFrame frame (pushAll (newStack taskCode) (frame + 4096, m)).2 m')
    (cpu : Cpu) :
    let resumed := isr32Epilogue m' (frame + 4096 - 44) cpu
    resumed.eax = taskCode ∧ resumed.eip = 0x08 ∧ resumed.cs = 0x202 ∧
      resumed.eflags = m'.load (frame + 4096) ∧
      frame + 4096 ∈ resumed.reads := by
  have hlen : 4 * (newStack taskCode).length ≤ 2 ^ 32 := show 4 * 11 ≤ 2 ^ 32 by decide
  have hword : ∀ {j : Nat} {w : UInt32}, (newStack taskCode).reverse[j]? = some w →
      wordAt m' (frame + 4096 - 44) j = w := by
    intro j w h
    have hj : j < 11 := (List.getElem?_eq_some_iff.mp h).1
    have hpushed := wordAt_pushAll (frame + 4096) m hlen h
    rw [pushAll_newStack_fst] at hpushed
    refine Eq.trans (load_congr fun k hk => ?_) hpushed
    -- the word lies inside the frame
    simp only [UInt32.toNat_sub, UInt32.toNat_add, UInt32.toNat_ofNat',
      UInt32.reduceToNat] at hk
    have := k.toNat_lt
    exact hm k (by omega) (by omega)
  -- the twelfth word is the one after the end of the stack
  have hpast : frame + 4096 - 44 + UInt32.ofNat (4 * 11) = frame + 4096 := by
    rw [← UInt32.toNat_inj]
    simp only [UInt32.toNat_sub, UInt32.toNat_add, UInt32.toNat_ofNat',
      UInt32.reduceToNat]
    omega
  simp only [isr32Epilogue_eq]
  refine ⟨hword rfl, hword rfl, ?_, ?_, ?_⟩
  · rw [hword rfl]
    rfl
  · rw [wordAt, hpast]
  · exact List.mem_map.mpr ⟨11, List.mem_range.mpr (by decide), hpast⟩

/-! ## The first switch -/

/-- The call does not hand the processor to task `id`. -/
def NotResumed (id : TaskId) (call : TaskCall) (k : Kernel) : Prop :=
  ∀ k', execTask call k = .ok k' → k'.currentTask ≠ id

/-- Task `id` has not run yet. -/
structure Waiting (id : TaskId) (esp : UInt32) (k : Kernel) : Prop where
  scheduling : Scheduling k
  contexts : Contexts k
  not_current : k.currentTask ≠ id
  exists_id : id.val < k.taskCount
  esp_eq : (k.tasks id).esp = esp

theorem waiting_createTask_new {k : Kernel} (hs : Scheduling k) (hc : Contexts k)
    (taskCode : UInt32) (hroom : k.taskCount < maxTask) :
    Waiting ⟨k.taskCount, hroom⟩ (newEsp k) (createTask taskCode k) where
  scheduling := scheduling_createTask hs taskCode
  contexts := contexts_createTask hc taskCode
  not_current := by
    rw [currentTask_createTask]
    exact hs.current_ne (Nat.le_refl _)
  exists_id := by
    rw [createTask_eq taskCode hroom]
    exact Nat.lt_succ_self _
  esp_eq := by
    rw [createTask_eq taskCode hroom]
    simp

theorem Waiting.createTask {k : Kernel} {id : TaskId} {esp : UInt32}
    (h : Waiting id esp k) (taskCode : UInt32) :
    Waiting id esp (createTask taskCode k) where
  scheduling := scheduling_createTask h.scheduling taskCode
  contexts := contexts_createTask h.contexts taskCode
  not_current := by
    rw [currentTask_createTask]
    exact h.not_current
  exists_id := Nat.lt_of_lt_of_le h.exists_id (taskCount_le_createTask taskCode k)
  esp_eq := by
    have hlt := h.exists_id
    by_cases hroom : k.taskCount < maxTask
    · have hne : id ≠ ⟨k.taskCount, hroom⟩ := fun heq => by
        rw [heq] at hlt
        exact Nat.lt_irrefl _ hlt
      rw [createTask_eq taskCode hroom]
      simp only [Function.update_of_ne hne]
      exact h.esp_eq
    · rw [createTask_full taskCode hroom]
      exact h.esp_eq

theorem Waiting.execTask {k : Kernel} {id : TaskId} {esp : UInt32}
    (h : Waiting id esp k) {call : TaskCall} (hg : NotResumed id call k) :
    ∃ k', execTask call k = .ok k' ∧ Waiting id esp k' := by
  cases call with
  | createTask taskCode => exact ⟨_, rfl, h.createTask taskCode⟩
  | schedule current =>
      obtain ⟨ret, k', hrun, hs', hc', -, hcount, hframe, -⟩ :=
        schedule_ok h.scheduling h.contexts current
      have hexec : FirstKernel.execTask (.schedule current) k = .ok k' := by
        simp only [FirstKernel.execTask, hrun]
      refine ⟨k', hexec, hs', hc', hg k' hexec, ?_, ?_⟩
      · rw [hcount]
        exact h.exists_id
      · rw [hframe id (Ne.symm h.not_current)]
        exact h.esp_eq

/-- The switch to a task that has not run returns what `create_task` stored. -/
theorem Waiting.schedule_eq {k k' : Kernel} {id : TaskId} {esp current ret : UInt32}
    (h : Waiting id esp k) (hrun : schedule current k = .ok (ret, k'))
    (hid : k'.currentTask = id) : ret = esp := by
  rcases schedule_cases h.scheduling current with ⟨-, heq⟩ | ⟨l, z, -, heq⟩
  · rw [heq] at hrun
    obtain ⟨-, rfl⟩ := Prod.mk.inj (Except.ok.inj hrun)
    exact absurd hid h.not_current
  · rw [heq] at hrun
    obtain ⟨rfl, rfl⟩ := Prod.mk.inj (Except.ok.inj hrun)
    have hz : z = id := hid
    rw [hz, saveEsp_esp_of_ne (Ne.symm h.not_current), h.esp_eq]

/-- **A new task never starts at its code.** Whatever was scheduled before, when
`schedule` first returns to the task, with its frame as `create_task` left it,
the epilogue does not reach the state that the task is to start in. -/
theorem newTask_never_startsAt (k₀ : Kernel) (before later : List TaskCall)
    {k k₁ k₂ : Kernel} {taskCode current ret : UInt32} {m : Memory} (cpu : Cpu)
    (hbefore : runs execTask before (initMultitasking k₀) = .ok k)
    (hroom : k.taskCount < maxTask)
    (hwaits : Guarded execTask (NotResumed ⟨k.taskCount, hroom⟩) later
      (createTask taskCode k))
    (hlater : runs execTask later (createTask taskCode k) = .ok k₁)
    (hsched : schedule current k₁ = .ok (ret, k₂))
    (hfirst : k₂.currentTask = ⟨k.taskCount, hroom⟩)
    (hm : SameFrame (pmmAllocFrame k.memoryBitmap).1 (createTask taskCode k).memory m) :
    ¬StartsAt (pmmAllocFrame k.memoryBitmap).1 (newEsp k) taskCode
      (isr32Epilogue m ret cpu) := by
  obtain ⟨k', hrun, hs, hc⟩ := runs_execTask k₀ before
  obtain rfl := Except.ok.inj (hbefore.symm.trans hrun)
  obtain ⟨k₁', hrun', hwaiting⟩ := runs_invariant
    (fun _ _ h hg => Waiting.execTask h hg) later _
    (waiting_createTask_new hs hc taskCode hroom) hwaits
  obtain rfl := Except.ok.inj (hlater.symm.trans hrun')
  rw [hwaiting.schedule_eq hsched hfirst]
  rw [createTask_eq taskCode hroom] at hm
  obtain ⟨-, -, hcs, -⟩ :=
    isr32Epilogue_newStack (pmmAllocFrame_lt k.memoryBitmap) hm cpu
  rintro ⟨-, -, hcs', -⟩
  exact absurd (hcs.symm.trans hcs') (by decide)

/-- A kernel with its first 256 frames in use, and a processor in it. -/
def bootKernel : Kernel where
  tasks _ := ⟨0, 0, false⟩
  currentTask := 0
  taskCount := 0
  memoryBitmap w := if w.val < 8 then 0xFFFFFFFF else 0
  memory _ := 0
  printed := []
  events := []

def bootCpu : Cpu := ⟨0, 0, 0, 0, 0, 0, 0, 0, 0x10, 0x10, 0x10, 0x10, 0, 0x08, 0x202, []⟩

/-- Two tasks, of which the second has not run yet. -/
def twoTasks : Kernel := createTask 0x20000 (initMultitasking bootKernel)

theorem memory_schedule {k k' : Kernel} {esp ret : UInt32}
    (h : schedule esp k = .ok (ret, k')) : k'.memory = k.memory := by
  unfold schedule at h
  split at h
  · obtain ⟨-, rfl⟩ := Prod.mk.inj (Except.ok.inj h)
    rfl
  · simp only at h
    split at h
    · cases h
    · obtain ⟨-, rfl⟩ := Prod.mk.inj (Except.ok.inj h)
      rfl

/-- A third task is created after them, and gets the processor after the second. -/
theorem newTask_never_startsAt_third :
    ∃ ret₁ k₁ ret k₂, schedule 0x9000 (createTask 0x10000 twoTasks) = .ok (ret₁, k₁) ∧
      k₁.currentTask = 1 ∧ schedule 0x100800 k₁ = .ok (ret, k₂) ∧ k₂.currentTask = 2 ∧
      ¬StartsAt (pmmAllocFrame twoTasks.memoryBitmap).1 (newEsp twoTasks) 0x10000
        (isr32Epilogue k₂.memory ret bootCpu) := by
  have hcount : twoTasks.taskCount = 2 := by decide +kernel
  have hroom : twoTasks.taskCount < maxTask := hcount ▸ by decide
  have hid : (⟨twoTasks.taskCount, hroom⟩ : TaskId) = 2 := Fin.ext hcount
  obtain ⟨ret₁, k₁, hsched₁, hcur, ret, k₂, hsched, hfirst⟩ : ∃ ret₁ k₁,
      schedule 0x9000 (createTask 0x10000 twoTasks) = .ok (ret₁, k₁) ∧ k₁.currentTask = 1 ∧
        ∃ ret k₂, schedule 0x100800 k₁ = .ok (ret, k₂) ∧ k₂.currentTask = 2 := by
    refine ⟨_, _, rfl, ?_, _, _, rfl, ?_⟩ <;> decide +kernel
  have hlater : execTask (.schedule 0x9000) (createTask 0x10000 twoTasks) = .ok k₁ := by
    simp only [execTask, hsched₁]
  have hwaits : Guarded execTask (NotResumed ⟨twoTasks.taskCount, hroom⟩) [.schedule 0x9000]
      (createTask 0x10000 twoTasks) := by
    refine ⟨fun k' hrun => ?_, fun _ _ => trivial⟩
    obtain rfl := Except.ok.inj (hlater.symm.trans hrun)
    rw [hcur, hid]
    decide
  have hm := (memory_schedule hsched).trans (memory_schedule hsched₁)
  exact ⟨ret₁, k₁, ret, k₂, hsched₁, hcur, hsched, hfirst,
    newTask_never_startsAt bootKernel [.createTask 0x20000] [.schedule 0x9000] bootCpu rfl hroom
      hwaits (runs_cons_ok hlater) hsched (hfirst.trans hid.symm) fun a _ _ => congrFun hm a⟩

/-- The first switch after `create_task(0x10000)` goes to address 8. -/
theorem not_startsAt_boot :
    ∃ ret k₂, schedule 0x9000 (createTask 0x10000 (initMultitasking bootKernel))
        = .ok (ret, k₂) ∧ k₂.currentTask = 1 ∧ ret = 0x100000 + 4096 - 44 ∧
      (isr32Epilogue k₂.memory ret bootCpu).eip = 8 ∧
      ¬StartsAt 0x100000 ret 0x10000 (isr32Epilogue k₂.memory ret bootCpu) := by
  refine ⟨_, _, rfl, rfl, ?_, ?_, ?_⟩
  · decide +kernel
  · decide +kernel
  · rintro ⟨-, heip, -⟩
    revert heip
    decide +kernel

end FirstKernel
