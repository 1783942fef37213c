import FirstKernel.Task

/-!
# The scheduler is a round robin

Two invariants of every run from `init_multitasking`. `Scheduling` is
about the table: the active entries are those below `task_count`, and
the current task is one of them, so the search of `schedule` ends.
`Contexts` is about the saved stack pointers: what a task that is not
running has in the table is the value that the events say it should
have (`expectedEsp`).

`schedule` itself is a step of the search in `RoundRobin`
(`schedule_cases`), so the distance to any active task falls with each
call until the task is resumed, whatever tasks are created meanwhile.
-/

namespace FirstKernel

open RoundRobin

/-- The stack pointer with which `t` last called `schedule`. -/
def lastPreempted (t : TaskId) : List TaskEvent → Option UInt32
  | [] => none
  | .created _ _ :: events => lastPreempted t events
  | .scheduled preempted esp _ _ :: events =>
      if preempted = t then some esp else lastPreempted t events

/-- The stack pointer that `create_task` stored for `t`. -/
def createdEsp (t : TaskId) : List TaskEvent → Option UInt32
  | [] => none
  | .created id esp :: events => if id = t then some esp else createdEsp t events
  | .scheduled _ _ _ _ :: events => createdEsp t events

/-- Where `t` has to be resumed. -/
def expectedEsp (t : TaskId) (events : List TaskEvent) : Option UInt32 :=
  (lastPreempted t events).or (createdEsp t events)

def Active (tasks : TaskId → Pcb) (t : TaskId) : Prop := (tasks t).active = true

structure Scheduling (k : Kernel) : Prop where
  active_iff : ∀ t, Active k.tasks t ↔ t.val < k.taskCount
  id_eq : ∀ t, Active k.tasks t → (k.tasks t).id = t.val
  count_pos : 1 ≤ k.taskCount
  count_le : k.taskCount ≤ maxTask
  current_lt : k.currentTask.val < k.taskCount

structure Contexts (k : Kernel) : Prop where
  saved : ∀ t, t.val < k.taskCount → t ≠ k.currentTask →
    expectedEsp t k.events = some (k.tasks t).esp
  fresh : ∀ t, k.taskCount ≤ t.val → lastPreempted t k.events = none

/-! ## The search -/

theorem nextActive_of_search {tasks : TaskId → Pcb} {z : TaskId} :
    ∀ (fuel : Nat) {c : TaskId} {l : List TaskId},
      Search (Active tasks) c l z → l.length < fuel →
        nextActive tasks fuel c = .ok z
  | 0, _, _, _, hlt => absurd hlt (Nat.not_lt_zero _)
  | fuel + 1, c, l, hw, hlt => by
      cases hw with
      | stop hout =>
          have hactive : (tasks (cycle c)).active = true := not_not.mp hout
          simp [nextActive, hactive]
      | @step _ l _ hin hw =>
          rw [List.length_cons] at hlt
          have hinactive : (tasks (cycle c)).active = false := Bool.eq_false_iff.mpr hin
          simp only [nextActive, hinactive, if_true]
          exact nextActive_of_search fuel hw (by omega)

theorem search_of_nextActive {tasks : TaskId → Pcb} {z : TaskId} :
    ∀ (fuel : Nat) {c : TaskId}, nextActive tasks fuel c = .ok z →
      ∃ l, Search (Active tasks) c l z
  | 0, _, h => by cases h
  | fuel + 1, c, h => by
      cases hactive : (tasks (cycle c)).active with
      | false =>
          simp only [nextActive, hactive, if_true] at h
          obtain ⟨l, hw⟩ := search_of_nextActive fuel h
          exact ⟨cycle c :: l, .pass (Bool.eq_false_iff.mp hactive) hw⟩
      | true =>
          simp only [nextActive, hactive, reduceCtorEq, if_false] at h
          obtain rfl := Except.ok.inj h
          exact ⟨[], .here hactive⟩

/-- The loop of `schedule` ends exactly when the search does. -/
theorem nextActive_eq_ok {tasks : TaskId → Pcb} {c z : TaskId} :
    nextActive tasks maxTask c = .ok z ↔
      ∃ l, Search (Active tasks) c l z :=
  ⟨search_of_nextActive maxTask,
    fun ⟨_, hw⟩ => nextActive_of_search maxTask hw hw.length_lt⟩

/-! ## One call of `schedule` -/

/-- The table after the caller's stack pointer has been saved. -/
def saveEsp (esp : UInt32) (k : Kernel) : TaskId → Pcb :=
  Function.update k.tasks k.currentTask { k.tasks k.currentTask with esp := esp }

theorem active_saveEsp (esp : UInt32) (k : Kernel) :
    Active (saveEsp esp k) = Active k.tasks := by
  funext t
  unfold Active saveEsp
  by_cases ht : t = k.currentTask
  · subst ht
    rw [Function.update_self]
  · rw [Function.update_of_ne ht]

theorem saveEsp_id (esp : UInt32) (k : Kernel) (t : TaskId) :
    (saveEsp esp k t).id = (k.tasks t).id := by
  unfold saveEsp
  by_cases ht : t = k.currentTask
  · subst ht
    rw [Function.update_self]
  · rw [Function.update_of_ne ht]

theorem saveEsp_esp_of_ne {esp : UInt32} {k : Kernel} {t : TaskId}
    (h : t ≠ k.currentTask) : (saveEsp esp k t).esp = (k.tasks t).esp := by
  rw [saveEsp, Function.update_of_ne h]

theorem saveEsp_esp_self (esp : UInt32) (k : Kernel) :
    (saveEsp esp k k.currentTask).esp = esp := by
  rw [saveEsp, Function.update_self]

/-- A task table with a single task is left alone; otherwise the caller's stack
pointer is saved and the search picks the task to resume. -/
theorem schedule_cases {k : Kernel} (hk : Scheduling k) (esp : UInt32) :
    (k.taskCount = 1 ∧ schedule esp k = .ok (esp, { k with
      events := .scheduled k.currentTask esp k.currentTask esp :: k.events })) ∨
    ∃ l z, Search (Active k.tasks) k.currentTask l z ∧
      schedule esp k = .ok ((saveEsp esp k z).esp, { k with
        tasks := saveEsp esp k
        currentTask := z
        events := .scheduled k.currentTask esp z (saveEsp esp k z).esp :: k.events }) := by
  by_cases hcount : k.taskCount ≤ 1
  · have hpos := hk.count_pos
    exact Or.inl ⟨by omega, by simp [schedule, hcount]⟩
  · obtain ⟨l, z, hw⟩ := exists_search ((hk.active_iff k.currentTask).mpr hk.current_lt)
      k.currentTask
    have hnext : nextActive (saveEsp esp k) maxTask k.currentTask = .ok z :=
      nextActive_eq_ok.mpr ⟨l, by rwa [active_saveEsp]⟩
    refine Or.inr ⟨l, z, hw, ?_⟩
    unfold saveEsp at hnext ⊢
    simp only [schedule, if_neg hcount, hnext]

/-! ## Creating a task -/

/-- The stack pointer of a task created now: eleven words below the end of the
frame. -/
def newEsp (k : Kernel) : UInt32 := (pmmAllocFrame k.memoryBitmap).1 + 4096 - 44

theorem pushAll_newStack_fst (taskCode frame : UInt32) (m : Memory) :
    (Memory.pushAll (newStack taskCode) (frame + 4096, m)).1 = frame + 4096 - 44 :=
  Memory.pushAll_fst _ _ _

theorem createTask_full {k : Kernel} (taskCode : UInt32) (h : ¬k.taskCount < maxTask) :
    createTask taskCode k
      = { k with printed := k.printed ++ [text "Error: Max of tasks reached.\n"] } := by
  rw [createTask, dif_neg h]

theorem createTask_eq {k : Kernel} (taskCode : UInt32) (h : k.taskCount < maxTask) :
    createTask taskCode k = { k with
      tasks := Function.update k.tasks ⟨k.taskCount, h⟩
        { esp := newEsp k, id := k.taskCount, active := true }
      taskCount := k.taskCount + 1
      memoryBitmap := (pmmAllocFrame k.memoryBitmap).2
      memory := (Memory.pushAll (newStack taskCode)
        ((pmmAllocFrame k.memoryBitmap).1 + 4096, k.memory)).2
      events := .created ⟨k.taskCount, h⟩ (newEsp k) :: k.events } := by
  rw [createTask, dif_pos h]
  simp only [pushAll_newStack_fst]
  rfl

theorem taskCount_createTask {k : Kernel} (taskCode : UInt32) (h : k.taskCount < maxTask) :
    (createTask taskCode k).taskCount = k.taskCount + 1 := by
  rw [createTask_eq taskCode h]

theorem tasks_createTask_self {k : Kernel} {id : TaskId} (taskCode : UInt32)
    (hid : id.val = k.taskCount) :
    (createTask taskCode k).tasks id = { esp := newEsp k, id := k.taskCount, active := true } := by
  have hroom : k.taskCount < maxTask := hid ▸ id.isLt
  obtain rfl : id = ⟨k.taskCount, hroom⟩ := Fin.ext hid
  rw [createTask_eq taskCode hroom]
  exact Function.update_self ..

theorem tasks_createTask_of_ne {k : Kernel} {t : TaskId} (taskCode : UInt32)
    (ht : t.val ≠ k.taskCount) : (createTask taskCode k).tasks t = k.tasks t := by
  by_cases hroom : k.taskCount < maxTask
  · rw [createTask_eq taskCode hroom]
    exact Function.update_of_ne (fun heq => ht (congrArg Fin.val heq)) ..
  · rw [createTask_full taskCode hroom]

/-- The bytes of the stack that `create_task` builds. -/
def newStackBytes (taskCode : UInt32) : List UInt8 :=
  (newStack taskCode).reverse.flatMap Buffer.bytes32

theorem length_newStackBytes (taskCode : UInt32) : (newStackBytes taskCode).length = 44 := by
  rw [newStackBytes, Memory.length_flatMap_bytes32, List.length_reverse]
  rfl

theorem memory_createTask {k : Kernel} (taskCode : UInt32) (h : k.taskCount < maxTask) :
    (createTask taskCode k).memory
      = k.memory.storeBytes (newEsp k) (newStackBytes taskCode) := by
  rw [createTask_eq taskCode h]
  exact Memory.pushAll_snd ..

@[simp] theorem currentTask_createTask (taskCode : UInt32) (k : Kernel) :
    (createTask taskCode k).currentTask = k.currentTask := by
  by_cases hroom : k.taskCount < maxTask
  · rw [createTask_eq taskCode hroom]
  · rw [createTask_full taskCode hroom]

theorem taskCount_le_createTask (taskCode : UInt32) (k : Kernel) :
    k.taskCount ≤ (createTask taskCode k).taskCount := by
  by_cases hroom : k.taskCount < maxTask
  · rw [createTask_eq taskCode hroom]
    exact Nat.le_succ k.taskCount
  · rw [createTask_full taskCode hroom]

/-! ## The invariants -/

theorem expectedEsp_created (t id : TaskId) (esp : UInt32) (events : List TaskEvent)
    (h : id ≠ t) : expectedEsp t (.created id esp :: events) = expectedEsp t events := by
  simp [expectedEsp, lastPreempted, createdEsp, h]

theorem expectedEsp_scheduled (t p r : TaskId) (esp ret : UInt32)
    (events : List TaskEvent) :
    expectedEsp t (.scheduled p esp r ret :: events)
      = if p = t then some esp else expectedEsp t events := by
  by_cases h : p = t <;> simp [expectedEsp, lastPreempted, createdEsp, h]

theorem Scheduling.current_ne {k : Kernel} (h : Scheduling k) {t : TaskId}
    (ht : k.taskCount ≤ t.val) : k.currentTask ≠ t := by
  rintro rfl
  exact Nat.not_lt.mpr ht h.current_lt

/-- Once the caller's stack pointer is saved, every task has what it is to be
resumed with. -/
theorem Contexts.saveEsp {k : Kernel} (h : Contexts k) (esp ret : UInt32) (r : TaskId)
    {t : TaskId} (ht : t.val < k.taskCount) :
    expectedEsp t (.scheduled k.currentTask esp r ret :: k.events)
      = some (saveEsp esp k t).esp := by
  rw [expectedEsp_scheduled]
  by_cases hcur : t = k.currentTask
  · rw [if_pos hcur.symm, hcur, saveEsp_esp_self]
  · rw [if_neg (Ne.symm hcur), saveEsp_esp_of_ne hcur, h.saved t ht hcur]

theorem scheduling_initMultitasking (k : Kernel) : Scheduling (initMultitasking k) where
  active_iff := by
    intro t
    unfold Active initMultitasking
    by_cases ht : t = 0
    · subst ht
      simp
    · have hpos : t.val ≠ 0 := fun h => ht (Fin.ext h)
      simp [Function.update_of_ne ht]
      omega
  id_eq := by
    intro t ht
    by_cases h0 : t = 0
    · rw [h0]
      simp [initMultitasking]
    · simp [Active, initMultitasking, Function.update_of_ne h0] at ht
  count_pos := Nat.le_refl 1
  count_le := show 1 ≤ 3 by decide
  current_lt := Nat.zero_lt_one

theorem contexts_initMultitasking (k : Kernel) : Contexts (initMultitasking k) where
  saved := by
    intro t ht hne
    have h0 : t = (0 : TaskId) := Fin.ext (Nat.lt_one_iff.mp ht)
    exact absurd h0 hne
  fresh := fun _ _ => rfl

theorem scheduling_createTask {k : Kernel} (hk : Scheduling k) (taskCode : UInt32) :
    Scheduling (createTask taskCode k) := by
  by_cases hroom : k.taskCount < maxTask
  · rw [createTask_eq taskCode hroom]
    refine ⟨fun t => ?_, fun t ht => ?_, Nat.le_add_left 1 _, hroom,
      Nat.lt_succ_of_lt hk.current_lt⟩
    · by_cases hid : t = ⟨k.taskCount, hroom⟩
      · subst hid
        simp [Active]
      · have hne : t.val ≠ k.taskCount := fun h => hid (Fin.ext h)
        have hold := hk.active_iff t
        unfold Active at hold ⊢
        simp only [Function.update_of_ne hid, hold]
        omega
    · by_cases hid : t = ⟨k.taskCount, hroom⟩
      · subst hid
        simp
      · unfold Active at ht
        simp only [Function.update_of_ne hid] at ht ⊢
        exact hk.id_eq t ht
  · rw [createTask_full taskCode hroom]
    exact ⟨hk.active_iff, hk.id_eq, hk.count_pos, hk.count_le, hk.current_lt⟩

theorem contexts_createTask {k : Kernel} (hk : Contexts k) (taskCode : UInt32) :
    Contexts (createTask taskCode k) := by
  by_cases hroom : k.taskCount < maxTask
  · rw [createTask_eq taskCode hroom]
    refine ⟨fun t ht hne => ?_, fun t ht => hk.fresh t (Nat.le_of_succ_le ht)⟩
    by_cases hid : t = ⟨k.taskCount, hroom⟩
    · subst hid
      have hnone := hk.fresh ⟨k.taskCount, hroom⟩ (Nat.le_refl _)
      simp [expectedEsp, lastPreempted, createdEsp, hnone]
    · have hlt : t.val < k.taskCount :=
        Nat.lt_of_le_of_ne (Nat.lt_succ_iff.mp ht) fun h => hid (Fin.ext h)
      rw [expectedEsp_created _ _ _ _ (Ne.symm hid)]
      simp only [Function.update_of_ne hid]
      exact hk.saved t hlt hne
  · rw [createTask_full taskCode hroom]
    exact ⟨hk.saved, hk.fresh⟩

/-- **One call of `schedule`.** It returns with the stack pointer that the resumed
task is to have, and writes only the caller's entry. -/
theorem schedule_ok {k : Kernel} (hs : Scheduling k) (hc : Contexts k) (esp : UInt32) :
    ∃ ret k', schedule esp k = .ok (ret, k') ∧ Scheduling k' ∧ Contexts k' ∧
      expectedEsp k'.currentTask k'.events = some ret ∧
      k'.taskCount = k.taskCount ∧
      (∀ t, t ≠ k.currentTask → (k'.tasks t).esp = (k.tasks t).esp) ∧
      ∀ t, Active k.tasks t → k'.currentTask = t ∨
        gap k'.currentTask t < gap k.currentTask t := by
  rcases schedule_cases hs esp with ⟨hone, hrun⟩ | ⟨l, z, hw, hrun⟩
  · refine ⟨_, _, hrun,
      ⟨hs.active_iff, hs.id_eq, hs.count_pos, hs.count_le, hs.current_lt⟩,
      ⟨fun t ht hne => ?_, fun t ht => ?_⟩, ?_, rfl, fun _ _ => rfl, fun t ht => ?_⟩
    · rw [expectedEsp_scheduled, if_neg (Ne.symm hne)]
      exact hc.saved t ht hne
    · simp only [lastPreempted, if_neg (hs.current_ne ht)]
      exact hc.fresh t ht
    · rw [expectedEsp_scheduled, if_pos rfl]
    · -- the only task there is
      have hcur := hs.current_lt
      have hlt := (hs.active_iff t).mp ht
      have heq : k.currentTask = t := Fin.ext (by omega)
      exact Or.inl heq
  · have hz := (hs.active_iff z).mp hw.active_end
    refine ⟨_, _, hrun, ⟨?_, ?_, hs.count_pos, hs.count_le, hz⟩,
      ⟨fun t ht _ => hc.saveEsp esp _ z ht, fun t ht => ?_⟩, hc.saveEsp esp _ z hz, rfl,
      fun t hne => saveEsp_esp_of_ne hne, fun t ht => hw.eq_or_gap_lt ht⟩
    · simp only [active_saveEsp]
      exact hs.active_iff
    · simp only [active_saveEsp, saveEsp_id]
      exact hs.id_eq
    · simp only [lastPreempted, if_neg (hs.current_ne ht)]
      exact hc.fresh t ht

/-! ## Runs -/

/-- Both invariants hold after every call, whatever the state. -/
theorem execTask_ok {k : Kernel} (hs : Scheduling k) (hc : Contexts k)
    (call : TaskCall) :
    ∃ k', execTask call k = .ok k' ∧ Scheduling k' ∧ Contexts k' := by
  cases call with
  | createTask taskCode =>
      exact ⟨_, rfl, scheduling_createTask hs taskCode, contexts_createTask hc taskCode⟩
  | schedule esp =>
      obtain ⟨ret, k', hrun, hs', hc', -⟩ := schedule_ok hs hc esp
      exact ⟨k', by simp only [execTask, hrun], hs', hc'⟩

theorem runs_execTask (k : Kernel) (calls : List TaskCall) :
    ∃ k', runs execTask calls (initMultitasking k) = .ok k' ∧
      Scheduling k' ∧ Contexts k' :=
  runs_invariant (fun call _ h _ => execTask_ok h.1 h.2 call) calls _
    ⟨scheduling_initMultitasking k, contexts_initMultitasking k⟩ (guarded_true _ _)

/-- A task stays active. -/
theorem active_execTask {k k' : Kernel} {t : TaskId} (hs : Scheduling k)
    (hc : Contexts k) (ht : Active k.tasks t) {call : TaskCall}
    (h : execTask call k = .ok k') (hs' : Scheduling k') : Active k'.tasks t := by
  rw [hs'.active_iff]
  have hlt := (hs.active_iff t).mp ht
  cases call with
  | createTask taskCode =>
      obtain rfl := Except.ok.inj h
      exact Nat.lt_of_lt_of_le hlt (taskCount_le_createTask taskCode k)
  | schedule esp =>
      obtain ⟨ret, k1, hrun, -, -, -, hcount, -⟩ := schedule_ok hs hc esp
      simp only [execTask, hrun] at h
      obtain rfl := Except.ok.inj h
      rw [hcount]
      exact hlt

theorem execTask_schedule {k k2 : Kernel} {esp : UInt32}
    (h : execTask (.schedule esp) k = .ok k2) : ∃ ret, schedule esp k = .ok (ret, k2) := by
  simp only [execTask] at h
  split at h
  · next ret k' hrun =>
      obtain rfl := Except.ok.inj h
      exact ⟨ret, hrun⟩
  · cases h

/-- **Fairness.** Among the next calls with three of `schedule`, one resumes `t`. -/
theorem resumed_within {k : Kernel} {t : TaskId} (hs : Scheduling k) (hc : Contexts k)
    (ht : Active k.tasks t) {later : List TaskCall}
    (hlater : later.countP TaskCall.isSchedule = maxTask) :
    ∃ pre esp post k1 ret k2, later = pre ++ .schedule esp :: post ∧
      runs execTask pre k = .ok k1 ∧ schedule esp k1 = .ok (ret, k2) ∧
      k2.currentTask = t := by
  have htick : ∀ call k, Scheduling k ∧ Contexts k ∧ Active k.tasks t →
      TaskCall.isSchedule call = true → ∃ k', execTask call k = .ok k' ∧
        (k'.currentTask = t ∨ ((Scheduling k' ∧ Contexts k' ∧ Active k'.tasks t) ∧
          gap k'.currentTask t < gap k.currentTask t)) := by
    rintro (taskCode | esp) k ⟨hs, hc, ht⟩ hcall
    · cases hcall
    · obtain ⟨ret, k', hrun, hs', hc', -, -, -, hgap⟩ := schedule_ok hs hc esp
      have hexec : execTask (.schedule esp) k = .ok k' := by simp only [execTask, hrun]
      exact ⟨k', hexec, (hgap t ht).imp id fun hlt =>
        ⟨⟨hs', hc', active_execTask hs hc ht hexec hs'⟩, hlt⟩⟩
  have hother : ∀ call k, Scheduling k ∧ Contexts k ∧ Active k.tasks t →
      TaskCall.isSchedule call = false → ∃ k', execTask call k = .ok k' ∧
        (Scheduling k' ∧ Contexts k' ∧ Active k'.tasks t) ∧
          gap k'.currentTask t ≤ gap k.currentTask t := by
    rintro (taskCode | esp) k ⟨hs, hc, ht⟩ hcall
    · have hs' := scheduling_createTask hs taskCode
      have hexec : execTask (.createTask taskCode) k = .ok (createTask taskCode k) := rfl
      exact ⟨_, hexec, ⟨hs', contexts_createTask hc taskCode,
        active_execTask hs hc ht hexec hs'⟩, by rw [currentTask_createTask]⟩
    · cases hcall
  obtain ⟨pre, call, post, k1, k2, rfl, hcall, hpre, hstep, hhit⟩ :=
    runs_hit TaskCall.isSchedule (fun k => Scheduling k ∧ Contexts k ∧ Active k.tasks t)
      (fun k => k.currentTask = t) (fun k => gap k.currentTask t)
      (fun k _ => gap_pos k.currentTask t) htick hother later k ⟨hs, hc, ht⟩
      (by rw [hlater]; exact gap_le k.currentTask t)
  cases call with
  | createTask _ => cases hcall
  | schedule esp =>
      obtain ⟨ret, hrun⟩ := execTask_schedule hstep
      exact ⟨pre, esp, post, k1, ret, k2, rfl, hpre, hrun, hhit⟩

/-- **Round robin.** After any calls from `init_multitasking`, the table is in
order; `schedule` returns, with the stack pointer that the task it resumes was
last preempted or created with, and alters no other task's; and every active
task is resumed within the next three calls of it. -/
theorem schedule_roundRobin (k : Kernel) (calls : List TaskCall) :
    ∃ k', runs execTask calls (initMultitasking k) = .ok k' ∧ Scheduling k' ∧
      (∀ esp, ∃ ret k'', schedule esp k' = .ok (ret, k'') ∧
        expectedEsp k''.currentTask k''.events = some ret ∧
        ∀ t, t ≠ k'.currentTask → (k''.tasks t).esp = (k'.tasks t).esp) ∧
      ∀ t, Active k'.tasks t → ∀ later : List TaskCall,
        later.countP TaskCall.isSchedule = maxTask →
        ∃ pre esp post k1 ret k2, later = pre ++ .schedule esp :: post ∧
          runs execTask pre k' = .ok k1 ∧ schedule esp k1 = .ok (ret, k2) ∧
          k2.currentTask = t := by
  obtain ⟨k', hrun, hs, hc⟩ := runs_execTask k calls
  refine ⟨k', hrun, hs, fun esp => ?_, fun t ht later hlater =>
    resumed_within hs hc ht hlater⟩
  obtain ⟨ret, k'', hsched, -, -, hret, -, hframe, -⟩ := schedule_ok hs hc esp
  exact ⟨ret, k'', hsched, hret, hframe⟩

end FirstKernel
