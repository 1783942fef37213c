import Mathlib.Data.Set.Basic
import FirstKernel.Gdt
import FirstKernel.TaskStart

/-!
# Interrupted tasks

An interrupt pushes what the processor needs to return, on the stack of
the task or, from user mode, on the one that the TSS names; `isr32`,
`isr33` and `isr44` push the other registers, call their handlers and pop
everything again, `isr32` from the stack that `schedule` returned.

Tasks compute and are interrupted in any order here. As long as each task
keeps to its own stack, it finds the registers with which it was preempted
when it is resumed (`interrupts_transparent`). The general registers are
left in peace by the handlers because they are on the stack; of the
segments only `ds` is, and the other three are loaded from it.
-/

namespace FirstKernel

open Memory RoundRobin

/-- The processor with its stack segment, which an interrupt in user mode saves too. -/
structure Processor extends Cpu where
  ss : UInt16

namespace Processor

/-- The privilege level is in the two low bits of the code segment. -/
def inKernel (p : Processor) : Bool := p.cs &&& 3 == 0

/-- Where an interrupt pushes. -/
def interruptStack (tss : TssEntry) (p : Processor) : UInt32 :=
  if p.inKernel then p.esp else tss.esp0

/-- What an interrupt pushes. -/
def interruptWords (p : Processor) : List UInt32 :=
  (if p.inKernel then [] else [p.ss.toUInt32, p.esp]) ++ [p.eflags, p.cs.toUInt32, p.eip]

/-- An interrupt through a gate of the kernel, which clears the flags IF, TF, NT, RF and VM. -/
def interrupt (tss : TssEntry) (handler : UInt32) (p : Processor) (m : Memory) :
    Processor × Memory :=
  let (esp, m) := pushAll p.interruptWords (p.interruptStack tss, m)
  ({ p with
    esp := esp
    ss := if p.inKernel then p.ss else tss.ss0.toUInt16
    eip := handler
    cs := 0x08
    eflags := p.eflags &&& ~~~0x34300 }, m)

/-- `iretd` in the kernel, which takes the stack back as well on the way to user mode. -/
def iretd (m : Memory) (p : Processor) : Processor :=
  let cpu := Cpu.iretd m p.toCpu
  if cpu.cs &&& 3 == 0 then { p with toCpu := cpu }
  else
    let (esp, cpu) := cpu.pop m
    let (ss, cpu) := cpu.pop m
    { toCpu := { cpu with esp := esp }, ss := ss.toUInt16 }

/-- What `isr32`, `isr33` and `isr44` do before they call a handler. -/
def enter (tss : TssEntry) (handler : UInt32) (p : Processor) (m : Memory) :
    UInt32 × Processor × Memory :=
  let (p, m) := p.interrupt tss handler m
  let (esp, m) := isr32Prologue p.toCpu m
  (esp, { p with esp := esp, ds := 0x10, es := 0x10, fs := 0x10, gs := 0x10 }, m)

/-- What they do from `pop eax` on. -/
def leave (m : Memory) (esp : UInt32) (p : Processor) : Processor :=
  iretd m { p with
    toCpu := Cpu.popa m (Cpu.popSegments m { p.toCpu with esp := esp, reads := [] }) }

/-- The task of `p` goes on: three segments are those of its data, and the stack segment is
its own unless it has been in the kernel all along. -/
def Resumes (p p' : Processor) : Prop :=
  ∃ reads ss, p' = { p with es := p.ds, fs := p.ds, gs := p.ds, reads := reads, ss := ss } ∧
    (p.inKernel = false → ss = p.ss)

end Processor

/-! ## Contexts on a stack -/

namespace Processor

/-- Everything that is pushed for a task. -/
def context (tss : TssEntry) (p : Processor) : List UInt32 :=
  p.interruptWords ++ contextWords
    { p.toCpu with esp := p.interruptStack tss - UInt32.ofNat (4 * p.interruptWords.length) }

/-- The stack pointer after that. -/
def contextEsp (tss : TssEntry) (p : Processor) : UInt32 :=
  p.interruptStack tss - UInt32.ofNat (4 * (p.context tss).length)

theorem length_context (tss : TssEntry) (p : Processor) :
    (p.context tss).length = if p.inKernel then 12 else 14 := by
  cases h : p.inKernel <;> simp [context, interruptWords, contextWords, h]

theorem length_context_le (tss : TssEntry) (p : Processor) : (p.context tss).length ≤ 14 := by
  rw [length_context]
  split <;> omega

/-- The words are pushed in one go. -/
theorem enter_eq (tss : TssEntry) (handler : UInt32) (p : Processor) (m : Memory) :
    ((p.enter tss handler m).1, (p.enter tss handler m).2.2) =
      pushAll (p.context tss) (p.interruptStack tss, m) := by
  rw [context, pushAll, List.foldl_append, ← pushAll_fst p.interruptWords _ m]
  rfl

theorem enter_fst (tss : TssEntry) (handler : UInt32) (p : Processor) (m : Memory) :
    (p.enter tss handler m).1 = p.contextEsp tss :=
  (congrArg Prod.fst (p.enter_eq tss handler m)).trans (pushAll_fst _ _ _)

theorem enter_snd (tss : TssEntry) (handler : UInt32) (p : Processor) (m : Memory) :
    (p.enter tss handler m).2.2 = (pushAll (p.context tss) (p.interruptStack tss, m)).2 :=
  congrArg Prod.snd (p.enter_eq tss handler m)

end Processor

/-- The `n` bytes from an address on. -/
def span (a : UInt32) (n : Nat) : Set UInt32 := {b | (b - a).toNat < n}

/-- The context of a task is on its stack. -/
structure Saved (tss : TssEntry) (m : Memory) (esp : UInt32) (p : Processor) : Prop where
  esp_eq : esp = p.contextEsp tss
  words : ∀ j w, (p.context tss).reverse[j]? = some w → wordAt m esp j = w

theorem saved_enter (tss : TssEntry) (handler : UInt32) (p : Processor) (m : Memory) :
    Saved tss (p.enter tss handler m).2.2 (p.contextEsp tss) p := by
  refine ⟨rfl, fun j w hw => ?_⟩
  have hlen := p.length_context_le tss
  have hword := wordAt_pushAll (p.interruptStack tss) m (by omega) hw
  rw [← p.enter_eq tss handler m] at hword
  rw [← p.enter_fst tss handler m]
  exact hword

theorem Saved.congr {tss : TssEntry} {m m' : Memory} {esp : UInt32} {p : Processor}
    (h : Saved tss m esp p) (hm : ∀ a ∈ span esp (4 * (p.context tss).length), m' a = m a) :
    Saved tss m' esp p := by
  refine ⟨h.esp_eq, fun j w hw => ?_⟩
  have hj : j < (p.context tss).length := by
    have hlt := (List.getElem?_eq_some_iff.mp hw).1
    rwa [List.length_reverse] at hlt
  have hlen := p.length_context_le tss
  refine Eq.trans (load_congr fun k hk => hm k ?_) (h.words j w hw)
  show (k - esp).toNat < _
  simp only [UInt32.toNat_sub, UInt32.toNat_add, UInt32.toNat_ofNat'] at hk ⊢
  have := k.toNat_lt
  have := esp.toNat_lt
  omega

/-- An interrupt writes only the context. -/
theorem enter_snd_of_notMem {tss : TssEntry} {handler a : UInt32} {p : Processor} {m : Memory}
    (h : a ∉ span (p.contextEsp tss) (4 * (p.context tss).length)) :
    (p.enter tss handler m).2.2 a = m a := by
  rw [p.enter_snd, pushAll_snd]
  refine storeBytes_of_ge m ?_
  rw [length_flatMap_bytes32, List.length_reverse]
  exact Nat.not_lt.mp h

theorem toUInt16_low_or_high (eax : UInt32) (ds : UInt16) :
    (eax &&& 0xFFFF0000 ||| ds.toUInt32).toUInt16 = ds := by
  have hhigh : (0xFFFF0000 : UInt16) = 0 := rfl
  simp [hhigh]

/-- The words in the order in which they are popped; the stack pointer in `pusha` is not used. -/
theorem reverse_context (tss : TssEntry) (p : Processor) : ∃ esp, (p.context tss).reverse =
    [p.eax &&& 0xFFFF0000 ||| p.ds.toUInt32, p.edi, p.esi, p.ebp, esp, p.ebx, p.edx, p.ecx, p.eax,
      p.eip, p.cs.toUInt32, p.eflags] ++ if p.inKernel then [] else [p.esp, p.ss.toUInt32] := by
  refine ⟨p.interruptStack tss - UInt32.ofNat (4 * p.interruptWords.length), ?_⟩
  cases hmode : p.inKernel <;>
    simp [Processor.context, Processor.interruptWords, contextWords, hmode]

/-- **The epilogue restores what is on the stack.** -/
theorem Saved.resumes {tss : TssEntry} {m : Memory} {esp : UInt32} {p : Processor}
    (h : Saved tss m esp p) (q : Processor) : p.Resumes (q.leave m esp) := by
  obtain ⟨skipped, hreverse⟩ := reverse_context tss p
  have hword : ∀ j w, (p.context tss).reverse[j]? = some w → wordAt m esp j = w := h.words
  rw [hreverse] at hword
  have hcs : (wordAt m esp 10).toUInt16 = p.cs := by
    rw [hword 10 p.cs.toUInt32 rfl]
    simp
  have hds : (wordAt m esp 0).toUInt16 = p.ds := by
    rw [hword 0 _ rfl, toUInt16_low_or_high]
  have hepilogue : Cpu.iretd m (Cpu.popa m (Cpu.popSegments m
      { q.toCpu with esp := esp, reads := [] })) = isr32Epilogue m esp q.toCpu := rfl
  rw [Processor.leave, Processor.iretd, hepilogue, isr32Epilogue_eq]
  simp only [hcs, hds, hword 1 p.edi rfl, hword 2 p.esi rfl, hword 3 p.ebp rfl,
    hword 5 p.ebx rfl, hword 6 p.edx rfl, hword 7 p.ecx rfl, hword 8 p.eax rfl,
    hword 9 p.eip rfl, hword 11 p.eflags rfl]
  have hlen := p.length_context tss
  cases hmode : p.inKernel with
  | true =>
      rw [if_pos (show (p.cs &&& 3 == 0) = true from hmode)]
      have hesp : esp + 48 = p.esp := by
        rw [h.esp_eq, Processor.contextEsp, hlen, Processor.interruptStack, hmode]
        simp
      exact ⟨_, q.ss, by rw [hesp], fun hfalse => absurd (hmode.symm.trans hfalse) (by decide)⟩
  | false =>
      rw [if_neg (by rw [show (p.cs &&& 3 == 0) = false from hmode]; exact Bool.false_ne_true)]
      rw [hmode] at hword
      have hesp : m.load (esp + 48) = p.esp := hword 12 p.esp rfl
      have hss : (m.load (esp + 48 + 4)).toUInt16 = p.ss := by
        have hload : m.load (esp + UInt32.ofNat (4 * 13)) = p.ss.toUInt32 := hword 13 _ rfl
        rw [UInt32.add_assoc]
        exact (congrArg UInt32.toUInt16 hload).trans (by simp)
      simp only [Cpu.pop, hesp, hss]
      exact ⟨_, _, rfl, fun _ => rfl⟩

/-! ## Tasks and interrupts -/

/-- Each task's own stack; the stack that the TSS names belongs to the task in user mode. -/
structure Stacks where
  region : TaskId → Set UInt32
  disjoint : ∀ t u a, a ∈ region t → a ∈ region u → t = u

/-- The bytes that an interrupt pushes for a task. -/
def Processor.contextBytes (tss : TssEntry) (p : Processor) : Set UInt32 :=
  span (p.contextEsp tss) (4 * (p.context tss).length)

theorem Saved.of_kept {areas : Stacks} {tss : TssEntry} {m m' : Memory} {esp : UInt32}
    {p : Processor} {t : TaskId} (h : Saved tss m esp p)
    (hin : p.contextBytes tss ⊆ areas.region t) (hm : ∀ a ∈ areas.region t, m' a = m a) :
    Saved tss m' esp p := by
  refine h.congr fun a ha => hm a (hin ?_)
  rw [h.esp_eq] at ha
  exact ha

/-- The processor and the kernel, with a trace that no step reads: the processor as it was when
each task was last preempted. -/
structure Running where
  cpu : Processor
  kernel : Kernel
  preempted : TaskId → Option Processor

/-- What happens next: the current task computes, or it is interrupted. An interrupt comes with
the memory as the handler leaves it, which has used the stack as well. The keyboard handler may
have run a command that starts a task. -/
inductive Happening where
  | compute (cpu : Processor) (memory : Memory)
  | timer (left : Memory)
  | device (vector : Nat) (taskCode : Option UInt32) (left : Memory)

namespace Running

section

variable (tss : TssEntry) (isr : Nat → UInt32)

/-- The kernel when `isr32` calls its handler. -/
def entered (vector : Nat) (s : Running) : Kernel :=
  { s.kernel with memory := (s.cpu.enter tss (isr vector) s.kernel.memory).2.2 }

/-- `isr32` -/
def timer (left : Memory) (s : Running) : Except Fault Running :=
  let (esp, cpu, _) := s.cpu.enter tss (isr 32) s.kernel.memory
  match schedule esp (s.entered tss isr 32) with
  | .ok (esp, kernel) =>
      .ok
        { cpu := cpu.leave left esp
          kernel := { kernel with memory := left }
          preempted := Function.update s.preempted s.kernel.currentTask (some s.cpu) }
  | .error e => .error e

/-- The kernel when the handler of `isr33` or `isr44` returns, but for its use of the stack. -/
def served (vector : Nat) (taskCode : Option UInt32) (s : Running) : Kernel :=
  match taskCode with
  | none => s.entered tss isr vector
  | some taskCode => createTask taskCode (s.entered tss isr vector)

/-- `isr33` and `isr44` -/
def device (vector : Nat) (taskCode : Option UInt32) (left : Memory) (s : Running) : Running :=
  let (esp, cpu, _) := s.cpu.enter tss (isr vector) s.kernel.memory
  { s with
    cpu := cpu.leave left esp
    kernel := { s.served tss isr vector taskCode with memory := left } }

def exec : Happening → Running → Except Fault Running
  | .compute cpu memory, s =>
      .ok { s with cpu := cpu, kernel := { s.kernel with memory := memory } }
  | .timer left, s => s.timer tss isr left
  | .device vector taskCode left, s => .ok (s.device tss isr vector taskCode left)

end

/-- The stacks of the other tasks are as they were. -/
def OthersKept (areas : Stacks) (s : Running) (m m' : Memory) : Prop :=
  ∀ t, t.val < s.kernel.taskCount → t ≠ s.kernel.currentTask → ∀ a ∈ areas.region t, m' a = m a

/-- An interrupt finds room on the stack of the task, and the handler leaves what was pushed and
the stacks of the other tasks as they are. -/
structure RoomFor (areas : Stacks) (tss : TssEntry) (s : Running) (m left : Memory) : Prop where
  own : s.cpu.contextBytes tss ⊆ areas.region s.kernel.currentTask
  context : ∀ a ∈ s.cpu.contextBytes tss, left a = m a
  others : s.OthersKept areas m left

/-- Each task keeps to its own stack, and a new one has its frame for one. -/
def Keeps (areas : Stacks) (tss : TssEntry) (isr : Nat → UInt32) : Happening → Running → Prop
  | .compute _ memory, s => s.OthersKept areas s.kernel.memory memory
  | .timer left, s => s.RoomFor areas tss (s.entered tss isr 32).memory left
  | .device vector taskCode left, s =>
      s.RoomFor areas tss (s.served tss isr vector taskCode).memory left ∧
        (taskCode ≠ none → ∀ h : s.kernel.taskCount < maxTask,
          span (newEsp s.kernel) 44 ⊆ areas.region ⟨s.kernel.taskCount, h⟩)

/-! ## The invariant -/

/-- The context of every task that was preempted is where its entry in the table says. -/
structure Switching (areas : Stacks) (tss : TssEntry) (s : Running) : Prop where
  scheduling : Scheduling s.kernel
  saved : ∀ t p, s.preempted t = some p → t ≠ s.kernel.currentTask →
    t.val < s.kernel.taskCount ∧ Saved tss s.kernel.memory (s.kernel.tasks t).esp p ∧
      p.contextBytes tss ⊆ areas.region t

variable {areas : Stacks} {tss : TssEntry} {isr : Nat → UInt32} {s : Running}

/-- The table is in order whatever the memory holds. -/
theorem scheduling_withMemory {k : Kernel} (h : Scheduling k) (m : Memory) :
    Scheduling { k with memory := m } :=
  ⟨h.active_iff, h.id_eq, h.count_pos, h.count_le, h.current_lt⟩

/-- An interrupt that finds room leaves the stacks of the other tasks alone. -/
theorem othersKept_entered (isr : Nat → UInt32) (vector : Nat)
    (hown : s.cpu.contextBytes tss ⊆ areas.region s.kernel.currentTask) :
    s.OthersKept areas s.kernel.memory (s.entered tss isr vector).memory := by
  intro t _ hne a ha
  refine enter_snd_of_notMem fun hin => hne ?_
  exact areas.disjoint t _ a ha (hown hin)

theorem OthersKept.trans {m m' m'' : Memory} (h : s.OthersKept areas m m')
    (h' : s.OthersKept areas m' m'') : s.OthersKept areas m m'' :=
  fun t ht hne a ha => (h' t ht hne a ha).trans (h t ht hne a ha)

theorem Switching.saved_of_kept (h : Switching areas tss s) {m : Memory}
    (hm : s.OthersKept areas s.kernel.memory m) {t : TaskId} {p : Processor}
    (hp : s.preempted t = some p) (hne : t ≠ s.kernel.currentTask) :
    t.val < s.kernel.taskCount ∧ Saved tss m (s.kernel.tasks t).esp p ∧
      p.contextBytes tss ⊆ areas.region t := by
  obtain ⟨ht, hsaved, hin⟩ := h.saved t p hp hne
  exact ⟨ht, hsaved.of_kept hin (hm t ht hne), hin⟩

/-- The interrupted task has its context where the handler finds it and leaves it. -/
theorem saved_current (isr : Nat → UInt32) (vector : Nat) {left : Memory}
    (hleft : ∀ a ∈ s.cpu.contextBytes tss, left a = (s.entered tss isr vector).memory a) :
    Saved tss left (s.cpu.contextEsp tss) s.cpu :=
  (saved_enter tss (isr vector) s.cpu s.kernel.memory).congr hleft

/-- What the timer interrupt does: the task that goes on is the one it was when it was last
preempted, and every other task is nearer to its turn. -/
structure Switched (s s' : Running) : Prop where
  resumes : ∀ p, s'.preempted s'.kernel.currentTask = some p → p.Resumes s'.cpu
  preempted_eq : ∀ t, t ≠ s.kernel.currentTask → s'.preempted t = s.preempted t
  turn : ∀ t : TaskId, t.val < s.kernel.taskCount → s'.kernel.currentTask = t ∨
    gap s'.kernel.currentTask t < gap s.kernel.currentTask t

/-- **Timer.** -/
theorem Switching.timer (h : Switching areas tss s) {left : Memory}
    (hroom : s.RoomFor areas tss (s.entered tss isr 32).memory left) :
    ∃ s', s.timer tss isr left = .ok s' ∧ Switching areas tss s' ∧ Switched s s' := by
  have hkept := (othersKept_entered isr 32 hroom.own).trans hroom.others
  have hcurrent : Saved tss left (s.cpu.contextEsp tss) s.cpu := saved_current isr 32 hroom.context
  have hsched : Scheduling (s.entered tss isr 32) := scheduling_withMemory h.scheduling _
  have hesp : (s.cpu.enter tss (isr 32) s.kernel.memory).1 = s.cpu.contextEsp tss :=
    s.cpu.enter_fst tss _ _
  unfold Running.timer
  simp only [hesp]
  rcases schedule_cases hsched (s.cpu.contextEsp tss) with ⟨hone, hrun⟩ | ⟨l, z, hsearch, hrun⟩
  · rw [hrun]
    refine ⟨_, rfl, ⟨?_, fun t p hp hne => ?_⟩, fun p hp => ?_,
      fun t hne => Function.update_of_ne hne _ _, fun t ht => ?_⟩
    · exact ⟨h.scheduling.active_iff, h.scheduling.id_eq, h.scheduling.count_pos,
        h.scheduling.count_le, h.scheduling.current_lt⟩
    · have hne : t ≠ s.kernel.currentTask := hne
      have hupdate : Function.update s.preempted s.kernel.currentTask (some s.cpu) t = some p := hp
      rw [Function.update_of_ne hne] at hupdate
      exact h.saved_of_kept hkept hupdate hne
    · have hupdate : Function.update s.preempted s.kernel.currentTask (some s.cpu)
        s.kernel.currentTask = some p := hp
      rw [Function.update_self] at hupdate
      obtain rfl := Option.some.inj hupdate
      exact hcurrent.resumes _
    · -- there is only one task
      have hone : s.kernel.taskCount = 1 := hone
      have hcur := h.scheduling.current_lt
      exact Or.inl (Fin.ext (show s.kernel.currentTask.val = t.val by omega))
  · have hz := (hsched.active_iff z).mp hsearch.active_end
    have hall : ∀ t p, Function.update s.preempted s.kernel.currentTask (some s.cpu) t = some p →
        t.val < s.kernel.taskCount ∧
          Saved tss left (saveEsp (s.cpu.contextEsp tss) (s.entered tss isr 32) t).esp p ∧
          p.contextBytes tss ⊆ areas.region t := by
      intro t p hp
      by_cases ht : t = s.kernel.currentTask
      · subst ht
        rw [Function.update_self] at hp
        obtain rfl := Option.some.inj hp
        have hself := saveEsp_esp_self (s.cpu.contextEsp tss) (s.entered tss isr 32)
        refine ⟨h.scheduling.current_lt, ?_, hroom.own⟩
        rw [show s.kernel.currentTask = (s.entered tss isr 32).currentTask from rfl, hself]
        exact hcurrent
      · rw [Function.update_of_ne ht] at hp
        have hesp : (saveEsp (s.cpu.contextEsp tss) (s.entered tss isr 32) t).esp =
            (s.kernel.tasks t).esp := saveEsp_esp_of_ne ht
        rw [hesp]
        exact h.saved_of_kept hkept hp ht
    rw [hrun]
    refine ⟨_, rfl, ⟨⟨?_, ?_, hsched.count_pos, hsched.count_le, hz⟩,
      fun t p hp _ => hall t p hp⟩, fun p hp => ?_,
      fun t hne => Function.update_of_ne hne _ _,
      fun t ht => hsearch.eq_or_gap_lt ((hsched.active_iff t).mpr ht)⟩
    · simp only [active_saveEsp]
      exact hsched.active_iff
    · simp only [active_saveEsp, saveEsp_id]
      exact hsched.id_eq
    · obtain ⟨-, hsaved, -⟩ := hall z p hp
      exact hsaved.resumes _

/-- A new task is laid out in its own stack. -/
theorem served_memory {vector : Nat} {taskCode : Option UInt32}
    (hnew : taskCode ≠ none → ∀ h : s.kernel.taskCount < maxTask,
      span (newEsp s.kernel) 44 ⊆ areas.region ⟨s.kernel.taskCount, h⟩)
    {t : TaskId} (ht : t.val < s.kernel.taskCount) {a : UInt32} (ha : a ∈ areas.region t) :
    (s.served tss isr vector taskCode).memory a = (s.entered tss isr vector).memory a := by
  cases taskCode with
  | none => rfl
  | some taskCode =>
      rw [served]
      by_cases hroom : s.kernel.taskCount < maxTask
      · have hstored := memory_createTask (k := s.entered tss isr vector) taskCode hroom
        rw [hstored]
        refine storeBytes_of_ge _ ?_
        rw [length_newStackBytes]
        by_contra hlt
        have hin := hnew (Option.some_ne_none taskCode) hroom (Nat.not_le.mp hlt)
        have heq := areas.disjoint t _ a ha hin
        rw [heq] at ht
        exact Nat.lt_irrefl _ ht
      · have hfull := createTask_full (k := s.entered tss isr vector) taskCode hroom
        rw [hfull]

/-- Starting a task leaves the others as they are. -/
theorem served_ok (tss : TssEntry) (isr : Nat → UInt32) (h : Scheduling s.kernel) (vector : Nat)
    (taskCode : Option UInt32) :
    Scheduling (s.served tss isr vector taskCode) ∧
      (s.served tss isr vector taskCode).currentTask = s.kernel.currentTask ∧
      s.kernel.taskCount ≤ (s.served tss isr vector taskCode).taskCount ∧
      ∀ t : TaskId, t.val < s.kernel.taskCount →
        (s.served tss isr vector taskCode).tasks t = s.kernel.tasks t := by
  have hentered : Scheduling (s.entered tss isr vector) := scheduling_withMemory h _
  cases taskCode with
  | none => exact ⟨hentered, rfl, Nat.le_refl _, fun _ _ => rfl⟩
  | some taskCode =>
      exact ⟨scheduling_createTask hentered taskCode,
        currentTask_createTask taskCode (s.entered tss isr vector),
        taskCount_le_createTask taskCode (s.entered tss isr vector),
        fun t ht => tasks_createTask_of_ne (k := s.entered tss isr vector) taskCode
          (Nat.ne_of_lt ht)⟩

/-- **Devices.** The interrupted task goes on. -/
theorem Switching.device (h : Switching areas tss s) {vector : Nat} {taskCode : Option UInt32}
    {left : Memory} (hkeeps : Keeps areas tss isr (.device vector taskCode left) s) :
    Switching areas tss (s.device tss isr vector taskCode left) ∧
      s.cpu.Resumes (s.device tss isr vector taskCode left).cpu ∧
      (s.device tss isr vector taskCode left).kernel.currentTask = s.kernel.currentTask := by
  obtain ⟨hroom, hnew⟩ := hkeeps
  have hserved : ∀ t : TaskId, t.val < s.kernel.taskCount → ∀ a ∈ areas.region t,
      (s.served tss isr vector taskCode).memory a = (s.entered tss isr vector).memory a :=
    fun t ht a ha => served_memory hnew ht ha
  have hkept : s.OthersKept areas s.kernel.memory left :=
    (othersKept_entered isr vector hroom.own).trans
      (OthersKept.trans (fun t ht _ a ha => hserved t ht a ha) hroom.others)
  have hcurrent : Saved tss left (s.cpu.contextEsp tss) s.cpu :=
    saved_current isr vector fun a ha => (hroom.context a ha).trans
      (hserved _ h.scheduling.current_lt a (hroom.own ha))
  have hesp : (s.cpu.enter tss (isr vector) s.kernel.memory).1 = s.cpu.contextEsp tss :=
    s.cpu.enter_fst tss _ _
  obtain ⟨hsched, hcur, hcount, htasks⟩ :=
    served_ok tss isr h.scheduling vector taskCode
  unfold Running.device
  simp only [hesp]
  refine ⟨⟨scheduling_withMemory hsched left, fun t p hp hne => ?_⟩, hcurrent.resumes _, hcur⟩
  simp only [hcur] at hne
  obtain ⟨ht, hsaved, hin⟩ := h.saved_of_kept hkept hp hne
  simp only [htasks t ht]
  exact ⟨Nat.lt_of_lt_of_le ht hcount, hsaved, hin⟩

theorem Switching.exec (isr : Nat → UInt32) (h : Switching areas tss s) {happening : Happening}
    (hkeeps : Keeps areas tss isr happening s) :
    ∃ s', exec tss isr happening s = .ok s' ∧ Switching areas tss s' := by
  cases happening with
  | compute cpu memory =>
      exact ⟨_, rfl, scheduling_withMemory h.scheduling memory,
        fun t p hp hne => h.saved_of_kept hkeeps hp hne⟩
  | timer left =>
      obtain ⟨s', hrun, hs', -⟩ := h.timer hkeeps
      exact ⟨s', hrun, hs'⟩
  | device vector taskCode left => exact ⟨_, rfl, (h.device hkeeps).1⟩

/-! ## Runs -/

def isTimer : Happening → Bool
  | .timer _ => true
  | _ => false

/-- The first task, before anything has happened. -/
def start (cpu : Processor) (k : Kernel) : Running := ⟨cpu, initMultitasking k, fun _ => none⟩

theorem switching_start (areas : Stacks) (tss : TssEntry) (cpu : Processor) (k : Kernel) :
    Switching areas tss (start cpu k) :=
  ⟨scheduling_initMultitasking k, fun _ _ hp => by cases hp⟩

theorem switching_runs (cpu : Processor) (k : Kernel) {happenings : List Happening}
    (hkeeps : Guarded (exec tss isr) (Keeps areas tss isr) happenings (start cpu k)) :
    ∃ s, runs (exec tss isr) happenings (start cpu k) = .ok s ∧ Switching areas tss s :=
  runs_invariant (fun _ _ h hkeeps => h.exec isr hkeeps) happenings _
    (switching_start areas tss cpu k) hkeeps

/-- The page of a task: the frame allocator starts at page 256. -/
def pageOf (t : TaskId) : Nat := if t = 0 then 8 else 255 + t.val

theorem pageOf_inj : ∀ t u, pageOf t = pageOf u → t = u := by decide

def pages : Stacks where
  region t := {a | a.toNat / 4096 = pageOf t}
  disjoint t u _ ht hu := pageOf_inj t u (Eq.trans (Eq.symm ht) hu)

/-- The stack of the TSS is the second half of the page of the first task. -/
def pageTss : TssEntry := { TssEntry.zeros with esp0 := 0x9000 }

/-- A task in the kernel with its stack pointer in the middle of a page. -/
def inPage (page : UInt32) : Processor :=
  { bootCpu with esp := page * 4096 + 2048, ss := 0x10 }

theorem contextBytes_inPage (tss : TssEntry) (page : UInt32) :
    (inPage page).contextBytes tss = span (page * 4096 + 2048 - 48) 48 := by
  have hmode : (inPage page).inKernel = true := by
    show ((0x08 : UInt16) &&& 3 == 0) = true
    decide
  rw [Processor.contextBytes, Processor.contextEsp, Processor.length_context,
    Processor.interruptStack, hmode]
  rfl

/-- A task in its page has room for an interrupt. -/
theorem roomFor_inPage {tss : TssEntry} {s : Running} (page : UInt32) {m : Memory}
    (hcpu : s.cpu = inPage page) (hpage : page.toNat = pageOf s.kernel.currentTask) :
    s.RoomFor pages tss m m := by
  refine ⟨fun a ha => ?_, fun _ _ => rfl, fun _ _ _ _ _ => rfl⟩
  have hle : pageOf s.kernel.currentTask ≤ 257 := by
    generalize s.kernel.currentTask = t
    revert t
    decide
  rw [hcpu, contextBytes_inPage] at ha
  have hin : (a - (page * 4096 + 2048 - 48)).toNat < 48 := ha
  show a.toNat / 4096 = _
  rw [← hpage] at hle ⊢
  simp only [UInt32.toNat_sub, UInt32.toNat_add, UInt32.toNat_mul, UInt32.reduceToNat] at hin
  have := a.toNat_lt
  omega

/-- The first task in its page, and the first frame for a new one. -/
def firstTask : Running := start (inPage 8) bootKernel

/-- A new task gets the first frame. -/
theorem mem_firstFrame {k : Kernel} (hesp : newEsp k = 0x100000 + 4096 - 44) {a : UInt32}
    (ha : a ∈ span (newEsp k) 44) : a.toNat / 4096 = 256 := by
  rw [hesp] at ha
  have hin : (a - (0x100000 + 4096 - 44)).toNat < 44 := ha
  simp only [UInt32.toNat_sub, UInt32.toNat_add, UInt32.reduceToNat] at hin
  have := a.toNat_lt
  omega

/-- The memory when the keyboard handler has started a task. -/
def taskStarted : Memory :=
  (firstTask.served pageTss (fun _ => 0) 33 (some 0x10000)).memory

theorem keeps_taskStarted : Keeps pages pageTss (fun _ => 0)
    (.device 33 (some 0x10000) taskStarted) firstTask :=
  ⟨roomFor_inPage 8 rfl rfl, fun _ _ _ ha => mem_firstFrame (by decide +kernel) ha⟩

theorem preempted_timer {s s' : Running} {left : Memory} (h : s.timer tss isr left = .ok s') :
    s'.preempted = Function.update s.preempted s.kernel.currentTask (some s.cpu) := by
  unfold Running.timer at h
  simp only at h
  split at h
  · obtain rfl := Except.ok.inj h
    rfl
  · cases h

theorem timer_turn {s : Running} {happening : Happening} {t : TaskId} {p : Processor}
    (h : Switching areas tss s) (hp : s.preempted t = some p) (ht : t ≠ s.kernel.currentTask)
    (hkeeps : Keeps areas tss isr happening s) (htimer : isTimer happening = true) :
    ∃ s', exec tss isr happening s = .ok s' ∧
      ((s'.kernel.currentTask = t ∧ p.Resumes s'.cpu) ∨
        ((Switching areas tss s' ∧ s'.preempted t = some p ∧ t ≠ s'.kernel.currentTask) ∧
          gap s'.kernel.currentTask t < gap s.kernel.currentTask t)) := by
  cases happening with
  | compute _ _ => cases htimer
  | device _ _ _ => cases htimer
  | timer left =>
      obtain ⟨s', hrun, hs', hswitched⟩ := h.timer hkeeps
      have hp' : s'.preempted t = some p := (hswitched.preempted_eq t ht).trans hp
      refine ⟨s', hrun, ?_⟩
      by_cases hcur : s'.kernel.currentTask = t
      · exact Or.inl ⟨hcur, hswitched.resumes p (hcur ▸ hp')⟩
      · have hgap := (hswitched.turn t (h.saved t p hp ht).1).resolve_left hcur
        exact Or.inr ⟨⟨hs', hp', Ne.symm hcur⟩, hgap⟩

theorem other_turn {s : Running} {happening : Happening} {t : TaskId} {p : Processor}
    (h : Switching areas tss s) (hp : s.preempted t = some p) (ht : t ≠ s.kernel.currentTask)
    (hkeeps : Keeps areas tss isr happening s) (htimer : isTimer happening = false) :
    ∃ s', exec tss isr happening s = .ok s' ∧
      (Switching areas tss s' ∧ s'.preempted t = some p ∧ t ≠ s'.kernel.currentTask) ∧
      gap s'.kernel.currentTask t ≤ gap s.kernel.currentTask t := by
  obtain ⟨s', hrun, hs'⟩ := h.exec isr hkeeps
  refine ⟨s', hrun, ?_⟩
  cases happening with
  | compute _ _ =>
      obtain rfl := Except.ok.inj hrun
      exact ⟨⟨hs', hp, ht⟩, Nat.le_refl _⟩
  | device _ _ _ =>
      obtain ⟨-, -, hcur⟩ := h.device hkeeps
      obtain rfl := Except.ok.inj hrun
      rw [hcur]
      exact ⟨⟨hs', hp, ht⟩, Nat.le_refl _⟩
  | timer _ => cases htimer

/-- A timer interrupt that leaves the stack as it was pushed. -/
def tick (s : Running) : Running :=
  match s.timer pageTss (fun _ => 0) (s.entered pageTss (fun _ => 0) 32).memory with
  | .ok s' => s'
  | .error _ => s

/-- The task runs in a page until the next timer interrupt. -/
def turn (page : UInt32) (s : Running) : Running := tick { s with cpu := inPage page }

def turnHappenings (page : UInt32) (s : Running) : List Happening :=
  [.compute (inPage page) s.kernel.memory,
    .timer ({ s with cpu := inPage page }.entered pageTss (fun _ => 0) 32).memory]

theorem tick_ok {s : Running} (h : Switching areas pageTss s)
    (hroom : s.RoomFor areas pageTss (s.entered pageTss (fun _ => 0) 32).memory
      (s.entered pageTss (fun _ => 0) 32).memory) :
    exec pageTss (fun _ => 0) (.timer (s.entered pageTss (fun _ => 0) 32).memory) s =
        .ok (tick s) ∧ Switching areas pageTss (tick s) := by
  obtain ⟨s', hrun, hs', -⟩ := h.timer hroom
  have htick : tick s = s' := by
    rw [tick, hrun]
  rw [htick]
  exact ⟨hrun, hs'⟩

theorem inPage_ok {s : Running} (page : UInt32) (h : Switching areas pageTss s) :
    Keeps areas pageTss (fun _ => 0) (.compute (inPage page) s.kernel.memory) s ∧
      exec pageTss (fun _ => 0) (.compute (inPage page) s.kernel.memory) s =
        .ok { s with cpu := inPage page } ∧
      Switching areas pageTss { s with cpu := inPage page } := by
  have hkeeps : Keeps areas pageTss (fun _ => 0) (.compute (inPage page) s.kernel.memory) s :=
    fun _ _ _ _ _ => rfl
  obtain ⟨s', hrun, hs'⟩ := h.exec (fun _ => 0) hkeeps
  obtain rfl := Except.ok.inj hrun
  exact ⟨hkeeps, rfl, hs'⟩

theorem turn_ok {s : Running} (page : UInt32) (h : Switching pages pageTss s)
    (hpage : page.toNat = pageOf s.kernel.currentTask) :
    Switching pages pageTss (turn page s) ∧
      (turn page s).preempted =
        Function.update s.preempted s.kernel.currentTask (some (inPage page)) ∧
      runs (exec pageTss fun _ => 0) (turnHappenings page s) s = .ok (turn page s) ∧
      ∀ later, Guarded (exec pageTss fun _ => 0) (Keeps pages pageTss fun _ => 0) later
          (turn page s) →
        Guarded (exec pageTss fun _ => 0) (Keeps pages pageTss fun _ => 0)
          (turnHappenings page s ++ later) s := by
  obtain ⟨hcompute, hstep1, hs1⟩ := inPage_ok page h
  have hroom : ∀ m, RoomFor pages pageTss { s with cpu := inPage page } m m :=
    fun m => roomFor_inPage page rfl hpage
  obtain ⟨hstep2, hs2⟩ := tick_ok hs1 (hroom _)
  refine ⟨hs2, preempted_timer hstep2, ?_, fun later hlater => ?_⟩
  · rw [turnHappenings, runs_cons_ok hstep1]
    exact runs_cons_ok hstep2
  · exact guarded_cons hcompute hstep1 (guarded_cons (hroom _) hstep2 hlater)

/-- The first task has started a second one. -/
def started : Running := firstTask.device pageTss (fun _ => 0) 33 (some 0x10000) taskStarted

theorem started_ok :
    exec pageTss (fun _ => 0) (.device 33 (some 0x10000) taskStarted) firstTask = .ok started ∧
      Switching pages pageTss started ∧ started.kernel.currentTask = 0 := by
  obtain ⟨h, -, hcur⟩ :=
    (switching_start pages pageTss (inPage 8) bootKernel).device keeps_taskStarted
  exact ⟨rfl, h, hcur⟩

def beforeTurns : List Happening :=
  .device 33 (some 0x10000) taskStarted :: turnHappenings 8 started

/-- Before the first task's next turn. -/
def secondTurn : List Happening :=
  beforeTurns ++ [.compute (inPage 256) (turn 8 started).kernel.memory]

/-- The tasks take turns. -/
def threeTurns : List Happening :=
  turnHappenings 256 (turn 8 started) ++ (turnHappenings 8 (turn 256 (turn 8 started)) ++
    (turnHappenings 256 (turn 8 (turn 256 (turn 8 started))) ++ []))

end Running

end FirstKernel
