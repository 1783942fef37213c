import FirstKernel.Preemption

/-!
# The way to user mode

`main` ends with `switch_to_user_mode`, which pushes what an interrupt of a
task in user mode would have pushed, takes it back with `iretd`, and
returns in ring 3 (`switchToUserMode_eq`).

From there the first task is interrupted like any other. Whenever it runs
it is in user mode with interrupts on, what an interrupt of it pushes is
below the stack pointer of the TSS and nowhere else, and it goes on with
all of its registers and segments (`userMode_kept`).
-/

namespace FirstKernel

open Memory

namespace Processor

/-- The flags in user mode. `pushfd` leaves out RF and VM. -/
def userFlags (eflags : UInt32) : UInt32 := eflags &&& ~~~0x30000 ||| 0x200

/-- From `mov eax, esp` to `iretd`, on the stack and in `eax`. -/
def pushUserFrame (userJump eflags : UInt32) (s : UInt32 × Memory) : UInt32 × UInt32 × Memory :=
  let (esp, m) := pushAll [0x23, s.1] s
  let (esp, m) := push (esp, m) (eflags &&& ~~~0x30000)
  let eax := m.load esp ||| 0x200
  (eax, pushAll [eax, 0x1B, userJump] (esp + 4, m))

/-- `switch_to_user_mode`, where `userJump` is the address of `.user_jump`. -/
def switchToUserMode (userJump : UInt32) (p : Processor) (m : Memory) : Processor × Memory :=
  -- `cli`, and `ax` into the segment registers
  let p := { p with
    eflags := p.eflags &&& ~~~0x200
    ds := 0x23
    es := 0x23
    fs := 0x23
    gs := 0x23 }
  let (eax, esp, m) := pushUserFrame userJump p.eflags (p.esp, m)
  let p := iretd m { p with
    eax := eax
    esp := esp
    reads := [] }
  -- `ret`
  let (eip, cpu) := p.toCpu.pop m
  ({ p with toCpu := { cpu with eip := eip } }, m)

/-- Pushes do not reach beyond their bytes. -/
theorem pushAll_snd_of_notMem {ws : List UInt32} {sp a : UInt32} (m : Memory)
    (h : a ∉ span (sp - UInt32.ofNat (4 * ws.length)) (4 * ws.length)) :
    (pushAll ws (sp, m)).2 a = m a := by
  rw [pushAll_snd]
  refine storeBytes_of_ge m ?_
  rw [length_flatMap_bytes32, List.length_reverse]
  exact Nat.not_lt.mp h

/-- The last word stored at an address is the one that counts. -/
theorem store_store (m : Memory) (a v w : UInt32) : (m.store a v).store a w = m.store a w := by
  funext k
  by_cases hk : (k - a).toNat < 4
  · obtain ⟨b, hb⟩ : ∃ b, (Buffer.bytes32 w)[(k - a).toNat]? = some b :=
      ⟨_, List.getElem?_eq_getElem hk⟩
    simp only [store, hb, Option.getD_some]
  · rw [store_of_ge _ _ (Nat.not_lt.mp hk), store_of_ge _ _ (Nat.not_lt.mp hk),
      store_of_ge _ _ (Nat.not_lt.mp hk)]

/-- The flags are pushed twice in one place, so it is the frame of an interrupt in user mode. -/
theorem pushUserFrame_eq (userJump eflags esp : UInt32) (m : Memory) :
    pushUserFrame userJump eflags (esp, m) =
      (userFlags eflags, pushAll [0x23, esp, userFlags eflags, 0x1B, userJump] (esp, m)) := by
  have hnil : ∀ s, pushAll [] s = s := fun _ => rfl
  have hback : esp - 4 - 4 - 4 + 4 = esp - 4 - 4 := UInt32.sub_add_cancel _ _
  simp only [pushUserFrame, pushAll_cons, hnil, push, hback, load_store, store_store, userFlags]

/-- `iretd` to user mode takes the stack too. -/
theorem iretd_user {m : Memory} {p : Processor} (h : (wordAt m p.esp 1).toUInt16 &&& 3 ≠ 0) :
    ∃ reads, iretd m p =
      { p with
        esp := wordAt m p.esp 3
        eip := wordAt m p.esp 0
        cs := (wordAt m p.esp 1).toUInt16
        eflags := wordAt m p.esp 2
        ss := (wordAt m p.esp 4).toUInt16
        reads := reads } := by
  have hword : ∀ j, m.load (p.esp + UInt32.ofNat (4 * j)) = wordAt m p.esp j := fun _ => rfl
  have h0 : m.load p.esp = wordAt m p.esp 0 := by
    rw [← hword 0]
    exact congrArg m.load (UInt32.add_zero p.esp).symm
  have h1 : m.load (p.esp + 4) = wordAt m p.esp 1 := rfl
  have h2 : m.load (p.esp + 4 + 4) = wordAt m p.esp 2 := by rw [UInt32.add_assoc]; rfl
  have h3 : m.load (p.esp + 4 + 4 + 4) = wordAt m p.esp 3 := by
    rw [UInt32.add_assoc, UInt32.add_assoc]; rfl
  have h4 : m.load (p.esp + 4 + 4 + 4 + 4) = wordAt m p.esp 4 := by
    rw [UInt32.add_assoc, UInt32.add_assoc, UInt32.add_assoc]; rfl
  have hcs : ((wordAt m p.esp 1).toUInt16 &&& 3 == 0) = false := beq_false_of_ne h
  simp only [iretd, Cpu.iretd, Cpu.pop, h0, h1, h2, h3, h4, hcs]
  exact ⟨_, rfl⟩

/-- **The switch.** It returns to its caller, in user mode. -/
theorem switchToUserMode_eq (userJump : UInt32) (p : Processor) (m : Memory) : ∃ reads m',
    switchToUserMode userJump p m =
      ({ p with
        eax := userFlags (p.eflags &&& ~~~0x200)
        esp := p.esp + 4
        ds := 0x23
        es := 0x23
        fs := 0x23
        gs := 0x23
        eip := m.load p.esp
        cs := 0x1B
        ss := 0x23
        eflags := userFlags (p.eflags &&& ~~~0x200)
        reads := reads }, m') ∧ ∀ a ∉ span (p.esp - 20) 20, m' a = m a := by
  obtain ⟨m', hm'⟩ : ∃ m', pushAll [0x23, p.esp, userFlags (p.eflags &&& ~~~0x200), 0x1B, userJump]
      (p.esp, m) = (p.esp - 20, m') := ⟨_, Prod.ext (pushAll_fst _ _ _) rfl⟩
  have hword : ∀ j w, [userJump, 0x1B, userFlags (p.eflags &&& ~~~0x200), p.esp, 0x23][j]? =
      some w → wordAt m' (p.esp - 20) j = w := by
    intro j w hw
    have h := wordAt_pushAll (p.esp) m (show 4 * [0x23, p.esp, userFlags (p.eflags &&& ~~~0x200),
      0x1B, userJump].length ≤ 2 ^ 32 from by simp) hw
    rwa [hm'] at h
  have hsnd : (pushAll [0x23, p.esp, userFlags (p.eflags &&& ~~~0x200), 0x1B, userJump]
      (p.esp, m)).2 = m' := congrArg Prod.snd hm'
  have hret : m'.load p.esp = m.load p.esp := by
    rw [← hsnd]
    refine load_pushAll_of_above m ?_
    rw [UInt32.sub_self]
    exact (by decide : 0 + 4 + 4 * 5 ≤ 2 ^ 32)
  obtain ⟨reads, hiretd⟩ := iretd_user (m := m') (p := { p with
    eflags := p.eflags &&& ~~~0x200
    ds := 0x23
    es := 0x23
    fs := 0x23
    gs := 0x23
    eax := userFlags (p.eflags &&& ~~~0x200)
    esp := p.esp - 20
    reads := [] }) (by rw [hword 1 _ rfl]; decide)
  simp only [hword 0 _ rfl, hword 1 _ rfl, hword 2 _ rfl, hword 3 _ rfl, hword 4 _ rfl] at hiretd
  simp only [switchToUserMode, pushUserFrame_eq, hm', hiretd, Cpu.pop, hret]
  refine ⟨_, m', rfl, fun a ha => ?_⟩
  rw [← hsnd]
  exact pushAll_snd_of_notMem m ha

/-- A processor in user mode, in the segments of user mode and with interrupts on. -/
structure InUserMode (p : Processor) : Prop where
  cs_eq : p.cs = 0x1B
  ss_eq : p.ss = 0x23
  ds_eq : p.ds = 0x23
  es_eq : p.es = 0x23
  fs_eq : p.fs = 0x23
  gs_eq : p.gs = 0x23
  interrupts_on : p.eflags &&& 0x200 ≠ 0

theorem userFlags_on (eflags : UInt32) : userFlags eflags &&& 0x200 ≠ 0 := by
  have hbit : userFlags eflags &&& 0x200 = 0x200 := by
    rw [userFlags, ← UInt32.toBitVec_inj]
    ext i
    simpa using Or.inr
  rw [hbit]
  decide

theorem inUserMode_switched (userJump : UInt32) (p : Processor) (m : Memory) :
    (switchToUserMode userJump p m).1.InUserMode := by
  obtain ⟨reads, m', heq, -⟩ := switchToUserMode_eq userJump p m
  rw [heq]
  exact ⟨rfl, rfl, rfl, rfl, rfl, rfl, userFlags_on _⟩

namespace InUserMode

variable {p p' : Processor}

theorem inKernel_eq (h : p.InUserMode) : p.inKernel = false := by
  rw [inKernel, h.cs_eq]
  rfl

/-- The interrupted task goes on with all of its registers and segments. -/
theorem resumed (h : p.InUserMode) (hresumes : p.Resumes p') :
    ∃ reads, p' = { p with reads := reads } := by
  obtain ⟨reads, ss, rfl, hss⟩ := hresumes
  have hes : p.ds = p.es := h.ds_eq.trans h.es_eq.symm
  have hfs : p.ds = p.fs := h.ds_eq.trans h.fs_eq.symm
  have hgs : p.ds = p.gs := h.ds_eq.trans h.gs_eq.symm
  refine ⟨reads, ?_⟩
  rw [hss h.inKernel_eq]
  congr 2

theorem resumes (h : p.InUserMode) (hresumes : p.Resumes p') : p'.InUserMode := by
  obtain ⟨reads, rfl⟩ := h.resumed hresumes
  exact ⟨h.cs_eq, h.ss_eq, h.ds_eq, h.es_eq, h.fs_eq, h.gs_eq, h.interrupts_on⟩

/-- An interrupt pushes on the stack that the TSS names. -/
theorem contextBytes_eq (h : p.InUserMode) (tss : TssEntry) :
    p.contextBytes tss = span (tss.esp0 - 56) 56 := by
  rw [contextBytes, contextEsp, length_context, interruptStack, h.inKernel_eq]
  rfl

end InUserMode

end Processor

namespace Running

/-- What holds of the first task, whether it runs or waits for its turn. -/
structure FirstTask (I : Processor → Prop) (s : Running) : Prop where
  running : s.kernel.currentTask = 0 → I s.cpu
  waiting : s.kernel.currentTask ≠ 0 → ∃ p, s.preempted 0 = some p ∧ I p

/-- What the first task does itself keeps `I`. -/
def ComputesIn (I : Processor → Prop) : Happening → Running → Prop
  | .compute cpu _, s => s.kernel.currentTask = 0 → I cpu
  | _, _ => True

section

variable {areas : Stacks} {tss : TssEntry} {isr : Nat → UInt32} {I : Processor → Prop}
  {s s' : Running}

theorem FirstTask.preempted (h : FirstTask I s) {left : Memory}
    (hrun : s.timer tss isr left = .ok s') (hswitched : Switched s s') :
    ∃ p, s'.preempted 0 = some p ∧ I p := by
  by_cases hcur : s.kernel.currentTask = 0
  · refine ⟨s.cpu, ?_, h.running hcur⟩
    rw [preempted_timer hrun, hcur, Function.update_self]
  · obtain ⟨p, hp, hIp⟩ := h.waiting hcur
    exact ⟨p, (hswitched.preempted_eq 0 (Ne.symm hcur)).trans hp, hIp⟩

/-- What the first task keeps to, and an interrupt brings back, is kept in every step. -/
theorem FirstTask.exec (h : FirstTask I s) (hs : Switching areas tss s)
    (hI : ∀ p p', I p → p.Resumes p' → I p') {happening : Happening}
    (hkeeps : Keeps areas tss isr happening s) (hcomputes : ComputesIn I happening s) :
    ∃ s', exec tss isr happening s = .ok s' ∧ Switching areas tss s' ∧ FirstTask I s' := by
  obtain ⟨s', hrun, hs'⟩ := hs.exec isr hkeeps
  refine ⟨s', hrun, hs', ?_⟩
  cases happening with
  | compute cpu memory =>
      obtain rfl := Except.ok.inj hrun
      exact ⟨hcomputes, h.waiting⟩
  | timer left =>
      obtain ⟨s1, htimer, -, hswitched⟩ := hs.timer hkeeps
      obtain rfl := Except.ok.inj (htimer.symm.trans hrun)
      obtain ⟨p, hp, hIp⟩ := h.preempted htimer hswitched
      exact ⟨fun hcur => hI p _ hIp (hswitched.resumes p (hcur ▸ hp)), fun _ => ⟨p, hp, hIp⟩⟩
  | device vector taskCode left =>
      obtain ⟨-, hresumes, hcur⟩ := hs.device hkeeps
      obtain rfl := Except.ok.inj hrun
      exact ⟨fun h0 => hI _ _ (h.running (hcur.symm.trans h0)) hresumes,
        fun h0 => h.waiting fun h0' => h0 (hcur.trans h0')⟩

end

/-- In user mode there is room for an interrupt on the stack of the TSS. -/
theorem roomFor_userMode {s : Running} {m : Memory} (huser : s.cpu.InUserMode)
    (hcur : s.kernel.currentTask = 0) : s.RoomFor pages pageTss m m := by
  refine ⟨fun a ha => ?_, fun _ _ => rfl, fun _ _ _ _ _ => rfl⟩
  rw [huser.contextBytes_eq] at ha
  have hin : (a - (0x9000 - 56)).toNat < 56 := ha
  rw [hcur]
  show a.toNat / 4096 = 8
  simp only [UInt32.toNat_sub, UInt32.reduceToNat] at hin
  have := a.toNat_lt
  omega

/-- The first task in user mode. -/
def switched : Running :=
  start ((inPage 8).switchToUserMode 0 fun _ => 0).1
    { bootKernel with memory := ((inPage 8).switchToUserMode 0 fun _ => 0).2 }

/-- The memory when the keyboard handler has started a task. -/
def userServed : Memory := (switched.served pageTss (fun _ => 0) 33 (some 0x10000)).memory

/-- The first task in user mode and the second one, which has not run yet. -/
def userStarted : Running := switched.device pageTss (fun _ => 0) 33 (some 0x10000) userServed

theorem inUserMode_first : switched.cpu.InUserMode :=
  (inPage 8).inUserMode_switched 0 fun _ => 0

theorem keeps_userServed : Keeps pages pageTss (fun _ => 0) (.device 33 (some 0x10000) userServed)
    switched :=
  ⟨roomFor_userMode inUserMode_first rfl, fun _ _ _ ha => mem_firstFrame (by decide +kernel) ha⟩

theorem userStarted_ok :
    exec pageTss (fun _ => 0) (.device 33 (some 0x10000) userServed) switched =
        .ok userStarted ∧ Switching pages pageTss userStarted ∧
      userStarted.cpu.InUserMode ∧ userStarted.kernel.currentTask = 0 := by
  obtain ⟨h, hresumes, hcur⟩ := (switching_start pages pageTss _ _).device keeps_userServed
  refine ⟨?_, h, inUserMode_first.resumes hresumes, hcur⟩
  rw [userStarted]
  rfl

/-- The second task has its turn, up to the timer interrupt that ends it. -/
def otherTurn (s : Running) : List Happening :=
  [.timer (s.entered pageTss (fun _ => 0) 32).memory,
    .compute (inPage 256) (tick s).kernel.memory]

theorem otherTurn_ok {s : Running} (h : Switching pages pageTss s) (huser : s.cpu.InUserMode)
    (hcur : s.kernel.currentTask = 0) (hother : (tick s).kernel.currentTask = 1) :
    ∃ s', runs (exec pageTss fun _ => 0) (otherTurn s) s = .ok s' ∧
      Switching pages pageTss s' ∧ s'.cpu = inPage 256 ∧ s'.kernel.currentTask = 1 ∧
      tick s' = turn 256 (tick s) ∧
      ∀ later, Guarded (exec pageTss fun _ => 0) (fun happening s =>
          Keeps pages pageTss (fun _ => 0) happening s ∧
            ComputesIn Processor.InUserMode happening s) later s' →
        Guarded (exec pageTss fun _ => 0) (fun happening s =>
          Keeps pages pageTss (fun _ => 0) happening s ∧
            ComputesIn Processor.InUserMode happening s) (otherTurn s ++ later) s := by
  have hroom : s.RoomFor pages pageTss (s.entered pageTss (fun _ => 0) 32).memory
      (s.entered pageTss (fun _ => 0) 32).memory := roomFor_userMode huser hcur
  obtain ⟨hstep1, h1⟩ := tick_ok h hroom
  obtain ⟨hcompute, hstep2, h2⟩ := inPage_ok 256 h1
  refine ⟨_, (runs_cons_ok hstep1).trans (runs_cons_ok hstep2), h2, rfl, hother, rfl,
    fun later hlater => ?_⟩
  refine guarded_cons ⟨hroom, trivial⟩ hstep1 (guarded_cons ⟨hcompute, fun h0 => ?_⟩ hstep2 hlater)
  exact absurd (hother.symm.trans h0) (by decide)

/-- The second task is started and its turn comes. -/
def beforeReturn : List Happening :=
  .device 33 (some 0x10000) userServed :: otherTurn userStarted

end Running

end FirstKernel
