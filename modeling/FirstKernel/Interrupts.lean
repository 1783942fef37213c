import FirstKernel.Console
import FirstKernel.Idt
import FirstKernel.Mouse
import FirstKernel.Pic

/-!
# Interrupts from end to end

Devices raise lines, the controllers choose one, the processor finds the
gate of its vector, and the handler serves the device and has to end the
interrupt with the controllers that delivered it. All handlers do
(`runIsr_serves`). But `pic_remap` lets every line through, and most have
no gate. The first of these that is taken is a general protection fault,
with which the kernel stops (`dispatch_line`).

An interrupt brings what ports 0x64 and 0x60 answer, and the lines that
are raised while its handler runs. Handlers are not interrupted: their
gates clear the interrupt flag. The registers that they save and the
switch of tasks are left out here.
-/

namespace FirstKernel

variable {σ : Type}

/-- The state behind the interrupts; `served` is the trace of the lines whose handlers have
returned, which no function reads. -/
structure Board (σ : Type) where
  pics : Pics
  idt : Idt
  timerTicks : UInt32
  keyboard : Keyboard σ
  mouse : Mouse
  running : Bool
  served : List Line

/-! ## Handlers -/

namespace Board

/-- What a handler writes to ports reaches the controllers. -/
def out (writes : PortLog) (b : Board σ) : Board σ := { b with pics := Pics.out writes b.pics }

def onScreen (f : Screen → Screen) (b : Board σ) : Board σ :=
  { b with keyboard := { b.keyboard with shell := { b.keyboard.shell with
    screen := f b.keyboard.shell.screen } } }

/-- What `isr0_handler`, `isr13_handler` and `isr14_handler` do, and the end of their callers:
`jmp $` with interrupts off. -/
def panic (args : Nat → Int32) (color : UInt32) (messages : List Text) (b : Board σ) : Board σ :=
  { b.onScreen fun s => messages.foldl (fun s message => printMessage message args s)
      (clearScreen (setColor color s)) with running := false }

def timerHandler (b : Board σ) : Board σ :=
  { b with timerTicks := b.timerTicks + 1 }.out [(0x20, 0x20)]

/-- `keyboard_handler`; what it writes is what its trace grows by. -/
def keyboardHandler (args : Nat → Int32) (handler : Text → Handler σ) (scancode : UInt8)
    (b : Board σ) : Except Fault (Board σ) :=
  match FirstKernel.keyboardHandler args handler scancode b.keyboard with
  | .ok k => .ok ({ b with keyboard := k }.out (k.ports.drop b.keyboard.ports.length))
  | .error e => .error e

/-- `mouse_handler` -/
def mouseHandler (status data : UInt8) (b : Board σ) : Board σ :=
  let r := FirstKernel.mouseHandler status data b.mouse b.keyboard.shell.screen.vgaMem
  ({ b with mouse := r.1 }.onScreen fun s => { s with vgaMem := r.2 }).out
    (r.1.ports.drop b.mouse.ports.length)

end Board

def panicTitle : Text := text "\n\n ** KERNEL PANIC - SYSTEM STOPED ** \n\n"

def isr0Handler (args : Nat → Int32) : Board σ → Board σ :=
  Board.panic args 0x1F
    [panicTitle, text "   EXCEPTION 0x00: try of divide of 0.\n",
      text "   the kernel has block the cpu to evade corruption of data.\n",
      text "   please, restar the virtual machine.\n"]

def isr13Handler (args : Nat → Int32) : Board σ → Board σ :=
  Board.panic args 0x4F
    [panicTitle, text "   EXCEPTION 0x0D: general protection fault.\n",
      text "   the user program(ring 3) try to run as root or touch forbidden memory.\n",
      text "   the kernel has block the attack.\n",
      text "   please, restar the virtual machine.\n"]

def isr14Handler (args : Nat → Int32) : Board σ → Board σ :=
  Board.panic args 0x4F
    [panicTitle, text "   EXCEPTION 0x0E: Page fault, (paging fault).\n",
      text "   The MMU try to read the memory with bad aligment or protected.\n",
      text "   The machine has been blocked per security.\n"]

def isr128Handler (args : Nat → Int32) : Board σ → Board σ :=
  Board.onScreen
    (printMessage (text "\n[KERNEL] Syscall 0x80 recived! the program says hi.\n") args)

/-- The handlers of `interrupt.asm`, less the saving of registers and the switch of tasks. -/
def runIsr (args : Nat → Int32) (handler : Text → Handler σ) (status data : UInt8) :
    Isr → Board σ → Except Fault (Board σ)
  | .isr0, b => .ok (isr0Handler args b)
  | .isr13, b => .ok (isr13Handler args b)
  | .isr14, b => .ok (isr14Handler args b)
  | .isr32, b => .ok b.timerHandler
  | .isr33, b => b.keyboardHandler args handler data
  | .isr43, b => .ok (b.out [(0xA0, 0x20), (0x20, 0x20)])
  | .isr44, b => .ok (b.mouseHandler status data)
  | .isr46, b => .ok (b.out [(0xA0, 0x20), (0x20, 0x20)])
  | .isr128, b => .ok (isr128Handler args b)

/-! ## Steps -/

/-- What happens to the machine: a device raises a line, or the processor looks for one. -/
inductive Occurrence where
  | raise (line : Line)
  | interrupt (status data : UInt8) (during : List Line)

/-- The handler at an address. -/
def isrAt (address : Isr → UInt32) (offset : Nat) : Option Isr :=
  [.isr0, .isr13, .isr14, .isr32, .isr33, .isr43, .isr44, .isr46, .isr128].find?
    fun isr => (address isr).toNat = offset

namespace Board

section

variable (args : Nat → Int32) (handler : Text → Handler σ) (address : Isr → UInt32)

/-- The line has been acknowledged. Without a gate even for the fault the machine resets. -/
def deliver (status data : UInt8) (line : Line) (vector : UInt8) (b : Board σ) :
    Except Fault (Board σ) :=
  match (dispatch b.idt none vector).bind fun gate => isrAt address gate.offset with
  | none => .ok { b with running := false }
  | some isr =>
      match runIsr args handler status data isr b with
      | .error e => .error e
      | .ok b => .ok (if b.running then { b with served := b.served ++ [line] } else b)

def step : Occurrence → Board σ → Except Fault (Board σ)
  | .raise line, b => .ok { b with pics := b.pics.raise line }
  | .interrupt status data during, b =>
      if b.running then
        match b.pics.pending with
        | none => .ok { b with pics := Pics.raiseAll during b.pics }
        | some line =>
            deliver args handler address status data line (b.pics.vector line)
              { b with pics := Pics.raiseAll during (b.pics.acknowledge line) }
      else .ok b

end

end Board

/-! ## The ends of interrupts -/

theorem untouched_ports : Untouched fun k : Keyboard σ => k.ports :=
  ⟨fun _ _ => rfl, fun _ _ => rfl, fun _ _ => rfl⟩

theorem keepLetter_ports {i : Nat} {k k' : Keyboard σ} (h : keepLetter i k = .ok k') :
    k'.ports = k.ports := by
  unfold keepLetter at h
  split at h
  · unfold Keyboard.setLast at h
    split at h
    · cases h
      rfl
    · cases h
  · cases h

theorem keepCommand_ports {k k' : Keyboard σ} (h : keepCommand k = .ok k') :
    k'.ports = k.ports := by
  unfold keepCommand at h
  split at h
  · split at h
    · next k1 hloop =>
        have hports := Untouched.loopBelow (f := fun k : Keyboard σ => k.ports)
          (fun _ _ _ => keepLetter_ports) hloop
        cases h
        exact hports
    · cases h
  · cases h
    rfl

theorem pressEnter_ports {args : Nat → Int32} {handler : Text → Handler σ} {k k' : Keyboard σ}
    (h : pressEnter args handler k = .ok k') : k'.ports = k.ports := by
  unfold pressEnter at h
  split at h
  · cases h
  next k1 hset =>
  split at h
  · cases h
  next k2 hkeep =>
  split at h
  · cases h
  next shell _ =>
  dsimp only at h
  split at h
  · cases h
  next k3 hclear =>
  have hports : k3.ports = (k.printChar 0x0A).ports := (untouched_ports.setKey hclear).trans
    ((keepCommand_ports hkeep).trans (untouched_ports.setKey hset))
  cases h
  exact hports

theorem map_endOfInterrupt_ports {result : Except Fault (Keyboard σ)} {k k' : Keyboard σ}
    (hresult : ∀ k1, result = .ok k1 → k1.ports = k.ports)
    (h : result.map Keyboard.endOfInterrupt = .ok k') :
    k'.ports = k.ports ++ Pics.ends (.primary 1) := by
  cases hk1 : result with
  | error e =>
      rw [hk1] at h
      cases h
  | ok k1 =>
      have hports := hresult k1 hk1
      rw [hk1] at h
      cases h
      show k1.ports ++ [(0x20, 0x20)] = _
      rw [hports]
      rfl

/-- On every path the keyboard's interrupt is ended once. -/
theorem keyboardHandler_ports {args : Nat → Int32} {handler : Text → Handler σ} {scancode : UInt8}
    {k k' : Keyboard σ} (h : keyboardHandler args handler scancode k = .ok k') :
    k'.ports = k.ports ++ Pics.ends (.primary 1) := by
  unfold keyboardHandler at h
  split at h
  · exact map_endOfInterrupt_ports (fun _ => untouched_ports.autocompleteTab) h
  split at h
  · exact map_endOfInterrupt_ports (fun _ => untouched_ports.recallCommand) h
  split at h
  · cases h
    rfl
  split at h
  · cases h
    rfl
  split at h
  · cases h
    rfl
  split at h
  · refine map_endOfInterrupt_ports (fun k1 hk1 => ?_) h
    by_cases hnl : finalChar k.shiftPressed k.capsLocks scancode = 0x0A
    · rw [typeChar, if_pos hnl] at hk1
      exact pressEnter_ports hk1
    · exact untouched_ports.typeChar hnl hk1
  · cases h
    rfl

theorem takeByte_ports (data : UInt8) (m : Mouse) (vgaMem : FrameBuffer) :
    (takeByte data m vgaMem).1.ports = m.ports := by
  unfold takeByte
  dsimp only
  split
  · rfl
  · split <;> rfl

theorem mouseHandler_ports (status data : UInt8) (m : Mouse) (vgaMem : FrameBuffer) :
    (mouseHandler status data m vgaMem).1.ports = m.ports ++ Pics.ends (.secondary 4) := by
  have hkept : (if status &&& 0x20 = 0 then (m, vgaMem) else takeByte data m vgaMem).1.ports =
      m.ports := by
    split
    · rfl
    · exact takeByte_ports data m vgaMem
  show (if status &&& 0x20 = 0 then (m, vgaMem) else takeByte data m vgaMem).1.ports ++ _ = _
  rw [hkept]
  rfl

/-! ## Lines and handlers -/

/-- The handler of a line, if its vector has a gate after `pic_remap`. -/
def lineIsr (line : Line) : Option Isr :=
  isrOf (Idt.index (Pics.vector line (Pics.waiting 0x20 0x28 fun _ => false)))

def lineHandlers : List (Line × Isr) :=
  [(.primary 0, .isr32), (.primary 1, .isr33), (.secondary 3, .isr43), (.secondary 4, .isr44),
    (.secondary 6, .isr46)]

theorem lineIsr_eq (line : Line) : lineIsr line = lineHandlers.lookup line := by
  cases line with
  | primary i =>
      revert i
      decide
  | secondary i =>
      revert i
      decide

theorem mem_lineHandlers {line : Line} {isr : Isr} (h : lineIsr line = some isr) :
    (line, isr) ∈ lineHandlers := by
  rw [lineIsr_eq] at h
  obtain ⟨before, after, heq, -⟩ := List.lookup_eq_some_iff.mp h
  rw [heq]
  simp

/-- The handler of a line ends its interrupt with the controllers that delivered it. -/
structure ServesLine (line : Line) (b b' : Board σ) : Prop where
  pics_eq : b'.pics = Pics.out (Pics.ends line) b.pics
  idt_eq : b'.idt = b.idt
  running_eq : b'.running = b.running
  served_eq : b'.served = b.served
  ticks_eq : b'.timerTicks = b.timerTicks + if line = .primary 0 then 1 else 0

theorem Board.keyboardHandler_serves {args : Nat → Int32} {handler : Text → Handler σ}
    {scancode : UInt8} {b b' : Board σ} (h : b.keyboardHandler args handler scancode = .ok b') :
    ServesLine (.primary 1) b b' := by
  unfold Board.keyboardHandler at h
  split at h
  · next k hk =>
      have hports := keyboardHandler_ports hk
      cases h
      refine ⟨?_, rfl, rfl, rfl, (UInt32.add_zero _).symm⟩
      rw [hports, List.drop_left]
      rfl
  · cases h

theorem Board.mouseHandler_serves (status data : UInt8) (b : Board σ) :
    ServesLine (.secondary 4) b (b.mouseHandler status data) := by
  refine ⟨?_, rfl, rfl, rfl, (UInt32.add_zero _).symm⟩
  have hports := mouseHandler_ports status data b.mouse b.keyboard.shell.screen.vgaMem
  show Pics.out (List.drop _ _) b.pics = _
  rw [hports, List.drop_left]

theorem runIsr_serves {args : Nat → Int32} {handler : Text → Handler σ} {status data : UInt8}
    {line : Line} {isr : Isr} (hisr : lineIsr line = some isr) {b b' : Board σ}
    (h : runIsr args handler status data isr b = .ok b') : ServesLine line b b' := by
  have hmem := mem_lineHandlers hisr
  simp only [lineHandlers, List.mem_cons, Prod.mk.injEq, List.not_mem_nil, or_false] at hmem
  obtain ⟨rfl, rfl⟩ | ⟨rfl, rfl⟩ | ⟨rfl, rfl⟩ | ⟨rfl, rfl⟩ | ⟨rfl, rfl⟩ := hmem
  · cases h
    exact ⟨rfl, rfl, rfl, rfl, rfl⟩
  · exact Board.keyboardHandler_serves h
  · cases h
    exact ⟨rfl, rfl, rfl, rfl, (UInt32.add_zero _).symm⟩
  · cases h
    exact Board.mouseHandler_serves status data b
  · cases h
    exact ⟨rfl, rfl, rfl, rfl, (UInt32.add_zero _).symm⟩

theorem isrAt_address {address : Isr → UInt32} (haddress : Function.Injective address)
    (isr : Isr) : isrAt address (address isr).toNat = some isr := by
  cases hfind : isrAt address (address isr).toNat with
  | none =>
      have hnone := List.find?_eq_none.mp hfind isr (by cases isr <;> simp)
      exact absurd (decide_eq_true rfl) hnone
  | some found =>
      have hfound := List.find?_some
        (p := fun other => decide ((address other).toNat = (address isr).toNat)) hfind
      rw [haddress (UInt32.toNat_inj.mp (of_decide_eq_true hfound))]

/-- The table that `isr_install` leaves. -/
def installedIdt (idtAddr : UInt32) (address : Isr → UInt32) : Idt :=
  (isrInstall (recorder fun _ => 0) idtAddr address [] blankIdt).2

/-- The vector of a line leads to its handler, or to that of the general protection fault. -/
theorem dispatch_line (idtAddr : UInt32) {address : Isr → UInt32}
    (haddress : Function.Injective address) (line : Line) (pending : Line → Bool) :
    (dispatch (installedIdt idtAddr address) none
      (Pics.vector line (Pics.waiting 0x20 0x28 pending))).bind
        (fun gate => isrAt address gate.offset) = some ((lineIsr line).getD .isr13) := by
  have hvector : Pics.vector line (Pics.waiting 0x20 0x28 pending) =
      Pics.vector line (Pics.waiting 0x20 0x28 fun _ => false) := by
    cases line <;> rfl
  rw [hvector, installedIdt, dispatch_isrInstall]
  simp only [Option.bind_some, isrAt_address haddress]
  rfl

/-- **Every vector has its handler.** Wherever the handlers are, a device's interrupt and an
`int` instruction of the kernel come to the handler that the vector is installed for, and to that
of the general protection fault if there is none. From user mode an `int` instruction always
comes there, that of the system call not excepted. -/
theorem isr_found (ports : BytePorts σ) (idtAddr : UInt32) {address : Isr → UInt32}
    (haddress : Function.Injective address) (s : σ) (program : Option Nat) (vector : UInt8) :
    (dispatch (isrInstall ports idtAddr address s blankIdt).2 program vector).bind
        (fun gate => isrAt address gate.offset) =
      some (if ∀ ring ∈ program, ring = 0 then
        (isrOf (Idt.index vector)).getD .isr13 else .isr13) := by
  rw [dispatch_isrInstall, Option.bind_some, isrAt_address haddress]

/-- The handlers one after the other. -/
def linkedAddress : Isr → UInt32
  | .isr0 => 0x9000
  | .isr13 => 0x9008
  | .isr14 => 0x9010
  | .isr32 => 0x9018
  | .isr33 => 0x9040
  | .isr43 => 0x9060
  | .isr44 => 0x9068
  | .isr46 => 0x9088
  | .isr128 => 0x9090

theorem linkedAddress_injective : Function.Injective linkedAddress := by
  intro isr isr' h
  cases isr <;> cases isr' <;> first | rfl | exact absurd h (by decide)

theorem isr_found_userSyscall :
    (dispatch (isrInstall (recorder fun _ => 0) 0x8000 linkedAddress [] blankIdt).2 (some 3)
      0x80).bind (fun gate => isrAt linkedAddress gate.offset) =
      some (if ∀ ring ∈ some 3, ring = 0 then
        (isrOf (Idt.index 0x80)).getD .isr13 else .isr13) :=
  isr_found (recorder fun _ => 0) 0x8000 linkedAddress_injective [] (some 3) 0x80

end FirstKernel
