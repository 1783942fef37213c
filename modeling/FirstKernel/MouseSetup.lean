import FirstKernel.Ports

/-!
# Switching the mouse on, `init_mouse` in `drivers/mouse.c`

The keyboard controller takes commands at port 0x64 and data at port 0x60
as long as it is not busy with the last write, and what it is asked for
comes at port 0x60 after a while, behind what waits there already.
`mouse_wait` reads the status until the controller is ready, but not more
often than 100000 times, and does not say which.

If the controller is faster than that, `init_mouse` gets through. But it
takes the first byte at port 0x60 for the configuration, so a key that has
been pressed before is written back as one, and an acknowledgement is left
for the interrupts (`view_initMouse`).
-/

namespace FirstKernel

variable {σ : Type}

/-! ## The controller -/

/-- The device on the second port. -/
structure PointingDevice where
  sampleRate : Nat
  resolution : Nat
  reporting : Bool

/-- Set defaults, enable and disable reporting. -/
def PointingDevice.command (data : UInt8) (d : PointingDevice) : PointingDevice :=
  if data = 0xF6 then ⟨100, 2, false⟩
  else if data = 0xF5 then { d with reporting := false }
  else if data = 0xF4 then { d with reporting := true }
  else d

/-- What the controller holds, apart from the time it takes: the command whose data is to come,
and the bytes that wait at port 0x60. -/
structure Ps2View where
  config : UInt8
  expects : Option UInt8
  output : List UInt8
  device : PointingDevice

namespace Ps2View

/-- A command byte. Bit 5 of the configuration switches the second port off. -/
def command (data : UInt8) (v : Ps2View) : Ps2View :=
  if data = 0xA8 then { v with config := v.config &&& 0xDF, expects := none }
  else if data = 0x20 then { v with output := v.output ++ [v.config], expects := none }
  else if data = 0x60 ∨ data = 0xD4 then { v with expects := some data }
  else { v with expects := none }

/-- A data byte: the device acknowledges what it is sent. -/
def data (data : UInt8) (v : Ps2View) : Ps2View :=
  if v.expects = some 0x60 then { v with config := data, expects := none }
  else if v.expects = some 0xD4 then
    { v with
      device := v.device.command data
      output := v.output ++ [0xFA]
      expects := none }
  else v

def read (v : Ps2View) : Ps2View := { v with output := v.output.tail }

end Ps2View

/-- The controller, with the number of looks at the status until it has taken the last write, and
until the next byte is there. -/
structure Ps2 where
  view : Ps2View
  busy : Nat
  late : Nat
  events : Nat

namespace Ps2

/-- The status of the output, and of the input. -/
def statusByte (full busy : Bool) : UInt8 :=
  (if full then 0x01 else 0x00) ||| if busy then 0x02 else 0x00

def status (p : Ps2) : UInt8 :=
  statusByte (p.view.output ≠ [] ∧ p.late = 0) (p.busy ≠ 0)

def looked (p : Ps2) : Ps2 := { p with busy := p.busy - 1, late := p.late - 1 }

section

variable (busyTime lateTime : Nat → Nat)

/-- A write while the controller is busy is lost. -/
def write (f : Ps2View → Ps2View) (p : Ps2) : Ps2 :=
  if p.busy ≠ 0 then p
  else
    { view := f p.view
      busy := busyTime p.events
      late := if p.view.output = [] then lateTime p.events else p.late
      events := p.events + 1 }

def readData (p : Ps2) : UInt8 × Ps2 :=
  if p.view.output = [] ∨ p.late ≠ 0 then (0, p)
  else
    (p.view.output.headD 0,
      { p with view := p.view.read, late := lateTime p.events, events := p.events + 1 })

/-- How long things take is given for each write and each byte that is read. -/
def ports : BytePorts Ps2 where
  bytesIn port p :=
    if port = 0x64 then (p.status, p.looked)
    else if port = 0x60 then p.readData lateTime
    else (0xFF, p)
  bytesOut port data p :=
    if port = 0x64 then p.write busyTime lateTime (Ps2View.command data)
    else if port = 0x60 then p.write busyTime lateTime (Ps2View.data data)
    else p

end

end Ps2

/-! ## `init_mouse` -/

/-- `timeout` in `mouse_wait` -/
def mouseTimeout : Nat := 100000

/-- The loops of `mouse_wait`, with the looks that are left. -/
def mouseLooks (ports : BytePorts σ) (aType : UInt8) : Nat → σ → σ
  | 0, s => s
  | timeout + 1, s =>
      let (status, s) := ports.bytesIn 0x64 s
      if (if aType = 0 then status &&& 1 = 1 else status &&& 2 = 0) then s
      else mouseLooks ports aType timeout s

def mouseWait (ports : BytePorts σ) (aType : UInt8) (s : σ) : σ :=
  mouseLooks ports aType mouseTimeout s

def mouseWrite (ports : BytePorts σ) (aWrite : UInt8) (s : σ) : σ :=
  let s := ports.bytesOut 0x64 0xD4 (mouseWait ports 1 s)
  ports.bytesOut 0x60 aWrite (mouseWait ports 1 s)

def initMouse (ports : BytePorts σ) (s : σ) : σ :=
  let s := ports.bytesOut 0x64 0xA8 (mouseWait ports 1 s)
  let s := ports.bytesOut 0x64 0x20 (mouseWait ports 1 s)
  let (status, s) := ports.bytesIn 0x60 (mouseWait ports 0 s)
  let status := status ||| 2
  let s := ports.bytesOut 0x64 0x60 (mouseWait ports 1 s)
  let s := ports.bytesOut 0x60 status (mouseWait ports 1 s)
  let s := mouseWrite ports 0xF6 s
  let (_, s) := ports.bytesIn 0x60 (mouseWait ports 0 s)
  let s := mouseWrite ports 0xF4 s
  let (_, s) := ports.bytesIn 0x60 (mouseWait ports 0 s)
  s

/-! ## Waiting -/

namespace Ps2

variable {busyTime lateTime : Nat → Nat}

theorem statusByte_and_two : ∀ full busy, statusByte full busy &&& 2 = 0 ↔ busy = false := by decide

theorem statusByte_and_one : ∀ full busy, statusByte full busy &&& 1 = 1 ↔ full = true := by decide

theorem status_and_two (p : Ps2) : p.status &&& 2 = 0 ↔ p.busy = 0 := by
  rw [status, statusByte_and_two, decide_eq_false_iff_not, not_not]

theorem status_and_one (p : Ps2) : p.status &&& 1 = 1 ↔ p.view.output ≠ [] ∧ p.late = 0 := by
  rw [status, statusByte_and_one, decide_eq_true_iff]

/-- Nothing takes longer than `mouse_wait` waits. -/
structure Timely (p : Ps2) : Prop where
  busy_lt : p.busy < mouseTimeout
  late_lt : p.late < mouseTimeout

/-- Looking only lets time pass. -/
structure Later (p p' : Ps2) : Prop where
  view_eq : p'.view = p.view
  busy_le : p'.busy ≤ p.busy
  late_le : p'.late ≤ p.late

theorem Later.timely {p p' : Ps2} (h : Later p p') (hp : p.Timely) : p'.Timely :=
  ⟨Nat.lt_of_le_of_lt h.busy_le hp.busy_lt, Nat.lt_of_le_of_lt h.late_le hp.late_lt⟩

theorem later_looked (p : Ps2) : Later p p.looked := ⟨rfl, Nat.sub_le _ _, Nat.sub_le _ _⟩

theorem Later.trans {p p' p'' : Ps2} (h : Later p p') (h' : Later p' p'') : Later p p'' :=
  ⟨h'.view_eq.trans h.view_eq, h'.busy_le.trans h.busy_le, h'.late_le.trans h.late_le⟩

/-- The wait for a write ends when the controller is no longer busy. -/
theorem mouseLooks_write : ∀ {timeout : Nat} {p : Ps2}, p.busy < timeout →
    (mouseLooks (ports busyTime lateTime) 1 timeout p).busy = 0 ∧
      Later p (mouseLooks (ports busyTime lateTime) 1 timeout p)
  | 0, _, h => absurd h (Nat.not_lt_zero _)
  | timeout + 1, p, h => by
      show (if p.status &&& 2 = 0 then p.looked else mouseLooks _ 1 timeout p.looked).busy = 0 ∧
        Later p (if p.status &&& 2 = 0 then p.looked else mouseLooks _ 1 timeout p.looked)
      by_cases hready : p.busy = 0
      · rw [if_pos (p.status_and_two.mpr hready)]
        exact ⟨Nat.sub_eq_zero_of_le (Nat.le_trans (Nat.le_of_eq hready) (Nat.zero_le 1)),
          p.later_looked⟩
      · rw [if_neg fun heq => hready (p.status_and_two.mp heq)]
        have hless : p.looked.busy < timeout := by
          show p.busy - 1 < timeout
          omega
        obtain ⟨hbusy, hlater⟩ := mouseLooks_write hless
        exact ⟨hbusy, p.later_looked.trans hlater⟩

/-- The wait for a byte ends when it is there. -/
theorem mouseLooks_read : ∀ {timeout : Nat} {p : Ps2}, p.view.output ≠ [] → p.late < timeout →
    (mouseLooks (ports busyTime lateTime) 0 timeout p).late = 0 ∧
      Later p (mouseLooks (ports busyTime lateTime) 0 timeout p)
  | 0, _, _, h => absurd h (Nat.not_lt_zero _)
  | timeout + 1, p, hfull, h => by
      show (if p.status &&& 1 = 1 then p.looked else mouseLooks _ 0 timeout p.looked).late = 0 ∧
        Later p (if p.status &&& 1 = 1 then p.looked else mouseLooks _ 0 timeout p.looked)
      by_cases hthere : p.late = 0
      · rw [if_pos (p.status_and_one.mpr ⟨hfull, hthere⟩)]
        exact ⟨Nat.sub_eq_zero_of_le (Nat.le_trans (Nat.le_of_eq hthere) (Nat.zero_le 1)),
          p.later_looked⟩
      · rw [if_neg fun heq => hthere (p.status_and_one.mp heq).2]
        have hless : p.looked.late < timeout := by
          show p.late - 1 < timeout
          omega
        obtain ⟨hlate, hlater⟩ := mouseLooks_read (p := p.looked) hfull hless
        exact ⟨hlate, p.later_looked.trans hlater⟩

/-! ## Steps -/

/-- What the controller holds, when nothing takes too long. -/
structure Holds (p : Ps2) (v : Ps2View) : Prop where
  view_eq : p.view = v
  timely : p.Timely

section

variable (hbusy : ∀ n, busyTime n < mouseTimeout) (hlate : ∀ n, lateTime n < mouseTimeout)

include hbusy hlate

/-- A write that has been waited for arrives. -/
theorem Holds.write {p : Ps2} {v : Ps2View} (h : Holds p v) (f : Ps2View → Ps2View) :
    Holds ((mouseWait (ports busyTime lateTime) 1 p).write busyTime lateTime f) (f v) := by
  obtain ⟨hready, hlater⟩ : (mouseWait (ports busyTime lateTime) 1 p).busy = 0 ∧
      Later p (mouseWait (ports busyTime lateTime) 1 p) := mouseLooks_write h.timely.busy_lt
  rw [Ps2.write, if_neg (not_not.mpr hready)]
  refine ⟨?_, hbusy _, ?_⟩
  · show f (mouseWait (ports busyTime lateTime) 1 p).view = f v
    rw [hlater.view_eq, h.view_eq]
  · show (if _ then _ else _) < mouseTimeout
    split
    · exact hlate _
    · exact (hlater.timely h.timely).late_lt

omit hbusy in
/-- So does a byte. -/
theorem Holds.readData {p : Ps2} {v : Ps2View} (h : Holds p v) (hfull : v.output ≠ []) :
    ((mouseWait (ports busyTime lateTime) 0 p).readData lateTime).1 = v.output.headD 0 ∧
      Holds ((mouseWait (ports busyTime lateTime) 0 p).readData lateTime).2 v.read := by
  rw [← h.view_eq] at hfull ⊢
  obtain ⟨hthere, hlater⟩ : (mouseWait (ports busyTime lateTime) 0 p).late = 0 ∧
      Later p (mouseWait (ports busyTime lateTime) 0 p) :=
    mouseLooks_read hfull h.timely.late_lt
  have hfull' : (mouseWait (ports busyTime lateTime) 0 p).view.output ≠ [] := by
    rwa [hlater.view_eq]
  rw [Ps2.readData, if_neg (not_or.mpr ⟨hfull', not_not.mpr hthere⟩)]
  refine ⟨congrArg (fun v => v.output.headD 0) hlater.view_eq,
    congrArg Ps2View.read hlater.view_eq, (hlater.timely h.timely).busy_lt, hlate _⟩

theorem Holds.mouseWrite {p : Ps2} {v : Ps2View} (h : Holds p v) (data : UInt8) :
    Holds (FirstKernel.mouseWrite (ports busyTime lateTime) data p)
      ((v.command 0xD4).data data) :=
  (h.write hbusy hlate (Ps2View.command 0xD4)).write hbusy hlate (Ps2View.data data)

/-- What the buffer holds from the first read on. -/
def answers (v : Ps2View) : List UInt8 := v.output ++ [v.config &&& 0xDF, 0xFA, 0xFA]

omit hbusy hlate in
/-- What `init_mouse` writes and reads, if all of it arrives. -/
theorem read_handshake (v : Ps2View) :
    ((((((((v.command 0xA8).command 0x20).read.command 0x60).data
      (((v.command 0xA8).command 0x20).output.headD 0 ||| 2)).command 0xD4).data
        0xF6).read.command 0xD4).data 0xF4).read =
      { config := (answers v).headD 0 ||| 2
        expects := none
        output := (answers v).drop 3
        device := ⟨100, 2, true⟩ } := by
  obtain ⟨config, expects, output, device⟩ := v
  have hrest : (((output ++ [config &&& 0xDF]).tail ++ [0xFA]).tail ++ [0xFA]).tail =
      (output ++ [config &&& 0xDF, 0xFA, 0xFA]).drop 3 := by
    rcases output with _ | ⟨first, _ | ⟨second, rest⟩⟩
    · rfl
    · rfl
    · simp
  have hfirst : (output ++ [config &&& 0xDF]).headD 0 =
      (output ++ [config &&& 0xDF, 0xFA, 0xFA]).headD 0 := by
    cases output <;> rfl
  simp only [answers, ← hrest, ← hfirst]
  rfl

/-- **The mouse is switched on.** However long the controller and the mouse take, but for the
patience of `mouse_wait`: the mouse is set to its defaults and reports. The configuration is the
first byte that was there to read, with the interrupt of the mouse, and as many bytes are left
behind as there were before. So it is the controller's own, and none is taken for a movement
later, if the buffer was empty. -/
theorem view_initMouse {p : Ps2} (hp : p.Timely) :
    (initMouse (ports busyTime lateTime) p).view =
      { config := (answers p.view).headD 0 ||| 2
        expects := none
        output := (answers p.view).drop 3
        device := ⟨100, 2, true⟩ } ∧
      ((initMouse (ports busyTime lateTime) p).view.output = [] ↔ p.view.output = []) := by
  suffices hview : (initMouse (ports busyTime lateTime) p).view =
      { config := (answers p.view).headD 0 ||| 2
        expects := none
        output := (answers p.view).drop 3
        device := ⟨100, 2, true⟩ } by
    refine ⟨hview, ?_⟩
    rw [hview, ← List.length_eq_zero_iff, ← List.length_eq_zero_iff]
    show ((answers p.view).drop 3).length = 0 ↔ _
    rw [List.length_drop, answers, List.length_append]
    exact Iff.rfl
  have h0 : Holds p p.view := ⟨rfl, hp⟩
  have h1 := (h0.write hbusy hlate (Ps2View.command 0xA8)).write hbusy hlate (Ps2View.command 0x20)
  obtain ⟨hstatus, h2⟩ := h1.readData hlate (List.append_ne_nil_of_right_ne_nil _ (by simp))
  have h3 := (h2.write hbusy hlate (Ps2View.command 0x60)).write hbusy hlate (Ps2View.data
    (((p.view.command 0xA8).command 0x20).output.headD 0 ||| 2))
  have h4 := h3.mouseWrite hbusy hlate 0xF6
  obtain ⟨-, h5⟩ := h4.readData hlate (List.append_ne_nil_of_right_ne_nil _ (by simp))
  have h6 := h5.mouseWrite hbusy hlate 0xF4
  obtain ⟨-, h7⟩ := h6.readData hlate (List.append_ne_nil_of_right_ne_nil _ (by simp))
  rw [← hstatus] at h7
  refine h7.view_eq.trans ?_
  rw [hstatus]
  exact read_handshake p.view

end

/-- A key has been pressed before. -/
def keyPressed : Ps2 := ⟨⟨0x45, none, [0x1E], ⟨0, 0, false⟩⟩, 3, 0, 0⟩

theorem view_initMouse_keyPressed :
    (initMouse (ports (fun _ => 7) fun n => 20 * (n % 4)) keyPressed).view =
      { config := (answers keyPressed.view).headD 0 ||| 2
        expects := none
        output := (answers keyPressed.view).drop 3
        device := ⟨100, 2, true⟩ } ∧
      ((initMouse (ports (fun _ => 7) fun n => 20 * (n % 4)) keyPressed).view.output = [] ↔
        keyPressed.view.output = []) := by
  have hlate : ∀ n, 20 * (n % 4) < mouseTimeout := by
    intro n
    show 20 * (n % 4) < 100000
    omega
  exact view_initMouse (fun _ => by decide) hlate ⟨by decide, by decide⟩

example : (answers keyPressed.view).headD 0 ||| 2 = 0x1E ∧
    (answers keyPressed.view).drop 3 = [0xFA] := by
  decide

end Ps2

end FirstKernel
