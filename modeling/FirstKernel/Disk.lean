import FirstKernel.Bytes
import FirstKernel.Ports

/-!
# The disk driver, `drivers/disk.c`

`read_sector` and `write_sector` put a sector number into the registers of
an ATA drive, give it a command, wait for its status and move 256 words
through its data port. The waiting loops have no bound in the source; here
they run on `rounds`.

The drive is not part of the repository. `Drive` is what the driver relies
on: the status bits, the registers it latches, the sector number they
form, and the transfers after the commands. A drive may be busy at any
time that the laws leave open, for as long as it likes, and need not take
what is written to its registers then: `accepts` are the states in which
it does, the ready ones at least.
-/

namespace FirstKernel

namespace Ata

variable {σ : Type}

/-! ## The driver -/

theorem word_lt (i : Fin 256) : 2 * i.val + 1 < 512 := by omega

/-- `buffer_16[i]` -/
def word (buffer : Buffer 512) (i : Fin 256) : UInt16 := buffer.load16 (2 * i.val) (word_lt i)

/-- `buffer_16[i] = w` -/
def setWord (buffer : Buffer 512) (i : Fin 256) (w : UInt16) : Buffer 512 :=
  buffer.store16 (2 * i.val) w

/-- The calls that both functions make for a sector number. -/
def outAddress (ports : Ports σ) (lba : Int32) (s : σ) : σ :=
  let s := ports.bytesOut 0x1F6 ((0xE0 : Int32) ||| (lba >>> 24 &&& 0x0F)).toUInt32.toUInt8 s
  let s := ports.bytesOut 0x1F2 1 s
  let s := ports.bytesOut 0x1F3 lba.toUInt32.toUInt8 s
  let s := ports.bytesOut 0x1F4 (lba >>> 8).toUInt32.toUInt8 s
  ports.bytesOut 0x1F5 (lba >>> 16).toUInt32.toUInt8 s

/-- `while (!(status & 0x08))` -/
def awaitData (ports : Ports σ) : Nat → σ → Except Fault σ :=
  poll (ports.bytesIn 0x1F7) fun status => status &&& 0x08 != 0

/-- `while (status & 0x80)` -/
def awaitIdle (ports : Ports σ) : Nat → σ → Except Fault σ :=
  poll (ports.bytesIn 0x1F7) fun status => status &&& 0x80 == 0

/-- `buffer_16[i] = port_word_in(0x1F0)`, with what has been read and the drive. -/
def wordToBuffer (ports : Ports σ) (r : Buffer 512 × σ) (i : Fin 256) : Buffer 512 × σ :=
  (setWord r.1 i (ports.wordIn 0x1F0 r.2).1, (ports.wordIn 0x1F0 r.2).2)

/-- `port_word_out(0x1F0, buffer_16[i])` -/
def wordFromBuffer (ports : Ports σ) (buffer : Buffer 512) (s : σ) (i : Fin 256) : σ :=
  ports.wordOut 0x1F0 (word buffer i) s

def readSector (ports : Ports σ) (rounds : Nat) (lba : Int32) (buffer : Buffer 512) (s : σ) :
    Except Fault (Buffer 512 × σ) := do
  let s := outAddress ports lba s
  let s := ports.bytesOut 0x1F7 0x20 s
  let s ← awaitData ports rounds s
  .ok (Fin.foldl 256 (wordToBuffer ports) (buffer, s))

def writeSector (ports : Ports σ) (rounds : Nat) (lba : Int32) (buffer : Buffer 512) (s : σ) :
    Except Fault σ := do
  let s ← awaitIdle ports rounds s
  let s := outAddress ports lba s
  let s := ports.bytesOut 0x1F7 0x30 s
  let s ← awaitData ports rounds s
  let s := Fin.foldl 256 (wordFromBuffer ports buffer) s
  let s := ports.bytesOut 0x1F7 0xE7 s
  awaitIdle ports rounds s

/-! ## The drive -/

/-- What a drive has to transfer, from which word of the sector on. -/
inductive Transfer where
  | none
  | toHost (lba next : Nat)
  | toDisk (lba : Nat) (received : Buffer 512) (next : Nat)

structure DriveState where
  sectors : Nat → Buffer 512
  transfer : Transfer

/-- A word has been sent, the last one of the sector or not. -/
def DriveState.sent (d : DriveState) (lba : Nat) (i : Fin 256) : DriveState :=
  { d with transfer := if i.val + 1 < 256 then .toHost lba (i.val + 1) else .none }

/-- A word has been received; with the last one the sector is stored. -/
def DriveState.took (d : DriveState) (lba : Nat) (received : Buffer 512) (i : Fin 256)
    (w : UInt16) : DriveState :=
  if i.val + 1 < 256 then
    { d with transfer := .toDisk lba (setWord received i w) (i.val + 1) }
  else { sectors := Function.update d.sectors lba (setWord received i w), transfer := .none }

/-- The 28 bits of the sector number in the registers. -/
def address (latch : UInt16 → UInt8) : Nat :=
  (latch 0x1F6).toNat % 16 * 2 ^ 24 + (latch 0x1F5).toNat * 2 ^ 16 + (latch 0x1F4).toNat * 2 ^ 8 +
    (latch 0x1F3).toNat

/-- One sector of the first drive, by its number. -/
def Addressed (latch : UInt16 → UInt8) : Prop :=
  latch 0x1F2 = 1 ∧ latch 0x1F6 &&& 0xF0 = 0xE0

/-- A drive behind the ports. `waits` is how often its status is read before it is ready. -/
structure Drive (σ : Type) where
  ports : Ports σ
  latch : σ → UInt16 → UInt8
  state : σ → DriveState
  waits : σ → Nat
  /-- What is written to the registers is taken. -/
  accepts : σ → Prop
  accepts_ready : ∀ s, waits s = 0 → (state s).transfer = .none → accepts s
  status_keeps : ∀ s, state (ports.bytesIn 0x1F7 s).2 = state s ∧
    (accepts s → accepts (ports.bytesIn 0x1F7 s).2)
  status_busy : ∀ s, 0 < waits s → (ports.bytesIn 0x1F7 s).1 &&& 0x80 ≠ 0 ∧
    (ports.bytesIn 0x1F7 s).1 &&& 0x08 = 0 ∧ waits (ports.bytesIn 0x1F7 s).2 < waits s
  status_ready : ∀ s, waits s = 0 → (ports.bytesIn 0x1F7 s).1 &&& 0x80 = 0 ∧
    ((ports.bytesIn 0x1F7 s).1 &&& 0x08 ≠ 0 ↔ (state s).transfer ≠ .none) ∧
    waits (ports.bytesIn 0x1F7 s).2 = 0
  latch_out : ∀ s port v, accepts s → 0x1F2 ≤ port → port ≤ 0x1F6 →
    accepts (ports.bytesOut port v s) ∧
    latch (ports.bytesOut port v s) = Function.update (latch s) port v ∧
    (state (ports.bytesOut port v s)).sectors = (state s).sectors
  read_command : ∀ s, accepts s → Addressed (latch s) →
    state (ports.bytesOut 0x1F7 0x20 s) =
      { sectors := (state s).sectors, transfer := .toHost (address (latch s)) 0 }
  write_command : ∀ s, accepts s → Addressed (latch s) → ∃ received,
    state (ports.bytesOut 0x1F7 0x30 s) =
      { sectors := (state s).sectors, transfer := .toDisk (address (latch s)) received 0 }
  word_in : ∀ s lba (i : Fin 256), waits s = 0 → (state s).transfer = .toHost lba i.val →
    (ports.wordIn 0x1F0 s).1 = word ((state s).sectors lba) i ∧
    state (ports.wordIn 0x1F0 s).2 = (state s).sent lba i ∧
    (i.val + 1 < 256 → waits (ports.wordIn 0x1F0 s).2 = 0) ∧
    (i.val + 1 = 256 → accepts (ports.wordIn 0x1F0 s).2)
  word_out : ∀ s lba received (i : Fin 256) w, waits s = 0 →
    (state s).transfer = .toDisk lba received i.val →
    state (ports.wordOut 0x1F0 w s) = (state s).took lba received i w ∧
    (i.val + 1 < 256 → waits (ports.wordOut 0x1F0 w s) = 0)
  /-- `0xE7` has the drive empty its buffers; a busy drive may ignore it. -/
  flush_command : ∀ s, (state s).transfer = .none → state (ports.bytesOut 0x1F7 0xE7 s) = state s

/-! ## A plain drive -/

/-- A drive that takes nothing while it is busy or has data to transfer. -/
structure PlainDrive where
  latch : UInt16 → UInt8
  state : DriveState
  waits : Nat

namespace PlainDrive

def due (s : PlainDrive) : Bool :=
  match s.state.transfer with
  | .none => false
  | _ => true

def ready (s : PlainDrive) : Bool := s.waits == 0 && !s.due

def bytesIn (port : UInt16) (s : PlainDrive) : UInt8 × PlainDrive :=
  if port = 0x1F7 then
    (if 0 < s.waits then 0x80 else if s.due then 0x48 else 0x40, { s with waits := s.waits - 1 })
  else (s.latch port, s)

/-- A command keeps the drive busy for the next `delay` readings of its status. -/
def command (delay : Nat) (data : UInt8) (s : PlainDrive) : PlainDrive :=
  let transfer :=
    if data = 0x20 then .toHost (address s.latch) 0
    else if data = 0x30 then .toDisk (address s.latch) (Buffer.zeros 512) 0
    else .none
  { s with state := { sectors := s.state.sectors, transfer := transfer }, waits := delay }

def bytesOut (delay : Nat) (port : UInt16) (data : UInt8) (s : PlainDrive) : PlainDrive :=
  if s.ready then
    if port = 0x1F7 then s.command delay data
    else { s with latch := Function.update s.latch port data }
  else s

def wordIn (_ : UInt16) (s : PlainDrive) : UInt16 × PlainDrive :=
  match s.state.transfer with
  | .toHost lba i =>
      if h : i < 256 then
        (word (s.state.sectors lba) ⟨i, h⟩, { s with state := s.state.sent lba ⟨i, h⟩ })
      else (0, s)
  | _ => (0, s)

def wordOut (delay : Nat) (_ : UInt16) (w : UInt16) (s : PlainDrive) : PlainDrive :=
  match s.state.transfer with
  | .toDisk lba received i =>
      if h : i < 256 then
        { s with
          state := s.state.took lba received ⟨i, h⟩ w
          waits := if i + 1 < 256 then 0 else delay }
      else s
  | _ => s

theorem due_iff (s : PlainDrive) : s.due = true ↔ s.state.transfer ≠ .none := by
  rw [due]
  cases s.state.transfer <;> simp

theorem ready_iff (s : PlainDrive) : s.ready = true ↔ s.waits = 0 ∧ s.state.transfer = .none := by
  have hdue : s.due = false ↔ s.state.transfer = .none := by
    rw [← Bool.not_eq_true, s.due_iff, not_not]
  rw [ready, Bool.and_eq_true, beq_iff_eq, Bool.not_eq_true', hdue]

theorem status_keeps (s : PlainDrive) :
    (s.bytesIn 0x1F7).2.state = s.state ∧ (s.ready = true → (s.bytesIn 0x1F7).2.ready = true) := by
  refine ⟨rfl, fun h => ?_⟩
  obtain ⟨hwaits, hnone⟩ := s.ready_iff.mp h
  exact (ready_iff _).mpr ⟨congrArg (· - 1) hwaits, hnone⟩

theorem status_busy (s : PlainDrive) (hpos : 0 < s.waits) :
    (s.bytesIn 0x1F7).1 &&& 0x80 ≠ 0 ∧ (s.bytesIn 0x1F7).1 &&& 0x08 = 0 ∧
      (s.bytesIn 0x1F7).2.waits < s.waits := by
  have hstatus : (s.bytesIn 0x1F7).1 = 0x80 := if_pos hpos
  rw [hstatus]
  exact ⟨by decide, by decide, Nat.sub_lt hpos Nat.one_pos⟩

theorem status_ready (s : PlainDrive) (hzero : s.waits = 0) :
    (s.bytesIn 0x1F7).1 &&& 0x80 = 0 ∧
      ((s.bytesIn 0x1F7).1 &&& 0x08 ≠ 0 ↔ s.state.transfer ≠ .none) ∧
      (s.bytesIn 0x1F7).2.waits = 0 := by
  have hstatus : (s.bytesIn 0x1F7).1 = if s.due then 0x48 else 0x40 :=
    if_neg (Nat.not_lt.mpr (Nat.le_of_eq hzero))
  have hwaits : (s.bytesIn 0x1F7).2.waits = 0 := congrArg (· - 1) hzero
  rw [hstatus, ← s.due_iff]
  cases s.due with
  | true => exact ⟨by decide, iff_of_true (by decide) rfl, hwaits⟩
  | false => exact ⟨by decide, iff_of_false (by decide) Bool.false_ne_true, hwaits⟩

theorem latch_out (delay : Nat) (s : PlainDrive) (port : UInt16) (v : UInt8) (h : s.ready = true)
    (hhi : port ≤ 0x1F6) :
    (s.bytesOut delay port v).ready = true ∧
      (s.bytesOut delay port v).latch = Function.update s.latch port v ∧
      (s.bytesOut delay port v).state.sectors = s.state.sectors := by
  have hne : port ≠ 0x1F7 := by
    rintro rfl
    exact absurd hhi (by decide)
  rw [bytesOut, if_pos h, if_neg hne]
  exact ⟨h, rfl, rfl⟩

theorem command_out (delay : Nat) (s : PlainDrive) (data : UInt8) (h : s.ready = true) :
    s.bytesOut delay 0x1F7 data = s.command delay data := if_pos h

theorem word_in (s : PlainDrive) (lba : Nat) (i : Fin 256) (hzero : s.waits = 0)
    (hdue : s.state.transfer = .toHost lba i.val) :
    (s.wordIn 0x1F0).1 = word (s.state.sectors lba) i ∧
      (s.wordIn 0x1F0).2.state = s.state.sent lba i ∧
      (i.val + 1 < 256 → (s.wordIn 0x1F0).2.waits = 0) ∧
      (i.val + 1 = 256 → (s.wordIn 0x1F0).2.ready = true) := by
  have hword : s.wordIn 0x1F0 =
      (word (s.state.sectors lba) i, { s with state := s.state.sent lba i }) := by
    rw [wordIn, hdue]
    exact dif_pos i.isLt
  rw [hword]
  refine ⟨rfl, rfl, fun _ => hzero, fun hlast => (ready_iff _).mpr ⟨hzero, ?_⟩⟩
  exact if_neg (Nat.not_lt.mpr (Nat.le_of_eq hlast.symm))

theorem word_out (delay : Nat) (s : PlainDrive) (lba : Nat) (received : Buffer 512) (i : Fin 256)
    (w : UInt16) (hdue : s.state.transfer = .toDisk lba received i.val) :
    (s.wordOut delay 0x1F0 w).state = s.state.took lba received i w ∧
      (i.val + 1 < 256 → (s.wordOut delay 0x1F0 w).waits = 0) := by
  have hword : s.wordOut delay 0x1F0 w =
      { s with
        state := s.state.took lba received i w
        waits := if i.val + 1 < 256 then 0 else delay } := by
    rw [wordOut, hdue]
    exact dif_pos i.isLt
  rw [hword]
  exact ⟨rfl, fun hmore => if_pos hmore⟩

theorem flush_command (delay : Nat) (s : PlainDrive) (hnone : s.state.transfer = .none) :
    (s.bytesOut delay 0x1F7 0xE7).state = s.state := by
  by_cases h : s.ready = true
  · rw [command_out delay s 0xE7 h]
    exact congrArg (DriveState.mk _) hnone.symm
  · rw [bytesOut, if_neg h]

end PlainDrive

def plainDrive (delay : Nat) : Drive PlainDrive where
  ports :=
    { bytesIn := PlainDrive.bytesIn
      bytesOut := PlainDrive.bytesOut delay
      wordIn := PlainDrive.wordIn
      wordOut := PlainDrive.wordOut delay }
  latch := PlainDrive.latch
  state := PlainDrive.state
  waits := PlainDrive.waits
  accepts s := s.ready = true
  accepts_ready s hwaits hnone := s.ready_iff.mpr ⟨hwaits, hnone⟩
  status_keeps := PlainDrive.status_keeps
  status_busy := PlainDrive.status_busy
  status_ready := PlainDrive.status_ready
  latch_out s port v h _ hhi := s.latch_out delay port v h hhi
  read_command s h _ := congrArg PlainDrive.state (s.command_out delay 0x20 h)
  write_command s h _ := ⟨_, congrArg PlainDrive.state (s.command_out delay 0x30 h)⟩
  word_in := PlainDrive.word_in
  word_out s lba received i w _ hdue := s.word_out delay lba received i w hdue
  flush_command := PlainDrive.flush_command delay

end Ata

end FirstKernel
