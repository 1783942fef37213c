import FirstKernel.Gdt
import FirstKernel.Ports

/-!
# Interrupt gates, `cpu/idt.c` and `cpu/isr.c`

`isr_install` initializes the interrupt controllers and builds the table
of gates. The processor finds the gate of a vector by its place in the
table and puts the address of the handler together from two halves; where
it finds no gate it raises a general protection fault instead, which has a
gate of its own.

The nine handlers are found whatever their addresses are, and only by the
kernel: all gates have privilege level 0, so an `int` instruction in user
mode is a general protection fault as well (`dispatch_isrInstall`).
-/

namespace FirstKernel

open Buffer

variable {σ : Type}

structure IdtEntry where
  baseLo : UInt16
  sel : UInt16
  always0 : UInt8
  flags : UInt8
  baseHi : UInt16

/-- The entry in memory: the struct is packed. -/
def IdtEntry.bytes (e : IdtEntry) : List UInt8 :=
  bytes16 e.baseLo ++ bytes16 e.sel ++ [e.always0, e.flags] ++ bytes16 e.baseHi

structure IdtRegister where
  limit : UInt16
  base : UInt32

/-- `IDT_ENTRIES` -/
def idtEntries : Nat := 256

instance neZero_idtEntries : NeZero idtEntries := ⟨by decide⟩

/-- The variables of `idt.c`. -/
structure Idt where
  idt : Fin idtEntries → IdtEntry
  idtReg : IdtRegister

/-- `sizeof(struct idt_entry)` -/
def sizeofIdtEntry : UInt32 := 8

def idtEntry (handler : UInt32) : IdtEntry where
  baseLo := (handler &&& 0xFFFF).toUInt16
  sel := 0x08
  always0 := 0
  flags := 0x8E
  baseHi := ((handler >>> 16) &&& 0xFFFF).toUInt16

def setIdtGate (n : Fin idtEntries) (handler : UInt32) (t : Idt) : Idt :=
  { t with idt := Function.update t.idt n (idtEntry handler) }

/-- Up to the instruction `lidt`; `idtAddr` is the address of `idt`. -/
def setIdt (idtAddr : UInt32) (t : Idt) : Idt :=
  { t with idtReg := ⟨(UInt32.ofNat idtEntries * sizeofIdtEntry - 1).toUInt16, idtAddr⟩ }

/-! ## Installation -/

def picRemap (ports : BytePorts σ) (s : σ) : σ :=
  let s := (ports.bytesIn 0x21 s).2
  let s := (ports.bytesIn 0xA1 s).2
  let s := ports.bytesOut 0x20 0x11 s
  let s := ports.bytesOut 0xA0 0x11 s
  let s := ports.bytesOut 0x21 0x20 s
  let s := ports.bytesOut 0xA1 0x28 s
  let s := ports.bytesOut 0x21 0x04 s
  let s := ports.bytesOut 0xA1 0x02 s
  let s := ports.bytesOut 0x21 0x01 s
  let s := ports.bytesOut 0xA1 0x01 s
  let s := ports.bytesOut 0x21 0x00 s
  ports.bytesOut 0xA1 0x00 s

/-- The handlers of `interrupt.asm`. -/
inductive Isr where
  | isr0
  | isr13
  | isr14
  | isr32
  | isr33
  | isr43
  | isr44
  | isr46
  | isr128
deriving DecidableEq

def isrInstall (ports : BytePorts σ) (idtAddr : UInt32) (address : Isr → UInt32) (s : σ)
    (t : Idt) : σ × Idt :=
  let s := picRemap ports s
  let t := setIdtGate 0 (address .isr0) t
  let t := setIdtGate 13 (address .isr13) t
  let t := setIdtGate 14 (address .isr14) t
  let t := setIdtGate 32 (address .isr32) t
  let t := setIdtGate 33 (address .isr33) t
  let t := setIdtGate 43 (address .isr43) t
  let t := setIdtGate 44 (address .isr44) t
  let t := setIdtGate 46 (address .isr46) t
  let t := setIdtGate 128 (address .isr128) t
  (s, setIdt idtAddr t)

/-! ## What the processor finds -/

namespace Idt

/-- The table in memory, from `idtReg.base` on. -/
def bytes (t : Idt) : List UInt8 := (List.ofFn t.idt).flatMap IdtEntry.bytes

/-- The index of a vector's gate. -/
def index (vector : UInt8) : Fin idtEntries := ⟨vector.toNat, vector.toNat_lt⟩

/-- The eight bytes of a vector's gate. -/
def descriptor (t : Idt) (vector : UInt8) : List UInt8 :=
  (t.bytes.drop (8 * vector.toNat)).take 8

end Idt

structure Gate where
  selector : Nat
  offset : Nat
  ring : Nat

/-- A present 32-bit interrupt gate. -/
def decodeGate (d : List UInt8) : Option Gate :=
  if byteAt d 5 / 128 = 1 ∧ byteAt d 5 % 32 = 14 then
    some
      { selector := byteAt d 2 + 256 * byteAt d 3
        offset := byteAt d 0 + 256 * byteAt d 1 + 65536 * (byteAt d 6 + 256 * byteAt d 7)
        ring := byteAt d 5 / 32 % 4 }
  else none

/-- The gate of a vector, if there is one within the limit. -/
def findGate (t : Idt) (vector : UInt8) : Option Gate :=
  if 8 * vector.toNat + 7 ≤ t.idtReg.limit.toNat then decodeGate (t.descriptor vector) else none

/-- The gate that an interrupt goes through. A program that asks for it by an instruction must be
privileged enough, and what has no gate is a general protection fault. -/
def dispatch (t : Idt) (program : Option Nat) (vector : UInt8) : Option Gate :=
  match findGate t vector with
  | some gate => if ∀ ring ∈ program, ring ≤ gate.ring then some gate else findGate t 13
  | none => findGate t 13

/-! ## Entries -/

theorem decodeGate_bytes (e : IdtEntry) : decodeGate e.bytes =
    if e.flags.toNat / 128 = 1 ∧ e.flags.toNat % 32 = 14 then
      some ⟨e.sel.toNat, e.baseLo.toNat + 65536 * e.baseHi.toNat, e.flags.toNat / 32 % 4⟩
    else none := by
  rw [← bytes16_toNat e.sel, ← bytes16_toNat e.baseLo, ← bytes16_toNat e.baseHi]
  rfl

/-- The processor puts the two halves of the address together. -/
theorem decodeGate_idtEntry (handler : UInt32) :
    decodeGate (idtEntry handler).bytes = some ⟨0x08, handler.toNat, 0⟩ := by
  have hlow := toNat_and_mask handler 0xFFFF 16 rfl
  have hhigh := toNat_and_mask (handler >>> 16) 0xFFFF 16 rfl
  rw [toNat_shiftRight_16] at hhigh
  have hlt := handler.toNat_lt
  have haddress : (handler &&& 0xFFFF).toUInt16.toNat +
      65536 * ((handler >>> 16) &&& 0xFFFF).toUInt16.toNat = handler.toNat := by
    rw [UInt32.toNat_toUInt16, UInt32.toNat_toUInt16, hlow, hhigh]
    omega
  have hflags : (idtEntry handler).flags = 0x8E := rfl
  have hsel : (idtEntry handler).sel = 0x08 := rfl
  rw [decodeGate_bytes, ← haddress, hflags, hsel]
  rfl

theorem length_idtEntry_bytes (e : IdtEntry) : e.bytes.length = 8 := rfl

/-- Blocks of one length are found by their number. -/
theorem take_drop_flatMap {α β : Type*} {f : α → List β} {n : Nat} (hf : ∀ x, (f x).length = n) :
    ∀ {l : List α} {i : Nat} {x : α}, l[i]? = some x → ((l.flatMap f).drop (n * i)).take n = f x
  | [], _, _, h => by cases h
  | y :: l, 0, x, h => by
      obtain rfl := Option.some.inj h
      rw [Nat.mul_zero, List.drop_zero, List.flatMap_cons, List.take_left' (hf y)]
  | y :: l, i + 1, x, h => by
      rw [List.flatMap_cons, Nat.mul_succ, Nat.add_comm, ← List.drop_drop, List.drop_left' (hf y)]
      exact take_drop_flatMap hf h

theorem descriptor_eq (t : Idt) (vector : UInt8) :
    t.descriptor vector = (t.idt (Idt.index vector)).bytes := by
  refine take_drop_flatMap length_idtEntry_bytes ?_
  have hlt : vector.toNat < idtEntries := vector.toNat_lt
  exact List.getElem?_ofFn.trans (dif_pos hlt)

/-! ## The table -/

/-- The handler whose gate a vector has. -/
def isrOf (vector : Fin idtEntries) : Option Isr :=
  if vector = 128 then some .isr128
  else if vector = 46 then some .isr46
  else if vector = 44 then some .isr44
  else if vector = 43 then some .isr43
  else if vector = 33 then some .isr33
  else if vector = 32 then some .isr32
  else if vector = 14 then some .isr14
  else if vector = 13 then some .isr13
  else if vector = 0 then some .isr0
  else none

/-- The table before the first gate is set. -/
def blankIdt : Idt := ⟨fun _ => ⟨0, 0, 0, 0, 0⟩, ⟨0, 0⟩⟩

theorem decodeGate_blank : decodeGate (IdtEntry.bytes ⟨0, 0, 0, 0, 0⟩) = none := by decide

variable (ports : BytePorts σ) (idtAddr : UInt32) (address : Isr → UInt32) (s : σ)

theorem isrInstall_idt (t : Idt) (vector : Fin idtEntries) :
    (isrInstall ports idtAddr address s t).2.idt vector =
      ((isrOf vector).map fun isr => idtEntry (address isr)).getD (t.idt vector) := by
  simp only [isrInstall, setIdtGate, setIdt, Function.update_apply, isrOf]
  split_ifs <;> rfl

theorem findGate_isrInstall (vector : UInt8) :
    findGate (isrInstall ports idtAddr address s blankIdt).2 vector =
      (isrOf (Idt.index vector)).map fun isr => ⟨0x08, (address isr).toNat, 0⟩ := by
  have hlimit : 8 * vector.toNat + 7 ≤
      (isrInstall ports idtAddr address s blankIdt).2.idtReg.limit.toNat := by
    have hlt := vector.toNat_lt
    show 8 * vector.toNat + 7 ≤ 2047
    omega
  rw [findGate, if_pos hlimit, descriptor_eq, isrInstall_idt]
  cases isrOf (Idt.index vector) with
  | none => exact decodeGate_blank
  | some isr => exact decodeGate_idtEntry (address isr)

/-- Whoever is not privileged, or asks for a vector without a handler, comes to that of the
general protection fault. -/
theorem dispatch_isrInstall (program : Option Nat) (vector : UInt8) :
    dispatch (isrInstall ports idtAddr address s blankIdt).2 program vector =
      some ⟨0x08, (address (if ∀ ring ∈ program, ring = 0 then
        (isrOf (Idt.index vector)).getD .isr13 else .isr13)).toNat, 0⟩ := by
  have hfault : findGate (isrInstall ports idtAddr address s blankIdt).2 13 =
      some ⟨0x08, (address .isr13).toNat, 0⟩ := findGate_isrInstall ports idtAddr address s 13
  rw [dispatch, findGate_isrInstall, hfault]
  cases isrOf (Idt.index vector) with
  | none => simp
  | some isr =>
      simp only [Option.map_some, Nat.le_zero, Option.getD_some]
      split_ifs <;> rfl

end FirstKernel
