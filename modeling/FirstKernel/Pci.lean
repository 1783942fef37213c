import FirstKernel.CString
import FirstKernel.Ports

/-!
# The PCI bus, `drivers/pci.c`

A function on the bus has registers that are reached through two ports:
one takes the address of a register, the other is the register then. The
address has fields for the bus, the slot, the function and the register,
which `pci_read_word` and its relatives in `e1000.c` put together and the
bridge takes apart again (`read_pciAddress`).

`check_all_pci_buses` prints what is in the slots of the first bus, and
leaves the functions on it alone (`checkAllPciBuses_eq`).
-/

namespace FirstKernel

structure DwordPorts (σ : Type) where
  dwordIn : UInt16 → σ → UInt32 × σ
  dwordOut : UInt16 → UInt32 → σ → σ

/-! ## The bridge -/

structure PciFunction where
  bus : Nat
  slot : Nat
  func : Nat
deriving DecidableEq

/-- The registers of the functions on a bus, by their numbers. -/
structure ConfigSpace (τ : Type) where
  read : PciFunction → Nat → τ → UInt32
  write : PciFunction → Nat → UInt32 → τ → τ

namespace ConfigSpace

variable {τ : Type}

/-- The fields of an address. -/
def functionOf (address : UInt32) : PciFunction where
  bus := address.toNat / 2 ^ 16 % 2 ^ 8
  slot := address.toNat / 2 ^ 11 % 2 ^ 5
  func := address.toNat / 2 ^ 8 % 2 ^ 3

def registerOf (address : UInt32) : Nat := address.toNat / 2 ^ 2 % 2 ^ 6

def enabled (address : UInt32) : Prop := address.toNat / 2 ^ 31 = 1

instance (address : UInt32) : Decidable (enabled address) :=
  inferInstanceAs (Decidable (_ = _))

/-- The two ports, with the address that has been written to the first. -/
def ports (c : ConfigSpace τ) : DwordPorts (UInt32 × τ) where
  dwordIn port s :=
    if port = 0xCFC ∧ enabled s.1 then (c.read (functionOf s.1) (registerOf s.1) s.2, s)
    else (0xFFFFFFFF, s)
  dwordOut port data s :=
    if port = 0xCF8 then (data, s.2)
    else if port = 0xCFC ∧ enabled s.1 then
      (s.1, c.write (functionOf s.1) (registerOf s.1) data s.2)
    else s

end ConfigSpace

/-! ## Access -/

section

variable {σ : Type} (ports : DwordPorts σ)

def pciAddress (bus slot func offset : UInt8) : UInt32 :=
  bus.toUInt32 <<< 16 ||| slot.toUInt32 <<< 11 ||| func.toUInt32 <<< 8 |||
    (offset &&& 0xFC).toUInt32 ||| 0x80000000

def pciReadWord (bus slot func offset : UInt8) (s : σ) : UInt32 × σ :=
  let s := ports.dwordOut 0xCF8 (pciAddress bus slot func offset) s
  let (data, s) := ports.dwordIn 0xCFC s
  (data >>> ((offset &&& 2).toUInt32 * 8) &&& 0xFFFF, s)

def pciReadDword (bus slot func offset : UInt8) (s : σ) : UInt32 × σ :=
  let s := ports.dwordOut 0xCF8 (pciAddress bus slot func offset) s
  ports.dwordIn 0xCFC s

def pciWriteDword (bus slot func offset : UInt8) (data : UInt32) (s : σ) : σ :=
  let s := ports.dwordOut 0xCF8 (pciAddress bus slot func offset) s
  ports.dwordOut 0xCFC data s

/-- One round of the loop, with what has been printed. -/
def checkSlot (r : List Text × σ) (device : Nat) : List Text × σ :=
  let (vendorId, s) := pciReadWord ports 0 (UInt8.ofNat device) 0 0 r.2
  if vendorId ≠ 0xFFFF then
    let (deviceId, s) := pciReadWord ports 0 (UInt8.ofNat device) 0 2 s
    (r.1 ++ [text "device detected! seller: ", hexToString vendorId, text " Device: ",
      hexToString deviceId, text "\n"], s)
  else (r.1, s)

def checkAllPciBuses (s : σ) : List Text × σ :=
  (List.range 32).foldl (checkSlot ports) ([text "Scanning Bus PCI...\n"], s)

end

/-! ## Addresses -/

theorem toNat_and_0xFC (offset : UInt8) : (offset &&& 0xFC).toNat = offset.toNat / 4 * 4 := by
  have hall : ∀ n < 256, n &&& 0xFC = n / 4 * 4 := by decide +kernel
  rw [UInt8.toNat_and]
  exact hall offset.toNat offset.toNat_lt

/-- A field below the bits of a number. -/
theorem mul_two_pow_or {a b k : Nat} (hb : b < 2 ^ k) : a * 2 ^ k ||| b = a * 2 ^ k + b := by
  rw [Nat.mul_comm, Nat.two_pow_add_eq_or_of_lt hb]

/-- The fields do not overlap. -/
theorem toNat_pciAddress {slot func : UInt8} (hslot : slot.toNat < 32) (hfunc : func.toNat < 8)
    (bus offset : UInt8) : (pciAddress bus slot func offset).toNat =
      2 ^ 31 + (((bus.toNat * 2 ^ 5 + slot.toNat) * 2 ^ 3 + func.toNat) * 2 ^ 8 +
        offset.toNat / 4 * 4) := by
  have hbus := bus.toNat_lt
  have hoffset := offset.toNat_lt
  have hlow : offset.toNat / 4 * 4 < 2 ^ 8 := by omega
  have hshift : ∀ (v : UInt8) (k : UInt32), k.toNat < 32 → v.toNat * 2 ^ k.toNat < 2 ^ 32 →
      (v.toUInt32 <<< k).toNat = v.toNat * 2 ^ k.toNat := by
    intro v k hk hv
    rw [UInt32.toNat_shiftLeft, Nat.mod_eq_of_lt hk, Nat.shiftLeft_eq, UInt8.toNat_toUInt32,
      Nat.mod_eq_of_lt hv]
  rw [pciAddress, UInt32.toNat_or, UInt32.toNat_or, UInt32.toNat_or, UInt32.toNat_or,
    hshift bus 16 (by decide) (by show _ * 2 ^ 16 < _; omega),
    hshift slot 11 (by decide) (by show _ * 2 ^ 11 < _; omega),
    hshift func 8 (by decide) (by show _ * 2 ^ 8 < _; omega), UInt8.toNat_toUInt32,
    toNat_and_0xFC]
  show ((bus.toNat * 2 ^ 16 ||| slot.toNat * 2 ^ 11) ||| func.toNat * 2 ^ 8 |||
    offset.toNat / 4 * 4) ||| 2 ^ 31 = _
  have hslots : bus.toNat * 2 ^ 16 ||| slot.toNat * 2 ^ 11 =
      (bus.toNat * 2 ^ 5 + slot.toNat) * 2 ^ 11 := by
    rw [mul_two_pow_or (by omega)]
    omega
  have hfuncs : (bus.toNat * 2 ^ 5 + slot.toNat) * 2 ^ 11 ||| func.toNat * 2 ^ 8 =
      ((bus.toNat * 2 ^ 5 + slot.toNat) * 2 ^ 3 + func.toNat) * 2 ^ 8 := by
    rw [mul_two_pow_or (by omega)]
    omega
  have htop : ((bus.toNat * 2 ^ 5 + slot.toNat) * 2 ^ 3 + func.toNat) * 2 ^ 8 +
      offset.toNat / 4 * 4 < 2 ^ 31 := by omega
  have henable := mul_two_pow_or (a := 1) htop
  rw [hslots, hfuncs, mul_two_pow_or hlow, Nat.or_comm]
  rwa [Nat.one_mul] at henable

namespace ConfigSpace

variable {τ : Type}

section

variable {slot func : UInt8} (hslot : slot.toNat < 32) (hfunc : func.toNat < 8)
  (bus offset : UInt8)

include hslot hfunc

/-- The bridge takes the address apart again. -/
theorem functionOf_pciAddress :
    functionOf (pciAddress bus slot func offset) = ⟨bus.toNat, slot.toNat, func.toNat⟩ := by
  have hbus := bus.toNat_lt
  have hoffset := offset.toNat_lt
  rw [functionOf, toNat_pciAddress hslot hfunc, PciFunction.mk.injEq]
  omega

theorem registerOf_pciAddress :
    registerOf (pciAddress bus slot func offset) = offset.toNat / 4 := by
  have hoffset := offset.toNat_lt
  rw [registerOf, toNat_pciAddress hslot hfunc]
  omega

theorem enabled_pciAddress : enabled (pciAddress bus slot func offset) := by
  have hbus := bus.toNat_lt
  have hoffset := offset.toNat_lt
  rw [enabled, toNat_pciAddress hslot hfunc]
  omega

theorem pciReadDword_eq (c : ConfigSpace τ) (s : UInt32 × τ) :
    pciReadDword c.ports bus slot func offset s =
      (c.read ⟨bus.toNat, slot.toNat, func.toNat⟩ (offset.toNat / 4) s.2,
        (pciAddress bus slot func offset, s.2)) := by
  rw [← functionOf_pciAddress hslot hfunc bus offset,
    ← registerOf_pciAddress hslot hfunc bus offset]
  exact if_pos ⟨rfl, enabled_pciAddress hslot hfunc bus offset⟩

theorem pciWriteDword_eq (c : ConfigSpace τ) (data : UInt32) (s : UInt32 × τ) :
    pciWriteDword c.ports bus slot func offset data s =
      (pciAddress bus slot func offset,
        c.write ⟨bus.toNat, slot.toNat, func.toNat⟩ (offset.toNat / 4) data s.2) := by
  rw [← functionOf_pciAddress hslot hfunc bus offset,
    ← registerOf_pciAddress hslot hfunc bus offset]
  exact if_pos ⟨rfl, enabled_pciAddress hslot hfunc bus offset⟩

theorem pciReadWord_eq (c : ConfigSpace τ) (s : UInt32 × τ) :
    pciReadWord c.ports bus slot func offset s =
      (c.read ⟨bus.toNat, slot.toNat, func.toNat⟩ (offset.toNat / 4) s.2 >>>
          ((offset &&& 2).toUInt32 * 8) &&& 0xFFFF,
        (pciAddress bus slot func offset, s.2)) := by
  have hread := pciReadDword_eq hslot hfunc bus offset c s
  rw [pciReadDword] at hread
  simp only [pciReadWord, hread]

end

end ConfigSpace

/-! ## Hexadecimal numbers -/

theorem hexChars_injective : ∀ i < 16, ∀ j < 16, hexChars.getD i 0 = hexChars.getD j 0 → i = j := by
  decide

theorem toNat_and_0x0F (n : UInt32) : (n &&& 0x0F).toNat = n.toNat % 16 := by
  rw [UInt32.toNat_and]
  exact Nat.and_two_pow_sub_one_eq_mod _ 4

theorem toNat_shiftRight_4 (n : UInt32) : (n >>> 4).toNat = n.toNat / 16 := by
  rw [UInt32.toNat_shiftRight]
  exact Nat.shiftRight_eq_div_pow _ 4

theorem hexDigits_inj : ∀ {k : Nat} {n m : UInt32}, hexDigits k n = hexDigits k m →
    n.toNat % 16 ^ k = m.toNat % 16 ^ k
  | 0, n, m, _ => by rw [Nat.pow_zero, Nat.mod_one, Nat.mod_one]
  | k + 1, n, m, h => by
      obtain ⟨hdigit, hrest⟩ := List.cons.inj h
      have hlow : n.toNat % 16 = m.toNat % 16 := by
        rw [toNat_and_0x0F, toNat_and_0x0F] at hdigit
        exact hexChars_injective _ (Nat.mod_lt _ (by decide)) _ (Nat.mod_lt _ (by decide)) hdigit
      have hhigh := hexDigits_inj hrest
      rw [toNat_shiftRight_4, toNat_shiftRight_4] at hhigh
      rw [Nat.pow_succ', Nat.mod_mul, Nat.mod_mul, hlow, hhigh]

/-- A number can be read off the text. -/
theorem hexToString_injective : Function.Injective hexToString := by
  intro n m h
  have hdigits := hexDigits_inj (List.reverse_injective (List.append_cancel_left h))
  have hn := n.toNat_lt
  have hm := m.toNat_lt
  rw [Nat.mod_eq_of_lt (by omega), Nat.mod_eq_of_lt (by omega)] at hdigits
  exact UInt32.toNat_inj.mp hdigits

/-! ## The first bus -/

namespace ConfigSpace

variable {τ : Type}

/-- The vendor and the device in a slot, if something answers there. -/
def inSlot (c : ConfigSpace τ) (t : τ) (slot : Nat) : Option (UInt32 × UInt32) :=
  let id := c.read ⟨0, slot, 0⟩ 0 t
  if id &&& 0xFFFF = 0xFFFF then none else some (id &&& 0xFFFF, id >>> 16 &&& 0xFFFF)

def onFirstBus (c : ConfigSpace τ) (t : τ) : List (UInt32 × UInt32) :=
  (List.range 32).filterMap (c.inSlot t)

def deviceLine (id : UInt32 × UInt32) : List Text :=
  [text "device detected! seller: ", hexToString id.1, text " Device: ", hexToString id.2, text "\n"]

theorem checkSlot_eq (c : ConfigSpace τ) {slot : Nat} (hslot : slot < 32) (printed : List Text)
    (s : UInt32 × τ) : ∃ latch, checkSlot c.ports (printed, s) slot =
      (printed ++ (c.inSlot s.2 slot).toList.flatMap deviceLine, (latch, s.2)) := by
  have hlt : (UInt8.ofNat slot).toNat = slot := by
    rw [UInt8.toNat_ofNat']
    omega
  have hread : ∀ (offset : UInt8) (s : UInt32 × τ),
      pciReadWord c.ports 0 (UInt8.ofNat slot) 0 offset s =
        (c.read ⟨0, slot, 0⟩ (offset.toNat / 4) s.2 >>> ((offset &&& 2).toUInt32 * 8) &&& 0xFFFF,
          (pciAddress 0 (UInt8.ofNat slot) 0 offset, s.2)) := by
    intro offset s
    have heq := pciReadWord_eq (hlt.trans_lt hslot) (by decide : (0 : UInt8).toNat < 8) 0 offset c s
    rwa [hlt] at heq
  have hvendor : c.read ⟨0, slot, 0⟩ ((0 : UInt8).toNat / 4) s.2 >>>
      (((0 : UInt8) &&& 2).toUInt32 * 8) &&& 0xFFFF = c.read ⟨0, slot, 0⟩ 0 s.2 &&& 0xFFFF := by
    show c.read ⟨0, slot, 0⟩ 0 s.2 >>> 0 &&& 0xFFFF = _
    rw [UInt32.shiftRight_zero]
  simp only [checkSlot, hread, hvendor, inSlot]
  by_cases hnone : c.read ⟨0, slot, 0⟩ 0 s.2 &&& 0xFFFF = 0xFFFF
  · rw [if_neg (not_not.mpr hnone), if_pos hnone]
    exact ⟨_, by rw [Option.toList_none, List.flatMap_nil, List.append_nil]⟩
  · rw [if_pos hnone, if_neg hnone]
    exact ⟨_, rfl⟩

theorem checkSlots_eq (c : ConfigSpace τ) : ∀ (slots : List Nat), (∀ slot ∈ slots, slot < 32) →
    ∀ (printed : List Text) (s : UInt32 × τ), ∃ latch,
      slots.foldl (checkSlot c.ports) (printed, s) =
        (printed ++ (slots.filterMap (c.inSlot s.2)).flatMap deviceLine, (latch, s.2))
  | [], _, printed, s => ⟨s.1, by rw [List.filterMap_nil, List.flatMap_nil, List.append_nil]; rfl⟩
  | slot :: slots, hlt, printed, s => by
      obtain ⟨hslot, hrest⟩ := List.forall_mem_cons.mp hlt
      obtain ⟨latch, hfirst⟩ := c.checkSlot_eq hslot printed s
      obtain ⟨latch', hlater⟩ := c.checkSlots_eq slots hrest
        (printed ++ (c.inSlot s.2 slot).toList.flatMap deviceLine) (latch, s.2)
      refine ⟨latch', ?_⟩
      rw [List.foldl_cons, hfirst, hlater]
      cases hid : c.inSlot s.2 slot with
      | none => rw [List.filterMap_cons_none hid]; simp
      | some id => rw [List.filterMap_cons_some hid]; simp

theorem deviceLine_injective : Function.Injective deviceLine := by
  rintro ⟨vendor, device⟩ ⟨vendor', device'⟩ h
  obtain ⟨-, hvendor, -, hdevice, -⟩ : _ ∧ hexToString vendor = hexToString vendor' ∧ _ ∧
      hexToString device = hexToString device' ∧ _ := by
    simpa only [deviceLine, List.cons.injEq] using h
  rw [hexToString_injective hvendor, hexToString_injective hdevice]

/-- Blocks of one length can be told apart. -/
theorem flatMap_deviceLine_injective : ∀ {ids ids' : List (UInt32 × UInt32)},
    ids.flatMap deviceLine = ids'.flatMap deviceLine → ids = ids'
  | [], [], _ => rfl
  | [], _ :: _, h => by cases h
  | _ :: _, [], h => by cases h
  | id :: ids, id' :: ids', h => by
      rw [List.flatMap_cons, List.flatMap_cons] at h
      obtain ⟨hfirst, hrest⟩ := List.append_inj h rfl
      rw [deviceLine_injective hfirst, flatMap_deviceLine_injective hrest]

/-- **The scan of the bus.** It prints the vendor and the device of every slot of the first bus
in which something answers, in order, and changes nothing on the bus. What it prints tells
apart any two buses that differ in what answers. -/
theorem checkAllPciBuses_eq (c : ConfigSpace τ) (s : UInt32 × τ) :
    (∃ latch, checkAllPciBuses c.ports s =
      (text "Scanning Bus PCI...\n" :: (c.onFirstBus s.2).flatMap deviceLine, (latch, s.2))) ∧
    ∀ s' : UInt32 × τ,
      (checkAllPciBuses c.ports s).1 = (checkAllPciBuses c.ports s').1 ↔
        c.onFirstBus s.2 = c.onFirstBus s'.2 := by
  have hscan : ∀ s : UInt32 × τ, ∃ latch, checkAllPciBuses c.ports s =
      (text "Scanning Bus PCI...\n" :: (c.onFirstBus s.2).flatMap deviceLine, (latch, s.2)) :=
    fun s => c.checkSlots_eq (List.range 32) (fun _ => List.mem_range.mp) _ s
  refine ⟨hscan s, fun s' => ?_⟩
  obtain ⟨latch, hs⟩ := hscan s
  obtain ⟨latch', hs'⟩ := hscan s'
  rw [hs, hs']
  constructor
  · intro h
    exact flatMap_deviceLine_injective (List.cons.inj h).2
  · intro h
    rw [h]

end ConfigSpace

end FirstKernel
