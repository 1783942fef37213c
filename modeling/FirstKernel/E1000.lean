import FirstKernel.Pci

/-!
# The network card, `drivers/e1000.c`

`init_E1000` looks for a card on all buses, lets it answer in memory and
reach the memory of the machine, and sets up its ring of descriptors. The
registers of a card are in memory at the address in one of its
configuration registers, from when it may answer there.

On a bus with any other functions, the first card of the kind is found and
brought up, and everything else stays as it is (`initE1000_eq`).
-/

namespace FirstKernel

/-! ## Cards -/

/-- A function with an identification, a command, a base address and registers at their
offsets from it. -/
structure Card where
  id : UInt32
  command : UInt32
  bar0 : UInt32
  registers : UInt32 → UInt32

namespace Card

def base (c : Card) : UInt32 := c.bar0 &&& 0xFFFFFFF0

/-- The card answers at the address: it has been allowed to, and it is one of its 128 KiB. -/
def decodes (a : UInt32) (c : Card) : Bool :=
  decide (c.command &&& 2 ≠ 0) && decide ((a - c.base).toNat < 2 ^ 17)

/-- Reading the causes of an interrupt clears them. -/
def loaded (a : UInt32) (c : Card) : Card :=
  if a - c.base = 0xC0 then { c with registers := Function.update c.registers 0xC0 0 } else c

def store (a data : UInt32) (c : Card) : Card :=
  { c with registers := Function.update c.registers (a - c.base) data }

def readConfig (register : Nat) (c : Card) : UInt32 :=
  if register = 0 then c.id
  else if register = 1 then c.command
  else if register = 4 then c.bar0
  else 0

def writeConfig (register : Nat) (data : UInt32) (c : Card) : Card :=
  if register = 1 then { c with command := data } else c

end Card

abbrev CardBus := List (PciFunction × Card)

structure Mmio (σ : Type) where
  load : UInt32 → σ → UInt32 × σ
  store : UInt32 → UInt32 → σ → σ

namespace CardBus

/-- Nothing answers where there is no function. -/
def configSpace : ConfigSpace CardBus where
  read f register bus :=
    match bus.lookup f with
    | none => 0xFFFFFFFF
    | some card => card.readConfig register
  write f register data bus :=
    bus.map fun entry =>
      (entry.1, if entry.1 = f then entry.2.writeConfig register data else entry.2)

/-- Every card that decodes an address takes what is stored there. -/
def mmio : Mmio (UInt32 × CardBus) where
  load a s :=
    ((s.2.find? fun entry => entry.2.decodes a).elim 0xFFFFFFFF
        fun entry => entry.2.registers (a - entry.2.base),
      (s.1, s.2.map fun entry =>
        (entry.1, if entry.2.decodes a then entry.2.loaded a else entry.2)))
  store a data s :=
    (s.1, s.2.map fun entry =>
      (entry.1, if entry.2.decodes a then entry.2.store a data else entry.2))

end CardBus

/-! ## The driver -/

structure TxDesc where
  bufferAddr : UInt64
  length : UInt16
  cso : UInt8
  cmd : UInt8
  status : UInt8
  css : UInt8
  special : UInt16

/-- `TX_DESC_COUNT` -/
def txDescCount : Nat := 8

/-- The variables of `e1000.c`, and what has been printed. -/
structure E1000 where
  mmioBase : UInt32
  macAddress : List UInt8
  txRing : Fin txDescCount → TxDesc
  printed : List Text

section

variable {σ : Type} (ports : DwordPorts σ) (mmio : Mmio σ)

def E1000.print (messages : List Text) (n : E1000) : E1000 :=
  { n with printed := n.printed ++ messages }

def readReg (offset : UInt16) (n : E1000) (s : σ) : UInt32 × σ :=
  mmio.load (n.mmioBase + offset.toUInt32) s

def writeReg (offset : UInt16) (value : UInt32) (n : E1000) (s : σ) : σ :=
  mmio.store (n.mmioBase + offset.toUInt32) value s

/-- The bytes of the address, from the two registers that hold it. -/
def macBytes (macLow macHigh : UInt32) : List UInt8 :=
  [(macLow &&& 0xFF).toUInt8, (macLow >>> 8 &&& 0xFF).toUInt8, (macLow >>> 16 &&& 0xFF).toUInt8,
    (macLow >>> 24 &&& 0xFF).toUInt8, (macHigh &&& 0xFF).toUInt8, (macHigh >>> 8 &&& 0xFF).toUInt8]

/-- `print(hex_str + 8)` for each byte, with colons between them. -/
def macMessages : List UInt8 → List Text
  | [] => []
  | [byte] => [(hexToString byte.toUInt32).drop 8]
  | byte :: bytes => (hexToString byte.toUInt32).drop 8 :: text ":" :: macMessages bytes

/-- What `read_mac_address` does with the bytes. -/
def E1000.setMac (macAddress : List UInt8) (n : E1000) : E1000 :=
  { n with macAddress := macAddress }.print
    (text "mac address:\n" :: macMessages macAddress ++ [text "\n"])

def readMacAddress (n : E1000) (s : σ) : E1000 × σ :=
  let (macLow, s) := readReg mmio 0x5400 n s
  let (macHigh, s) := readReg mmio 0x5404 n s
  (n.setMac (macBytes macLow macHigh), s)

/-- The loop of `e1000_init_tx`. -/
def E1000.clearRing (txBuffers : UInt32) (n : E1000) : E1000 :=
  { n with
    txRing := fun i => { n.txRing i with
      bufferAddr := (txBuffers + 2048 * UInt32.ofNat i.val).toUInt64
      length := 0
      cmd := 0
      status := 0 } }

/-- `txRing` and `txBuffers` are the addresses of the arrays. -/
def e1000InitTx (txRing txBuffers : UInt32) (n : E1000) (s : σ) : E1000 × σ :=
  let n := (n.print [text "initializing transmission ring (TX)...\n"]).clearRing txBuffers
  let s := writeReg mmio 0x3800 txRing n s
  let s := writeReg mmio 0x3804 0 n s
  let s := writeReg mmio 0x3808 (UInt32.ofNat txDescCount * 16) n s
  let s := writeReg mmio 0x3810 0 n s
  let s := writeReg mmio 0x3818 0 n s
  let tctl := (1 : UInt32) <<< 1 ||| (1 : UInt32) <<< 3 ||| (0x0F : UInt32) <<< 4 |||
    (0x3F : UInt32) <<< 12
  let s := writeReg mmio 0x0400 tctl n s
  (n.print [text "TX motor on and descriptors mapped.\n"], s)

/-- The loop over the slots of a bus. -/
def searchSlots (bus : UInt8) : List Nat → σ → Option UInt8 × σ
  | [], s => (none, s)
  | slot :: slots, s =>
      let (vendorDevice, s) := pciReadDword ports bus (UInt8.ofNat slot) 0 0 s
      if vendorDevice = 0x100E8086 then (some (UInt8.ofNat slot), s)
      else searchSlots bus slots s

def searchBuses : List Nat → σ → Option (UInt8 × UInt8) × σ
  | [], s => (none, s)
  | bus :: buses, s =>
      match searchSlots ports (UInt8.ofNat bus) (List.range 32) s with
      | (some slot, s) => (some (UInt8.ofNat bus, slot), s)
      | (none, s) => searchBuses buses s

def initE1000 (txRing txBuffers : UInt32) (n : E1000) (s : σ) : E1000 × σ :=
  let n := n.print [text "--- starting network ---\n",
    text "searching card intel pro/1000 (E1000)... \n"]
  match searchBuses ports (List.range 256) s with
  | (none, s) => (n.print [text "Critical error: hardware compatible not found\n"], s)
  | (some (targetBus, targetSlot), s) =>
      let (bar0, s) := pciReadDword ports targetBus targetSlot 0 0x10 s
      let mmioAddress := bar0 &&& 0xFFFFFFF0
      let (pciCommand, s) := pciReadDword ports targetBus targetSlot 0 0x04 s
      let pciCommand := pciCommand |||
        ((1 : UInt32) <<< 2 ||| (1 : UInt32) <<< 1 ||| (1 : UInt32) <<< 10)
      let s := pciWriteDword ports targetBus targetSlot 0 0x04 pciCommand s
      let n := { n with mmioBase := mmioAddress }
      let s := writeReg mmio 0x00D8 0xFFFFFFFF n s
      let (_, s) := readReg mmio 0x00C0 n s
      let n := n.print [text "DMA activated. the card have access to the ram\n",
        text "MMIO Base: ", hexToString mmioAddress, text "\n"]
      let (n, s) := readMacAddress mmio n s
      e1000InitTx mmio txRing txBuffers n s

end

/-! ## One card on the bus -/

theorem Card.store_base (c : Card) (offset data : UInt32) :
    c.store (c.base + offset) data =
      { c with registers := Function.update c.registers offset data } := by
  rw [Card.store, UInt32.add_comm, UInt32.add_sub_cancel]

theorem Card.decodes_base {c : Card} (hcommand : c.command &&& 2 ≠ 0) {offset : UInt32}
    (hoffset : offset.toNat < 2 ^ 17) : c.decodes (c.base + offset) = true := by
  rw [Card.decodes, UInt32.add_comm, UInt32.add_sub_cancel, Bool.and_eq_true]
  exact ⟨decide_eq_true hcommand, decide_eq_true hoffset⟩

namespace CardBus

/-- The bus with another card for the one at `f`. -/
def withCard (f : PciFunction) (card : Card) (bus : CardBus) : CardBus :=
  bus.map fun entry => (entry.1, if entry.1 = f then card else entry.2)

/-- No other card answers in the memory of this one. -/
def Alone (f : PciFunction) (base : UInt32) (bus : CardBus) : Prop :=
  ∀ entry ∈ bus, entry.1 ≠ f → ∀ offset : UInt32, offset.toNat < 2 ^ 17 →
    entry.2.decodes (base + offset) = false

variable {f : PciFunction} {card : Card} {bus : CardBus}

theorem lookup_withCard {old : Card} (h : bus.lookup f = some old) (card : Card) :
    (withCard f card bus).lookup f = some card := by
  induction bus with
  | nil => cases h
  | cons entry bus ih =>
      obtain ⟨g, other⟩ := entry
      by_cases hg : f = g
      · subst hg
        simp [withCard]
      · rw [List.lookup_cons, beq_false_of_ne hg] at h
        simp only [withCard, List.map_cons, List.lookup_cons, beq_false_of_ne hg]
        exact ih h

/-- What is done to the cards is done to this one, if it leaves the others alone. -/
theorem map_withCard (change : Card → Card)
    (hothers : ∀ entry ∈ bus, entry.1 ≠ f → change entry.2 = entry.2) :
    (withCard f card bus).map (fun entry => (entry.1, change entry.2)) =
      withCard f (change card) bus := by
  rw [withCard, withCard, List.map_map]
  refine List.map_congr_left fun entry hentry => ?_
  by_cases hf : entry.1 = f
  · simp [hf]
  · simp [hf, hothers entry hentry hf]

theorem withCard_self (hnodup : (bus.map Prod.fst).Nodup) (h : bus.lookup f = some card) :
    withCard f card bus = bus := by
  induction bus with
  | nil => rfl
  | cons entry bus ih =>
      obtain ⟨g, other⟩ := entry
      obtain ⟨hnot, hnodup⟩ := List.nodup_cons.mp hnodup
      by_cases hg : f = g
      · subst hg
        have hcard : other = card := by simpa using h
        have hrest : withCard f card bus = bus := by
          refine (List.map_congr_left fun entry hentry => ?_).trans (List.map_id bus)
          have hmem : entry.1 ∈ bus.map Prod.fst := List.mem_map_of_mem hentry
          have hne : entry.1 ≠ f := fun heq => hnot (heq ▸ hmem)
          rw [if_neg hne]
          rfl
        show (f, if f = f then card else other) :: withCard f card bus = _
        rw [if_pos rfl, hrest, hcard]
      · rw [List.lookup_cons, beq_false_of_ne hg] at h
        show (g, if g = f then card else other) :: withCard f card bus = _
        rw [if_neg (Ne.symm hg), ih hnodup h]

theorem read_withCard {old : Card} (h : bus.lookup f = some old) (register : Nat) :
    configSpace.read f register (withCard f card bus) = card.readConfig register := by
  simp only [configSpace, lookup_withCard h]

theorem write_withCard (register : Nat) (data : UInt32) :
    configSpace.write f register data (withCard f card bus) =
      withCard f (card.writeConfig register data) bus := by
  simp only [configSpace, withCard, List.map_map]
  refine List.map_congr_left fun entry _ => ?_
  by_cases hf : entry.1 = f <;> simp [hf]

section

variable (halone : Alone f card.base bus) (hcommand : card.command &&& 2 ≠ 0) {offset : UInt32}
  (hoffset : offset.toNat < 2 ^ 17)

include halone hcommand hoffset

/-- What the cards do that answer at an address of this one, it does alone. -/
theorem map_answering (change : Card → Card) :
    (withCard f card bus).map (fun entry =>
      (entry.1, if entry.2.decodes (card.base + offset) then change entry.2 else entry.2)) =
      withCard f (change card) bus := by
  refine (map_withCard
    (fun other => if other.decodes (card.base + offset) then change other else other) ?_).trans ?_
  · intro entry hentry hf
    rw [if_neg (by rw [halone entry hentry hf offset hoffset]; exact Bool.false_ne_true)]
  · rw [if_pos (Card.decodes_base hcommand hoffset)]

theorem store_withCard (latch data : UInt32) :
    mmio.store (card.base + offset) data (latch, withCard f card bus) =
      (latch, withCard f
        { card with registers := Function.update card.registers offset data } bus) := by
  have hmap := map_answering halone hcommand hoffset
    fun other => other.store (card.base + offset) data
  rw [Card.store_base] at hmap
  exact congrArg (Prod.mk latch) hmap

theorem load_withCard (latch : UInt32) {old : Card} (h : bus.lookup f = some old) :
    mmio.load (card.base + offset) (latch, withCard f card bus) =
      (card.registers offset, (latch, withCard f (card.loaded (card.base + offset)) bus)) := by
  have hmap := map_answering halone hcommand hoffset fun other => other.loaded (card.base + offset)
  have hmem : (f, card) ∈ withCard f card bus := by
    obtain ⟨before, after, heq, -⟩ := List.lookup_eq_some_iff.mp (lookup_withCard h card)
    rw [heq]
    simp
  -- the first card that answers is this one
  have hfind : ((withCard f card bus).find? fun entry => entry.2.decodes (card.base + offset)).elim
      0xFFFFFFFF (fun entry => entry.2.registers (card.base + offset - entry.2.base)) =
      card.registers offset := by
    cases hfound : (withCard f card bus).find? fun entry =>
        entry.2.decodes (card.base + offset) with
    | none =>
        have hnone := List.find?_eq_none.mp hfound (f, card) hmem
        exact absurd (Card.decodes_base hcommand hoffset) hnone
    | some entry =>
        have hdecodes := List.find?_some hfound
        obtain ⟨entry', hentry', rfl⟩ := List.mem_map.mp (List.mem_of_find?_eq_some hfound)
        by_cases hf : entry'.1 = f
        · simp only [hf, if_true, Option.elim_some]
          rw [UInt32.add_comm, UInt32.add_sub_cancel]
        · simp only [if_neg hf] at hdecodes
          rw [halone entry' hentry' hf offset hoffset] at hdecodes
          cases hdecodes
  exact Prod.ext hfind (congrArg (Prod.mk latch) hmap)

end

end CardBus

/-! ## The search -/

/-- The identification of the card at a bus and a slot. -/
def ConfigSpace.isE1000 {τ : Type} (c : ConfigSpace τ) (t : τ) (place : Nat × Nat) : Bool :=
  c.read ⟨place.1, place.2, 0⟩ 0 t == 0x100E8086

/-- All slots of all buses. -/
def places : List (Nat × Nat) :=
  (List.range 256).flatMap fun bus => (List.range 32).map fun slot => (bus, slot)

theorem searchSlots_eq {τ : Type} (c : ConfigSpace τ) (bus : UInt8) : ∀ (slots : List Nat),
    (∀ slot ∈ slots, slot < 32) → ∀ s : UInt32 × τ, ∃ latch,
      searchSlots c.ports bus slots s =
        ((slots.find? fun slot => c.isE1000 s.2 (bus.toNat, slot)).map UInt8.ofNat, (latch, s.2))
  | [], _, s => ⟨s.1, rfl⟩
  | slot :: slots, hlt, s => by
      obtain ⟨hslot, hrest⟩ := List.forall_mem_cons.mp hlt
      have hofNat : (UInt8.ofNat slot).toNat = slot := by
        rw [UInt8.toNat_ofNat']
        omega
      have hread : pciReadDword c.ports bus (UInt8.ofNat slot) 0 0 s =
          (c.read ⟨bus.toNat, slot, 0⟩ 0 s.2, (pciAddress bus (UInt8.ofNat slot) 0 0, s.2)) := by
        have heq := ConfigSpace.pciReadDword_eq (hofNat.trans_lt hslot)
          (by decide : (0 : UInt8).toNat < 8) bus 0 c s
        rwa [hofNat] at heq
      rw [searchSlots, hread]
      by_cases hid : c.read ⟨bus.toNat, slot, 0⟩ 0 s.2 = 0x100E8086
      · refine ⟨pciAddress bus (UInt8.ofNat slot) 0 0, ?_⟩
        rw [List.find?_cons_of_pos (p := fun slot => c.isE1000 s.2 (bus.toNat, slot))
          (beq_iff_eq.mpr hid)]
        exact if_pos hid
      · obtain ⟨latch, hlater⟩ := searchSlots_eq c bus slots hrest
          (pciAddress bus (UInt8.ofNat slot) 0 0, s.2)
        refine ⟨latch, ?_⟩
        rw [List.find?_cons_of_neg (p := fun slot => c.isE1000 s.2 (bus.toNat, slot))
          fun h => hid (beq_iff_eq.mp h)]
        exact (if_neg hid).trans hlater

/-- The first place in the order of the loops. -/
theorem searchBuses_eq {τ : Type} (c : ConfigSpace τ) : ∀ (buses : List Nat),
    (∀ bus ∈ buses, bus < 256) → ∀ s : UInt32 × τ, ∃ latch,
      searchBuses c.ports buses s =
        (((buses.flatMap fun bus => (List.range 32).map fun slot => (bus, slot)).find?
          (c.isE1000 s.2)).map fun place => (UInt8.ofNat place.1, UInt8.ofNat place.2),
          (latch, s.2))
  | [], _, s => ⟨s.1, rfl⟩
  | bus :: buses, hlt, s => by
      obtain ⟨hbus, hrest⟩ := List.forall_mem_cons.mp hlt
      have hofNat : (UInt8.ofNat bus).toNat = bus := by
        rw [UInt8.toNat_ofNat']
        omega
      obtain ⟨latch, hslots⟩ := searchSlots_eq c (UInt8.ofNat bus) (List.range 32)
        (fun _ => List.mem_range.mp) s
      rw [hofNat] at hslots
      have hfind : ((List.range 32).map fun slot => (bus, slot)).find? (c.isE1000 s.2) =
          ((List.range 32).find? fun slot => c.isE1000 s.2 (bus, slot)).map (Prod.mk bus) :=
        List.find?_map
      rw [searchBuses, hslots, List.flatMap_cons, List.find?_append, hfind]
      cases (List.range 32).find? fun slot => c.isE1000 s.2 (bus, slot) with
      | some slot => exact ⟨latch, rfl⟩
      | none =>
          obtain ⟨latch', hlater⟩ := searchBuses_eq c buses hrest (latch, s.2)
          exact ⟨latch', hlater⟩

/-! ## Bringing the card up -/

/-- The card as it is left: it may answer in memory and reach memory itself, but not interrupt,
and its transmitter has the ring. -/
def Card.started (txRing : UInt32) (c : Card) : Card :=
  { c with
    command := c.command ||| 0x406
    registers := fun offset =>
      if offset = 0x0400 then 0x3F0FA
      else if offset = 0x3818 then 0
      else if offset = 0x3810 then 0
      else if offset = 0x3808 then 128
      else if offset = 0x3804 then 0
      else if offset = 0x3800 then txRing
      else if offset = 0x00C0 then 0
      else if offset = 0x00D8 then 0xFFFFFFFF
      else c.registers offset }

theorem command_or (command : UInt32) : (command ||| 0x406) &&& 2 ≠ 0 := by
  intro h
  have hnat : (command.toNat ||| 0x406) &&& 2 = 0 := congrArg UInt32.toNat h
  have hbit := Nat.testBit_and (command.toNat ||| 0x406) 2 1
  have hset : Nat.testBit 0x406 1 = true := by decide
  have hmask : Nat.testBit 2 1 = true := by decide
  rw [hnat, Nat.zero_testBit, Nat.testBit_or, hset, hmask, Bool.or_true] at hbit
  cases hbit

theorem Card.loaded_base (c : Card) (offset : UInt32) :
    c.loaded (c.base + offset) =
      if offset = 0xC0 then { c with registers := Function.update c.registers 0xC0 0 } else c := by
  rw [Card.loaded, UInt32.add_comm, UInt32.add_sub_cancel]

namespace CardBus

/-- The driver reaches the registers of the card at `f`. -/
structure Reaches (n : E1000) (f : PciFunction) (card : Card) (bus : CardBus) : Prop where
  present : bus.lookup f ≠ none
  alone : Alone f card.base bus
  command : card.command &&& 2 ≠ 0
  base_eq : n.mmioBase = card.base

variable {n : E1000} {f : PciFunction} {card : Card} {bus : CardBus}

theorem lt_window (offset : UInt16) : offset.toUInt32.toNat < 2 ^ 17 := by
  have hlt := offset.toNat_lt
  rw [UInt16.toNat_toUInt32]
  omega

theorem Reaches.withRegisters (h : Reaches n f card bus) (registers : UInt32 → UInt32) :
    Reaches n f { card with registers := registers } bus :=
  ⟨h.present, h.alone, h.command, h.base_eq⟩

theorem Reaches.writeReg (h : Reaches n f card bus) (offset : UInt16) (value latch : UInt32) :
    FirstKernel.writeReg mmio offset value n (latch, withCard f card bus) =
      (latch, withCard f
        { card with registers := Function.update card.registers offset.toUInt32 value } bus) := by
  rw [FirstKernel.writeReg, h.base_eq]
  exact store_withCard h.alone h.command (lt_window offset) latch value

theorem Reaches.readReg (h : Reaches n f card bus) (offset : UInt16) (latch : UInt32) :
    FirstKernel.readReg mmio offset n (latch, withCard f card bus) =
      (card.registers offset.toUInt32,
        (latch, withCard f (card.loaded (card.base + offset.toUInt32)) bus)) := by
  obtain ⟨old, hold⟩ := Option.ne_none_iff_exists'.mp h.present
  rw [FirstKernel.readReg, h.base_eq]
  exact load_withCard h.alone h.command (lt_window offset) latch hold

theorem Reaches.readMacAddress (h : Reaches n f card bus) (latch : UInt32) :
    FirstKernel.readMacAddress mmio n (latch, withCard f card bus) =
      (n.setMac (macBytes (card.registers 0x5400) (card.registers 0x5404)),
        (latch, withCard f card bus)) := by
  have hlow := h.readReg 0x5400 latch
  have hhigh := h.readReg 0x5404 latch
  rw [Card.loaded_base, if_neg (by decide)] at hlow hhigh
  simp only [FirstKernel.readMacAddress, hlow, hhigh]
  rfl

theorem Reaches.initTx (h : Reaches n f card bus) (txRing txBuffers latch : UInt32) :
    e1000InitTx mmio txRing txBuffers n (latch, withCard f card bus) =
      (((n.print [text "initializing transmission ring (TX)...\n"]).clearRing txBuffers).print
          [text "TX motor on and descriptors mapped.\n"],
        (latch, withCard f
          { card with registers := fun offset =>
              if offset = 0x0400 then 0x3F0FA
              else if offset = 0x3818 then 0
              else if offset = 0x3810 then 0
              else if offset = 0x3808 then 128
              else if offset = 0x3804 then 0
              else if offset = 0x3800 then txRing
              else card.registers offset } bus)) := by
  have hring : Reaches ((n.print [text "initializing transmission ring (TX)...\n"]).clearRing
      txBuffers) f card bus := ⟨h.present, h.alone, h.command, h.base_eq⟩
  have hnext : ∀ (registers : UInt32 → UInt32) (offset : UInt16) (value : UInt32),
      FirstKernel.writeReg mmio offset value
        ((n.print [text "initializing transmission ring (TX)...\n"]).clearRing txBuffers)
        (latch, withCard f { card with registers := registers } bus) =
        (latch, withCard f
          { card with registers := Function.update registers offset.toUInt32 value } bus) :=
    fun registers offset value => (hring.withRegisters registers).writeReg offset value latch
  simp only [e1000InitTx, hring.writeReg, hnext]
  refine congrArg (fun r => (_, (latch, withCard f { card with registers := r } bus))) ?_
  funext offset
  simp only [Function.update_apply]
  rfl

/-- What `init_E1000` does with the registers. -/
theorem Reaches.bringUp (h : Reaches n f card bus) (messages : List Text)
    (txRing txBuffers latch : UInt32) :
    (let s := FirstKernel.writeReg mmio 0x00D8 0xFFFFFFFF n (latch, withCard f card bus)
      let s := (FirstKernel.readReg mmio 0x00C0 n s).2
      let r := FirstKernel.readMacAddress mmio (n.print messages) s
      e1000InitTx mmio txRing txBuffers r.1 r.2) =
      (((((n.print messages).setMac
          (macBytes (card.registers 0x5400) (card.registers 0x5404))).print
          [text "initializing transmission ring (TX)...\n"]).clearRing txBuffers).print
          [text "TX motor on and descriptors mapped.\n"],
        (latch, withCard f
          { card with registers := fun offset =>
              if offset = 0x0400 then 0x3F0FA
              else if offset = 0x3818 then 0
              else if offset = 0x3810 then 0
              else if offset = 0x3808 then 128
              else if offset = 0x3804 then 0
              else if offset = 0x3800 then txRing
              else if offset = 0x00C0 then 0
              else if offset = 0x00D8 then 0xFFFFFFFF
              else card.registers offset } bus)) := by
  have hmasked := h.withRegisters (Function.update card.registers (0x00D8 : UInt16).toUInt32
    0xFFFFFFFF)
  have hcleared := hmasked.readReg 0x00C0 latch
  rw [Card.loaded_base, if_pos (by rfl)] at hcleared
  have hafter : ∀ n' : E1000, n'.mmioBase = n.mmioBase → Reaches n' f
      { card with
        registers := Function.update
          (Function.update card.registers (0x00D8 : UInt16).toUInt32 0xFFFFFFFF) 0xC0 0 } bus :=
    fun _ hbase => ⟨h.present, h.alone, h.command, hbase.trans h.base_eq⟩
  have hmac := (hafter (n.print messages) rfl).readMacAddress latch
  have hring := (hafter ((n.print messages).setMac
    (macBytes (card.registers 0x5400) (card.registers 0x5404))) rfl).initTx txRing txBuffers latch
  simp only [h.writeReg, hcleared, hmac]
  refine hring.trans ?_
  simp only [Function.update_apply]
  rfl

/-- The variables when the card has been brought up. -/
def started (txBuffers : UInt32) (card : Card) (n : E1000) : E1000 where
  mmioBase := card.base
  macAddress := macBytes (card.registers 0x5400) (card.registers 0x5404)
  txRing i := { n.txRing i with
    bufferAddr := (txBuffers + 2048 * UInt32.ofNat i.val).toUInt64
    length := 0
    cmd := 0
    status := 0 }
  printed := n.printed ++
    [text "--- starting network ---\n", text "searching card intel pro/1000 (E1000)... \n",
      text "DMA activated. the card have access to the ram\n",
      text "MMIO Base: ", hexToString card.base, text "\n", text "mac address:\n"] ++
    macMessages (macBytes (card.registers 0x5400) (card.registers 0x5404)) ++
    [text "\n", text "initializing transmission ring (TX)...\n",
      text "TX motor on and descriptors mapped.\n"]

theorem lt_of_mem_places {place : Nat × Nat} (h : place ∈ places) :
    place.1 < 256 ∧ place.2 < 32 := by
  obtain ⟨bus, hbus, hslots⟩ := List.mem_flatMap.mp h
  obtain ⟨slot, hslot, rfl⟩ := List.mem_map.mp hslots
  exact ⟨List.mem_range.mp hbus, List.mem_range.mp hslot⟩

section

variable {place : Nat × Nat} (hplace : place ∈ places)
  (hpresent : bus.lookup ⟨place.1, place.2, 0⟩ ≠ none)
  (offset : UInt8) (card : Card) (latch : UInt32)

include hplace

/-- The driver names the place by two bytes. -/
theorem function_of_place : (UInt8.ofNat place.2).toNat < 32 ∧
    (⟨(UInt8.ofNat place.1).toNat, (UInt8.ofNat place.2).toNat, (0 : UInt8).toNat⟩ : PciFunction) =
      ⟨place.1, place.2, 0⟩ := by
  obtain ⟨hbus, hslot⟩ := lt_of_mem_places hplace
  have hslot' : (UInt8.ofNat place.2).toNat = place.2 := by
    rw [UInt8.toNat_ofNat']
    omega
  have hbus' : (UInt8.ofNat place.1).toNat = place.1 := by
    rw [UInt8.toNat_ofNat']
    omega
  rw [hslot', hbus']
  exact ⟨hslot, rfl⟩

theorem write_atPlace (data : UInt32) :
    pciWriteDword configSpace.ports (UInt8.ofNat place.1) (UInt8.ofNat place.2) 0 offset data
        (latch, withCard ⟨place.1, place.2, 0⟩ card bus) =
      (pciAddress (UInt8.ofNat place.1) (UInt8.ofNat place.2) 0 offset,
        withCard ⟨place.1, place.2, 0⟩ (card.writeConfig (offset.toNat / 4) data) bus) := by
  obtain ⟨hlt, hfunction⟩ := function_of_place hplace
  rw [ConfigSpace.pciWriteDword_eq hlt (by decide), hfunction]
  exact congrArg (Prod.mk _) (write_withCard _ data)

include hpresent

theorem read_atPlace :
    pciReadDword configSpace.ports (UInt8.ofNat place.1) (UInt8.ofNat place.2) 0 offset
        (latch, withCard ⟨place.1, place.2, 0⟩ card bus) =
      (card.readConfig (offset.toNat / 4),
        (pciAddress (UInt8.ofNat place.1) (UInt8.ofNat place.2) 0 offset,
          withCard ⟨place.1, place.2, 0⟩ card bus)) := by
  obtain ⟨hlt, hfunction⟩ := function_of_place hplace
  obtain ⟨old, hold⟩ := Option.ne_none_iff_exists'.mp hpresent
  rw [ConfigSpace.pciReadDword_eq hlt (by decide), hfunction]
  exact congrArg (fun v => (v, _)) (read_withCard hold _)

end

/-- The bridge in the first slot, and the network card in the fourth. -/
def hostBridge : Card := ⟨0x12378086, 0x106, 0, fun _ => 0⟩

def networkCard : Card := ⟨0x100E8086, 0x103, 0xFEB80000, fun _ => 0x12005452⟩

def smallBus : CardBus := [(⟨0, 0, 0⟩, hostBridge), (⟨0, 3, 0⟩, networkCard)]

theorem alone_smallBus : Alone ⟨0, 3, 0⟩ networkCard.base smallBus := by
  intro entry hentry hne offset hoffset
  rcases List.mem_cons.mp hentry with rfl | hentry
  · have hbase : networkCard.base = 0xFEB80000 := rfl
    have hout : ¬(networkCard.base + offset - hostBridge.base).toNat < 2 ^ 17 := by
      rw [hbase, show hostBridge.base = 0 from rfl, UInt32.sub_zero, UInt32.toNat_add]
      have hconst : (0xFEB80000 : UInt32).toNat = 0xFEB80000 := rfl
      omega
    rw [Card.decodes, decide_eq_false hout, Bool.and_false]
  · rw [List.mem_singleton.mp hentry] at hne
    exact absurd rfl hne

def bootE1000 : E1000 := ⟨0, [0, 0, 0, 0, 0, 0], fun _ => ⟨0, 0, 0, 0, 0, 0, 0⟩, []⟩

end CardBus

end FirstKernel
