import FirstKernel.Memory

/-!
# Segment descriptors, `cpu/gdt.c`

`gdt_set_gate` spreads a 32-bit base and a limit over the fields of an
eight-byte descriptor; the processor puts them together again from the
bytes (`descriptorBase`, `descriptorLimit`), the base in full and the
limit modulo `2 ^ 20`.

`write_tss` passes the address of the end of the TSS where the limit is
meant to be a size less one. What the processor decodes is then the
address of the TSS plus 104, modulo `2 ^ 20`, and whatever memory follows
the TSS is taken for the I/O permission bitmap (`tssCovered_iff`).
-/

namespace FirstKernel

open Buffer

structure GdtEntry where
  limitLow : UInt16
  baseLow : UInt16
  baseMiddle : UInt8
  access : UInt8
  granularity : UInt8
  baseHigh : UInt8

/-- The entry in memory: the struct is packed. -/
def GdtEntry.bytes (e : GdtEntry) : List UInt8 :=
  bytes16 e.limitLow ++ bytes16 e.baseLow ++ [e.baseMiddle, e.access, e.granularity, e.baseHigh]

structure GdtPtr where
  limit : UInt16
  base : UInt32

structure TssEntry where
  prevTss : UInt32
  esp0 : UInt32
  ss0 : UInt32
  esp1 : UInt32
  ss1 : UInt32
  esp2 : UInt32
  ss2 : UInt32
  cr3 : UInt32
  eip : UInt32
  eflags : UInt32
  eax : UInt32
  ecx : UInt32
  edx : UInt32
  ebx : UInt32
  esp : UInt32
  ebp : UInt32
  esi : UInt32
  edi : UInt32
  es : UInt32
  cs : UInt32
  ss : UInt32
  ds : UInt32
  fs : UInt32
  gs : UInt32
  ldt : UInt32
  trap : UInt16
  iomapBase : UInt16

namespace TssEntry

def words (t : TssEntry) : List UInt32 :=
  [t.prevTss, t.esp0, t.ss0, t.esp1, t.ss1, t.esp2, t.ss2, t.cr3, t.eip, t.eflags, t.eax,
    t.ecx, t.edx, t.ebx, t.esp, t.ebp, t.esi, t.edi, t.es, t.cs, t.ss, t.ds, t.fs, t.gs, t.ldt]

def bytes (t : TssEntry) : List UInt8 :=
  t.words.flatMap bytes32 ++ bytes16 t.trap ++ bytes16 t.iomapBase

/-- All bytes zero. -/
def zeros : TssEntry where
  prevTss := 0
  esp0 := 0
  ss0 := 0
  esp1 := 0
  ss1 := 0
  esp2 := 0
  ss2 := 0
  cr3 := 0
  eip := 0
  eflags := 0
  eax := 0
  ecx := 0
  edx := 0
  ebx := 0
  esp := 0
  ebp := 0
  esi := 0
  edi := 0
  es := 0
  cs := 0
  ss := 0
  ds := 0
  fs := 0
  gs := 0
  ldt := 0
  trap := 0
  iomapBase := 0

end TssEntry

/-- `sizeof(gdt_entry_t)` -/
def sizeofGdtEntry : UInt32 := 8

/-- `sizeof(tss_entry_t)` -/
def sizeofTssEntry : UInt32 := 104

theorem length_gdtEntry_bytes (e : GdtEntry) : e.bytes.length = sizeofGdtEntry.toNat := rfl

theorem length_tssEntry_bytes (t : TssEntry) : t.bytes.length = sizeofTssEntry.toNat := by
  rw [TssEntry.bytes, List.length_append, List.length_append, Memory.length_flatMap_bytes32]
  rfl

/-- The variables of `gdt.c`. -/
structure Gdt where
  gdtEntries : Fin 6 → GdtEntry
  gdtPtr : GdtPtr
  tssEntry : TssEntry

/-- The entry that `gdt_set_gate` stores. -/
def gate (base limit : UInt32) (access gran : UInt8) : GdtEntry where
  baseLow := (base &&& 0xFFFF).toUInt16
  baseMiddle := ((base >>> 16) &&& 0xFF).toUInt8
  baseHigh := ((base >>> 24) &&& 0xFF).toUInt8
  limitLow := (limit &&& 0xFFFF).toUInt16
  granularity := ((limit >>> 16) &&& 0x0F).toUInt8 ||| (gran &&& 0xF0)
  access := access

def gdtSetGate (num : Fin 6) (base limit : UInt32) (access gran : UInt8) (g : Gdt) : Gdt :=
  { g with gdtEntries := Function.update g.gdtEntries num (gate base limit access gran) }

/-- `tssAddr` is the address of `tss_entry`. -/
def writeTss (tssAddr : UInt32) (num : Fin 6) (ss0 : UInt16) (esp0 : UInt32) (g : Gdt) : Gdt :=
  let base := tssAddr
  let limit := base + sizeofTssEntry
  let g := gdtSetGate num base limit 0xE9 0x00 g
  { g with tssEntry := { TssEntry.zeros with
    ss0 := ss0.toUInt32
    esp0 := esp0
    cs := 0x0B
    ss := 0x13
    ds := 0x13
    es := 0x13
    fs := 0x13
    gs := 0x13
    iomapBase := sizeofTssEntry.toUInt16 } }

/-- Up to `gdt_flush` and `tss_flush`, which load what it has built. -/
def initGdt (entriesAddr tssAddr : UInt32) (g : Gdt) : Gdt :=
  let g := { g with gdtPtr := ⟨(sizeofGdtEntry * 6 - 1).toUInt16, entriesAddr⟩ }
  let g := gdtSetGate 0 0 0 0 0 g
  let g := gdtSetGate 1 0 0xFFFFFFFF 0x9A 0xCF g
  let g := gdtSetGate 2 0 0xFFFFFFFF 0x92 0xCF g
  let g := gdtSetGate 3 0 0xFFFFFFFF 0xFA 0xCF g
  let g := gdtSetGate 4 0 0xFFFFFFFF 0xF2 0xCF g
  writeTss tssAddr 5 0x10 0x0 g

def setKernelStack (esp : UInt32) (g : Gdt) : Gdt :=
  { g with tssEntry := { g.tssEntry with esp0 := esp } }

/-! ## What the processor decodes -/

def byteAt (d : List UInt8) (i : Nat) : Nat := (d.getD i 0).toNat

def descriptorBase (d : List UInt8) : Nat :=
  byteAt d 2 + 256 * byteAt d 3 + 65536 * byteAt d 4 + 16777216 * byteAt d 7

/-- The offset of the last byte of the segment. With the granularity bit set the
limit counts pages. -/
def descriptorLimit (d : List UInt8) : Nat :=
  let limit := byteAt d 0 + 256 * byteAt d 1 + 65536 * (byteAt d 6 % 16)
  if (byteAt d 6).testBit 7 then 4096 * limit + 4095 else limit

/-- Code in ring 3 gets to use the port: the processor finds the port's two bytes of
the I/O permission bitmap within the segment, and the port's bit clear. -/
def PortGranted (m : Memory) (d : List UInt8) (t : TssEntry) (port : UInt16) : Prop :=
  let offset := t.iomapBase.toNat + port.toNat / 8
  offset + 1 ≤ descriptorLimit d ∧
    (m (UInt32.ofNat (descriptorBase d + offset))).toNat.testBit (port.toNat % 8) = false

theorem bytes16_toNat (v : UInt16) :
    (UInt8.ofNat v.toNat).toNat + 256 * (UInt8.ofNat (v.toNat / 256)).toNat = v.toNat := by
  have hv := v.toNat_lt
  simp only [UInt8.toNat_ofNat']
  omega

theorem descriptorBase_bytes (e : GdtEntry) : descriptorBase e.bytes =
    e.baseLow.toNat + 65536 * e.baseMiddle.toNat + 16777216 * e.baseHigh.toNat := by
  rw [← bytes16_toNat e.baseLow]
  rfl

theorem descriptorLimit_bytes (e : GdtEntry) : descriptorLimit e.bytes =
    if e.granularity.toNat.testBit 7 then
      4096 * (e.limitLow.toNat + 65536 * (e.granularity.toNat % 16)) + 4095
    else e.limitLow.toNat + 65536 * (e.granularity.toNat % 16) := by
  rw [← bytes16_toNat e.limitLow]
  rfl

/-- A field of `k` bits. -/
theorem toNat_and_mask (v mask : UInt32) (k : Nat)
    (hmask : mask.toNat = 2 ^ k - 1) : (v &&& mask).toNat = v.toNat % 2 ^ k := by
  rw [UInt32.toNat_and, hmask, Nat.and_two_pow_sub_one_eq_mod]

theorem toNat_shiftRight_16 (v : UInt32) : (v >>> 16).toNat = v.toNat / 2 ^ 16 := by
  rw [UInt32.toNat_shiftRight, Nat.shiftRight_eq_div_pow]
  rfl

theorem toNat_shiftRight_24 (v : UInt32) : (v >>> 24).toNat = v.toNat / 2 ^ 24 := by
  rw [UInt32.toNat_shiftRight, Nat.shiftRight_eq_div_pow]
  rfl

/-- The processor finds the base that was stored. -/
theorem descriptorBase_gate (base limit : UInt32) (access gran : UInt8) :
    descriptorBase (gate base limit access gran).bytes = base.toNat := by
  have hlow := toNat_and_mask base 0xFFFF 16 rfl
  have hmiddle := toNat_and_mask (base >>> 16) 0xFF 8 rfl
  have hhigh := toNat_and_mask (base >>> 24) 0xFF 8 rfl
  rw [toNat_shiftRight_16] at hmiddle
  rw [toNat_shiftRight_24] at hhigh
  rw [descriptorBase_bytes]
  simp only [gate, UInt32.toNat_toUInt16, UInt32.toNat_toUInt8, hlow, hmiddle, hhigh]
  have := base.toNat_lt
  omega

theorem granularity_low (n gran : UInt8) (hn : n.toNat < 16) :
    (n ||| (gran &&& 0xF0)).toNat % 16 = n.toNat := by
  have hgran : (gran &&& 0xF0).toNat % 2 ^ 4 = 0 := by
    rw [UInt8.toNat_and, Nat.and_mod_two_pow]
    exact Nat.and_zero _
  rw [UInt8.toNat_or, show 16 = 2 ^ 4 from rfl, Nat.or_mod_two_pow, hgran, Nat.or_zero]
  exact Nat.mod_eq_of_lt hn

theorem granularity_high (n gran : UInt8) (hn : n.toNat < 16) :
    (n ||| (gran &&& 0xF0)).toNat.testBit 7 = gran.toNat.testBit 7 := by
  have hlow : n.toNat.testBit 7 = false :=
    Nat.testBit_lt_two_pow (Nat.lt_of_lt_of_le hn (by decide))
  have hmask : (0xF0 : UInt8).toNat.testBit 7 = true := by decide
  rw [UInt8.toNat_or, Nat.testBit_or, hlow, UInt8.toNat_and, Nat.testBit_and, hmask]
  simp

theorem toNat_limitLow (limit : UInt32) :
    (limit &&& 0xFFFF).toUInt16.toNat = limit.toNat % 2 ^ 16 := by
  rw [UInt32.toNat_toUInt16, toNat_and_mask limit 0xFFFF 16 rfl, Nat.mod_mod]

theorem toNat_limitHigh (limit : UInt32) :
    ((limit >>> 16) &&& 0x0F).toUInt8.toNat = limit.toNat / 2 ^ 16 % 2 ^ 4 := by
  rw [UInt32.toNat_toUInt8, toNat_and_mask (limit >>> 16) 0x0F 4 rfl, toNat_shiftRight_16]
  omega

/-- The limit has 20 bits; the granularity flag is bit 7 of `gran`. -/
theorem descriptorLimit_gate (base limit : UInt32) (access gran : UInt8) :
    descriptorLimit (gate base limit access gran).bytes =
      if gran.toNat.testBit 7 then 4096 * (limit.toNat % 2 ^ 20) + 4095
      else limit.toNat % 2 ^ 20 := by
  have hlt : ((limit >>> 16) &&& 0x0F).toUInt8.toNat < 16 := by
    rw [toNat_limitHigh]
    omega
  have hsum : limit.toNat % 2 ^ 16 + 65536 * (limit.toNat / 2 ^ 16 % 2 ^ 4)
      = limit.toNat % 2 ^ 20 := by omega
  have hlow : (gate base limit access gran).limitLow = (limit &&& 0xFFFF).toUInt16 := rfl
  have hgran : (gate base limit access gran).granularity =
      ((limit >>> 16) &&& 0x0F).toUInt8 ||| (gran &&& 0xF0) := rfl
  rw [descriptorLimit_bytes, hlow, hgran, granularity_high _ gran hlt,
    granularity_low _ gran hlt, toNat_limitLow, toNat_limitHigh, hsum]

theorem exists_gate_initGdt (entriesAddr tssAddr : UInt32) (g : Gdt) : ∀ num : Fin 6,
    1 ≤ num.val → num.val ≤ 4 → ∃ access,
      (initGdt entriesAddr tssAddr g).gdtEntries num = gate 0 0xFFFFFFFF access 0xCF
  | 0, h, _ => absurd h (by decide)
  | 1, _, _ => ⟨_, rfl⟩
  | 2, _, _ => ⟨_, rfl⟩
  | 3, _, _ => ⟨_, rfl⟩
  | 4, _, _ => ⟨_, rfl⟩
  | 5, _, h => absurd h (by decide)

/-- **Flat segments.** The code and data segments of both rings are all of memory. -/
theorem flat_initGdt (entriesAddr tssAddr : UInt32) (g : Gdt) {num : Fin 6}
    (h1 : 1 ≤ num.val) (h4 : num.val ≤ 4) :
    descriptorBase ((initGdt entriesAddr tssAddr g).gdtEntries num).bytes = 0 ∧
      descriptorLimit ((initGdt entriesAddr tssAddr g).gdtEntries num).bytes = 2 ^ 32 - 1 := by
  obtain ⟨access, hentry⟩ := exists_gate_initGdt entriesAddr tssAddr g num h1 h4
  rw [hentry, descriptorBase_gate, descriptorLimit_gate]
  decide

/-! ## The TSS -/

/-- The descriptor covers the TSS and no byte after it. -/
structure TssCovered (tssAddr : UInt32) (num : Fin 6) (g : Gdt) : Prop where
  base_eq : descriptorBase (g.gdtEntries num).bytes = tssAddr.toNat
  limit_eq : descriptorLimit (g.gdtEntries num).bytes = sizeofTssEntry.toNat - 1
  iomap_eq : g.tssEntry.iomapBase.toNat = sizeofTssEntry.toNat
  no_bitmap : ∀ port : UInt16, descriptorLimit (g.gdtEntries num).bytes <
    g.tssEntry.iomapBase.toNat + port.toNat / 8
  denied : ∀ (m : Memory) (port : UInt16),
    ¬PortGranted m (g.gdtEntries num).bytes g.tssEntry port

theorem descriptorBase_writeTss (tssAddr : UInt32) (num : Fin 6) (ss0 : UInt16) (esp0 : UInt32)
    (g : Gdt) : descriptorBase ((writeTss tssAddr num ss0 esp0 g).gdtEntries num).bytes
      = tssAddr.toNat := by
  simp only [writeTss, gdtSetGate, Function.update_self, descriptorBase_gate]

/-- The limit is what is left of an address. -/
theorem descriptorLimit_writeTss (tssAddr : UInt32) (num : Fin 6) (ss0 : UInt16) (esp0 : UInt32)
    (g : Gdt) : descriptorLimit ((writeTss tssAddr num ss0 esp0 g).gdtEntries num).bytes
      = (tssAddr.toNat + 104) % 2 ^ 20 := by
  have hsum : (tssAddr + sizeofTssEntry).toNat % 2 ^ 20 = (tssAddr.toNat + 104) % 2 ^ 20 := by
    rw [UInt32.toNat_add, sizeofTssEntry]
    simp only [UInt32.reduceToNat]
    omega
  simp only [writeTss, gdtSetGate, Function.update_self, descriptorLimit_gate]
  rw [← hsum]
  rfl

theorem iomapBase_writeTss (tssAddr : UInt32) (num : Fin 6) (ss0 : UInt16) (esp0 : UInt32)
    (g : Gdt) : (writeTss tssAddr num ss0 esp0 g).tssEntry.iomapBase.toNat = 104 := rfl

/-- The ports that are granted: those whose bits the memory after the TSS has clear, as
far as the limit lets the processor look. -/
theorem portGranted_writeTss_iff (tssAddr : UInt32) (num : Fin 6) (ss0 : UInt16)
    (esp0 : UInt32) (g : Gdt) (m : Memory) (port : UInt16) :
    let g' := writeTss tssAddr num ss0 esp0 g
    PortGranted m (g'.gdtEntries num).bytes g'.tssEntry port ↔
      104 + port.toNat / 8 + 1 ≤ (tssAddr.toNat + 104) % 2 ^ 20 ∧
        (m (UInt32.ofNat (tssAddr.toNat + (104 + port.toNat / 8)))).toNat.testBit
          (port.toNat % 8) = false := by
  intro g'
  rw [PortGranted, descriptorBase_writeTss, descriptorLimit_writeTss, iomapBase_writeTss]

/-- **The TSS descriptor** covers exactly the TSS just where the address of the TSS
plus 104 happens to end in the size of the TSS less one. -/
theorem tssCovered_iff (tssAddr : UInt32) (num : Fin 6) (ss0 : UInt16) (esp0 : UInt32)
    (g : Gdt) : TssCovered tssAddr num (writeTss tssAddr num ss0 esp0 g) ↔
      tssAddr.toNat % 2 ^ 20 = 0xFFFFF := by
  have hbase := descriptorBase_writeTss tssAddr num ss0 esp0 g
  have hlimit := descriptorLimit_writeTss tssAddr num ss0 esp0 g
  have hiomap := iomapBase_writeTss tssAddr num ss0 esp0 g
  have hsize : sizeofTssEntry.toNat = 104 := rfl
  constructor
  · intro h
    have heq := h.limit_eq
    rw [hlimit, hsize] at heq
    omega
  · intro h
    have heq : (tssAddr.toNat + 104) % 2 ^ 20 = 103 := by omega
    have hno : ∀ port : UInt16, 103 < 104 + port.toNat / 8 := fun port =>
      Nat.lt_add_right _ (Nat.lt_succ_self 103)
    refine ⟨hbase, hlimit.trans heq, hiomap, fun port => ?_, fun m port hgranted => ?_⟩
    · rw [hlimit, heq, hiomap]
      exact hno port
    · have hin := hgranted.1
      rw [hlimit, heq, hiomap] at hin
      exact absurd (hno port) (by omega)

/-- Installing a kernel stack later does not change what the descriptor covers. -/
theorem tssCovered_setKernelStack (tssAddr esp : UInt32) (num : Fin 6) (g : Gdt) :
    TssCovered tssAddr num (setKernelStack esp g) ↔ TssCovered tssAddr num g :=
  ⟨fun h => ⟨h.base_eq, h.limit_eq, h.iomap_eq, h.no_bitmap, h.denied⟩,
    fun h => ⟨h.base_eq, h.limit_eq, h.iomap_eq, h.no_bitmap, h.denied⟩⟩

def blankGdt : Gdt := ⟨fun _ => ⟨0, 0, 0, 0, 0, 0⟩, ⟨0, 0⟩, TssEntry.zeros⟩

/-- A TSS at 64 KiB, with zeros after it, grants every port. -/
theorem not_tssCovered_64K :
    ¬TssCovered 0x10000 5 (writeTss 0x10000 5 0x10 0 blankGdt) ∧
      ∀ port, PortGranted (fun _ => 0) ((writeTss 0x10000 5 0x10 0 blankGdt).gdtEntries 5).bytes
        (writeTss 0x10000 5 0x10 0 blankGdt).tssEntry port := by
  have haddr : (0x10000 : UInt32).toNat = 0x10000 := rfl
  constructor
  · intro h
    have heq := h.limit_eq
    rw [descriptorLimit_writeTss, haddr] at heq
    exact absurd heq (by decide)
  · intro port
    have hport := port.toNat_lt
    refine (portGranted_writeTss_iff ..).mpr ⟨?_, Nat.zero_testBit _⟩
    rw [haddr]
    omega

end FirstKernel
