import FirstKernel.Memory
import FirstKernel.Runs
import FirstKernel.Walk

/-!
# The heap, `libc/mem.c`

A list of blocks in memory, each with a header of three words (`size`,
`free`, `next`) in front of the bytes it gives out. `kmalloc` takes the
first free block that is large enough, whole; blocks are never split or
joined, and `init_heap` makes one block of the whole region.

The walk of `kmalloc` runs on fuel, one round more than there are
addresses: a list that is longer than that goes round in circles
(`kmalloc_eq_ok`).
-/

namespace FirstKernel

/-- `sizeof(MemoryBlock)` -/
abbrev blockHeader : UInt32 := 12

namespace Memory

/-! The fields of a header. -/

def blockSize (m : Memory) (block : UInt32) : UInt32 := m.load block

def blockFree (m : Memory) (block : UInt32) : UInt32 := m.load (block + 4)

def blockNext (m : Memory) (block : UInt32) : UInt32 := m.load (block + 8)

def setBlockFree (m : Memory) (block v : UInt32) : Memory := m.store (block + 4) v

end Memory

/-- `free_list` and the memory afterwards. -/
def initHeap (startAddress totalSize : UInt32) (m : Memory) : UInt32 × Memory :=
  let m := m.store startAddress (totalSize - blockHeader)
  let m := m.store (startAddress + 4) 1
  (startAddress, m.store (startAddress + 8) 0)

@[irreducible] def heapFuel : Nat := 4294967297

/-- The loop of `kmalloc`: the address it returns, and the memory afterwards. -/
def kmallocFrom (size : UInt32) (m : Memory) : Nat → UInt32 → Except Fault (UInt32 × Memory)
  | 0, _ => .error .outOfFuel
  | fuel + 1, current =>
      if current = 0 then .ok (0, m)
      else if m.blockFree current = 1 ∧ size ≤ m.blockSize current then
        .ok (current + blockHeader, m.setBlockFree current 0)
      else kmallocFrom size m fuel (m.blockNext current)

def kmalloc (size freeList : UInt32) (m : Memory) : Except Fault (UInt32 × Memory) :=
  kmallocFrom size m heapFuel freeList

def kfree (ptr : UInt32) (m : Memory) : Memory :=
  if ptr = 0 then m else m.setBlockFree (ptr - blockHeader) 1

/-! ## The search for a block -/

namespace Memory

/-- A block that a request for `size` bytes is given. -/
def BlockFits (m : Memory) (size block : UInt32) : Prop :=
  m.blockFree block = 1 ∧ size ≤ m.blockSize block

/-- A block that the loop of `kmalloc` goes past. -/
def BlockPassed (m : Memory) (size block : UInt32) : Prop :=
  block ≠ 0 ∧ ¬m.BlockFits size block

/-- The result of `kmalloc` when its loop stops at `block`. -/
def give (m : Memory) (block : UInt32) : UInt32 × Memory :=
  if block = 0 then (0, m) else (block + blockHeader, m.setBlockFree block 0)

end Memory

theorem kmallocFrom_of_walk {size a z : UInt32} {m : Memory} {l : List UInt32}
    (h : Walk (m.BlockPassed size) m.blockNext a l z) :
    ∀ {fuel : Nat}, l.length < fuel → kmallocFrom size m fuel a = .ok (m.give z) := by
  induction h with
  | @stop a hout =>
      intro fuel hlt
      obtain ⟨fuel, rfl⟩ : ∃ n, fuel = n + 1 := ⟨fuel - 1, by omega⟩
      rw [kmallocFrom, Memory.give]
      by_cases hnull : a = 0
      · rw [if_pos hnull, if_pos hnull]
      · have hfits : m.BlockFits size a := by
          by_contra hnot
          exact hout ⟨hnull, hnot⟩
        rw [if_neg hnull, if_neg hnull]
        exact if_pos hfits
  | @step a l z hin _ ih =>
      intro fuel hlt
      obtain ⟨fuel, rfl⟩ : ∃ n, fuel = n + 1 := ⟨fuel - 1, by omega⟩
      rw [kmallocFrom, if_neg hin.1]
      exact (if_neg hin.2).trans (ih (Nat.lt_of_succ_lt_succ hlt))

theorem walk_of_kmallocFrom {size : UInt32} {m : Memory} : ∀ {fuel : Nat} {a : UInt32}
    {r : UInt32 × Memory}, kmallocFrom size m fuel a = .ok r →
      ∃ l z, Walk (m.BlockPassed size) m.blockNext a l z
  | 0, _, _, h => by cases h
  | fuel + 1, a, r, h => by
      by_cases hin : m.BlockPassed size a
      · rw [kmallocFrom, if_neg hin.1] at h
        obtain ⟨l, z, hw⟩ := walk_of_kmallocFrom ((if_neg hin.2).symm.trans h)
        exact ⟨a :: l, z, .step hin hw⟩
      · exact ⟨[], a, .stop hin⟩

/-- **`kmalloc` is the walk.** It returns exactly when the list has an end or a block
that fits, and gives the first one. -/
theorem kmalloc_eq_ok {size freeList : UInt32} {m : Memory} {r : UInt32 × Memory} :
    kmalloc size freeList m = .ok r ↔
      ∃ l z, Walk (m.BlockPassed size) m.blockNext freeList l z ∧ r = m.give z := by
  have hfuel : ∀ {l : List UInt32} {z : UInt32},
      Walk (m.BlockPassed size) m.blockNext freeList l z → l.length < heapFuel := by
    intro l z hw
    have hinj : Function.Injective UInt32.toFin := fun x y hxy => UInt32.toFin_inj.mp hxy
    rw [heapFuel]
    exact Nat.lt_succ_of_le (hw.length_le hinj)
  constructor
  · intro h
    obtain ⟨l, z, hw⟩ := walk_of_kmallocFrom h
    have hrun := kmallocFrom_of_walk hw (hfuel hw)
    exact ⟨l, z, hw, Except.ok.inj (h.symm.trans hrun)⟩
  · rintro ⟨l, z, hw, rfl⟩
    exact kmallocFrom_of_walk hw (hfuel hw)

/-! ## A heap of one block -/

/-- The block is the only one in the list. -/
structure OneBlock (m : Memory) (block size free : UInt32) : Prop where
  ne_null : block ≠ 0
  size_eq : m.blockSize block = size
  free_eq : m.blockFree block = free
  next_eq : m.blockNext block = 0

theorem apart_add {a j k : UInt32} (h1 : 4 ≤ (k - j).toNat) (h2 : 4 ≤ (j - k).toNat) :
    Memory.Apart (a + j) (a + k) := by
  have hsub : ∀ x y : UInt32, a + x - (a + y) = x - y := fun x y => by
    rw [← UInt32.toNat_inj]
    simp only [UInt32.toNat_sub, UInt32.toNat_add]
    have := a.toNat_lt
    have := x.toNat_lt
    have := y.toNat_lt
    omega
  exact ⟨by rw [hsub]; exact h1, by rw [hsub]; exact h2⟩

theorem initHeap_oneBlock {startAddress : UInt32} (h : startAddress ≠ 0) (totalSize : UInt32)
    (m : Memory) :
    OneBlock (initHeap startAddress totalSize m).2 startAddress (totalSize - blockHeader) 1 := by
  have h04 : Memory.Apart (startAddress + 4) startAddress := by
    simpa using apart_add (a := startAddress) (j := 4) (k := 0) (by decide) (by decide)
  have h08 : Memory.Apart (startAddress + 8) startAddress := by
    simpa using apart_add (a := startAddress) (j := 8) (k := 0) (by decide) (by decide)
  have h48 : Memory.Apart (startAddress + 8) (startAddress + 4) :=
    apart_add (by decide) (by decide)
  refine ⟨h, ?_, ?_, Memory.load_store ..⟩
  · rw [Memory.blockSize, initHeap, Memory.load_store_of_apart _ _ h08,
      Memory.load_store_of_apart _ _ h04, Memory.load_store]
  · rw [Memory.blockFree, initHeap, Memory.load_store_of_apart _ _ h48, Memory.load_store]

/-- The block is given out if it is free and large enough; there is no other. -/
theorem OneBlock.kmalloc_eq {m : Memory} {block size free : UInt32}
    (h : OneBlock m block size free) (n : UInt32) :
    kmalloc n block m = .ok (if free = 1 ∧ n ≤ size then
      (block + blockHeader, m.setBlockFree block 0) else (0, m)) := by
  have hfuel : heapFuel = 4294967295 + 1 + 1 := by rw [heapFuel]
  rw [kmalloc, hfuel, kmallocFrom, if_neg h.ne_null, h.free_eq, h.size_eq]
  split
  · rfl
  · rw [kmallocFrom, h.next_eq, if_pos rfl]

theorem OneBlock.setBlockFree {m : Memory} {block size free : UInt32}
    (h : OneBlock m block size free) (v : UInt32) :
    OneBlock (m.setBlockFree block v) block size v := by
  have h40 : Memory.Apart (block + 4) block := by
    simpa using apart_add (a := block) (j := 4) (k := 0) (by decide) (by decide)
  have h48 : Memory.Apart (block + 4) (block + 8) := apart_add (by decide) (by decide)
  refine ⟨h.ne_null, ?_, Memory.load_store .., ?_⟩
  · rw [Memory.blockSize, Memory.setBlockFree, Memory.load_store_of_apart _ _ h40]
    exact h.size_eq
  · rw [Memory.blockNext, Memory.setBlockFree, Memory.load_store_of_apart _ _ h48]
    exact h.next_eq

theorem kmalloc_null (size : UInt32) (m : Memory) : kmalloc size 0 m = .ok (0, m) := by
  have hfuel : heapFuel = 4294967296 + 1 := by rw [heapFuel]
  rw [kmalloc, hfuel, kmallocFrom, if_pos rfl]

theorem OneBlock.kmalloc_free {m : Memory} {block size n : UInt32} (h : OneBlock m block size 1)
    (hn : n ≤ size) : kmalloc n block m = .ok (block + blockHeader, m.setBlockFree block 0) := by
  rw [h.kmalloc_eq, if_pos ⟨rfl, hn⟩]

theorem OneBlock.kmalloc_large {m : Memory} {block size n : UInt32} (h : OneBlock m block size 1)
    (hn : ¬n ≤ size) : kmalloc n block m = .ok (0, m) := by
  rw [h.kmalloc_eq, if_neg fun hand => hn hand.2]

theorem OneBlock.kmalloc_taken {m : Memory} {block size : UInt32} (h : OneBlock m block size 0)
    (n : UInt32) : kmalloc n block m = .ok (0, m) := by
  rw [h.kmalloc_eq, if_neg fun hand => absurd hand.1 (by decide)]

end FirstKernel
