import Mathlib.Algebra.Group.Nat.Defs
import Mathlib.Logic.Function.Basic
import Mathlib.Data.Fin.Tuple.Basic
import FirstKernel.Runs

/-!
# The frame allocator, `drivers/pmm.c`

`memory_bitmap` has one bit for each of 4096 frames of 4096 bytes; a set
bit is a frame in use. `pmm_alloc_frame` hands out the lowest clear one,
as an address, and the null pointer when there is none.

`pmm_free_frame` clears the bit of whatever address it is given; beyond
the first 16 MiB the word is outside the array.
-/

namespace FirstKernel

abbrev MemoryBitmap := Fin 128 → UInt32

def wordOf (bit : Fin 4096) : Fin 128 := ⟨bit.val / 32, by omega⟩

def pmmSetBit (bit : Fin 4096) (bitmap : MemoryBitmap) : MemoryBitmap :=
  Function.update bitmap (wordOf bit)
    (bitmap (wordOf bit) ||| 1 <<< UInt32.ofNat (bit.val % 32))

def pmmClearBit (bit : Fin 4096) (bitmap : MemoryBitmap) : MemoryBitmap :=
  Function.update bitmap (wordOf bit)
    (bitmap (wordOf bit) &&& ~~~(1 <<< UInt32.ofNat (bit.val % 32)))

def pmmTestBit (bit : Fin 4096) (bitmap : MemoryBitmap) : UInt32 :=
  bitmap (wordOf bit) &&& 1 <<< UInt32.ofNat (bit.val % 32)

/-- A frame of the first MiB. -/
def reservedBit (i : Fin 256) : Fin 4096 := ⟨i.val, by omega⟩

/-- All words are cleared, and then the bits of the first MiB set. -/
def initPmm : MemoryBitmap :=
  (List.finRange 256).foldl (fun bitmap i => pmmSetBit (reservedBit i) bitmap) fun _ => 0

/-- The loop of `pmm_alloc_frame`, with the rounds that are left: the first clear
bit. -/
@[irreducible] def clearBit (bitmap : MemoryBitmap) : Nat → Option (Fin 4096)
  | 0 => none
  | rounds + 1 =>
      let bit : Fin 4096 := ⟨4095 - rounds, by omega⟩
      if pmmTestBit bit bitmap = 0 then some bit else clearBit bitmap rounds

/-- The address of the frame, and the bitmap afterwards. -/
def pmmAllocFrame (bitmap : MemoryBitmap) : UInt32 × MemoryBitmap :=
  match clearBit bitmap 4096 with
  | some bit => (UInt32.ofNat (4096 * bit.val), pmmSetBit bit bitmap)
  | none => (0, bitmap)

def pmmFreeFrame (ptr : UInt32) (bitmap : MemoryBitmap) : Except Fault MemoryBitmap :=
  let bit := ptr.toNat / 4096
  if h : bit < 4096 then .ok (pmmClearBit ⟨bit, h⟩ bitmap)
  else .error (.outOfRange (bit / 32))

/-- Frames lie in the first 16 MiB. -/
theorem pmmAllocFrame_lt (bitmap : MemoryBitmap) :
    (pmmAllocFrame bitmap).1.toNat < 2 ^ 24 := by
  unfold pmmAllocFrame
  cases clearBit bitmap 4096 with
  | none => simp
  | some bit =>
      have hval : (UInt32.ofNat (4096 * bit.val)).toNat = 4096 * bit.val := by
        rw [UInt32.toNat_ofNat']
        omega
      simp only [hval]
      omega

end FirstKernel
