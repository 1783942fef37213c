import FirstKernel.Frames

/-!
# Frees of any pointer

`pmm_free_frame` turns the address it is given into a bit without looking
at it: the null pointer is the frame 0, and an address from 16 MiB on is
behind the bitmap. A run of calls leaves the reserved frames of the first
MiB alone just when every pointer that it frees is in the frames from
1 MiB to 16 MiB (`reserved_runs_iff`), allocated or not.
-/

namespace FirstKernel

def pmmStep : FrameCall → MemoryBitmap → Except Fault MemoryBitmap
  | .allocFrame, bitmap => .ok (pmmAllocFrame bitmap).2
  | .freeFrame ptr, bitmap => pmmFreeFrame ptr bitmap

/-- The frames of the first MiB are in use. -/
def Reserved (bitmap : MemoryBitmap) : Prop := ∀ b : Fin 4096, b.val < 256 → marked bitmap b = true

/-- `pmm_alloc_frame` marks and hands out a frame from 1 MiB on, or all of them are in use. -/
structure AllocatesAbove (bitmap : MemoryBitmap) : Prop where
  ge : (pmmAllocFrame bitmap).1 ≠ 0 → 0x100000 ≤ (pmmAllocFrame bitmap).1.toNat
  null : (pmmAllocFrame bitmap).1 = 0 → ∀ b ∈ nonReserved, marked bitmap b = true
  marks : ∀ b, marked (pmmAllocFrame bitmap).2 b ≠ marked bitmap b → 256 ≤ b.val

/-- What a call should do: it stays in the bitmap, and leaves the reserved frames in use. -/
structure Reserving (call : FrameCall) (bitmap : MemoryBitmap) : Prop where
  kept : ∃ bitmap', pmmStep call bitmap = .ok bitmap' ∧ Reserved bitmap'
  allocates : call = .allocFrame → AllocatesAbove bitmap

/-- The pointer of a free is in the frames that are not reserved. -/
def FreesAbove : FrameCall → Prop
  | .allocFrame => True
  | .freeFrame ptr => 0x100000 ≤ ptr.toNat ∧ ptr.toNat < 0x1000000

theorem reserved_initPmm : Reserved initPmm := fun b hb => by
  rw [marked_initPmm, decide_eq_true hb]

/-! ## One call -/

/-- A clear bit is found among the frames that are not reserved, or there is none. -/
theorem Reserved.pmmAllocFrame_cases {bitmap : MemoryBitmap} (h : Reserved bitmap) :
    (∃ b : Fin 4096, 256 ≤ b.val ∧
      pmmAllocFrame bitmap = (frameAddr b, pmmSetBit b bitmap)) ∨
    ((∀ b, marked bitmap b = true) ∧ pmmAllocFrame bitmap = (0, bitmap)) := by
  unfold pmmAllocFrame
  cases hbit : clearBit bitmap 4096 with
  | some bit =>
      obtain ⟨hclear, -⟩ := marked_of_clearBit_eq_some hbit
      refine Or.inl ⟨bit, ?_, rfl⟩
      by_contra hlt
      rw [h bit (Nat.lt_of_not_le hlt)] at hclear
      cases hclear
  | none => exact Or.inr ⟨fun b => marked_of_clearBit_eq_none hbit b (by omega), rfl⟩

theorem Reserved.allocatesAbove {bitmap : MemoryBitmap} (h : Reserved bitmap) :
    AllocatesAbove bitmap := by
  rcases h.pmmAllocFrame_cases with ⟨b, hb, halloc⟩ | ⟨hall, halloc⟩
  · refine ⟨fun _ => ?_, fun hnull => ?_, fun a ha => ?_⟩
    · rw [halloc, toNat_frameAddr]
      omega
    · rw [halloc] at hnull
      exact absurd hnull (frameAddr_ne_zero hb)
    · rw [halloc, marked_pmmSetBit] at ha
      by_cases hab : a = b
      · rw [hab]
        exact hb
      · rw [decide_eq_false hab, Bool.false_or] at ha
        exact absurd rfl ha
  · refine ⟨fun hne => ?_, fun _ b _ => hall b, fun a ha => ?_⟩
    · rw [halloc] at hne
      exact absurd rfl hne
    · rw [halloc] at ha
      exact absurd rfl ha

theorem Reserved.allocFrame {bitmap : MemoryBitmap} (h : Reserved bitmap) :
    Reserved (pmmAllocFrame bitmap).2 := fun b hb => by
  by_contra hne
  have hge := h.allocatesAbove.marks b (by rw [h b hb]; exact hne)
  omega

/-- A free keeps the reserved frames when its pointer is above them, and in the bitmap. -/
theorem Reserved.freeFrame_iff {bitmap : MemoryBitmap} (h : Reserved bitmap) (ptr : UInt32) :
    (∃ bitmap', pmmFreeFrame ptr bitmap = .ok bitmap' ∧ Reserved bitmap') ↔
      0x100000 ≤ ptr.toNat ∧ ptr.toNat < 0x1000000 := by
  rw [pmmFreeFrame]
  by_cases hlt : ptr.toNat / 4096 < 4096
  · simp only [dif_pos hlt]
    constructor
    · rintro ⟨bitmap', heq, hkept⟩
      cases heq
      refine ⟨?_, by omega⟩
      by_contra hbelow
      have hbit : ptr.toNat / 4096 < 256 := by omega
      have hmarked := hkept ⟨ptr.toNat / 4096, hlt⟩ hbit
      rw [marked_pmmClearBit, decide_eq_true rfl] at hmarked
      cases hmarked
    · rintro ⟨hge, -⟩
      refine ⟨_, rfl, fun b hb => ?_⟩
      have hne : b ≠ ⟨ptr.toNat / 4096, hlt⟩ := fun heq => by
        have hval : b.val = ptr.toNat / 4096 := congrArg Fin.val heq
        omega
      rw [marked_pmmClearBit, decide_eq_false hne, h b hb]
      rfl
  · simp only [dif_neg hlt]
    refine iff_of_false ?_ fun hrange => hlt (by omega)
    rintro ⟨bitmap', heq, -⟩
    cases heq

/-- A reserved frame that was freed is the next one that is handed out. -/
theorem Reserved.pmmAllocFrame_freed {bitmap bitmap' : MemoryBitmap} (h : Reserved bitmap)
    {ptr : UInt32} (hlow : ptr.toNat < 0x100000) (hfree : pmmFreeFrame ptr bitmap = .ok bitmap') :
    (pmmAllocFrame bitmap').1.toNat = 4096 * (ptr.toNat / 4096) := by
  have hlt : ptr.toNat / 4096 < 4096 := by omega
  simp only [pmmFreeFrame, dif_pos hlt] at hfree
  obtain rfl := Except.ok.inj hfree
  let freed : Fin 4096 := ⟨ptr.toNat / 4096, hlt⟩
  have hclear : marked (pmmClearBit freed bitmap) freed = false := by
    rw [marked_pmmClearBit, decide_eq_true rfl]
    rfl
  unfold pmmAllocFrame
  cases hbit : clearBit (pmmClearBit freed bitmap) 4096 with
  | none =>
      rw [marked_of_clearBit_eq_none hbit freed (by omega)] at hclear
      cases hclear
  | some bit =>
      obtain ⟨hbitClear, hbelow⟩ := marked_of_clearBit_eq_some hbit
      have hle : ¬freed < bit := fun hlt' => by
        rw [hbelow freed (by omega) hlt'] at hclear
        cases hclear
      have hsame : bit = freed := by
        by_contra hne
        have hval : bit.val < 256 := by
          have hle' : bit.val ≤ ptr.toNat / 4096 := Fin.not_lt.mp hle
          omega
        rw [marked_pmmClearBit, decide_eq_false hne, h bit hval] at hbitClear
        cases hbitClear
      rw [hsame]
      exact toNat_frameAddr freed

/-! ## Runs -/

theorem Reserved.reserving_iff {bitmap : MemoryBitmap} (h : Reserved bitmap)
    (call : FrameCall) : Reserving call bitmap ↔ FreesAbove call := by
  cases call with
  | allocFrame =>
      exact iff_of_true ⟨⟨_, rfl, h.allocFrame⟩, fun _ => h.allocatesAbove⟩ trivial
  | freeFrame ptr =>
      refine ⟨fun hres => (h.freeFrame_iff ptr).mp hres.kept, fun hrange => ?_⟩
      exact ⟨(h.freeFrame_iff ptr).mpr hrange, fun heq => by cases heq⟩

/-- **Reserved frames stay in use** in the runs that free only pointers above them, and in the
bitmap. -/
theorem reserved_runs_iff (calls : List FrameCall) :
    Guarded pmmStep Reserving calls initPmm ↔
      ∀ ptr, .freeFrame ptr ∈ calls → 0x100000 ≤ ptr.toNat ∧ ptr.toNat < 0x1000000 := by
  have hall : (∀ call ∈ calls, FreesAbove call) ↔
      ∀ ptr, .freeFrame ptr ∈ calls → 0x100000 ≤ ptr.toNat ∧ ptr.toNat < 0x1000000 := by
    refine ⟨fun h ptr hmem => h _ hmem, fun h call hmem => ?_⟩
    cases call with
    | allocFrame => trivial
    | freeFrame ptr => exact h ptr hmem
  rw [← hall]
  exact guarded_iff_forall (fun call bitmap hres => hres.reserving_iff call)
    (fun call bitmap hres hfree => ((hres.reserving_iff call).mpr hfree).kept) calls
    reserved_initPmm

/-- The null pointer that a failed allocation returns is freed, and then a frame is asked for. -/
theorem not_reserved_runs :
    ¬Guarded pmmStep Reserving [.freeFrame 0, .allocFrame] initPmm := by
  intro h
  have hnull := (reserved_initPmm.freeFrame_iff 0).mp h.1.kept
  exact absurd hnull.1 (by decide)

end FirstKernel
