import Mathlib.Data.Nat.Bitwise
import Mathlib.Order.Interval.Finset.Fin
import FirstKernel.Pmm
import FirstKernel.Pool

/-!
# The frame allocator hands out a pool of frames

`memory_bitmap` is a set of frames, one bit each (`marked`): setting and
clearing a bit change one member, whatever word and mask it has. The
allocator then is the `Pool` of the frames from 1 MiB on. A run of
`pmm_alloc_frame` and `pmm_free_frame` calls keeps the list of the
addresses that are handed out beside the bitmap; `Represents` relates
the two to a pool, each call to an operation of the pool
(`frameStep_represents`), and so every run that frees only what is live
(`represents_runs`).
-/

namespace FirstKernel

/-! ## The bitmap as a set -/

def marked (bitmap : MemoryBitmap) (bit : Fin 4096) : Bool :=
  (bitmap (wordOf bit)).toNat.testBit (bit.val % 32)

theorem testBit_mask (i k : Nat) (hk : k < 32) :
    (1 <<< UInt32.ofNat k : UInt32).toNat.testBit i = decide (k = i) := by
  have hpow : 2 ^ k < 2 ^ 32 := Nat.pow_lt_pow_right (by decide) hk
  have hmask : (1 <<< UInt32.ofNat k : UInt32).toNat = 2 ^ k := by
    rw [UInt32.toNat_shiftLeft, UInt32.toNat_ofNat', Nat.mod_eq_of_lt (a := k) (by omega),
      Nat.mod_eq_of_lt hk, UInt32.toNat_one, Nat.one_shiftLeft, Nat.mod_eq_of_lt hpow]
  rw [hmask, Nat.testBit_two_pow]

theorem testBit_not (w : UInt32) (i : Nat) (hi : i < 32) :
    (~~~w).toNat.testBit i = !w.toNat.testBit i := by
  have hbit := BitVec.getLsbD_not (x := w.toBitVec) (i := i)
  rw [decide_eq_true hi, Bool.true_and] at hbit
  exact hbit

theorem eq_of_wordOf_eq {a b : Fin 4096} (hword : wordOf a = wordOf b)
    (hbit : a.val % 32 = b.val % 32) : a = b := by
  have hdiv : a.val / 32 = b.val / 32 := congrArg Fin.val hword
  exact Fin.ext (by omega)

/-- In one word, two frames have the same mask only if they are the same. -/
theorem mask_eq_iff {a b : Fin 4096} (hword : wordOf a = wordOf b) :
    a.val % 32 = b.val % 32 ↔ b = a :=
  ⟨fun h => (eq_of_wordOf_eq hword h).symm, fun h => h ▸ rfl⟩

theorem pmmTestBit_eq_zero_iff (bit : Fin 4096) (bitmap : MemoryBitmap) :
    pmmTestBit bit bitmap = 0 ↔ marked bitmap bit = false := by
  have hlt : bit.val % 32 < 32 := Nat.mod_lt _ (by decide)
  have htest : ∀ i, (pmmTestBit bit bitmap).toNat.testBit i =
      ((bitmap (wordOf bit)).toNat.testBit i && decide (bit.val % 32 = i)) := fun i => by
    rw [pmmTestBit, UInt32.toNat_and, Nat.testBit_and, testBit_mask _ _ hlt]
  rw [← UInt32.toNat_inj, marked]
  constructor
  · intro h
    have hbit := htest (bit.val % 32)
    rw [h, decide_eq_true rfl, Bool.and_true] at hbit
    rw [← hbit]
    exact Nat.zero_testBit _
  · intro h
    refine Nat.eq_of_testBit_eq fun i => ?_
    rw [htest i]
    by_cases hi : bit.val % 32 = i
    · simp [← hi, h]
    · simp [hi]

theorem marked_pmmSetBit (a b : Fin 4096) (bitmap : MemoryBitmap) :
    marked (pmmSetBit a bitmap) b = (decide (b = a) || marked bitmap b) := by
  have hlt : a.val % 32 < 32 := Nat.mod_lt _ (by decide)
  unfold marked pmmSetBit
  by_cases hword : wordOf b = wordOf a
  · rw [hword, Function.update_self, UInt32.toNat_or, Nat.testBit_or, testBit_mask _ _ hlt,
      Bool.or_comm]
    exact congrArg (· || _) (decide_eq_decide.mpr (mask_eq_iff hword.symm))
  · have hne : b ≠ a := fun h => hword (congrArg wordOf h)
    rw [Function.update_of_ne hword, decide_eq_false hne, Bool.false_or]

theorem marked_pmmClearBit (a b : Fin 4096) (bitmap : MemoryBitmap) :
    marked (pmmClearBit a bitmap) b = (!decide (b = a) && marked bitmap b) := by
  have hlt : a.val % 32 < 32 := Nat.mod_lt _ (by decide)
  unfold marked pmmClearBit
  by_cases hword : wordOf b = wordOf a
  · rw [hword, Function.update_self, UInt32.toNat_and, Nat.testBit_and,
      testBit_not _ _ (Nat.mod_lt _ (by decide)), testBit_mask _ _ hlt, Bool.and_comm]
    exact congrArg (!· && _) (decide_eq_decide.mpr (mask_eq_iff hword.symm))
  · have hne : b ≠ a := fun h => hword (congrArg wordOf h)
    rw [Function.update_of_ne hword, decide_eq_false hne, Bool.not_false, Bool.true_and]

theorem marked_foldl_pmmSetBit (b : Fin 4096) : ∀ (bits : List (Fin 256))
    (bitmap : MemoryBitmap),
    marked (bits.foldl (fun bitmap i => pmmSetBit (reservedBit i) bitmap) bitmap) b =
      (decide (∃ i ∈ bits, i.val = b.val) || marked bitmap b)
  | [], bitmap => by simp
  | i :: bits, bitmap => by
      have hone : decide (b = reservedBit i) = decide (i.val = b.val) :=
        decide_eq_decide.mpr ⟨fun h => h ▸ rfl, fun h => Fin.ext h.symm⟩
      rw [List.foldl_cons, marked_foldl_pmmSetBit b bits, marked_pmmSetBit, hone]
      by_cases hi : i.val = b.val
      · simp [hi]
      · simp [hi]

theorem marked_initPmm (b : Fin 4096) : marked initPmm b = decide (b.val < 256) := by
  have hzero : marked (fun _ => 0) b = false := Nat.zero_testBit _
  rw [initPmm, marked_foldl_pmmSetBit, hzero, Bool.or_false, decide_eq_decide]
  constructor
  · rintro ⟨i, _, hi⟩
    exact hi ▸ i.isLt
  · intro h
    exact ⟨⟨b.val, h⟩, List.mem_finRange _, rfl⟩

/-! ## Runs of the allocator -/

inductive FrameCall where
  | allocFrame
  | freeFrame (ptr : UInt32)
deriving DecidableEq

/-- The bitmap, and the addresses that were handed out and not freed since. -/
structure FrameRun where
  bitmap : MemoryBitmap
  live : List UInt32

def bootFrames : FrameRun := ⟨initPmm, []⟩

def frameStep : FrameCall → FrameRun → Except Fault FrameRun
  | .allocFrame, s =>
      let r := pmmAllocFrame s.bitmap
      .ok ⟨r.2, if r.1 = 0 then s.live else r.1 :: s.live⟩
  | .freeFrame ptr, s =>
      match pmmFreeFrame ptr s.bitmap with
      | .ok bitmap => .ok ⟨bitmap, s.live.erase ptr⟩
      | .error e => .error e

def FreesLive : FrameCall → FrameRun → Prop
  | .allocFrame, _ => True
  | .freeFrame ptr, s => ptr ∈ s.live

def frameAddr (b : Fin 4096) : UInt32 := UInt32.ofNat (4096 * b.val)

/-- A frame that is not reserved, by its address. -/
structure IsFrame (ptr : UInt32) : Prop where
  aligned : 4096 ∣ ptr.toNat
  ge : 0x100000 ≤ ptr.toNat
  lt : ptr.toNat < 0x1000000

def nonReserved : Finset (Fin 4096) := Finset.Ici ⟨256, by decide⟩

theorem mem_nonReserved {b : Fin 4096} : b ∈ nonReserved ↔ 256 ≤ b.val := Finset.mem_Ici

theorem card_nonReserved : nonReserved.card = 3840 := Fin.card_Ici _

theorem toNat_frameAddr (b : Fin 4096) : (frameAddr b).toNat = 4096 * b.val := by
  rw [frameAddr, UInt32.toNat_ofNat']
  omega

theorem frameAddr_inj {a b : Fin 4096} (h : frameAddr a = frameAddr b) : a = b := by
  have hnat := congrArg UInt32.toNat h
  rw [toNat_frameAddr, toNat_frameAddr] at hnat
  exact Fin.ext (by omega)

theorem frameAddr_ne_zero {b : Fin 4096} (hb : 256 ≤ b.val) : frameAddr b ≠ 0 := by
  intro h
  have hnat := toNat_frameAddr b
  rw [h, UInt32.toNat_zero] at hnat
  omega

theorem isFrame_frameAddr {b : Fin 4096} (hb : 256 ≤ b.val) : IsFrame (frameAddr b) := by
  have hnat := toNat_frameAddr b
  exact ⟨⟨b.val, hnat⟩, by omega, by omega⟩

theorem IsFrame.exists_frameAddr {ptr : UInt32} (h : IsFrame ptr) :
    ∃ b : Fin 4096, 256 ≤ b.val ∧ ptr = frameAddr b := by
  obtain ⟨k, hk⟩ := h.aligned
  have hge := h.ge
  have hlt := h.lt
  refine ⟨⟨k, by omega⟩, ?_, UInt32.toNat_inj.mp ?_⟩
  · show 256 ≤ k
    omega
  · rw [toNat_frameAddr, hk]

/-! ## The pool behind the bitmap -/

/-- The bitmap has the reserved frames and the live ones, each handed out once. -/
structure Represents (s : FrameRun) (p : Pool nonReserved) : Prop where
  nodup : s.live.Nodup
  mem_live : ∀ ptr, ptr ∈ s.live ↔ ∃ b ∈ p.live, ptr = frameAddr b
  marked_iff : ∀ b, marked s.bitmap b = true ↔ b.val < 256 ∨ b ∈ p.live

theorem Represents.frameAddr_mem_iff {s : FrameRun} {p : Pool nonReserved}
    (h : Represents s p) {b : Fin 4096} : frameAddr b ∈ s.live ↔ b ∈ p.live := by
  rw [h.mem_live]
  constructor
  · rintro ⟨a, ha, heq⟩
    exact frameAddr_inj heq ▸ ha
  · exact fun hb => ⟨b, hb, rfl⟩

theorem Represents.mem_available_iff {s : FrameRun} {p : Pool nonReserved}
    (h : Represents s p) {b : Fin 4096} : b ∈ p.available ↔ marked s.bitmap b = false := by
  rw [Pool.mem_available, mem_nonReserved, ← Bool.not_eq_true, h.marked_iff, not_or, not_lt]

theorem Represents.length_live {s : FrameRun} {p : Pool nonReserved}
    (h : Represents s p) : s.live.length = p.live.card := by
  have himage : s.live.toFinset = p.live.image frameAddr := by
    refine Finset.ext fun ptr => ?_
    rw [List.mem_toFinset, h.mem_live, Finset.mem_image]
    exact exists_congr fun b => and_congr_right fun _ => eq_comm
  rw [← List.toFinset_card_of_nodup h.nodup, himage]
  exact Finset.card_image_of_injective _ fun _ _ => frameAddr_inj

theorem represents_bootFrames : Represents bootFrames (Pool.empty nonReserved) where
  nodup := List.nodup_nil
  mem_live := fun ptr => by simp [bootFrames, Pool.empty]
  marked_iff := fun b => by simp [bootFrames, Pool.empty, marked_initPmm]

/-! ## Each call -/

theorem bitAt_lt (rounds : Nat) : 4095 - rounds < 4096 := by omega

/-- The bit that is tested when `rounds` more are left. -/
def bitAt (rounds : Nat) : Fin 4096 := ⟨4095 - rounds, bitAt_lt rounds⟩

theorem clearBit_succ (bitmap : MemoryBitmap) (rounds : Nat) :
    clearBit bitmap (rounds + 1) =
      if marked bitmap (bitAt rounds) = false then some (bitAt rounds)
      else clearBit bitmap rounds := by
  rw [clearBit]
  simp only [pmmTestBit_eq_zero_iff]
  rfl

theorem marked_of_clearBit_eq_none {bitmap : MemoryBitmap} : ∀ {rounds : Nat},
    clearBit bitmap rounds = none → ∀ b : Fin 4096, 4096 ≤ b.val + rounds →
      marked bitmap b = true
  | 0, _, b, hb => absurd b.isLt (by omega)
  | rounds + 1, h, b, hb => by
      rw [clearBit_succ] at h
      split at h
      · cases h
      · next hfirst =>
          rw [Bool.not_eq_false] at hfirst
          by_cases heq : b.val = 4095 - rounds
          · exact (Fin.ext heq : b = bitAt rounds) ▸ hfirst
          · exact marked_of_clearBit_eq_none h b (by omega)

/-- The loop stops at a clear bit that no clear bit precedes. -/
theorem marked_of_clearBit_eq_some {bitmap : MemoryBitmap} {bit : Fin 4096} :
    ∀ {rounds : Nat}, clearBit bitmap rounds = some bit →
      marked bitmap bit = false ∧
      ∀ b : Fin 4096, 4096 ≤ b.val + rounds → b < bit → marked bitmap b = true
  | 0, h => by
      rw [clearBit] at h
      cases h
  | rounds + 1, h => by
      rw [clearBit_succ] at h
      split at h
      · next hfirst =>
          cases h
          refine ⟨hfirst, fun b hb hlt => ?_⟩
          have hlt' : b.val < 4095 - rounds := hlt
          omega
      · next hfirst =>
          rw [Bool.not_eq_false] at hfirst
          obtain ⟨hclear, hbelow⟩ := marked_of_clearBit_eq_some h
          refine ⟨hclear, fun b hb hlt => ?_⟩
          by_cases heq : b.val = 4095 - rounds
          · exact (Fin.ext heq : b = bitAt rounds) ▸ hfirst
          · exact hbelow b (by omega) hlt

/-- `pmm_alloc_frame` hands out the least available frame, or none if there is none. -/
theorem Represents.pmmAllocFrame_cases {s : FrameRun} {p : Pool nonReserved}
    (h : Represents s p) :
    (∃ b, IsLeast (p.available : Set (Fin 4096)) b ∧
      pmmAllocFrame s.bitmap = (frameAddr b, pmmSetBit b s.bitmap)) ∨
    (p.available = ∅ ∧ pmmAllocFrame s.bitmap = (0, s.bitmap)) := by
  unfold pmmAllocFrame
  cases hbit : clearBit s.bitmap 4096 with
  | some bit =>
      obtain ⟨hclear, hbelow⟩ := marked_of_clearBit_eq_some hbit
      refine Or.inl ⟨bit, ⟨h.mem_available_iff.mpr hclear, fun b hb => ?_⟩, rfl⟩
      by_contra hlt
      have hmarked := hbelow b (by omega) (not_le.mp hlt)
      rw [h.mem_available_iff.mp (Finset.mem_coe.mp hb)] at hmarked
      cases hmarked
  | none =>
      refine Or.inr ⟨Finset.eq_empty_of_forall_notMem fun b hb => ?_, rfl⟩
      have hmarked := marked_of_clearBit_eq_none hbit b (by omega)
      rw [h.mem_available_iff.mp hb] at hmarked
      cases hmarked

/-- The first frame that is handed out is the one at 1 MiB. -/
theorem pmmAllocFrame_initPmm : (pmmAllocFrame initPmm).1 = 0x100000 := by
  have hfirst : (⟨256, by decide⟩ : Fin 4096) ∈ (Pool.empty nonReserved).available :=
    Pool.mem_available.mpr ⟨mem_nonReserved.mpr (Nat.le_refl 256), Finset.notMem_empty _⟩
  rcases represents_bootFrames.pmmAllocFrame_cases with ⟨b, hleast, halloc⟩ | ⟨hnone, -⟩
  · have hb := (Pool.mem_available.mp (Finset.mem_coe.mp hleast.1)).1
    have hle : b.val ≤ 256 := hleast.2 (Finset.mem_coe.mpr hfirst)
    have hval : b.val = 256 := Nat.le_antisymm hle (mem_nonReserved.mp hb)
    simp only [bootFrames] at halloc
    rw [halloc, frameAddr, hval]
    rfl
  · rw [hnone] at hfirst
    exact absurd hfirst (Finset.notMem_empty _)

theorem Represents.allocFrame {s : FrameRun} {p : Pool nonReserved} (h : Represents s p) :
    ∃ s', frameStep .allocFrame s = .ok s' ∧ ∃ p', Represents s' p' := by
  refine ⟨_, rfl, ?_⟩
  rcases h.pmmAllocFrame_cases with ⟨b, hleast, halloc⟩ | ⟨_, halloc⟩
  · have hb : b ∈ p.available := Finset.mem_coe.mp hleast.1
    obtain ⟨hstock, hlive⟩ := Pool.mem_available.mp hb
    have hne : frameAddr b ≠ 0 := frameAddr_ne_zero (mem_nonReserved.mp hstock)
    refine ⟨p.handOut b hb, ?_, fun ptr => ?_, fun a => ?_⟩
    · simp only [halloc, if_neg hne]
      exact List.nodup_cons.mpr ⟨fun hmem => hlive (h.frameAddr_mem_iff.mp hmem), h.nodup⟩
    · simp only [halloc, if_neg hne, List.mem_cons, h.mem_live, Pool.mem_live_handOut,
        exists_eq_or_imp]
    · simp only [halloc, marked_pmmSetBit, Pool.mem_live_handOut, Bool.or_eq_true,
        decide_eq_true_eq, h.marked_iff]
      exact or_left_comm
  · refine ⟨p, ?_, ?_, ?_⟩
    · simpa only [halloc, if_pos] using h.nodup
    · simpa only [halloc, if_pos] using h.mem_live
    · simpa only [halloc] using h.marked_iff

theorem pmmFreeFrame_frameAddr (b : Fin 4096) (bitmap : MemoryBitmap) :
    pmmFreeFrame (frameAddr b) bitmap = .ok (pmmClearBit b bitmap) := by
  have hbit : (frameAddr b).toNat / 4096 = b.val := by
    rw [toNat_frameAddr]
    omega
  simp only [pmmFreeFrame, hbit]
  exact dif_pos b.isLt

theorem Represents.freeFrame {s : FrameRun} {p : Pool nonReserved} (h : Represents s p)
    {b : Fin 4096} (hb : b ∈ p.live) :
    ∃ s', frameStep (.freeFrame (frameAddr b)) s = .ok s' ∧ Represents s' (p.giveBack b) := by
  refine ⟨⟨pmmClearBit b s.bitmap, s.live.erase (frameAddr b)⟩, ?_, ?_, fun ptr => ?_,
    fun a => ?_⟩
  · simp only [frameStep, pmmFreeFrame_frameAddr]
  · exact h.nodup.erase _
  · simp only [h.nodup.mem_erase_iff, h.mem_live, Pool.mem_live_giveBack]
    constructor
    · rintro ⟨hne, a, ha, rfl⟩
      exact ⟨a, ⟨fun heq => hne (heq ▸ rfl), ha⟩, rfl⟩
    · rintro ⟨a, ⟨hne, ha⟩, rfl⟩
      exact ⟨fun heq => hne (frameAddr_inj heq), a, ha, rfl⟩
  · have hge : 256 ≤ b.val := mem_nonReserved.mp (p.live_subset hb)
    simp only [marked_pmmClearBit, Pool.mem_live_giveBack, Bool.and_eq_true,
      Bool.not_eq_true', decide_eq_false_iff_not, h.marked_iff]
    constructor
    · rintro ⟨hne, hlt | hlive⟩
      · exact Or.inl hlt
      · exact Or.inr ⟨hne, hlive⟩
    · rintro (hlt | ⟨hne, hlive⟩)
      · exact ⟨fun heq => by omega, Or.inl hlt⟩
      · exact ⟨hne, Or.inr hlive⟩

/-- **Step.** A call that frees only what is live is one of the pool. -/
theorem frameStep_represents (c : FrameCall) (s : FrameRun)
    (h : ∃ p, Represents s p) (hfree : FreesLive c s) :
    ∃ s', frameStep c s = .ok s' ∧ ∃ p', Represents s' p' := by
  obtain ⟨p, hp⟩ := h
  cases c with
  | allocFrame => exact hp.allocFrame
  | freeFrame ptr =>
      obtain ⟨b, hb, rfl⟩ := (hp.mem_live ptr).mp hfree
      obtain ⟨s', hstep, hp'⟩ := hp.freeFrame hb
      exact ⟨s', hstep, _, hp'⟩

theorem represents_runs (calls : List FrameCall)
    (hfree : Guarded frameStep FreesLive calls bootFrames) :
    ∃ s, runs frameStep calls bootFrames = .ok s ∧ ∃ p, Represents s p :=
  runs_invariant frameStep_represents calls bootFrames ⟨_, represents_bootFrames⟩ hfree

/-! ## What callers rely on -/

/-- The next call to the allocator treats every frame as the live ones require. -/
structure ExactFrames (s : FrameRun) : Prop where
  nodup : s.live.Nodup
  isFrame : ∀ ptr ∈ s.live, IsFrame ptr
  testBit_iff : ∀ b : Fin 4096,
    pmmTestBit b s.bitmap ≠ 0 ↔ b.val < 256 ∨ frameAddr b ∈ s.live
  lowest : (pmmAllocFrame s.bitmap).1 ≠ 0 →
    IsFrame (pmmAllocFrame s.bitmap).1 ∧ (pmmAllocFrame s.bitmap).1 ∉ s.live ∧
    ∀ ptr, IsFrame ptr → ptr ∉ s.live → (pmmAllocFrame s.bitmap).1 ≤ ptr
  null_iff : (pmmAllocFrame s.bitmap).1 = 0 ↔ ∀ ptr, IsFrame ptr → ptr ∈ s.live
  null_iff_length : (pmmAllocFrame s.bitmap).1 = 0 ↔ s.live.length = 3840
  freed : ∀ ptr ∈ s.live, ∃ bitmap, pmmFreeFrame ptr s.bitmap = .ok bitmap ∧
    ∀ b, pmmTestBit b bitmap = 0 ↔ frameAddr b = ptr ∨ pmmTestBit b s.bitmap = 0

theorem Represents.pmmAllocFrame_eq_zero_iff {s : FrameRun} {p : Pool nonReserved}
    (h : Represents s p) : (pmmAllocFrame s.bitmap).1 = 0 ↔ p.available = ∅ := by
  rcases h.pmmAllocFrame_cases with ⟨b, hleast, halloc⟩ | ⟨hempty, halloc⟩
  · have hb : b ∈ p.available := Finset.mem_coe.mp hleast.1
    have hge : 256 ≤ b.val := mem_nonReserved.mp (Pool.mem_available.mp hb).1
    rw [halloc]
    exact iff_of_false (frameAddr_ne_zero hge) (Finset.ne_empty_of_mem hb)
  · rw [halloc]
    exact iff_of_true rfl hempty

theorem Represents.available_eq_empty_iff {s : FrameRun} {p : Pool nonReserved}
    (h : Represents s p) : p.available = ∅ ↔ ∀ ptr, IsFrame ptr → ptr ∈ s.live := by
  rw [Pool.available_eq_empty_iff]
  constructor
  · intro hall ptr hptr
    obtain ⟨b, hb, rfl⟩ := hptr.exists_frameAddr
    exact h.frameAddr_mem_iff.mpr (hall.ge (mem_nonReserved.mpr hb))
  · intro hall
    refine p.live_subset.antisymm fun b hb => ?_
    exact h.frameAddr_mem_iff.mp (hall _ (isFrame_frameAddr (mem_nonReserved.mp hb)))

theorem Represents.pmmAllocFrame_lowest {s : FrameRun} {p : Pool nonReserved}
    (h : Represents s p) (hne : (pmmAllocFrame s.bitmap).1 ≠ 0) :
    IsFrame (pmmAllocFrame s.bitmap).1 ∧ (pmmAllocFrame s.bitmap).1 ∉ s.live ∧
    ∀ ptr, IsFrame ptr → ptr ∉ s.live → (pmmAllocFrame s.bitmap).1 ≤ ptr := by
  rcases h.pmmAllocFrame_cases with ⟨b, hleast, halloc⟩ | ⟨_, halloc⟩
  · obtain ⟨hstock, hlive⟩ := Pool.mem_available.mp (Finset.mem_coe.mp hleast.1)
    rw [halloc]
    refine ⟨isFrame_frameAddr (mem_nonReserved.mp hstock),
      fun hmem => hlive (h.frameAddr_mem_iff.mp hmem), fun ptr hptr hfree => ?_⟩
    obtain ⟨c, hc, rfl⟩ := hptr.exists_frameAddr
    have havail : c ∈ p.available := Pool.mem_available.mpr
      ⟨mem_nonReserved.mpr hc, fun hmem => hfree (h.frameAddr_mem_iff.mpr hmem)⟩
    have hle : b.val ≤ c.val := hleast.2 (Finset.mem_coe.mpr havail)
    rw [UInt32.le_iff_toNat_le, toNat_frameAddr, toNat_frameAddr]
    omega
  · exact absurd (congrArg Prod.fst halloc) hne

theorem Represents.exactFrames {s : FrameRun} {p : Pool nonReserved}
    (h : Represents s p) : ExactFrames s where
  nodup := h.nodup
  isFrame := fun ptr hptr => by
    obtain ⟨b, hb, rfl⟩ := (h.mem_live ptr).mp hptr
    exact isFrame_frameAddr (mem_nonReserved.mp (p.live_subset hb))
  testBit_iff := fun b => by
    rw [Ne, pmmTestBit_eq_zero_iff, Bool.not_eq_false, h.marked_iff, h.frameAddr_mem_iff]
  lowest := h.pmmAllocFrame_lowest
  null_iff := h.pmmAllocFrame_eq_zero_iff.trans h.available_eq_empty_iff
  null_iff_length := by
    rw [h.pmmAllocFrame_eq_zero_iff, Pool.available_eq_empty_iff_card, h.length_live,
      card_nonReserved]
  freed := fun ptr hptr => by
    obtain ⟨b, hb, rfl⟩ := (h.mem_live ptr).mp hptr
    refine ⟨_, pmmFreeFrame_frameAddr b s.bitmap, fun a => ?_⟩
    rw [pmmTestBit_eq_zero_iff, pmmTestBit_eq_zero_iff, marked_pmmClearBit,
      Bool.and_eq_false_iff, Bool.not_eq_false', decide_eq_true_eq]
    exact or_congr_left ⟨congrArg frameAddr, frameAddr_inj⟩

/-- **The allocator hands out each frame at most once.** After any calls that free
only live frames, the bitmap and the next call are exact. -/
theorem exactFrames_runs (calls : List FrameCall)
    (hfree : Guarded frameStep FreesLive calls bootFrames) :
    ∃ s, runs frameStep calls bootFrames = .ok s ∧ ExactFrames s := by
  obtain ⟨s, hrun, p, hp⟩ := represents_runs calls hfree
  exact ⟨s, hrun, hp.exactFrames⟩

/-- The first frame is handed out, freed and handed out again. -/
theorem exactFrames_runs_reuse :
    ∃ s, runs frameStep [.allocFrame, .freeFrame 0x100000, .allocFrame] bootFrames = .ok s ∧
      ExactFrames s := by
  refine exactFrames_runs _ ⟨trivial, fun s h => ⟨?_, fun _ _ => ⟨trivial, fun _ _ => trivial⟩⟩⟩
  simp only [frameStep, bootFrames, pmmAllocFrame_initPmm] at h
  obtain rfl := Except.ok.inj h
  exact List.mem_singleton_self _

end FirstKernel
