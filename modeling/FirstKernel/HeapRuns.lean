import FirstKernel.Heap

/-!
# What the heap serves

`kmalloc` gives out blocks whole and `init_heap` makes one block, so a
heap has one allocation at a time, whatever its size: all that a run can
reach are the states of `OneBlockHeap`. A request is served if nothing is
allocated and the block is large enough; what else would fit is refused
(`eachServed_iff`). And a block is as large as its header says, which is
wrong for a region smaller than the header (`eachContained_iff`).
-/

namespace FirstKernel

structure Allocation where
  ptr : UInt32
  size : UInt32

/-- The heap with the allocations that have not been freed, each with the size it was
requested with. -/
structure Heap where
  freeList : UInt32
  memory : Memory
  live : List Allocation

inductive HeapCall where
  | kmalloc (size : UInt32)
  | kfree (ptr : UInt32)

def HeapCall.exec : HeapCall → Heap → Except Fault Heap
  | .kmalloc size, h =>
      match FirstKernel.kmalloc size h.freeList h.memory with
      | .ok (ptr, memory) =>
          .ok { h with
            memory := memory
            live := if ptr = 0 then h.live else h.live ++ [⟨ptr, size⟩] }
      | .error e => .error e
  | .kfree ptr, h =>
      .ok { h with
        memory := FirstKernel.kfree ptr h.memory
        live := h.live.filter fun a => decide (a.ptr ≠ ptr) }

/-- `init_heap`, with nothing allocated. -/
def newHeap (startAddress totalSize : UInt32) (m : Memory) : Heap :=
  ⟨(initHeap startAddress totalSize m).1, (initHeap startAddress totalSize m).2, []⟩

/-- Only what is allocated is freed, or null. -/
def FreesAllocated : HeapCall → Heap → Prop
  | .kmalloc _, _ => True
  | .kfree ptr, h => ptr = 0 ∨ ∃ a ∈ h.live, a.ptr = ptr

/-- A condition on the `kmalloc` calls. -/
def OnKmalloc (P : UInt32 → Heap → Prop) : HeapCall → Heap → Prop
  | .kmalloc size, h => P size h
  | .kfree _, _ => True

/-! ## The states that a run can reach -/

/-- What becomes of the one block. At address 0 the list is empty, and a block that ends
the address space is given out at the null pointer, so it is lost. -/
inductive OneBlockHeap (start size : UInt32) : Heap → Prop
  | empty (m : Memory) (hstart : start = 0) : OneBlockHeap start size ⟨start, m, []⟩
  | free (m : Memory) (h : OneBlock m start size 1) : OneBlockHeap start size ⟨start, m, []⟩
  | lost (m : Memory) (h : OneBlock m start size 0) (hnull : start + blockHeader = 0) :
      OneBlockHeap start size ⟨start, m, []⟩
  | taken (m : Memory) (h : OneBlock m start size 0) (hnull : start + blockHeader ≠ 0) (n : UInt32)
      (hn : n ≤ size) : OneBlockHeap start size ⟨start, m, [⟨start + blockHeader, n⟩]⟩

theorem oneBlockHeap_newHeap (start total : UInt32) (m : Memory) :
    OneBlockHeap start (total - blockHeader) (newHeap start total m) := by
  by_cases hstart : start = 0
  · exact .empty _ hstart
  · exact .free _ (initHeap_oneBlock hstart total m)

namespace OneBlockHeap

variable {start size : UInt32} {h h' : Heap}

theorem exec_kmalloc (hheap : OneBlockHeap start size h) {n : UInt32}
    (hexec : (HeapCall.kmalloc n).exec h = .ok h') : OneBlockHeap start size h' := by
  rw [HeapCall.exec] at hexec
  cases hheap with
  | empty m hstart =>
      subst hstart
      rw [kmalloc_null] at hexec
      cases hexec
      exact .empty m rfl
  | free m hblock =>
      by_cases hn : n ≤ size
      · rw [hblock.kmalloc_free hn] at hexec
        cases hexec
        by_cases hnull : start + blockHeader = 0
        · rw [if_pos hnull]
          exact .lost _ (hblock.setBlockFree 0) hnull
        · rw [if_neg hnull]
          exact .taken _ (hblock.setBlockFree 0) hnull n hn
      · rw [hblock.kmalloc_large hn] at hexec
        cases hexec
        exact .free m hblock
  | lost m hblock hnull =>
      rw [hblock.kmalloc_taken] at hexec
      cases hexec
      exact .lost m hblock hnull
  | taken m hblock hnull k hk =>
      rw [hblock.kmalloc_taken] at hexec
      cases hexec
      exact .taken m hblock hnull k hk

theorem exec_kfree_null (h : Heap) (hlive : ∀ a ∈ h.live, a.ptr ≠ 0) :
    (HeapCall.kfree 0).exec h = .ok h := by
  have hfilter : h.live.filter (fun a => decide (a.ptr ≠ 0)) = h.live :=
    List.filter_eq_self.mpr fun a ha => decide_eq_true (hlive a ha)
  rw [HeapCall.exec, hfilter, kfree, if_pos rfl]

theorem exec_kfree (hheap : OneBlockHeap start size h) {ptr : UInt32}
    (hfrees : FreesAllocated (.kfree ptr) h) (hexec : (HeapCall.kfree ptr).exec h = .ok h') :
    OneBlockHeap start size h' := by
  have hnothing : h.live = [] → OneBlockHeap start size h' := by
    intro hlive
    rcases hfrees with rfl | ⟨a, ha, -⟩
    · rw [exec_kfree_null h (by simp [hlive])] at hexec
      cases hexec
      exact hheap
    · rw [hlive] at ha
      cases ha
  cases hheap with
  | empty m hstart => exact hnothing rfl
  | free m hblock => exact hnothing rfl
  | lost m hblock hnull => exact hnothing rfl
  | taken m hblock hnull n hn =>
      rcases hfrees with rfl | ⟨a, ha, rfl⟩
      · rw [exec_kfree_null _ (by simpa using hnull)] at hexec
        cases hexec
        exact .taken m hblock hnull n hn
      · cases List.mem_singleton.mp ha
        have hback : start + blockHeader - blockHeader = start := by
          rw [← UInt32.toNat_inj, UInt32.toNat_sub, UInt32.toNat_add]
          have hstart := start.toNat_lt
          have hheader : blockHeader.toNat = 12 := rfl
          omega
        rw [HeapCall.exec, kfree, if_neg hnull, hback] at hexec
        cases hexec
        have hfreed : [(⟨start + blockHeader, n⟩ : Allocation)].filter
            (fun a => decide (a.ptr ≠ start + blockHeader)) = [] := by simp
        rw [hfreed]
        exact .free _ (hblock.setBlockFree 1)

/-- **Step lemma.** -/
theorem exec (hheap : OneBlockHeap start size h) {call : HeapCall} (hfrees : FreesAllocated call h)
    (hexec : call.exec h = .ok h') : OneBlockHeap start size h' := by
  cases call with
  | kmalloc n => exact hheap.exec_kmalloc hexec
  | kfree ptr => exact hheap.exec_kfree hfrees hexec

end OneBlockHeap

/-! ## What fits is served -/

/-- The address is in the header of a live block or in the bytes requested for it. -/
def Covered (h : Heap) (a : UInt32) : Prop :=
  ∃ b ∈ h.live, (a - (b.ptr - blockHeader)).toNat < 12 + b.size.toNat

/-- So many bytes of the region, from some offset on, are not covered. -/
def FreeRun (start total : UInt32) (h : Heap) (len : Nat) : Prop :=
  ∃ offset, offset + len ≤ total.toNat ∧
    ∀ k, offset ≤ k → k < offset + len → ¬Covered h (start + UInt32.ofNat k)

/-- If there is room for the bytes and a header, `kmalloc` does not return null. -/
def Serves (start total : UInt32) (n : UInt32) (h : Heap) : Prop :=
  FreeRun start total h (n.toNat + 12) →
    ∃ ptr m, kmalloc n h.freeList h.memory = .ok (ptr, m) ∧ ptr ≠ 0

/-- The bytes that the live allocations take, headers included. -/
def used (h : Heap) : Nat := (h.live.map fun a => 12 + a.size.toNat).sum

/-- Nothing is allocated, in a heap that can give out its block, or what is allocated
leaves too little room. -/
def ReadyOrFull (start total : UInt32) (n : UInt32) (h : Heap) : Prop :=
  (start ≠ 0 ∧ start + blockHeader ≠ 0 ∧ h.live = []) ∨ total.toNat < used h + (n.toNat + 12)

theorem freeRun_of_nothing {start total : UInt32} {h : Heap} (hlive : h.live = []) (len : Nat) :
    FreeRun start total h len ↔ len ≤ total.toNat := by
  constructor
  · rintro ⟨offset, hle, -⟩
    omega
  · intro hle
    refine ⟨0, by omega, fun k _ _ => ?_⟩
    rintro ⟨b, hb, -⟩
    rw [hlive] at hb
    cases hb

/-- What is free is what comes after the block that is taken. -/
theorem freeRun_of_taken {start total n : UInt32} {h : Heap}
    (hlive : h.live = [⟨start + blockHeader, n⟩]) {len : Nat} (hlen : 0 < len) :
    FreeRun start total h len ↔ 12 + n.toNat + len ≤ total.toNat := by
  have hcovered : ∀ k, k < 2 ^ 32 →
      (Covered h (start + UInt32.ofNat k) ↔ k < 12 + n.toNat) := by
    intro k hk
    have hdistance : (start + UInt32.ofNat k - (start + blockHeader - blockHeader)).toNat = k := by
      have hstart := start.toNat_lt
      have hheader : blockHeader.toNat = 12 := rfl
      simp only [UInt32.toNat_sub, UInt32.toNat_add, UInt32.toNat_ofNat']
      omega
    unfold Covered
    rw [hlive]
    simp only [List.mem_singleton, exists_eq_left, hdistance]
  have htotal := total.toNat_lt
  constructor
  · rintro ⟨offset, hle, hfree⟩
    have hfirst := hfree offset (Nat.le_refl _) (by omega)
    rw [hcovered offset (by omega)] at hfirst
    omega
  · intro hle
    refine ⟨12 + n.toNat, hle, fun k hk hlt => ?_⟩
    rw [hcovered k (by omega)]
    omega

/-- Where `kmalloc` returns null, there must be no room. -/
theorem serves_iff_of_null {start total n : UInt32} {h : Heap} {m : Memory}
    (hnull : kmalloc n h.freeList h.memory = .ok (0, m)) :
    Serves start total n h ↔ ¬FreeRun start total h (n.toNat + 12) := by
  constructor
  · intro hserves hrun
    obtain ⟨ptr, m', heq, hne⟩ := hserves hrun
    rw [hnull] at heq
    cases heq
    exact hne rfl
  · intro hrun hfits
    exact absurd hfits hrun

theorem toNat_sub_blockHeader {total : UInt32} (h : blockHeader ≤ total) :
    (total - blockHeader).toNat = total.toNat - 12 :=
  UInt32.toNat_sub_of_le _ _ h

theorem OneBlockHeap.serves_iff {start total : UInt32} {h : Heap}
    (hheap : OneBlockHeap start (total - blockHeader) h) (htotal : blockHeader ≤ total)
    (n : UInt32) : Serves start total n h ↔ ReadyOrFull start total n h := by
  have hsize := toNat_sub_blockHeader htotal
  have hroom : 12 ≤ total.toNat := UInt32.le_iff_toNat_le.mp htotal
  have hlost : ∀ {m : Memory}, h.live = [] → kmalloc n h.freeList h.memory = .ok (0, m) →
      ¬(start ≠ 0 ∧ start + blockHeader ≠ 0) →
      (Serves start total n h ↔ ReadyOrFull start total n h) := by
    intro m hlive hnull hstart
    rw [serves_iff_of_null hnull, freeRun_of_nothing hlive, ReadyOrFull, used, hlive]
    simp only [List.map_nil, List.sum_nil, and_true, hstart, false_or]
    omega
  cases hheap with
  | empty m hstart =>
      subst hstart
      exact hlost rfl (kmalloc_null n m) fun hne => hne.1 rfl
  | free m hblock =>
      by_cases hn : n ≤ total - blockHeader
      · have halloc := hblock.kmalloc_free hn
        by_cases hnull : start + blockHeader = 0
        · rw [hnull] at halloc
          exact hlost rfl halloc fun hne => hne.2 hnull
        · exact iff_of_true (fun _ => ⟨_, _, halloc, hnull⟩) (Or.inl ⟨hblock.ne_null, hnull, rfl⟩)
      · have hfull : total.toNat < n.toNat + 12 := by
          rw [UInt32.le_iff_toNat_le, hsize] at hn
          omega
        refine iff_of_true ?_ (Or.inr (by simpa [used] using hfull))
        rw [serves_iff_of_null (hblock.kmalloc_large hn), freeRun_of_nothing rfl]
        omega
  | lost m hblock hnull => exact hlost rfl (hblock.kmalloc_taken n) fun hne => hne.2 hnull
  | taken m hblock hnull k hk =>
      rw [serves_iff_of_null (hblock.kmalloc_taken n), freeRun_of_taken rfl (by omega), ReadyOrFull,
        used]
      simp

/-- In a run that frees only what is allocated, two conditions on `kmalloc` that agree on
every heap of one block hold of the same runs. -/
theorem guarded_onKmalloc_iff {P Q : UInt32 → Heap → Prop} {start total : UInt32} (m : Memory)
    (hiff : ∀ n {h : Heap}, OneBlockHeap start (total - blockHeader) h → (P n h ↔ Q n h))
    (calls : List HeapCall)
    (hfrees : Guarded HeapCall.exec FreesAllocated calls (newHeap start total m)) :
    Guarded HeapCall.exec (OnKmalloc P) calls (newHeap start total m) ↔
      Guarded HeapCall.exec (OnKmalloc Q) calls (newHeap start total m) := by
  refine guarded_iff_of_invariant (OneBlockHeap start (total - blockHeader))
    (fun call h h' hheap hg hexec => hheap.exec hg hexec) (fun call h hheap => ?_) calls
    (oneBlockHeap_newHeap start total m) hfrees
  cases call with
  | kmalloc n => exact hiff n hheap
  | kfree ptr => exact Iff.rfl

/-- **What fits is served.** In a run that frees only what is allocated, each `kmalloc`
that has room is served just when each comes with nothing allocated, or has no room. -/
theorem eachServed_iff {start total : UInt32} (htotal : blockHeader ≤ total) (m : Memory)
    (calls : List HeapCall)
    (hfrees : Guarded HeapCall.exec FreesAllocated calls (newHeap start total m)) :
    Guarded HeapCall.exec (OnKmalloc (Serves start total)) calls (newHeap start total m) ↔
      Guarded HeapCall.exec (OnKmalloc (ReadyOrFull start total)) calls
        (newHeap start total m) :=
  guarded_onKmalloc_iff m (fun n _ hheap => hheap.serves_iff htotal n) calls hfrees

/-- The block is given out. -/
theorem OneBlock.exec_kmalloc_free {m : Memory} {start size n : UInt32} {live : List Allocation}
    (h : OneBlock m start size 1) (hnull : start + blockHeader ≠ 0) (hn : n ≤ size) :
    (HeapCall.kmalloc n).exec ⟨start, m, live⟩ =
      .ok ⟨start, m.setBlockFree start 0, live ++ [⟨start + blockHeader, n⟩]⟩ := by
  rw [HeapCall.exec, h.kmalloc_free hn]
  simp only [if_neg hnull]

theorem OneBlock.exec_kmalloc_taken {m : Memory} {start size : UInt32} {live : List Allocation}
    (h : OneBlock m start size 0) (n : UInt32) :
    (HeapCall.kmalloc n).exec ⟨start, m, live⟩ = .ok ⟨start, m, live⟩ := by
  rw [HeapCall.exec, h.kmalloc_taken]
  simp only [if_true]

theorem pageHeap_total : blockHeader ≤ (4096 : UInt32) := by decide

/-- In a heap of a page: a request, one for which there is no room, and the first again after
it has been freed. -/
def pageCalls : List HeapCall := [.kmalloc 16, .kmalloc 5000, .kfree 0x10000C, .kmalloc 16]

/-- The states in which these calls are made. -/
theorem guarded_pageCalls {G : HeapCall → Heap → Prop}
    (hready : ∀ m, G (.kmalloc 16) ⟨0x100000, m, []⟩)
    (hfull : ∀ m, G (.kmalloc 5000) ⟨0x100000, m, [⟨0x10000C, 16⟩]⟩)
    (hfree : ∀ m, G (.kfree 0x10000C) ⟨0x100000, m, [⟨0x10000C, 16⟩]⟩) :
    Guarded HeapCall.exec G pageCalls (newHeap 0x100000 4096 fun _ => 0) := by
  have hblock : OneBlock (newHeap 0x100000 4096 fun _ => 0).memory 0x100000
      (4096 - blockHeader) 1 := initHeap_oneBlock (by decide) 4096 fun _ => 0
  refine ⟨hready _, fun s1 h1 => ?_⟩
  obtain rfl := Except.ok.inj ((hblock.exec_kmalloc_free (by decide) (by decide)).symm.trans h1)
  refine ⟨hfull _, fun s2 h2 => ?_⟩
  obtain rfl :=
    Except.ok.inj (((hblock.setBlockFree 0).exec_kmalloc_taken 5000).symm.trans h2)
  refine ⟨hfree _, fun s3 h3 => ?_⟩
  obtain rfl := Except.ok.inj h3
  exact ⟨hready _, fun _ _ => trivial⟩

theorem freesAllocated_pageCalls :
    Guarded HeapCall.exec FreesAllocated pageCalls (newHeap 0x100000 4096 fun _ => 0) :=
  guarded_pageCalls (fun _ => trivial) (fun _ => trivial)
    fun _ => Or.inr ⟨_, List.mem_singleton_self _, rfl⟩

/-- Each of these requests that has room is served. -/
theorem eachServed_iff_pageCalls :
    Guarded HeapCall.exec (OnKmalloc (Serves 0x100000 4096)) pageCalls
      (newHeap 0x100000 4096 fun _ => 0) := by
  refine (eachServed_iff pageHeap_total (fun _ => 0) pageCalls freesAllocated_pageCalls).mpr ?_
  refine guarded_pageCalls (fun _ => ?_) (fun _ => ?_) fun _ => trivial
  · exact Or.inl ⟨by decide, by decide, rfl⟩
  · exact Or.inr (by decide : 4096 < 28 + (5000 + 12))

/-- After one byte of a page, a second one is refused. -/
theorem not_eachServed_two :
    ¬Guarded HeapCall.exec (OnKmalloc (Serves 0x100000 4096)) [.kmalloc 1, .kmalloc 1]
      (newHeap 0x100000 4096 fun _ => 0) := by
  rintro ⟨-, hsecond⟩
  have hblock : OneBlock (newHeap 0x100000 4096 fun _ => 0).memory 0x100000
      (4096 - blockHeader) 1 := initHeap_oneBlock (by decide) 4096 fun _ => 0
  have hserves := (hsecond _ (hblock.exec_kmalloc_free (by decide) (by decide))).1
  have htaken : OneBlockHeap 0x100000 (4096 - blockHeader) _ :=
    .taken _ (hblock.setBlockFree 0) (by decide) 1 (by decide)
  rcases (htaken.serves_iff pageHeap_total 1).mp hserves with ⟨-, -, hlive⟩ | hfull
  · cases hlive
  · revert hfull
    decide

/-! ## What is given out lies in the region -/

/-- A block of the list. -/
inductive IsBlock (m : Memory) (freeList : UInt32) : UInt32 → Prop
  | head (h : freeList ≠ 0) : IsBlock m freeList freeList
  | next {block : UInt32} (h : IsBlock m freeList block) (hne : m.blockNext block ≠ 0) :
      IsBlock m freeList (m.blockNext block)

/-- The address is in the region, and neither in a header nor in what is allocated. -/
structure Proper (start total : UInt32) (h : Heap) (m : Memory) (a : Nat) : Prop where
  inside : start.toNat ≤ a ∧ a < start.toNat + total.toNat
  header : ∀ b, IsBlock m h.freeList b → a < b.toNat ∨ b.toNat + 12 ≤ a
  live : ∀ other ∈ h.live, a < other.ptr.toNat ∨ other.ptr.toNat + other.size.toNat ≤ a

/-- A result that is not null is a range of so many proper bytes. -/
def Contains (start total : UInt32) (n : UInt32) (h : Heap) : Prop :=
  ∀ ptr m, kmalloc n h.freeList h.memory = .ok (ptr, m) → ptr ≠ 0 →
    ∀ k < n.toNat, Proper start total h m (ptr.toNat + k)

/-- The region has room for a header, or else nothing is given out that has bytes: the
size in the header is below 0 then, which is 12 less than `2 ^ 32` and more. -/
def HeaderFits (start total : UInt32) (n : UInt32) (h : Heap) : Prop :=
  blockHeader ≤ total ∨ n = 0 ∨ ¬(start ≠ 0 ∧ start + blockHeader ≠ 0 ∧ h.live = []) ∨
    total.toNat + (2 ^ 32 - 12) < n.toNat

/-- The size goes below 0. -/
theorem toNat_sub_blockHeader_of_lt {total : UInt32} (h : ¬blockHeader ≤ total) :
    (total - blockHeader).toNat = total.toNat + (2 ^ 32 - 12) := by
  rw [UInt32.le_iff_toNat_le] at h
  have hheader : blockHeader.toNat = 12 := rfl
  rw [UInt32.toNat_sub]
  omega

theorem OneBlock.eq_of_isBlock {m : Memory} {block size free b : UInt32}
    (h : OneBlock m block size free) (hb : IsBlock m block b) : b = block := by
  induction hb with
  | head => rfl
  | next _ hne ih =>
      rw [ih, h.next_eq] at hne
      exact absurd rfl hne

theorem contains_of_null {start total n : UInt32} {h : Heap} {m : Memory}
    (hnull : kmalloc n h.freeList h.memory = .ok (0, m)) : Contains start total n h := by
  intro ptr m' heq hne
  rw [hnull] at heq
  cases heq
  exact absurd rfl hne

/-- The whole block, given out in a region that has room for its header. -/
theorem OneBlock.contains {start total n : UInt32} {m : Memory}
    (hblock : OneBlock m start (total - blockHeader) 1) (htotal : blockHeader ≤ total)
    (hwrap : start.toNat + total.toNat ≤ 2 ^ 32) (hnull : start + blockHeader ≠ 0)
    (hn : n ≤ total - blockHeader) : Contains start total n ⟨start, m, []⟩ := by
  intro ptr m' heq _ k hk
  rw [hblock.kmalloc_free hn] at heq
  cases heq
  have hsize := toNat_sub_blockHeader htotal
  have hroom : 12 ≤ total.toNat := UInt32.le_iff_toNat_le.mp htotal
  have hn' := UInt32.le_iff_toNat_le.mp hn
  have hheader : blockHeader.toNat = 12 := rfl
  have hptr : (start + blockHeader).toNat = start.toNat + 12 := by
    have hne : (start + blockHeader).toNat ≠ 0 := fun h0 => hnull (UInt32.toNat_inj.mp h0)
    rw [UInt32.toNat_add] at hne ⊢
    omega
  refine ⟨by omega, fun b hb => ?_, fun other hother => by cases hother⟩
  rw [(hblock.setBlockFree 0).eq_of_isBlock hb]
  omega

/-- Without room for the header, the first byte is already outside. -/
theorem OneBlock.not_contains {start total n : UInt32} {m : Memory}
    (hblock : OneBlock m start (total - blockHeader) 1) (htotal : ¬blockHeader ≤ total)
    (hnull : start + blockHeader ≠ 0) (hn : n ≤ total - blockHeader) (hpos : n ≠ 0) :
    ¬Contains start total n ⟨start, m, []⟩ := by
  intro hcontains
  have hpos' : 0 < n.toNat := Nat.pos_of_ne_zero fun h0 => hpos (UInt32.toNat_inj.mp h0)
  obtain ⟨hle, hlt⟩ := (hcontains _ _ (hblock.kmalloc_free hn) hnull 0 hpos').inside
  rw [UInt32.le_iff_toNat_le] at htotal
  have hheader : blockHeader.toNat = 12 := rfl
  rw [UInt32.toNat_add] at hle hlt
  have hstart := start.toNat_lt
  omega

theorem OneBlockHeap.contains_iff {start total : UInt32} {h : Heap}
    (hheap : OneBlockHeap start (total - blockHeader) h)
    (hwrap : start.toNat + total.toNat ≤ 2 ^ 32) (n : UInt32) :
    Contains start total n h ↔ HeaderFits start total n h := by
  have hvoid : ∀ {m : Memory}, kmalloc n h.freeList h.memory = .ok (0, m) →
      ¬(start ≠ 0 ∧ start + blockHeader ≠ 0 ∧ h.live = []) →
      (Contains start total n h ↔ HeaderFits start total n h) := fun hnull hready =>
    iff_of_true (contains_of_null hnull) (Or.inr (Or.inr (Or.inl hready)))
  cases hheap with
  | empty m hstart =>
      subst hstart
      exact hvoid (kmalloc_null n m) fun hready => hready.1 rfl
  | lost m hblock hnull => exact hvoid (hblock.kmalloc_taken n) fun hready => hready.2.1 hnull
  | taken m hblock hnull k hk =>
      refine hvoid (hblock.kmalloc_taken n) ?_
      rintro ⟨-, -, hlive⟩
      cases hlive
  | free m hblock =>
      by_cases hn : n ≤ total - blockHeader
      · by_cases hnull : start + blockHeader = 0
        · have halloc := hblock.kmalloc_free hn
          rw [hnull] at halloc
          exact hvoid halloc fun hready => hready.2.1 hnull
        · by_cases htotal : blockHeader ≤ total
          · exact iff_of_true (hblock.contains htotal hwrap hnull hn) (Or.inl htotal)
          · by_cases hzero : n = 0
            · subst hzero
              refine iff_of_true (fun _ _ _ _ k hk => ?_) (Or.inr (Or.inl rfl))
              exact absurd hk (Nat.not_lt_zero k)
            · refine iff_of_false (hblock.not_contains htotal hnull hn hzero) ?_
              rintro (h1 | h2 | h3 | h4)
              · exact htotal h1
              · exact hzero h2
              · exact h3 ⟨hblock.ne_null, hnull, rfl⟩
              · rw [UInt32.le_iff_toNat_le, toNat_sub_blockHeader_of_lt htotal] at hn
                omega
      · refine iff_of_true (contains_of_null (hblock.kmalloc_large hn)) ?_
        by_cases htotal : blockHeader ≤ total
        · exact Or.inl htotal
        · rw [UInt32.le_iff_toNat_le, toNat_sub_blockHeader_of_lt htotal] at hn
          exact Or.inr (Or.inr (Or.inr (Nat.not_le.mp hn)))

/-- **Blocks stay in the region.** In a run that frees only what is allocated, each result
of `kmalloc` is as it should be just when the header fits each time. -/
theorem eachContained_iff {start total : UInt32} (hwrap : start.toNat + total.toNat ≤ 2 ^ 32)
    (m : Memory) (calls : List HeapCall)
    (hfrees : Guarded HeapCall.exec FreesAllocated calls (newHeap start total m)) :
    Guarded HeapCall.exec (OnKmalloc (Contains start total)) calls (newHeap start total m) ↔
      Guarded HeapCall.exec (OnKmalloc (HeaderFits start total)) calls
        (newHeap start total m) :=
  guarded_onKmalloc_iff m (fun n _ hheap => hheap.contains_iff hwrap n) calls hfrees

theorem page_inRange : (0x100000 : UInt32).toNat + (4096 : UInt32).toNat ≤ 2 ^ 32 := by decide

theorem eachContained_iff_pageCalls :
    Guarded HeapCall.exec (OnKmalloc (Contains 0x100000 4096)) pageCalls
      (newHeap 0x100000 4096 fun _ => 0) := by
  refine (eachContained_iff page_inRange (fun _ => 0) pageCalls freesAllocated_pageCalls).mpr ?_
  exact guarded_pageCalls (fun _ => Or.inl pageHeap_total) (fun _ => Or.inl pageHeap_total)
    fun _ => trivial

/-- A region of no bytes gives out one. -/
theorem not_eachContained_nothing :
    ¬Guarded HeapCall.exec (OnKmalloc (Contains 0x100000 0)) [.kmalloc 1]
      (newHeap 0x100000 0 fun _ => 0) := by
  rintro ⟨hcontains, -⟩
  have hblock := initHeap_oneBlock (by decide : (0x100000 : UInt32) ≠ 0) 0 fun _ => 0
  exact hblock.not_contains (by decide) (by decide) (by decide) (by decide) hcontains

end FirstKernel
