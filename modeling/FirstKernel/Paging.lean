import FirstKernel.Memory
import FirstKernel.Runs

/-!
# Paging, `cpu/paging.c`

`init_paging` fills one page table and the page directory, both of 1024
entries, and turns paging on. The processor finds the entries of an
address in memory, where it also marks the ones that it has used; it does
so itself, so that the tables change with every access (`translate`).

Through these tables there are 4 MiB of memory, at their own addresses
and for the kernel alone: in every run of accesses the machine does as one
with such a memory (`flat`), page faults included, as long as no access is
to the tables themselves (`initPaging_runs`).
-/

namespace FirstKernel

open Memory

namespace Paging

/-- The registers that decide about paging. -/
structure ControlRegisters where
  cr0 : UInt32
  cr3 : UInt32

/-! ## Tables -/

def entry (base : UInt32) (i : Nat) (m : Memory) : UInt32 := m.load (base + UInt32.ofNat (4 * i))

def setEntry (base : UInt32) (i : Nat) (e : UInt32) (m : Memory) : Memory :=
  m.store (base + UInt32.ofNat (4 * i)) e

/-- The body of the first loop. -/
def mapPage (firstPageTable : UInt32) (m : Memory) (i : Fin 1024) : Memory :=
  setEntry firstPageTable i.val (UInt32.ofNat (i.val * 4096) ||| 3) m

/-- The body of the second one, which starts at 1. -/
def clearEntry (pageDirectory : UInt32) (m : Memory) (i : Fin 1023) : Memory :=
  setEntry pageDirectory (i.val + 1) 0 m

/-- `init_paging`, where the tables have these addresses. -/
def initPaging (pageDirectory firstPageTable : UInt32) (s : ControlRegisters × Memory) :
    ControlRegisters × Memory :=
  let m := Fin.foldl 1024 (mapPage firstPageTable) s.2
  let m := setEntry pageDirectory 0 (firstPageTable ||| 3) m
  let m := Fin.foldl 1023 (clearEntry pageDirectory) m
  ({ cr0 := s.1.cr0 ||| 0x80000000, cr3 := pageDirectory }, m)

/-! ## The processor -/

/-- The entry is present and allows the access. Write protection counts for the kernel only if
`cr0` says so. -/
def permits (cr0 : UInt32) (user write : Bool) (e : UInt32) : Bool :=
  decide (e &&& 1 ≠ 0) && (!user || decide (e &&& 4 ≠ 0)) &&
    (!(write && (user || decide (cr0 &&& 0x10000 ≠ 0))) || decide (e &&& 2 ≠ 0))

def frameOf (e : UInt32) : UInt32 := e &&& 0xFFFFF000

/-- The physical address that an address stands for, with the entries marked, or the page fault
at the address. There are no large pages, as nothing sets `cr4`. -/
def translate (r : ControlRegisters) (user write : Bool) (a : UInt32) (m : Memory) :
    Except UInt32 (UInt32 × Memory) :=
  if r.cr0 &&& 0x80000000 = 0 then .ok (a, m)
  else
    let pde := entry (frameOf r.cr3) (a.toNat / 4194304) m
    let pte := entry (frameOf pde) (a.toNat / 4096 % 1024) m
    if permits r.cr0 user write pde && permits r.cr0 user write pte then
      -- accessed, and dirty if it is a write
      let m := setEntry (frameOf r.cr3) (a.toNat / 4194304) (pde ||| 0x20) m
      let m := setEntry (frameOf pde) (a.toNat / 4096 % 1024)
        (pte ||| if write then 0x60 else 0x20) m
      .ok (frameOf pte ||| a &&& 0xFFF, m)
    else .error a

inductive Access where
  | read (user : Bool) (a : UInt32)
  | write (user : Bool) (a : UInt32) (value : UInt8)

namespace Access

def user : Access → Bool
  | read user _ => user
  | write user _ _ => user

def address : Access → UInt32
  | read _ a => a
  | write _ a _ => a

/-- An access, in memory and with what has been read so far. -/
def exec (r : ControlRegisters) : Access → Memory × List UInt8 →
    Except UInt32 (Memory × List UInt8)
  | read user a, s => (translate r user false a s.1).map fun w => (w.2, s.2 ++ [w.2 w.1])
  | write user a value, s =>
      (translate r user true a s.1).map fun w => (Function.update w.2 w.1 value, s.2)

/-- The same on 4 MiB of memory for the kernel. -/
def flat : Access → Memory × List UInt8 → Except UInt32 (Memory × List UInt8)
  | read user a, s =>
      if user ∨ 0x400000 ≤ a then .error a else .ok (s.1, s.2 ++ [s.1 a])
  | write user a value, s =>
      if user ∨ 0x400000 ≤ a then .error a else .ok (Function.update s.1 a value, s.2)

end Access

/-! ## Entries -/

section

variable {b b' : UInt32} (hb : b.toNat % 4096 = 0) (hb' : b'.toNat % 4096 = 0)

include hb hb'

theorem apart_entries {i j : Nat} (hi : i < 1024) (hj : j < 1024) (hne : b ≠ b' ∨ i ≠ j) :
    Apart (b + UInt32.ofNat (4 * i)) (b' + UInt32.ofNat (4 * j)) := by
  have hne' : b.toNat ≠ b'.toNat ∨ i ≠ j := hne.imp_left fun h heq => h (UInt32.toNat_inj.mp heq)
  have hlt := b.toNat_lt
  have hlt' := b'.toNat_lt
  constructor
  all_goals
    rw [UInt32.toNat_sub, UInt32.toNat_add, UInt32.toNat_add, UInt32.toNat_ofNat',
      UInt32.toNat_ofNat']
    omega

theorem entry_setEntry_of_ne {i j : Nat} (hi : i < 1024) (hj : j < 1024) (hne : b ≠ b' ∨ i ≠ j)
    (e : UInt32) (m : Memory) : entry b' j (setEntry b i e m) = entry b' j m :=
  load_store_of_apart m e (apart_entries hb hb' hi hj hne)

end

theorem entry_setEntry (b : UInt32) (i : Nat) (e : UInt32) (m : Memory) :
    entry b i (setEntry b i e m) = e := load_store m _ e

section

variable {b a : UInt32} {i : Nat} (hi : i < 1024) (hout : 4096 ≤ (a - b).toNat)

include hi hout

theorem setEntry_of_outside (e : UInt32) (m : Memory) : setEntry b i e m a = m a := by
  refine store_of_ge m e ?_
  have hlt := b.toNat_lt
  have hlt' := a.toNat_lt
  simp only [UInt32.toNat_sub, UInt32.toNat_add, UInt32.toNat_ofNat'] at hout ⊢
  omega

theorem entry_update_of_outside (v : UInt8) (m : Memory) :
    entry b i (Function.update m a v) = entry b i m := by
  refine load_congr fun k hk => Function.update_of_ne ?_ v m
  rintro rfl
  have hlt := b.toNat_lt
  have hlt' := k.toNat_lt
  simp only [UInt32.toNat_sub, UInt32.toNat_add, UInt32.toNat_ofNat'] at hout hk
  omega

end

/-- What a loop over the entries `first`, ..., `first + n - 1` of a table leaves. -/
structure Filled (b : UInt32) (first n : Nat) (f : Nat → UInt32) (m m' : Memory) : Prop where
  entry_eq : ∀ i, first ≤ i → i < first + n → entry b i m' = f i
  others : ∀ b' j, b'.toNat % 4096 = 0 → j < 1024 → b ≠ b' ∨ j < first ∨ first + n ≤ j →
    entry b' j m' = entry b' j m
  outside : ∀ a, 4096 ≤ (a - b).toNat → m' a = m a

theorem Filled.next {b : UInt32} (hb : b.toNat % 4096 = 0) {first n : Nat} {f : Nat → UInt32}
    {m m' : Memory} (h : Filled b first n f m m') (hlt : first + n < 1024) :
    Filled b first (n + 1) f m (setEntry b (first + n) (f (first + n)) m') where
  entry_eq i hlow hhigh := by
    have hi : i < first + n ∨ i = first + n := by omega
    rcases hi with hi | rfl
    · rw [entry_setEntry_of_ne hb hb hlt (by omega) (Or.inr (by omega))]
      exact h.entry_eq i hlow hi
    · exact entry_setEntry ..
  others b' j hb' hj hne := by
    rw [entry_setEntry_of_ne hb hb' hlt hj (hne.imp_right fun hout => by omega)]
    exact h.others b' j hb' hj (hne.imp_right fun hout => by omega)
  outside a ha := (setEntry_of_outside hlt ha ..).trans (h.outside a ha)

theorem Filled.refl (b : UInt32) (first : Nat) (f : Nat → UInt32) (m : Memory) :
    Filled b first 0 f m m :=
  ⟨fun i hlow hhigh => by omega, fun _ _ _ _ _ => rfl, fun _ _ => rfl⟩

theorem filled_foldl {b : UInt32} (hb : b.toNat % 4096 = 0) {first n : Nat}
    (hle : first + n ≤ 1024) {f : Nat → UInt32} {body : Memory → Fin n → Memory}
    (hbody : ∀ m i, body m i = setEntry b (first + i.val) (f (first + i.val)) m) (m : Memory) :
    Filled b first n f m (Fin.foldl n body m) :=
  @foldl_invariant Memory n body (fun k => Filled b first k f m) m
    (fun i m' h => (hbody m' i).symm ▸ h.next hb (by omega)) (.refl b first f m)

/-! ## Bits of an entry -/

theorem or_and (x y k : UInt32) : (x ||| y) &&& k = x &&& k ||| y &&& k := by
  rw [← UInt32.toNat_inj]
  simp only [UInt32.toNat_and, UInt32.toNat_or]
  exact Nat.and_or_distrib_right ..

theorem toNat_and_0xFFF (a : UInt32) : (a &&& 0xFFF).toNat = a.toNat % 4096 := by
  rw [UInt32.toNat_and]
  exact Nat.and_two_pow_sub_one_eq_mod a.toNat 12

/-- The flags of an address that is one of a page are zero. -/
theorem and_of_aligned {b k : UInt32} (hb : b.toNat % 4096 = 0) (hk : 0xFFF &&& k = k) :
    b &&& k = 0 := by
  have hlow : b &&& 0xFFF = 0 := by
    rw [← UInt32.toNat_inj, toNat_and_0xFFF]
    exact hb
  rw [← hk, ← UInt32.and_assoc, hlow, UInt32.zero_and]

theorem frameOf_of_aligned {b : UInt32} (hb : b.toNat % 4096 = 0) : frameOf b = b := by
  have hlow : b &&& 0xFFF = 0 := and_of_aligned hb rfl
  calc frameOf b = b &&& 0xFFF ||| b &&& 0xFFFFF000 := by rw [hlow, UInt32.zero_or]; rfl
    _ = b &&& (0xFFF ||| 0xFFFFF000) := by
        rw [UInt32.and_comm b, UInt32.and_comm b, UInt32.and_comm b, ← or_and]
    _ = b := UInt32.and_neg_one

/-- The entry for a page of the kernel, whatever marks the processor has made in it. -/
def MapsTo (b e : UInt32) : Prop := e &&& 0xFFFFFF9F = b ||| 3

theorem mapsTo_or {b : UInt32} (hb : b.toNat % 4096 = 0) : MapsTo b (b ||| 3) := by
  have hkept : b &&& 0xFFFFFF9F = b := by
    conv_lhs => rw [← frameOf_of_aligned hb, frameOf, UInt32.and_assoc]
    exact frameOf_of_aligned hb
  rw [MapsTo, or_and, hkept]
  rfl

namespace MapsTo

variable {b e : UInt32} (h : MapsTo b e) (hb : b.toNat % 4096 = 0)

include h

theorem mark {x : UInt32} (hx : x &&& 0xFFFFFF9F = 0) : MapsTo b (e ||| x) := by
  rw [MapsTo, or_and, hx, UInt32.or_zero]
  exact h

/-- Bits that the processor does not mark. -/
theorem and_eq {k : UInt32} (hk : 0xFFFFFF9F &&& k = k) : e &&& k = b &&& k ||| 3 &&& k := by
  rw [← or_and, ← h, UInt32.and_assoc, hk]

include hb

theorem frameOf_eq : frameOf e = b := by
  have hkept := h.and_eq (k := 0xFFFFF000) rfl
  rw [show (3 &&& 0xFFFFF000 : UInt32) = 0 from rfl, UInt32.or_zero] at hkept
  exact hkept.trans (frameOf_of_aligned hb)

theorem permits_kernel (cr0 : UInt32) (write : Bool) : permits cr0 false write e = true := by
  have hpresent : e &&& 1 = 1 := by
    rw [h.and_eq rfl, and_of_aligned hb rfl]
    rfl
  have hwritable : e &&& 2 = 2 := by
    rw [h.and_eq rfl, and_of_aligned hb rfl]
    rfl
  simp [permits, hpresent, hwritable]

theorem permits_user (cr0 : UInt32) (write : Bool) : permits cr0 true write e = false := by
  have hkernel : e &&& 4 = 0 := by
    rw [h.and_eq rfl, and_of_aligned hb rfl]
    rfl
  simp [permits, hkernel]

end MapsTo

theorem permits_zero (cr0 : UInt32) (user write : Bool) : permits cr0 user write 0 = false := by
  simp [permits]

/-! ## The tables of the kernel -/

/-- `page_directory` and `first_page_table`, two arrays that are `aligned(4096)`. -/
structure PageTables where
  pageDirectory : UInt32
  firstPageTable : UInt32
  directory_aligned : pageDirectory.toNat % 4096 = 0
  table_aligned : firstPageTable.toNat % 4096 = 0
  distinct : firstPageTable ≠ pageDirectory

namespace PageTables

structure Outside (t : PageTables) (a : UInt32) : Prop where
  directory : 4096 ≤ (a - t.pageDirectory).toNat
  table : 4096 ≤ (a - t.firstPageTable).toNat

instance (t : PageTables) (a : UInt32) : Decidable (t.Outside a) :=
  decidable_of_iff (4096 ≤ (a - t.pageDirectory).toNat ∧ 4096 ≤ (a - t.firstPageTable).toNat)
    ⟨fun h => ⟨h.1, h.2⟩, fun h => ⟨h.directory, h.table⟩⟩

/-- The tables as `init_paging` leaves them, but for the marks. -/
structure Mapped (t : PageTables) (m : Memory) : Prop where
  page : ∀ i < 1024, MapsTo (UInt32.ofNat (i * 4096)) (entry t.firstPageTable i m)
  table : MapsTo t.firstPageTable (entry t.pageDirectory 0 m)
  absent : ∀ i, i ≠ 0 → i < 1024 → entry t.pageDirectory i m = 0

variable {t : PageTables} {m : Memory}

theorem page_aligned (i : Nat) : (UInt32.ofNat (i * 4096)).toNat % 4096 = 0 := by
  rw [UInt32.toNat_ofNat']
  omega

/-! ### `init_paging` -/

theorem initPaging_filled (t : PageTables) (r : ControlRegisters) (m : Memory) :
    ∃ m1 m2, Filled t.firstPageTable 0 1024 (fun i => UInt32.ofNat (i * 4096) ||| 3) m m1 ∧
      Filled t.pageDirectory 0 1 (fun _ => t.firstPageTable ||| 3) m1 m2 ∧
      Filled t.pageDirectory 1 1023 (fun _ => 0) m2
        (initPaging t.pageDirectory t.firstPageTable (r, m)).2 := by
  refine ⟨Fin.foldl 1024 (mapPage t.firstPageTable) m, setEntry t.pageDirectory 0
    (t.firstPageTable ||| 3) (Fin.foldl 1024 (mapPage t.firstPageTable) m), ?_, ?_, ?_⟩
  · exact filled_foldl t.table_aligned (by decide)
      (fun m i => by rw [mapPage, Nat.zero_add]) m
  · exact (Filled.refl t.pageDirectory 0 _ _).next t.directory_aligned (by decide)
  · simp only [initPaging]
    exact filled_foldl t.directory_aligned (by decide)
      (fun m i => by rw [clearEntry, Nat.add_comm]) _

/-- What `init_paging` leaves: the tables, and everything else as it was. -/
theorem initPaging_mapped (t : PageTables) (r : ControlRegisters) (m : Memory) :
    t.Mapped (initPaging t.pageDirectory t.firstPageTable (r, m)).2 ∧
      ∀ a, t.Outside a → (initPaging t.pageDirectory t.firstPageTable (r, m)).2 a = m a := by
  obtain ⟨m1, m2, hpages, htable, hrest⟩ := initPaging_filled t r m
  refine ⟨⟨fun i hi => ?_, ?_, fun i h0 hi => ?_⟩, fun a ha => ?_⟩
  · rw [hrest.others _ i t.table_aligned hi (Or.inl t.distinct.symm),
      htable.others _ i t.table_aligned hi (Or.inl t.distinct.symm),
      hpages.entry_eq i (Nat.zero_le i) (by omega)]
    exact mapsTo_or (page_aligned i)
  · rw [hrest.others _ 0 t.directory_aligned (by decide) (Or.inr (Or.inl Nat.one_pos)),
      htable.entry_eq 0 (Nat.le_refl 0) Nat.one_pos]
    exact mapsTo_or t.table_aligned
  · exact hrest.entry_eq i (Nat.pos_of_ne_zero h0) (by omega)
  · rw [hrest.outside a ha.directory, htable.outside a ha.directory, hpages.outside a ha.table]

/-! ### One access -/

/-- Writes outside the tables do not change what they map. -/
theorem Mapped.update (h : t.Mapped m) {a : UInt32} (ha : t.Outside a) (v : UInt8) :
    t.Mapped (Function.update m a v) where
  page i hi := by
    rw [entry_update_of_outside hi ha.table]
    exact h.page i hi
  table := by
    rw [entry_update_of_outside (by decide) ha.directory]
    exact h.table
  absent i h0 hi := by
    rw [entry_update_of_outside hi ha.directory]
    exact h.absent i h0 hi

/-- The marks for an access to page `i`. -/
theorem Mapped.mark (h : t.Mapped m) {i : Nat} (hi : i < 1024) {x y : UInt32}
    (hx : x &&& 0xFFFFFF9F = 0) (hy : y &&& 0xFFFFFF9F = 0) :
    t.Mapped (setEntry t.firstPageTable i (entry t.firstPageTable i m ||| y)
      (setEntry t.pageDirectory 0 (entry t.pageDirectory 0 m ||| x) m)) where
  page j hj := by
    by_cases hij : i = j
    · subst hij
      rw [entry_setEntry]
      exact (h.page i hi).mark hy
    · rw [entry_setEntry_of_ne t.table_aligned t.table_aligned hi hj (Or.inr hij),
        entry_setEntry_of_ne t.directory_aligned t.table_aligned (by decide) hj
          (Or.inl t.distinct.symm)]
      exact h.page j hj
  table := by
    rw [entry_setEntry_of_ne t.table_aligned t.directory_aligned hi (by decide)
      (Or.inl t.distinct), entry_setEntry]
    exact h.table.mark hx
  absent j h0 hj := by
    rw [entry_setEntry_of_ne t.table_aligned t.directory_aligned hi hj (Or.inl t.distinct),
      entry_setEntry_of_ne t.directory_aligned t.directory_aligned (by decide) hj
        (Or.inr h0.symm)]
    exact h.absent j h0 hj

/-- Paging is on, with these tables. -/
structure TurnedOn (t : PageTables) (r : ControlRegisters) : Prop where
  paging : r.cr0 &&& 0x80000000 ≠ 0
  cr3_eq : r.cr3 = t.pageDirectory

theorem initPaging_turnedOn (t : PageTables) (r : ControlRegisters) (m : Memory) :
    t.TurnedOn (initPaging t.pageDirectory t.firstPageTable (r, m)).1 where
  paging := by
    show (r.cr0 ||| 0x80000000) &&& 0x80000000 ≠ 0
    rw [or_and]
    exact fun hzero => absurd (UInt32.or_eq_zero_iff.mp hzero).2 (by decide)
  cr3_eq := rfl

variable {r : ControlRegisters} {user write : Bool} {a : UInt32}

theorem TurnedOn.frameOf_cr3 (hr : t.TurnedOn r) : frameOf r.cr3 = t.pageDirectory := by
  rw [hr.cr3_eq]
  exact frameOf_of_aligned t.directory_aligned

/-- Beyond the first 4 MiB the entry is absent, and below they are not for user mode. -/
theorem translate_fault (hr : t.TurnedOn r) (h : t.Mapped m)
    (hfault : user = true ∨ 0x400000 ≤ a) : translate r user write a m = .error a := by
  have hdirectory :
      permits r.cr0 user write (entry t.pageDirectory (a.toNat / 4194304) m) = false := by
    have hlt := a.toNat_lt
    by_cases h0 : a.toNat / 4194304 = 0
    · have hlow : ¬0x400000 ≤ a := by
        rw [UInt32.le_iff_toNat_le]
        show ¬4194304 ≤ a.toNat
        omega
      obtain rfl := hfault.resolve_right hlow
      rw [h0]
      exact h.table.permits_user t.table_aligned _ _
    · rw [h.absent _ h0 (by omega)]
      exact permits_zero ..
  simp only [translate, if_neg hr.paging, hr.frameOf_cr3, hdirectory, Bool.false_and]
  rfl

/-- An address below 4 MiB is its page's, with the offset. -/
theorem page_or_offset (hlt : a.toNat < 4194304) :
    UInt32.ofNat (a.toNat / 4096 % 1024 * 4096) ||| a &&& 0xFFF = a := by
  have hpage : (UInt32.ofNat (a.toNat / 4096 % 1024 * 4096)).toNat = 2 ^ 12 * (a.toNat / 4096) := by
    rw [UInt32.toNat_ofNat']
    omega
  rw [← UInt32.toNat_inj, UInt32.toNat_or, hpage, toNat_and_0xFFF,
    ← Nat.two_pow_add_eq_or_of_lt (by omega : a.toNat % 4096 < 2 ^ 12)]
  exact Nat.div_add_mod a.toNat 4096

/-- Below it the kernel finds every byte at its own address. -/
theorem translate_kernel (hr : t.TurnedOn r) (h : t.Mapped m) (hlow : a < 0x400000)
    (write : Bool) :
    ∃ m', translate r false write a m = .ok (a, m') ∧ t.Mapped m' ∧
      ∀ k, t.Outside k → m' k = m k := by
  have hlt : a.toNat < 4194304 := UInt32.lt_iff_toNat_lt.mp hlow
  have hzero : a.toNat / 4194304 = 0 := Nat.div_eq_of_lt hlt
  have hi : a.toNat / 4096 % 1024 < 1024 := Nat.mod_lt _ (by decide)
  have hpage := h.page _ hi
  have hmarks : (if write then 0x60 else 0x20 : UInt32) &&& 0xFFFFFF9F = 0 := by
    cases write <;> rfl
  refine ⟨_, ?_, h.mark hi (x := 0x20) rfl hmarks, fun k hk => ?_⟩
  · simp only [translate, if_neg hr.paging, hr.frameOf_cr3, hzero,
      h.table.frameOf_eq t.table_aligned, h.table.permits_kernel t.table_aligned,
      hpage.permits_kernel (page_aligned _),
      hpage.frameOf_eq (page_aligned _), page_or_offset hlt, Bool.and_self, if_true]
  · rw [setEntry_of_outside hi hk.table, setEntry_of_outside (by decide) hk.directory]

/-- The two ends of an access. -/
theorem translate_cases (hr : t.TurnedOn r) (h : t.Mapped m) (user write : Bool) (a : UInt32) :
    (user = true ∨ 0x400000 ≤ a) ∧ translate r user write a m = .error a ∨
      ¬(user = true ∨ 0x400000 ≤ a) ∧ ∃ m', translate r user write a m = .ok (a, m') ∧
        t.Mapped m' ∧ ∀ k, t.Outside k → m' k = m k := by
  by_cases hfault : user = true ∨ 0x400000 ≤ a
  · exact Or.inl ⟨hfault, translate_fault hr h hfault⟩
  · obtain ⟨huser, hlow⟩ := not_or.mp hfault
    obtain rfl := Bool.not_eq_true _ ▸ huser
    exact Or.inr ⟨hfault, translate_kernel hr h (UInt32.not_le.mp hlow) write⟩

/-! ### Runs -/

/-- The machine with paging, and the one with 4 MiB of memory. -/
structure Agrees (t : PageTables) (s s' : Memory × List UInt8) : Prop where
  read_eq : s.2 = s'.2
  outside : ∀ a, t.Outside a → s.1 a = s'.1 a

/-- An access has the same outcome on both. -/
theorem exec_sameOutcome (hr : t.TurnedOn r) (access : Access) (s s' : Memory × List UInt8)
    (hout : t.Outside access.address) (h : t.Mapped s.1 ∧ t.Agrees s s') :
    SameOutcome (fun s s' => t.Mapped s.1 ∧ t.Agrees s s') (access.exec r s) (access.flat s') := by
  obtain ⟨hmapped, hagrees⟩ := h
  cases access with
  | read user a =>
      simp only [Access.exec, Access.flat]
      rcases translate_cases hr hmapped user false a with
        ⟨hfault, hrun⟩ | ⟨hfault, m', hrun, hmapped', hkept⟩
      · rw [hrun, if_pos hfault]
        exact .error a
      · rw [hrun, if_neg hfault]
        refine .ok ⟨hmapped', ?_, fun k hk => (hkept k hk).trans (hagrees.outside k hk)⟩
        have hbyte : m' a = s'.1 a := (hkept a hout).trans (hagrees.outside a hout)
        show s.2 ++ [m' a] = s'.2 ++ [s'.1 a]
        rw [hagrees.read_eq, hbyte]
  | write user a value =>
      simp only [Access.exec, Access.flat]
      rcases translate_cases hr hmapped user true a with
        ⟨hfault, hrun⟩ | ⟨hfault, m', hrun, hmapped', hkept⟩
      · rw [hrun, if_pos hfault]
        exact .error a
      · rw [hrun, if_neg hfault]
        refine .ok ⟨hmapped'.update hout value, hagrees.read_eq, fun k hk => ?_⟩
        show Function.update m' a value k = Function.update s'.1 a value k
        by_cases hka : k = a
        · rw [hka, Function.update_self, Function.update_self]
        · rw [Function.update_of_ne hka, Function.update_of_ne hka]
          exact (hkept k hk).trans (hagrees.outside k hk)

/-- **Identity mapping.** After `init_paging` the machine does in every run of accesses what one
with 4 MiB of memory does, which is for the kernel alone, down to the first page fault. -/
theorem initPaging_runs (t : PageTables) (r : ControlRegisters) (m : Memory)
    (accesses : List Access) (h : ∀ access ∈ accesses, t.Outside access.address) :
    SameOutcome t.Agrees
      (runs (Access.exec (initPaging t.pageDirectory t.firstPageTable (r, m)).1) accesses
        ((initPaging t.pageDirectory t.firstPageTable (r, m)).2, []))
      (runs Access.flat accesses (m, [])) := by
  obtain ⟨hmapped, hout⟩ := initPaging_mapped t r m
  have hr := initPaging_turnedOn t r m
  generalize initPaging t.pageDirectory t.firstPageTable (r, m) = s at hmapped hout hr ⊢
  have hstart : t.Agrees (s.2, []) (m, []) := ⟨rfl, hout⟩
  exact (runs_sameOutcome (exec_sameOutcome hr) accesses h ⟨hmapped, hstart⟩).imp fun _ _ h => h.2

/-- Two frames below 4 MiB. -/
def lowTables : PageTables := ⟨0x14000, 0x15000, by decide, by decide, by decide⟩

/-- A frame buffer beyond 4 MiB cannot be drawn on. -/
theorem initPaging_runs_frameBuffer :
    runs (Access.exec (initPaging lowTables.pageDirectory lowTables.firstPageTable
        (⟨0x11, 0⟩, fun _ => 0)).1)
      [.write false 0x80000 0x41, .read false 0x80000, .write false 0xFD000000 0xFF]
      ((initPaging lowTables.pageDirectory lowTables.firstPageTable
        (⟨0x11, 0⟩, fun _ => 0)).2, []) = .error 0xFD000000 := by
  refine (initPaging_runs lowTables ⟨0x11, 0⟩ (fun _ => 0) _ ?_).eq_error rfl
  simp only [List.forall_mem_cons, Access.address]
  decide

end PageTables

end Paging

end FirstKernel
