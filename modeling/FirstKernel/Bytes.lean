import Mathlib.Algebra.GroupWithZero.Nat
import Mathlib.Data.Nat.Basic
import Mathlib.Tactic.Common

/-!
# Byte buffers

A C array of `n` bytes as a function of its index. `blit` is the effect of
storing a run of bytes at an offset; the 16- and 32-bit accesses are
those of a little-endian machine, so a store is the `blit` of the bytes
of the value and a load puts them together again (`load16_store16`).
Every other byte is unchanged (`blit_of_lt`, `blit_of_ge`), which is all
that the frame arguments above need.
-/

namespace FirstKernel

abbrev Buffer (n : Nat) := Fin n → UInt8

namespace Buffer

variable {n : Nat}

def zeros (n : Nat) : Buffer n := fun _ => 0

/-- Store the bytes `xs` from offset `off` on; what does not fit is dropped. -/
def blit (b : Buffer n) (off : Nat) (xs : List UInt8) : Buffer n := fun k =>
  if off ≤ k.val then (xs[k.val - off]?).getD (b k) else b k

def set (b : Buffer n) (off : Nat) (v : UInt8) : Buffer n := b.blit off [v]

def load16 (b : Buffer n) (off : Nat) (h : off + 1 < n) : UInt16 :=
  UInt16.ofNat ((b ⟨off, by omega⟩).toNat + 256 * (b ⟨off + 1, h⟩).toNat)

def load32 (b : Buffer n) (off : Nat) (h : off + 3 < n) : UInt32 :=
  UInt32.ofNat ((b ⟨off, by omega⟩).toNat + 256 * (b ⟨off + 1, by omega⟩).toNat
    + 65536 * (b ⟨off + 2, by omega⟩).toNat
    + 16777216 * (b ⟨off + 3, h⟩).toNat)

def bytes16 (v : UInt16) : List UInt8 :=
  [UInt8.ofNat v.toNat, UInt8.ofNat (v.toNat / 256)]

def bytes32 (v : UInt32) : List UInt8 :=
  [UInt8.ofNat v.toNat, UInt8.ofNat (v.toNat / 256),
    UInt8.ofNat (v.toNat / 65536), UInt8.ofNat (v.toNat / 16777216)]

def store16 (b : Buffer n) (off : Nat) (v : UInt16) : Buffer n :=
  b.blit off (bytes16 v)

def store32 (b : Buffer n) (off : Nat) (v : UInt32) : Buffer n :=
  b.blit off (bytes32 v)

/-! ## What a store changes -/

theorem blit_of_lt (b : Buffer n) {off : Nat} (xs : List UInt8) {k : Fin n}
    (h : k.val < off) : b.blit off xs k = b k := by
  simp [blit, Nat.not_le.mpr h]

theorem blit_of_ge (b : Buffer n) {off : Nat} {xs : List UInt8} {k : Fin n}
    (h : off + xs.length ≤ k.val) : b.blit off xs k = b k := by
  have hnone : xs[k.val - off]? = none := List.getElem?_eq_none (by omega)
  simp [blit, hnone]

theorem blit_of_mem (b : Buffer n) {off : Nat} {xs : List UInt8} {k : Fin n}
    {v : UInt8} (hk : off ≤ k.val) (hv : xs[k.val - off]? = some v) :
    b.blit off xs k = v := by
  simp [blit, hk, hv]

theorem set_self (b : Buffer n) {off : Nat} (v : UInt8) (h : off < n) :
    b.set off v ⟨off, h⟩ = v :=
  b.blit_of_mem (Nat.le_refl _) (by simp)

theorem set_of_ne (b : Buffer n) {off : Nat} (v : UInt8) {k : Fin n}
    (h : k.val ≠ off) : b.set off v k = b k := by
  rcases Nat.lt_or_gt_of_ne h with hlt | hgt
  · exact b.blit_of_lt _ hlt
  · exact b.blit_of_ge (Nat.succ_le_of_lt hgt)

theorem blit_nil (b : Buffer n) (off : Nat) : b.blit off [] = b := by
  funext k
  simp [blit]

/-- A run of bytes is stored byte by byte. -/
theorem blit_cons (b : Buffer n) (off : Nat) (x : UInt8) (xs : List UInt8) :
    b.blit off (x :: xs) = (b.set off x).blit (off + 1) xs := by
  funext k
  rcases Nat.lt_trichotomy k.val off with hlt | heq | hgt
  · rw [blit_of_lt b _ hlt, blit_of_lt _ _ (Nat.lt_succ_of_lt hlt),
      set_of_ne b x (Nat.ne_of_lt hlt)]
  · obtain rfl : off = k.val := heq.symm
    rw [blit_of_lt _ _ (Nat.lt_succ_self _), set_self b x k.isLt]
    exact b.blit_of_mem (Nat.le_refl _) (by simp)
  · obtain ⟨j, hj⟩ := Nat.exists_eq_add_of_lt hgt
    have hsub : k.val - off = j + 1 := by omega
    have hsub' : k.val - (off + 1) = j := by omega
    simp only [blit, if_pos (Nat.le_of_lt hgt), if_pos (Nat.succ_le_of_lt hgt), hsub, hsub',
      List.getElem?_cons_succ, set_of_ne b x (Nat.ne_of_gt hgt)]

theorem load16_blit_of_disjoint (b : Buffer n) {off at' : Nat} {xs : List UInt8}
    (h : at' + 1 < n) (hd : at' + 1 < off ∨ off + xs.length ≤ at') :
    (b.blit off xs).load16 at' h = b.load16 at' h := by
  unfold load16
  rcases hd with hlt | hge
  · rw [blit_of_lt b xs (k := ⟨at', by omega⟩) (by omega : at' < off),
      blit_of_lt b xs (k := ⟨at' + 1, h⟩) hlt]
  · rw [blit_of_ge b (k := ⟨at', by omega⟩) hge,
      blit_of_ge b (k := ⟨at' + 1, h⟩) (by omega : off + xs.length ≤ at' + 1)]

theorem load32_blit_of_disjoint (b : Buffer n) {off at' : Nat} {xs : List UInt8}
    (h : at' + 3 < n) (hd : at' + 3 < off ∨ off + xs.length ≤ at') :
    (b.blit off xs).load32 at' h = b.load32 at' h := by
  have hbyte : ∀ k : Fin n, at' ≤ k.val → k.val ≤ at' + 3 → b.blit off xs k = b k := by
    intro k hlo hhi
    rcases hd with hlt | hge
    · exact b.blit_of_lt xs (by omega)
    · exact b.blit_of_ge (by omega)
  unfold load32
  rw [hbyte ⟨at', by omega⟩ (Nat.le_refl _) (Nat.le_add_right ..),
    hbyte ⟨at' + 1, by omega⟩ (Nat.le_add_right ..) (by simp),
    hbyte ⟨at' + 2, by omega⟩ (Nat.le_add_right ..) (by simp),
    hbyte ⟨at' + 3, h⟩ (Nat.le_add_right ..) (Nat.le_refl _)]

/-! ## Loads after stores -/

theorem load16_store16 (b : Buffer n) {off : Nat} (v : UInt16) (h : off + 1 < n) :
    (b.store16 off v).load16 off h = v := by
  have hlo : b.store16 off v ⟨off, by omega⟩ = UInt8.ofNat v.toNat :=
    b.blit_of_mem (Nat.le_refl _) (by simp [bytes16])
  have hhi : b.store16 off v ⟨off + 1, h⟩ = UInt8.ofNat (v.toNat / 256) :=
    b.blit_of_mem (Nat.le_succ _) (by simp [bytes16])
  have hv := v.toNat_lt
  rw [load16, hlo, hhi, ← UInt16.toNat_inj]
  simp only [UInt16.toNat_ofNat', UInt8.toNat_ofNat']
  omega

theorem load16_store16_of_ne (b : Buffer n) {off at' : Nat} (v : UInt16)
    (h : at' + 1 < n) (hd : at' + 1 < off ∨ off + 2 ≤ at') :
    (b.store16 off v).load16 at' h = b.load16 at' h :=
  b.load16_blit_of_disjoint h hd

/-- Both halves of a word are determined by it. -/
theorem load16_inj {b b' : Buffer n} {off : Nat} {h : off + 1 < n}
    (heq : b.load16 off h = b'.load16 off h) :
    b ⟨off, Nat.lt_of_succ_lt h⟩ = b' ⟨off, Nat.lt_of_succ_lt h⟩ ∧
      b ⟨off + 1, h⟩ = b' ⟨off + 1, h⟩ := by
  have hval := congrArg UInt16.toNat heq
  simp only [load16, UInt16.toNat_ofNat'] at hval
  have h0 := (b ⟨off, Nat.lt_of_succ_lt h⟩).toNat_lt
  have h1 := (b ⟨off + 1, h⟩).toNat_lt
  have h0' := (b' ⟨off, Nat.lt_of_succ_lt h⟩).toNat_lt
  have h1' := (b' ⟨off + 1, h⟩).toNat_lt
  constructor
  · exact UInt8.toNat_inj.mp (by omega)
  · exact UInt8.toNat_inj.mp (by omega)

/-- The words are all there is in a buffer of an even size. -/
theorem eq_of_load16 {b b' : Buffer n} (heven : n % 2 = 0)
    (h : ∀ i (hi : 2 * i + 1 < n), b.load16 (2 * i) hi = b'.load16 (2 * i) hi) : b = b' := by
  funext k
  have hlt : 2 * (k.val / 2) + 1 < n := by omega
  obtain ⟨hlow, hhigh⟩ := load16_inj (h (k.val / 2) hlt)
  rcases Nat.mod_two_eq_zero_or_one k.val with hzero | hone
  · have hk : (⟨2 * (k.val / 2), Nat.lt_of_succ_lt hlt⟩ : Fin n) = k :=
      Fin.ext (by simp only; omega)
    rw [← hk]
    exact hlow
  · have hk : (⟨2 * (k.val / 2) + 1, hlt⟩ : Fin n) = k := Fin.ext (by simp only; omega)
    rw [← hk]
    exact hhigh

theorem load32_store32 (b : Buffer n) {off : Nat} (v : UInt32) (h : off + 3 < n) :
    (b.store32 off v).load32 off h = v := by
  have h0 : b.store32 off v ⟨off, by omega⟩ = UInt8.ofNat v.toNat :=
    b.blit_of_mem (Nat.le_refl _) (by simp [bytes32])
  have h1 : b.store32 off v ⟨off + 1, by omega⟩ = UInt8.ofNat (v.toNat / 256) :=
    b.blit_of_mem (Nat.le_add_right ..) (by simp [bytes32])
  have h2 : b.store32 off v ⟨off + 2, by omega⟩ = UInt8.ofNat (v.toNat / 65536) :=
    b.blit_of_mem (Nat.le_add_right ..) (by simp [bytes32])
  have h3 : b.store32 off v ⟨off + 3, h⟩ = UInt8.ofNat (v.toNat / 16777216) :=
    b.blit_of_mem (Nat.le_add_right ..) (by simp [bytes32])
  have hv := v.toNat_lt
  rw [load32, h0, h1, h2, h3, ← UInt32.toNat_inj]
  simp only [UInt32.toNat_ofNat', UInt8.toNat_ofNat']
  omega

/-- The two bytes of a 16-bit value put together with shift and or are the value
a 16-bit load reads. -/
theorem load16_eq_shift_or (b : Buffer n) {off : Nat} (h : off + 1 < n) :
    (b ⟨off + 1, h⟩).toUInt16 <<< 8 ||| (b ⟨off, by omega⟩).toUInt16
      = b.load16 off h := by
  have hlo := (b ⟨off, by omega⟩).toNat_lt
  have hhi := (b ⟨off + 1, h⟩).toNat_lt
  rw [load16, ← UInt16.toNat_inj]
  simp only [UInt16.toNat_or, UInt16.toNat_shiftLeft, UInt8.toNat_toUInt16,
    UInt16.toNat_ofNat']
  have hshift : (b ⟨off + 1, h⟩).toNat <<< 8 < 2 ^ 16 := by
    rw [Nat.shiftLeft_eq]; omega
  rw [show (UInt16.toNat 8) % 16 = 8 from rfl, Nat.mod_eq_of_lt hshift,
    ← Nat.shiftLeft_add_eq_or_of_lt hlo, Nat.shiftLeft_eq]
  omega

end Buffer

end FirstKernel
