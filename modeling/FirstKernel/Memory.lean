import FirstKernel.Bytes

/-!
# A flat memory of 32-bit words

The 4 GiB address space of a 32-bit machine as a function, with the
little-endian word accesses. Addresses wrap around, so two words are
apart when each starts at least four bytes after the other, counted
modulo `2 ^ 32` (`Apart`); a store then leaves the other word alone
(`load_store_of_apart`).

`pushAll` builds a descending stack: the words that were pushed are found
below the first stack pointer in the order of the pushes
(`load_pushAll`), and what lies above it is unchanged.
-/

namespace FirstKernel

abbrev Memory := UInt32 → UInt8

namespace Memory

/-- The word at address `a`. -/
def load (m : Memory) (a : UInt32) : UInt32 :=
  UInt32.ofNat ((m a).toNat + 256 * (m (a + 1)).toNat
    + 65536 * (m (a + 2)).toNat + 16777216 * (m (a + 3)).toNat)

def store (m : Memory) (a : UInt32) (v : UInt32) : Memory := fun k =>
  ((Buffer.bytes32 v)[(k - a).toNat]?).getD (m k)

/-- The words at `a` and `b` share no byte. -/
def Apart (a b : UInt32) : Prop := 4 ≤ (b - a).toNat ∧ 4 ≤ (a - b).toNat

theorem store_of_ge (m : Memory) {a k : UInt32} (v : UInt32)
    (h : 4 ≤ (k - a).toNat) : m.store a v k = m k := by
  have hnone : (Buffer.bytes32 v)[(k - a).toNat]? = none :=
    List.getElem?_eq_none h
  rw [store, hnone, Option.getD_none]

/-- The byte that a store puts `j` bytes into the word. -/
theorem store_add (m : Memory) {a j v : UInt32} {b : UInt8}
    (h : (Buffer.bytes32 v)[j.toNat]? = some b) : m.store a v (a + j) = b := by
  have hj : a + j - a = j := by
    rw [← UInt32.toNat_inj, UInt32.toNat_sub, UInt32.toNat_add]
    have := a.toNat_lt
    have := j.toNat_lt
    omega
  rw [store, hj, h, Option.getD_some]

theorem load_store (m : Memory) (a v : UInt32) : (m.store a v).load a = v := by
  have h0 : m.store a v a = UInt8.ofNat v.toNat := by
    simpa using @store_add m a 0 v _ rfl
  have h1 : m.store a v (a + 1) = UInt8.ofNat (v.toNat / 256) := m.store_add rfl
  have h2 : m.store a v (a + 2) = UInt8.ofNat (v.toNat / 65536) := m.store_add rfl
  have h3 : m.store a v (a + 3) = UInt8.ofNat (v.toNat / 16777216) := m.store_add rfl
  have hv := v.toNat_lt
  rw [load, h0, h1, h2, h3, ← UInt32.toNat_inj]
  simp only [UInt32.toNat_ofNat', UInt8.toNat_ofNat']
  omega

/-- A load only sees its own four bytes. -/
theorem load_congr {m m' : Memory} {a : UInt32}
    (h : ∀ k, (k - a).toNat < 4 → m' k = m k) : m'.load a = m.load a := by
  have hsub : ∀ j : UInt32, j.toNat < 4 → ((a + j) - a).toNat < 4 := by
    intro j hj
    rw [UInt32.toNat_sub, UInt32.toNat_add]
    have := a.toNat_lt
    omega
  have h0 : m' a = m a := h a (by simp)
  rw [load, load, h0, h _ (hsub 1 (by decide)), h _ (hsub 2 (by decide)),
    h _ (hsub 3 (by decide))]

theorem load_store_of_apart (m : Memory) {a b : UInt32} (v : UInt32)
    (h : Apart a b) : (m.store a v).load b = m.load b := by
  obtain ⟨h1, h2⟩ := h
  refine load_congr fun k hk => m.store_of_ge v ?_
  rw [UInt32.toNat_sub] at *
  have := a.toNat_lt
  have := b.toNat_lt
  have := k.toNat_lt
  omega

/-- The bytes `xs` from address `a` on. -/
def storeBytes (m : Memory) (a : UInt32) (xs : List UInt8) : Memory := fun k =>
  (xs[(k - a).toNat]?).getD (m k)

theorem storeBytes_apply (m : Memory) (a k : UInt32) (xs : List UInt8) :
    m.storeBytes a xs k = (xs[(k - a).toNat]?).getD (m k) := rfl

theorem storeBytes_of_ge (m : Memory) {a k : UInt32} {xs : List UInt8}
    (h : xs.length ≤ (k - a).toNat) : m.storeBytes a xs k = m k := by
  rw [storeBytes, List.getElem?_eq_none h, Option.getD_none]

theorem storeBytes_append (m : Memory) (a : UInt32) (xs ys : List UInt8) :
    m.storeBytes a (xs ++ ys) =
      (m.storeBytes (a + UInt32.ofNat xs.length) ys).storeBytes a xs := by
  funext k
  by_cases hk : (k - a).toNat < xs.length
  · rw [storeBytes, storeBytes, List.getElem?_append_left hk, List.getElem?_eq_getElem hk,
      Option.getD_some, Option.getD_some]
  · rw [not_lt] at hk
    have hoffset : (k - (a + UInt32.ofNat xs.length)).toNat = (k - a).toNat - xs.length := by
      simp only [UInt32.toNat_sub, UInt32.toNat_add, UInt32.toNat_ofNat'] at hk ⊢
      have := a.toNat_lt
      have := k.toNat_lt
      omega
    rw [storeBytes_of_ge _ hk, storeBytes, storeBytes, List.getElem?_append_right hk, hoffset]

/-! ## Pushing words -/

/-- `*(--stack) = v` -/
def push (s : UInt32 × Memory) (v : UInt32) : UInt32 × Memory :=
  (s.1 - 4, s.2.store (s.1 - 4) v)

def pushAll (ws : List UInt32) (s : UInt32 × Memory) : UInt32 × Memory :=
  ws.foldl push s

theorem pushAll_cons (w : UInt32) (ws : List UInt32) (sp : UInt32) (m : Memory) :
    pushAll (w :: ws) (sp, m) = pushAll ws (sp - 4, m.store (sp - 4) w) := rfl

theorem pushAll_fst : ∀ (ws : List UInt32) (sp : UInt32) (m : Memory),
    (pushAll ws (sp, m)).1 = sp - UInt32.ofNat (4 * ws.length)
  | [], sp, m => by simp [pushAll]
  | w :: ws, sp, m => by
      rw [pushAll_cons, pushAll_fst, ← UInt32.toNat_inj, List.length_cons]
      simp only [UInt32.toNat_sub, UInt32.toNat_ofNat', UInt32.reduceToNat]
      have := sp.toNat_lt
      omega

theorem length_flatMap_bytes32 (ws : List UInt32) :
    (ws.flatMap Buffer.bytes32).length = 4 * ws.length := by
  induction ws with
  | nil => rfl
  | cons w ws ih =>
      have hword : (Buffer.bytes32 w).length = 4 := rfl
      rw [List.flatMap_cons, List.length_append, ih, List.length_cons, hword]
      omega

/-- The pushes together store the words at the last stack pointer, the last one first. -/
theorem pushAll_snd : ∀ (ws : List UInt32) (sp : UInt32) (m : Memory),
    (pushAll ws (sp, m)).2 = m.storeBytes (sp - UInt32.ofNat (4 * ws.length))
      (ws.reverse.flatMap Buffer.bytes32)
  | [], _, _ => rfl
  | w :: ws, sp, m => by
      have hlow : sp - UInt32.ofNat (4 * (w :: ws).length)
          = sp - 4 - UInt32.ofNat (4 * ws.length) := by
        rw [← UInt32.toNat_inj, List.length_cons]
        simp only [UInt32.toNat_sub, UInt32.toNat_ofNat', UInt32.reduceToNat]
        have := sp.toNat_lt
        omega
      have hhigh : sp - 4 - UInt32.ofNat (4 * ws.length) + UInt32.ofNat (4 * ws.length)
          = sp - 4 := by
        rw [← UInt32.toNat_inj]
        simp only [UInt32.toNat_add, UInt32.toNat_sub, UInt32.toNat_ofNat',
          UInt32.reduceToNat]
        have := sp.toNat_lt
        omega
      rw [pushAll_cons, pushAll_snd, hlow, List.reverse_cons, List.flatMap_append,
        storeBytes_append, length_flatMap_bytes32, List.length_reverse, hhigh,
        List.flatMap_singleton]
      rfl

/-- A word from the first stack pointer on is not reached by the pushes. -/
theorem load_pushAll_of_above : ∀ {ws : List UInt32} {sp b : UInt32} (m : Memory),
    (b - sp).toNat + 4 + 4 * ws.length ≤ 2 ^ 32 →
      (pushAll ws (sp, m)).2.load b = m.load b
  | [], _, _, _, _ => rfl
  | w :: ws, sp, b, m, h => by
      rw [List.length_cons] at h
      have hsp := sp.toNat_lt
      have hb := b.toNat_lt
      have hnext : (b - (sp - 4)).toNat = (b - sp).toNat + 4 := by
        simp only [UInt32.toNat_sub, UInt32.reduceToNat] at h ⊢
        omega
      have hapart : Apart (sp - 4) b := by
        refine ⟨by omega, ?_⟩
        simp only [UInt32.toNat_sub, UInt32.reduceToNat] at h ⊢
        omega
      rw [pushAll_cons, load_pushAll_of_above _ (by omega), load_store_of_apart m w hapart]

theorem load_pushAll : ∀ {ws : List UInt32} {i : Nat} {w : UInt32} (sp : UInt32)
    (m : Memory), 4 * ws.length ≤ 2 ^ 32 → ws[i]? = some w →
      (pushAll ws (sp, m)).2.load (sp - UInt32.ofNat (4 * (i + 1))) = w
  | [], _, _, _, _, _, h => by simp at h
  | v :: ws, 0, w, sp, m, hlen, h => by
      obtain rfl : v = w := by simpa using h
      rw [List.length_cons] at hlen
      have hself : (sp - 4 - (sp - 4)).toNat = 0 := by simp
      have habove : (pushAll ws (sp - 4, m.store (sp - 4) v)).2.load (sp - 4)
          = (m.store (sp - 4) v).load (sp - 4) := load_pushAll_of_above _ (by omega)
      exact habove.trans (load_store m (sp - 4) v)
  | v :: ws, i + 1, w, sp, m, hlen, h => by
      rw [List.length_cons] at hlen
      have hi : i < ws.length := by
        rw [List.getElem?_cons_succ] at h
        exact (List.getElem?_eq_some_iff.mp h).1
      have hsp : sp - UInt32.ofNat (4 * (i + 1 + 1))
          = sp - 4 - UInt32.ofNat (4 * (i + 1)) := by
        rw [← UInt32.toNat_inj]
        simp only [UInt32.toNat_sub, UInt32.toNat_ofNat', UInt32.reduceToNat]
        have := sp.toNat_lt
        omega
      rw [pushAll_cons, hsp]
      exact load_pushAll _ _ (by omega) (by simpa using h)

/-- Words are popped in the reverse order of their pushes. -/
theorem load_pushAll_reverse {ws : List UInt32} {j : Nat} {w : UInt32} (sp : UInt32)
    (m : Memory) (hlen : 4 * ws.length ≤ 2 ^ 32) (h : ws.reverse[j]? = some w) :
    (pushAll ws (sp, m)).2.load ((pushAll ws (sp, m)).1 + UInt32.ofNat (4 * j)) = w := by
  have hj : j < ws.length := by
    have hlt := (List.getElem?_eq_some_iff.mp h).1
    rwa [List.length_reverse] at hlt
  rw [List.getElem?_reverse hj] at h
  have haddr : (pushAll ws (sp, m)).1 + UInt32.ofNat (4 * j)
      = sp - UInt32.ofNat (4 * (ws.length - 1 - j + 1)) := by
    rw [pushAll_fst, ← UInt32.toNat_inj]
    simp only [UInt32.toNat_add, UInt32.toNat_sub, UInt32.toNat_ofNat']
    have := sp.toNat_lt
    omega
  rw [haddr]
  exact load_pushAll sp m hlen h

end Memory

end FirstKernel
