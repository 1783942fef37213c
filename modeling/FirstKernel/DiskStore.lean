import FirstKernel.Disk
import FirstKernel.FatOps

/-!
# The driver stores sectors

On a drive that takes what is written to its registers, each call of the
driver does to the sectors of the drive what its name says, and leaves a
drive of which the same holds (`readSector_ok`, `writeSector_ok`). So the
calls of a run, in any order, read what was last written.
-/

namespace FirstKernel

namespace Ata

variable {σ : Type}

/-! ## Words of a sector -/

theorem word_setWord_self (b : Buffer 512) (i : Fin 256) (w : UInt16) :
    word (setWord b i w) i = w := b.load16_store16 w (word_lt i)

theorem word_setWord_of_ne (b : Buffer 512) {i j : Fin 256} (w : UInt16) (h : j ≠ i) :
    word (setWord b i w) j = word b j := by
  refine b.load16_store16_of_ne w (word_lt j) ?_
  have hne : j.val ≠ i.val := fun heq => h (Fin.ext heq)
  omega

/-- The first `k` words of two sectors are the same. -/
def SameWords (k : Nat) (b b' : Buffer 512) : Prop :=
  ∀ i : Fin 256, i.val < k → word b i = word b' i

theorem SameWords.setWord {b b' : Buffer 512} {i : Fin 256} (h : SameWords i.val b b') :
    SameWords (i.val + 1) (setWord b i (word b' i)) b' := by
  intro j hj
  by_cases heq : j = i
  · rw [heq, word_setWord_self]
  · have hne : j.val ≠ i.val := fun hval => heq (Fin.ext hval)
    rw [word_setWord_of_ne b _ heq]
    exact h j (by omega)

theorem SameWords.eq {b b' : Buffer 512} (h : SameWords 256 b b') : b = b' :=
  Buffer.eq_of_load16 rfl fun i hi => h ⟨i, by omega⟩ (by simp only; omega)

/-! ## Sector numbers in registers -/

theorem ofNat_shiftRight {n : Nat} (hn : n < 2 ^ 31) (places : Int32) {k : Nat}
    (hk : (places.toBitVec.smod 32).toNat = k) :
    Int32.ofNat n >>> places = Int32.ofNat (n / 2 ^ k) := by
  have hnat : ∀ m < 2 ^ 31, (Int32.ofNat m).toBitVec.toNat = m :=
    fun m hm => Nat.mod_eq_of_lt (Nat.lt_trans hm (by decide))
  have hmsb : (Int32.ofNat n).toBitVec.msb = false := by
    rw [BitVec.msb_eq_false_iff_two_mul_lt, hnat n hn]
    omega
  have hle : n / 2 ^ k ≤ n := Nat.div_le_self ..
  rw [← Int32.toBitVec_inj, ← BitVec.toNat_inj, hnat _ (by omega)]
  show ((Int32.ofNat n).toBitVec.sshiftRight' (places.toBitVec.smod 32)).toNat = _
  rw [BitVec.toNat_sshiftRight'_of_msb_false hmsb, hnat n hn, hk, Nat.shiftRight_eq_div_pow]

theorem deviceByte : ∀ k < 16,
    ((0xE0 : Int32) ||| (Int32.ofNat k &&& 0x0F)).toUInt32.toUInt8 = UInt8.ofNat (0xE0 + k) := by
  decide

theorem deviceByte_fields : ∀ k < 16,
    (UInt8.ofNat (0xE0 + k)).toNat % 16 = k ∧ UInt8.ofNat (0xE0 + k) &&& 0xF0 = 0xE0 := by
  decide

theorem toNat_registerByte (n : Nat) : (Int32.ofNat n).toUInt32.toUInt8.toNat = n % 2 ^ 8 := by
  rw [Int32.toUInt32_ofNat', UInt32.toUInt8_ofNat', UInt8.toNat_ofNat']

/-- The registers hold the sector number. -/
theorem outAddress_ok (d : Drive σ) {s : σ} (hs : d.accepts s) {lba : Nat} (hlba : lba < 2 ^ 28) :
    d.accepts (outAddress d.ports (Int32.ofNat lba) s) ∧
    Addressed (d.latch (outAddress d.ports (Int32.ofNat lba) s)) ∧
    address (d.latch (outAddress d.ports (Int32.ofNat lba) s)) = lba ∧
    (d.state (outAddress d.ports (Int32.ofNat lba) s)).sectors = (d.state s).sectors := by
  have hk : lba / 2 ^ 24 < 16 := by omega
  obtain ⟨hdevice, hselected⟩ := deviceByte_fields _ hk
  unfold outAddress
  simp only
  rw [ofNat_shiftRight (by omega) 8 (k := 8) rfl, ofNat_shiftRight (by omega) 16 (k := 16) rfl,
    ofNat_shiftRight (by omega) 24 (k := 24) rfl, deviceByte _ hk]
  obtain ⟨ha1, hl1, hs1⟩ := d.latch_out s 0x1F6 (UInt8.ofNat (0xE0 + lba / 2 ^ 24)) hs
    (by decide) (by decide)
  obtain ⟨ha2, hl2, hs2⟩ := d.latch_out _ 0x1F2 1 ha1 (by decide) (by decide)
  obtain ⟨ha3, hl3, hs3⟩ := d.latch_out _ 0x1F3 (Int32.ofNat lba).toUInt32.toUInt8 ha2
    (by decide) (by decide)
  obtain ⟨ha4, hl4, hs4⟩ := d.latch_out _ 0x1F4 (Int32.ofNat (lba / 2 ^ 8)).toUInt32.toUInt8 ha3
    (by decide) (by decide)
  obtain ⟨ha5, hl5, hs5⟩ := d.latch_out _ 0x1F5 (Int32.ofNat (lba / 2 ^ 16)).toUInt32.toUInt8 ha4
    (by decide) (by decide)
  refine ⟨ha5, ?_, ?_, hs5.trans (hs4.trans (hs3.trans (hs2.trans hs1)))⟩
  · rw [hl5, hl4, hl3, hl2, hl1]
    exact ⟨rfl, hselected⟩
  · rw [hl5, hl4, hl3, hl2, hl1]
    show (UInt8.ofNat (0xE0 + lba / 2 ^ 24)).toNat % 16 * 2 ^ 24 +
      (Int32.ofNat (lba / 2 ^ 16)).toUInt32.toUInt8.toNat * 2 ^ 16 +
      (Int32.ofNat (lba / 2 ^ 8)).toUInt32.toUInt8.toNat * 2 ^ 8 +
      (Int32.ofNat lba).toUInt32.toUInt8.toNat = lba
    rw [hdevice, toNat_registerByte, toNat_registerByte, toNat_registerByte]
    omega

/-! ## Waiting -/

/-- A loop on the status that goes on while the drive is busy, and ends when it is ready. -/
theorem poll_status (d : Drive σ) (s : σ) (done : UInt8 → Bool)
    (hbusy : ∀ status : UInt8, status &&& 0x80 ≠ 0 → status &&& 0x08 = 0 → done status = false)
    (hready : ∀ status : UInt8, status &&& 0x80 = 0 →
      (status &&& 0x08 ≠ 0 ↔ (d.state s).transfer ≠ .none) → done status = true) :
    ∃ s', d.state s' = d.state s ∧ d.waits s' = 0 ∧ (d.accepts s → d.accepts s') ∧
      Returns (fun rounds => poll (d.ports.bytesIn 0x1F7) done rounds s) s' := by
  have hwait : ∀ s1, (d.state s1 = d.state s ∧ (d.accepts s → d.accepts s1)) → 0 < d.waits s1 →
      done (d.ports.bytesIn 0x1F7 s1).1 = false ∧
      (d.state (d.ports.bytesIn 0x1F7 s1).2 = d.state s ∧
        (d.accepts s → d.accepts (d.ports.bytesIn 0x1F7 s1).2)) ∧
      d.waits (d.ports.bytesIn 0x1F7 s1).2 < d.waits s1 := by
    rintro s1 ⟨hstate, haccepts⟩ hpos
    obtain ⟨hbsy, hdrq, hless⟩ := d.status_busy s1 hpos
    obtain ⟨hkeeps, haccepts'⟩ := d.status_keeps s1
    exact ⟨hbusy _ hbsy hdrq, ⟨hkeeps.trans hstate, fun h => haccepts' (haccepts h)⟩, hless⟩
  have hdone : ∀ s1, (d.state s1 = d.state s ∧ (d.accepts s → d.accepts s1)) → d.waits s1 = 0 →
      done (d.ports.bytesIn 0x1F7 s1).1 = true ∧
      (d.state (d.ports.bytesIn 0x1F7 s1).2 = d.state s ∧
        (d.accepts s → d.accepts (d.ports.bytesIn 0x1F7 s1).2)) ∧
      d.waits (d.ports.bytesIn 0x1F7 s1).2 = 0 := by
    rintro s1 ⟨hstate, haccepts⟩ hzero
    obtain ⟨hbsy, hdrq, hwaits⟩ := d.status_ready s1 hzero
    obtain ⟨hkeeps, haccepts'⟩ := d.status_keeps s1
    rw [hstate] at hdrq
    exact ⟨hready _ hbsy hdrq, ⟨hkeeps.trans hstate, fun h => haccepts' (haccepts h)⟩, hwaits⟩
  obtain ⟨s', ⟨hstate, haccepts⟩, hwaits, hloop⟩ :=
    returns_poll hwait hdone ⟨rfl, id⟩
  exact ⟨s', hstate, hwaits, haccepts, hloop⟩

theorem awaitData_ok (d : Drive σ) {s : σ} (hdue : (d.state s).transfer ≠ .none) :
    ∃ s', d.state s' = d.state s ∧ d.waits s' = 0 ∧
      Returns (fun rounds => awaitData d.ports rounds s) s' := by
  obtain ⟨s', hstate, hwaits, -, hloop⟩ := poll_status d s
    (fun status => status &&& 0x08 != 0) (fun _ _ hdrq => by rw [hdrq]; rfl)
    (fun _ _ hdrq => bne_iff_ne.mpr (hdrq.mpr hdue))
  exact ⟨s', hstate, hwaits, hloop⟩

theorem awaitIdle_ok (d : Drive σ) (s : σ) :
    ∃ s', d.state s' = d.state s ∧ d.waits s' = 0 ∧ (d.accepts s → d.accepts s') ∧
      Returns (fun rounds => awaitIdle d.ports rounds s) s' :=
  poll_status d s _ (fun _ hbsy _ => beq_eq_false_iff_ne.mpr hbsy)
    (fun _ hbsy _ => beq_iff_eq.mpr hbsy)

/-! ## Transfers -/

/-- `k` words of the sector are in the buffer. -/
structure Reading (d : Drive σ) (sectors : Nat → Buffer 512) (lba k : Nat)
    (r : Buffer 512 × σ) : Prop where
  ready : k < 256 → d.waits r.2 = 0
  accepts : k = 256 → d.accepts r.2
  sectors_eq : (d.state r.2).sectors = sectors
  due : (d.state r.2).transfer = if k < 256 then .toHost lba k else .none
  same : SameWords k r.1 (sectors lba)

theorem Reading.step {d : Drive σ} {sectors : Nat → Buffer 512} {lba : Nat} (i : Fin 256)
    (r : Buffer 512 × σ) (h : Reading d sectors lba i.val r) :
    Reading d sectors lba (i.val + 1) (wordToBuffer d.ports r i) := by
  have hdue : (d.state r.2).transfer = .toHost lba i.val := h.due.trans (if_pos i.isLt)
  obtain ⟨hword, hsent, hready, haccepts⟩ := d.word_in r.2 lba i (h.ready i.isLt) hdue
  rw [h.sectors_eq] at hword
  refine ⟨hready, haccepts, ?_, ?_, ?_⟩
  · rw [wordToBuffer, hsent]
    exact h.sectors_eq
  · rw [wordToBuffer, hsent]
    rfl
  · rw [wordToBuffer, hword]
    exact h.same.setWord

/-- After 256 words the buffer is the sector. -/
theorem readWords_ok (d : Drive σ) {s : σ} {lba : Nat} (buffer : Buffer 512)
    (hready : d.waits s = 0) (hdue : (d.state s).transfer = .toHost lba 0) :
    ∃ s', Fin.foldl 256 (wordToBuffer d.ports) (buffer, s) = ((d.state s).sectors lba, s') ∧
      d.accepts s' ∧ (d.state s').sectors = (d.state s).sectors := by
  have hstart : Reading d (d.state s).sectors lba 0 (buffer, s) :=
    ⟨fun _ => hready, fun h => absurd h (by decide), rfl, hdue,
      fun i hi => absurd hi (Nat.not_lt_zero _)⟩
  have hend := foldl_invariant Reading.step hstart
  generalize Fin.foldl 256 (wordToBuffer d.ports) (buffer, s) = r at hend ⊢
  exact ⟨r.2, Prod.ext hend.same.eq rfl, hend.accepts rfl, hend.sectors_eq⟩

/-- `k` words of the buffer are in the drive, which stores the sector with the last one. -/
structure Writing (d : Drive σ) (sectors : Nat → Buffer 512) (lba : Nat) (buffer : Buffer 512)
    (k : Nat) (s : σ) : Prop where
  pending : k < 256 → d.waits s = 0 ∧ (d.state s).sectors = sectors ∧
    ∃ received, (d.state s).transfer = .toDisk lba received k ∧ SameWords k received buffer
  stored : k = 256 →
    d.state s = { sectors := Function.update sectors lba buffer, transfer := .none }

theorem Writing.step {d : Drive σ} {sectors : Nat → Buffer 512} {lba : Nat} {buffer : Buffer 512}
    (i : Fin 256) (s : σ) (h : Writing d sectors lba buffer i.val s) :
    Writing d sectors lba buffer (i.val + 1) (wordFromBuffer d.ports buffer s i) := by
  obtain ⟨hready, hsectors, received, hdue, hsame⟩ := h.pending i.isLt
  obtain ⟨htook, hready'⟩ := d.word_out s lba received i (word buffer i) hready hdue
  refine ⟨fun hmore => ?_, fun hlast => ?_⟩
  · rw [DriveState.took, if_pos hmore] at htook
    refine ⟨hready' hmore, ?_, _, ?_, hsame.setWord⟩
    · rw [wordFromBuffer, htook]
      exact hsectors
    · rw [wordFromBuffer, htook]
  · have hbuffer : setWord received i (word buffer i) = buffer := (hlast ▸ hsame.setWord).eq
    rw [DriveState.took, if_neg (by omega), hsectors, hbuffer] at htook
    exact htook

/-- After 256 words the drive has stored the buffer. -/
theorem writeWords_ok (d : Drive σ) {s : σ} {lba : Nat} {received : Buffer 512}
    (buffer : Buffer 512) (hready : d.waits s = 0)
    (hdue : (d.state s).transfer = .toDisk lba received 0) :
    d.state (Fin.foldl 256 (wordFromBuffer d.ports buffer) s) =
      { sectors := Function.update (d.state s).sectors lba buffer, transfer := .none } := by
  have hstart : Writing d (d.state s).sectors lba buffer 0 s :=
    ⟨fun _ => ⟨hready, rfl, received, hdue, fun i hi => absurd hi (Nat.not_lt_zero _)⟩,
      fun h => absurd h (by decide)⟩
  exact (foldl_invariant Writing.step hstart).stored rfl

/-! ## Calls -/

theorem readCommand_state (d : Drive σ) {s : σ} (hs : d.accepts s) {lba : Nat}
    (hlba : lba < 2 ^ 28) :
    d.state (d.ports.bytesOut 0x1F7 0x20 (outAddress d.ports (Int32.ofNat lba) s)) =
      { sectors := (d.state s).sectors, transfer := .toHost lba 0 } := by
  obtain ⟨haccepts, haddressed, haddress, hsectors⟩ := outAddress_ok d hs hlba
  rw [d.read_command _ haccepts haddressed, haddress, hsectors]

theorem writeCommand_state (d : Drive σ) {s : σ} (hs : d.accepts s) {lba : Nat}
    (hlba : lba < 2 ^ 28) :
    ∃ received, d.state (d.ports.bytesOut 0x1F7 0x30 (outAddress d.ports (Int32.ofNat lba) s)) =
      { sectors := (d.state s).sectors, transfer := .toDisk lba received 0 } := by
  obtain ⟨haccepts, haddressed, haddress, hsectors⟩ := outAddress_ok d hs hlba
  obtain ⟨received, hcommand⟩ := d.write_command _ haccepts haddressed
  exact ⟨received, by rw [hcommand, haddress, hsectors]⟩

/-- `read_sector` returns the sector and changes none. -/
theorem readSector_ok (d : Drive σ) {s : σ} (hs : d.accepts s) {lba : Nat} (hlba : lba < 2 ^ 28)
    (buffer : Buffer 512) :
    ∃ s', Returns (fun rounds => readSector d.ports rounds (Int32.ofNat lba) buffer s)
        ((d.state s).sectors lba, s') ∧
      d.accepts s' ∧ (d.state s').sectors = (d.state s).sectors := by
  have hcommand := readCommand_state d hs hlba
  unfold readSector
  simp only
  generalize d.ports.bytesOut 0x1F7 0x20 (outAddress d.ports (Int32.ofNat lba) s) = s0
    at hcommand ⊢
  have hdue : (d.state s0).transfer = .toHost lba 0 := by rw [hcommand]
  obtain ⟨s1, hstate1, hready1, hwait⟩ :=
    awaitData_ok d (by rw [hdue]; exact Transfer.noConfusion)
  obtain ⟨s2, hwords, haccepts, hsectors⟩ := readWords_ok d buffer hready1 (hstate1 ▸ hdue)
  rw [hstate1, hcommand] at hwords hsectors
  refine ⟨s2, hwait.bind ?_, haccepts, hsectors⟩
  rw [← hwords]
  exact returns_ok _

/-- `write_sector` stores the buffer in its sector and changes no other. -/
theorem writeSector_ok (d : Drive σ) {s : σ} (hs : d.accepts s) {lba : Nat} (hlba : lba < 2 ^ 28)
    (buffer : Buffer 512) :
    ∃ s', Returns (fun rounds => writeSector d.ports rounds (Int32.ofNat lba) buffer s) s' ∧
      d.accepts s' ∧ (d.state s').sectors = Function.update (d.state s).sectors lba buffer := by
  obtain ⟨s1, hstate1, -, haccepts1, hidle⟩ := awaitIdle_ok d s
  obtain ⟨received, hcommand⟩ := writeCommand_state d (haccepts1 hs) hlba
  rw [hstate1] at hcommand
  have hdue : (d.state (d.ports.bytesOut 0x1F7 0x30
      (outAddress d.ports (Int32.ofNat lba) s1))).transfer = .toDisk lba received 0 := by
    rw [hcommand]
  obtain ⟨s2, hstate2, hready2, hdata⟩ :=
    awaitData_ok d (by rw [hdue]; exact Transfer.noConfusion)
  have hwords := writeWords_ok d buffer hready2 (hstate2 ▸ hdue)
  rw [hstate2, hcommand] at hwords
  have hflush := d.flush_command _ (congrArg DriveState.transfer hwords)
  rw [hwords] at hflush
  obtain ⟨s3, hstate3, hready3, -, hend⟩ := awaitIdle_ok d (d.ports.bytesOut 0x1F7 0xE7
    (Fin.foldl 256 (wordFromBuffer d.ports buffer) s2))
  rw [hflush] at hstate3
  exact ⟨s3, hidle.bind (hdata.bind hend), d.accepts_ready s3 hready3 (by rw [hstate3]),
    by rw [hstate3]⟩

/-! ## Runs -/

/-- A call of the driver, for a sector number of 28 bits. -/
inductive SectorCall where
  | read (lba : Fin (2 ^ 28)) (buffer : Buffer 512)
  | write (lba : Fin (2 ^ 28)) (buffer : Buffer 512)

/-- The buffer of the caller after the call, and the drive. -/
def execCall (ports : Ports σ) (rounds : Nat) : SectorCall → σ → Except Fault (Buffer 512 × σ)
  | .read lba buffer, s => readSector ports rounds (Int32.ofNat lba.val) buffer s
  | .write lba buffer, s => do
      let s ← writeSector ports rounds (Int32.ofNat lba.val) buffer s
      .ok (buffer, s)

def execCalls (ports : Ports σ) (rounds : Nat) :
    List SectorCall → σ → Except Fault (List (Buffer 512) × σ)
  | [], s => .ok ([], s)
  | c :: cs, s => do
      let r ← execCall ports rounds c s
      let rs ← execCalls ports rounds cs r.2
      .ok (r.1 :: rs.1, rs.2)

/-- What a call writes to a sector. -/
def SectorCall.written (lba : Nat) : SectorCall → Option (Buffer 512)
  | .read _ _ => none
  | .write lba' buffer => if lba'.val = lba then some buffer else none

/-- The buffer of the last `write_sector` call for a sector. -/
def lastWritten (lba : Nat) (calls : List SectorCall) : Option (Buffer 512) :=
  calls.reverse.findSome? (SectorCall.written lba)

theorem lastWritten_cons (lba : Nat) (c : SectorCall) (calls : List SectorCall)
    (initial : Buffer 512) :
    (lastWritten lba (c :: calls)).getD initial =
      (lastWritten lba calls).getD ((c.written lba).getD initial) := by
  rw [lastWritten, List.reverse_cons, List.findSome?_append]
  cases hlast : lastWritten lba calls with
  | none =>
      rw [lastWritten] at hlast
      rw [hlast]
      cases hc : c.written lba <;> simp [List.findSome?, hc]
  | some b =>
      rw [lastWritten] at hlast
      rw [hlast]
      rfl

/-- **Step.** A call returns; a read leaves the sector in the buffer, a write stores the buffer,
and every other sector is as it was. -/
theorem execCall_ok (d : Drive σ) (c : SectorCall) {s : σ} (hs : d.accepts s) :
    ∃ b s', Returns (fun rounds => execCall d.ports rounds c s) (b, s') ∧ d.accepts s' ∧
      (∀ lba, (d.state s').sectors lba = (c.written lba).getD ((d.state s).sectors lba)) ∧
      ∀ lba buffer, c = .read lba buffer → b = (d.state s).sectors lba.val := by
  cases c with
  | read lba buffer =>
      obtain ⟨s', hreturns, haccepts, hsectors⟩ := readSector_ok d hs lba.isLt buffer
      refine ⟨_, s', hreturns, haccepts, fun k => by rw [hsectors]; rfl, ?_⟩
      rintro lba' buffer' heq
      cases heq
      rfl
  | write lba buffer =>
      obtain ⟨s', hreturns, haccepts, hsectors⟩ := writeSector_ok d hs lba.isLt buffer
      refine ⟨buffer, s', hreturns.bind (returns_ok _), haccepts, fun k => ?_,
        fun _ _ heq => by cases heq⟩
      rw [hsectors, SectorCall.written]
      by_cases hk : lba.val = k
      · rw [if_pos hk, ← hk, Function.update_self]
        rfl
      · rw [if_neg hk, Function.update_of_ne (Ne.symm hk)]
        rfl

/-- **The driver is a sector store.** From a drive that takes what is written to its registers,
every run of calls returns; each read has the bytes of the last write to its sector, or the
initial ones, and so has each sector in the end. -/
theorem execCalls_store (d : Drive σ) : ∀ (calls : List SectorCall) {s : σ}, d.accepts s →
    ∃ buffers s', Returns (fun rounds => execCalls d.ports rounds calls s) (buffers, s') ∧
      (∀ before lba buffer after, calls = before ++ .read lba buffer :: after →
        buffers[before.length]? =
          some ((lastWritten lba.val before).getD ((d.state s).sectors lba.val))) ∧
      ∀ lba, (d.state s').sectors lba =
        (lastWritten lba calls).getD ((d.state s).sectors lba)
  | [], s, _ => by
      refine ⟨[], s, returns_ok _, fun before lba buffer after heq => ?_, fun _ => rfl⟩
      exact absurd heq.symm (List.append_ne_nil_of_right_ne_nil before (List.cons_ne_nil _ _))
  | c :: calls, s, hs => by
      obtain ⟨b, s1, hcall, haccepts, hsectors, hread⟩ := execCall_ok d c hs
      obtain ⟨buffers, s', hcalls, hreads, hend⟩ := execCalls_store d calls haccepts
      refine ⟨b :: buffers, s', hcall.bind (hcalls.bind (returns_ok _)), ?_, fun lba => ?_⟩
      · intro before lba buffer after heq
        cases before with
        | nil =>
            obtain ⟨hc, -⟩ := List.cons.inj heq
            rw [hread lba buffer hc]
            rfl
        | cons c' before =>
            obtain ⟨rfl, hrest⟩ := List.cons.inj heq
            rw [List.length_cons, List.getElem?_cons_succ, hreads before lba buffer after hrest,
              lastWritten_cons, hsectors]
      · rw [hend, lastWritten_cons, hsectors]

/-- A plain drive with zeros on it. -/
def blankDrive : PlainDrive where
  latch _ := 0
  state := { sectors := fun _ => Buffer.zeros 512, transfer := .none }
  waits := 0

/-- Sector 7 is written, and sectors 7 and 8 are read. -/
def writeReadRead : List SectorCall :=
  [.write 7 (fun _ => 1), .read 7 (fun _ => 2), .read 8 (fun _ => 2)]

theorem execCalls_store_plainDrive :
    ∃ buffers s', Returns (fun rounds =>
        execCalls (plainDrive 3).ports rounds writeReadRead blankDrive) (buffers, s') ∧
      buffers[1]? = some (fun _ => 1) ∧ buffers[2]? = some (Buffer.zeros 512) := by
  obtain ⟨buffers, s', hreturns, hreads, -⟩ :=
    execCalls_store (plainDrive 3) writeReadRead (s := blankDrive) rfl
  exact ⟨buffers, s', hreturns, hreads [.write 7 fun _ => 1] 7 _ _ rfl,
    hreads [.write 7 fun _ => 1, .read 7 fun _ => 2] 8 _ _ rfl⟩

/-! ## The disk of the file system -/

/-- A write of the file system's list, done by the driver. -/
def execWrite (ports : Ports σ) (rounds : Nat) (w : Nat × Sector) : σ → Except Fault σ :=
  writeSector ports rounds (Int32.ofNat w.1) w.2

/-- The disk of the file system is the sectors of the drive: what its writes do to the one, the
driver does to the other. -/
theorem runs_execWrite (d : Drive σ) : ∀ (ws : List (Nat × Sector)) {s : σ},
    (∀ w ∈ ws, w.1 < 2 ^ 28) → d.accepts s →
    ∃ s', Returns (fun rounds => runs (execWrite d.ports rounds) ws s) s' ∧
      d.accepts s' ∧ (d.state s').sectors = applyWrites ws (d.state s).sectors
  | [], s, _, hs => ⟨s, returns_ok s, hs, rfl⟩
  | w :: ws, s, hws, hs => by
      obtain ⟨s1, ⟨bound, hwrite⟩, hs1, hsectors⟩ :=
        writeSector_ok d hs (hws w (List.mem_cons_self ..)) w.2
      obtain ⟨s', ⟨bound', hwrites⟩, hs', hend⟩ :=
        runs_execWrite d ws (fun w hw => hws w (List.mem_cons_of_mem _ hw)) hs1
      refine ⟨s', ⟨bound + bound', fun rounds hrounds => ?_⟩, hs', ?_⟩
      · have hstep : execWrite d.ports rounds w s = .ok s1 := hwrite rounds (by omega)
        exact (runs_cons_ok hstep).trans (hwrites rounds (by omega))
      · rw [hend, hsectors, applyWrites_cons]

end Ata

end FirstKernel
