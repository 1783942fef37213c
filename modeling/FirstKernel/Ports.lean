import FirstKernel.Runs

/-!
# I/O ports

What stands behind the I/O ports of the machine is a state and four
functions on it, one for each instruction: a read answers, and may change
the state as well. A `do`-`while` loop that reads until an answer is right
is `poll`, with the rounds it may take; that a program with such loops
comes to its end is `Returns`, with rounds enough. It does where a measure
falls while the answers are wrong (`returns_poll`). `recorder` answers
from a table and keeps what is written.
-/

namespace FirstKernel

variable {σ α β : Type}

structure BytePorts (σ : Type) where
  bytesIn : UInt16 → σ → UInt8 × σ
  bytesOut : UInt16 → UInt8 → σ → σ

structure Ports (σ : Type) extends BytePorts σ where
  wordIn : UInt16 → σ → UInt16 × σ
  wordOut : UInt16 → UInt16 → σ → σ

/-! ## Rounds enough -/

/-- The program returns `x` with every number of rounds from some bound on. -/
def Returns (f : Nat → Except Fault α) (x : α) : Prop :=
  ∃ bound, ∀ rounds, bound < rounds → f rounds = .ok x

theorem returns_ok (x : α) : Returns (fun _ => .ok x) x := ⟨0, fun _ _ => rfl⟩

theorem Returns.bind {f : Nat → Except Fault α} {g : Nat → α → Except Fault β} {x : α} {y : β}
    (hf : Returns f x) (hg : Returns (fun rounds => g rounds x) y) :
    Returns (fun rounds => f rounds >>= g rounds) y := by
  obtain ⟨bound, hf⟩ := hf
  obtain ⟨bound', hg⟩ := hg
  refine ⟨max bound bound', fun rounds hlt => ?_⟩
  obtain ⟨hlt, hlt'⟩ := Nat.max_lt.mp hlt
  show f rounds >>= g rounds = .ok y
  rw [hf rounds hlt]
  exact hg rounds hlt'

/-! ## Polling -/

/-- `do { x = read(); } while (!done(x));`, with the rounds that are left. -/
def poll (read : σ → α × σ) (done : α → Bool) : Nat → σ → Except Fault σ
  | 0, _ => .error .outOfFuel
  | rounds + 1, s =>
      if done (read s).1 then .ok (read s).2 else poll read done rounds (read s).2

theorem returns_poll_last {read : σ → α × σ} {done : α → Bool} {s : σ}
    (h : done (read s).1 = true) : Returns (fun rounds => poll read done rounds s) (read s).2 := by
  refine ⟨0, fun rounds hlt => ?_⟩
  obtain ⟨k, rfl⟩ := Nat.exists_eq_succ_of_ne_zero (Nat.ne_of_gt hlt)
  exact if_pos h

theorem returns_poll_next {read : σ → α × σ} {done : α → Bool} {s s' : σ}
    (h : done (read s).1 = false)
    (hrest : Returns (fun rounds => poll read done rounds (read s).2) s') :
    Returns (fun rounds => poll read done rounds s) s' := by
  obtain ⟨bound, hrest⟩ := hrest
  refine ⟨bound + 1, fun rounds hlt => ?_⟩
  obtain ⟨k, rfl⟩ := Nat.exists_eq_succ_of_ne_zero (Nat.ne_of_gt (Nat.zero_lt_of_lt hlt))
  have hstep : poll read done (k + 1) s = poll read done k (read s).2 := by
    rw [poll, h]
    rfl
  exact hstep.trans (hrest k (Nat.lt_of_succ_lt_succ hlt))

/-- **Polling rule.** If wrong answers use up the waiting time of a good state, and the answer
is right when there is none left, the loop returns, in a good state. -/
theorem returns_poll {read : σ → α × σ} {done : α → Bool} {Inv : σ → Prop} {waits : σ → Nat}
    (hwait : ∀ s, Inv s → 0 < waits s →
      done (read s).1 = false ∧ Inv (read s).2 ∧ waits (read s).2 < waits s)
    (hdone : ∀ s, Inv s → waits s = 0 →
      done (read s).1 = true ∧ Inv (read s).2 ∧ waits (read s).2 = 0) {s : σ} (hs : Inv s) :
    ∃ s', Inv s' ∧ waits s' = 0 ∧ Returns (fun rounds => poll read done rounds s) s' := by
  induction hn : waits s using Nat.strong_induction_on generalizing s with
  | _ n ih =>
      rcases Nat.eq_zero_or_pos (waits s) with hzero | hpos
      · obtain ⟨hright, hinv, hwaits⟩ := hdone s hs hzero
        exact ⟨_, hinv, hwaits, returns_poll_last hright⟩
      · obtain ⟨hwrong, hinv, hless⟩ := hwait s hs hpos
        obtain ⟨s', hs', hzero, hrest⟩ := ih _ (hn ▸ hless) hinv rfl
        exact ⟨s', hs', hzero, returns_poll_next hwrong hrest⟩

/-! ## Records -/

/-- What has been written, port and byte, in order. -/
abbrev PortLog := List (UInt16 × UInt8)

def recorder (answers : UInt16 → UInt8) : BytePorts PortLog where
  bytesIn port log := (answers port, log)
  bytesOut port data log := log ++ [(port, data)]

/-- The bytes that have been written to a port. -/
def writtenTo (port : UInt16) (log : PortLog) : List UInt8 :=
  log.filterMap fun entry => if entry.1 = port then some entry.2 else none

end FirstKernel
