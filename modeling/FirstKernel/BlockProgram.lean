import Mathlib.Logic.Function.Basic
import FirstKernel.Ports

/-!
# Programs over blocks

A program that reads and writes the blocks of a device, and goes on with
what it has read: the tree `BlockProgram`. On a store, a function from
places to blocks, it runs by itself (`run`); on a device each access is a
call of a driver (`exec`), which may poll.

A driver that does to the blocks what the store does makes every program
return with what it returns on the store (`Stores.exec_returns`).
-/

namespace FirstKernel

variable {ι β α γ σ : Type}

inductive BlockProgram (ι β α : Type) where
  | done (a : α)
  | fail (e : Fault)
  | read (i : ι) (next : β → BlockProgram ι β α)
  | write (i : ι) (b : β) (next : BlockProgram ι β α)

namespace BlockProgram

def bind : BlockProgram ι β α → (α → BlockProgram ι β γ) → BlockProgram ι β γ
  | .done a, f => f a
  | .fail e, _ => .fail e
  | .read i next, f => .read i fun b => (next b).bind f
  | .write i b next, f => .write i b (next.bind f)

instance : Monad (BlockProgram ι β) where
  pure := .done
  bind := bind

/-- The block at a place. -/
def get (i : ι) : BlockProgram ι β β := .read i .done

def put (i : ι) (b : β) : BlockProgram ι β Unit := .write i b (.done ())

/-- A computation without accesses. -/
def lift : Except Fault α → BlockProgram ι β α
  | .ok a => .done a
  | .error e => .fail e

/-! ## On a store -/

section Store

variable [DecidableEq ι]

def run : BlockProgram ι β α → (ι → β) → Except Fault (α × (ι → β))
  | .done a, store => .ok (a, store)
  | .fail e, _ => .error e
  | .read i next, store => (next (store i)).run store
  | .write i b next, store => next.run (Function.update store i b)

theorem run_bind (p : BlockProgram ι β α) (f : α → BlockProgram ι β γ) (store : ι → β) :
    (p >>= f).run store = p.run store >>= fun r => (f r.1).run r.2 := by
  show (p.bind f).run store = _
  induction p generalizing store with
  | done a => rfl
  | fail e => rfl
  | read i next ih => exact ih (store i) store
  | write i b next ih => exact ih (Function.update store i b)

theorem run_lift (r : Except Fault α) (store : ι → β) :
    (lift r : BlockProgram ι β α).run store = r.map fun a => (a, store) := by
  cases r <;> rfl

end Store

end BlockProgram

/-! ## On a device -/

/-- A driver, with the rounds that its polling loops may take. -/
structure BlockDriver (ι β σ : Type) where
  read : Nat → ι → σ → Except Fault (β × σ)
  write : Nat → ι → β → σ → Except Fault σ

def BlockProgram.exec (driver : BlockDriver ι β σ) (rounds : Nat) :
    BlockProgram ι β α → σ → Except Fault (α × σ)
  | .done a, s => .ok (a, s)
  | .fail e, _ => .error e
  | .read i next, s => do
      let r ← driver.read rounds i s
      (next r.1).exec driver rounds r.2
  | .write i b next, s => do
      let s ← driver.write rounds i b s
      next.exec driver rounds s

/-- The driver does to the blocks of a good state what a store does. -/
structure Stores [DecidableEq ι] (driver : BlockDriver ι β σ) (Good : σ → Prop)
    (blocks : σ → ι → β) : Prop where
  read_returns : ∀ i s, Good s → ∃ s', Returns (fun rounds => driver.read rounds i s)
    (blocks s i, s') ∧ Good s' ∧ blocks s' = blocks s
  write_returns : ∀ i b s, Good s → ∃ s', Returns (fun rounds => driver.write rounds i b s) s' ∧
    Good s' ∧ blocks s' = Function.update (blocks s) i b

variable [DecidableEq ι] {driver : BlockDriver ι β σ} {Good : σ → Prop} {blocks : σ → ι → β}

/-- **Refinement.** What a program returns on the store it returns on the device, and the blocks
are those of the store. -/
theorem Stores.exec_returns (h : Stores driver Good blocks) (p : BlockProgram ι β α) {s : σ}
    (hs : Good s) {a : α} {store : ι → β} (hrun : p.run (blocks s) = .ok (a, store)) :
    ∃ s', Returns (fun rounds => p.exec driver rounds s) (a, s') ∧ Good s' ∧ blocks s' = store := by
  induction p generalizing s with
  | done b =>
      obtain ⟨rfl, rfl⟩ := Prod.mk.inj (Except.ok.inj hrun)
      exact ⟨s, returns_ok _, hs, rfl⟩
  | fail e => cases hrun
  | read i next ih =>
      obtain ⟨s1, hread, hs1, hblocks⟩ := h.read_returns i s hs
      obtain ⟨s', hexec, hs', hstore⟩ := ih (blocks s i) hs1 (hblocks ▸ hrun)
      exact ⟨s', hread.bind hexec, hs', hstore⟩
  | write i b next ih =>
      obtain ⟨s1, hwrite, hs1, hblocks⟩ := h.write_returns i b s hs
      obtain ⟨s', hexec, hs', hstore⟩ := ih hs1 (hblocks ▸ hrun)
      exact ⟨s', hwrite.bind hexec, hs', hstore⟩

/-! ## Runs of programs -/

theorem Returns.runs_cons {κ τ : Type} {step : Nat → κ → τ → Except Fault τ} {c : κ} {cs : List κ}
    {t t' t'' : τ} (hstep : Returns (fun rounds => step rounds c t) t')
    (hrest : Returns (fun rounds => runs (step rounds) cs t') t'') :
    Returns (fun rounds => runs (step rounds) (c :: cs) t) t'' := by
  obtain ⟨bound, hstep⟩ := hstep
  obtain ⟨bound', hrest⟩ := hrest
  refine ⟨max bound bound', fun rounds hlt => ?_⟩
  obtain ⟨hlt, hlt'⟩ := Nat.max_lt.mp hlt
  exact (runs_cons_ok (hstep rounds hlt)).trans (hrest rounds hlt')

/-- The calls of a component with variables of its own, each of which is a program. -/
def BlockProgram.execRuns {κ τ : Type} (program : κ → τ → BlockProgram ι β τ)
    (driver : BlockDriver ι β σ) (rounds : Nat) (cs : List κ) (t : τ) (s : σ) :
    Except Fault (τ × σ) :=
  runs (fun c r => (program c r.1).exec driver rounds r.2) cs (t, s)

theorem Stores.runs_returns {κ τ : Type} {program : κ → τ → BlockProgram ι β τ}
    (h : Stores driver Good blocks) : ∀ (cs : List κ) {t t' : τ} {s : σ} {store : ι → β}, Good s →
      runs (fun c r => (program c r.1).run r.2) cs (t, blocks s) = .ok (t', store) →
      ∃ s', Returns (fun rounds => BlockProgram.execRuns program driver rounds cs t s) (t', s') ∧
        Good s' ∧ blocks s' = store
  | [], t, _, s, _, hs, hrun => by
      obtain ⟨rfl, rfl⟩ := Prod.mk.inj (Except.ok.inj hrun)
      exact ⟨s, returns_ok (t, s), hs, rfl⟩
  | c :: cs, _, _, _, _, hs, hrun => by
      obtain ⟨⟨t1, store1⟩, hstep, hrest⟩ := runs_cons_eq_ok hrun
      obtain ⟨s1, hexec, hs1, rfl⟩ := h.exec_returns _ hs hstep
      obtain ⟨s', hexecs, hs', hstore⟩ := h.runs_returns cs hs1 hrest
      exact ⟨s', hexec.runs_cons hexecs, hs', hstore⟩

end FirstKernel
