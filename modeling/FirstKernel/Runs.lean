import Mathlib.Data.List.Infix

/-!
# Runs of a step function

A component is a step function `step : ι → σ → Except ε σ` from a call
and a state to the next state, or to a `Fault`. `runs` chains the steps of
a list of calls. The induction over a run is done once:
`runs_invariant` turns "each call from a good state ends in a good
state" into the same statement about every run. `Guarded` restricts the
calls of a run by a condition on the state each one is issued in, for
results that hold only while every step meets it. `guarded_hit` is the rule
for "within so many calls": a rank falls until the run has hit its mark.
-/

namespace FirstKernel

variable {ι σ ε : Type*}

/-- What keeps a call of the C code from returning. -/
inductive Fault where
  | outOfFuel
  | outOfRange (index : Nat)
deriving DecidableEq

def runs (step : ι → σ → Except ε σ) : List ι → σ → Except ε σ
  | [], s => .ok s
  | i :: is, s =>
      match step i s with
      | .ok s' => runs step is s'
      | .error e => .error e

/-- Every call of the run meets `G` in the state it is issued in. -/
def Guarded (step : ι → σ → Except ε σ) (G : ι → σ → Prop) : List ι → σ → Prop
  | [], _ => True
  | i :: is, s => G i s ∧ ∀ s', step i s = .ok s' → Guarded step G is s'

theorem runs_cons_ok {step : ι → σ → Except ε σ} {i : ι} {is : List ι} {s s' : σ}
    (h : step i s = .ok s') : runs step (i :: is) s = runs step is s' := by
  simp only [runs, h]

/-- A run that returns has returned from its first call. -/
theorem runs_cons_eq_ok {step : ι → σ → Except ε σ} {i : ι} {is : List ι} {s s' : σ}
    (h : runs step (i :: is) s = .ok s') :
    ∃ s1, step i s = .ok s1 ∧ runs step is s1 = .ok s' := by
  cases hstep : step i s with
  | error e =>
      rw [runs, hstep] at h
      cases h
  | ok s1 =>
      rw [runs_cons_ok hstep] at h
      exact ⟨s1, rfl, h⟩

/-- A run goes on from where it has come to. -/
theorem runs_append {step : ι → σ → Except ε σ} {later : List ι} {s' : σ} :
    ∀ {before : List ι} {s : σ}, runs step before s = .ok s' →
      runs step (before ++ later) s = runs step later s'
  | [], _, h => Except.ok.inj h ▸ rfl
  | _ :: _, _, h => by
      obtain ⟨s1, hstep, hrest⟩ := runs_cons_eq_ok h
      rw [List.cons_append, runs_cons_ok hstep, runs_append hrest]

theorem runs_append_eq_ok {step : ι → σ → Except ε σ} {later : List ι} {s' : σ} :
    ∀ {before : List ι} {s : σ}, runs step (before ++ later) s = .ok s' →
      ∃ s1, runs step before s = .ok s1 ∧ runs step later s1 = .ok s'
  | [], s, h => ⟨s, rfl, h⟩
  | _ :: _, _, h => by
      obtain ⟨s1, hstep, hrest⟩ := runs_cons_eq_ok h
      obtain ⟨s2, hbefore, hlater⟩ := runs_append_eq_ok hrest
      exact ⟨s2, (runs_cons_ok hstep).trans hbefore, hlater⟩

/-- What every call that returns carries on, a run that returns does. -/
theorem runs_preserves {step : ι → σ → Except ε σ} {Inv : σ → Prop}
    (hstep : ∀ i s s', Inv s → step i s = .ok s' → Inv s') :
    ∀ (is : List ι) {s s' : σ}, Inv s → runs step is s = .ok s' → Inv s'
  | [], _, _, hs, h => Except.ok.inj h ▸ hs
  | i :: is, s, s', hs, h => by
      obtain ⟨s1, h1, hrun⟩ := runs_cons_eq_ok h
      exact runs_preserves hstep is (hstep i s s1 hs h1) hrun

/-- The outcome is a state with `p`; a closed run is evaluated through it. -/
def endsWith (r : Except ε σ) (p : σ → Bool) : Bool :=
  match r with
  | .ok s => p s
  | .error _ => false

theorem exists_of_endsWith {r : Except ε σ} {p : σ → Bool} (h : endsWith r p = true) :
    ∃ s, r = .ok s ∧ p s = true := by
  cases r with
  | ok s => exact ⟨s, rfl, h⟩
  | error e => cases h

theorem guarded_true {step : ι → σ → Except ε σ} :
    ∀ (is : List ι) (s : σ), Guarded step (fun _ _ => True) is s
  | [], _ => trivial
  | _ :: is, _ => ⟨trivial, fun s' _ => guarded_true is s'⟩

theorem Guarded.of_isPrefix {step : ι → σ → Except ε σ} {G : ι → σ → Prop} :
    ∀ {pre is : List ι} {s : σ}, pre <+: is → Guarded step G is s →
      Guarded step G pre s
  | [], _, _, _, _ => trivial
  | i :: pre, [], _, h, _ => by cases List.prefix_nil.mp h
  | i :: pre, j :: is, s, h, hg => by
      obtain ⟨rfl, hpre⟩ := List.cons_prefix_cons.mp h
      exact ⟨hg.1, fun s' hs' => (hg.2 s' hs').of_isPrefix hpre⟩

theorem guarded_cons {step : ι → σ → Except ε σ} {G : ι → σ → Prop} {i : ι} {is : List ι} {s s' : σ}
    (hi : G i s) (hstep : step i s = .ok s') (h : Guarded step G is s') :
    Guarded step G (i :: is) s :=
  ⟨hi, fun _ h1 => Except.ok.inj (hstep.symm.trans h1) ▸ h⟩

/-- What is left of a guarded run is guarded. -/
theorem Guarded.of_append {step : ι → σ → Except ε σ} {G : ι → σ → Prop} {later : List ι} {s' : σ} :
    ∀ {before : List ι} {s : σ}, Guarded step G (before ++ later) s →
      runs step before s = .ok s' → Guarded step G later s'
  | [], _, hg, hrun => Except.ok.inj hrun ▸ hg
  | _ :: _, _, hg, hrun => by
      obtain ⟨s1, hstep, hrest⟩ := runs_cons_eq_ok hrun
      exact (hg.2 s1 hstep).of_append hrest

/-- Under an invariant that the runs with guard `G` carry, two conditions on the calls
that agree in good states are met by the same runs. -/
theorem guarded_iff_of_invariant {step : ι → σ → Except ε σ} {G P Q : ι → σ → Prop}
    (Inv : σ → Prop) (hstep : ∀ i s s', Inv s → G i s → step i s = .ok s' → Inv s')
    (hiff : ∀ i s, Inv s → (P i s ↔ Q i s)) :
    ∀ (is : List ι) {s : σ}, Inv s → Guarded step G is s →
      (Guarded step P is s ↔ Guarded step Q is s)
  | [], _, _, _ => Iff.rfl
  | i :: is, s, hs, hg => by
      have hrest : ∀ s', step i s = .ok s' → (Guarded step P is s' ↔ Guarded step Q is s') :=
        fun s' hs' => guarded_iff_of_invariant Inv hstep hiff is (hstep i s s' hs hg.1 hs')
          (hg.2 s' hs')
      rw [Guarded, Guarded, hiff i s hs]
      exact and_congr_right fun _ => forall_congr' fun s' => forall_congr' fun hs' => hrest s' hs'

/-- Where a condition on the calls alone is what a good state asks of them, and calls that meet
it return in a good state, a guarded run is one whose calls all meet it. -/
theorem guarded_iff_forall {step : ι → σ → Except ε σ} {P : ι → σ → Prop} {Q : ι → Prop}
    {Inv : σ → Prop} (hiff : ∀ i s, Inv s → (P i s ↔ Q i))
    (hstep : ∀ i s, Inv s → Q i → ∃ s', step i s = .ok s' ∧ Inv s') :
    ∀ (is : List ι) {s : σ}, Inv s → (Guarded step P is s ↔ ∀ i ∈ is, Q i)
  | [], _, _ => by simp [Guarded]
  | i :: is, s, hs => by
      rw [Guarded, List.forall_mem_cons, hiff i s hs]
      refine and_congr_right fun hi => ?_
      obtain ⟨s', hs', hinv⟩ := hstep i s hs hi
      rw [← guarded_iff_forall hiff hstep is hinv]
      refine ⟨fun h => h s' hs', fun h s₁ hs₁ => ?_⟩
      rw [hs'] at hs₁
      exact Except.ok.inj hs₁ ▸ h

/-- **Invariant rule.** If from a state with `Inv` every call that meets its
guard returns, in a state with `Inv`, then so does every guarded run. -/
theorem runs_invariant {step : ι → σ → Except ε σ} {G : ι → σ → Prop}
    {Inv : σ → Prop}
    (hstep : ∀ i s, Inv s → G i s → ∃ s', step i s = .ok s' ∧ Inv s') :
    ∀ (is : List ι) (s : σ), Inv s → Guarded step G is s →
      ∃ s', runs step is s = .ok s' ∧ Inv s'
  | [], s, hs, _ => ⟨s, rfl, hs⟩
  | i :: is, s, hs, hg => by
      obtain ⟨s1, h1, hs1⟩ := hstep i s hs hg.1
      obtain ⟨s', hrun, hs'⟩ := runs_invariant hstep is s1 hs1 (hg.2 s1 h1)
      exact ⟨s', (runs_cons_ok h1).trans hrun, hs'⟩

/-- **Simulation.** Where every call that the second step function may make is matched by one of
the first, so is every run. -/
theorem runs_simulates {τ : Type*} {step : ι → σ → Except ε σ} {step' : ι → τ → Except ε τ}
    {G : ι → τ → Prop} {R : σ → τ → Prop}
    (hstep : ∀ i s t, R s t → G i t → ∃ s' t', step i s = .ok s' ∧ step' i t = .ok t' ∧ R s' t') :
    ∀ (is : List ι) {s : σ} {t : τ}, R s t → Guarded step' G is t →
      ∃ s' t', runs step is s = .ok s' ∧ runs step' is t = .ok t' ∧ R s' t'
  | [], s, t, h, _ => ⟨s, t, rfl, rfl, h⟩
  | i :: is, s, t, h, hg => by
      obtain ⟨s1, t1, hs1, ht1, h1⟩ := hstep i s t h hg.1
      obtain ⟨s', t', hs', ht', h'⟩ := runs_simulates hstep is h1 (hg.2 t1 ht1)
      exact ⟨s', t', (runs_cons_ok hs1).trans hs', (runs_cons_ok ht1).trans ht', h'⟩

/-- Both return, in related states, or both end with the same error. -/
inductive SameOutcome {τ : Type*} (R : σ → τ → Prop) : Except ε σ → Except ε τ → Prop where
  | ok {s : σ} {t : τ} (h : R s t) : SameOutcome R (.ok s) (.ok t)
  | error (e : ε) : SameOutcome R (.error e) (.error e)

theorem SameOutcome.imp {τ : Type*} {R R' : σ → τ → Prop} {x : Except ε σ} {y : Except ε τ}
    (h : SameOutcome R x y) (himp : ∀ s t, R s t → R' s t) : SameOutcome R' x y := by
  cases h with
  | ok h => exact .ok (himp _ _ h)
  | error e => exact .error e

theorem SameOutcome.eq_error {τ : Type*} {R : σ → τ → Prop} {x : Except ε σ} {y : Except ε τ}
    {e : ε} (h : SameOutcome R x y) (hy : y = .error e) : x = .error e := by
  cases h with
  | ok h => cases hy
  | error e => exact congrArg _ (Except.error.inj hy)

/-- **Agreement.** Where every call has the same outcome from related states, so has every run. -/
theorem runs_sameOutcome {τ : Type*} {step : ι → σ → Except ε σ} {step' : ι → τ → Except ε τ}
    {P : ι → Prop} {R : σ → τ → Prop}
    (hstep : ∀ i s t, P i → R s t → SameOutcome R (step i s) (step' i t)) :
    ∀ (is : List ι) {s : σ} {t : τ}, (∀ i ∈ is, P i) → R s t →
      SameOutcome R (runs step is s) (runs step' is t)
  | [], _, _, _, h => .ok h
  | i :: is, s, t, his, h => by
      obtain ⟨hi, his⟩ := List.forall_mem_cons.mp his
      have hfirst := hstep i s t hi h
      simp only [runs]
      revert hfirst
      generalize step i s = r
      generalize step' i t = r'
      intro hfirst
      cases hfirst with
      | ok h1 => exact runs_sameOutcome hstep is his h1
      | error e => exact .error e

/-- **Loop rule.** A `for` loop whose rounds return and carry `Inv` on. -/
theorem foldlM_range_invariant {body : Nat → σ → Except ε σ} {Inv : Nat → σ → Prop} :
    ∀ {n : Nat} {s : σ},
      (∀ i s, i < n → Inv i s → ∃ s', body i s = .ok s' ∧ Inv (i + 1) s') → Inv 0 s →
      ∃ s', (List.range n).foldlM (fun s i => body i s) s = .ok s' ∧ Inv n s'
  | 0, s, _, h => ⟨s, rfl, h⟩
  | n + 1, s, hstep, h => by
      obtain ⟨s1, hs1, h1⟩ :=
        foldlM_range_invariant (fun i s hi hs => hstep i s (Nat.lt_succ_of_lt hi) hs) h
      obtain ⟨s2, hs2, h2⟩ := hstep n s1 (Nat.lt_succ_self n) h1
      refine ⟨s2, ?_, h2⟩
      rw [List.range_succ, List.foldlM_append, hs1]
      show (List.foldlM (fun s i => body i s) s1 [n]) = .ok s2
      simp only [List.foldlM_cons, hs2]
      rfl

/-- **Loop rule**, for a loop whose rounds always return. -/
theorem foldl_invariant : ∀ {n : Nat} {body : σ → Fin n → σ} {Inv : Nat → σ → Prop} {s : σ},
    (∀ i s, Inv i.val s → Inv (i.val + 1) (body s i)) → Inv 0 s → Inv n (Fin.foldl n body s)
  | 0, _, _, _, _, h => h
  | n + 1, body, _, _, hstep, h => by
      rw [Fin.foldl_succ_last]
      exact hstep (Fin.last n) _ (foldl_invariant (fun i s hs => hstep i.castSucc s hs) h)

/-- **Ranking rule.** Some calls are ticks. If a tick takes a good state to one
with `Hit` or to a good state of lower rank, and every other call to a good
state of no higher rank, then a guarded run with as many ticks as the rank has a
tick that ends with `Hit`. -/
theorem guarded_hit {step : ι → σ → Except ε σ} {G : ι → σ → Prop} (tick : ι → Bool)
    (Inv Hit : σ → Prop) (rank : σ → Nat) (hpos : ∀ s, Inv s → 0 < rank s)
    (htick : ∀ i s, Inv s → G i s → tick i = true →
      ∃ s', step i s = .ok s' ∧ (Hit s' ∨ (Inv s' ∧ rank s' < rank s)))
    (hother : ∀ i s, Inv s → G i s → tick i = false →
      ∃ s', step i s = .ok s' ∧ Inv s' ∧ rank s' ≤ rank s) :
    ∀ (is : List ι) (s : σ), Inv s → Guarded step G is s → rank s ≤ is.countP tick →
      ∃ pre i post s1 s2, is = pre ++ i :: post ∧ tick i = true ∧
        runs step pre s = .ok s1 ∧ step i s1 = .ok s2 ∧ Hit s2
  | [], s, hs, _, hle => absurd (hpos s hs) (by simpa using hle)
  | i :: is, s, hs, hg, hle => by
      cases hi : tick i with
      | true =>
          rw [List.countP_cons_of_pos hi] at hle
          obtain ⟨s', hstep, hhit | ⟨hs', hlt⟩⟩ := htick i s hs hg.1 hi
          · exact ⟨[], i, is, s, s', rfl, hi, rfl, hstep, hhit⟩
          · obtain ⟨pre, j, post, s1, s2, rfl, hj, hpre, hrest⟩ :=
              guarded_hit tick Inv Hit rank hpos htick hother is s' hs' (hg.2 s' hstep) (by omega)
            exact ⟨i :: pre, j, post, s1, s2, rfl, hj,
              (runs_cons_ok hstep).trans hpre, hrest⟩
      | false =>
          rw [List.countP_cons_of_neg (by simp [hi])] at hle
          obtain ⟨s', hstep, hs', hle'⟩ := hother i s hs hg.1 hi
          obtain ⟨pre, j, post, s1, s2, rfl, hj, hpre, hrest⟩ :=
            guarded_hit tick Inv Hit rank hpos htick hother is s' hs' (hg.2 s' hstep) (by omega)
          exact ⟨i :: pre, j, post, s1, s2, rfl, hj,
            (runs_cons_ok hstep).trans hpre, hrest⟩

theorem runs_hit {step : ι → σ → Except ε σ} (tick : ι → Bool) (Inv Hit : σ → Prop)
    (rank : σ → Nat) (hpos : ∀ s, Inv s → 0 < rank s)
    (htick : ∀ i s, Inv s → tick i = true →
      ∃ s', step i s = .ok s' ∧ (Hit s' ∨ (Inv s' ∧ rank s' < rank s)))
    (hother : ∀ i s, Inv s → tick i = false →
      ∃ s', step i s = .ok s' ∧ Inv s' ∧ rank s' ≤ rank s)
    (is : List ι) (s : σ) (hs : Inv s) (hle : rank s ≤ is.countP tick) :
    ∃ pre i post s1 s2, is = pre ++ i :: post ∧ tick i = true ∧
      runs step pre s = .ok s1 ∧ step i s1 = .ok s2 ∧ Hit s2 :=
  guarded_hit tick Inv Hit rank hpos (fun i s hs _ => htick i s hs)
    (fun i s hs _ => hother i s hs) is s hs (guarded_true is s) hle

end FirstKernel
