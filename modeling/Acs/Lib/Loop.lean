/-
  Acs/Lib/Loop.lean
  =================
  **Loops that may not end.**

  A `while` loop is a function `next` that gives the state after one more turn,
  or `none` where the condition of the loop fails.  `run` takes the number of
  turns that are allowed; the loop ends if some number is enough (`Ends`).

  The rules are `not_ends_of_invariant` (a loop that always has another turn
  does not end), `run_of_measure` (how many turns are enough for one that has a
  measure) and `run_simulation` (two loops that follow each other turn by turn
  end together, in related states).
-/
import Mathlib.Data.Option.Basic

namespace Loops

universe u v

variable {σ : Type u} {τ : Type v}

/-- The state in which the loop ends, if `fuel` tests of its condition are
    enough. -/
def run (next : σ → Option σ) : Nat → σ → Option σ
  | 0, _ => none
  | fuel + 1, s =>
      match next s with
      | none => some s
      | some t => run next fuel t

/-- From `s`, the loop ends in `t`. -/
def Ends (next : σ → Option σ) (s t : σ) : Prop := ∃ fuel, run next fuel s = some t

section Turns

variable {next : σ → Option σ} {s t u : σ}

theorem run_succ_of_none (h : next s = none) (fuel : Nat) : run next (fuel + 1) s = some s := by
  rw [run, h]

theorem run_succ_of_some (h : next s = some t) (fuel : Nat) :
    run next (fuel + 1) s = run next fuel t := by
  rw [run, h]

/-- More fuel does no harm. -/
theorem run_mono {fuel fuel' : Nat} (hle : fuel ≤ fuel') (h : run next fuel s = some t) :
    run next fuel' s = some t := by
  induction fuel generalizing s fuel' with
  | zero => cases h
  | succ fuel ih =>
    cases fuel' with
    | zero => exact absurd hle (Nat.not_succ_le_zero fuel)
    | succ fuel' =>
      cases hnext : next s with
      | none =>
        rw [run_succ_of_none hnext] at h ⊢
        exact h
      | some s' =>
        rw [run_succ_of_some hnext] at h ⊢
        exact ih (Nat.le_of_succ_le_succ hle) h

theorem Ends.unique (ht : Ends next s t) (hu : Ends next s u) : t = u := by
  obtain ⟨fuel, ht⟩ := ht
  obtain ⟨fuel', hu⟩ := hu
  have ht' := run_mono (Nat.le_max_left fuel fuel') ht
  have hu' := run_mono (Nat.le_max_right fuel fuel') hu
  exact Option.some.inj (ht'.symm.trans hu')

theorem ends_of_none (h : next s = none) : Ends next s s := ⟨1, run_succ_of_none h 0⟩

theorem Ends.of_some (h : next s = some t) (ht : Ends next t u) : Ends next s u := by
  obtain ⟨fuel, ht⟩ := ht
  exact ⟨fuel + 1, (run_succ_of_some h fuel).trans ht⟩

/-- **A loop that always has another turn** does not end. -/
theorem not_ends_of_invariant (Inv : σ → Prop)
    (hnext : ∀ s, Inv s → ∃ t, next s = some t ∧ Inv t) (h0 : Inv s) : ¬ Ends next s t := by
  rintro ⟨fuel, hrun⟩
  induction fuel generalizing s with
  | zero => cases hrun
  | succ fuel ih =>
    obtain ⟨s', hs', hInv⟩ := hnext s h0
    rw [run_succ_of_some hs'] at hrun
    exact ih hInv hrun

/-- **A loop with a measure** ends in as many turns. -/
theorem run_of_measure (μ : σ → Nat) (hnext : ∀ s t, next s = some t → μ t < μ s) (s : σ)
    {fuel : Nat} (hfuel : μ s < fuel) : ∃ t, run next fuel s = some t := by
  induction fuel generalizing s with
  | zero => exact absurd hfuel (Nat.not_lt_zero _)
  | succ fuel ih =>
    cases hs : next s with
    | none => exact ⟨s, run_succ_of_none hs fuel⟩
    | some t =>
      rw [run_succ_of_some hs]
      exact ih t (Nat.lt_of_lt_of_le (hnext s t hs) (Nat.le_of_lt_succ hfuel))

end Turns

/-! ### Simulation -/

section Simulation

variable {next : σ → Option σ} {anext : τ → Option τ} {R : σ → τ → Prop}

/-- **The simulation rule.**  Loops whose turns keep them related end after the
    same number of turns. -/
theorem run_simulation (hnext : ∀ s t, R s t → Option.Rel R (next s) (anext t)) {s : σ} {t : τ}
    (h0 : R s t) (fuel : Nat) : Option.Rel R (run next fuel s) (run anext fuel t) := by
  induction fuel generalizing s t with
  | zero => exact .none
  | succ fuel ih =>
    have h := hnext s t h0
    rw [run, run]
    cases hs : next s with
    | none =>
      rw [hs] at h
      cases ht : anext t with
      | none => exact .some h0
      | some t' => rw [ht] at h; cases h
    | some s' =>
      rw [hs] at h
      cases ht : anext t with
      | none => rw [ht] at h; cases h
      | some t' =>
        rw [ht] at h
        cases h with
        | some h => exact ih h

theorem ends_of_simulation (hnext : ∀ s t, R s t → Option.Rel R (next s) (anext t)) {s : σ}
    {t t' : τ} (h0 : R s t) (h : Ends anext t t') : ∃ s', Ends next s s' ∧ R s' t' := by
  obtain ⟨fuel, h⟩ := h
  have hrel := run_simulation hnext h0 fuel
  rw [h] at hrel
  cases hs : run next fuel s with
  | none => rw [hs] at hrel; cases hrel
  | some s' =>
    rw [hs] at hrel
    cases hrel with
    | some hR => exact ⟨s', ⟨fuel, hs⟩, hR⟩

theorem ends_of_simulation' (hnext : ∀ s t, R s t → Option.Rel R (next s) (anext t)) {s s' : σ}
    {t : τ} (h0 : R s t) (h : Ends next s s') : ∃ t', Ends anext t t' ∧ R s' t' := by
  obtain ⟨fuel, h⟩ := h
  have hrel := run_simulation hnext h0 fuel
  rw [h] at hrel
  cases ht : run anext fuel t with
  | none => rw [ht] at hrel; cases hrel
  | some t' =>
    rw [ht] at hrel
    cases hrel with
    | some hR => exact ⟨t', ⟨fuel, ht⟩, hR⟩

end Simulation

end Loops
