/-
  Acs/Lib/Run.lean
  ================
  **Machines driven by a list of inputs.**

  A program that loops for ever is modelled as a step function
  `step : σ → ι → σ`, and a run of it as a list of inputs.  The three notions
  here are the state a run ends in (`exec`), a condition met by every step of
  a run (`Along`), and what a run emits (`emitted`).

  The rules are `exec_invariant` (what one step keeps, a run keeps) and
  `exec_simulation` with `emitted_simulation` (a run of a machine follows a run
  of an abstraction of it, and emits the same).
-/
import Mathlib.Data.List.Basic
import Mathlib.Data.List.Induction

namespace Runs

universe u v w x y

variable {σ : Type u} {ι : Type v} {ο : Type w} {τ : Type x} {κ : Type y}

/-! ### The state at the end of a run -/

/-- The state after the inputs `is`, taken one at a time from `s`. -/
def exec (step : σ → ι → σ) : σ → List ι → σ
  | s, [] => s
  | s, i :: is => exec step (step s i) is

@[simp] theorem exec_nil (step : σ → ι → σ) (s : σ) : exec step s [] = s := rfl

@[simp] theorem exec_cons (step : σ → ι → σ) (s : σ) (i : ι) (is : List ι) :
    exec step s (i :: is) = exec step (step s i) is := rfl

theorem exec_append (step : σ → ι → σ) (s : σ) (is js : List ι) :
    exec step s (is ++ js) = exec step (exec step s is) js := by
  induction is generalizing s with
  | nil => rfl
  | cons i is ih => exact ih (step s i)

@[simp] theorem exec_snoc (step : σ → ι → σ) (s : σ) (is : List ι) (i : ι) :
    exec step s (is ++ [i]) = step (exec step s is) i := by
  rw [exec_append, exec_cons, exec_nil]

theorem exec_eq_foldl (step : σ → ι → σ) (s : σ) (is : List ι) :
    exec step s is = is.foldl step s := by
  induction is generalizing s with
  | nil => rfl
  | cons i is ih => exact ih (step s i)

/-- Inputs that change nothing from here. -/
theorem exec_of_fixed {step : σ → ι → σ} {s : σ} {is : List ι} (h : ∀ i ∈ is, step s i = s) :
    exec step s is = s := by
  induction is with
  | nil => rfl
  | cons i is ih =>
    rw [exec_cons, h i List.mem_cons_self]
    exact ih fun j hj => h j (List.mem_cons_of_mem i hj)

/-- Inputs that change nothing. -/
theorem exec_const (s : σ) (is : List ι) : exec (fun s _ => s) s is = s := by
  rw [exec_eq_foldl, List.foldl_fixed]

/-- Some turn of a run with one more input meets `P`: it is the last one, or one
    of those before. -/
theorem exists_turn_snoc {is : List ι} {i : ι} {P : List ι → ι → List ι → Prop} :
    (∃ pre j post, is ++ [i] = pre ++ j :: post ∧ P pre j post) ↔
      P is i [] ∨ ∃ pre j post, is = pre ++ j :: post ∧ P pre j (post ++ [i]) := by
  constructor
  · rintro ⟨pre, j, post, heq, hP⟩
    rcases List.eq_nil_or_concat post with rfl | ⟨post, last, rfl⟩
    · obtain ⟨rfl, hlast⟩ := List.append_inj' heq rfl
      obtain ⟨rfl, _⟩ := List.cons.inj hlast
      exact .inl hP
    · rw [List.concat_eq_append] at heq hP
      have heq' : is ++ [i] = (pre ++ j :: post) ++ [last] := by
        rw [heq, List.append_assoc, List.cons_append]
      obtain ⟨rfl, hlast⟩ := List.append_inj' heq' rfl
      obtain ⟨rfl, _⟩ := List.cons.inj hlast
      exact .inr ⟨pre, j, post, rfl, hP⟩
  · rintro (hP | ⟨pre, j, post, rfl, hP⟩)
    · exact ⟨is, i, [], rfl, hP⟩
    · exact ⟨pre, j, post ++ [i], by rw [List.append_assoc, List.cons_append], hP⟩

/-- A state `d` that a step reaches by an input that is `into`, or stays in by one
    that `keeps` it, is the last one of a run exactly if it has been reached and
    kept since. -/
theorem exec_eq_iff_since {step : σ → ι → σ} {d : σ} {into keeps : ι → Prop}
    (hstep : ∀ s i, step s i = d ↔ into i ∨ (s = d ∧ keeps i)) {s : σ} (hs : s ≠ d)
    (is : List ι) :
    exec step s is = d ↔
      ∃ pre i post, is = pre ++ i :: post ∧ into i ∧ ∀ j ∈ post, keeps j := by
  induction is using List.reverseRecOn with
  | nil =>
    refine iff_of_false hs ?_
    rintro ⟨pre, i, post, hnil, -⟩
    exact absurd hnil.symm (List.append_ne_nil_of_right_ne_nil pre (List.cons_ne_nil i post))
  | append_singleton is i ih =>
    rw [exec_snoc, hstep, ih,
      exists_turn_snoc (P := fun _ i post => into i ∧ ∀ j ∈ post, keeps j)]
    simp only [List.forall_mem_append, List.forall_mem_singleton, List.not_mem_nil, false_imp_iff,
      implies_true, and_true]
    constructor
    · rintro (hinto | ⟨⟨pre, j, post, heq, hinto, hpost⟩, hkeeps⟩)
      · exact .inl hinto
      · exact .inr ⟨pre, j, post, heq, hinto, hpost, hkeeps⟩
    · rintro (hinto | ⟨pre, j, post, heq, hinto, hpost, hkeeps⟩)
      · exact .inl hinto
      · exact .inr ⟨⟨pre, j, post, heq, hinto, hpost⟩, hkeeps⟩

/-! ### Conditions on every step -/

/-- `P` holds of each step of the run: of the state before it and its input. -/
def Along (step : σ → ι → σ) (P : σ → ι → Prop) : σ → List ι → Prop
  | _, [] => True
  | s, i :: is => P s i ∧ Along step P (step s i) is

instance decidableAlong (step : σ → ι → σ) (P : σ → ι → Prop)
    [∀ s i, Decidable (P s i)] : ∀ s is, Decidable (Along step P s is)
  | _, [] => .isTrue trivial
  | s, i :: is =>
      have := decidableAlong step P (step s i) is
      inferInstanceAs (Decidable (P s i ∧ Along step P (step s i) is))

theorem Along.imp {step : σ → ι → σ} {P Q : σ → ι → Prop} (h : ∀ s i, P s i → Q s i) :
    ∀ {s : σ} {is : List ι}, Along step P s is → Along step Q s is
  | _, [], _ => trivial
  | s, i :: _, hP => ⟨h s i hP.1, imp h hP.2⟩

/-- A condition on the inputs alone. -/
theorem along_of_forall (step : σ → ι → σ) {P : ι → Prop} {s : σ} {is : List ι}
    (h : ∀ i ∈ is, P i) : Along step (fun _ i => P i) s is := by
  induction is generalizing s with
  | nil => trivial
  | cons i is ih =>
    rw [List.forall_mem_cons] at h
    exact ⟨h.1, ih h.2⟩

theorem along_append {step : σ → ι → σ} {P : σ → ι → Prop} {s : σ} {is js : List ι} :
    Along step P s (is ++ js) ↔ Along step P s is ∧ Along step P (exec step s is) js := by
  induction is generalizing s with
  | nil => exact (and_iff_right trivial).symm
  | cons i is ih =>
    rw [List.cons_append, exec_cons, Along, Along, ih, and_assoc]

/-- Every step of a run is the last one of a run that leads up to it. -/
theorem along_iff {step : σ → ι → σ} {P : σ → ι → Prop} {s : σ} {is : List ι} :
    Along step P s is ↔ ∀ pre i post, is = pre ++ i :: post → P (exec step s pre) i := by
  constructor
  · rintro h pre i post rfl
    exact (along_append.mp h).2.1
  · intro h
    induction is generalizing s with
    | nil => trivial
    | cons j is ih =>
      refine ⟨h [] j is rfl, ih ?_⟩
      intro pre i post heq
      exact h (j :: pre) i post (by rw [heq, List.cons_append])

/-- A run has a first step that does not meet `P`, or it has none. -/
theorem along_or_first (step : σ → ι → σ) (P : σ → ι → Prop) (s : σ) (is : List ι) :
    Along step P s is ∨
      ∃ pre i post, is = pre ++ i :: post ∧ Along step P s pre ∧ ¬ P (exec step s pre) i := by
  induction is generalizing s with
  | nil => exact .inl trivial
  | cons i is ih =>
    by_cases hi : P s i
    · rcases ih (step s i) with hall | ⟨pre, j, post, rfl, hpre, hj⟩
      · exact .inl ⟨hi, hall⟩
      · exact .inr ⟨i :: pre, j, post, rfl, ⟨hi, hpre⟩, hj⟩
    · exact .inr ⟨[], i, is, rfl, trivial, hi⟩

/-- A run has a last step that does not meet `P`, or it has none. -/
theorem along_or_last (step : σ → ι → σ) (P : σ → ι → Prop) (s : σ) (is : List ι) :
    Along step P s is ∨
      ∃ pre i post, is = pre ++ i :: post ∧ ¬ P (exec step s pre) i ∧
        Along step P (exec step s (pre ++ [i])) post := by
  induction is generalizing s with
  | nil => exact .inl trivial
  | cons i is ih =>
    rcases ih (step s i) with hall | ⟨pre, j, post, rfl, hj, hpost⟩
    · by_cases hi : P s i
      · exact .inl ⟨hi, hall⟩
      · exact .inr ⟨[], i, is, rfl, hi, hall⟩
    · exact .inr ⟨i :: pre, j, post, rfl, hj, hpost⟩

/-- **The invariant rule.**  What holds at the start, and is kept by each step
    that meets the condition `P`, holds at the end of every run whose steps all
    meet `P`. -/
theorem exec_invariant (step : σ → ι → σ) (P : σ → ι → Prop) (Inv : σ → Prop)
    (hstep : ∀ s i, Inv s → P s i → Inv (step s i)) {s : σ} (h0 : Inv s)
    {is : List ι} (hP : Along step P s is) : Inv (exec step s is) := by
  induction is generalizing s with
  | nil => exact h0
  | cons i is ih => exact ih (hstep s i h0 hP.1) hP.2

/-- The invariant rule for a condition on the inputs alone. -/
theorem exec_invariant_of_forall (step : σ → ι → σ) (P : ι → Prop) (Inv : σ → Prop)
    (hstep : ∀ s i, Inv s → P i → Inv (step s i)) {s : σ} (h0 : Inv s)
    {is : List ι} (hP : ∀ i ∈ is, P i) : Inv (exec step s is) :=
  exec_invariant step (fun _ i => P i) Inv hstep h0 (along_of_forall step hP)

/-- Where a step keeps the invariant exactly if it meets `P`, a run keeps it at
    all times exactly if all its steps meet `P`. -/
theorem along_iff_prefixes (step : σ → ι → σ) (P : σ → ι → Prop) (Inv : σ → Prop)
    (hstep : ∀ s i, Inv s → (Inv (step s i) ↔ P s i)) {s : σ} (h0 : Inv s) (is : List ι) :
    Along step P s is ↔ ∀ pre, pre <+: is → Inv (exec step s pre) := by
  constructor
  · rintro hP pre ⟨post, rfl⟩
    exact exec_invariant step P Inv (fun s i hs => (hstep s i hs).mpr) h0 (along_append.mp hP).1
  · intro hInv
    rw [along_iff]
    rintro pre i post rfl
    have hbefore := hInv pre (List.prefix_append pre (i :: post))
    have hafter := hInv (pre ++ [i]) ⟨post, by rw [List.append_assoc, List.singleton_append]⟩
    rw [exec_snoc] at hafter
    exact (hstep _ i hbefore).mp hafter

/-! ### What a run emits -/

/-- The outputs of the run, in order; `out s i` is what the step from `s` with
    the input `i` emits. -/
def emitted (step : σ → ι → σ) (out : σ → ι → List ο) : σ → List ι → List ο
  | _, [] => []
  | s, i :: is => out s i ++ emitted step out (step s i) is

@[simp] theorem emitted_nil (step : σ → ι → σ) (out : σ → ι → List ο) (s : σ) :
    emitted step out s [] = [] := rfl

@[simp] theorem emitted_cons (step : σ → ι → σ) (out : σ → ι → List ο) (s : σ)
    (i : ι) (is : List ι) :
    emitted step out s (i :: is) = out s i ++ emitted step out (step s i) is := rfl

theorem emitted_append (step : σ → ι → σ) (out : σ → ι → List ο) (s : σ)
    (is js : List ι) :
    emitted step out s (is ++ js) =
      emitted step out s is ++ emitted step out (exec step s is) js := by
  induction is generalizing s with
  | nil => rfl
  | cons i is ih =>
    rw [List.cons_append, emitted_cons, ih, emitted_cons, exec_cons, List.append_assoc]

/-- An output of a run is one of some step. -/
theorem emitted_eq_append_cons (step : σ → ι → σ) (out : σ → ι → List ο) {s : σ} {is : List ι}
    {before after : List ο} {o : ο} (h : emitted step out s is = before ++ o :: after) :
    ∃ pre i post front back, is = pre ++ i :: post ∧
      out (exec step s pre) i = front ++ o :: back ∧
      before = emitted step out s pre ++ front ∧
      after = back ++ emitted step out (exec step s (pre ++ [i])) post := by
  induction is generalizing s before with
  | nil => exact absurd h.symm (List.append_ne_nil_of_right_ne_nil _ (List.cons_ne_nil _ _))
  | cons j is ih =>
    rw [emitted_cons] at h
    rcases List.append_eq_append_iff.mp h with ⟨mid, hbefore, hrest⟩ | ⟨mid, hout, hrest⟩
    · obtain ⟨pre, i, post, front, back, rfl, hi, rfl, hafter⟩ := ih hrest
      exact ⟨j :: pre, i, post, front, back, rfl, hi, by
        rw [hbefore, emitted_cons, List.append_assoc], hafter⟩
    · cases mid with
      | nil =>
        rw [List.append_nil] at hout
        rw [List.nil_append] at hrest
        obtain ⟨pre, i, post, front, back, rfl, hi, hnil, hafter⟩ := @ih _ [] hrest.symm
        obtain ⟨hpre, rfl⟩ := List.append_eq_nil_iff.mp hnil.symm
        exact ⟨j :: pre, i, post, [], back, rfl, hi, by
          rw [emitted_cons, hpre, hout, List.append_nil, List.append_nil], hafter⟩
      | cons o' mid =>
        rw [List.cons_append] at hrest
        obtain ⟨rfl, rfl⟩ := List.cons.inj hrest
        exact ⟨[], j, is, before, mid, rfl, hout, rfl, rfl⟩

/-- Dropping outputs step by step is dropping them from the whole run. -/
theorem emitted_filter (step : σ → ι → σ) (out : σ → ι → List ο) (p : ο → Bool) (s : σ)
    (is : List ι) :
    emitted step (fun s i => (out s i).filter p) s is = (emitted step out s is).filter p := by
  induction is generalizing s with
  | nil => rfl
  | cons i is ih => rw [emitted_cons, ih, emitted_cons, List.filter_append]

/-- What is made of the outputs, step by step or at the end. -/
theorem emitted_filterMap {π : Type y} (step : σ → ι → σ) (out : σ → ι → List ο) (f : ο → Option π)
    (s : σ) (is : List ι) :
    (emitted step out s is).filterMap f =
      emitted step (fun s i => (out s i).filterMap f) s is := by
  induction is generalizing s with
  | nil => rfl
  | cons i is ih => rw [emitted_cons, List.filterMap_append, ih, emitted_cons]

/-- **The invariant rule with outputs**: what is kept by each step and by what it
    emits holds of the end of a run and of all that was emitted. -/
theorem emitted_invariant (step : σ → ι → σ) (out : σ → ι → List ο) (P : σ → ι → Prop)
    (Inv : σ → List ο → Prop)
    (hstep : ∀ s os i, Inv s os → P s i → Inv (step s i) (os ++ out s i))
    {s : σ} {os : List ο} (h0 : Inv s os) {is : List ι} (hP : Along step P s is) :
    Inv (exec step s is) (os ++ emitted step out s is) := by
  induction is generalizing s os with
  | nil =>
    rw [emitted_nil, List.append_nil]
    exact h0
  | cons i is ih =>
    rw [emitted_cons, ← List.append_assoc]
    exact ih (hstep s os i h0 hP.1) hP.2

/-- All outputs meet `G` exactly if those of each step do. -/
theorem forall_emitted_iff (step : σ → ι → σ) (out : σ → ι → List ο) (G : ο → Prop) {s : σ}
    {is : List ι} :
    (∀ o ∈ emitted step out s is, G o) ↔ Along step (fun s i => ∀ o ∈ out s i, G o) s is := by
  induction is generalizing s with
  | nil => exact iff_of_true (fun _ h => absurd h (List.not_mem_nil)) trivial
  | cons i is ih => rw [emitted_cons, List.forall_mem_append, ih, Along]

theorem along_congr {step : σ → ι → σ} {P Q : σ → ι → Prop} (h : ∀ s i, P s i ↔ Q s i) {s : σ}
    {is : List ι} : Along step P s is ↔ Along step Q s is :=
  ⟨Along.imp fun s i => (h s i).mp, Along.imp fun s i => (h s i).mpr⟩

/-- Two outputs that agree on each step of the run. -/
theorem emitted_congr (step : σ → ι → σ) {out out' : σ → ι → List ο} :
    ∀ {s : σ} {is : List ι}, Along step (fun s i => out s i = out' s i) s is →
      emitted step out s is = emitted step out' s is
  | _, [], _ => rfl
  | _, _ :: _, h => by
    rw [emitted_cons, emitted_cons, h.1, emitted_congr step h.2]

/-- Outputs in front of others are counted with them: if there are not more with
    them than without, there are none. -/
theorem along_of_length_le (step : σ → ι → σ) (pre out : σ → ι → List ο) {s : σ} {is : List ι}
    (h : (emitted step (fun s i => pre s i ++ out s i) s is).length ≤
      (emitted step out s is).length) : Along step (fun s i => pre s i = []) s is := by
  have hle : ∀ (is : List ι) (s : σ), (emitted step out s is).length ≤
      (emitted step (fun s i => pre s i ++ out s i) s is).length := by
    intro is
    induction is with
    | nil =>
      intro s
      exact Nat.le_refl _
    | cons i is ih =>
      intro s
      have hrest := ih (step s i)
      simp only [emitted_cons, List.length_append]
      omega
  induction is generalizing s with
  | nil => trivial
  | cons i is ih =>
    have hrest := hle is (step s i)
    simp only [emitted_cons, List.length_append] at h
    refine ⟨List.length_eq_zero_iff.mp (by omega), ih (by omega)⟩

/-! ### Simulation -/

/-- **The simulation rule.**  `abs i` is the list of abstract inputs that the
    concrete input `i` stands for.  If each concrete step is matched, from
    related states, by the abstract run over `abs i`, then each concrete run is
    matched by the abstract run over all of them. -/
theorem exec_simulation (step : σ → ι → σ) (astep : τ → κ → τ) (abs : ι → List κ)
    (R : σ → τ → Prop)
    (hstep : ∀ s t i, R s t → R (step s i) (exec astep t (abs i)))
    {s : σ} {t : τ} (h0 : R s t) (is : List ι) :
    R (exec step s is) (exec astep t (is.flatMap abs)) := by
  induction is generalizing s t with
  | nil => exact h0
  | cons i is ih =>
    rw [List.flatMap_cons, exec_append]
    exact ih (hstep s t i h0)

/-- The simulation rule for a condition on the inputs, each of which stands for one
    abstract input. -/
theorem exec_simulation_of_forall (step : σ → ι → σ) (astep : τ → κ → τ) (abs : ι → κ)
    (P : ι → Prop) (R : σ → τ → Prop)
    (hstep : ∀ s t i, R s t → P i → R (step s i) (astep t (abs i)))
    {s : σ} {t : τ} (h0 : R s t) {is : List ι} (hP : ∀ i ∈ is, P i) :
    R (exec step s is) (exec astep t (is.map abs)) := by
  induction is generalizing s t with
  | nil => exact h0
  | cons i is ih =>
    exact ih (hstep s t i h0 (hP i List.mem_cons_self))
      fun j hj => hP j (List.mem_cons_of_mem i hj)

/-- The simulation rule for outputs: related runs emit the same, when matched
    steps do. -/
theorem emitted_simulation (step : σ → ι → σ) (out : σ → ι → List ο)
    (astep : τ → κ → τ) (aout : τ → κ → List ο) (abs : ι → List κ) (R : σ → τ → Prop)
    (hstep : ∀ s t i, R s t → R (step s i) (exec astep t (abs i)))
    (hout : ∀ s t i, R s t → out s i = emitted astep aout t (abs i))
    {s : σ} {t : τ} (h0 : R s t) (is : List ι) :
    emitted step out s is = emitted astep aout t (is.flatMap abs) := by
  induction is generalizing s t with
  | nil => rfl
  | cons i is ih =>
    rw [List.flatMap_cons, emitted_append, emitted_cons, hout s t i h0]
    rw [ih (hstep s t i h0)]

/-- **The refinement rule.**  Where each step is matched by the abstract run over
    what it emits, a run is matched by the abstract run over all it emits. -/
theorem exec_refinement (step : σ → ι → σ) (astep : τ → κ → τ) (out : σ → ι → List κ)
    (abs : σ → τ) (Inv : σ → Prop) (P : σ → ι → Prop)
    (hinv : ∀ s i, Inv s → P s i → Inv (step s i))
    (hstep : ∀ s i, Inv s → P s i → abs (step s i) = exec astep (abs s) (out s i))
    {s : σ} (h0 : Inv s) {is : List ι} (hP : Along step P s is) :
    abs (exec step s is) = exec astep (abs s) (emitted step out s is) := by
  induction is generalizing s with
  | nil => rfl
  | cons i is ih =>
    rw [exec_cons, ih (hinv s i h0 hP.1) hP.2, hstep s i h0 hP.1, emitted_cons, exec_append]

end Runs
