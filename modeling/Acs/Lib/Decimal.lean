/-
  Acs/Lib/Decimal.lean
  ====================
  **Decimal fields read into an `int`.**

  The usual loop `value = value*10 + c - '0'` runs over the digits at the front
  of a text and does not look at how many there are.  Its result is the number
  modulo `2 ^ 32` (`value_accumulate`); no operation of it overflows exactly if the
  number stays below the range by as much as the code of `'0'`
  (`safe_accumulate`).
-/
import Acs.Lib.CInt
import Mathlib.Algebra.Order.Ring.Int
import Mathlib.Tactic.Ring

namespace Decimal

open CInt

/-! ### Digits and the number they spell -/

/-- `isdigit` of the C locale. -/
def isdigit (c : UInt8) : Bool := 48 ≤ c && c ≤ 57

def digitValue (c : UInt8) : Nat := c.toNat - 48

/-- The number a text of digits spells. -/
def number : List UInt8 → Nat
  | [] => 0
  | c :: ds => digitValue c * 10 ^ ds.length + number ds

/-- The digits at the front of `s`. -/
def leading (s : List UInt8) : List UInt8 := s.takeWhile isdigit

/-- What comes behind them. -/
def after (s : List UInt8) : List UInt8 := s.dropWhile isdigit

theorem toNat_of_isdigit {c : UInt8} (h : isdigit c = true) :
    48 ≤ c.toNat ∧ c.toNat ≤ 57 := by
  rw [isdigit, Bool.and_eq_true, decide_eq_true_eq, decide_eq_true_eq] at h
  exact ⟨UInt8.le_iff_toNat_le.mp h.1, UInt8.le_iff_toNat_le.mp h.2⟩

theorem digitValue_cast {c : UInt8} (h : isdigit c = true) :
    (digitValue c : Int) = c.toNat - 48 := by
  have hc := toNat_of_isdigit h
  rw [digitValue]
  omega

theorem digitValue_le {c : UInt8} (h : isdigit c = true) : digitValue c ≤ 9 := by
  have hc := toNat_of_isdigit h
  rw [digitValue]
  omega

theorem isdigit_of_mem_leading {s : List UInt8} {c : UInt8} (h : c ∈ leading s) :
    isdigit c = true :=
  List.all_eq_true.mp List.all_takeWhile c h

theorem leading_append_after (s : List UInt8) : leading s ++ after s = s :=
  List.takeWhile_append_dropWhile

theorem length_after_le (s : List UInt8) : (after s).length ≤ s.length := by
  have h := congrArg List.length (leading_append_after s)
  rw [List.length_append] at h
  omega

/-- A run of digits up to something else. -/
theorem leading_append {ds rest : List UInt8} (hds : ∀ c ∈ ds, isdigit c = true)
    (hrest : ∀ c ∈ rest.head?, isdigit c = false) :
    leading (ds ++ rest) = ds ∧ after (ds ++ rest) = rest := by
  induction ds with
  | nil =>
    cases rest with
    | nil => exact ⟨rfl, rfl⟩
    | cons c rest =>
      have hc := hrest c rfl
      exact ⟨by simp [leading, hc], by simp [after, hc]⟩
  | cons c ds ih =>
    rw [List.forall_mem_cons] at hds
    obtain ⟨hleading, hafter⟩ := ih hds.2
    constructor
    · rw [List.cons_append, leading, List.takeWhile_cons_of_pos hds.1]
      exact congrArg (c :: ·) hleading
    · rw [List.cons_append, after, List.dropWhile_cons_of_pos hds.1]
      exact hafter

/-- `ds` is a field with the value `n`. -/
structure Spells (ds : List UInt8) (n : Nat) : Prop where
  nonempty : ds ≠ []
  digits : ∀ c ∈ ds, isdigit c = true
  value : number ds = n

/-- Every field of `s` has a value that an `int` can hold. -/
def FieldsFit (s : List UInt8) : Prop :=
  ∀ ds n, Spells ds n → ds <:+: s → n < 2147483648

theorem FieldsFit.of_suffix {s t : List UInt8} (h : FieldsFit s) (ht : t <:+ s) : FieldsFit t :=
  fun ds n hspells hin => h ds n hspells (hin.trans ht.isInfix)

theorem number_lt {ds : List UInt8} (hds : ∀ c ∈ ds, isdigit c = true) :
    number ds < 10 ^ ds.length := by
  induction ds with
  | nil => exact Nat.one_pos
  | cons c ds ih =>
    rw [List.forall_mem_cons] at hds
    have hrest := ih hds.2
    have hfirst : digitValue c * 10 ^ ds.length ≤ 9 * 10 ^ ds.length :=
      Nat.mul_le_mul_right _ (digitValue_le hds.1)
    rw [number, List.length_cons, Nat.pow_succ]
    omega

/-- Nine digits always fit. -/
theorem fieldsFit_of_length {s : List UInt8} (h : s.length ≤ 9) : FieldsFit s := by
  intro ds n hds hin
  have hlt := number_lt hds.digits
  have hpow : 10 ^ ds.length ≤ 10 ^ 9 :=
    Nat.pow_le_pow_right (by decide) (hin.length_le.trans h)
  rw [hds.value] at hlt
  omega

theorem after_suffix (s : List UInt8) : after s <:+ s := List.dropWhile_suffix _

theorem spells_leading {s : List UInt8} (h : leading s ≠ []) :
    Spells (leading s) (number (leading s)) where
  nonempty := h
  digits := fun _ => isdigit_of_mem_leading
  value := rfl

/-! ### The loop -/

variable {ν : Type}

/-- `value = value*10 + c - '0'` for each digit. -/
def accumulate : Int → List UInt8 → Checked ν Int
  | value, [] => pure value
  | value, c :: ds => do
    let product ← result (value * 10)
    let sum ← result (product + c.toNat)
    let value ← result (sum - 48)
    accumulate value ds

theorem value_accumulate {v : Int} (hv : Fits v) {ds : List UInt8}
    (hds : ∀ c ∈ ds, isdigit c = true) :
    (accumulate v ds : Checked ν Int).value = wrap (v * 10 ^ ds.length + number ds) := by
  induction ds generalizing v with
  | nil =>
    rw [accumulate, Checked.value_pure, List.length_nil, number, pow_zero, mul_one,
      Nat.cast_zero, add_zero, wrap_eq_self hv]
  | cons c ds ih =>
    rw [List.forall_mem_cons] at hds
    have hdigit := digitValue_cast hds.1
    have hstep : wrap (wrap (wrap (v * 10) + c.toNat) - 48) = wrap (v * 10 + digitValue c) := by
      rw [hdigit, Int.sub_eq_add_neg, wrap_wrap_add, Int.add_assoc, wrap_wrap_add]
      congr 1
    simp only [accumulate, Checked.value_bind, value_result, hstep]
    rw [ih (fits_wrap _) hds.2, wrap_wrap_mul_add, number, List.length_cons]
    congr 1
    push_cast
    ring

/-- The digits are read without overflow exactly if the number stays below the
    range by 48, the code of `'0'`. -/
theorem safe_accumulate {v : Int} (h0 : 0 ≤ v) (hv : v < 2147483600) {ds : List UInt8}
    (hds : ∀ c ∈ ds, isdigit c = true) :
    (accumulate v ds : Checked ν Int).Safe ↔ v * 10 ^ ds.length + number ds < 2147483600 := by
  induction ds generalizing v with
  | nil =>
    rw [accumulate, List.length_nil, number, pow_zero, mul_one, Nat.cast_zero, add_zero]
    exact iff_of_true (Checked.safe_pure v) hv
  | cons c ds ih =>
    rw [List.forall_mem_cons] at hds
    have hc := toNat_of_isdigit hds.1
    have hdigit := digitValue_cast hds.1
    have hsplit : v * 10 ^ (c :: ds).length + (number (c :: ds) : Int) =
        (v * 10 + digitValue c) * 10 ^ ds.length + number ds := by
      rw [number, List.length_cons]
      push_cast
      ring
    rw [hsplit]
    simp only [accumulate, Checked.safe_bind, safe_result, value_result]
    by_cases hstep : v * 10 + digitValue c < 2147483600
    case pos =>
      have h1 : Fits (v * 10) := by constructor <;> omega
      have h2 : Fits (v * 10 + c.toNat) := by constructor <;> omega
      have h3 : Fits (v * 10 + c.toNat - 48) := by constructor <;> omega
      have hnext : v * 10 + (c.toNat : Int) - 48 = v * 10 + digitValue c := by omega
      rw [wrap_eq_self h1, wrap_eq_self h2, wrap_eq_self h3, hnext]
      rw [ih (by omega) hstep hds.2]
      constructor
      · exact fun h => h.2.2.2
      · exact fun h => ⟨h1, h2, hnext ▸ h3, h⟩
    case neg =>
      -- the digits that follow only make the number larger
      have hpow : (1 : Int) ≤ 10 ^ ds.length := one_le_pow₀ (by norm_num)
      have hlarge : v * 10 + (digitValue c : Int) ≤
          (v * 10 + digitValue c) * 10 ^ ds.length := le_mul_of_one_le_right (by omega) hpow
      refine iff_of_false ?_ (by omega)
      rintro ⟨h1, h2, -⟩
      rw [wrap_eq_self h1] at h2
      have := h2.2
      omega

/-! ### Reading a field -/

/-- A field that has been read, and the value that is used for it. -/
structure Field where
  digits : List UInt8
  value : Int
deriving DecidableEq, Repr

def Field.Exact (f : Field) : Prop := f.value = number f.digits

instance (f : Field) : Decidable f.Exact := inferInstanceAs (Decidable (_ = _))

/-- `value = 0`, and the loop over the digits at the front of `s`. -/
def read (s : List UInt8) : Checked Field Int := do
  let value ← accumulate 0 (leading s)
  Checked.note { digits := leading s, value }
  pure value

theorem value_read (s : List UInt8) : (read s).value = wrap (number (leading s)) := by
  have h := value_accumulate (ν := Field) (v := 0) (by decide)
    (fun _ => isdigit_of_mem_leading (s := s))
  rw [zero_mul, zero_add] at h
  exact h

theorem safe_read (s : List UInt8) : (read s).Safe ↔ number (leading s) < 2147483600 := by
  have h := safe_accumulate (ν := Field) (Int.le_refl 0) (by decide)
    (fun _ => isdigit_of_mem_leading (s := s))
  rw [zero_mul, zero_add] at h
  rw [read, Checked.safe_bind, Checked.safe_bind, h]
  simp only [Checked.safe_note, Checked.safe_pure, and_true]
  omega

theorem notes_accumulate (v : Int) (ds : List UInt8) :
    (accumulate v ds : Checked ν Int).notes = [] := by
  induction ds generalizing v with
  | nil => rfl
  | cons c ds ih =>
    rw [accumulate]
    simp only [Checked.notes_bind, notes_result, ih, List.append_nil]

theorem notes_read (s : List UInt8) :
    (read s).notes = [{ digits := leading s, value := (read s).value }] := by
  rw [read, Checked.notes_bind, notes_accumulate]
  rfl

/-! ### Fields are read exactly, or there is a fault -/

section Faithful

variable {α β : Type}

def Faithful (x : Checked Field α) : Prop := x.Safe → ∀ f ∈ x.notes, f.Exact

theorem faithful_of_notes {x : Checked Field α} (h : x.notes = []) : Faithful x := by
  intro _ f hf
  rw [h] at hf
  exact absurd hf List.not_mem_nil

theorem faithful_pure (a : α) : Faithful (pure a) := faithful_of_notes rfl

theorem faithful_result (n : Int) : Faithful (result n) := faithful_of_notes rfl

theorem faithful_read (s : List UInt8) : Faithful (read s) := by
  intro hsafe f hf
  rw [notes_read, List.mem_singleton] at hf
  have hlt := (safe_read s).mp hsafe
  rw [hf, Field.Exact, value_read, wrap_eq_self]
  constructor <;> omega

theorem faithful_bind {x : Checked Field α} {f : α → Checked Field β} (hx : Faithful x)
    (hf : Faithful (f x.value)) : Faithful (x >>= f) := by
  intro hsafe n hn
  obtain ⟨hx', hf'⟩ := Checked.safe_bind.mp hsafe
  rw [Checked.notes_bind, List.mem_append] at hn
  rcases hn with hn | hn
  · exact hx hx' n hn
  · exact hf hf' n hn

end Faithful

end Decimal
