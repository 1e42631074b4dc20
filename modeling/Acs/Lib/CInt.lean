/-
  Acs/Lib/CInt.lean
  =================
  **Signed 32-bit arithmetic, and what goes wrong in it.**

  An `int` is an `Int` in the range `Fits`.  An operation that leaves the range
  comes back into it modulo `2 ^ 32` (`wrap`), as on the usual machines; the
  language gives it no meaning, so a `Checked` computation keeps the fault with
  the value.  A computation is safe when it has met no fault.
-/
import Mathlib.Data.Int.Order.Basic

namespace CInt

/-! ### The range -/

def Fits (n : Int) : Prop := -2147483648 ≤ n ∧ n < 2147483648

instance (n : Int) : Decidable (Fits n) := inferInstanceAs (Decidable (_ ∧ _))

def wrap (n : Int) : Int := (n + 2147483648) % 4294967296 - 2147483648

theorem fits_wrap (n : Int) : Fits (wrap n) := by
  constructor <;> rw [wrap] <;> omega

theorem wrap_eq_self {n : Int} (h : Fits n) : wrap n = n := by
  obtain ⟨hlow, hhigh⟩ := h
  rw [wrap]
  omega

/-- Just above the range the values start again at its lower end. -/
theorem wrap_of_ge {n : Int} (hlow : 2147483648 ≤ n) (hhigh : n < 4294967296) :
    wrap n = n - 4294967296 := by
  rw [wrap]
  omega

/-- Only the value modulo `2 ^ 32` counts. -/
theorem wrap_add_mul (n k : Int) : wrap (n + 4294967296 * k) = wrap n := by
  rw [wrap, wrap, Int.add_right_comm, Int.add_mul_emod_self_left]

theorem exists_wrap (n : Int) : ∃ k, wrap n = n + 4294967296 * k := by
  refine ⟨-((n + 2147483648) / 4294967296), ?_⟩
  have h := Int.emod_add_mul_ediv (n + 2147483648) 4294967296
  rw [wrap]
  omega

theorem wrap_wrap_add (m n : Int) : wrap (wrap m + n) = wrap (m + n) := by
  obtain ⟨k, hk⟩ := exists_wrap m
  rw [hk, Int.add_right_comm, wrap_add_mul]

theorem wrap_wrap_mul_add (m n l : Int) : wrap (wrap m * n + l) = wrap (m * n + l) := by
  obtain ⟨k, hk⟩ := exists_wrap m
  rw [hk, Int.add_mul, Int.mul_assoc, Int.add_right_comm, wrap_add_mul]

/-! ### Computations that may fault -/

inductive Fault where
  | overflow
  | divisionByZero
deriving DecidableEq, Repr

/-- A value, with the faults on the way to it, and notes that the computation
    has made of its own. -/
structure Checked (ν α : Type) where
  value : α
  faults : List Fault := []
  notes : List ν := []

namespace Checked

variable {ν α β : Type}

instance : Monad (Checked ν) where
  pure a := { value := a }
  bind x f :=
    { value := (f x.value).value
      faults := x.faults ++ (f x.value).faults
      notes := x.notes ++ (f x.value).notes }

def note (n : ν) : Checked ν Unit := { value := (), notes := [n] }

def Safe (x : Checked ν α) : Prop := x.faults = []

instance (x : Checked ν α) : Decidable x.Safe := inferInstanceAs (Decidable (_ = _))

@[simp] theorem value_pure (a : α) : (pure a : Checked ν α).value = a := rfl

@[simp] theorem value_bind (x : Checked ν α) (f : α → Checked ν β) :
    (x >>= f).value = (f x.value).value := rfl

@[simp] theorem notes_pure (a : α) : (pure a : Checked ν α).notes = [] := rfl

@[simp] theorem notes_bind (x : Checked ν α) (f : α → Checked ν β) :
    (x >>= f).notes = x.notes ++ (f x.value).notes := rfl

@[simp] theorem safe_pure (a : α) : (pure a : Checked ν α).Safe := rfl

@[simp] theorem safe_note (n : ν) : (note n).Safe := rfl

theorem safe_bind {x : Checked ν α} {f : α → Checked ν β} :
    (x >>= f).Safe ↔ x.Safe ∧ (f x.value).Safe :=
  List.append_eq_nil_iff

end Checked

/-! ### The operations -/

variable {ν : Type}

/-- The result of an operation whose exact value is `n`. -/
def result (n : Int) : Checked ν Int :=
  { value := wrap n, faults := if Fits n then [] else [.overflow] }

/-- Division truncates; by zero it has no value. -/
def div (m n : Int) : Checked ν Int :=
  if n = 0 then { value := 0, faults := [.divisionByZero] } else result (m.tdiv n)

@[simp] theorem value_result (n : Int) : (result n : Checked ν Int).value = wrap n := rfl

@[simp] theorem notes_result (n : Int) : (result n : Checked ν Int).notes = [] := rfl

theorem safe_result {n : Int} : (result n : Checked ν Int).Safe ↔ Fits n := by
  rw [Checked.Safe, result]
  split
  next h => exact iff_of_true rfl h
  next h => exact iff_of_false (List.cons_ne_nil _ _) h

theorem safe_div {m n : Int} : (div m n : Checked ν Int).Safe ↔ n ≠ 0 ∧ Fits (m.tdiv n) := by
  rw [div]
  split
  next h => exact iff_of_false (List.cons_ne_nil _ _) fun hne => hne.1 h
  next h => rw [safe_result, and_iff_right h]

end CInt
