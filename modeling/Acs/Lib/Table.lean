/-
  Acs/Lib/Table.lean
  ==================
  **Getting one row of a table.**

  A table is a list of rows in whatever order the database gives them.  `get`
  asks for the one row that meets a condition, and fails when there is none or
  more than one.  `lookup` is for a column whose values are distinct: it gives
  the row with a value, if there is one.
-/
import Mathlib.Data.List.Nodup
import Mathlib.Data.List.Perm.Basic

namespace Table

universe u

variable {α : Type u}

inductive GetError where
  | doesNotExist
  | multipleObjectsReturned
deriving DecidableEq, Repr

/-- The only row that meets `p`. -/
def get (p : α → Bool) (rows : List α) : Except GetError α :=
  match rows.filter p with
  | [] => .error .doesNotExist
  | [row] => .ok row
  | _ :: _ :: _ => .error .multipleObjectsReturned

theorem get_eq_ok_iff {p : α → Bool} {rows : List α} {row : α} :
    get p rows = .ok row ↔ rows.filter p = [row] := by
  rw [get]
  split
  next h => simp [h]
  next found h => simp [h]
  next h => simp [h]

theorem mem_of_get {p : α → Bool} {rows : List α} {row : α} (h : get p rows = .ok row) :
    row ∈ rows ∧ p row = true := by
  have hmem : row ∈ rows.filter p := by simp [get_eq_ok_iff.mp h]
  exact List.mem_filter.mp hmem

/-- Getting a row by a column that is kept by `f`. -/
theorem get_map {β : Type u} (f : α → β) (p : β → Bool) (rows : List α) :
    get p (rows.map f) = (get (p ∘ f) rows).map f := by
  rw [get, get, List.filter_map]
  match rows.filter (p ∘ f) with
  | [] => rfl
  | [_] => rfl
  | _ :: _ :: _ => rfl

/-- **Where a condition singles out a row**, `get` finds it and nothing else. -/
theorem get_eq_ok_iff_of_unique {p : α → Bool} {rows : List α} (hnodup : rows.Nodup)
    (hunique : ∀ a ∈ rows, ∀ b ∈ rows, p a = true → p b = true → a = b) {row : α} :
    get p rows = .ok row ↔ row ∈ rows ∧ p row = true := by
  constructor
  · exact mem_of_get
  rintro ⟨hmem, hp⟩
  rw [get_eq_ok_iff]
  have hin : row ∈ rows.filter p := List.mem_filter.mpr ⟨hmem, hp⟩
  have hall : ∀ a ∈ rows.filter p, a = row := by
    intro a ha
    rcases List.mem_filter.mp ha with ⟨ha, hpa⟩
    exact hunique a ha row hmem hpa hp
  have hperm : (rows.filter p).Perm [row] := by
    apply (List.perm_ext_iff_of_nodup (hnodup.filter p) (List.nodup_singleton row)).mpr
    intro a
    rw [List.mem_singleton]
    constructor
    · exact hall a
    · rintro rfl
      exact hin
  exact hperm.eq_singleton

/-- A condition that singles out a row finds it, or there is none. -/
theorem get_cases_of_unique {p : α → Bool} {rows : List α} (hnodup : rows.Nodup)
    (hunique : ∀ a ∈ rows, ∀ b ∈ rows, p a = true → p b = true → a = b) :
    (∃ row ∈ rows, p row = true ∧ get p rows = .ok row) ∨
      ((∀ row ∈ rows, p row ≠ true) ∧ get p rows = .error .doesNotExist) := by
  by_cases hfound : ∃ row ∈ rows, p row = true
  · rcases hfound with ⟨row, hmem, hp⟩
    exact .inl ⟨row, hmem, hp, (get_eq_ok_iff_of_unique hnodup hunique).mpr ⟨hmem, hp⟩⟩
  · have hnone : ∀ row ∈ rows, p row ≠ true := fun row hmem hp => hfound ⟨row, hmem, hp⟩
    rw [get, List.filter_eq_nil_iff.mpr hnone]
    exact .inr ⟨hnone, rfl⟩

/-! ### Rows by a key -/

section Key

universe v

variable {κ : Type v} [DecidableEq κ] (key : α → κ)

def lookup (rows : List α) (k : κ) : Option α := rows.find? fun row => key row == k

variable {key} {rows : List α}

theorem lookup_eq_none_iff {k : κ} : lookup key rows k = none ↔ ∀ row ∈ rows, key row ≠ k := by
  simp [lookup]

theorem mem_of_lookup {k : κ} {row : α} (h : lookup key rows k = some row) :
    row ∈ rows ∧ key row = k := by
  unfold lookup at h
  have hk := List.find?_some (p := fun row => key row == k) h
  exact ⟨List.mem_of_find?_eq_some h, beq_iff_eq.mp hk⟩

variable (hkeys : (rows.map key).Nodup)

include hkeys

theorem lookup_eq_some_iff {k : κ} {row : α} :
    lookup key rows k = some row ↔ row ∈ rows ∧ key row = k := by
  constructor
  · exact mem_of_lookup
  · rintro ⟨hmem, hk⟩
    cases hfound : lookup key rows k with
    | none => exact absurd hk (lookup_eq_none_iff.mp hfound row hmem)
    | some found =>
      obtain ⟨hfoundmem, hfoundk⟩ := mem_of_lookup hfound
      exact congrArg some (List.inj_on_of_nodup_map hkeys hfoundmem hmem (hfoundk.trans hk.symm))

/-- `get` by a key is `lookup`, and never finds more than one row. -/
theorem get_key (k : κ) :
    get (fun row => key row == k) rows =
      match lookup key rows k with
      | none => .error .doesNotExist
      | some row => .ok row := by
  cases hfound : lookup key rows k with
  | none =>
    have hnone : rows.filter (fun row => key row == k) = [] := by
      rw [List.filter_eq_nil_iff]
      intro row hrow
      exact mt beq_iff_eq.mp (lookup_eq_none_iff.mp hfound row hrow)
    rw [get, hnone]
  | some found =>
    apply (get_eq_ok_iff_of_unique hkeys.of_map _).mpr
    · obtain ⟨hmem, hk⟩ := mem_of_lookup hfound
      exact ⟨hmem, beq_iff_eq.mpr hk⟩
    · intro a ha b hb hka hkb
      exact List.inj_on_of_nodup_map hkeys ha hb
        ((beq_iff_eq.mp hka).trans (beq_iff_eq.mp hkb).symm)

theorem get_key_eq_ok_iff {k : κ} {row : α} :
    get (fun row => key row == k) rows = .ok row ↔ row ∈ rows ∧ key row = k := by
  rw [get_key hkeys, ← lookup_eq_some_iff hkeys]
  cases lookup key rows k <;> simp

end Key

end Table
