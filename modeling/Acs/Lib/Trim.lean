/-
  Acs/Lib/Trim.lean
  =================
  **Lists without what stands at their ends.**

  `trim p` takes off the elements at both ends that meet `p`.  What is left is
  the longest contiguous part of the list that neither starts nor ends with such
  an element, and the only one of its length (`isTrimmed_iff`).
-/
import Mathlib.Data.List.DropRight

namespace Trim

universe u

variable {α : Type u} (p : α → Bool)

def trim (l : List α) : List α := (l.dropWhile p).rdropWhile p

/-- No element that meets `p` stands at an end. -/
structure Bare (l : List α) : Prop where
  head : ∀ x ∈ l.head?, p x = false
  last : ∀ x ∈ l.getLast?, p x = false

/-- `t` is a longest part of `l` with bare ends. -/
structure IsTrimmed (l t : List α) : Prop where
  part : t <:+: l
  bare : Bare p t
  longest : ∀ t', t' <:+: l → Bare p t' → t'.length ≤ t.length

variable {p} {l t : List α}

/-! ### One end -/

theorem head_dropWhile : ∀ x ∈ (l.dropWhile p).head?, p x = false := by
  intro x hx
  have hhead := List.head?_dropWhile_not p l
  rw [Option.mem_def.mp hx] at hhead
  simpa using hhead

theorem takeWhile_of_head (h : ∀ x ∈ l.head?, p x = false) : l.takeWhile p = [] := by
  cases l with
  | nil => rfl
  | cons x l => exact List.takeWhile_cons_of_neg (by simp [h x rfl])

theorem dropWhile_of_head (h : ∀ x ∈ l.head?, p x = false) : l.dropWhile p = l := by
  cases l with
  | nil => rfl
  | cons x l => exact List.dropWhile_cons_of_neg (by simp [h x rfl])

/-- A part that starts with another element is not touched. -/
theorem infix_dropWhile (hpart : t <:+: l) (hhead : ∀ x ∈ t.head?, p x = false) :
    t <:+: l.dropWhile p := by
  induction l with
  | nil => exact hpart
  | cons x l ih =>
    rw [List.dropWhile_cons]
    split
    next hx =>
      rcases List.infix_cons_iff.mp hpart with hprefix | hrest
      · cases t with
        | nil => exact List.nil_infix
        | cons y t =>
          obtain ⟨rfl, _⟩ := List.cons_prefix_cons.mp hprefix
          cases hx.symm.trans (hhead y rfl)
      · exact ih hrest
    next => exact hpart

theorem infix_rdropWhile (hpart : t <:+: l) (hlast : ∀ x ∈ t.getLast?, p x = false) :
    t <:+: l.rdropWhile p := by
  rw [List.rdropWhile, ← List.reverse_infix, List.reverse_reverse]
  apply infix_dropWhile (List.reverse_infix.mpr hpart)
  rw [List.head?_reverse]
  exact hlast

/-- An element in front of what stays, stays. -/
theorem rdropWhile_cons {x : α} (h : l.rdropWhile p ≠ []) :
    (x :: l).rdropWhile p = x :: l.rdropWhile p := by
  have hne : (l.reverse.dropWhile p).isEmpty = false := by
    rw [List.isEmpty_eq_false_iff]
    exact fun hnil => h (by rw [List.rdropWhile, hnil, List.reverse_nil])
  rw [List.rdropWhile, List.reverse_cons, List.dropWhile_append, hne, List.rdropWhile]
  simp

/-! ### Both ends -/

theorem trim_part : trim p l <:+: l :=
  ((List.rdropWhile_prefix p _).isInfix).trans (List.dropWhile_suffix p).isInfix

theorem infix_trim (hpart : t <:+: l) (hbare : Bare p t) : t <:+: trim p l :=
  infix_rdropWhile (infix_dropWhile hpart hbare.head) hbare.last

theorem bare_trim : Bare p (trim p l) where
  head := by
    intro x hx
    rw [trim] at hx
    obtain ⟨rest, hrest⟩ := List.rdropWhile_prefix p (l.dropWhile p)
    apply head_dropWhile (l := l)
    rw [← hrest, List.head?_append, Option.mem_def.mp hx]
    rfl
  last := by
    intro x hx
    rw [trim] at hx
    obtain ⟨hne, rfl⟩ := List.mem_getLast?_eq_getLast hx
    simpa using List.rdropWhile_last_not p (l.dropWhile p) hne

/-- **The longest part** with bare ends is the trimmed list, and nothing else. -/
theorem isTrimmed_iff : IsTrimmed p l t ↔ t = trim p l := by
  constructor
  · intro h
    have hpart := infix_trim h.part h.bare
    exact hpart.sublist.eq_of_length_le (h.longest _ trim_part bare_trim)
  · rintro rfl
    exact ⟨trim_part, bare_trim, fun t' hpart hbare => (infix_trim hpart hbare).length_le⟩

end Trim
