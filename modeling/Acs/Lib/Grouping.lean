/-
  Acs/Lib/Grouping.lean
  =====================
  **Consecutive groups of a list, each filled as far as it goes.**

  The items of a list are put into groups in order.  `fits` says which groups
  are allowed; it is passed on from a group to every stretch of it
  (`Hereditary`).  The loop `next` adds the next item to the current group where
  that fits, and closes the group where it does not.

  The loop ends exactly if each item fits in a group of its own (`ends_groups`,
  `not_ends`), and it ends with `groups`, which loses nothing and has the least
  possible number of groups (`isLeast_groups`).
-/
import Acs.Lib.Loop
import Mathlib.Data.List.Infix
import Mathlib.Order.Bounds.Defs

namespace Grouping

universe u

variable {α : Type u}

/-- Whether a group fits is inherited by its stretches. -/
def Hereditary (fits : List α → Prop) : Prop := ∀ xs ys, xs <:+: ys → fits ys → fits xs

/-- `xs` can be divided into at most `n` consecutive groups that fit. -/
def Divides (fits : List α → Prop) (xs : List α) (n : Nat) : Prop :=
  ∃ gs : List (List α), gs.flatten = xs ∧ gs.length ≤ n ∧ ∀ g ∈ gs, fits g

/-! ### The loop -/

structure State (α : Type u) where
  rest : List α
  current : List α
  closed : List (List α)

def next (fits : List α → Prop) [DecidablePred fits] : State α → Option (State α)
  | ⟨[], _, _⟩ => none
  | ⟨x :: xs, current, closed⟩ =>
      if fits (current ++ [x]) then some ⟨xs, current ++ [x], closed⟩
      else some ⟨x :: xs, [], closed ++ [current]⟩

/-- A last group, unless it is empty. -/
def flush : List α → List (List α)
  | [] => []
  | x :: xs => [x :: xs]

/-- The groups at the end of the loop. -/
def State.result (s : State α) : List (List α) := s.closed ++ flush s.current

/-- The groups of `xs`, when `current` has been begun. -/
def groups (fits : List α → Prop) [DecidablePred fits] (current : List α) :
    List α → List (List α)
  | [] => flush current
  | x :: xs =>
      if fits (current ++ [x]) then groups fits (current ++ [x]) xs
      else current :: groups fits [x] xs

theorem flatten_flush (g : List α) : (flush g).flatten = g := by
  cases g with
  | nil => rfl
  | cons x xs => rw [flush, List.flatten_singleton]

variable {fits : List α → Prop} [DecidablePred fits] {current xs : List α}

/-- Each item that fits in a group of its own is taken after at most two turns. -/
theorem ends_groups (current : List α) (hfits : ∀ x ∈ xs, fits [x]) (closed : List (List α)) :
    ∃ s, Loops.Ends (next fits) ⟨xs, current, closed⟩ s ∧ s.rest = [] ∧
      s.result = closed ++ groups fits current xs := by
  induction xs generalizing current closed with
  | nil => exact ⟨⟨[], current, closed⟩, Loops.ends_of_none rfl, rfl, rfl⟩
  | cons x xs ih =>
    obtain ⟨hx, hxs⟩ := List.forall_mem_cons.mp hfits
    rw [groups]
    by_cases h : fits (current ++ [x])
    · obtain ⟨s, hs, hrest, hresult⟩ := ih (current ++ [x]) hxs closed
      refine ⟨s, .of_some (by rw [next, if_pos h]) hs, hrest, ?_⟩
      rw [hresult, if_pos h]
    · obtain ⟨s, hs, hrest, hresult⟩ := ih [x] hxs (closed ++ [current])
      have hagain : next fits ⟨x :: xs, [], closed ++ [current]⟩ =
          some ⟨xs, [x], closed ++ [current]⟩ := by
        rw [next, List.nil_append, if_pos hx]
      refine ⟨s, .of_some (by rw [next, if_neg h]) (.of_some hagain hs), hrest, ?_⟩
      rw [hresult, if_neg h, List.append_assoc, List.singleton_append]

/-- An item that fits in no group is never taken. -/
theorem not_ends (hher : Hereditary fits) {s t : State α} (hs : ∃ x ∈ s.rest, ¬ fits [x]) :
    ¬ Loops.Ends (next fits) s t := by
  apply Loops.not_ends_of_invariant (fun s : State α => ∃ x ∈ s.rest, ¬ fits [x]) _ hs
  rintro ⟨rest, current, closed⟩ ⟨x, hx, hnot⟩
  cases rest with
  | nil => cases hx
  | cons y ys =>
    rw [next]
    by_cases h : fits (current ++ [y])
    · have hy : fits [y] := hher _ _ (List.suffix_append current [y]).isInfix h
      have hmem : x ∈ ys := by
        rcases List.mem_cons.mp hx with rfl | hmem
        · exact absurd hy hnot
        · exact hmem
      exact ⟨_, if_pos h, x, hmem, hnot⟩
    · exact ⟨_, if_neg h, x, hx, hnot⟩

/-! ### What the groups are -/

/-- Nothing is lost, nothing is moved. -/
theorem flatten_groups (current xs : List α) :
    (groups fits current xs).flatten = current ++ xs := by
  induction xs generalizing current with
  | nil => rw [groups, flatten_flush, List.append_nil]
  | cons x xs ih =>
    rw [groups]
    by_cases h : fits (current ++ [x])
    · rw [if_pos h, ih, List.append_assoc, List.singleton_append]
    · rw [if_neg h, List.flatten_cons, ih, List.singleton_append]

/-- Every group fits and has an item. -/
theorem groups_fit (hfits : ∀ x ∈ xs, fits [x]) (hcurrent : current = [] ∨ fits current) :
    ∀ g ∈ groups fits current xs, g ≠ [] ∧ fits g := by
  induction xs generalizing current with
  | nil =>
    intro g hg
    cases current with
    | nil => cases hg
    | cons x xs =>
      rw [List.mem_singleton.mp hg]
      exact ⟨List.cons_ne_nil x xs, hcurrent.resolve_left (List.cons_ne_nil x xs)⟩
  | cons x xs ih =>
    obtain ⟨hx, hxs⟩ := List.forall_mem_cons.mp hfits
    rw [groups]
    by_cases h : fits (current ++ [x])
    · rw [if_pos h]
      exact ih hxs (.inr h)
    · have hne : current ≠ [] := by
        rintro rfl
        exact h hx
      rw [if_neg h, List.forall_mem_cons]
      exact ⟨⟨hne, hcurrent.resolve_left hne⟩, ih hxs (.inr hx)⟩

/-! ### There are as few of them as possible -/

omit [DecidablePred fits] in
/-- A division of a list is one of every list that it ends with. -/
theorem Divides.suffix (hher : Hereditary fits) {ys : List α} {n : Nat} (h : Divides fits ys n)
    (hsuffix : xs <:+ ys) : Divides fits xs n := by
  obtain ⟨gs, rfl, hlen, hfits⟩ := h
  induction gs generalizing n with
  | nil =>
    have hnil : xs = [] := List.suffix_nil.mp hsuffix
    exact ⟨[], hnil.symm, hlen, hfits⟩
  | cons g gs ih =>
    obtain ⟨hg, hgs⟩ := List.forall_mem_cons.mp hfits
    rw [List.flatten_cons] at hsuffix
    rcases List.suffix_or_suffix_of_suffix hsuffix (List.suffix_append g gs.flatten) with h | h
    · obtain ⟨gs', hflat, hlen', hfits'⟩ := ih h (Nat.le_refl gs.length) hgs
      rw [List.length_cons] at hlen
      exact ⟨gs', hflat, by omega, hfits'⟩
    · -- the list begins inside the first group
      obtain ⟨g', rfl⟩ := h
      have hg' : g' <:+ g := List.suffix_append_self_iff.mp hsuffix
      refine ⟨g' :: gs, rfl, hlen, ?_⟩
      exact List.forall_mem_cons.mpr ⟨hher _ _ hg'.isInfix hg, hgs⟩

/-- At each moment the loop has got at least as far as any other division. -/
theorem length_groups_le (hher : Hereditary fits) (hfits : ∀ x ∈ xs, fits [x])
    {gs : List (List α)} (hflat : gs.flatten = current ++ xs) (hgs : ∀ g ∈ gs, fits g) :
    (groups fits current xs).length ≤ gs.length := by
  induction xs generalizing current gs with
  | nil =>
    cases current with
    | nil => exact Nat.zero_le _
    | cons x xs =>
      cases gs with
      | nil => cases hflat
      | cons g gs => exact Nat.succ_le_succ (Nat.zero_le gs.length)
  | cons x xs ih =>
    obtain ⟨hx, hxs⟩ := List.forall_mem_cons.mp hfits
    rw [groups]
    by_cases h : fits (current ++ [x])
    · rw [if_pos h]
      exact ih hxs (by rw [hflat, List.append_assoc, List.singleton_append]) hgs
    rw [if_neg h, List.length_cons]
    cases gs with
    | nil =>
      have hlen := congrArg List.length hflat
      simp at hlen
    | cons g gs =>
      obtain ⟨hg, hgs⟩ := List.forall_mem_cons.mp hgs
      rw [List.flatten_cons] at hflat
      -- the first group of the other division does not reach `x`
      have hsuffix : x :: xs <:+ gs.flatten := by
        rcases List.append_eq_append_iff.mp hflat with ⟨a, _, hrest⟩ | ⟨c, hc, hrest⟩
        · exact hrest ▸ List.suffix_append a (x :: xs)
        · cases c with
          | nil => exact ⟨[], hrest⟩
          | cons y c =>
            obtain ⟨rfl, _⟩ := List.cons.inj hrest
            refine absurd (hher _ _ ⟨[], c, ?_⟩ hg) h
            rw [hc, List.nil_append, List.append_assoc, List.singleton_append]
      obtain ⟨gs', hflat', hlen, hfits'⟩ :=
        Divides.suffix hher ⟨gs, rfl, Nat.le_refl gs.length, hgs⟩ hsuffix
      have hle := @ih [x] hxs _ hflat' hfits'
      rw [List.length_cons]
      omega

theorem divides_groups (hfits : ∀ x ∈ xs, fits [x]) :
    Divides fits xs (groups fits [] xs).length :=
  ⟨groups fits [] xs, flatten_groups [] xs, Nat.le_refl _,
    fun g hg => (groups_fit hfits (.inl rfl) g hg).2⟩

theorem divides_iff (hher : Hereditary fits) (hfits : ∀ x ∈ xs, fits [x]) {n : Nat} :
    Divides fits xs n ↔ (groups fits [] xs).length ≤ n := by
  constructor
  · rintro ⟨gs, hflat, hlen, hgs⟩
    exact Nat.le_trans (length_groups_le hher hfits hflat hgs) hlen
  · intro h
    obtain ⟨gs, hflat, hlen, hgs⟩ := divides_groups hfits
    exact ⟨gs, hflat, Nat.le_trans hlen h, hgs⟩

/-- **The loop makes the least number of groups.** -/
theorem isLeast_groups (hher : Hereditary fits) (hfits : ∀ x ∈ xs, fits [x]) :
    IsLeast {n | Divides fits xs n} (groups fits [] xs).length :=
  ⟨divides_groups hfits, fun _ h => (divides_iff hher hfits).mp h⟩

/-- There are never more groups than items. -/
theorem length_groups_le_length (hher : Hereditary fits) (hfits : ∀ x ∈ xs, fits [x]) :
    (groups fits [] xs).length ≤ xs.length := by
  have hflat : (xs.map fun x => [x]).flatten = [] ++ xs := by
    rw [← List.flatMap_def, List.flatMap_singleton', List.nil_append]
  have hle := length_groups_le hher hfits hflat (by
    intro g hg
    obtain ⟨x, hx, rfl⟩ := List.mem_map.mp hg
    exact hfits x hx)
  rwa [List.length_map] at hle

end Grouping
