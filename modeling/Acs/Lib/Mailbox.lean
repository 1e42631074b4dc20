/-
  Acs/Lib/Mailbox.lean
  ====================
  **A mailbox with one slot.**

  A writer puts values into the slot, a reader takes what is there.  A second
  `put` before the reader comes replaces the first value.  `taken` is what the
  reader gets over a run; `taken_eq_kept` says which values these are, and
  `kept_eq_puts_iff` when nothing at all is lost.
-/
import Acs.Lib.Run

namespace Mailbox

universe u v

variable {α : Type u}

/-- One turn of the writer or of the reader. -/
inductive Turn (α : Type u) where
  | put (a : α)
  | take
deriving DecidableEq, Repr

def step : Option α → Turn α → Option α
  | _, .put a => some a
  | _, .take => none

def out : Option α → Turn α → List α
  | some a, .take => [a]
  | _, _ => []

/-- What the reader gets over a run that starts with an empty slot. -/
def taken (turns : List (Turn α)) : List α := Runs.emitted step out none turns

def puts : List (Turn α) → List α
  | [] => []
  | .put a :: turns => a :: puts turns
  | .take :: turns => puts turns

theorem puts_append (turns more : List (Turn α)) :
    puts (turns ++ more) = puts turns ++ puts more := by
  induction turns with
  | nil => rfl
  | cons turn turns ih => cases turn <;> simp [puts, ih]

theorem mem_puts {a : α} {turns : List (Turn α)} : a ∈ puts turns ↔ .put a ∈ turns := by
  induction turns with
  | nil => simp [puts]
  | cons turn turns ih => cases turn <;> simp [puts, ih]

/-- The values put last before a `take`. -/
def kept : List (Turn α) → List α
  | [] => []
  | .take :: turns => kept turns
  | [.put _] => []
  | .put a :: .take :: turns => a :: kept turns
  | .put _ :: .put b :: turns => kept (.put b :: turns)

/-- Each `put` is followed by a `take` before the next `put`. -/
def Prompt : List (Turn α) → Prop
  | [] => True
  | .take :: turns => Prompt turns
  | [.put _] => False
  | .put _ :: .take :: turns => Prompt turns
  | .put _ :: .put _ :: _ => False

/-! ### Renaming the values -/

variable {β : Type v}

def Turn.map (f : α → β) : Turn α → Turn β
  | .put a => .put (f a)
  | .take => .take

theorem kept_map (f : α → β) (turns : List (Turn α)) :
    kept (turns.map (Turn.map f)) = (kept turns).map f := by
  fun_induction kept turns with
  | case1 => rfl
  | case2 turns ih => simpa [Turn.map, kept] using ih
  | case3 a => rfl
  | case4 a turns ih => simpa [Turn.map, kept] using ih
  | case5 a b turns ih => simpa [Turn.map, kept] using ih

/-! ### What the reader gets -/

/-- A full slot counts as a `put` that has just been made. -/
theorem emitted_eq_kept (slot : Option α) (turns : List (Turn α)) :
    Runs.emitted step out slot turns =
      kept (match slot with
        | none => turns
        | some a => .put a :: turns) := by
  induction turns generalizing slot with
  | nil => cases slot <;> simp [kept]
  | cons turn turns ih =>
    rw [Runs.emitted_cons, ih]
    cases turn with
    | put b => cases slot <;> simp [step, out, kept]
    | take => cases slot <;> simp [step, out, kept]

/-- **The reader gets the values that were put last before it came.** -/
theorem taken_eq_kept (turns : List (Turn α)) : taken turns = kept turns :=
  emitted_eq_kept none turns

theorem kept_sublist_puts (turns : List (Turn α)) : (kept turns).Sublist (puts turns) := by
  fun_induction kept turns with
  | case1 => exact List.Sublist.refl _
  | case2 turns ih => exact ih
  | case3 a => exact List.nil_sublist _
  | case4 a turns ih => exact ih.cons_cons a
  | case5 a b turns ih => exact ih.cons a

/-- **No value is taken twice or out of order.** -/
theorem taken_sublist_puts (turns : List (Turn α)) : (taken turns).Sublist (puts turns) :=
  taken_eq_kept turns ▸ kept_sublist_puts turns

/-- **Everything put is taken exactly when the reader is prompt.** -/
theorem kept_eq_puts_iff (turns : List (Turn α)) : kept turns = puts turns ↔ Prompt turns := by
  fun_induction kept turns with
  | case1 => simp [puts, Prompt]
  | case2 turns ih => simpa only [puts, Prompt] using ih
  | case3 a => simp [puts, Prompt]
  | case4 a turns ih => simpa only [puts, Prompt, List.cons.injEq, true_and] using ih
  | case5 a b turns ih =>
    -- the value `a` is lost, and what is kept of the rest cannot make up for it
    have hlen := (kept_sublist_puts (.put b :: turns)).length_le
    constructor
    · intro h
      have hcons := congrArg List.length h
      simp only [puts, List.length_cons] at hcons hlen
      omega
    · intro h
      exact h.elim

end Mailbox
