/-
  Acs/Lib/TimedDoor.lean
  ======================
  **A door that is opened until a deadline, or for everybody.**

  The door is shut, open until a deadline, or free.  A grant opens it until the
  deadline of the grant, and replaces an earlier one; `release` makes it free;
  `close` shuts it, and so does a tick of the clock that has reached the
  deadline.  Grants and admissions carry the reason they are made for.

  The rules are `exec_eq_until_iff` and `exec_eq_free_iff`: what a run must end
  with for the door to be open after it.
-/
import Acs.Lib.Run
import Mathlib.Order.Lattice

namespace TimedDoor

universe u v

variable {τ : Type u} {ρ : Type v}

inductive Door (τ : Type u) where
  | shut
  | until (deadline : τ)
  | free
deriving DecidableEq, Repr

inductive Event (τ : Type u) (ρ : Type v) where
  | grant (deadline : τ) (why : ρ)
  | release (why : ρ)
  | close
  | tick (now : τ)
deriving DecidableEq, Repr

/-- The reason that an event has, if it opens the door. -/
def Event.why : Event τ ρ → Option ρ
  | .grant _ why => some why
  | .release why => some why
  | .close => none
  | .tick _ => none

variable [LinearOrder τ]

def step : Door τ → Event τ ρ → Door τ
  | _, .grant deadline _ => .until deadline
  | _, .release _ => .free
  | _, .close => .shut
  | .until deadline, .tick now => if deadline ≤ now then .shut else .until deadline
  | .shut, .tick _ => .shut
  | .free, .tick _ => .free

/-! ### Single events -/

section Step

variable {door : Door τ} {event : Event τ ρ} {deadline now : τ}

theorem step_tick_of_le (h : deadline ≤ now) :
    step (ρ := ρ) (.until deadline) (.tick now) = .shut := if_pos h

theorem step_tick_of_lt (h : now < deadline) :
    step (ρ := ρ) (.until deadline) (.tick now) = .until deadline := if_neg (not_le.mpr h)

/-- A grant opens the door until its deadline, and a tick before the deadline
    leaves it so. -/
theorem step_eq_until_iff : step door event = .until deadline ↔
    (∃ why, event = .grant deadline why) ∨
      (door = .until deadline ∧ ∃ now, event = .tick now ∧ now < deadline) := by
  cases event with
  | grant d why => simp [step]
  | release why => simp [step]
  | close => simp [step]
  | tick now =>
    cases door with
    | shut => simp [step]
    | free => simp [step]
    | «until» d =>
      by_cases hdue : d ≤ now
      · rw [step_tick_of_le hdue]
        constructor
        · intro h
          cases h
        · rintro (⟨_, h⟩ | ⟨h, _, htick, hlt⟩)
          · cases h
          · cases h
            cases htick
            exact absurd hdue (not_le.mpr hlt)
      · rw [step_tick_of_lt (not_le.mp hdue)]
        constructor
        · intro h
          cases h
          exact .inr ⟨rfl, now, rfl, not_le.mp hdue⟩
        · rintro (⟨_, h⟩ | ⟨h, _⟩)
          · cases h
          · exact h

/-- An admission makes the door free, and the clock leaves it so. -/
theorem step_eq_free_iff : step door event = .free ↔
    (∃ why, event = .release why) ∨ (door = .free ∧ ∃ now, event = .tick now) := by
  cases event with
  | grant d why => simp [step]
  | release why => simp [step]
  | close => simp [step]
  | tick now =>
    cases door with
    | shut => simp [step]
    | free => simp [step]
    | «until» d =>
      by_cases hdue : d ≤ now
      · simp [step, hdue]
      · simp [step, hdue]

end Step

/-! ### Runs -/

/-- **Open until a deadline** is a door whose last grant has this deadline, with
    nothing but earlier ticks since. -/
theorem exec_eq_until_iff (events : List (Event τ ρ)) (deadline : τ) :
    Runs.exec step .shut events = .until deadline ↔
      ∃ pre event post, events = pre ++ event :: post ∧ (∃ why, event = .grant deadline why) ∧
        ∀ event ∈ post, ∃ now, event = .tick now ∧ now < deadline :=
  Runs.exec_eq_iff_since (s := Door.shut) (d := Door.until deadline)
    (fun _ _ => step_eq_until_iff) (by simp) events

/-- **Free** is a door with nothing but ticks since the last admission. -/
theorem exec_eq_free_iff (events : List (Event τ ρ)) :
    Runs.exec step .shut events = .free ↔
      ∃ pre event post, events = pre ++ event :: post ∧ (∃ why, event = .release why) ∧
        ∀ event ∈ post, ∃ now, event = .tick now :=
  Runs.exec_eq_iff_since (s := Door.shut) (d := Door.free) (fun _ _ => step_eq_free_iff)
    (by simp) events

/-- **A door that is not shut** has been opened by some event, and nothing has
    closed it since. -/
theorem exists_opener {events : List (Event τ ρ)} (h : Runs.exec step .shut events ≠ .shut) :
    ∃ pre event post, events = pre ++ event :: post ∧ event.why.isSome ∧
      ∀ event ∈ post, ∃ now, event = .tick now := by
  cases hdoor : Runs.exec step .shut events with
  | shut => exact absurd hdoor h
  | «until» deadline =>
    obtain ⟨pre, event, post, heq, ⟨why, rfl⟩, hpost⟩ :=
      (exec_eq_until_iff events deadline).mp hdoor
    refine ⟨pre, _, post, heq, rfl, ?_⟩
    intro event hmem
    obtain ⟨now, htick, -⟩ := hpost event hmem
    exact ⟨now, htick⟩
  | free =>
    obtain ⟨pre, event, post, heq, ⟨why, rfl⟩, hpost⟩ := (exec_eq_free_iff events).mp hdoor
    exact ⟨pre, _, post, heq, rfl, hpost⟩

end TimedDoor
