/-
  Acs/Esp32/StateDiagram.lean
  ===========================
  **The controller follows its state diagram** (`design/states.plantuml`).

  The diagram knows keys, cards, the time and the day, but no remote actions:
  these move the controller as they like, and the results are about the
  iterations that take no `lock` and no `unlock`.  An edge is justified by what
  the iteration sees (`Occurs`).  `handle_timed_unlock` also locks a door that
  has no timeout; that this never happens is `timerInv_run`.
-/
import Acs.Esp32.ControllerSafety

namespace Acs.Esp32

open Acs

namespace Controller

/-! ### The diagram -/

/-- What the edges are labelled with. -/
inductive Cause where
  | pressWhite
  | pressGreen
  | swipeCard
  | pressLeave
  | pressRed
  | endOfThursday
  | timeout
deriving DecidableEq, Repr

inductive Edge : State → Cause → State → Prop where
  | start_open : Edge .locked .pressWhite .open
  | extend_open : Edge .timedUnlock .pressWhite .open
  | green : Edge .locked .pressGreen .timedUnlock
  | card : Edge .locked .swipeCard .timedUnlock
  | leave : Edge .locked .pressLeave .timedUnlock
  | red_open : Edge .open .pressRed .locked
  | endOfThursday : Edge .open .endOfThursday .locked
  | red_timed : Edge .timedUnlock .pressRed .locked
  | timeout : Edge .timedUnlock .timeout .locked

/-- The cause is there in an iteration after the inputs `before`.  White counts
    on a Thursday only, and the time is that of the last grant. -/
def Occurs (boot : Boot) (before : List Input) (i : Input) : Cause → Prop
  | .pressWhite => i.keys.white = true ∧ isItThursday i = true
  | .pressGreen => i.keys.green = true
  | .swipeCard => i.cardId ≠ 0 ∧ i.access.access = .allowed
  | .pressLeave => i.keys.leave = true
  | .pressRed => i.keys.red = true
  | .endOfThursday => isItThursday i = false
  | .timeout => ∃ g, (granted boot before).getLast? = some g ∧ g.time + g.period ≤ i.handlerTime

/-- A change of state that the diagram allows in the iteration. -/
def Follows (boot : Boot) (before : List Input) (i : Input) (s s' : State) : Prop :=
  s' = s ∨ (s = .initial ∧ s' = .locked) ∨ ∃ cause, Edge s cause s' ∧ Occurs boot before i cause

/-! ### The handlers -/

section Handlers

variable {boot : Boot} {before : List Input} {c : Controller} {i : Input}

/-- Whatever `handle_locked` grants is granted for a key or a card. -/
theorem cause_of_lockedGrant (hkeys : c.keys = i.keys) (hcard : c.cardId = i.cardId)
    (h : (lockedGrant c i).isSome = true) :
    ∃ cause, Edge .locked cause .timedUnlock ∧ Occurs boot before i cause := by
  unfold lockedGrant at h
  rw [hkeys, hcard] at h
  split at h
  · exact absurd h (by simp)
  split at h
  next hgreen => exact ⟨_, .green, hgreen⟩
  split at h
  next hswiped =>
    split at h
    next hallowed => exact ⟨_, .card, hswiped, hallowed⟩
    next => exact absurd h (by simp)
  next =>
    split at h
    next hleave => exact ⟨_, .leave, hleave⟩
    next => exact absurd h (by simp)

theorem follows_handleLocked (hstate : c.state = .locked) (hkeys : c.keys = i.keys)
    (hcard : c.cardId = i.cardId) : Follows boot before i .locked (c.handleLocked i).state := by
  rw [(handleLocked_spec c i).state, hstate, hkeys]
  split
  next hgrant => exact .inr (.inr (cause_of_lockedGrant hkeys hcard hgrant))
  next =>
    split
    next hwhite =>
      rw [Bool.and_eq_true] at hwhite
      exact .inr (.inr ⟨_, .start_open, hwhite⟩)
    next => exact .inl rfl

theorem follows_handleOpen (hstate : c.state = .open) (hkeys : c.keys = i.keys) :
    Follows boot before i .open (c.handleOpen i).state := by
  rw [(handleOpen_spec c i).state, hstate, hkeys]
  split
  next => exact .inl rfl
  next hends =>
    cases hday : isItThursday i with
    | false => exact .inr (.inr ⟨_, .endOfThursday, hday⟩)
    | true =>
      have hred : i.keys.red = true := by simpa [hday] using hends
      exact .inr (.inr ⟨_, .red_open, hred⟩)

/-- With a timeout, and only then, the door is locked for Red or when it is due. -/
theorem follows_handleTimedUnlock (hstate : c.state = .timedUnlock) (hkeys : c.keys = i.keys)
    {g : Grant} (hlast : (granted boot before).getLast? = some g)
    (htimeout : c.timeout = g.time + g.period) (hvalid : c.timeout ≠ invalidTimePoint) :
    Follows boot before i .timedUnlock (c.handleTimedUnlock i).state := by
  have hnever : decide (c.timeout = invalidTimePoint) = false := decide_eq_false hvalid
  rw [(handleTimedUnlock_spec c i).state, hstate, hkeys, hnever, Bool.or_false]
  split
  next hends =>
    rw [unlockEnds, hkeys, Bool.or_eq_true] at hends
    rcases hends with hred | hdue
    · exact .inr (.inr ⟨_, .red_timed, hred⟩)
    · have hdue : c.timeout ≤ i.handlerTime := by
        rw [Bool.and_eq_true] at hdue
        exact of_decide_eq_true hdue.2
      exact .inr (.inr ⟨_, .timeout, g, hlast, htimeout ▸ hdue⟩)
  next =>
    split
    next hwhite =>
      rw [Bool.and_eq_true] at hwhite
      exact .inr (.inr ⟨_, .extend_open, hwhite⟩)
    next => exact .inl rfl

end Handlers

/-! ### Runs -/

/-- **Every iteration follows the diagram** that takes no remote lock or unlock. -/
theorem follows_diagram (boot : Boot) (before : List Input) (i : Input)
    (hclock : ∀ j ∈ before, AfterEpoch j) (hlock : taken (run boot before) i ≠ str "lock")
    (hunlock : taken (run boot before) i ≠ str "unlock") :
    Follows boot before i (run boot before).state ((run boot before).iterate boot i).state := by
  have hinv := timerInv_run boot before hclock
  have hspec := atHandler_spec boot (run boot before) i
  have hstate : ((run boot before).atHandler boot i).state = (run boot before).state := by
    rw [hspec.state, if_neg hlock, if_neg hunlock]
  rcases iterate_cases boot (run boot before) i with ⟨_, hiter⟩ | ⟨_, _, hiter, _⟩ | hran
  · rw [hiter]
    exact .inl rfl
  · rw [hiter]
    exact .inl hstate
  rw [(iterate_spec hran).state]
  cases hs : (run boot before).state with
  | initial =>
    rw [handle_initial i (hstate.trans hs)]
    exact .inr (.inl ⟨rfl, rfl⟩)
  | locked =>
    rw [handle_locked i (hstate.trans hs)]
    exact follows_handleLocked (hstate.trans hs) hspec.keys hspec.cardId
  | «open» =>
    rw [handle_open i (hstate.trans hs)]
    exact follows_handleOpen (hstate.trans hs) hspec.keys
  | timedUnlock =>
    obtain ⟨g, hlast, htimeout, hpos⟩ := hinv.timeout hs
    have hkept : ((run boot before).atHandler boot i).timeout = (run boot before).timeout := by
      rw [hspec.timeout, if_neg hunlock]
    rw [handle_timedUnlock i (hstate.trans hs)]
    apply follows_handleTimedUnlock (hstate.trans hs) hspec.keys hlast (hkept.trans htimeout)
    rw [hkept]
    exact hpos.ne'

/-- The second iteration: the door is locked, and Green is pressed. -/
theorem follows_diagram_sample :
    Follows sampleBoot [sampleInput 101 {}] (sampleInput 102 { green := true }) .locked
      .timedUnlock := by
  have hclock : ∀ j ∈ [sampleInput 101 {}], AfterEpoch j := by
    intro j hj
    rw [List.mem_singleton.mp hj]
    exact ⟨by decide, by decide⟩
  exact follows_diagram sampleBoot [sampleInput 101 {}] (sampleInput 102 { green := true }) hclock
    (by decide) (by decide)

end Controller

end Acs.Esp32
