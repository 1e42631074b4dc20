/-
  Acs/Esp32/Door.lean
  ===================
  **When the ESP32 frontend opens the door, and for whom.**

  As on the Orange Pi, an iteration is a list of events of `TimedDoor` for the
  door, and the states of the controller are those of the abstract door
  (`door_run`).  A remote action comes before the handler, and the timeout of a
  remote unlock is set at once, so that it is a grant like the others.  From the
  door it is one more iteration to the relay (`relayAuthorised_run`).
-/
import Acs.Esp32.ControllerSafety
import Acs.Lib.TimedDoor

namespace Acs.Esp32

open Acs Runs

namespace Controller

/-! ### The iteration as events of a door -/

/-- Who may open the door. -/
inductive Authority where
  | card (cardId : CardId)
  | leave
  | green
  | white
  | remote
deriving DecidableEq, Repr

/-- The authority is there in an iteration from `c`. -/
def Holds (c : Controller) (i : Input) : Authority → Prop
  | .card cardId => cardId ≠ 0 ∧ i.cardId = cardId ∧ i.access.access = .allowed
  | .leave => i.keys.leave = true
  | .green => i.keys.green = true
  | .white => i.keys.white = true ∧ isItThursday i = true
  | .remote => taken c i = str "unlock"

/-- How long somebody is let in for, and since when; White opens the space. -/
def Authority.deadline (i : Input) : Authority → Option Int
  | .card _ => some (i.currentTime + enterTime)
  | .leave => some (i.currentTime + leaveTime)
  | .green => some (i.currentTime + unlockPeriod)
  | .white => none
  | .remote => some (i.actionTime + gwUnlockPeriod)

/-- Whoever opens the door may do so, and a grant has its deadline. -/
def Authorised (c : Controller) (i : Input) : TimedDoor.Event Int Authority → Prop
  | .grant deadline why => c.Holds i why ∧ why.deadline i = some deadline
  | .release why => c.Holds i why ∧ why.deadline i = none
  | .close => True
  | .tick _ => True

def doorOf (state : State) (timeout : Int) : TimedDoor.Door Int :=
  match state with
  | .initial => .shut
  | .locked => .shut
  | .open => .free
  | .timedUnlock => .until timeout

/-- The door as the state has it. -/
def door (c : Controller) : TimedDoor.Door Int := doorOf c.state c.timeout

def remoteEvents (c : Controller) (i : Input) : List (TimedDoor.Event Int Authority) :=
  if taken c i = str "lock" then [.close]
  else if taken c i = str "unlock" then [.grant (i.actionTime + gwUnlockPeriod) .remote]
  else []

/-- With White nothing else counts, and with a card Leave does not. -/
def lockedEvents (i : Input) : List (TimedDoor.Event Int Authority) :=
  if i.keys.white then if isItThursday i then [.release .white] else []
  else if i.keys.green then [.grant (i.currentTime + unlockPeriod) .green]
  else if i.cardId ≠ 0 then
    if i.access.access = .allowed then [.grant (i.currentTime + enterTime) (.card i.cardId)]
    else []
  else if i.keys.leave then [.grant (i.currentTime + leaveTime) .leave]
  else []

/-- Red comes first, then the time; White counts if neither has locked the door. -/
def timedEvents (timeout : Int) (i : Input) : List (TimedDoor.Event Int Authority) :=
  if i.keys.red then [.close]
  else .tick i.handlerTime ::
    if i.keys.white && isItThursday i && i.handlerTime < timeout then [.release .white] else []

def handlerEvents (state : State) (timeout : Int) (i : Input) :
    List (TimedDoor.Event Int Authority) :=
  match state with
  | .initial => []
  | .locked => .close :: lockedEvents i
  | .open => if isItThursday i && !i.keys.red then [] else [.close]
  | .timedUnlock => timedEvents timeout i

/-- What the iteration is to the door; after a restart nothing. -/
def doorEvents (boot : Boot) (c : Controller) (i : Input) :
    List (TimedDoor.Event Int Authority) :=
  if c.running then
    remoteEvents c i ++
      if (c.atHandler boot i).running then
        handlerEvents (c.atHandler boot i).state (c.atHandler boot i).timeout i
      else []
  else []

section Authorised

variable {c : Controller} {i : Input}

theorem authorised_remoteEvents : ∀ event ∈ remoteEvents c i, c.Authorised i event := by
  intro event h
  rw [remoteEvents] at h
  split at h
  · rw [List.mem_singleton.mp h]
    trivial
  · split at h
    next hunlock =>
      rw [List.mem_singleton.mp h]
      exact ⟨hunlock, rfl⟩
    next => exact absurd h List.not_mem_nil

theorem authorised_lockedEvents : ∀ event ∈ lockedEvents i, c.Authorised i event := by
  intro event h
  rw [lockedEvents] at h
  split at h
  next hwhite =>
    split at h
    next hday =>
      rw [List.mem_singleton.mp h]
      exact ⟨⟨hwhite, hday⟩, rfl⟩
    next => exact absurd h List.not_mem_nil
  next =>
    split at h
    next hgreen =>
      rw [List.mem_singleton.mp h]
      exact ⟨hgreen, rfl⟩
    next =>
      split at h
      next hcard =>
        split at h
        next hallowed =>
          rw [List.mem_singleton.mp h]
          exact ⟨⟨hcard, rfl, hallowed⟩, rfl⟩
        next => exact absurd h List.not_mem_nil
      next =>
        split at h
        next hleave =>
          rw [List.mem_singleton.mp h]
          exact ⟨hleave, rfl⟩
        next => exact absurd h List.not_mem_nil

theorem authorised_timedEvents {timeout : Int} :
    ∀ event ∈ timedEvents timeout i, c.Authorised i event := by
  intro event h
  rw [timedEvents] at h
  split at h
  · rw [List.mem_singleton.mp h]
    trivial
  · rcases List.mem_cons.mp h with rfl | h
    · trivial
    · split at h
      next hwhite =>
        rw [List.mem_singleton.mp h]
        exact ⟨Bool.and_eq_true_iff.mp (Bool.and_eq_true_iff.mp hwhite).1, rfl⟩
      next => exact absurd h List.not_mem_nil

theorem authorised_handlerEvents {state : State} {timeout : Int} :
    ∀ event ∈ handlerEvents state timeout i, c.Authorised i event := by
  intro event h
  cases state with
  | initial => exact absurd h List.not_mem_nil
  | locked =>
    rcases List.mem_cons.mp h with rfl | h
    · trivial
    · exact authorised_lockedEvents event h
  | «open» =>
    change event ∈ if isItThursday i && !i.keys.red then [] else [TimedDoor.Event.close] at h
    split at h
    · exact absurd h List.not_mem_nil
    · rw [List.mem_singleton.mp h]
      trivial
  | timedUnlock => exact authorised_timedEvents event h

theorem authorised_of_mem {boot : Boot} : ∀ event ∈ c.doorEvents boot i, c.Authorised i event := by
  intro event h
  rw [doorEvents] at h
  split at h
  · rcases List.mem_append.mp h with h | h
    · exact authorised_remoteEvents event h
    · split at h
      · exact authorised_handlerEvents event h
      · exact absurd h List.not_mem_nil
  · exact absurd h List.not_mem_nil

end Authorised

/-! ### The controller is the abstract door -/

/-- The remote action, before the handler. -/
theorem door_atHandler (boot : Boot) (c : Controller) (i : Input) :
    (c.atHandler boot i).door = exec TimedDoor.step c.door (remoteEvents c i) := by
  have hspec := atHandler_spec boot c i
  rw [door, hspec.state, hspec.timeout, remoteEvents]
  by_cases hlock : taken c i = str "lock"
  · rw [if_pos hlock, if_pos hlock]
    rfl
  · rw [if_neg hlock, if_neg hlock]
    by_cases hunlock : taken c i = str "unlock"
    · rw [if_pos hunlock, if_pos hunlock, if_pos hunlock]
      rfl
    · rw [if_neg hunlock, if_neg hunlock, if_neg hunlock]
      rfl

section Handlers

variable {boot : Boot} {c : Controller} {i : Input}

theorem door_iterate_locked (hran : HandlerRan boot c i .locked) :
    (c.iterate boot i).door = exec TimedDoor.step .shut (lockedEvents i) := by
  have hspec := atHandler_spec boot c i
  have hhandle := handle_locked i hran.2.2
  have hlocked := handleLocked_spec (c.atHandler boot i) i
  have hgrant : lockedGrant (c.atHandler boot i) i = if i.keys.white then none
      else if i.keys.green then some unlockPeriod
      else if i.cardId ≠ 0 then if i.access.access = .allowed then some enterTime else none
      else if i.keys.leave then some leaveTime else none := by
    rw [lockedGrant, hspec.keys, hspec.cardId]
  have hnone : ∀ day, lockedGrant (c.atHandler boot i) i = none →
      (i.keys.white && isItThursday i) = day →
      (c.iterate boot i).door = if day then .free else .shut := by
    intro day hgrant hwhite
    rw [door, (iterate_spec hran).state, hhandle, hlocked.state, hgrant, hspec.keys, hwhite,
      hran.2.2]
    cases day <;> rfl
  have hsome : ∀ period, lockedGrant (c.atHandler boot i) i = some period →
      (c.iterate boot i).door = .until (i.currentTime + period) := by
    intro period hgrant
    have hne : period ≠ invalidDuration := by
      have hpos := lockedGrant_pos hgrant
      rw [invalidDuration]
      omega
    rw [door, (iterate_spec hran).state, (iterate_spec hran).timeout, hhandle, hlocked.state,
      hlocked.timeoutDur, hgrant]
    exact congrArg TimedDoor.Door.until (if_neg hne)
  rw [lockedEvents]
  cases hwhite : i.keys.white with
  | true =>
    rw [hwhite, if_pos rfl] at hgrant
    refine (hnone (isItThursday i) hgrant (by rw [hwhite, Bool.true_and])).trans ?_
    cases isItThursday i <;> rfl
  | false =>
    rw [hwhite, if_neg Bool.false_ne_true] at hgrant
    rw [if_neg Bool.false_ne_true]
    have hnone := fun h => hnone false h (by rw [hwhite, Bool.false_and])
    cases hgreen : i.keys.green with
    | true =>
      rw [hgreen, if_pos rfl] at hgrant
      exact hsome _ hgrant
    | false =>
      rw [hgreen, if_neg Bool.false_ne_true] at hgrant
      rw [if_neg Bool.false_ne_true]
      by_cases hcard : i.cardId = 0
      · rw [if_neg (not_not.mpr hcard)] at hgrant ⊢
        cases hleave : i.keys.leave with
        | true =>
          rw [hleave, if_pos rfl] at hgrant
          exact hsome _ hgrant
        | false =>
          rw [hleave, if_neg Bool.false_ne_true] at hgrant
          exact hnone hgrant
      · rw [if_pos hcard] at hgrant ⊢
        by_cases hallowed : i.access.access = .allowed
        · rw [if_pos hallowed] at hgrant ⊢
          exact hsome _ hgrant
        · rw [if_neg hallowed] at hgrant ⊢
          exact hnone hgrant

theorem door_iterate_open (hran : HandlerRan boot c i .open) :
    (c.iterate boot i).door = exec (TimedDoor.step (ρ := Authority)) .free
      (if isItThursday i && !i.keys.red then [] else [.close]) := by
  have hspec := atHandler_spec boot c i
  rw [door, (iterate_spec hran).state, handle_open i hran.2.2, (handleOpen_spec _ i).state,
    hran.2.2, hspec.keys]
  cases isItThursday i && !i.keys.red <;> rfl

theorem door_iterate_timedUnlock (hran : HandlerRan boot c i .timedUnlock)
    (hdur : (c.atHandler boot i).timeoutDur = invalidDuration)
    (hvalid : (c.atHandler boot i).timeout ≠ invalidTimePoint) :
    (c.iterate boot i).door = exec TimedDoor.step (.until (c.atHandler boot i).timeout)
      (timedEvents (c.atHandler boot i).timeout i) := by
  have hspec := atHandler_spec boot c i
  have htimed := handleTimedUnlock_spec (c.atHandler boot i) i
  have hhandle := handle_timedUnlock i hran.2.2
  have hends : unlockEnds (c.atHandler boot i) i =
      (i.keys.red || decide ((c.atHandler boot i).timeout ≤ i.handlerTime)) := by
    rw [unlockEnds, hspec.keys]
    simp [hvalid]
  have htimeout : (c.iterate boot i).timeout = if unlockEnds (c.atHandler boot i) i = true
      then invalidTimePoint else (c.atHandler boot i).timeout := by
    rw [(iterate_spec hran).timeout, hhandle, htimed.timeoutDur, hdur, if_pos rfl, htimed.timeout]
  rw [door, htimeout, (iterate_spec hran).state, hhandle, htimed.state, hspec.keys, hran.2.2,
    decide_eq_false hvalid, Bool.or_false, timedEvents, hends]
  cases i.keys.red with
  | true => rfl
  | false =>
    rw [Bool.false_or, if_neg Bool.false_ne_true, exec_cons]
    by_cases hdue : (c.atHandler boot i).timeout ≤ i.handlerTime
    · rw [TimedDoor.step_tick_of_le hdue, decide_eq_true hdue, decide_eq_false (not_lt.mpr hdue),
        Bool.and_false]
      rfl
    · rw [TimedDoor.step_tick_of_lt (not_le.mp hdue), decide_eq_false hdue,
        decide_eq_true (not_le.mp hdue), Bool.and_true]
      cases i.keys.white && isItThursday i <;> rfl

end Handlers

/-- **One iteration is its events.** -/
theorem door_iterate {boot : Boot} {c : Controller} {gs : List Grant} {i : Input}
    (hclock : AfterEpoch i) (h : TimerInv c gs) :
    (c.iterate boot i).door = exec TimedDoor.step c.door (c.doorEvents boot i) := by
  rw [doorEvents]
  rcases iterate_cases boot c i with ⟨hstop, hiter⟩ | ⟨hrun, _, hiter, hstop⟩ | hran
  · rw [hiter, hstop]
    rfl
  · rw [hiter] at hstop
    rw [hiter, hrun, if_pos rfl, hstop, if_neg Bool.false_ne_true, List.append_nil]
    exact door_atHandler boot c i
  · rw [if_pos hran.1, if_pos hran.2.1, exec_append, ← door_atHandler boot c i]
    have htimer := @timerInv_atHandler boot _ _ _ hclock hran.1 h
    cases hstate : (c.atHandler boot i).state with
    | initial =>
      rw [door, (iterate_spec hran).state, handle_initial i hstate, door, hstate]
      rfl
    | locked =>
      rw [hstate] at hran
      rw [door_iterate_locked hran, door, hstate]
      rfl
    | «open» =>
      rw [hstate] at hran
      rw [door_iterate_open hran, door, hstate]
      rfl
    | timedUnlock =>
      rw [hstate] at hran
      obtain ⟨_, _, _, hpos⟩ := htimer.timeout hstate
      rw [door_iterate_timedUnlock hran htimer.timeoutDur hpos.ne', door, hstate]
      rfl

/-! ### A run -/

/-- All that a run is to the door. -/
def doorLog (boot : Boot) (inputs : List Input) : List (TimedDoor.Event Int Authority) :=
  emitted (iterate boot) (doorEvents boot) (start boot) inputs

/-- **The controller refines the abstract door.** -/
theorem door_run (boot : Boot) (inputs : List Input) (hclock : ∀ i ∈ inputs, AfterEpoch i) :
    (run boot inputs).door = exec TimedDoor.step .shut (doorLog boot inputs) := by
  obtain ⟨hstate, _, hdur⟩ := start_fields boot
  have hshut : (start boot).door = .shut := by
    rw [door, hstate]
    rfl
  rw [← hshut]
  refine exec_refinement (iterate boot) TimedDoor.step (doorEvents boot) door
    (fun c => ∃ gs, TimerInv c gs) (fun _ i => AfterEpoch i) ?_ ?_ ⟨[], hdur, ?_⟩
    (along_of_forall _ hclock)
  · rintro c i ⟨gs, h⟩ hi
    exact ⟨_, timerInv_iterate hi h⟩
  · rintro c i ⟨gs, h⟩ hi
    exact door_iterate hi h
  · intro htimed
    exact absurd (hstate.symm.trans htimed) (by decide)

/-! ### From the door to the relay -/

theorem running_of_exec {boot : Boot} {c : Controller} {inputs : List Input}
    (h : (exec (iterate boot) c inputs).running = true) : c.running = true := by
  by_contra hstop
  rw [Bool.not_eq_true] at hstop
  have hstopped : (exec (iterate boot) c inputs).running = false := by
    refine exec_invariant_of_forall (iterate boot) (fun _ => True)
      (fun c => c.running = false) ?_ hstop fun _ _ => trivial
    intro d i hd _
    rw [iterate_stopped boot i hd]
    exact hd
  rw [h] at hstopped
  cases hstopped

/-- An iteration that is nothing but the clock to the door unlocks it. -/
theorem unlocks_of_onlyTicks {boot : Boot} {c : Controller} {i : Input}
    (hrunning : (c.iterate boot i).running = true) (hstate : c.state ≠ .initial)
    (h : ∀ event ∈ c.doorEvents boot i, ∃ now, event = .tick now) : Unlocks boot c i := by
  have hran := handlerRan_of_running hrunning
  cases hat : (c.atHandler boot i).state with
  | initial =>
    have hspec := (atHandler_spec boot c i).state
    rw [hat] at hspec
    split at hspec
    · cases hspec
    · split at hspec
      · cases hspec
      · exact absurd hspec.symm hstate
  | locked =>
    have hclose : .close ∈ c.doorEvents boot i := by
      rw [doorEvents, if_pos hran.1, if_pos hran.2.1, hat]
      exact List.mem_append_right _ List.mem_cons_self
    obtain ⟨now, heq⟩ := h .close hclose
    cases heq
  | «open» => exact .inl ⟨hran.1, hran.2.1, hat⟩
  | timedUnlock => exact .inr (.inl ⟨hran.1, hran.2.1, hat⟩)

theorem state_iterate_ne_initial {boot : Boot} {c : Controller} {i : Input}
    (hrunning : (c.iterate boot i).running = true) : (c.iterate boot i).state ≠ .initial := by
  rw [(iterate_spec (handlerRan_of_running hrunning)).state]
  exact handle_state_ne_initial _ i

theorem allUnlock_of_onlyTicks {boot : Boot} {c : Controller} {inputs : List Input}
    (hrunning : (exec (iterate boot) c inputs).running = true) (hstate : c.state ≠ .initial)
    (h : ∀ event ∈ emitted (iterate boot) (doorEvents boot) c inputs, ∃ now, event = .tick now) :
    Along (iterate boot) (Unlocks boot) c inputs := by
  induction inputs generalizing c with
  | nil => trivial
  | cons i inputs ih =>
    rw [emitted_cons, List.forall_mem_append] at h
    have hnext := running_of_exec (c := c.iterate boot i) hrunning
    exact ⟨unlocks_of_onlyTicks hnext hstate h.1,
      ih hrunning (state_iterate_ne_initial hnext) h.2⟩

theorem Authorised.holds {c : Controller} {i : Input} {event : TimedDoor.Event Int Authority}
    {why : Authority} (h : c.Authorised i event) (hwhy : event.why = some why) :
    c.Holds i why := by
  cases event with
  | grant deadline who => cases hwhy; exact h.1
  | release who => cases hwhy; exact h.1
  | close => cases hwhy
  | tick now => cases hwhy

/-- **A door that is not shut** has been opened by somebody who might do so, and
    every iteration since has unlocked it. -/
theorem exists_authority {boot : Boot} {inputs : List Input}
    (hclock : ∀ i ∈ inputs, AfterEpoch i) (hrunning : (run boot inputs).running = true)
    (hdoor : (run boot inputs).door ≠ .shut) :
    ∃ earlier j after why, inputs = earlier ++ j :: after ∧ (run boot earlier).Holds j why ∧
      Along (iterate boot) (Unlocks boot) (run boot (earlier ++ [j])) after := by
  rw [door_run boot inputs hclock] at hdoor
  obtain ⟨pre, opener, post, hlog, hwhy, hticks⟩ := TimedDoor.exists_opener hdoor
  obtain ⟨why, hwhy⟩ := Option.isSome_iff_exists.mp hwhy
  obtain ⟨earlier, j, after, front, back, rfl, hout, -, rfl⟩ :=
    emitted_eq_append_cons (iterate boot) (doorEvents boot) hlog
  have hmem : opener ∈ (run boot earlier).doorEvents boot j := by
    rw [run, hout]
    exact List.mem_append_right _ List.mem_cons_self
  have hlast : (exec (iterate boot) (run boot (earlier ++ [j])) after).running = true := by
    rw [← run_append, List.append_assoc]
    exact hrunning
  refine ⟨earlier, j, after, why, rfl, (authorised_of_mem opener hmem).holds hwhy,
    allUnlock_of_onlyTicks hlast ?_ ?_⟩
  · have hran := running_of_exec hlast
    rw [run_snoc] at hran ⊢
    exact state_iterate_ne_initial hran
  · rw [List.forall_mem_append] at hticks
    exact hticks.2

/-- Whoever `handle_locked` opens the door for may open it. -/
theorem OpenedAtLocked.holds {boot : Boot} {c : Controller} {i : Input}
    (h : OpenedAtLocked boot c i) : ∃ why, c.Holds i why := by
  have hspec := atHandler_spec boot c i
  have hopens := h.2
  rw [opensDoor, hspec.keys, hspec.cardId, Bool.and_eq_true] at hopens
  by_cases hcard : i.cardId = 0
  · rw [if_neg (not_not.mpr hcard)] at hopens
    exact ⟨.leave, hopens.2⟩
  · rw [if_pos hcard, decide_eq_true_iff] at hopens
    exact ⟨.card i.cardId, hcard, rfl, hopens.2⟩

/-- A handler of an open door is called for a door that was open before the
    iteration, or is unlocked remotely in it. -/
theorem remote_or_open {boot : Boot} {c : Controller} {i : Input}
    (h : HandlerRan boot c i .open ∨ HandlerRan boot c i .timedUnlock) :
    c.Holds i .remote ∨ c.door ≠ .shut := by
  by_cases hunlock : taken c i = str "unlock"
  · exact .inl hunlock
  have hspec := (atHandler_spec boot c i).state
  rw [if_neg hunlock] at hspec
  have hstate : c.state = .open ∨ c.state = .timedUnlock := by
    rcases h with h | h <;> rw [h.2.2] at hspec <;> split at hspec
    · cases hspec
    · exact .inl hspec.symm
    · cases hspec
    · exact .inr hspec.symm
  right
  rcases hstate with h | h <;> simp [door, doorOf, h]

/-- The relay is energised for somebody who has opened the door, in this iteration
    or in one since which every iteration has unlocked it. -/
theorem exists_holder_of_energised {boot : Boot} {before : List Input} {i : Input}
    (hclock : ∀ j ∈ before, AfterEpoch j)
    (henergised : Energised ((run boot before).iterate boot i)) :
    ∃ earlier j after why, before ++ [i] = earlier ++ j :: after ∧
      (run boot earlier).Holds j why ∧
      Along (iterate boot) (Unlocks boot) (run boot (earlier ++ [j])) after.dropLast := by
  rcases energised_run henergised with hnow | ⟨earlier, j, rfl, hunlocks⟩
  · obtain ⟨why, hwhy⟩ := hnow.holds
    exact ⟨before, i, [], why, rfl, hwhy, trivial⟩
  -- the relay follows the iteration before this one
  have hsplit : earlier ++ [j] ++ [i] = earlier ++ j :: [i] := by
    rw [List.append_assoc, List.singleton_append]
  have hrun : (run boot (earlier ++ [j])).running = true := (energised_cases henergised).1
  have hbefore : (run boot earlier).running = true := by
    rw [run_append] at hrun
    exact running_of_exec hrun
  have hhandler : (∃ why, (run boot earlier).Holds j why) ∨ (run boot earlier).door ≠ .shut := by
    rcases hunlocks with hopen | htimed | hopened
    · exact (remote_or_open (.inl hopen)).imp_left fun h => ⟨_, h⟩
    · exact (remote_or_open (.inr htimed)).imp_left fun h => ⟨_, h⟩
    · exact .inl hopened.holds
  rcases hhandler with ⟨why, hwhy⟩ | hopen
  · exact ⟨earlier, j, [i], why, hsplit, hwhy, trivial⟩
  · have hearlier : ∀ k ∈ earlier, AfterEpoch k := by
      intro k hk
      exact hclock k (List.mem_append_left _ hk)
    obtain ⟨pre, k, post, why, rfl, hwhy, hsince⟩ := exists_authority hearlier hbefore hopen
    refine ⟨pre, k, post ++ [j, i], why, ?_, hwhy, ?_⟩
    · rw [hsplit, List.append_assoc, List.cons_append]
    · have hlast : (post ++ [j, i]).dropLast = post ++ [j] := by
        rw [List.dropLast_append_of_ne_nil (by simp)]
        rfl
      rw [hlast, along_append, ← run_append, List.append_assoc, List.singleton_append]
      exact ⟨hsince, hunlocks, trivial⟩

/-- What a run is to the door, and to the relay in the iteration `i` after it. -/
structure RelayAuthorised (boot : Boot) (before : List Input) (i : Input) : Prop where
  /-- The door is open until the deadline of the last grant, with nothing but
      earlier readings of the clock since. -/
  timed : (run boot before).state = .timedUnlock ↔
    ∃ pre event post, doorLog boot before = pre ++ event :: post ∧
      (∃ why, event = .grant (run boot before).timeout why) ∧
      ∀ event ∈ post, ∃ now, event = .tick now ∧ now < (run boot before).timeout
  /-- The space is open since the last admission. -/
  space : (run boot before).state = .open ↔
    ∃ pre event post, doorLog boot before = pre ++ event :: post ∧
      (∃ why, event = .release why) ∧ ∀ event ∈ post, ∃ now, event = .tick now
  /-- Whoever is let in might be, until this deadline. -/
  authorised : ∀ event ∈ (run boot before).doorEvents boot i,
    (run boot before).Authorised i event
  /-- The relay is energised for somebody who has opened the door, in this
      iteration or in one since which every iteration has unlocked the door. -/
  relay : Energised ((run boot before).iterate boot i) →
    ∃ earlier j after why, before ++ [i] = earlier ++ j :: after ∧
      (run boot earlier).Holds j why ∧
      Along (iterate boot) (Unlocks boot) (run boot (earlier ++ [j])) after.dropLast

theorem door_eq_until (c : Controller) : c.door = .until c.timeout ↔ c.state = .timedUnlock := by
  cases h : c.state <;> simp [door, doorOf, h]

theorem door_eq_free (c : Controller) : c.door = .free ↔ c.state = .open := by
  cases h : c.state <;> simp [door, doorOf, h]

/-- **The relay is energised for somebody who may open the door.** -/
theorem relayAuthorised_run (boot : Boot) (before : List Input) (i : Input)
    (hclock : ∀ j ∈ before, AfterEpoch j) : RelayAuthorised boot before i := by
  have hdoor := door_run boot before hclock
  constructor
  case timed => rw [← door_eq_until, hdoor, TimedDoor.exec_eq_until_iff]
  case space => rw [← door_eq_free, hdoor, TimedDoor.exec_eq_free_iff]
  case authorised => exact authorised_of_mem
  case relay => exact exists_holder_of_energised hclock

theorem relayAuthorised_run_sample :
    Energised ((run sampleBoot (greenPressed ++ [sampleInput 103 {}])).iterate sampleBoot
      (sampleInput 104 {})) ∧
    ∃ earlier j after why,
      greenPressed ++ [sampleInput 103 {}] ++ [sampleInput 104 {}] = earlier ++ j :: after ∧
      (run sampleBoot earlier).Holds j why ∧
      Along (iterate sampleBoot) (Unlocks sampleBoot) (run sampleBoot (earlier ++ [j]))
        after.dropLast := by
  have hclock : ∀ j ∈ greenPressed ++ [sampleInput 103 {}], AfterEpoch j := by
    intro j hj
    simp only [greenPressed, List.cons_append, List.nil_append, List.mem_cons, List.not_mem_nil,
      or_false] at hj
    rw [AfterEpoch]
    rcases hj with rfl | rfl | rfl <;> decide
  have henergised : Energised ((run sampleBoot (greenPressed ++ [sampleInput 103 {}])).iterate
      sampleBoot (sampleInput 104 {})) := by
    rw [Energised]
    decide
  exact ⟨henergised, (relayAuthorised_run sampleBoot _ (sampleInput 104 {}) hclock).relay
    henergised⟩

end Controller

end Acs.Esp32
