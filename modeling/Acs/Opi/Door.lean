/-
  Acs/Opi/Door.lean
  =================
  **When the Orange Pi frontend opens the door.**

  An iteration is, for the door, a list of events of `TimedDoor`: who is let in
  and until when, who opens the space, what shuts the door, and the clock that
  `handle_timed_unlock` reads.  `door_run` says that the states of the controller
  are those of the abstract door, and `holds_of_mem` that whoever opens it
  may do so.

  A remote unlock is not like the other grants.  It asks for its time in
  `timeout_dur`, and the handler that is called in the same iteration still
  finds the timeout of an earlier grant: if there is none, or it is over, the
  state is `locked` again at the end of the iteration.
-/
import Acs.Opi.RemoteActions
import Acs.Opi.RemoteLock
import Acs.Lib.TimedDoor

namespace Acs.Opi

open Acs Runs

namespace Controller

/-! ### What the handlers do to the state and the timeout -/

/-- The members that decide how long the door is open, and those that the
    handlers read for it. -/
structure View where
  state : State
  timeout : Int
  timeoutDur : Int
  keys : Keys
  cardId : Bytes
deriving DecidableEq

def view (c : Controller) : View := ⟨c.state, c.timeout, c.timeoutDur, c.keys, c.cardId⟩

theorem view_checkThursday (c : Controller) (i : Input) :
    (c.checkThursday i).view =
      { c.view with state := if i.thursday then .open else c.state } := by
  rw [checkThursday]
  cases i.thursday <;> rfl

theorem view_checkCard_false (c : Controller) (i : Input) :
    (c.checkCard i false).view = c.view := by
  rw [checkCard]
  cases i.access.access <;> rfl

theorem view_checkCard_true (c : Controller) (i : Input) :
    (c.checkCard i true).view =
      if i.access.access = .allowed then
        { c.view with state := .timedUnlock, timeoutDur := enterTime }
      else c.view := by
  rw [checkCard]
  cases i.access.access <;> rfl

theorem view_showTimeLeft (c : Controller) (i : Input) : (c.showTimeLeft i).view = c.view := by
  rw [showTimeLeft]
  dsimp only
  split
  · cases c.simulate <;> rfl
  · rfl

/-- The period that `handle_locked` grants: for Green, for an allowed card, or for
    Leave, and none with White. -/
def lockedGrant (v : View) (i : Input) : Option Int :=
  if v.keys.white then none
  else if v.keys.green then some unlockPeriod
  else if v.cardId ≠ [] then if i.access.access = .allowed then some enterTime else none
  else if v.keys.leave then some leaveTime
  else none

def lockedView (v : View) (i : Input) : View :=
  match lockedGrant v i with
  | some period => { v with state := .timedUnlock, timeoutDur := period }
  | none => { v with state := if v.keys.white && i.thursday then .open else v.state }

/-- The tests of `handle_locked`, one after the other. -/
theorem view_lockedTests (c : Controller) (i : Input) :
    (if c.keys.white then c.checkThursday i
      else if c.keys.green then
        { c.emit (.log (str "Green pressed")) with
          timeoutDur := unlockPeriod, state := .timedUnlock }
      else if c.cardId ≠ [] then c.checkCard i true
      else if c.keys.leave then c.leavePressed
      else c).view = lockedView c.view i := by
  have hgrant : lockedGrant c.view i = if c.keys.white then none
      else if c.keys.green then some unlockPeriod
      else if c.cardId ≠ [] then if i.access.access = .allowed then some enterTime else none
      else if c.keys.leave then some leaveTime else none := rfl
  have hkeys : c.view.keys = c.keys := rfl
  have hstate : c.view.state = c.state := rfl
  rw [lockedView, hgrant, hkeys, hstate]
  cases c.keys.white with
  | true =>
    simp only [if_true, view_checkThursday, Bool.true_and]
    rfl
  | false =>
    simp only [Bool.false_eq_true, if_false, Bool.false_and]
    cases c.keys.green with
    | true => rfl
    | false =>
      simp only [Bool.false_eq_true, if_false]
      by_cases hcard : c.cardId = []
      · simp only [hcard, ne_eq, not_true, if_false]
        cases c.keys.leave <;> rfl
      · simp only [ne_eq, hcard, not_false_eq_true, if_true, view_checkCard_true]
        by_cases haccess : i.access.access = .allowed
        · simp only [haccess, if_true]
          rfl
        · simp only [haccess, if_false]
          rfl

theorem view_handleLocked (c : Controller) (i : Input) :
    (c.handleLocked i).view = lockedView c.view i := view_lockedTests _ i

def openView (v : View) (i : Input) : View :=
  { v with state := if i.thursday && !v.keys.red then v.state else .locked }

theorem view_endOpenPeriod (c : Controller) (i : Input) :
    (c.endOpenPeriod i).view = openView c.view i := by
  have hkeys : c.view.keys = c.keys := rfl
  rw [endOpenPeriod, openView, hkeys]
  cases i.thursday with
  | false => rfl
  | true => cases c.keys.red <;> rfl

theorem view_handleOpen (c : Controller) (i : Input) :
    (c.handleOpen i).view = openView c.view i := by
  rw [handleOpen]
  split
  · rw [view_checkCard_false, view_endOpenPeriod]
    rfl
  · rw [view_endOpenPeriod]
    rfl

/-- `handle_timed_unlock` keeps the state only if a timeout is set and not
    reached; the Leave button comes last. -/
def timedView (v : View) (ends : Bool) (i : Input) : View :=
  let u : View :=
    if ends || v.timeout = invalidTimePoint then
      { v with state := .locked, timeout := invalidTimePoint }
    else { v with state := if v.keys.white && i.thursday then .open else v.state }
  if v.keys.leave then { u with state := .timedUnlock, timeoutDur := leaveTime } else u

theorem view_checkUnlock (c : Controller) (i : Input) :
    (c.checkUnlock i).view =
      if c.unlockEnds i then { c.view with state := .locked, timeout := invalidTimePoint }
      else { c.view with state := if c.keys.white && i.thursday then .open else c.state } := by
  rw [checkUnlock]
  cases c.unlockEnds i with
  | true => rfl
  | false =>
    cases c.keys.white with
    | true => exact view_checkThursday c i
    | false =>
      rw [if_neg Bool.false_ne_true, if_neg Bool.false_ne_true, if_neg Bool.false_ne_true]
      split
      · exact view_showTimeLeft c i
      · rfl

theorem view_lockWithoutTimeout (c : Controller) :
    c.lockWithoutTimeout.view =
      if c.view.timeout = invalidTimePoint then { c.view with state := .locked } else c.view := by
  rw [lockWithoutTimeout]
  split
  next h => rw [if_pos (show c.view.timeout = _ from h)]; rfl
  next h => rw [if_neg (show ¬ c.view.timeout = _ from h)]

theorem view_handleTimedUnlock (c : Controller) (i : Input) :
    (c.handleTimedUnlock i).view = timedView c.view (c.unlockEnds i) i := by
  have hopen : ((c.ensureLockState .open).checkUnlock i).view =
      if c.unlockEnds i then { c.view with state := .locked, timeout := invalidTimePoint }
      else { c.view with state := if c.keys.white && i.thursday then .open else c.state } :=
    view_checkUnlock _ i
  have hview : ((c.ensureLockState .open).checkUnlock i).lockWithoutTimeout.view =
      if c.unlockEnds i || c.timeout = invalidTimePoint then
        { c.view with state := .locked, timeout := invalidTimePoint }
      else { c.view with state := if c.keys.white && i.thursday then .open else c.state } := by
    rw [view_lockWithoutTimeout, hopen]
    cases c.unlockEnds i with
    | true => simp
    | false => by_cases hnone : c.timeout = invalidTimePoint <;> simp [view, hnone]
  have hkeys : ((c.ensureLockState .open).checkUnlock i).lockWithoutTimeout.keys = c.keys := by
    refine (congrArg View.keys hview).trans ?_
    split <;> rfl
  have hleave : c.view.keys.leave = c.keys.leave := rfl
  rw [handleTimedUnlock, timedView, hleave, hkeys]
  cases c.keys.leave with
  | true =>
    exact congrArg (fun v : View => { v with state := .timedUnlock, timeoutDur := leaveTime })
      hview
  | false => exact hview

/-- The time of the handler has come, or Red is pressed. -/
def View.unlockEnds (v : View) (i : Input) : Bool :=
  v.keys.red || (v.timeout ≠ invalidTimePoint && i.handlerTime ≥ v.timeout)

/-- What the handlers do, one for each state. -/
def handledView (v : View) (i : Input) : View :=
  match v.state with
  | .initial => { v with state := .locked }
  | .locked => lockedView v i
  | .open => openView v i
  | .timedUnlock => timedView v (v.unlockEnds i) i

theorem view_handle (c : Controller) (i : Input) : (c.handle i).view = handledView c.view i := by
  have hstate : c.view.state = c.state := rfl
  rw [handle, handledView, hstate]
  cases c.state with
  | initial => rfl
  | locked => exact view_handleLocked c i
  | «open» => exact view_handleOpen c i
  | timedUnlock => exact view_handleTimedUnlock c i

/-! ### An iteration -/

/-- The action that `update_gateway` starts in the iteration, if any. -/
def remoteAction (c : Controller) (i : Input) : Bytes :=
  if c.updates i then c.gateway.currentAction else []

/-- The controller when the handler is called. -/
def atHandler (c : Controller) (i : Input) : Controller := (c.readInputs i).gatewayUpdate i

/-- What the handler finds: the buttons and the card, and what the action has
    changed.  An action `lock` is refused while the lock is open. -/
def foundView (c : Controller) (i : Input) : View :=
  let v : View := { c.view with keys := i.pressed.read, cardId := i.cardId }
  if c.remoteAction i = str "lock" ∧ c.lock.state = .locked then { v with state := .locked }
  else if c.remoteAction i = str "unlock" then
    { v with state := .timedUnlock, timeoutDur := gwUnlockPeriod }
  else v

theorem view_startAction (c : Controller) (action : Bytes) :
    (c.startAction action).view =
      if action = str "lock" ∧ c.lastLockStatus.state = .locked then
        { c.view with state := .locked }
      else if action = str "unlock" then
        { c.view with state := .timedUnlock, timeoutDur := gwUnlockPeriod }
      else c.view := by
  rw [startAction]
  dsimp only
  by_cases hlock : action = str "lock"
  · have hne : action ≠ str "unlock" := by
      rw [hlock]
      decide
    rw [if_pos hlock]
    cases hstate : c.lastLockStatus.state with
    | «open» => simp [hstate, hne, emit, view]
    | locked => simp [hstate, hlock, emit, ensureLockState, view]
  · have hnot : ¬ (action = str "lock" ∧ c.lastLockStatus.state = .locked) := fun h => hlock h.1
    rw [if_neg hlock, if_neg hnot]
    split <;> rfl

theorem view_readInputs (c : Controller) (i : Input) :
    (c.readInputs i).view = { c.view with keys := i.pressed.read, cardId := i.cardId } := by
  rw [readInputs]
  dsimp only
  split <;> rfl

theorem view_noteChange (c : Controller) : c.noteChange.view = c.view := by
  rw [noteChange]
  split <;> rfl

theorem view_checkAction {c : Controller} {action : Bytes} {lock : Lock} {v : View}
    (haction : c.gateway.currentAction = action) (hlock : c.lastLockStatus = lock)
    (hview : c.view = v) :
    c.checkAction.view =
      if action = str "lock" ∧ lock.state = .locked then { v with state := .locked }
      else if action = str "unlock" then
        { v with state := .timedUnlock, timeoutDur := gwUnlockPeriod }
      else v := by
  rw [checkAction, Gateway.getAction, haction, ← hview, ← hlock]
  split
  next hnil =>
    have hnot : ¬ (action = str "lock" ∧ c.lastLockStatus.state = .locked) := by
      rintro ⟨h, -⟩
      exact absurd (hnil.symm.trans h) (by decide)
    rw [if_neg hnot, hnil, if_neg (by decide)]
  next => exact view_startAction c action

theorem view_atHandler (c : Controller) (i : Input) : (c.atHandler i).view = c.foundView i := by
  have hread := (view_noteChange (c.readInputs i)).trans (view_readInputs c i)
  have haction : (c.readInputs i).noteChange.gateway.currentAction = c.gateway.currentAction :=
    congrArg Gateway.currentAction ((SameGateway.readInputs c i).trans (.noteChange _)).gateway
  have hlock : (c.readInputs i).noteChange.lastLockStatus = c.lock :=
    (lastLockStatus_noteChange _).trans (lock_readInputs c i)
  rw [atHandler, gatewayUpdate, foundView, remoteAction, updates]
  dsimp only
  cases (c.readInputs i).gatewayUpdateNeeded i with
  | true =>
    rw [if_pos rfl, if_pos rfl]
    exact view_checkAction (c := (c.readInputs i).noteChange.setGatewayStatus) haction hlock hread
  | false =>
    have hnot : ¬ ([] = str "lock" ∧ c.lock.state = .locked) := by
      rintro ⟨h, -⟩
      exact absurd h (by decide)
    rw [if_neg Bool.false_ne_true, if_neg Bool.false_ne_true, if_neg hnot, if_neg (by decide)]
    exact hread

/-- At the end of an iteration the timeout starts that has been asked for. -/
def timeoutView (v : View) (i : Input) : View :=
  if v.timeoutDur ≠ invalidDuration then
    { v with timeout := i.timeoutTime + v.timeoutDur, timeoutDur := invalidDuration }
  else v

theorem view_setTimeout (c : Controller) (i : Input) :
    (c.setTimeout i).view = timeoutView c.view i := by
  have hdur : c.view.timeoutDur = c.timeoutDur := rfl
  rw [setTimeout, timeoutView, hdur]
  split <;> rfl

theorem view_iterate (c : Controller) (i : Input) :
    (c.iterate i).view = timeoutView (handledView (c.foundView i) i) i := by
  have hstate : ∀ (d : Controller) (old : State), (d.logState old).view = d.view := by
    intro d old
    rw [logState]
    split <;> rfl
  have hkeys : ∀ d : Controller, d.logKeys.view = d.view := by
    intro d
    rw [logKeys]
    split <;> rfl
  rw [iterate, view_setTimeout, hkeys, hstate, view_handle]
  exact congrArg (fun v => timeoutView (handledView v i) i) (view_atHandler c i)

/-! ### The iteration as events of a door -/

/-- Who may open the door. -/
inductive Authority where
  | card (cardId : Bytes)
  | leave
  | white
  | remote
deriving DecidableEq, Repr

/-- The authority is there in an iteration from `c`. -/
def Holds (c : Controller) (i : Input) : Authority → Prop
  | .card cardId => cardId ≠ [] ∧ i.cardId = cardId ∧ i.access.access = .allowed
  | .leave => i.pressed.leave = true
  | .white => i.pressed.white = true ∧ i.thursday = true
  | .remote => c.remoteAction i = str "unlock"

def doorOf (state : State) (timeout : Int) : TimedDoor.Door Int :=
  match state with
  | .initial => .shut
  | .locked => .shut
  | .open => .free
  | .timedUnlock => .until timeout

/-- The door as the state has it. -/
def door (c : Controller) : TimedDoor.Door Int := doorOf c.state c.timeout

/-- The iteration lets somebody in who pressed Leave. -/
def leaveEvents (i : Input) : List (TimedDoor.Event Int Authority) :=
  if i.pressed.leave then [.grant (i.timeoutTime + leaveTime) .leave] else []

/-- With White nothing else counts, and with a card Leave does not. -/
def lockedEvents (i : Input) : List (TimedDoor.Event Int Authority) :=
  if i.pressed.white then if i.thursday then [.release .white] else []
  else if i.cardId ≠ [] then
    if i.access.access = .allowed then
      [.grant (i.timeoutTime + enterTime) (.card i.cardId)]
    else []
  else leaveEvents i

/-- Red comes first, then the time; White counts if neither has locked the door. -/
def timedEvents (ends : Bool) (i : Input) : List (TimedDoor.Event Int Authority) :=
  if i.pressed.red then [.close]
  else .tick i.handlerTime ::
    if i.pressed.white && i.thursday && !ends then [.release .white] else []

/-- A remote unlock only lasts where an earlier timeout is set and not reached. -/
def remoteEvents (lasts : Bool) (i : Input) : List (TimedDoor.Event Int Authority) :=
  if lasts then
    if i.pressed.white && i.thursday then [.release .white]
    else [.grant (i.timeoutTime + gwUnlockPeriod) .remote]
  else [.close]

/-- What the iteration is to the door. -/
def doorEvents (c : Controller) (i : Input) : List (TimedDoor.Event Int Authority) :=
  let v := c.foundView i
  match v.state with
  | .initial => []
  | .locked => .close :: lockedEvents i
  | .open => if i.thursday && !i.pressed.red then [] else [.close]
  | .timedUnlock =>
    (if c.remoteAction i = str "unlock" then
      remoteEvents (!(v.unlockEnds i || v.timeout = invalidTimePoint)) i
    else timedEvents (v.unlockEnds i) i) ++ leaveEvents i

/-- How long somebody is let in for; White opens the space. -/
def Authority.period : Authority → Option Int
  | .card _ => some enterTime
  | .leave => some leaveTime
  | .white => none
  | .remote => some gwUnlockPeriod

/-- Whoever opens the door may do so, and a grant is for its period. -/
def Authorised (c : Controller) (i : Input) : TimedDoor.Event Int Authority → Prop
  | .grant deadline why =>
    c.Holds i why ∧ ∃ period, why.period = some period ∧ deadline = i.timeoutTime + period
  | .release why => c.Holds i why ∧ why.period = none
  | .close => True
  | .tick _ => True

section Authorised

variable {c : Controller} {i : Input}

theorem authorised_leaveEvents : ∀ event ∈ leaveEvents i, c.Authorised i event := by
  intro event h
  rw [leaveEvents] at h
  split at h
  next hpressed =>
    rw [List.mem_singleton.mp h]
    exact ⟨hpressed, _, rfl, rfl⟩
  next => exact absurd h List.not_mem_nil

theorem authorised_white (h : (i.pressed.white && i.thursday) = true) :
    c.Authorised i (.release .white) := ⟨Bool.and_eq_true_iff.mp h, rfl⟩

theorem authorised_lockedEvents : ∀ event ∈ lockedEvents i, c.Authorised i event := by
  intro event h
  rw [lockedEvents] at h
  split at h
  next hpressed =>
    split at h
    next hday =>
      rw [List.mem_singleton.mp h]
      exact authorised_white (by rw [hpressed, hday]; rfl)
    next => exact absurd h List.not_mem_nil
  next =>
    split at h
    next hcard =>
      split at h
      next hallowed =>
        rw [List.mem_singleton.mp h]
        exact ⟨⟨hcard, rfl, hallowed⟩, _, rfl, rfl⟩
      next => exact absurd h List.not_mem_nil
    next => exact authorised_leaveEvents event h

theorem authorised_timedEvents {ends : Bool} :
    ∀ event ∈ timedEvents ends i, c.Authorised i event := by
  intro event h
  rw [timedEvents] at h
  split at h
  · rw [List.mem_singleton.mp h]
    trivial
  · rcases List.mem_cons.mp h with rfl | h
    · trivial
    · split at h
      next hpressed =>
        rw [List.mem_singleton.mp h]
        exact authorised_white (Bool.and_eq_true_iff.mp hpressed).1
      next => exact absurd h List.not_mem_nil

theorem authorised_remoteEvents {lasts : Bool} (hremote : c.remoteAction i = str "unlock") :
    ∀ event ∈ remoteEvents lasts i, c.Authorised i event := by
  intro event h
  rw [remoteEvents] at h
  split at h
  · split at h
    next hpressed =>
      rw [List.mem_singleton.mp h]
      exact authorised_white hpressed
    next =>
      rw [List.mem_singleton.mp h]
      exact ⟨hremote, _, rfl, rfl⟩
  · rw [List.mem_singleton.mp h]
    trivial

theorem authorised_of_mem : ∀ event ∈ c.doorEvents i, c.Authorised i event := by
  intro event h
  rw [doorEvents] at h
  split at h
  · exact absurd h List.not_mem_nil
  · rcases List.mem_cons.mp h with rfl | h
    · trivial
    · exact authorised_lockedEvents event h
  · split at h
    · exact absurd h List.not_mem_nil
    · rw [List.mem_singleton.mp h]
      trivial
  · rcases List.mem_append.mp h with h | h
    · split at h
      next hremote => exact authorised_remoteEvents hremote event h
      next => exact authorised_timedEvents event h
    · exact authorised_leaveEvents event h

end Authorised

/-! ### The controller is the abstract door -/

/-- No timeout is pending between two iterations, and a timed unlock has one. -/
structure TimerSet (v : View) : Prop where
  timeoutDur : v.timeoutDur = invalidDuration
  timeout : v.state = .timedUnlock → v.timeout ≠ invalidTimePoint

/-- The clock is later than the epoch when the timeout is set. -/
def AfterEpoch (i : Input) : Prop := 0 < i.timeoutTime

/-- The iteration ends in `v`: this is the abstract door, and its timeout is set. -/
structure EndsAs (v : View) (door : TimedDoor.Door Int) : Prop where
  door : doorOf v.state v.timeout = door
  timer : TimerSet v

/-- Nothing has been asked for. -/
theorem endsAs_unchanged {v : View} {i : Input} (h : TimerSet v) :
    EndsAs (timeoutView v i) (doorOf v.state v.timeout) := by
  rw [timeoutView, if_neg (not_not.mpr h.timeoutDur)]
  exact ⟨rfl, h⟩

/-- A period has been asked for in a state that is not a timed unlock any more. -/
theorem endsAs_withdrawn {v : View} {i : Input} (hstate : v.state ≠ .timedUnlock) :
    EndsAs (timeoutView v i) (doorOf v.state v.timeout) := by
  rw [timeoutView]
  have hdoor : ∀ timeout timeout', doorOf v.state timeout = doorOf v.state timeout' := by
    intro timeout timeout'
    cases h : v.state with
    | timedUnlock => exact absurd h hstate
    | _ => rfl
  split
  · exact ⟨hdoor _ _, rfl, fun h => absurd h hstate⟩
  next h => exact ⟨rfl, not_not.mp h, fun h => absurd h hstate⟩

/-- A period that is granted starts at the end of the iteration. -/
theorem endsAs_granted {v : View} {i : Input} (period : Int) (hclock : AfterEpoch i)
    (hpos : 0 < period) (hstate : v.state = .timedUnlock) (hdur : v.timeoutDur = period) :
    EndsAs (timeoutView v i) (.until (i.timeoutTime + period)) := by
  have hvalid : v.timeoutDur ≠ invalidDuration := by
    rw [hdur, invalidDuration]
    omega
  rw [timeoutView, if_pos hvalid, hdur]
  refine ⟨?_, rfl, fun _ => ?_⟩
  · rw [hstate]
    rfl
  · have hclock : 0 < i.timeoutTime := hclock
    change i.timeoutTime + period ≠ 0
    omega

section Handlers

variable {i : Input} (timeout : Int)

/-- What a handler finds in the state `s`. -/
def found (i : Input) (state : State) (timeout timeoutDur : Int) : View :=
  ⟨state, timeout, timeoutDur, i.pressed.read, i.cardId⟩

theorem endsAs_locked (hclock : AfterEpoch i) :
    EndsAs (timeoutView (lockedView (found i .locked timeout invalidDuration) i) i)
      (exec TimedDoor.step .shut (lockedEvents i)) := by
  have hshut : EndsAs (timeoutView (found i .locked timeout invalidDuration) i) .shut :=
    endsAs_withdrawn (v := found i .locked timeout invalidDuration) nofun
  have hgrant : lockedGrant (found i .locked timeout invalidDuration) i =
      if i.pressed.white then none
      else if i.cardId ≠ [] then if i.access.access = .allowed then some enterTime else none
      else if i.pressed.leave then some leaveTime else none := rfl
  have hwhite : (found i .locked timeout invalidDuration).keys.white = i.pressed.white := rfl
  rw [lockedView, hgrant, lockedEvents, leaveEvents, hwhite]
  cases i.pressed.white with
  | true =>
    rw [if_pos rfl, if_pos rfl]
    cases i.thursday with
    | true => exact endsAs_withdrawn (v := found i .open timeout invalidDuration) nofun
    | false => exact hshut
  | false =>
    rw [if_neg Bool.false_ne_true, if_neg Bool.false_ne_true]
    by_cases hnone : i.cardId = []
    · rw [if_neg (not_not.mpr hnone), if_neg (not_not.mpr hnone)]
      cases i.pressed.leave with
      | true => exact endsAs_granted leaveTime hclock (by decide) rfl rfl
      | false => exact hshut
    · rw [if_pos hnone, if_pos hnone]
      by_cases hallowed : i.access.access = .allowed
      · rw [if_pos hallowed, if_pos hallowed]
        exact endsAs_granted enterTime hclock (by decide) rfl rfl
      · rw [if_neg hallowed, if_neg hallowed]
        exact hshut

theorem endsAs_open :
    EndsAs (timeoutView (openView (found i .open timeout invalidDuration) i) i)
      (exec (TimedDoor.step (ρ := Authority)) .free
        (if i.thursday && !i.pressed.red then [] else [.close])) := by
  have hred : (found i .open timeout invalidDuration).keys.red = i.pressed.red := rfl
  rw [openView, hred]
  cases i.thursday && !i.pressed.red with
  | true => exact endsAs_withdrawn (v := found i .open timeout invalidDuration) nofun
  | false => exact endsAs_withdrawn (v := found i .locked timeout invalidDuration) nofun

/-- Leave comes after everything else. -/
theorem endsAs_leave {door : TimedDoor.Door Int} {v u : View}
    {events : List (TimedDoor.Event Int Authority)} (hclock : AfterEpoch i)
    (hleave : v.keys.leave = i.pressed.leave)
    (hends : EndsAs (timeoutView u i) (exec TimedDoor.step door events)) :
    EndsAs (timeoutView (if v.keys.leave then
        { u with state := .timedUnlock, timeoutDur := leaveTime } else u) i)
      (exec TimedDoor.step door (events ++ leaveEvents i)) := by
  rw [hleave, leaveEvents, exec_append]
  cases i.pressed.leave with
  | true => exact endsAs_granted leaveTime hclock (by decide) rfl rfl
  | false => exact hends

theorem endsAs_timedUnlock (hclock : AfterEpoch i) (hvalid : timeout ≠ invalidTimePoint) :
    let v := found i .timedUnlock timeout invalidDuration
    EndsAs (timeoutView (timedView v (v.unlockEnds i) i) i)
      (exec TimedDoor.step (.until timeout) (timedEvents (v.unlockEnds i) i ++ leaveEvents i)) := by
  intro v
  have hends : v.unlockEnds i = (i.pressed.red || decide (timeout ≤ i.handlerTime)) := by
    rw [View.unlockEnds]
    simp [v, found, Keys.read, hvalid]
  have htimeout : v.timeout = timeout := rfl
  have hwhite : v.keys.white = i.pressed.white := rfl
  apply endsAs_leave hclock rfl
  rw [htimeout, decide_eq_false hvalid, Bool.or_false, timedEvents, hwhite, hends]
  have hlocked : EndsAs (timeoutView { v with state := .locked, timeout := invalidTimePoint } i)
      .shut := endsAs_withdrawn (v := found i .locked invalidTimePoint invalidDuration) nofun
  cases i.pressed.red with
  | true => exact hlocked
  | false =>
    rw [if_neg Bool.false_ne_true, exec_cons, Bool.false_or]
    by_cases htime : timeout ≤ i.handlerTime
    · rw [TimedDoor.step_tick_of_le htime, decide_eq_true htime, Bool.not_true, Bool.and_false]
      exact hlocked
    · rw [TimedDoor.step_tick_of_lt (not_le.mp htime), decide_eq_false htime, Bool.not_false,
        Bool.and_true]
      cases i.pressed.white && i.thursday with
      | true => exact endsAs_withdrawn (v := found i .open timeout invalidDuration) nofun
      | false => exact endsAs_unchanged (v := v) ⟨rfl, fun _ => hvalid⟩

theorem endsAs_remote (door : TimedDoor.Door Int) (hclock : AfterEpoch i) :
    let v := found i .timedUnlock timeout gwUnlockPeriod
    EndsAs (timeoutView (timedView v (v.unlockEnds i) i) i)
      (exec TimedDoor.step door
        (remoteEvents (!(v.unlockEnds i || v.timeout = invalidTimePoint)) i ++
          leaveEvents i)) := by
  intro v
  have hwhite : v.keys.white = i.pressed.white := rfl
  apply endsAs_leave hclock rfl
  rw [remoteEvents, hwhite]
  cases v.unlockEnds i || decide (v.timeout = invalidTimePoint) with
  | true =>
    exact endsAs_withdrawn (v := found i .locked invalidTimePoint gwUnlockPeriod) nofun
  | false =>
    cases i.pressed.white && i.thursday with
    | true => exact endsAs_withdrawn (v := found i .open timeout gwUnlockPeriod) nofun
    | false => exact endsAs_granted gwUnlockPeriod hclock (by decide) rfl rfl

end Handlers

/-- **One iteration is its events**, and sets the timeout that it needs. -/
theorem endsAs_iterate {c : Controller} {i : Input} (hclock : AfterEpoch i)
    (h : TimerSet c.view) :
    EndsAs (c.iterate i).view (exec TimedDoor.step c.door (c.doorEvents i)) := by
  have hdur : c.timeoutDur = invalidDuration := h.timeoutDur
  rw [view_iterate, doorEvents]
  -- the three things an action can do to what the handler finds
  have hcases :
      (c.foundView i = found i .locked c.timeout invalidDuration ∧
        c.remoteAction i ≠ str "unlock") ∨
      (c.foundView i = found i .timedUnlock c.timeout gwUnlockPeriod ∧
        c.remoteAction i = str "unlock") ∨
      (c.foundView i = found i c.state c.timeout invalidDuration ∧
        c.remoteAction i ≠ str "unlock") := by
    rw [foundView]
    dsimp only [view]
    rw [hdur]
    split
    next hlock =>
      refine .inl ⟨rfl, ?_⟩
      rw [hlock.1]
      decide
    next =>
      split
      next hunlock => exact .inr (.inl ⟨rfl, hunlock⟩)
      next hunlock => exact .inr (.inr ⟨rfl, hunlock⟩)
  rcases hcases with ⟨hfound, hremote⟩ | ⟨hfound, hremote⟩ | ⟨hfound, hremote⟩
  · rw [hfound]
    exact endsAs_locked c.timeout hclock
  · rw [hfound]
    dsimp only [handledView, found]
    rw [if_pos hremote]
    exact endsAs_remote c.timeout c.door hclock
  · rw [hfound, door]
    cases hstate : c.state with
    | initial => exact endsAs_withdrawn (v := found i .locked c.timeout invalidDuration) nofun
    | locked => exact endsAs_locked c.timeout hclock
    | «open» => exact endsAs_open c.timeout
    | timedUnlock =>
      dsimp only [handledView, found]
      rw [if_neg hremote]
      exact endsAs_timedUnlock c.timeout hclock (h.timeout hstate)

theorem door_iterate {c : Controller} {i : Input} (hclock : AfterEpoch i) (h : TimerSet c.view) :
    (c.iterate i).door = exec TimedDoor.step c.door (c.doorEvents i) :=
  (endsAs_iterate hclock h).door

end Controller

/-! ### A run -/

open Controller (AfterEpoch Authority TimerSet)

/-- A query of the gateway does nothing to the door. -/
def Event.doorEvents (c : Controller) : Event → List (TimedDoor.Event Int Authority)
  | .query _ => []
  | .iterate i => c.doorEvents i

/-- All that a run is to the door. -/
def doorLog (events : List Event) : List (TimedDoor.Event Int Authority) :=
  emitted step Event.doorEvents {} events

/-- Every timeout of the run is set after the epoch. -/
def ClockSet (events : List Event) : Prop := ∀ event ∈ events, ∀ i, event = .iterate i → AfterEpoch i

theorem timerSet_step {c : Controller} {event : Event}
    (hclock : ∀ i, event = .iterate i → AfterEpoch i) (h : TimerSet c.view) :
    TimerSet (step c event).view := by
  cases event with
  | query reply => exact ⟨h.timeoutDur, h.timeout⟩
  | iterate i => exact (Controller.endsAs_iterate (hclock i rfl) h).timer

/-- **The controller refines the abstract door.** -/
theorem door_run (events : List Event) (hclock : ClockSet events) :
    (run events).door = exec TimedDoor.step .shut (doorLog events) := by
  refine exec_refinement step TimedDoor.step Event.doorEvents Controller.door
    (fun c => TimerSet c.view) (fun _ event => ∀ i, event = .iterate i → AfterEpoch i) ?_ ?_
    ⟨rfl, fun h => absurd h (by decide)⟩ (along_of_forall step hclock)
  · intro c event h hevent
    exact timerSet_step hevent h
  · intro c event h hevent
    cases event with
    | query reply => rfl
    | iterate i => exact Controller.door_iterate (hevent i rfl) h

/-- What the run has done to the door: it is open until the deadline of the last
    grant, or free since the last admission, if there has only been the clock
    since; and whoever opened it could. -/
structure DoorRefined (events : List Event) : Prop where
  timed : (run events).state = .timedUnlock ↔
    ∃ before event after, doorLog events = before ++ event :: after ∧
      (∃ why, event = .grant (run events).timeout why) ∧
      ∀ event ∈ after, ∃ now, event = .tick now ∧ now < (run events).timeout
  space : (run events).state = .open ↔
    ∃ before event after, doorLog events = before ++ event :: after ∧
      (∃ why, event = .release why) ∧ ∀ event ∈ after, ∃ now, event = .tick now
  authorised : ∀ pre i post, events = pre ++ .iterate i :: post →
    ∀ event ∈ (run pre).doorEvents i, (run pre).Authorised i event

theorem Controller.door_eq_until (c : Controller) :
    c.door = .until c.timeout ↔ c.state = .timedUnlock := by
  cases h : c.state <;> simp [Controller.door, Controller.doorOf, h]

theorem Controller.door_eq_free (c : Controller) : c.door = .free ↔ c.state = .open := by
  cases h : c.state <;> simp [Controller.door, Controller.doorOf, h]

theorem doorRefined_run (events : List Event) (hclock : ClockSet events) : DoorRefined events := by
  have hdoor := door_run events hclock
  constructor
  case timed =>
    rw [← Controller.door_eq_until, hdoor, TimedDoor.exec_eq_until_iff]
  case space => rw [← Controller.door_eq_free, hdoor, TimedDoor.exec_eq_free_iff]
  case authorised =>
    intro pre i post _
    exact Controller.authorised_of_mem

/-- An allowed card is swiped at the locked door, one second after the start. -/
def cardSwiped : List Event :=
  [.iterate {
     updateTime := Controller.seconds 100
     updatedTime := Controller.seconds 100
     timeoutTime := Controller.seconds 100 },
   .query none,
   .iterate {
     cardId := str "0000BB96C5"
     access := ⟨.allowed, 1⟩
     updateTime := Controller.seconds 101
     updatedTime := Controller.seconds 101
     timeoutTime := Controller.seconds 101 }]

theorem clockSet_cardSwiped : ClockSet cardSwiped := by
  intro event hmem i heq
  subst heq
  simp only [cardSwiped, List.mem_cons, Event.iterate.injEq, reduceCtorEq, false_or,
    List.not_mem_nil, or_false] at hmem
  rw [AfterEpoch]
  rcases hmem with rfl | rfl <;> decide

theorem doorRefined_run_sample : (run cardSwiped).state = .timedUnlock ∧
    ∃ before event after, doorLog cardSwiped = before ++ event :: after ∧
      (∃ why, event = .grant (Controller.seconds 131) why) ∧
      ∀ event ∈ after, ∃ now, event = .tick now ∧ now < Controller.seconds 131 := by
  have hstate : (run cardSwiped).state = .timedUnlock := by decide
  have htimeout : (run cardSwiped).timeout = Controller.seconds 131 := by decide
  have htimed := (doorRefined_run cardSwiped clockSet_cardSwiped).timed.mp hstate
  rw [htimeout] at htimed
  exact ⟨hstate, htimed⟩

end Acs.Opi
