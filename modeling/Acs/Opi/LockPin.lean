/-
  Acs/Opi/LockPin.lean
  ====================
  **The lock of the Orange Pi frontend, down to its GPIO pin** (`opi/lock.cpp`).

  The thread of `Lock` comes by every 100 ms and writes the state of the lock to
  the pin.  An iteration of the controller can write that state twice, in
  `update_gateway` and at the start of the handler.  In between it waits for
  Slack, for as long as the request takes, and the other threads go on.  So
  the iteration takes two turns here, and the gateway and the lock take theirs
  in between as well.

  The controller sets the state in the handlers, so the lock follows the door by
  one iteration: `handle_open` and `handle_timed_unlock` open it, `handle_locked`
  locks it.  A remote unlock opens it at once.  `pinFollows_run` says when the
  pin is high, and for whom.
-/
import Acs.Opi.Door

namespace Acs.Opi

open Acs Runs
open Controller (Authority AfterEpoch)

/-! ### The thread of the lock -/

/-- The members that `get_status` does not show, and the level of the pin. -/
structure LockThread where
  timedUnlockStart : Int := Controller.invalidTimePoint
  pin : Bool := false
deriving DecidableEq

namespace LockThread

/-- `TIMED_UNLOCK_DURATION`. -/
def timedUnlockDuration : Int := 6240 * 1000000

/-- A turn of `thread_body`.  No code calls `Lock::timed_unlock`, which would set
    `timed_unlock_start`. -/
def turn (t : LockThread) (lock : Lock) (now : Int) : LockThread :=
  if t.timedUnlockStart ≠ Controller.invalidTimePoint then
    if now - t.timedUnlockStart ≥ timedUnlockDuration then
      { timedUnlockStart := Controller.invalidTimePoint, pin := lock.state = .open }
    else { t with pin := true }
  else { t with pin := lock.state = .open }

end LockThread

namespace Controller

/-- The rest of an iteration, once `update_gateway` is done or not needed. -/
def afterUpdate (c : Controller) (i : Input) : Controller :=
  (((c.handle i).logState c.state).logKeys).setTimeout i

theorem iterate_eq (c : Controller) (i : Input) :
    c.iterate i = (c.atHandler i).afterUpdate i := rfl

end Controller

/-- The controller with the lock that it shares with the thread.  `inside` is the
    iteration whose handler has not been called yet. -/
structure Frontend where
  controller : Controller := {}
  inside : Option Input := none
  lockThread : LockThread := {}

/-- One of the three threads takes a turn.  The turns of the controller are the
    two parts of an iteration. -/
inductive Turn where
  | query (reply : Option Bytes)
  | update (i : Input)
  | handler
  | lock (now : Int)

namespace Frontend

def turn (f : Frontend) : Turn → Frontend
  | .query reply => { f with controller := step f.controller (.query reply) }
  | .update i =>
    match f.inside with
    | none => { f with controller := f.controller.atHandler i, inside := some i }
    | some _ => f
  | .handler =>
    match f.inside with
    | none => f
    | some i => { f with controller := f.controller.afterUpdate i, inside := none }
  | .lock now => { f with lockThread := f.lockThread.turn f.controller.lock now }

def run (turns : List Turn) : Frontend := exec turn {} turns

end Frontend

/-! ### What the handlers leave alone

The gateway can have its turn between `update_gateway` and the handler.  What
comes after `update_gateway` does not look at it. -/

namespace Controller

def withGateway (g : Gateway) (c : Controller) : Controller := { c with gateway := g }

section

variable (g : Gateway) (c : Controller)

@[simp] theorem state_withGateway : (c.withGateway g).state = c.state := rfl

@[simp] theorem keys_withGateway : (c.withGateway g).keys = c.keys := rfl

@[simp] theorem cardId_withGateway : (c.withGateway g).cardId = c.cardId := rfl

@[simp] theorem timeout_withGateway : (c.withGateway g).timeout = c.timeout := rfl

@[simp] theorem timeoutDur_withGateway : (c.withGateway g).timeoutDur = c.timeoutDur := rfl

end

/-- The gateway neither matters to `f` nor is changed by it. -/
def Ignores (f : Controller → Controller) : Prop :=
  ∀ g c, f (c.withGateway g) = (f c).withGateway g

namespace Ignores

theorem comp {f f' : Controller → Controller} (h' : Ignores f') (h : Ignores f) :
    Ignores fun c => f' (f c) := by
  intro g c
  change f' (f (c.withGateway g)) = (f' (f c)).withGateway g
  rw [h g c, h' g (f c)]

theorem checkThursday (i : Input) : Ignores (·.checkThursday i) := by
  intro g c
  change (c.withGateway g).checkThursday i = (c.checkThursday i).withGateway g
  rw [Controller.checkThursday, Controller.checkThursday]
  split <;> rfl

theorem checkCard (i : Input) (changeState : Bool) : Ignores (·.checkCard i changeState) := by
  intro g c
  change (c.withGateway g).checkCard i changeState = (c.checkCard i changeState).withGateway g
  rw [Controller.checkCard, Controller.checkCard]
  cases i.access.access with
  | allowed => cases changeState <;> rfl
  | _ => rfl

theorem endOpenPeriod (i : Input) : Ignores (·.endOpenPeriod i) := by
  intro g c
  change (c.withGateway g).endOpenPeriod i = (c.endOpenPeriod i).withGateway g
  rw [Controller.endOpenPeriod, Controller.endOpenPeriod]
  cases i.thursday with
  | false => rfl
  | true => cases hred : c.keys.red <;> simp [withGateway, emit, hred]

theorem showTimeLeft (i : Input) : Ignores (·.showTimeLeft i) := by
  intro g c
  change (c.withGateway g).showTimeLeft i = (c.showTimeLeft i).withGateway g
  rw [Controller.showTimeLeft, Controller.showTimeLeft]
  change (if c.timeout - i.displayTime ≤ unlockWarn then _ else _) = _
  dsimp only
  split
  · cases hsimulate : c.simulate <;> simp [withGateway, emit, hsimulate]
  · rfl

theorem lockedTests (i : Input) : Ignores fun c =>
    if c.keys.white then c.checkThursday i
    else if c.keys.green then
      { c.emit (.log (str "Green pressed")) with timeoutDur := unlockPeriod, state := .timedUnlock }
    else if c.cardId ≠ [] then c.checkCard i true
    else if c.keys.leave then c.leavePressed
    else c := by
  intro g c
  dsimp only
  rw [keys_withGateway, cardId_withGateway]
  split
  · exact checkThursday i g c
  · split
    · rfl
    · split
      · exact checkCard i true g c
      · split <;> rfl

theorem handleLocked (i : Input) : Ignores (·.handleLocked i) := fun g c =>
  lockedTests i g ((((c.ensureLockState .locked).emit (.setPattern .ready)).emit
    (.setStatus (str "Locked") .orange)).emit (.slackSetStatus (str ":lock: Door is locked")))

theorem handleOpen (i : Input) : Ignores (·.handleOpen i) := by
  intro g c
  change (c.withGateway g).handleOpen i = (c.handleOpen i).withGateway g
  have hend := endOpenPeriod i g ((c.ensureLockState .open).emit (.setStatus (str "Open") .green))
  have hcheck := (checkCard i false).comp (endOpenPeriod i) g
    ((c.ensureLockState .open).emit (.setStatus (str "Open") .green))
  rw [Controller.handleOpen, Controller.handleOpen]
  dsimp only at hend hcheck ⊢
  change (if ((((c.ensureLockState .open).emit (.setStatus (str "Open") .green)).withGateway
    g).endOpenPeriod i).cardId ≠ [] then _ else _) = _
  rw [hend, cardId_withGateway]
  split
  · exact hcheck
  · exact hend

theorem checkUnlock (i : Input) : Ignores (·.checkUnlock i) := by
  intro g c
  change (c.withGateway g).checkUnlock i = (c.checkUnlock i).withGateway g
  have hends : (c.withGateway g).unlockEnds i = c.unlockEnds i := rfl
  rw [Controller.checkUnlock, Controller.checkUnlock, hends, keys_withGateway,
    timeout_withGateway]
  split
  · rfl
  · split
    · exact checkThursday i g c
    · split
      · exact showTimeLeft i g c
      · rfl

theorem lockWithoutTimeout : Ignores (·.lockWithoutTimeout) := by
  intro g c
  change (c.withGateway g).lockWithoutTimeout = c.lockWithoutTimeout.withGateway g
  rw [Controller.lockWithoutTimeout, Controller.lockWithoutTimeout, timeout_withGateway]
  split <;> rfl

theorem handleTimedUnlock (i : Input) : Ignores (·.handleTimedUnlock i) := by
  intro g c
  change (c.withGateway g).handleTimedUnlock i = (c.handleTimedUnlock i).withGateway g
  have hunlocked : ((c.withGateway g).ensureLockState .open |>.checkUnlock i).lockWithoutTimeout =
      (((c.ensureLockState .open).checkUnlock i).lockWithoutTimeout).withGateway g :=
    lockWithoutTimeout.comp (checkUnlock i) g (c.ensureLockState .open)
  rw [Controller.handleTimedUnlock, Controller.handleTimedUnlock, hunlocked]
  rw [keys_withGateway]
  split <;> rfl

theorem handle (i : Input) : Ignores (·.handle i) := by
  intro g c
  change (c.withGateway g).handle i = (c.handle i).withGateway g
  rw [Controller.handle, Controller.handle, state_withGateway]
  cases c.state with
  | initial => rfl
  | locked => exact handleLocked i g c
  | «open» => exact handleOpen i g c
  | timedUnlock => exact handleTimedUnlock i g c

theorem logState (oldState : State) : Ignores (·.logState oldState) := by
  intro g c
  change (c.withGateway g).logState oldState = (c.logState oldState).withGateway g
  rw [Controller.logState, Controller.logState, state_withGateway]
  split <;> rfl

theorem logKeys : Ignores (·.logKeys) := by
  intro g c
  change (c.withGateway g).logKeys = c.logKeys.withGateway g
  rw [Controller.logKeys, Controller.logKeys, keys_withGateway]
  split <;> rfl

theorem setTimeout (i : Input) : Ignores (·.setTimeout i) := by
  intro g c
  change (c.withGateway g).setTimeout i = (c.setTimeout i).withGateway g
  rw [Controller.setTimeout, Controller.setTimeout, timeoutDur_withGateway]
  split <;> rfl

theorem afterUpdate (i : Input) : Ignores (·.afterUpdate i) := by
  intro g c
  exact (setTimeout i).comp (logKeys.comp ((logState c.state).comp (handle i))) g c

end Ignores

theorem gateway_afterUpdate (c : Controller) (i : Input) :
    (c.afterUpdate i).gateway = c.gateway :=
  ((((SameGateway.handle c i).trans (.logState _ _)).trans (.logKeys _)).trans
    (.setTimeout _ i)).gateway

end Controller

/-! ### What an iteration does to the lock -/

namespace Controller

/-- The handler that the iteration calls opens the lock. -/
def OpensLock (c : Controller) (i : Input) : Prop :=
  (c.foundView i).state = .open ∨ (c.foundView i).state = .timedUnlock

/-- Before the first handler the lock is locked. -/
def InitialLocked (c : Controller) : Prop := c.state = .initial → c.lock.state = .locked

theorem foundView_initial {c : Controller} {i : Input} (h : (c.foundView i).state = .initial) :
    c.state = .initial ∧ c.remoteAction i ≠ str "unlock" := by
  rw [foundView] at h
  split at h
  · cases h
  · split at h
    · cases h
    next hunlock => exact ⟨h, hunlock⟩

/-- The action `lock` is refused while the lock is open, so an action can open the
    lock but does not lock it. -/
theorem state_lock_startAction {c : Controller} (hlast : c.lastLockStatus = c.lock)
    (action : Bytes) :
    (c.startAction action).lock.state =
      if action = str "unlock" then .open else c.lock.state := by
  by_cases hlock : action = str "lock"
  · have hne : action ≠ str "unlock" := by
      rw [hlock]
      decide
    rw [hlock] at hne ⊢
    rw [if_neg hne]
    by_cases hopen : c.lastLockStatus.state = .open
    · rw [(startAction_lock_of_open hopen).1]
    · rw [(startAction_lock_of_ne hopen).1]
      rw [hlast] at hopen
      cases hstate : c.lock.state with
      | «open» => exact absurd hstate hopen
      | locked => rfl
  · rw [startAction]
    dsimp only
    rw [if_neg hlock]
    split <;> rfl

/-- **The lock when the handler is called**: only a remote unlock has changed it. -/
theorem state_lock_atHandler (c : Controller) (i : Input) :
    (c.atHandler i).lock.state =
      if c.remoteAction i = str "unlock" then .open else c.lock.state := by
  have hnote : (c.readInputs i).noteChange.lock = c.lock :=
    (lock_noteChange _).trans (lock_readInputs c i)
  have hlast : (c.readInputs i).noteChange.lastLockStatus = (c.readInputs i).noteChange.lock :=
    (lastLockStatus_noteChange _).trans (lock_noteChange _).symm
  have haction : (c.readInputs i).noteChange.gateway.currentAction = c.gateway.currentAction :=
    congrArg Gateway.currentAction ((SameGateway.readInputs c i).trans (.noteChange _)).gateway
  rw [remoteAction, updates, atHandler, gatewayUpdate]
  dsimp only
  split
  next hneeded =>
    change ((c.readInputs i).noteChange.setGatewayStatus.checkAction).lock.state = _
    rw [checkAction, ← haction, ← hnote]
    split
    next hnil =>
      have hnone : (c.readInputs i).noteChange.gateway.currentAction = [] := hnil
      rw [hnone, if_neg (by decide)]
      rfl
    next =>
      exact state_lock_startAction (c := (c.readInputs i).noteChange.setGatewayStatus) hlast _
  next =>
    rw [if_neg (by decide), hnote]

theorem lock_atHandler_open_iff (c : Controller) (i : Input) :
    (c.atHandler i).lock.state = .open ↔
      c.lock.state = .open ∨ c.remoteAction i = str "unlock" := by
  rw [state_lock_atHandler]
  by_cases hunlock : c.remoteAction i = str "unlock"
  · rw [if_pos hunlock]
    exact iff_of_true rfl (.inr hunlock)
  · rw [if_neg hunlock, or_iff_left hunlock]

/-- **The lock after an iteration** is open exactly if its handler opens it. -/
theorem lock_iterate_open_iff {c : Controller} (hinit : InitialLocked c) (i : Input) :
    (c.iterate i).lock.state = .open ↔ c.OpensLock i := by
  have hstate : (c.atHandler i).state = (c.foundView i).state :=
    congrArg View.state (view_atHandler c i)
  have hlock : (c.iterate i).lock =
      (c.atHandler i).state.lockState.elim (c.atHandler i).lock (c.atHandler i).lock.setState := by
    rw [iterate, lock_setTimeout, lock_logKeys, lock_logState]
    exact lock_handle _ i
  rw [hlock, hstate, OpensLock]
  cases hfound : (c.foundView i).state with
  | initial =>
    obtain ⟨hstart, hremote⟩ := foundView_initial hfound
    change (c.atHandler i).lock.state = .open ↔ _
    rw [state_lock_atHandler, if_neg hremote, hinit hstart]
    simp
  | locked =>
    refine iff_of_false ?_ (by simp)
    intro h
    cases h
  | «open» => exact iff_of_true rfl (.inl rfl)
  | timedUnlock => exact iff_of_true rfl (.inr rfl)

theorem state_iterate_ne_initial (c : Controller) (i : Input) : (c.iterate i).state ≠ .initial := by
  have hview : (c.iterate i).state = (timeoutView (handledView (c.foundView i) i) i).state :=
    congrArg View.state (view_iterate c i)
  have htimeout : ∀ v : View, (timeoutView v i).state = v.state := by
    intro v
    rw [timeoutView]
    split <;> rfl
  rw [hview, htimeout, handledView]
  cases hfound : (c.foundView i).state with
  | initial => exact State.noConfusion
  | locked =>
    dsimp only
    rw [lockedView]
    split
    · exact State.noConfusion
    · dsimp only
      rw [hfound]
      split <;> exact State.noConfusion
  | «open» =>
    dsimp only
    rw [openView, hfound]
    dsimp only
    split <;> exact State.noConfusion
  | timedUnlock =>
    dsimp only
    rw [timedView]
    split
    · exact State.noConfusion
    · split
      · exact State.noConfusion
      · dsimp only
        rw [hfound]
        split <;> exact State.noConfusion

end Controller

/-! ### In a run -/

theorem initialLocked_run (events : List Event) : (run events).InitialLocked := by
  refine exec_invariant_of_forall step (fun _ => True) Controller.InitialLocked ?_ (fun _ => rfl)
    fun _ _ => trivial
  intro c event h _
  cases event with
  | query reply => exact h
  | iterate i =>
    intro hstate
    exact absurd hstate (Controller.state_iterate_ne_initial c i)

/-- Only the gateway has a turn. -/
def OnlyQueries (events : List Event) : Prop := ∀ event ∈ events, ∃ reply, event = .query reply

theorem OnlyQueries.nil : OnlyQueries [] := List.forall_mem_nil _

theorem OnlyQueries.snoc {events : List Event} (h : OnlyQueries events) (reply : Option Bytes) :
    OnlyQueries (events ++ [.query reply]) := by
  rw [OnlyQueries, List.forall_mem_append, List.forall_mem_singleton]
  exact ⟨h, reply, rfl⟩

theorem lock_onlyQueries {events : List Event} (h : OnlyQueries events) (c : Controller) :
    (exec step c events).lock = c.lock := by
  refine exec_invariant_of_forall step (fun event => ∃ reply, event = .query reply)
    (fun d => d.lock = c.lock) ?_ rfl h
  rintro d event hd ⟨reply, rfl⟩
  exact hd

/-- Queries after `update_gateway` are as good as queries after the handler. -/
theorem Controller.afterUpdate_queries {queries : List Event} (h : OnlyQueries queries)
    (c : Controller) (i : Input) :
    (exec step c queries).afterUpdate i = exec step (c.afterUpdate i) queries := by
  induction queries generalizing c with
  | nil => rfl
  | cons event queries ih =>
    obtain ⟨reply, rfl⟩ := h event List.mem_cons_self
    rw [exec_cons, exec_cons, ih fun event hmem => h event (List.mem_cons_of_mem _ hmem)]
    have hquery := Controller.Ignores.afterUpdate i (c.gateway.fetch reply) c
    have hstep : step (c.afterUpdate i) (.query reply) =
        (c.afterUpdate i).withGateway (c.gateway.fetch reply) := by
      rw [← c.gateway_afterUpdate i]
      rfl
    rw [hstep, ← hquery]
    rfl

/-- A run without any iteration, or one that has a last one. -/
theorem onlyQueries_or_last (events : List Event) :
    OnlyQueries events ∨ ∃ before i queries, events = before ++ .iterate i :: queries ∧
      OnlyQueries queries := by
  induction events using List.reverseRecOn with
  | nil => exact .inl .nil
  | append_singleton events event ih =>
    cases event with
    | iterate i => exact .inr ⟨events, i, [], rfl, .nil⟩
    | query reply =>
      rcases ih with hall | ⟨before, i, queries, rfl, hall⟩
      · exact .inl (hall.snoc reply)
      · refine .inr ⟨before, i, queries ++ [.query reply], ?_, hall.snoc reply⟩
        rw [List.append_assoc, List.cons_append]

/-- **The lock is open** exactly if the last handler has opened it. -/
theorem lock_open_iff (before : List Event) (i : Input) {queries : List Event}
    (h : OnlyQueries queries) :
    (run (before ++ .iterate i :: queries)).lock.state = .open ↔ (run before).OpensLock i := by
  rw [run, exec_append, exec_cons, lock_onlyQueries h]
  exact Controller.lock_iterate_open_iff (initialLocked_run before) i

theorem lock_locked_of_onlyQueries {events : List Event} (h : OnlyQueries events) :
    (run events).lock.state ≠ .open := by
  rw [run, lock_onlyQueries h]
  decide

/-! ### Who has opened the lock -/

/-- Every iteration of the events opens the lock. -/
def AllOpenLock (c : Controller) (events : List Event) : Prop :=
  Along step (fun c event => ∀ i, event = .iterate i → c.OpensLock i) c events

theorem Controller.doorEvents_of_locked {c : Controller} {i : Input}
    (h : (c.foundView i).state = .locked) : .close ∈ c.doorEvents i := by
  unfold Controller.doorEvents
  generalize c.foundView i = v at h
  simp [h]

/-- An iteration that is nothing but the clock to the door opens the lock. -/
theorem opensLock_of_onlyTicks {c : Controller} {i : Input} (hstate : c.state ≠ .initial)
    (h : ∀ event ∈ c.doorEvents i, ∃ now, event = .tick now) : c.OpensLock i := by
  rw [Controller.OpensLock]
  cases hfound : (c.foundView i).state with
  | initial => exact absurd (Controller.foundView_initial hfound).1 hstate
  | locked =>
    obtain ⟨now, hclose⟩ := h .close (Controller.doorEvents_of_locked hfound)
    cases hclose
  | «open» => exact .inl rfl
  | timedUnlock => exact .inr rfl

theorem allOpenLock_queries {c : Controller} {queries : List Event} (h : OnlyQueries queries) :
    AllOpenLock c queries := by
  refine (along_of_forall step h).imp ?_
  rintro d event ⟨reply, rfl⟩ i heq
  cases heq

theorem allOpenLock_of_onlyTicks {c : Controller} (hstate : c.state ≠ .initial)
    {events : List Event}
    (h : ∀ event ∈ emitted step Event.doorEvents c events, ∃ now, event = .tick now) :
    AllOpenLock c events := by
  induction events generalizing c with
  | nil => trivial
  | cons event events ih =>
    rw [emitted_cons, List.forall_mem_append] at h
    cases event with
    | query reply =>
      refine ⟨?_, ih hstate h.2⟩
      intro i heq
      cases heq
    | iterate i =>
      refine ⟨?_, ih (Controller.state_iterate_ne_initial c i) h.2⟩
      intro j heq
      cases heq
      exact opensLock_of_onlyTicks hstate h.1

theorem doorEvents_query {c : Controller} {event : Event}
    {opener : TimedDoor.Event Int Authority} (h : opener ∈ event.doorEvents c) :
    ∃ i, event = .iterate i ∧ opener ∈ c.doorEvents i := by
  cases event with
  | query reply => exact absurd h List.not_mem_nil
  | iterate i => exact ⟨i, rfl, h⟩

theorem Controller.Authorised.holds {c : Controller} {i : Input}
    {event : TimedDoor.Event Int Authority} {why : Authority} (h : c.Authorised i event)
    (hwhy : event.why = some why) : c.Holds i why := by
  cases event with
  | grant deadline who => cases hwhy; exact h.1
  | release who => cases hwhy; exact h.1
  | close => cases hwhy
  | tick now => cases hwhy

/-- **A door that is not shut** has been opened by somebody who might do so, and
    every iteration since has opened the lock. -/
theorem exists_authority {events : List Event} (hclock : ClockSet events)
    (hdoor : (run events).door ≠ .shut) :
    ∃ before i after why, events = before ++ .iterate i :: after ∧ (run before).Holds i why ∧
      AllOpenLock (run (before ++ [.iterate i])) after := by
  rw [door_run events hclock] at hdoor
  obtain ⟨pre, opener, post, hlog, hwhy, hticks⟩ := TimedDoor.exists_opener hdoor
  obtain ⟨why, hwhy⟩ := Option.isSome_iff_exists.mp hwhy
  obtain ⟨before, event, after, front, back, rfl, hout, -, hpost⟩ :=
    emitted_eq_append_cons step Event.doorEvents hlog
  have hmem : opener ∈ event.doorEvents (exec step {} before) := by
    rw [hout]
    exact List.mem_append_right _ List.mem_cons_self
  obtain ⟨i, rfl, hmem⟩ := doorEvents_query hmem
  refine ⟨before, i, after, why, rfl, (Controller.authorised_of_mem opener hmem).holds hwhy, ?_⟩
  apply allOpenLock_of_onlyTicks
  · rw [run, exec_snoc]
    exact Controller.state_iterate_ne_initial _ i
  · rw [hpost, List.forall_mem_append] at hticks
    exact hticks.2

theorem Controller.door_ne_shut {c : Controller} (h : c.state = .open ∨ c.state = .timedUnlock) :
    c.door ≠ .shut := by
  rcases h with h | h <;> simp [Controller.door, Controller.doorOf, h]

/-- What opens the lock in an iteration was open before it, or is unlocked
    remotely in it. -/
theorem Controller.OpensLock.cases {c : Controller} {i : Input} (h : c.OpensLock i) :
    c.remoteAction i = str "unlock" ∨ c.door ≠ .shut := by
  by_cases hremote : c.remoteAction i = str "unlock"
  · exact .inl hremote
  refine .inr (Controller.door_ne_shut ?_)
  rw [OpensLock, foundView] at h
  dsimp only at h
  split at h
  · rcases h with h | h <;> cases h
  · exact h

/-! ### The turns as a run of the controller -/

namespace Frontend

/-- What the turns are to the controller: the events of a run, in which an
    iteration stands where it began, and the iteration that is under way with the
    queries since. -/
structure Log where
  handled : List Event := []
  underWay : Option (Input × List Event) := none

namespace Log

def turn (l : Log) : Turn → Log
  | .query reply =>
    match l.underWay with
    | none => { l with handled := l.handled ++ [.query reply] }
    | some (i, queries) => { l with underWay := some (i, queries ++ [.query reply]) }
  | .update i =>
    match l.underWay with
    | none => { l with underWay := some (i, []) }
    | some _ => l
  | .handler =>
    match l.underWay with
    | none => l
    | some (i, queries) => { handled := l.handled ++ .iterate i :: queries, underWay := none }
  | .lock _ => l

/-- The iteration under way has started the action `unlock`. -/
def UnlockedRemotely (l : Log) : Prop :=
  ∃ i queries, l.underWay = some (i, queries) ∧
    (Opi.run l.handled).remoteAction i = str "unlock"

end Log

def log (turns : List Turn) : Log := exec Log.turn {} turns

/-- The controller is in the run that the log has, and the thread of the lock has
    nothing to time. -/
structure Refines (f : Frontend) (l : Log) : Prop where
  between : l.underWay = none → f.inside = none ∧ f.controller = Opi.run l.handled
  within : ∀ i queries, l.underWay = some (i, queries) →
    OnlyQueries queries ∧ f.inside = some i ∧
      f.controller = exec step ((Opi.run l.handled).atHandler i) queries
  timedUnlockStart : f.lockThread.timedUnlockStart = Controller.invalidTimePoint

namespace Refines

variable {f : Frontend} {l : Log}

theorem query (h : Refines f l) (reply : Option Bytes) :
    Refines (f.turn (.query reply)) (l.turn (.query reply)) := by
  rw [Frontend.turn, Log.turn]
  cases hway : l.underWay with
  | none =>
    obtain ⟨hinside, hcontroller⟩ := h.between hway
    dsimp only
    refine ⟨fun _ => ⟨hinside, ?_⟩, fun i queries heq => absurd heq (by simp), h.timedUnlockStart⟩
    rw [Opi.run, exec_snoc]
    exact congrArg (step · (.query reply)) hcontroller
  | some way =>
    obtain ⟨hqueries, hinside, hcontroller⟩ := h.within way.1 way.2 hway
    dsimp only
    refine ⟨fun heq => absurd heq (by simp), ?_, h.timedUnlockStart⟩
    rintro i queries heq
    obtain ⟨rfl, rfl⟩ := Prod.mk.inj (Option.some.inj heq)
    refine ⟨hqueries.snoc reply, hinside, ?_⟩
    rw [exec_snoc]
    exact congrArg (step · (.query reply)) hcontroller

theorem update (h : Refines f l) (i : Input) :
    Refines (f.turn (.update i)) (l.turn (.update i)) := by
  rw [Frontend.turn, Log.turn]
  cases hway : l.underWay with
  | none =>
    obtain ⟨hinside, hcontroller⟩ := h.between hway
    rw [hinside]
    dsimp only
    refine ⟨fun heq => absurd heq (by simp), ?_, h.timedUnlockStart⟩
    rintro j queries heq
    obtain ⟨rfl, rfl⟩ := Prod.mk.inj (Option.some.inj heq)
    exact ⟨.nil, rfl, congrArg (·.atHandler i) hcontroller⟩
  | some way =>
    rw [(h.within way.1 way.2 hway).2.1]
    exact h

/-- The queries since the iteration began can as well have come after it. -/
theorem handler (h : Refines f l) : Refines (f.turn .handler) (l.turn .handler) := by
  rw [Frontend.turn, Log.turn]
  cases hway : l.underWay with
  | none =>
    rw [(h.between hway).1]
    exact h
  | some way =>
    obtain ⟨hqueries, hinside, hcontroller⟩ := h.within way.1 way.2 hway
    rw [hinside]
    dsimp only
    refine ⟨fun _ => ⟨rfl, ?_⟩, fun i queries heq => absurd heq (by simp), h.timedUnlockStart⟩
    rw [hcontroller, Controller.afterUpdate_queries hqueries, ← Controller.iterate_eq]
    exact (exec_append step {} l.handled (.iterate way.1 :: way.2)).symm

theorem lock (h : Refines f l) (now : Int) :
    Refines (f.turn (.lock now)) (l.turn (.lock now)) := by
  refine ⟨h.between, h.within, ?_⟩
  change (f.lockThread.turn f.controller.lock now).timedUnlockStart = _
  rw [LockThread.turn, if_neg (not_not.mpr h.timedUnlockStart)]
  exact h.timedUnlockStart

end Refines

/-- **The turns are a run of the controller.** -/
theorem refines_run (turns : List Turn) : Refines (run turns) (log turns) := by
  have hstart : Refines {} {} := ⟨fun _ => ⟨rfl, rfl⟩, fun _ _ heq => absurd heq (by simp), rfl⟩
  have hrun : Refines (exec turn {} turns) (exec Log.turn {} (turns.map id)) := by
    refine exec_simulation_of_forall turn Log.turn id (fun _ => True) Refines
      (fun f l t h _ => ?_) hstart fun _ _ => trivial
    cases t with
    | query reply => exact h.query reply
    | update i => exact h.update i
    | handler => exact h.handler
    | lock now => exact h.lock now
  rw [List.map_id] at hrun
  exact hrun

/-- A turn of the thread writes the state of the lock to the pin. -/
theorem pin_lock (turns : List Turn) (now : Int) :
    (run (turns ++ [.lock now])).lockThread.pin =
      decide ((run turns).controller.lock.state = .open) := by
  rw [run, exec_snoc]
  change ((run turns).lockThread.turn (run turns).controller.lock now).pin = _
  rw [LockThread.turn, if_neg (not_not.mpr (refines_run turns).timedUnlockStart)]

/-- The lock is open if the run of the log leaves it open, or the iteration under
    way has opened it. -/
theorem lock_open_iff (turns : List Turn) :
    (run turns).controller.lock.state = .open ↔
      (Opi.run (log turns).handled).lock.state = .open ∨ (log turns).UnlockedRemotely := by
  have hrefines := refines_run turns
  cases hway : (log turns).underWay with
  | none =>
    have hnone : ¬ (log turns).UnlockedRemotely := by
      rintro ⟨i, queries, heq, -⟩
      rw [hway] at heq
      cases heq
    rw [(hrefines.between hway).2, or_iff_left hnone]
  | some way =>
    obtain ⟨hqueries, -, hcontroller⟩ := hrefines.within way.1 way.2 hway
    have hremote : (log turns).UnlockedRemotely ↔
        (Opi.run (log turns).handled).remoteAction way.1 = str "unlock" := by
      constructor
      · rintro ⟨i, queries, heq, hunlock⟩
        rw [hway] at heq
        rw [Option.some.inj heq]
        exact hunlock
      · intro hunlock
        exact ⟨way.1, way.2, hway, hunlock⟩
    rw [hcontroller, lock_onlyQueries hqueries, Controller.lock_atHandler_open_iff, hremote]

end Frontend

/-! ### The pin -/

/-- The last handler of the run has opened the lock. -/
def LastHandlerOpens (events : List Event) : Prop :=
  ∃ before i queries, events = before ++ .iterate i :: queries ∧ OnlyQueries queries ∧
    (run before).OpensLock i

theorem lastHandlerOpens_iff (events : List Event) :
    LastHandlerOpens events ↔ (run events).lock.state = .open := by
  constructor
  · rintro ⟨before, i, queries, rfl, hall, hopens⟩
    exact (lock_open_iff before i hall).mpr hopens
  · intro hopen
    rcases onlyQueries_or_last events with hall | ⟨before, i, queries, rfl, hall⟩
    · exact absurd hopen (lock_locked_of_onlyQueries hall)
    · exact ⟨before, i, queries, rfl, hall, (lock_open_iff before i hall).mp hopen⟩

/-- Somebody might open the door in an iteration of the run, and every handler
    since has opened the lock. -/
def OpenedBySomebody (events : List Event) : Prop :=
  ∃ before i after why, events = before ++ .iterate i :: after ∧ (run before).Holds i why ∧
    AllOpenLock (run (before ++ [.iterate i])) after

theorem LastHandlerOpens.openedBySomebody {events : List Event} (h : LastHandlerOpens events)
    (hclock : ClockSet events) : OpenedBySomebody events := by
  obtain ⟨before, i, queries, rfl, hall, hopens⟩ := h
  rcases hopens.cases with hremote | hdoor
  · exact ⟨before, i, queries, .remote, rfl, hremote, allOpenLock_queries hall⟩
  · have hbefore : ClockSet before := fun event hmem =>
      hclock event (List.mem_append_left _ hmem)
    obtain ⟨pre, j, post, why, rfl, hholds, hsince⟩ := exists_authority hbefore hdoor
    refine ⟨pre, j, post ++ .iterate i :: queries, why, ?_, hholds, ?_⟩
    · rw [List.append_assoc, List.cons_append]
    · rw [AllOpenLock, along_append]
      refine ⟨hsince, ?_, allOpenLock_queries hall⟩
      intro k hk
      cases hk
      rw [run, ← exec_append, List.append_assoc, List.singleton_append]
      exact hopens

/-- The pin after a turn of the thread of the lock, and the turns before it. -/
structure PinFollows (turns : List Turn) (now : Int) : Prop where
  /-- For the controller they are a run, with an iteration where it began. -/
  refines : Frontend.Refines (Frontend.run turns) (Frontend.log turns)
  /-- The pin is high exactly if the last handler has opened the lock, or since
      then a remote unlock, whose handler is still to come. -/
  follows : (Frontend.run (turns ++ [.lock now])).lockThread.pin = true ↔
    LastHandlerOpens (Frontend.log turns).handled ∨ (Frontend.log turns).UnlockedRemotely
  /-- It is not high without such a remote unlock or somebody who has opened the
      door, since when every handler has opened the lock. -/
  authorised : (Frontend.run (turns ++ [.lock now])).lockThread.pin = true →
    OpenedBySomebody (Frontend.log turns).handled ∨ (Frontend.log turns).UnlockedRemotely

/-- **The pin follows the door**, whatever the order of the turns. -/
theorem pinFollows_run (turns : List Turn) (now : Int)
    (hclock : ClockSet (Frontend.log turns).handled) : PinFollows turns now := by
  have hpin : (Frontend.run (turns ++ [.lock now])).lockThread.pin = true ↔
      LastHandlerOpens (Frontend.log turns).handled ∨ (Frontend.log turns).UnlockedRemotely := by
    rw [Frontend.pin_lock, decide_eq_true_iff, Frontend.lock_open_iff, lastHandlerOpens_iff]
  constructor
  case refines => exact Frontend.refines_run turns
  case follows => exact hpin
  case authorised =>
    intro hhigh
    rcases hpin.mp hhigh with hopens | hremote
    · exact .inl (hopens.openedBySomebody hclock)
    · exact .inr hremote

/-- After a card has been swiped the next iteration opens the lock. -/
def lockOpened : List Turn :=
  [.update {
     updateTime := Controller.seconds 100
     updatedTime := Controller.seconds 100
     timeoutTime := Controller.seconds 100 },
   .query none,
   .handler,
   .update {
     cardId := str "0000BB96C5"
     access := ⟨.allowed, 1⟩
     updateTime := Controller.seconds 101
     updatedTime := Controller.seconds 101
     timeoutTime := Controller.seconds 101 },
   .handler,
   .update {
     updateTime := Controller.seconds 102
     updatedTime := Controller.seconds 102
     handlerTime := Controller.seconds 102
     displayTime := Controller.seconds 102
     timeoutTime := Controller.seconds 102 },
   .handler]

/-- The gateway unlocks a locked door, and Slack takes its time. -/
def unlockedRemotely : List Turn :=
  [.update {
     updateTime := Controller.seconds 100
     updatedTime := Controller.seconds 100
     timeoutTime := Controller.seconds 100 },
   .handler,
   .query (some (str "unlock")),
   .update { updateTime := Controller.seconds 120, updatedTime := Controller.seconds 125 },
   .query none]

theorem clockSet_lockOpened : ClockSet (Frontend.log lockOpened).handled := by
  intro event hmem i heq
  subst heq
  simp only [Frontend.log, lockOpened, exec_cons, exec_nil, Frontend.Log.turn, List.nil_append,
    List.cons_append, List.mem_cons, Event.iterate.injEq, reduceCtorEq, false_or,
    List.not_mem_nil, or_false] at hmem
  rw [AfterEpoch]
  rcases hmem with rfl | rfl | rfl <;> decide

theorem clockSet_unlockedRemotely : ClockSet (Frontend.log unlockedRemotely).handled := by
  intro event hmem i heq
  subst heq
  simp only [Frontend.log, unlockedRemotely, exec_cons, exec_nil, Frontend.Log.turn,
    List.nil_append, List.cons_append, List.mem_cons, Event.iterate.injEq, reduceCtorEq,
    List.not_mem_nil, or_false] at hmem
  rw [AfterEpoch, hmem]
  decide

theorem pinFollows_run_sample :
    ((Frontend.run (lockOpened ++ [.lock 0])).lockThread.pin = true ∧
      OpenedBySomebody (Frontend.log lockOpened).handled) ∧
    ((Frontend.run (unlockedRemotely ++ [.lock 0])).lockThread.pin = true ∧
      (Frontend.log unlockedRemotely).UnlockedRemotely) := by
  have hcard : (Frontend.run (lockOpened ++ [.lock 0])).lockThread.pin = true := by decide
  have hremote : (Frontend.run (unlockedRemotely ++ [.lock 0])).lockThread.pin = true := by decide
  refine ⟨⟨hcard, ?_⟩, hremote, ?_⟩
  · refine ((pinFollows_run lockOpened 0 clockSet_lockOpened).authorised hcard).resolve_right ?_
    rintro ⟨i, queries, hway, -⟩
    cases hway
  · refine ((pinFollows_run unlockedRemotely 0 clockSet_unlockedRemotely).follows.mp
      hremote).resolve_left ?_
    rw [lastHandlerOpens_iff]
    decide

end Acs.Opi
