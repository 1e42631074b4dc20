/-
  Acs/Opi/RemoteLock.lean
  =======================
  **The gateway action `lock` on the Orange Pi frontend.**

  There are two things that can be open: the door, and the lock when it is not
  locked.  `update_gateway` refuses to lock when `last_lock_status.state` is
  open, with the message that the door is.  That is the lock, so it is refused
  when there is something to lock (`updateGateway_lock`), whatever the door does
  (`lockObeyed_iff`).
-/
import Acs.Opi.Controller

namespace Acs.Opi

open Acs Runs

namespace Controller

/-! ### What an iteration does to the lock

A handler sets the lock before anything else, to the same state each time. -/

@[simp] theorem lock_checkThursday (c : Controller) (i : Input) :
    (c.checkThursday i).lock = c.lock := by
  rw [checkThursday]
  split <;> rfl

@[simp] theorem lock_checkCard (c : Controller) (i : Input) (changeState : Bool) :
    (c.checkCard i changeState).lock = c.lock := by
  rw [checkCard]
  cases i.access.access with
  | allowed => cases changeState <;> rfl
  | _ => rfl

@[simp] theorem lock_endOpenPeriod (c : Controller) (i : Input) :
    (c.endOpenPeriod i).lock = c.lock := by
  rw [endOpenPeriod]
  split
  · rfl
  · split <;> rfl

@[simp] theorem lock_showTimeLeft (c : Controller) (i : Input) :
    (c.showTimeLeft i).lock = c.lock := by
  rw [showTimeLeft]
  dsimp only
  split
  · cases c.simulate <;> rfl
  · rfl

@[simp] theorem lock_checkUnlock (c : Controller) (i : Input) :
    (c.checkUnlock i).lock = c.lock := by
  rw [checkUnlock]
  split
  · rfl
  · split
    · exact lock_checkThursday c i
    · split
      · exact lock_showTimeLeft c i
      · rfl

@[simp] theorem lock_lockWithoutTimeout (c : Controller) :
    c.lockWithoutTimeout.lock = c.lock := by
  rw [lockWithoutTimeout]
  split <;> rfl

theorem lock_handleLocked (c : Controller) (i : Input) :
    (c.handleLocked i).lock = c.lock.setState .locked := by
  rw [handleLocked]
  dsimp only
  split
  · exact lock_checkThursday _ i
  · split
    · rfl
    · split
      · exact lock_checkCard _ i true
      · split <;> rfl

theorem lock_handleOpen (c : Controller) (i : Input) :
    (c.handleOpen i).lock = c.lock.setState .open := by
  rw [handleOpen]
  split
  · rw [lock_checkCard, lock_endOpenPeriod]
    rfl
  · rw [lock_endOpenPeriod]
    rfl

theorem lock_handleTimedUnlock (c : Controller) (i : Input) :
    (c.handleTimedUnlock i).lock = c.lock.setState .open := by
  have hunlock : ((c.ensureLockState .open).checkUnlock i).lockWithoutTimeout.lock =
      c.lock.setState .open := by
    rw [lock_lockWithoutTimeout, lock_checkUnlock]
    rfl
  rw [handleTimedUnlock]
  split
  · exact hunlock
  · exact hunlock

/-- What a handler asks of the lock. -/
def State.lockState : State → Option LockState
  | initial => none
  | locked => some .locked
  | «open» => some .open
  | timedUnlock => some .open

theorem lock_handle (c : Controller) (i : Input) :
    (c.handle i).lock = (c.state.lockState.elim c.lock c.lock.setState) := by
  rw [handle]
  cases c.state with
  | initial => rfl
  | locked => exact lock_handleLocked c i
  | «open» => exact lock_handleOpen c i
  | timedUnlock => exact lock_handleTimedUnlock c i

@[simp] theorem lock_readInputs (c : Controller) (i : Input) :
    (c.readInputs i).lock = c.lock := by
  rw [readInputs]
  dsimp only
  split <;> rfl

@[simp] theorem doorIsOpen_readInputs (c : Controller) (i : Input) :
    (c.readInputs i).doorIsOpen = c.lock.doorIsOpen := by
  rw [readInputs]
  dsimp only
  split <;> rfl

@[simp] theorem lock_noteChange (c : Controller) : c.noteChange.lock = c.lock := by
  rw [noteChange]
  split <;> rfl

@[simp] theorem doorIsOpen_noteChange (c : Controller) :
    c.noteChange.doorIsOpen = c.doorIsOpen := by
  rw [noteChange]
  split <;> rfl

/-- When the lock has been read, its last status is the present one. -/
theorem lastLockStatus_noteChange (c : Controller) : c.noteChange.lastLockStatus = c.lock := by
  rw [noteChange]
  split
  · rfl
  next h => exact (not_not.mp h).symm

@[simp] theorem lock_logState (c : Controller) (oldState : State) :
    (c.logState oldState).lock = c.lock := by
  rw [logState]
  split <;> rfl

@[simp] theorem lock_logKeys (c : Controller) : c.logKeys.lock = c.lock := by
  rw [logKeys]
  split <;> rfl

@[simp] theorem lock_setTimeout (c : Controller) (i : Input) :
    (c.setTimeout i).lock = c.lock := by
  rw [setTimeout]
  split <;> rfl

/-! ### What a remote action does to the lock -/

/-- An open lock is not locked, and Slack is told of a door. -/
theorem startAction_lock_of_open {c : Controller} (h : c.lastLockStatus.state = .open) :
    (c.startAction (str "lock")).lock = c.lock ∧ (c.startAction (str "lock")).state = c.state ∧
      Call.slackSendMessage (str ":stop: Door is open, cannot lock") ∈
        (c.startAction (str "lock")).calls := by
  rw [startAction, if_pos rfl]
  split
  · exact ⟨rfl, rfl, List.mem_append_right _ (List.mem_singleton_self _)⟩
  next hne => exact absurd h hne

theorem startAction_lock_of_ne {c : Controller} (h : c.lastLockStatus.state ≠ .open) :
    (c.startAction (str "lock")).lock = c.lock.setState .locked ∧
      (c.startAction (str "lock")).state = .locked := by
  rw [startAction, if_pos rfl]
  split
  next heq => exact absurd heq h
  · exact ⟨rfl, rfl⟩

/-- No action moves the door. -/
theorem doorIsOpen_startAction (c : Controller) (action : Bytes) :
    (c.startAction action).lock.doorIsOpen = c.lock.doorIsOpen := by
  rw [startAction]
  split
  · split <;> rfl
  · split <;> rfl

theorem updateGateway_of_lock {c : Controller} (h : c.gateway.getAction = str "lock") :
    c.updateGateway = c.setGatewayStatus.startAction (str "lock") := by
  have haction : c.setGatewayStatus.gateway.getAction = str "lock" := h
  rw [updateGateway, checkAction, haction, if_neg (by decide)]

theorem doorIsOpen_updateGateway (c : Controller) :
    c.updateGateway.lock.doorIsOpen = c.lock.doorIsOpen := by
  rw [updateGateway, checkAction]
  split
  · rfl
  · exact doorIsOpen_startAction _ _

theorem doorIsOpen_gatewayUpdate (c : Controller) (i : Input) :
    (c.gatewayUpdate i).lock.doorIsOpen = c.lock.doorIsOpen := by
  rw [gatewayUpdate]
  split
  · exact (doorIsOpen_updateGateway c.noteChange).trans (by rw [lock_noteChange])
  · rw [lock_noteChange]

theorem doorIsOpen_iterate (c : Controller) (i : Input) :
    (c.iterate i).lock.doorIsOpen = c.lock.doorIsOpen := by
  rw [iterate, lock_setTimeout, lock_logKeys, lock_logState, lock_handle]
  have hdoor := doorIsOpen_gatewayUpdate (c.readInputs i) i
  rw [lock_readInputs] at hdoor
  cases ((c.readInputs i).gatewayUpdate i).state.lockState with
  | none => exact hdoor
  | some desired => exact hdoor

end Controller

/-! ### In a run -/

/-- Nothing reads the door, so it is closed for ever. -/
theorem doorIsOpen_run (events : List Event) : (run events).lock.doorIsOpen = false := by
  refine exec_invariant_of_forall step (fun _ => True) (fun c => c.lock.doorIsOpen = false) ?_ rfl
    fun _ _ => trivial
  rintro c event h -
  cases event with
  | query reply => exact h
  | iterate i => exact (Controller.doorIsOpen_iterate c i).trans h

/-- The state in which an iteration after `events` comes to `update_gateway`. -/
def atUpdate (events : List Event) (i : Input) : Controller :=
  ((run events).readInputs i).noteChange

/-- With the door closed, the action `lock` locks. -/
def LockObeyed (c : Controller) : Prop :=
  c.doorIsOpen = false → c.gateway.getAction = str "lock" →
    c.updateGateway.state = .locked ∧ c.updateGateway.lock.state = .locked

theorem atUpdate_facts (events : List Event) (i : Input) :
    (atUpdate events i).doorIsOpen = false ∧
      (atUpdate events i).lastLockStatus = (atUpdate events i).lock := by
  constructor
  · rw [atUpdate, Controller.doorIsOpen_noteChange, Controller.doorIsOpen_readInputs]
    exact doorIsOpen_run events
  · rw [atUpdate, Controller.lastLockStatus_noteChange, Controller.lock_noteChange]

/-- **The remote lock never locks**: it leaves the lock as it is. -/
theorem updateGateway_lock (events : List Event) (i : Input)
    (haction : (atUpdate events i).gateway.getAction = str "lock") :
    (atUpdate events i).updateGateway.lock = (atUpdate events i).lock := by
  obtain ⟨-, hlast⟩ := atUpdate_facts events i
  rw [Controller.updateGateway_of_lock haction]
  cases hstate : (atUpdate events i).lock.state with
  | «open» =>
    have hopen : (atUpdate events i).setGatewayStatus.lastLockStatus.state = .open :=
      (congrArg Lock.state hlast).trans hstate
    exact (Controller.startAction_lock_of_open hopen).1
  | locked =>
    have hne : (atUpdate events i).setGatewayStatus.lastLockStatus.state ≠ .open := by
      change (atUpdate events i).lastLockStatus.state ≠ .open
      rw [hlast, hstate]
      decide
    rw [(Controller.startAction_lock_of_ne hne).1]
    change (atUpdate events i).lock.setState .locked = _
    rw [← hstate]
    rfl

/-- **When the action `lock` is obeyed.** -/
theorem lockObeyed_iff (events : List Event) (i : Input) :
    LockObeyed (atUpdate events i) ↔
      ((atUpdate events i).gateway.getAction = str "lock" →
        (atUpdate events i).lock.state ≠ .open) := by
  obtain ⟨hdoor, hlast⟩ := atUpdate_facts events i
  constructor
  · intro h haction hopen
    have hlocked := (h hdoor haction).2
    rw [updateGateway_lock events i haction, hopen] at hlocked
    cases hlocked
  · intro h _ haction
    have hne : (atUpdate events i).setGatewayStatus.lastLockStatus.state ≠ .open := by
      change (atUpdate events i).lastLockStatus.state ≠ .open
      rw [hlast]
      exact h haction
    rw [Controller.updateGateway_of_lock haction, (Controller.startAction_lock_of_ne hne).1,
      (Controller.startAction_lock_of_ne hne).2]
    exact ⟨rfl, rfl⟩

/-- A card opens the lock for 30 seconds, and `lock` comes during that time. -/
def lockedRemotely : List Event :=
  [.iterate { updateTime := Controller.seconds 100, updatedTime := Controller.seconds 100 },
   .iterate {
     cardId := str "0000BB96C5"
     access := ⟨.allowed, 1⟩
     updateTime := Controller.seconds 101
     updatedTime := Controller.seconds 101
     timeoutTime := Controller.seconds 101 },
   .iterate {
     updateTime := Controller.seconds 102
     updatedTime := Controller.seconds 102
     handlerTime := Controller.seconds 102
     displayTime := Controller.seconds 102 },
   .query (some (str "lock"))]

theorem not_lockObeyed : ¬ ∀ events i, ((run events).readInputs i).gatewayUpdateNeeded i →
    LockObeyed (atUpdate events i) := by
  intro h
  have hlocked := h lockedRemotely
    { updateTime := Controller.seconds 103, updatedTime := Controller.seconds 103 }
    (by decide) (by decide) (by decide)
  exact absurd hlocked (by decide)

end Acs.Opi
