/-
  Acs/Opi/Calls.lean
  ==================
  **What an iteration of the Orange Pi controller tells others.**

  The calls that leave the machine are those of Slack, of ForeningLet and for
  unknown cards; the reader, the display and the log are left aside here.  What
  an iteration calls in this sense follows from the remote action that it starts
  and from what its handler finds (`outward_iterate`).
-/
import Acs.Opi.Door

namespace Acs.Opi

open Acs Runs

namespace Controller

/-- The call is about something outside the machine. -/
def Call.isOutward : Call → Bool
  | .slackSetStatus _ => true
  | .slackSendMessage _ => true
  | .slackAnnounceOpen => true
  | .slackAnnounceClosed => true
  | .logUnknownCard _ => true
  | .updateLastAccess _ => true
  | .setPattern _ => false
  | .setStatus _ _ => false
  | .showMessage _ _ => false
  | .log _ => false

/-- The outward calls of the iteration so far. -/
def outward (c : Controller) : List Call := c.calls.filter Call.isOutward

theorem outward_emit (c : Controller) (call : Call) :
    (c.emit call).outward = c.outward ++ [call].filter Call.isOutward := by
  rw [outward, emit, List.filter_append]
  rfl

/-- A call that others get. -/
theorem outward_tell (c : Controller) {call : Call} (h : call.isOutward = true) :
    (c.emit call).outward = c.outward ++ [call] := by
  rw [outward_emit, List.filter_singleton, h]
  rfl

theorem outward_tell_after {c d : Controller} {call : Call} (hd : d.outward = c.outward)
    (h : call.isOutward = true) : (d.emit call).outward = c.outward ++ [call] := by
  rw [outward_tell d h, hd]

/-- A call that stays inside. -/
theorem outward_keep (c : Controller) {call : Call} (h : call.isOutward = false) :
    (c.emit call).outward = c.outward := by
  rw [outward_emit, List.filter_singleton, h]
  exact List.append_nil _

/-! ### The calls of the handlers -/

/-- `check_card` tells Slack, and ForeningLet whoever it is. -/
def cardCalls (cardId : Bytes) (i : Input) (changeState : Bool) : List Call :=
  (match i.access.access with
    | .allowed =>
      if changeState then [.slackSendMessage (str ":key: Valid card swiped, unlocking")]
      else [.slackSendMessage (str ":key: Valid card swiped while open")]
    | .forbidden => [.slackSendMessage (str ":bandit: Unauthorized card swiped")]
    | .unknown =>
      [.slackSendMessage (str ":broken_key: Unknown card " ++ cardId ++ str " swiped"),
        .logUnknownCard cardId]
    | .error => [.slackSendMessage (str ":computer_rage: Internal error checking card")]) ++
  [.updateLastAccess i.access.userId]

def leaveCalls : List Call :=
  [.slackSendMessage (str ":exit: The Leave button has been pressed")]

def openCalls (thursday : Bool) : List Call := if thursday then [.slackAnnounceOpen] else []

def lockedCalls (v : View) (i : Input) : List Call :=
  .slackSetStatus (str ":lock: Door is locked") ::
    if v.keys.white then openCalls i.thursday
    else if v.keys.green then []
    else if v.cardId ≠ [] then cardCalls v.cardId i true
    else if v.keys.leave then leaveCalls
    else []

def spaceCalls (v : View) (i : Input) : List Call :=
  (if i.thursday && !v.keys.red then [] else [.slackAnnounceClosed]) ++
    if v.cardId ≠ [] then cardCalls v.cardId i false else []

def timedCalls (v : View) (ends : Bool) (i : Input) : List Call :=
  (if v.keys.white && !ends then openCalls i.thursday else []) ++
    if v.keys.leave then leaveCalls else []

/-- What the handlers call, one for each state. -/
def handledCalls (v : View) (i : Input) : List Call :=
  match v.state with
  | .initial => []
  | .locked => lockedCalls v i
  | .open => spaceCalls v i
  | .timedUnlock => timedCalls v (v.unlockEnds i) i

theorem outward_checkThursday (c : Controller) (i : Input) :
    (c.checkThursday i).outward = c.outward ++ openCalls i.thursday := by
  rw [checkThursday]
  cases i.thursday with
  | false => exact outward_emit c _
  | true => exact outward_emit { c with state := .open } _

theorem outward_checkCard (c : Controller) (i : Input) (changeState : Bool) :
    (c.checkCard i changeState).outward = c.outward ++ cardCalls c.cardId i changeState := by
  have hlast : ∀ (d : Controller) (calls : List Call), d.outward = c.outward ++ calls →
      (d.emit (.updateLastAccess i.access.userId)).outward =
        c.outward ++ (calls ++ [.updateLastAccess i.access.userId]) := by
    intro d calls h
    rw [outward_tell d rfl, h, List.append_assoc]
  rw [checkCard, cardCalls]
  apply hlast
  cases i.access.access with
  | allowed =>
    cases changeState with
    | false => exact outward_tell c rfl
    | true => exact outward_tell_after (outward_keep c rfl) rfl
  | forbidden => exact (outward_keep _ rfl).trans (outward_tell c rfl)
  | unknown =>
    refine (outward_tell _ rfl).trans ?_
    rw [outward_tell c rfl, List.append_assoc]
    rfl
  | error => exact outward_tell c rfl

theorem outward_leavePressed (c : Controller) :
    c.leavePressed.outward = c.outward ++ leaveCalls := outward_emit _ _

theorem outward_showTimeLeft (c : Controller) (i : Input) :
    (c.showTimeLeft i).outward = c.outward := by
  rw [showTimeLeft]
  dsimp only
  split
  · cases c.simulate with
    | true => exact outward_keep c rfl
    | false => exact (outward_keep _ rfl).trans (outward_keep c rfl)
  · exact outward_keep c rfl

/-- The tests of `handle_locked`, one after the other. -/
theorem outward_lockedTests (c : Controller) (i : Input) :
    (if c.keys.white then c.checkThursday i
      else if c.keys.green then
        { c.emit (.log (str "Green pressed")) with
          timeoutDur := unlockPeriod, state := .timedUnlock }
      else if c.cardId ≠ [] then c.checkCard i true
      else if c.keys.leave then c.leavePressed
      else c).outward =
    c.outward ++
      if c.keys.white then openCalls i.thursday
      else if c.keys.green then []
      else if c.cardId ≠ [] then cardCalls c.cardId i true
      else if c.keys.leave then leaveCalls
      else [] := by
  split
  · exact outward_checkThursday c i
  split
  · exact (outward_keep c rfl).trans (List.append_nil _).symm
  split
  · exact outward_checkCard c i true
  split
  · exact outward_leavePressed c
  · exact (List.append_nil _).symm

theorem outward_handleLocked (c : Controller) (i : Input) :
    (c.handleLocked i).outward = c.outward ++ lockedCalls c.view i := by
  have hstatus : ((((c.ensureLockState .locked).emit (.setPattern .ready)).emit
      (.setStatus (str "Locked") .orange)).emit
        (.slackSetStatus (str ":lock: Door is locked"))).outward =
      c.outward ++ [.slackSetStatus (str ":lock: Door is locked")] := by
    rw [outward_tell _ rfl, outward_keep _ rfl, outward_keep _ rfl]
    rfl
  refine (outward_lockedTests _ i).trans ?_
  rw [hstatus, List.append_assoc]
  rfl

theorem outward_endOpenPeriod (c : Controller) (i : Input) :
    (c.endOpenPeriod i).outward =
      c.outward ++ if i.thursday && !c.keys.red then [] else [.slackAnnounceClosed] := by
  rw [endOpenPeriod]
  cases i.thursday with
  | false => exact outward_tell_after (outward_keep c rfl) rfl
  | true =>
    cases c.keys.red with
    | true => exact outward_tell c rfl
    | false => exact (List.append_nil _).symm

theorem outward_handleOpen (c : Controller) (i : Input) :
    (c.handleOpen i).outward = c.outward ++ spaceCalls c.view i := by
  have hend : (((c.ensureLockState .open).emit (.setStatus (str "Open") .green)).endOpenPeriod
      i).outward = c.outward ++ if i.thursday && !c.keys.red then [] else [.slackAnnounceClosed] :=
    (outward_endOpenPeriod _ i).trans (congrArg (· ++ _) (outward_keep _ rfl))
  have hcard : (((c.ensureLockState .open).emit (.setStatus (str "Open") .green)).endOpenPeriod
      i).cardId = c.cardId := congrArg View.cardId (view_endOpenPeriod _ i)
  have hview : c.view.cardId = c.cardId := rfl
  have hkeys : c.view.keys = c.keys := rfl
  rw [handleOpen, spaceCalls, hview, hkeys, ← List.append_assoc, ← hend, hcard]
  split
  · rw [outward_checkCard, hcard]
  · exact (List.append_nil _).symm

theorem outward_checkUnlock (c : Controller) (i : Input) :
    (c.checkUnlock i).outward =
      c.outward ++ if c.keys.white && !c.unlockEnds i then openCalls i.thursday else [] := by
  rw [checkUnlock]
  cases c.unlockEnds i with
  | true =>
    rw [Bool.not_true, Bool.and_false]
    exact (List.append_nil _).symm
  | false =>
    cases c.keys.white with
    | true => exact outward_checkThursday c i
    | false =>
      rw [if_neg Bool.false_ne_true, if_neg Bool.false_ne_true]
      refine Eq.trans ?_ (List.append_nil _).symm
      split
      · exact outward_showTimeLeft c i
      · rfl

theorem outward_lockWithoutTimeout (c : Controller) :
    c.lockWithoutTimeout.outward = c.outward := by
  rw [lockWithoutTimeout]
  split <;> rfl

theorem outward_handleTimedUnlock (c : Controller) (i : Input) :
    (c.handleTimedUnlock i).outward = c.outward ++ timedCalls c.view (c.unlockEnds i) i := by
  have hcheck : ((c.ensureLockState .open).checkUnlock i).lockWithoutTimeout.outward =
      c.outward ++ if c.keys.white && !c.unlockEnds i then openCalls i.thursday else [] :=
    (outward_lockWithoutTimeout _).trans (outward_checkUnlock _ i)
  have hkeys : ((c.ensureLockState .open).checkUnlock i).lockWithoutTimeout.keys = c.keys := by
    have hunlock : ((c.ensureLockState .open).checkUnlock i).keys = c.keys := by
      refine (congrArg View.keys (view_checkUnlock _ i)).trans ?_
      split <;> rfl
    rw [lockWithoutTimeout]
    split <;> exact hunlock
  have hview : c.view.keys = c.keys := rfl
  rw [handleTimedUnlock, timedCalls, hview, ← List.append_assoc, ← hcheck, hkeys]
  split
  · exact outward_leavePressed _
  · exact (List.append_nil _).symm

theorem outward_handle (c : Controller) (i : Input) :
    (c.handle i).outward = c.outward ++ handledCalls c.view i := by
  have hstate : c.view.state = c.state := rfl
  rw [handle, handledCalls, hstate]
  cases c.state with
  | initial => exact (outward_keep c rfl).trans (List.append_nil _).symm
  | locked => exact outward_handleLocked c i
  | «open» => exact outward_handleOpen c i
  | timedUnlock => exact outward_handleTimedUnlock c i

/-! ### The calls of an iteration -/

/-- What `update_gateway` calls for the action that it starts. -/
def actionCalls (action : Bytes) (lock : LockState) : List Call :=
  if action = [] then []
  else if action = str "lock" then
    if lock = .open then [.slackSendMessage (str ":stop: Door is open, cannot lock")]
    else [.slackSendMessage (str ":lock: Door is locked")]
  else if action = str "unlock" then [.slackSendMessage (str ":unlock: Door is unlocked")]
  else [.slackSendMessage (str ":question: Unknown action '" ++ action ++ str "'")]

def remoteCalls (c : Controller) (i : Input) : List Call :=
  actionCalls (c.remoteAction i) c.lock.state

theorem outward_startAction (c : Controller) {action : Bytes} (hsome : action ≠ []) :
    (c.startAction action).outward = c.outward ++ actionCalls action c.lastLockStatus.state := by
  have hlog : ∀ executed text, ({ c with executed := executed }.emit (.log text)).outward =
      c.outward := fun _ _ => outward_keep _ rfl
  rw [startAction, actionCalls, if_neg hsome]
  split
  · by_cases hopen : c.lastLockStatus.state = .open
    · refine (congrArg outward (if_pos hopen)).trans ?_
      rw [if_pos hopen]
      exact outward_tell_after (hlog _ _) rfl
    · refine (congrArg outward (if_neg hopen)).trans ?_
      rw [if_neg hopen]
      exact (outward_tell _ rfl).trans (congrArg (· ++ _) (hlog _ _))
  split
  · exact outward_tell_after (hlog _ _) rfl
  · exact outward_tell_after ((outward_keep _ rfl).trans (hlog _ _)) rfl

theorem outward_checkAction {c : Controller} {action : Bytes} {lock : Lock}
    (haction : c.gateway.currentAction = action) (hlock : c.lastLockStatus = lock) :
    c.checkAction.outward = c.outward ++ actionCalls action lock.state := by
  rw [checkAction, Gateway.getAction, haction, ← hlock]
  split
  next hnone =>
    rw [actionCalls, if_pos hnone]
    exact (List.append_nil _).symm
  next hsome => exact outward_startAction c hsome

theorem outward_readInputs (c : Controller) (i : Input) : (c.readInputs i).outward = [] := by
  rw [readInputs]
  dsimp only
  split
  · exact outward_keep _ rfl
  · rfl

theorem outward_noteChange (c : Controller) : c.noteChange.outward = c.outward := by
  rw [noteChange]
  split
  · exact outward_keep c rfl
  · rfl

theorem outward_atHandler (c : Controller) (i : Input) :
    (c.atHandler i).outward = c.remoteCalls i := by
  have hread := (outward_noteChange (c.readInputs i)).trans (outward_readInputs c i)
  have haction : (c.readInputs i).noteChange.gateway.currentAction = c.gateway.currentAction :=
    congrArg Gateway.currentAction ((SameGateway.readInputs c i).trans (.noteChange _)).gateway
  have hlock : (c.readInputs i).noteChange.lastLockStatus = c.lock :=
    (lastLockStatus_noteChange _).trans (lock_readInputs c i)
  rw [atHandler, gatewayUpdate, remoteCalls, remoteAction, updates]
  dsimp only
  cases (c.readInputs i).gatewayUpdateNeeded i with
  | true =>
    rw [if_pos rfl, if_pos rfl]
    refine (outward_checkAction (c := (c.readInputs i).noteChange.setGatewayStatus)
      haction hlock).trans ?_
    exact (congrArg (· ++ _) hread).trans (List.nil_append _)
  | false =>
    rw [if_neg Bool.false_ne_true, if_neg Bool.false_ne_true]
    exact hread

/-- **The outward calls of an iteration**: those of the action, then those of the
    handler. -/
theorem outward_iterate (c : Controller) (i : Input) :
    (c.iterate i).outward = c.remoteCalls i ++ handledCalls (c.foundView i) i := by
  have hstate : ∀ (d : Controller) (old : State), (d.logState old).outward = d.outward := by
    intro d old
    rw [logState]
    split
    · exact outward_keep d rfl
    · rfl
  have hkeys : ∀ d : Controller, d.logKeys.outward = d.outward := by
    intro d
    rw [logKeys]
    split
    · exact outward_keep d rfl
    · rfl
  have htimeout : ∀ d : Controller, (d.setTimeout i).outward = d.outward := by
    intro d
    rw [setTimeout]
    split
    · exact outward_keep d rfl
    · rfl
  rw [iterate, htimeout, hkeys, hstate, outward_handle]
  have hbefore : ((c.readInputs i).gatewayUpdate i).outward = c.remoteCalls i :=
    outward_atHandler c i
  have hfound : ((c.readInputs i).gatewayUpdate i).view = c.foundView i := view_atHandler c i
  rw [hbefore, hfound]

end Controller

end Acs.Opi
