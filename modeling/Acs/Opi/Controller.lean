/-
  Acs/Opi/Controller.lean
  =======================
  **`Controller`: the door of the Orange Pi frontend** (`opi/controller.cpp`,
  `opi/gateway.cpp`, `opi/lock.cpp`).

  An iteration of `run` reads the lock and the inputs, may call `update_gateway`,
  and calls the handler of the current state; a timeout that is asked for is set
  at the end.  The gateway has a thread of its own: it asks for a remote action
  every minute and leaves it in `current_action`, where `update_gateway` finds
  it.  Times are nanoseconds since the epoch, which is itself the invalid time
  point.
-/
import Acs.Opi.CardCache
import Acs.Lib.Run

namespace Acs.Opi

open Acs

/-! ### The lock, the buttons and the gateway -/

inductive LockState where
  | open
  | locked
deriving DecidableEq, Repr

/-- `magic_enum::enum_name`. -/
def LockState.name : LockState → Bytes
  | .open => str "open"
  | .locked => str "locked"

/-- The members of `Lock` that `get_status` returns, which are those of
    `Lock::Status`. -/
structure Lock where
  state : LockState := .locked
  doorIsOpen : Bool := false
deriving DecidableEq

def Lock.setState (lock : Lock) (desired : LockState) : Lock := { lock with state := desired }

structure Keys where
  red : Bool := false
  white : Bool := false
  green : Bool := false
  leave : Bool := false
deriving DecidableEq

/-- `Buttons::read`: the green button does not work.  An iteration in which a pin
    cannot be read ends here, in `fatal_error` (`Acs.Opi.DisplayThread`). -/
def Keys.read (pressed : Keys) : Keys := { pressed with green := false }

/-- The JSON of `update_gateway`. -/
structure GatewayStatus where
  door : Bytes
  space : Bytes
  lockStatus : Bytes
deriving DecidableEq

/-- `queries` is what the queries so far have returned; the code does not keep it. -/
structure Gateway where
  currentStatus : Option GatewayStatus := none
  currentAction : Bytes := []
  queries : List (Option Bytes) := []

namespace Gateway

def setStatus (g : Gateway) (status : GatewayStatus) : Gateway :=
  { g with currentStatus := some status }

def getAction (g : Gateway) : Bytes := g.currentAction

/-- `do_get_action`: no action, an error or an exception all give the empty text. -/
def doGetAction (reply : Option Bytes) : Bytes := reply.getD []

/-- The query in the loop of `thread_body`. -/
def fetch (g : Gateway) (reply : Option Bytes) : Gateway :=
  { g with currentAction := doGetAction reply, queries := g.queries ++ [reply] }

end Gateway

/-! ### The controller -/

inductive Pattern where
  | ready
  | enter
  | warnClosing
deriving DecidableEq, Repr

inductive Colour where
  | red
  | green
  | orange
deriving DecidableEq, Repr

namespace Controller

def seconds (n : Int) : Int := n * 1000000000

/-- `util::invalid_duration()` and `util::invalid_time_point()`. -/
def invalidDuration : Int := -2 ^ 63
def invalidTimePoint : Int := 0

/-- `ENTER_TIME`, `LEAVE_TIME`, `UNLOCK_PERIOD`, `UNLOCK_WARN` and
    `GW_UNLOCK_PERIOD`. -/
def enterTime : Int := seconds 30
def leaveTime : Int := seconds 5
def unlockPeriod : Int := seconds (15 * 60)
def unlockWarn : Int := seconds (5 * 60)
def gwUnlockPeriod : Int := seconds 30

inductive State where
  | initial
  | locked
  | open
  | timedUnlock
deriving DecidableEq, Repr

def State.name : State → Bytes
  | initial => str "initial"
  | locked => str "locked"
  | «open» => str "open"
  | timedUnlock => str "timed_unlock"

/-- What the controller asks of the reader, the display, Slack, the logger and
    ForeningLet. -/
inductive Call where
  | setPattern (p : Pattern)
  | setStatus (status : Bytes) (colour : Colour)
  | showMessage (message : Bytes) (colour : Colour)
  | slackSetStatus (status : Bytes)
  | slackSendMessage (message : Bytes)
  | slackAnnounceOpen
  | slackAnnounceClosed
  | log (text : Bytes)
  | logUnknownCard (cardId : Bytes)
  | updateLastAccess (userId : Int)
deriving DecidableEq

end Controller

open Controller (State Call)

/-- What one iteration sees: the buttons, the card, the answer of `has_access` to
    it, the weekday, and the clock at each of its readings. -/
structure Input where
  pressed : Keys := {}
  cardId : Bytes := []
  access : Result := ⟨.unknown, -1⟩
  thursday : Bool := false
  updateTime : Int
  updatedTime : Int
  handlerTime : Int := 0
  displayTime : Int := 0
  timeoutTime : Int := 0

/-- An action that `update_gateway` has started, and the number of queries that
    there had been. -/
structure Execution where
  query : Nat
  action : Bytes
deriving DecidableEq

/-- The members of the class and `last_gateway_update` of `run`.  `calls` are those
    of the last iteration, and `executed` is kept for counting. -/
structure Controller where
  lock : Lock := {}
  gateway : Gateway := {}
  state : State := .initial
  doorIsOpen : Bool := false
  keys : Keys := {}
  simulate : Bool := false
  lastLockStatus : Lock := {}
  isSpaceOpen : Bool := false
  cardId : Bytes := []
  timeoutDur : Int := Controller.invalidDuration
  timeout : Int := Controller.invalidTimePoint
  lastGatewayUpdate : Int := Controller.invalidTimePoint
  calls : List Call := []
  executed : List Execution := []

namespace Controller

def emit (c : Controller) (call : Call) : Controller := { c with calls := c.calls ++ [call] }

def ensureLockState (c : Controller) (desired : LockState) : Controller :=
  { c with lock := c.lock.setState desired }

/-! ### The handlers -/

def checkThursday (c : Controller) (i : Input) : Controller :=
  if !i.thursday then c.emit (.showMessage (str "It is not Thursday yet") .red)
  else { c with state := .open }.emit .slackAnnounceOpen

def checkCard (c : Controller) (i : Input) (changeState : Bool) : Controller :=
  let c := match i.access.access with
    | .allowed =>
      if changeState then
        let c := c.emit (.setPattern .enter)
        let c := c.emit (.slackSendMessage (str ":key: Valid card swiped, unlocking"))
        { c with state := .timedUnlock, timeoutDur := enterTime }
      else c.emit (.slackSendMessage (str ":key: Valid card swiped while open"))
    | .forbidden =>
      let c := c.emit (.slackSendMessage (str ":bandit: Unauthorized card swiped"))
      c.emit (.log (str "Unauthorized card " ++ c.cardId ++ str " swiped"))
    | .unknown =>
      let c := c.emit (.slackSendMessage
        (str ":broken_key: Unknown card " ++ c.cardId ++ str " swiped"))
      c.emit (.logUnknownCard c.cardId)
    | .error => c.emit (.slackSendMessage (str ":computer_rage: Internal error checking card"))
  c.emit (.updateLastAccess i.access.userId)

/-- The Leave button, in two of the handlers. -/
def leavePressed (c : Controller) : Controller :=
  { c with state := .timedUnlock, timeoutDur := leaveTime }.emit
    (.slackSendMessage (str ":exit: The Leave button has been pressed"))

def handleInitial (c : Controller) : Controller :=
  { c.emit (.setPattern .ready) with state := .locked }

def handleLocked (c : Controller) (i : Input) : Controller :=
  let c := c.ensureLockState .locked
  let c := c.emit (.setPattern .ready)
  let c := c.emit (.setStatus (str "Locked") .orange)
  let c := c.emit (.slackSetStatus (str ":lock: Door is locked"))
  if c.keys.white then c.checkThursday i
  else if c.keys.green then
    { c.emit (.log (str "Green pressed")) with timeoutDur := unlockPeriod, state := .timedUnlock }
  else if c.cardId ≠ [] then c.checkCard i true
  else if c.keys.leave then c.leavePressed
  else c

/-- The checks of `handle_open` whether to stay open. -/
def endOpenPeriod (c : Controller) (i : Input) : Controller :=
  if !i.thursday then
    let c := c.emit (.log (str "It is no longer Thursday"))
    { { c with state := .locked }.emit .slackAnnounceClosed with isSpaceOpen := false }
  else if c.keys.red then
    { c.emit .slackAnnounceClosed with isSpaceOpen := false, state := .locked }
  else c

def handleOpen (c : Controller) (i : Input) : Controller :=
  let c := c.ensureLockState .open
  let c := c.emit (.setStatus (str "Open") .green)
  let c := c.endOpenPeriod i
  if c.cardId ≠ [] then c.checkCard i false else c

/-- The time left on the display, and the warning in the last five minutes. -/
def showTimeLeft (c : Controller) (i : Input) : Controller :=
  let timeLeft := c.timeout - i.displayTime
  if timeLeft ≤ unlockWarn then
    let secsLeft := timeLeft.tdiv (seconds 1)
    let minsLeft := -((-secsLeft) / 60)
    let s2 := if minsLeft > 1 then decimal minsLeft ++ str " minutes"
      else decimal secsLeft ++ str " seconds"
    let c := if !c.simulate then c.emit (.setPattern .warnClosing) else c
    c.emit (.setStatus (str "Open for " ++ s2) .orange)
  else c.emit (.setStatus (str "Open") .green)

/-- The timed unlock ends here: Red, or its time is over. -/
def unlockEnds (c : Controller) (i : Input) : Bool :=
  c.keys.red || (c.timeout ≠ invalidTimePoint && i.handlerTime ≥ c.timeout)

/-- The first branches of `handle_timed_unlock`. -/
def checkUnlock (c : Controller) (i : Input) : Controller :=
  if c.unlockEnds i then { c with timeout := invalidTimePoint, state := .locked }
  else if c.keys.white then c.checkThursday i
  else if c.timeout ≠ invalidTimePoint then c.showTimeLeft i
  else c

def lockWithoutTimeout (c : Controller) : Controller :=
  if c.timeout = invalidTimePoint then { c with state := .locked } else c

def handleTimedUnlock (c : Controller) (i : Input) : Controller :=
  let c := ((c.ensureLockState .open).checkUnlock i).lockWithoutTimeout
  if c.keys.leave then c.leavePressed else c

def handle (c : Controller) (i : Input) : Controller :=
  match c.state with
  | .initial => c.handleInitial
  | .locked => c.handleLocked i
  | .open => c.handleOpen i
  | .timedUnlock => c.handleTimedUnlock i

/-! ### The gateway -/

/-- The part of `update_gateway` that starts an action. -/
def startAction (c : Controller) (action : Bytes) : Controller :=
  let started : Execution := ⟨c.gateway.queries.length, action⟩
  let c := { c with executed := c.executed ++ [started] }
  let c := c.emit (.log (str "Start action '" ++ action ++ str "'"))
  if action = str "lock" then
    if c.lastLockStatus.state = .open then
      c.emit (.slackSendMessage (str ":stop: Door is open, cannot lock"))
    else
      let c := c.ensureLockState .locked
      let c := c.emit (.slackSendMessage (str ":lock: Door is locked"))
      { c with state := .locked }
  else if action = str "unlock" then
    let c := c.ensureLockState .open
    let c := c.emit (.slackSendMessage (str ":unlock: Door is unlocked"))
    { c with state := .timedUnlock, timeoutDur := gwUnlockPeriod }
  else
    let c := c.emit (.log (str "Unknown action '" ++ action ++ str "'"))
    c.emit (.slackSendMessage (str ":question: Unknown action '" ++ action ++ str "'"))

def gatewayStatus (c : Controller) : GatewayStatus where
  door := if c.lastLockStatus.doorIsOpen then str "open" else str "closed"
  space := if c.isSpaceOpen then str "open" else str "closed"
  lockStatus := c.lastLockStatus.state.name

def setGatewayStatus (c : Controller) : Controller :=
  { c with gateway := c.gateway.setStatus c.gatewayStatus }

/-- The rest of `update_gateway`. -/
def checkAction (c : Controller) : Controller :=
  if c.gateway.getAction = [] then c else c.startAction c.gateway.getAction

def updateGateway (c : Controller) : Controller := c.setGatewayStatus.checkAction

/-! ### The loop of `run` -/

def readInputs (c : Controller) (i : Input) : Controller :=
  let c := { c with
    doorIsOpen := c.lock.doorIsOpen
    keys := i.pressed.read
    cardId := i.cardId
    calls := [] }
  if c.cardId ≠ [] then c.emit (.log (str "Card " ++ c.cardId ++ str " swiped")) else c

def gatewayUpdateNeeded (c : Controller) (i : Input) : Bool :=
  c.lock != c.lastLockStatus || (c.lastGatewayUpdate = invalidTimePoint ||
    i.updateTime - c.lastGatewayUpdate > seconds 15)

def noteChange (c : Controller) : Controller :=
  if c.lock ≠ c.lastLockStatus then
    { c.emit (.log (str "Lock status " ++ c.lock.state.name ++ str " door " ++
        if c.doorIsOpen then str "open" else str "closed")) with lastLockStatus := c.lock }
  else c

def gatewayUpdate (c : Controller) (i : Input) : Controller :=
  let needed := c.gatewayUpdateNeeded i
  let c := c.noteChange
  if needed then { c.updateGateway with lastGatewayUpdate := i.updatedTime } else c

def logState (c : Controller) (oldState : State) : Controller :=
  if c.state ≠ oldState then c.emit (.log (str "STATE: " ++ c.state.name)) else c

def logKeys (c : Controller) : Controller :=
  if c.keys.red || c.keys.white || c.keys.green || c.keys.leave then
    c.emit (.log (str "KEYS: R" ++ decimal c.keys.red.toInt ++ str "W" ++
      decimal c.keys.white.toInt ++ str "G" ++ decimal c.keys.green.toInt ++ str "L" ++
      decimal c.keys.leave.toInt))
  else c

/-- The timeout that was asked for starts at the end of the iteration. -/
def setTimeout (c : Controller) (i : Input) : Controller :=
  if c.timeoutDur ≠ invalidDuration then
    let c := c.emit (.log (str "Set timeout of " ++ decimal (c.timeoutDur.tdiv (seconds 1)) ++
      str "s"))
    { c with timeout := i.timeoutTime + c.timeoutDur, timeoutDur := invalidDuration }
  else c

def iterate (c : Controller) (i : Input) : Controller :=
  let c := (c.readInputs i).gatewayUpdate i
  (((c.handle i).logState c.state).logKeys).setTimeout i

end Controller

/-! ### The two threads -/

/-- The gateway's thread asks for an action, or the controller goes through one
    iteration. -/
inductive Event where
  | query (reply : Option Bytes)
  | iterate (i : Input)

def step (c : Controller) : Event → Controller
  | .query reply => { c with gateway := c.gateway.fetch reply }
  | .iterate i => c.iterate i

def run (events : List Event) : Controller := Runs.exec step {} events

end Acs.Opi
