/-
  Acs/Esp32/Controller.lean
  =========================
  **`Controller`: the door of the ESP32 frontend** (`controller.cpp`).

  An iteration of `run` drives the relay, reads the inputs, may update the
  gateway and take a remote action, and calls the handler of the current state;
  a timeout that the handler asks for is set at the end.  `Input` is what one
  iteration sees of the world, and `calls` what it asks of it, in order.  Times
  are nanoseconds since the epoch, which is itself the invalid time point.
-/
import Acs.Esp32.CardCache
import Acs.Esp32.CardReader
import Acs.Esp32.Mqtt

namespace Acs.Esp32

open Acs

structure Keys where
  red : Bool := false
  white : Bool := false
  green : Bool := false
  leave : Bool := false
deriving DecidableEq

inductive Colour where
  | white
  | red
  | green
  | blue
  | orange
  | yellow
deriving DecidableEq

namespace Controller

/-! ### Times -/

def seconds (n : Int) : Int := n * 1000000000

/-- `util::invalid_duration()` and `util::invalid_time_point()`. -/
def invalidDuration : Int := -2 ^ 63
def invalidTimePoint : Int := 0

/-- `ENTER_TIME`, `LEAVE_TIME`, `UNLOCK_PERIOD`, `UNLOCK_WARN` and
    `GW_UNLOCK_PERIOD`. -/
def enterTime : Int := seconds 6
def leaveTime : Int := seconds 3
def unlockPeriod : Int := seconds (15 * 60)
def unlockWarn : Int := seconds (10 * 60)
def gwUnlockPeriod : Int := seconds 30

/-! ### States and calls -/

inductive State where
  | initial
  | locked
  | open
  | timedUnlock
deriving DecidableEq, Repr

/-- The payload of `set_mqtt_device_status`. -/
structure DeviceStatus where
  timestamp : Bytes
  door : Bytes
  space : Bytes
  lockStatus : Bytes
  bootTime : Bytes
  cardReaderHeartbeat : Bytes
  version : Bytes
deriving DecidableEq

/-- What the controller asks of the hardware, of the display and the reader, and
    of `Mqtt`. -/
inductive Call where
  | setRelay (on : Bool)
  | displayClear
  | displayUpdate
  | setStatus (status : Bytes) (colour : Colour) (aux : Option (Bytes × Colour))
  | showMessage (message : Bytes) (colour : Colour)
  | setPattern (p : Pattern)
  | log (text : Bytes)
  | writeSlack (text : Bytes) (channel : Channel)
  | setSlackStatus (text : Bytes)
  | slackAnnounceOpen
  | slackAnnounceClosed
  | setSpaceStatus (payload : Bytes)
  | setDeviceStatus (status : DeviceStatus)
  | logUnknownCard (id : CardId)
  | setAcsToken (token : Bytes)
  | restart
deriving DecidableEq

end Controller

open Controller (State Call DeviceStatus)

/-- What is settled at boot: `get_is_main()`, `get_identifier()`, the clock before
    `last_gateway_update` is set, and the time stamps of the first status message
    with whether it is printed. -/
structure Boot where
  isMainSet : Bool
  identifier : Bytes
  bootTimestamp : Bytes
  version : Bytes
  gatewayTime : Int
  startTime : Int
  rebootMinute : Int
  timestamp : Bytes
  heartbeat : Bytes
  printed : Bool

/-- What one iteration sees.  The clock is read at its start, for a remote unlock
    (`actionTime`), and twice in `handle_timed_unlock`, for the comparison and for
    the display; `hour` and `minute` are the time of day in UTC.  `timestamp`,
    `heartbeat` and `printed` are about the status message, `rssi` is a value or
    an error code, and `openDoors`, `presentCards` and `allowOpen` are what `Mqtt`
    tells.  The message about an unknown card shows `unknownCardNumber`, as its
    format gets a string before the card. -/
structure Input where
  currentTime : Int
  doorOpen : Bool := false
  keys : Keys := {}
  cardId : CardId := 0
  action : Bytes × Bytes := ([], [])
  actionTime : Int := 0
  timestamp : Bytes := []
  heartbeat : Bytes := []
  printed : Bool := true
  rssi : Except Int Int := .ok 0
  openDoors : Bytes := []
  presentCards : Bytes := []
  allowOpen : Bool := false
  thursday : Bool := false
  access : AccessResult := { access := .unknown, userId := -1 }
  unknownCardNumber : Nat := 0
  handlerTime : Int := 0
  displayTime : Int := 0
  hour : Int := 0
  minute : Int := 0

/-- The members of the class and the local variables of `run`; `running` is false
    after `esp_restart()`. -/
structure Controller where
  state : State := .initial
  isMain : Bool
  isDoorOpen : Bool := false
  isLocked : Bool := true
  keys : Keys := {}
  simulate : Bool := false
  isSpaceOpen : Bool := false
  cardId : CardId := 0
  timeoutDur : Int := Controller.invalidDuration
  timeout : Int := Controller.invalidTimePoint
  lastGatewayUpdate : Int
  lastIsLocked : Bool := false
  lastIsDoorOpen : Bool := false
  running : Bool := true
  calls : List Call := []

namespace Controller

def spaceClosedJson : Bytes := str "\x7b\"status\": \"closed\"\x7d"
def spaceOpenJson : Bytes := str "\x7b\"status\": \"open\"\x7d"

def emit (c : Controller) (call : Call) : Controller := { c with calls := c.calls ++ [call] }

/-! ### The helpers of the handlers -/

def isItThursday (i : Input) : Bool := i.allowOpen || i.thursday

def checkThursday (c : Controller) (i : Input) : Controller :=
  if !isItThursday i then c.emit (.showMessage (str "It is not\nThursday yet") .red)
  else
    let c := { c with state := .open }
    let c := if c.isMain then
      (c.emit .slackAnnounceOpen).emit (.setSpaceStatus spaceOpenJson) else c
    { c with isSpaceOpen := true }

def checkCard (c : Controller) (i : Input) (changeState : Bool) : Controller :=
  match i.access.access with
  | .allowed =>
    if changeState then
      let c := { c with isLocked := false }
      let c := c.emit (.setRelay true)
      let c := c.emit (.showMessage (str "Valid card swiped") .white)
      let c := c.emit (.setPattern .enter)
      { c with state := .timedUnlock, timeoutDur := enterTime }
    else c
  | .forbidden =>
    let c := c.emit (.showMessage
      (format [str "Blocked card ", cardIdFormat c.cardId, str " swiped"]) .yellow)
    let c := c.emit (.writeSlack (str ":bandit: Unauthorized card swiped") .info)
    c.emit (.log (format [str "Unauthorized card ", cardIdFormat c.cardId, str " swiped"]))
  | .unknown =>
    let c := c.emit (.showMessage
      (format [str "Unknown card\n", cardIdFormat c.cardId, str "\nswiped"]) .yellow)
    let c := c.emit (.writeSlack (format [str ":broken_key: Unknown card ",
      cardIdFormat i.unknownCardNumber, str " swiped"]) .info)
    c.emit (.logUnknownCard c.cardId)
  | .error =>
    c.emit (.writeSlack (format [str ":computer_rage: Internal error checking card: ",
      cstr i.access.errorMsg]) .info)

/-! ### The handlers -/

def handleInitial (c : Controller) : Controller :=
  { c.emit (.setPattern .ready) with state := .locked }

/-- The second line of the display while the door is locked. -/
def auxStatus (c : Controller) (i : Input) : Bytes :=
  if c.isMain then
    let aux := if i.openDoors ≠ [] then format [str "Open: ", cstr i.openDoors] else []
    if i.presentCards ≠ [] then format [str "Cards forgot in: ", cstr i.presentCards] else aux
  else []

def handleLocked (c : Controller) (i : Input) : Controller :=
  let c := { c with isLocked := true }
  let c := c.emit (.setPattern .ready)
  let c := c.emit (.setStatus (str "Locked") .orange (some (c.auxStatus i, .red)))
  let c := c.emit (.setSlackStatus (str ":lock: Door is locked"))
  if c.keys.white then c.checkThursday i
  else if c.keys.green then
    let c := c.emit (.log (str "Green pressed"))
    { c with timeoutDur := unlockPeriod, state := .timedUnlock }
  else if c.cardId ≠ 0 then c.checkCard i true
  else if c.keys.leave then
    let c := { c with isLocked := false }
    let c := c.emit (.setRelay true)
    let c := { c with state := .timedUnlock, timeoutDur := leaveTime }
    c.emit (.writeSlack (str ":exit: The Leave button has been pressed") .debug)
  else c

/-- The end of the open period, as both branches of `handle_open` announce it. -/
def announceClosed (c : Controller) : Controller :=
  let c := if c.isMain then
    (c.emit .slackAnnounceClosed).emit (.setSpaceStatus spaceClosedJson) else c
  { c with isSpaceOpen := false }

/-- The checks of `handle_open` whether to stay open. -/
def endOpenPeriod (c : Controller) (i : Input) : Controller :=
  if !isItThursday i then
    let c := c.emit (.log (str "It is no longer Thursday"))
    announceClosed { c with state := .locked }
  else if c.keys.red then { c.announceClosed with state := .locked }
  else c

def handleOpen (c : Controller) (i : Input) : Controller :=
  let c := { c with isLocked := false }
  let c := c.emit (.setStatus (str "Open") .green (some ([], .red)))
  let c := c.endOpenPeriod i
  if c.cardId ≠ 0 then c.checkCard i false else c

/-- The time left on the display, and the warning in the last ten minutes. -/
def showTimeLeft (c : Controller) (i : Input) : Controller :=
  let timeLeft := c.timeout - i.displayTime
  if timeLeft > seconds 10 then
    let secsLeft := timeLeft / seconds 1
    let minsLeft := (secsLeft + 59) / 60
    let s2 := if minsLeft > 1 then format [decimal minsLeft, str " minutes"]
      else format [decimal secsLeft, str " seconds"]
    if timeLeft ≤ unlockWarn then
      let c := if !c.simulate then c.emit (.setPattern .warnClosing) else c
      c.emit (.setStatus (str "Open for\n" ++ s2) .orange none)
    else c.emit (.setStatus (str "Open for\n" ++ s2) .blue none)
  else c

/-- The branches of `handle_timed_unlock` while the time is not over. -/
def stayUnlocked (c : Controller) (i : Input) : Controller :=
  if c.keys.white then c.checkThursday i
  else if c.timeout ≠ invalidTimePoint then c.showTimeLeft i
  else c

/-- The timed unlock ends here: Red, or its time is over. -/
def unlockEnds (c : Controller) (i : Input) : Bool :=
  c.keys.red || (c.timeout ≠ invalidTimePoint && i.handlerTime ≥ c.timeout)

def handleTimedUnlock (c : Controller) (i : Input) : Controller :=
  let c := { c with isLocked := false }
  let c := if c.unlockEnds i then { c with timeout := invalidTimePoint, state := .locked }
    else c.stayUnlocked i
  if c.timeout = invalidTimePoint then { c with state := .locked } else c

def handle (c : Controller) (i : Input) : Controller :=
  match c.state with
  | .initial => c.handleInitial
  | .locked => c.handleLocked i
  | .open => c.handleOpen i
  | .timedUnlock => c.handleTimedUnlock i

/-! ### Remote actions and status -/

def checkAction (c : Controller) (i : Input) : Controller :=
  let (action, arg) := i.action
  if action = [] then c
  else
    let c := c.emit (.log (format [str "Start action '", cstr action, str "'"]))
    if action = str "lock" then
      let c := if c.isDoorOpen then
        c.emit (.writeSlack (str ":warning: Door is open") .info) else c
      let c := { c with isLocked := true }
      let c := c.emit (.writeSlack (str ":lock: Door locked remotely") .info)
      { c with state := .locked }
    else if action = str "unlock" then
      let c := { c with isLocked := false }
      let c := c.emit (.writeSlack (str ":unlock: Door unlocked remotely") .info)
      { c with state := .timedUnlock, timeout := i.actionTime + gwUnlockPeriod }
    else if action = str "reboot" then
      let c := c.emit (.writeSlack (str ":power: Rebooting") .info)
      { c.emit .restart with running := false }
    else if action = str "setacstoken" then
      let c := c.emit (.writeSlack (str ":secret: ACS token set") .debug)
      c.emit (.setAcsToken (cstr arg))
    else
      let c := c.emit (.log (format [str "Unknown action '", cstr action, str "'"]))
      c.emit (.writeSlack (format [str ":question: Unknown action '", cstr action, str "'"]) .info)

def setMqttDeviceStatus (boot : Boot) (c : Controller) (timestamp heartbeat : Bytes)
    (printed : Bool) : Controller :=
  if printed then
    c.emit (.setDeviceStatus {
      timestamp
      door := if c.isDoorOpen then str "open" else str "closed"
      space := if c.isSpaceOpen then str "open" else str "closed"
      lockStatus := if c.isLocked then str "locked" else str "unlocked"
      bootTime := boot.bootTimestamp
      cardReaderHeartbeat := heartbeat
      version := boot.version })
  else c

/-! ### The loop of `run` -/

/-- The start of `run`, up to the loop. -/
def start (boot : Boot) : Controller :=
  let c : Controller := {
    isMain := boot.isMainSet || boot.identifier = str "main"
    lastGatewayUpdate := boot.gatewayTime - seconds 60
    calls := [.displayClear] }
  setMqttDeviceStatus boot c boot.timestamp boot.heartbeat boot.printed

/-- The top of an iteration: the relay follows `is_locked`, and the inputs are
    read. -/
def readInputs (c : Controller) (i : Input) : Controller :=
  let c := { c with calls := [.displayUpdate, .setRelay (!c.isLocked)] }
  let c := { c with isDoorOpen := i.doorOpen, keys := i.keys, cardId := i.cardId }
  if c.cardId ≠ 0 then
    c.emit (.log (format [str "Card ", cardIdFormat c.cardId, str " swiped"]))
  else c

def isChanged (c : Controller) : Bool :=
  c.isLocked != c.lastIsLocked || c.isDoorOpen != c.lastIsDoorOpen

def gatewayUpdateNeeded (c : Controller) (i : Input) : Bool :=
  c.isChanged || (c.lastGatewayUpdate = invalidTimePoint ||
    i.currentTime - c.lastGatewayUpdate > seconds 15)

def noteChange (c : Controller) : Controller :=
  if c.isChanged then
    let c := c.emit (.log (format [str "Lock status ",
      if c.isLocked then str "locked" else str "unlocked", str " door ",
      if c.isDoorOpen then str "open" else str "closed"]))
    { c with lastIsLocked := c.isLocked, lastIsDoorOpen := c.isDoorOpen }
  else c

/-- The gateway update, when one is needed.  It does not come back from a
    restart. -/
def gatewayUpdate (boot : Boot) (c : Controller) (i : Input) : Controller :=
  let needed := c.gatewayUpdateNeeded i
  let c := c.noteChange
  if needed then
    let c := c.checkAction i
    if c.running then
      let c := setMqttDeviceStatus boot c i.timestamp i.heartbeat i.printed
      let c := { c with lastGatewayUpdate := i.currentTime }
      match i.rssi with
      | .ok rssi => c.emit (.log (format [str "AP RSSI ", decimal rssi]))
      | .error err => c.emit (.log (format [str "RSSI error: ", decimal err]))
    else c
  else c

/-- The timeout that the handler has asked for starts with the iteration. -/
def setTimeout (c : Controller) (i : Input) : Controller :=
  if c.timeoutDur ≠ invalidDuration then
    let c := c.emit (.log (format [str "Set timeout of ", decimal (c.timeoutDur / seconds 1),
      str " s"]))
    { c with timeout := i.currentTime + c.timeoutDur, timeoutDur := invalidDuration }
  else c

def scheduledReboot (boot : Boot) (c : Controller) (i : Input) : Controller :=
  if i.currentTime - boot.startTime > seconds (15 * 60) ∧ i.hour = 2 ∧
      i.minute = boot.rebootMinute then
    let c := c.emit (.log (str "Scheduled reboot"))
    let c := c.emit (.setStatus (str "Rebooting") .red none)
    let c := c.emit .displayUpdate
    { c.emit .restart with running := false }
  else c

def atHandler (boot : Boot) (c : Controller) (i : Input) : Controller :=
  (c.readInputs i).gatewayUpdate boot i

/-- One iteration; after a restart there is none. -/
def iterate (boot : Boot) (c : Controller) (i : Input) : Controller :=
  if c.running then
    let c := c.atHandler boot i
    if c.running then ((c.handle i).setTimeout i).scheduledReboot boot i else c
  else { c with calls := [] }

def run (boot : Boot) (inputs : List Input) : Controller :=
  Runs.exec (iterate boot) (start boot) inputs

end Controller

end Acs.Esp32
