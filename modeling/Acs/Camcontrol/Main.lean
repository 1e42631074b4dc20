/-
  Acs/Camcontrol/Main.lean
  ========================
  **The camera relays** (`camcontrol/esp32/main/main.cpp`, `gateway.cpp`,
  `nvs.cpp`).

  Two tasks share the flags of the relays: the loop of `app_main`, which samples
  a button every 10 ms, and `gw_task`, which asks the gateway for an action every
  10 s.  The flags are protected by a mutex, so that a turn of the loop and the
  handling of a reply are single steps; the ten seconds before a reboot that the
  gateway asks for are not.  The relay state is kept in the flash, where it is
  found again after a restart.
-/
import Acs.Bytes
import Acs.Lib.Run

namespace Acs.Camcontrol

open Acs

/-! ### The state -/

/-- The locals of the loop, and the samples that it has taken. -/
structure Locals where
  startTime : Int
  rebootMinute : Int
  lastCameraRelayOn : Bool
  lastEstopRelayOn : Bool
  lastButton : Bool := false
  debounce : Nat := 0
  mqttCount : Nat := 0
  samples : List Bool := []
deriving DecidableEq

/-- Where `app_main` is: before the flags are set, in the five seconds after that,
    or in its loop. -/
inductive Phase where
  | booting
  | started (startTime rebootMinute : Int)
  | looping (l : Locals)
deriving DecidableEq

/-- What the two tasks ask of the display, the relays, MQTT and the gateway. -/
inductive Call where
  | addProgress (text : Bytes)
  | setStatus (mainStatus auxStatus : Bytes)
  | setRelay1 (on : Bool)
  | setRelay2 (on : Bool)
  | publishMqttStatus (camerasOn estopOn : Bool)
  | logMqtt (text : Bytes)
  | request (resource : Bytes)
deriving DecidableEq

/-- The flash, the globals, the two tasks, and the calls of the last step.
    `stored` is the value under `RELAY_KEY`, if there is one. -/
structure System where
  stored : Option Bool := none
  relayState : Bool := false
  cameraRelayOn : Bool := false
  estopRelayOn : Bool := false
  phase : Phase := .booting
  disconnects : Nat := 0
  rebooting : Bool := false
  calls : List Call := []
deriving DecidableEq

namespace System

def clearCalls (s : System) : System := { s with calls := [] }

def emit (s : System) (call : Call) : System := { s with calls := s.calls ++ [call] }

/-! ### The relay state in the flash -/

def setRelayState (s : System) (on : Bool) : System := { s with stored := some on, relayState := on }

def getRelayState (s : System) : Bool := s.relayState

/-- `init_nvs`: without a value, or if it cannot be read, the state is off. -/
def initNvs (s : System) : System := { s with relayState := s.stored.getD false }

/-- `esp_restart`, up to the start of `gw_task`: only the flash is left. -/
def restart (s : System) : System := ({ stored := s.stored, calls := s.calls } : System).initNvs

/-! ### `app_main` -/

def bit (b : Bool) : Bytes := decimal b.toInt

/-- `Display::set_status(bool, bool)`. -/
def setStatus (s : System) (camOn estopOn : Bool) : System :=
  s.emit (.setStatus (if camOn then str "  On" else str " Off")
    (str "   e-stop: " ++ if estopOn then str "ON" else str "OFF"))

/-- The flags are set from the flash. -/
def start (s : System) (startTime rebootMinute : Int) : System :=
  match s.phase with
  | .booting =>
    let s := { s with cameraRelayOn := s.getRelayState, estopRelayOn := s.getRelayState }
    { s.emit (.addProgress (str "Relay: " ++ bit s.cameraRelayOn)) with
      phase := .started startTime rebootMinute }
  | _ => s

def enterLoop (s : System) : System :=
  match s.phase with
  | .started startTime rebootMinute =>
    { s.setStatus s.cameraRelayOn s.estopRelayOn with
      phase := .looping {
        startTime, rebootMinute
        lastCameraRelayOn := s.cameraRelayOn
        lastEstopRelayOn := s.estopRelayOn } }
  | _ => s

/-- The button is released: the relays are toggled. -/
def toggle (s : System) : System :=
  let s := { s with cameraRelayOn := !s.cameraRelayOn }
  let s := { s with estopRelayOn := s.cameraRelayOn }
  s.setRelayState s.cameraRelayOn

/-- The sample of one turn.  A sample that is as before leaves the count. -/
def checkButton (s : System) (l : Locals) (button : Bool) : System × Locals :=
  let l := { l with samples := l.samples ++ [button] }
  if button ≠ l.lastButton then
    if l.debounce + 1 > 5 then
      (if !button then s.toggle else s, { l with debounce := 0, lastButton := button })
    else (s, { l with debounce := l.debounce + 1 })
  else (s, l)

/-- The relays and the reports of one turn. -/
def setRelays (s : System) (l : Locals) : System × Locals :=
  let s := if s.cameraRelayOn ≠ l.lastCameraRelayOn ∨ s.estopRelayOn ≠ l.lastEstopRelayOn then
    s.setStatus s.cameraRelayOn s.estopRelayOn else s
  let s := (s.emit (.setRelay1 s.cameraRelayOn)).emit (.setRelay2 s.estopRelayOn)
  let l := { l with
    lastCameraRelayOn := s.cameraRelayOn
    lastEstopRelayOn := s.estopRelayOn
    mqttCount := l.mqttCount + 1 }
  if l.mqttCount ≥ 10000 then
    (s.emit (.publishMqttStatus s.cameraRelayOn s.estopRelayOn), { l with mqttCount := 0 })
  else (s, l)

/-- `tm_hour` and `tm_min` of `gmtime_r`. -/
def tmHour (time : Int) : Int := time / 3600 % 24
def tmMin (time : Int) : Int := time / 60 % 60

/-- The nightly reboot: the mutex is held until it comes. -/
def scheduledReboot (s : System) (l : Locals) (currentTime : Int) : System :=
  if currentTime - l.startTime > 15 * 60 ∧ tmHour currentTime = 2 ∧
      tmMin currentTime = l.rebootMinute then
    let s := s.emit (.logMqtt (str "Scheduled reboot"))
    (s.emit (.setStatus (str "Reboot") (str "in 60 s"))).restart
  else { s with phase := .looping l }

def iterate (s : System) (button : Bool) (currentTime : Int) : System :=
  match s.phase with
  | .looping l =>
    let (s, l) := s.checkButton l button
    let (s, l) := s.setRelays l
    s.scheduledReboot l currentTime
  | _ => s

/-! ### `gw_task` -/

/-- The outcome of a request: there is no token for it, it fails, or it is answered,
    with an action or without. -/
inductive Reply where
  | noToken
  | failed
  | noAction
  | action (action : Bytes)
deriving DecidableEq

def resource (s : System) (version : Bytes) : Bytes :=
  str "/camctl?cameras=" ++ bit s.cameraRelayOn ++ str "&estop=" ++ bit s.estopRelayOn ++
    str "&version=" ++ version

/-- An action is executed; a reboot comes ten seconds later. -/
def execute (s : System) (action : Bytes) : System :=
  if action = str "on" then { s with cameraRelayOn := true }
  else if action = str "off" then { s with cameraRelayOn := false }
  else if action = str "reboot" then { s with rebooting := true }
  else s

/-- What `gw_task` does when there is no answer. -/
def disconnect (s : System) : System :=
  let s := { s with disconnects := s.disconnects + 1 }
  if s.disconnects > 5 then s.restart else s

/-- A turn of `gw_task`, which does not ask again while it waits for a reboot. -/
def setGwStatus (s : System) (version : Bytes) (reply : Reply) : System :=
  if s.rebooting then s
  else
    match reply with
    | .noToken => s.disconnect
    | .failed => (s.emit (.request (s.resource version))).disconnect
    | .noAction => s.emit (.request (s.resource version))
    | .action action => (s.emit (.request (s.resource version))).execute action

end System

/-! ### The two tasks -/

inductive Event where
  /-- There is no connection, and the boot is given up. -/
  | bootFailed
  | start (startTime rebootMinute : Int)
  | enterLoop
  | iterate (button : Bool) (currentTime : Int)
  | reply (version : Bytes) (reply : System.Reply)
  /-- The ten seconds before a reboot are over. -/
  | reboot

def step (s : System) : Event → System
  | .bootFailed => if s.phase = .booting then s.clearCalls.restart else s.clearCalls
  | .start startTime rebootMinute => s.clearCalls.start startTime rebootMinute
  | .enterLoop => s.clearCalls.enterLoop
  | .iterate button currentTime => s.clearCalls.iterate button currentTime
  | .reply version reply => s.clearCalls.setGwStatus version reply
  | .reboot => if s.rebooting then s.clearCalls.restart else s.clearCalls

/-- The device is switched on. -/
def powerOn (stored : Option Bool) : System := ({ stored } : System).initNvs

def run (stored : Option Bool) (events : List Event) : System :=
  Runs.exec step (powerOn stored) events

end Acs.Camcontrol
