/-
  Acs/Bridge/Broker.lean
  ======================
  **The MQTT bridge between its two brokers** (`mqtt_broker_bridge.py`).

  The bridge is a client of the local broker and of the remote one.  A message
  that one client receives is published with the other, in a callback that runs
  on the thread of the receiving client.  Two flags are to prevent loops: while
  a callback publishes, it holds the flag of the other direction down, so that
  the other callback turns away what comes in.

  A broker delivers every publication that matches the topic filter, also to
  the client that made it; what the bridge publishes comes back to it as an
  echo.  Deliveries may overtake each other, and the four steps of a callback
  interleave with everything else.

  Each message on its way carries the number of the client's publication that it
  goes back to, and whether it is an echo.  The bridge does not see either; they
  are there to say what becomes of a publication.
-/
import Acs.Bytes
import Acs.Lib.Run
import Mathlib.Data.List.Perm.Basic
import Mathlib.Logic.Function.Basic

namespace Acs.Bridge

open Acs Runs

/-! ### Messages -/

inductive Broker where
  | localhost
  | remote
deriving DecidableEq, Repr

def Broker.other : Broker → Broker
  | localhost => remote
  | remote => localhost

@[simp] theorem Broker.other_other (side : Broker) : side.other.other = side := by
  cases side <;> rfl

@[simp] theorem Broker.other_ne (side : Broker) : side.other ≠ side := by
  cases side <;> decide

theorem Broker.eq_or_eq_other (t side : Broker) : t = side ∨ t = side.other := by
  cases t <;> cases side <;> simp [Broker.other]

structure Message where
  topic : Bytes
  payload : Bytes
  qos : Nat
  retain : Bool
deriving DecidableEq

/-- A publication as a broker hands it to the bridge: the subscription is made
    with QoS 1, and the retain flag is not set for a subscription that is
    already there. -/
def Message.delivered (msg : Message) : Message :=
  { msg with qos := min msg.qos 1, retain := false }

@[simp] theorem Message.delivered_delivered (msg : Message) :
    msg.delivered.delivered = msg.delivered := by
  simp [Message.delivered]

theorem Message.delivered_eq_self_iff (msg : Message) :
    msg.delivered = msg ↔ msg.qos ≤ 1 ∧ msg.retain = false := by
  obtain ⟨topic, payload, qos, retain⟩ := msg
  cases retain <;> simp [Message.delivered]

/-- A message on its way from a broker to the bridge. -/
structure Item where
  serial : Nat
  echo : Bool
  message : Message
deriving DecidableEq

/-- How far the callback of a client has come with a message. -/
inductive Callback where
  | idle
  | tested (item : Item)
  | cleared (item : Item)
  | published (item : Item)
deriving DecidableEq

/-- Does the callback hold the flag of the other direction down? -/
def Callback.Holds : Callback → Prop
  | cleared _ => True
  | published _ => True
  | _ => False

instance (c : Callback) : Decidable c.Holds := by
  cases c <;> unfold Callback.Holds <;> infer_instance

def Callback.item? : Callback → Option Item
  | idle => none
  | tested item => some item
  | cleared item => some item
  | published item => some item

/-- A publication of the bridge, with the message that it was made from. -/
structure Publication where
  broker : Broker
  item : Item
deriving DecidableEq

/-! ### The state and its steps -/

/-- `forwardFrom .localhost` is `forward_from_local`, and so on.  `external` is
    what the clients have published, and on which broker. -/
structure State where
  forwardFrom : Broker → Bool := fun _ => true
  callback : Broker → Callback := fun _ => .idle
  inFlight : Broker → List Item := fun _ => []
  external : List (Broker × Message) := []
  published : List Publication := []

/-- `check` is the answer of `is_connected()` and, if it is yes, the flag going
    down; `restore` is the `finally` of the callback. -/
inductive Event where
  | publish (side : Broker) (message : Message)
  | deliver (side : Broker) (n : Nat)
  | check (side : Broker) (connected : Bool)
  | send (side : Broker)
  | restore (side : Broker)
deriving DecidableEq

/-- `accepts` says of a topic whether it matches the topic filter. -/
def State.enqueue (s : State) (accepts : Bytes → Bool) (side : Broker) (item : Item) : State :=
  if accepts item.message.topic then
    { s with inFlight := Function.update s.inFlight side (s.inFlight side ++ [item]) }
  else s

def step (accepts : Bytes → Bool) (s : State) : Event → State
  | .publish side message =>
      let item : Item := ⟨s.external.length, false, message.delivered⟩
      { s.enqueue accepts side item with external := s.external ++ [(side, message)] }
  | .deliver side n =>
      match s.callback side, (s.inFlight side)[n]? with
      | .idle, some item =>
          let s := { s with
            inFlight := Function.update s.inFlight side ((s.inFlight side).eraseIdx n) }
          if s.forwardFrom side then
            { s with callback := Function.update s.callback side (.tested item) }
          else s
      | _, _ => s
  | .check side connected =>
      match s.callback side with
      | .tested item =>
          if connected then
            { s with
              forwardFrom := Function.update s.forwardFrom side.other false
              callback := Function.update s.callback side (.cleared item) }
          else { s with callback := Function.update s.callback side .idle }
      | _ => s
  | .send side =>
      match s.callback side with
      | .cleared item =>
          let s := s.enqueue accepts side.other ⟨item.serial, true, item.message.delivered⟩
          { s with
            published := s.published ++ [⟨side.other, item⟩]
            callback := Function.update s.callback side (.published item) }
      | _ => s
  | .restore side =>
      match s.callback side with
      | .published _ =>
          { s with
            forwardFrom := Function.update s.forwardFrom side.other true
            callback := Function.update s.callback side .idle }
      | _ => s

def run (accepts : Bytes → Bool) (events : List Event) : State := exec (step accepts) {} events

/-- A message that a step turns away for good: the flag is down, or the other
    broker is not connected. -/
def lost (s : State) : Event → List Item
  | .deliver side n =>
      match s.callback side, (s.inFlight side)[n]? with
      | .idle, some item => if s.forwardFrom side then [] else [item]
      | _, _ => []
  | .check side connected =>
      match s.callback side with
      | .tested item => if connected then [] else [item]
      | _ => []
  | _ => []

/-! ### What a step can do -/

/-- The moves of the system: the event, the state after it, and what is lost. -/
inductive Move (accepts : Bytes → Bool) (s : State) : Event → State → List Item → Prop where
  | stay (e : Event) (h : ∀ side message, e ≠ .publish side message) : Move accepts s e s []
  | publish (side : Broker) (message : Message) :
      Move accepts s (.publish side message)
        { s.enqueue accepts side ⟨s.external.length, false, message.delivered⟩ with
          external := s.external ++ [(side, message)] } []
  | accept (side : Broker) (n : Nat) (item : Item) (hidle : s.callback side = .idle)
      (hitem : (s.inFlight side)[n]? = some item) (hup : s.forwardFrom side = true) :
      Move accepts s (.deliver side n)
        { s with
          inFlight := Function.update s.inFlight side ((s.inFlight side).eraseIdx n)
          callback := Function.update s.callback side (.tested item) } []
  | refuse (side : Broker) (n : Nat) (item : Item) (hidle : s.callback side = .idle)
      (hitem : (s.inFlight side)[n]? = some item) (hdown : s.forwardFrom side = false) :
      Move accepts s (.deliver side n)
        { s with inFlight := Function.update s.inFlight side ((s.inFlight side).eraseIdx n) } [item]
  | clear (side : Broker) (item : Item) (hcallback : s.callback side = .tested item) :
      Move accepts s (.check side true)
        { s with
          forwardFrom := Function.update s.forwardFrom side.other false
          callback := Function.update s.callback side (.cleared item) } []
  | drop (side : Broker) (item : Item) (hcallback : s.callback side = .tested item) :
      Move accepts s (.check side false)
        { s with callback := Function.update s.callback side .idle } [item]
  | send (side : Broker) (item : Item) (hcallback : s.callback side = .cleared item) :
      Move accepts s (.send side)
        { s.enqueue accepts side.other ⟨item.serial, true, item.message.delivered⟩ with
          published := s.published ++ [⟨side.other, item⟩]
          callback := Function.update s.callback side (.published item) } []
  | restore (side : Broker) (item : Item) (hcallback : s.callback side = .published item) :
      Move accepts s (.restore side)
        { s with
          forwardFrom := Function.update s.forwardFrom side.other true
          callback := Function.update s.callback side .idle } []

theorem enqueue_published (accepts : Bytes → Bool) (s : State) (side : Broker) (item : Item) :
    (s.enqueue accepts side item).published = s.published := by
  rw [State.enqueue]
  split <;> rfl

theorem enqueue_callback (accepts : Bytes → Bool) (s : State) (side : Broker) (item : Item) :
    (s.enqueue accepts side item).callback = s.callback := by
  rw [State.enqueue]
  split <;> rfl

theorem enqueue_forwardFrom (accepts : Bytes → Bool) (s : State) (side : Broker) (item : Item) :
    (s.enqueue accepts side item).forwardFrom = s.forwardFrom := by
  rw [State.enqueue]
  split <;> rfl

theorem enqueue_external (accepts : Bytes → Bool) (s : State) (side : Broker) (item : Item) :
    (s.enqueue accepts side item).external = s.external := by
  rw [State.enqueue]
  split <;> rfl

theorem step_move (accepts : Bytes → Bool) (s : State) (e : Event) :
    Move accepts s e (step accepts s e) (lost s e) := by
  cases e with
  | publish side message => exact .publish side message
  | deliver side n =>
    rw [step, lost]
    split
    next item hidle hitem =>
      dsimp only
      cases hflag : s.forwardFrom side with
      | true => exact .accept side n item hidle hitem hflag
      | false => exact .refuse side n item hidle hitem hflag
    next => exact .stay _ nofun
  | check side connected =>
    rw [step, lost]
    split
    next item hcallback =>
      cases connected with
      | true => exact .clear side item hcallback
      | false => exact .drop side item hcallback
    next => exact .stay _ nofun
  | send side =>
    rw [step]
    split
    next item hcallback =>
      dsimp only
      rw [enqueue_published, enqueue_callback]
      exact .send side item hcallback
    next => exact .stay _ nofun
  | restore side =>
    rw [step]
    split
    next item hcallback => exact .restore side item hcallback
    next => exact .stay _ nofun

end Acs.Bridge
