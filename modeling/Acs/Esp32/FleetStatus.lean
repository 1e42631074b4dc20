/-
  Acs/Esp32/FleetStatus.lean
  ==========================
  **What a frontend shows of the other devices** (`Mqtt::get_open_doors` and
  `Mqtt::get_present_cards`).

  Every device reports its door, its lock and the presence of a card in status
  messages, and a report need not be complete.  The class keeps two maps; both
  hold the last report of every other device (`doorStatus_after`,
  `cardPresentStatus_after`), so that the two texts are a function of the
  messages alone.

  The loops that join the names put a comma in front of a name when the text so
  far is not empty.  A device with an empty name, which reports under
  `hal9k/acs/status/`, is the first of the map and adds nothing to the text:
  when it is listed without a star, the comma after it is lost.
-/
import Acs.Esp32.Mqtt
import Acs.Lib.Listing

namespace Acs.Esp32

open Acs Runs Listing

/-! ### The two texts -/

def Mqtt.getOpenDoors (m : Mqtt) : Bytes :=
  m.doorStatus.foldl (fun s device status =>
    if status.1 || status.2 then
      let s := if s.isEmpty then s else s ++ str ", "
      let s := if status.1 then s ++ str "*" else s
      s ++ device
    else s) []

def Mqtt.getPresentCards (m : Mqtt) : Bytes :=
  m.cardPresentStatus.foldl (fun s device present =>
    if present then
      let s := if s.isEmpty then s else s ++ str ", "
      s ++ device
    else s) []

/-- How a device is listed, if it is: with a star when its door is open. -/
def doorLabel (device : Bytes) : Bool × Bool → Option Bytes
  | (true, _) => some (str "*" ++ device)
  | (false, true) => some device
  | (false, false) => none

def cardLabel (device : Bytes) : Bool → Option Bytes
  | true => some device
  | false => none

theorem getOpenDoors_eq (m : Mqtt) :
    m.getOpenDoors = listed doorLabel (str ", ") m.doorStatus := by
  rw [Mqtt.getOpenDoors, listed]
  congr 1
  funext s device status
  obtain ⟨doorOpen, unlocked⟩ := status
  cases doorOpen with
  | true => simp [doorLabel, append, List.append_assoc]
  | false => cases unlocked <;> simp [doorLabel, append]

theorem getPresentCards_eq (m : Mqtt) :
    m.getPresentCards = listed cardLabel (str ", ") m.cardPresentStatus := by
  rw [Mqtt.getPresentCards, listed]
  congr 1
  funext s device present
  cases present <;> simp [cardLabel, append]

/-! ### Messages of the fleet -/

/-- A message under one of the two topics that the class subscribes to. -/
inductive FleetMessage where
  | status (device data : Bytes)
  | action (rest data : Bytes)

namespace FleetMessage

def topic : FleetMessage → Bytes
  | status device _ => str "hal9k/acs/status/" ++ device
  | action rest _ => str "hal9k/acs/action" ++ rest

def data : FleetMessage → Bytes
  | status _ data => data
  | action _ data => data

/-- The sender of a status message of another device, and the object `data` of
    its payload. -/
def report (dev : Device) : FleetMessage → Option (Bytes × Json)
  | status device data =>
      if device = dev.identifier then none
      else
        match dev.parse (cstr data) with
        | none => none
        | some root =>
            match root.getObjectItem (str "data") with
            | some (.object fields) => some (device, .object fields)
            | _ => none
  | action _ _ => none

/-- Is the door open, and is it unlocked?  Only a message with both answers
    counts. -/
def doorReport (dev : Device) (msg : FleetMessage) : Option (Bytes × (Bool × Bool)) := do
  let (device, node) ← msg.report dev
  let door ← Json.valuestring? (node.getObjectItem (str "door"))
  let lockStatus ← Json.valuestring? (node.getObjectItem (str "lock_status"))
  return (device, (door == str "open", lockStatus == str "unlocked"))

def cardReport (dev : Device) (msg : FleetMessage) : Option (Bytes × Bool) :=
  match msg.report dev with
  | none => none
  | some (device, node) =>
      match node.getObjectItem (str "card_present") with
      | some (.bool present) => some (device, present)
      | _ => none

/-- Not an own message, not malformed and not an action. -/
def Counts (dev : Device) : FleetMessage → Prop
  | status device data => device ≠ dev.identifier ∧ (dev.parse (cstr data)).isSome
  | action _ _ => False

end FleetMessage

/-- The class after a sequence of messages. -/
def deliver (dev : Device) (m : Mqtt) (msg : FleetMessage) : Mqtt :=
  m.handleData dev msg.topic msg.data

def after (dev : Device) (msgs : List FleetMessage) : Mqtt := exec (deliver dev) {} msgs

/-! ### What one message does -/

theorem handleAction_doorStatus (dev : Device) (m : Mqtt) (topic data : Bytes) :
    (m.handleAction dev topic data).doorStatus = m.doorStatus ∧
      (m.handleAction dev topic data).cardPresentStatus = m.cardPresentStatus := by
  have hrun : ∀ action, (m.runAction action).doorStatus = m.doorStatus ∧
      (m.runAction action).cardPresentStatus = m.cardPresentStatus := by
    intro action
    match action with
    | none => exact ⟨rfl, rfl⟩
    | some (action, arg) =>
      rw [Mqtt.runAction]
      split <;> exact ⟨rfl, rfl⟩
  rw [Mqtt.handleAction]
  split
  · split
    · exact ⟨rfl, rfl⟩
    · split
      · exact hrun _
      · exact ⟨rfl, rfl⟩
  · exact ⟨rfl, rfl⟩

theorem deliver_action (dev : Device) (m : Mqtt) (rest data : Bytes) :
    deliver dev m (.action rest data) = m.handleAction dev (str "action" ++ rest) data := by
  rfl

theorem deliver_status (dev : Device) (m : Mqtt) (device data : Bytes) :
    deliver dev m (.status device data) = m.handleStatus dev (str "status/" ++ device) data := by
  rfl

/-- `handle_status` in terms of the report that the message makes. -/
theorem deliver_status_eq (dev : Device) (m : Mqtt) (device data : Bytes) :
    (deliver dev m (.status device data)).doorStatus =
        store m.doorStatus (FleetMessage.doorReport dev (.status device data)) ∧
      (deliver dev m (.status device data)).cardPresentStatus =
        store m.cardPresentStatus (FleetMessage.cardReport dev (.status device data)) := by
  have hlong : ¬ (str "status/" ++ device).length < (str "status/").length := by
    rw [List.length_append]
    omega
  rw [deliver_status, Mqtt.handleStatus, if_neg hlong, List.drop_left, FleetMessage.doorReport,
    FleetMessage.cardReport, FleetMessage.report]
  by_cases hown : device = dev.identifier
  · rw [if_pos hown, if_pos hown]
    exact ⟨rfl, rfl⟩
  · rw [if_neg hown, if_neg hown]
    dsimp only
    cases dev.parse (cstr data) with
    | none => exact ⟨rfl, rfl⟩
    | some root =>
      dsimp only
      generalize root.getObjectItem (str "data") = item
      rcases item with _ | (_ | _ | _ | _ | _ | fields)
      case some.object =>
        dsimp only [Option.bind_eq_bind, Option.bind_some]
        generalize Json.valuestring? ((Json.object fields).getObjectItem (str "door")) = door
        generalize Json.valuestring? ((Json.object fields).getObjectItem (str "lock_status")) =
          lockStatus
        generalize (Json.object fields).getObjectItem (str "card_present") = card
        cases door <;> cases lockStatus <;> rcases card with _ | (_ | _ | _ | _ | _ | _) <;>
          exact ⟨rfl, rfl⟩
      all_goals exact ⟨rfl, rfl⟩

/-- **One message**: each map keeps the report, if the message makes one. -/
theorem deliver_eq (dev : Device) (m : Mqtt) (msg : FleetMessage) :
    (deliver dev m msg).doorStatus = store m.doorStatus (msg.doorReport dev) ∧
      (deliver dev m msg).cardPresentStatus = store m.cardPresentStatus (msg.cardReport dev) := by
  cases msg with
  | status device data => exact deliver_status_eq dev m device data
  | action rest data =>
    rw [deliver_action]
    exact handleAction_doorStatus dev m (str "action" ++ rest) data

/-! ### The maps after a history -/

variable (dev : Device) (msgs : List FleetMessage)

theorem doorStatus_after (device : Bytes) :
    (after dev msgs).doorStatus[device]? = latest (FleetMessage.doorReport dev) msgs device := by
  have hlast := getElem?_exec_store (deliver dev) Mqtt.doorStatus
    (fun m msg => (deliver_eq dev m msg).1) {} msgs device
  rw [after, hlast]
  exact Option.or_none

theorem cardPresentStatus_after (device : Bytes) :
    (after dev msgs).cardPresentStatus[device]? =
      latest (FleetMessage.cardReport dev) msgs device := by
  have hlast := getElem?_exec_store (deliver dev) Mqtt.cardPresentStatus
    (fun m msg => (deliver_eq dev m msg).2) {} msgs device
  rw [after, hlast]
  exact Option.or_none

/-! ### The texts after a history -/

/-- How the messages say a device is to be listed. -/
def shownDoor (device : Bytes) : Option Bytes :=
  (latest (FleetMessage.doorReport dev) msgs device).bind (doorLabel device)

def shownCard (device : Bytes) : Option Bytes :=
  (latest (FleetMessage.cardReport dev) msgs device).bind (cardLabel device)

/-- What the two methods promise after the messages. -/
structure FleetShown : Prop where
  doors : Lists (str ", ") (shownDoor dev msgs) (after dev msgs).getOpenDoors
  cards : Lists (str ", ") (shownCard dev msgs) (after dev msgs).getPresentCards
  ignored : ∀ pre msg post, msgs = pre ++ msg :: post → ¬ msg.Counts dev →
    (after dev (pre ++ [msg])).getOpenDoors = (after dev pre).getOpenDoors ∧
      (after dev (pre ++ [msg])).getPresentCards = (after dev pre).getPresentCards

/-- The device without a name is listed, with nothing to see of it, next to
    another device. -/
def NamelessListed (shown : Bytes → Option Bytes) : Prop :=
  shown [] = some [] ∧ ∃ device, device ≠ [] ∧ (shown device).isSome

theorem nil_least (device : Bytes) (h : device ≠ []) : compare [] device = .lt := by
  cases device with
  | nil => exact absurd rfl h
  | cons b device => rfl

theorem doors_iff :
    Lists (str ", ") (shownDoor dev msgs) (after dev msgs).getOpenDoors ↔
      ¬ NamelessListed (shownDoor dev msgs) := by
  have hshown : shownDoor dev msgs =
      fun device => (after dev msgs).doorStatus[device]?.bind (doorLabel device) := by
    funext device
    rw [shownDoor, doorStatus_after]
  rw [getOpenDoors_eq, NamelessListed, hshown]
  apply lists_listed_iff _ (by decide) nil_least
  rintro device ⟨doorOpen, unlocked⟩ hempty
  cases doorOpen with
  | true => simp [doorLabel, str] at hempty
  | false =>
    cases unlocked with
    | true => exact Option.some.inj hempty
    | false => cases hempty

theorem cards_iff :
    Lists (str ", ") (shownCard dev msgs) (after dev msgs).getPresentCards ↔
      ¬ NamelessListed (shownCard dev msgs) := by
  have hshown : shownCard dev msgs =
      fun device => (after dev msgs).cardPresentStatus[device]?.bind (cardLabel device) := by
    funext device
    rw [shownCard, cardPresentStatus_after]
  rw [getPresentCards_eq, NamelessListed, hshown]
  apply lists_listed_iff _ (by decide) nil_least
  intro device present hempty
  cases present with
  | true => exact Option.some.inj hempty
  | false => cases hempty

theorem ignored_kept (pre : List FleetMessage) {msg : FleetMessage} (h : ¬ msg.Counts dev) :
    (after dev (pre ++ [msg])).getOpenDoors = (after dev pre).getOpenDoors ∧
      (after dev (pre ++ [msg])).getPresentCards = (after dev pre).getPresentCards := by
  have hreport : msg.report dev = none := by
    cases msg with
    | action rest data => rfl
    | status device data =>
      rw [FleetMessage.report]
      split
      · rfl
      next hother =>
        cases hparse : dev.parse (cstr data) with
        | none => rfl
        | some root => exact absurd ⟨hother, by rw [hparse]; rfl⟩ h
  have hdoor : msg.doorReport dev = none := by
    rw [FleetMessage.doorReport, hreport]
    rfl
  have hcard : msg.cardReport dev = none := by
    rw [FleetMessage.cardReport, hreport]
  obtain ⟨hdoors, hcards⟩ := deliver_eq dev (after dev pre) msg
  rw [hdoor] at hdoors
  rw [hcard] at hcards
  have hsnoc : after dev (pre ++ [msg]) = deliver dev (after dev pre) msg := exec_snoc _ _ _ _
  rw [hsnoc, getOpenDoors_eq, getOpenDoors_eq, getPresentCards_eq, getPresentCards_eq, hdoors,
    hcards]
  exact ⟨rfl, rfl⟩

/-- **The texts are those that the messages call for** exactly when no list has
    the device without a name, unstarred, next to another device. -/
theorem fleetShown_iff :
    FleetShown dev msgs ↔
      ¬ NamelessListed (shownDoor dev msgs) ∧ ¬ NamelessListed (shownCard dev msgs) := by
  constructor
  · intro h
    exact ⟨(doors_iff dev msgs).mp h.doors, (cards_iff dev msgs).mp h.cards⟩
  · rintro ⟨hdoors, hcards⟩
    refine ⟨(doors_iff dev msgs).mpr hdoors, (cards_iff dev msgs).mpr hcards, ?_⟩
    intro pre msg _ _ hmsg
    exact ignored_kept dev pre hmsg

def unlockedText : Bytes :=
  str "\x7b\"data\":\x7b\"door\":\"closed\",\"lock_status\":\"unlocked\"\x7d\x7d"

def unlockedPayload : Json :=
  .object [(str "data",
    .object [(str "door", .string (str "closed")), (str "lock_status", .string (str "unlocked"))])]

def fleetDevice : Device where
  identifier := str "main"
  privateKey := ⟨List.replicate signingKeySize 0, List.length_replicate⟩
  sha256 _ := none
  parse text := if text = unlockedText then some unlockedPayload else none
  print _ := none

/-- Two unlocked devices, one without a name: a comma is missing. -/
theorem not_fleetShown : ¬ ∀ dev msgs, FleetShown dev msgs := by
  intro h
  let msgs : List FleetMessage := [.status [] unlockedText, .status (str "lab") unlockedText]
  apply (doors_iff fleetDevice msgs).mp (h fleetDevice msgs).doors
  refine ⟨by rfl, str "lab", by decide, by rfl⟩

end Acs.Esp32
