/-
  Acs/Esp32/Mqtt.lean
  ===================
  **The MQTT side of the ESP32 frontend** (`mqtt.cpp`).

  Messages arrive in `handleData`, which sorts them by topic into status
  messages of the other devices and actions for this one.  An action is run
  only when `checkSignature` accepts the payload; it either sets `allowOpen` or
  fills a single slot (`currentAction`, `currentActionArg`) that the controller
  empties with `getAndClearAction`.  In the other direction `sign` builds the
  payloads for the backend.

  What lies outside the class is collected in `Device`: the settings kept in
  NVS, SHA-256 from the PSA library, and the text side of cJSON.
-/
import Acs.CJson
import Mathlib

namespace Acs.Esp32

open Acs

/-! ### The device around the class -/

def signingKeySize : Nat := 32

abbrev SigningKey := { key : Bytes // key.length = signingKeySize }

/-- `sha256` is the digest of the bytes given to `psa_hash_update`, `none` when a
    PSA call fails; `parse` is `cJSON_Parse`, and `print` is
    `cJSON_PrintUnformatted`, with `none` for a null pointer. -/
structure Device where
  identifier : Bytes
  privateKey : SigningKey
  sha256 : Bytes → Option Bytes
  parse : Bytes → Option Json
  print : Json → Option Bytes

/-- SHA-256 taken as a function without collisions. -/
def CollisionFree (sha256 : Bytes → Option Bytes) : Prop :=
  ∀ x y digest, sha256 x = some digest → sha256 y = some digest → x = y

/-- The members of `Mqtt` that its methods read and write.  The status of a
    device is (door open, unlocked); a `std::map` keeps its keys in order. -/
structure Mqtt where
  lastStatus : Bytes := []
  lastSpaceStatus : Bytes := []
  doorStatus : Std.TreeMap Bytes (Bool × Bool) := ∅
  cardPresentStatus : Std.TreeMap Bytes Bool := ∅
  currentAction : Bytes := []
  currentActionArg : Bytes := []
  allowOpen : Bool := false

/-! ### Signatures -/

/-- The bytes that `check_signature` hashes: the key, the stamp as a `size_t`
    of four bytes, the text. -/
def verifiedBytes (dev : Device) (stamp : Int) (text : Bytes) : Bytes :=
  dev.privateKey.1 ++ leBytes 4 stamp ++ text

/-- The bytes that `sign` hashes: the key, the time as a `time_t` of eight
    bytes, the message. -/
def signedBytes (dev : Device) (now : Int) (message : Bytes) : Bytes :=
  dev.privateKey.1 ++ leBytes 8 now ++ message

/-- `hex_hash`: the bytes of the digest, each printed with `%02x`. -/
def hexHash (dev : Device) (bytes : Bytes) : Option Bytes :=
  (dev.sha256 bytes).map Hex.encode

def checkSignature (dev : Device) (root : Json) : Bool :=
  match Json.valueint? (root.getObjectItem (str "stamp")) with
  | none => false
  | some stamp =>
      match Json.valuestring? (root.getObjectItem (str "text")) with
      | none => false
      | some text =>
          match Json.valuestring? (root.getObjectItem (str "hash")) with
          | none => false
          | some messageHash =>
              match hexHash dev (verifiedBytes dev stamp text) with
              | none => false
              | some hash => hash == messageHash

/-- **Acceptance in terms of what is hashed.** -/
theorem checkSignature_iff (dev : Device) (root : Json) :
    checkSignature dev root = true ↔
      ∃ stamp text hash,
        Json.valueint? (root.getObjectItem (str "stamp")) = some stamp ∧
        Json.valuestring? (root.getObjectItem (str "text")) = some text ∧
        Json.valuestring? (root.getObjectItem (str "hash")) = some hash ∧
        hexHash dev (verifiedBytes dev stamp text) = some hash := by
  rw [checkSignature]
  constructor
  · intro h
    cases hs : Json.valueint? (root.getObjectItem (str "stamp")) with
    | none => simp [hs] at h
    | some stamp =>
      cases ht : Json.valuestring? (root.getObjectItem (str "text")) with
      | none => simp [hs, ht] at h
      | some text =>
        cases hh : Json.valuestring? (root.getObjectItem (str "hash")) with
        | none => simp [hs, ht, hh] at h
        | some messageHash =>
          cases hd : hexHash dev (verifiedBytes dev stamp text) with
          | none => simp [hs, ht, hh, hd] at h
          | some hash =>
            have heq : hash = messageHash := by simpa [hs, ht, hh, hd] using h
            exact ⟨stamp, text, messageHash, rfl, rfl, rfl, by rw [hd, heq]⟩
  · rintro ⟨stamp, text, hash, hs, ht, hh, hd⟩
    simp [hs, ht, hh, hd]

/-- `Mqtt::sign`: the payload's items with `stamp`, `hash`, `identifier` and
    `text` appended, or `none` when it returns `false`.  `now` is `time()`. -/
def sign (dev : Device) (now : Int) (payload : List (Bytes × Json)) (message : Bytes) :
    Option (List (Bytes × Json)) :=
  match hexHash dev (signedBytes dev now message) with
  | none => none
  | some hash =>
      some (payload ++
        [(str "stamp", Json.createNumber now),
         (str "hash", Json.createString hash),
         (str "identifier", Json.createString dev.identifier),
         (str "text", Json.createString message)])

/-! ### Messages to the backend -/

/-- A message queued with `esp_mqtt_client_enqueue`. -/
structure Publication where
  topic : Bytes
  data : Bytes
  qos : Nat
  retain : Bool
deriving DecidableEq

/-- The common body of the three methods below: sign, print, enqueue. -/
def publishSigned (dev : Device) (now : Int) (topic : String)
    (payload : List (Bytes × Json)) (message : Bytes) : Option Publication := do
  let payload ← sign dev now payload message
  let data ← dev.print (.object payload)
  return ⟨str topic, data, 1, false⟩

def logBackend (dev : Device) (now : Int) (userId : Int) (message : Bytes) :
    Option Publication :=
  publishSigned dev now "hal9k/acs/backend/log"
    [(str "user_id", Json.createNumber userId)] message

def logUnknownCard (dev : Device) (now : Int) (cardId : CardId) : Option Publication :=
  publishSigned dev now "hal9k/acs/backend/unknown_card" []
    (format [cardIdFormat cardId])

/-- `Mqtt::Channel`; the values are the bits of a mask. -/
inductive Channel where
  | general
  | info
  | debug
deriving DecidableEq, Repr

def Channel.name : Channel → String
  | .general => "general"
  | .info => "jeg-står-herude-og-banker-på"
  | .debug => "private-monitoring"

/-- `Mqtt::write_slack`; every caller names one channel. -/
def writeSlack (dev : Device) (now : Int) (msg : Bytes) (channel : Channel) :
    Option Publication :=
  publishSigned dev now "hal9k/acs/backend/slack" []
    (format [cstr msg, str "|", str channel.name])

def Mqtt.setSlackStatus (dev : Device) (now : Int) (m : Mqtt) (status : Bytes) :
    Mqtt × Option Publication :=
  if status = m.lastStatus then (m, none)
  else ({ m with lastStatus := status }, writeSlack dev now status .debug)

def Mqtt.announceSpaceStatus (dev : Device) (now : Int) (m : Mqtt) (status : Bytes) :
    Mqtt × Option Publication :=
  if status = m.lastSpaceStatus then (m, none)
  else ({ m with lastSpaceStatus := status }, writeSlack dev now status .general)

def spaceOpenText : Bytes := str ":tada: The space is now open!"
def spaceClosedText : Bytes := str ":sad_panda2: The space is no longer open"

def Mqtt.slackAnnounceOpen (dev : Device) (now : Int) (m : Mqtt) : Mqtt × Option Publication :=
  m.announceSpaceStatus dev now spaceOpenText

def Mqtt.slackAnnounceClosed (dev : Device) (now : Int) (m : Mqtt) : Mqtt × Option Publication :=
  m.announceSpaceStatus dev now spaceClosedText

/-! ### Incoming messages -/

def Mqtt.handleStatus (dev : Device) (m : Mqtt) (topic data : Bytes) : Mqtt :=
  if topic.length < (str "status/").length then m
  else
    let device := topic.drop (str "status/").length
    if device = dev.identifier then m
    else
      match dev.parse (cstr data) with
      | none => m
      | some root =>
          match root.getObjectItem (str "data") with
          | some (.object fields) =>
              let node := Json.object fields
              let door := Json.valuestring? (node.getObjectItem (str "door"))
              let lockStatus := Json.valuestring? (node.getObjectItem (str "lock_status"))
              let m :=
                match door, lockStatus with
                | some door, some lockStatus =>
                    let status := (door == str "open", lockStatus == str "unlocked")
                    { m with doorStatus := m.doorStatus.insert device status }
                | _, _ => m
              match node.getObjectItem (str "card_present") with
              | some (.bool present) =>
                  { m with cardPresentStatus := m.cardPresentStatus.insert device present }
              | _ => m
          | _ => m

/-- The action of a payload: its `action` when that is a string, and its `arg`,
    empty when it is no string. -/
def actionOf (root : Json) : Option (Bytes × Bytes) :=
  match Json.valuestring? (root.getObjectItem (str "action")) with
  | none => none
  | some action =>
      some (action, (Json.valuestring? (root.getObjectItem (str "arg"))).getD [])

/-- The arguments that switch `allow_open`, whatever the action is. -/
def isSwitch (arg : Bytes) : Bool := arg == str "open" || arg == str "close"

/-- The end of `Mqtt::handle_action`, under `action_mutex`. -/
def Mqtt.runAction (m : Mqtt) : Option (Bytes × Bytes) → Mqtt
  | none => m
  | some (action, arg) =>
      if isSwitch arg then { m with allowOpen := arg == str "open" }
      else { m with currentAction := action, currentActionArg := arg }

/-- Is the topic, without `hal9k/acs/`, one of this device? -/
def addressed (dev : Device) (topic : Bytes) : Bool :=
  if topic.contains 47 then topic.drop (str "action/").length == dev.identifier
  else topic == str "action"

def Mqtt.handleAction (dev : Device) (m : Mqtt) (topic data : Bytes) : Mqtt :=
  if addressed dev topic then
    match dev.parse (cstr data) with
    | none => m
    | some root => if checkSignature dev root then m.runAction (actionOf root) else m
  else m

def Mqtt.handleData (dev : Device) (m : Mqtt) (fullTopic data : Bytes) : Mqtt :=
  if fullTopic.length < (str "hal9k/acs/").length then m
  else
    let topic := fullTopic.drop (str "hal9k/acs/").length
    if (str "status").isPrefixOf topic then m.handleStatus dev topic data
    else if (str "action").isPrefixOf topic then m.handleAction dev topic data
    else m

def Mqtt.getAndClearAction (m : Mqtt) : (Bytes × Bytes) × Mqtt :=
  ((m.currentAction, m.currentActionArg), { m with currentAction := [], currentActionArg := [] })

end Acs.Esp32
