/-
  Acs/Esp32/Signature.lean
  ========================
  **What the signature of a message covers.**

  `sign` and `check_signature` share the key and the order key, time, text, but
  not the width of the time: a `time_t` of eight bytes on one side, a `size_t`
  of four on the other.  With a hash that has no collisions no payload built by
  `sign` is ever accepted (`checkSignature_of_sameSigned`).

  In the other direction, an accepted payload is tied to the key by `stamp` and
  `text` only.  `action` and `arg`, the items that `handle_action` runs, are not
  hashed, and `sameEffect_iff` says exactly when two accepted payloads with the
  same signed items still do the same.
-/
import Acs.Esp32.Mqtt

namespace Acs.Esp32

open Acs

/-! ### Signed items -/

/-- Two payloads carry the same `stamp`, `text` and `hash`, as the firmware
    reads them. -/
structure SameSigned (p q : Json) : Prop where
  stamp : Json.valueint? (p.getObjectItem (str "stamp")) =
    Json.valueint? (q.getObjectItem (str "stamp"))
  text : Json.valuestring? (p.getObjectItem (str "text")) =
    Json.valuestring? (q.getObjectItem (str "text"))
  hash : Json.valuestring? (p.getObjectItem (str "hash")) =
    Json.valuestring? (q.getObjectItem (str "hash"))

/-- The payloads that `log_backend`, `log_unknown_card` and `write_slack` hand
    to `sign`: empty, or one `user_id`. -/
def BackendPayload (payload : List (Bytes × Json)) : Prop :=
  payload = [] ∨ ∃ userId, payload = [(str "user_id", Json.createNumber userId)]

/-- A message to the backend was signed with such a payload. -/
theorem backendPayload_of_published {dev : Device} {now : Int} {pub : Publication}
    (h : (∃ userId message, logBackend dev now userId message = some pub) ∨
      (∃ cardId, logUnknownCard dev now cardId = some pub) ∨
      ∃ msg channel, writeSlack dev now msg channel = some pub) :
    ∃ payload message signed, BackendPayload payload ∧
      sign dev now payload message = some signed ∧ dev.print (.object signed) = some pub.data := by
  have hpublish : ∀ {topic payload message},
      publishSigned dev now topic payload message = some pub →
      ∃ signed, sign dev now payload message = some signed ∧
        dev.print (.object signed) = some pub.data := by
    intro topic payload message hpub
    simp only [publishSigned, Option.bind_eq_bind, Option.bind_eq_some_iff, Option.pure_def,
      Option.some.injEq] at hpub
    obtain ⟨signed, hsign, data, hprint, rfl⟩ := hpub
    exact ⟨signed, hsign, hprint⟩
  rcases h with ⟨userId, message, hpub⟩ | ⟨cardId, hpub⟩ | ⟨msg, channel, hpub⟩
  · obtain ⟨signed, hsign, hprint⟩ := hpublish hpub
    exact ⟨_, message, signed, Or.inr ⟨userId, rfl⟩, hsign, hprint⟩
  · obtain ⟨signed, hsign, hprint⟩ := hpublish hpub
    exact ⟨[], _, signed, Or.inl rfl, hsign, hprint⟩
  · obtain ⟨signed, hsign, hprint⟩ := hpublish hpub
    exact ⟨[], _, signed, Or.inl rfl, hsign, hprint⟩

theorem sameSigned_of_fieldsAgree {fields fields' : List (Bytes × Json)}
    (h : Json.FieldsAgree fields fields') :
    SameSigned (.object fields) (.object fields') := by
  have hint : ∀ name, Json.valueint? ((Json.object fields).getObjectItem name) =
      Json.valueint? ((Json.object fields').getObjectItem name) := by
    intro name
    rcases h.getObjectItem name with ⟨a, b, ha, hb, hab⟩ | ⟨ha, hb⟩
    · rw [ha, hb, hab.valueint]
    · rw [ha, hb]
  have hstring : ∀ name, Json.valuestring? ((Json.object fields).getObjectItem name) =
      Json.valuestring? ((Json.object fields').getObjectItem name) := by
    intro name
    rcases h.getObjectItem name with ⟨a, b, ha, hb, hab⟩ | ⟨ha, hb⟩
    · rw [ha, hb, hab.valuestring]
    · rw [ha, hb]
  exact ⟨hint _, hstring _, hstring _⟩

/-- What `sign` leaves in the payload for a reader: the message up to its first
    NUL, and the hash of eight bytes of time. -/
theorem sign_items {dev : Device} {now : Int} {payload signed : List (Bytes × Json)}
    {message : Bytes} (hpayload : BackendPayload payload)
    (hsign : sign dev now payload message = some signed) :
    ∃ hash, hexHash dev (signedBytes dev now message) = some hash ∧
      Json.valuestring? ((Json.object signed).getObjectItem (str "text")) =
        some (cstr (cstr message)) ∧
      Json.valuestring? ((Json.object signed).getObjectItem (str "hash")) =
        some (cstr (cstr hash)) := by
  rw [sign] at hsign
  cases hh : hexHash dev (signedBytes dev now message) with
  | none => simp [hh] at hsign
  | some hash =>
    rw [hh] at hsign
    have hsigned := Option.some.inj hsign
    refine ⟨hash, rfl, ?_⟩
    rw [← hsigned]
    rcases hpayload with rfl | ⟨userId, rfl⟩
    · exact ⟨rfl, rfl⟩
    · exact ⟨rfl, rfl⟩

theorem length_cstr_le (s : Bytes) : (cstr s).length ≤ s.length :=
  (List.takeWhile_prefix _).length_le

/-- The two sides never hash the same bytes for the same message: the lengths
    differ by the four bytes of the time. -/
theorem verifiedBytes_ne_signedBytes (dev : Device) (stamp now : Int)
    {text message : Bytes} (h : text.length ≤ message.length) :
    verifiedBytes dev stamp text ≠ signedBytes dev now message := by
  intro heq
  have hlen := congrArg List.length heq
  simp only [verifiedBytes, signedBytes, List.length_append, length_leBytes] at hlen
  omega

theorem hexHash_injective {dev : Device} (hsha : CollisionFree dev.sha256)
    {x y hash : Bytes} (hx : hexHash dev x = some hash) (hy : hexHash dev y = some hash) :
    x = y := by
  obtain ⟨dx, hdx, hxe⟩ := Option.map_eq_some_iff.mp hx
  obtain ⟨dy, hdy, hye⟩ := Option.map_eq_some_iff.mp hy
  have hdigest : dx = dy := Hex.encode_injective (hxe.trans hye.symm)
  exact hsha x y dx hdx (hdigest ▸ hdy)

theorem cstr_hexHash {dev : Device} {x hash : Bytes} (h : hexHash dev x = some hash) :
    cstr (cstr hash) = hash := by
  obtain ⟨digest, _, rfl⟩ := Option.map_eq_some_iff.mp h
  have hself := cstr_eq_self (Hex.zero_not_mem_encode digest)
  rw [hself, hself]

/-- **Nothing that `sign` built is accepted**, whatever items are added to it
    or replaced in it, as long as `stamp`, `text` and `hash` are kept. -/
theorem checkSignature_of_sameSigned {dev : Device} (hsha : CollisionFree dev.sha256)
    {now : Int} {payload signed : List (Bytes × Json)} {message : Bytes}
    (hpayload : BackendPayload payload)
    (hsign : sign dev now payload message = some signed) {q : Json}
    (hsame : SameSigned (.object signed) q) : checkSignature dev q = false := by
  obtain ⟨hash, hhash, htext, hitem⟩ := sign_items hpayload hsign
  rw [cstr_hexHash hhash] at hitem
  by_contra hcheck
  obtain ⟨stamp, text, hash', _, htext', hhash', hverified⟩ :=
    (checkSignature_iff dev q).mp (by simpa using hcheck)
  have hsameText : text = cstr (cstr message) := by
    rw [← hsame.text, htext] at htext'
    exact (Option.some.inj htext').symm
  have hsameHash : hash' = hash := by
    rw [← hsame.hash, hitem] at hhash'
    exact (Option.some.inj hhash').symm
  -- the text may end at a NUL of the message, so that it is no longer than it
  have hlen : text.length ≤ message.length := by
    rw [hsameText]
    exact (length_cstr_le _).trans (length_cstr_le _)
  rw [hsameHash] at hverified
  apply verifiedBytes_ne_signedBytes dev stamp now hlen
  exact hexHash_injective hsha hverified hhash

/-! ### Unsigned items -/

/-- The part of the state that an action can change. -/
def Mqtt.actionState (m : Mqtt) : Bytes × Bytes × Bool :=
  (m.currentAction, m.currentActionArg, m.allowOpen)

/-- Two payloads give the same order in the items that are not signed: neither
    has a string `action`, or both have one, the same `arg`, and, unless that
    is one of the two switches, the same `action`. -/
def SameOrder (p q : Json) : Prop :=
  match actionOf p, actionOf q with
  | none, none => True
  | some (action, arg), some (action', arg') =>
      arg = arg' ∧ (isSwitch arg = true ∨ action = action')
  | _, _ => False

theorem exists_changed (action arg : Bytes) :
    ∃ m : Mqtt, (m.runAction (some (action, arg))).actionState ≠ m.actionState := by
  by_cases hswitch : isSwitch arg = true
  · refine ⟨{ allowOpen := !(arg == str "open") }, ?_⟩
    simp [Mqtt.runAction, hswitch, Mqtt.actionState]
  · refine ⟨{ currentAction := 0 :: action }, ?_⟩
    simp [Mqtt.runAction, hswitch, Mqtt.actionState]

theorem arg_eq_of_switches {arg arg' : Bytes} (h : isSwitch arg = true)
    (h' : isSwitch arg' = true) (heq : (arg == str "open") = (arg' == str "open")) :
    arg = arg' := by
  simp only [isSwitch, Bool.or_eq_true, beq_iff_eq] at h h'
  rcases h with rfl | rfl
  · rcases h' with rfl | rfl
    · rfl
    · exact absurd heq (by decide)
  · rcases h' with rfl | rfl
    · exact absurd heq (by decide)
    · rfl

/-- **Same effect from every state, exactly when the order is the same.** -/
theorem sameEffect_iff (p q : Json) :
    (∀ m : Mqtt, (m.runAction (actionOf p)).actionState =
      (m.runAction (actionOf q)).actionState) ↔ SameOrder p q := by
  rw [SameOrder]
  cases actionOf p with
  | none =>
    cases actionOf q with
    | none => simp
    | some order =>
      obtain ⟨m, hm⟩ := exists_changed order.1 order.2
      constructor
      · intro h
        exact hm (h m).symm
      · exact False.elim
  | some order =>
    cases actionOf q with
    | none =>
      obtain ⟨m, hm⟩ := exists_changed order.1 order.2
      constructor
      · intro h
        exact hm (h m)
      · exact False.elim
    | some order' =>
      obtain ⟨action, arg⟩ := order
      obtain ⟨action', arg'⟩ := order'
      constructor
      · intro h
        have hopen := h { allowOpen := true }
        have hclosed := h { allowOpen := false }
        by_cases hs : isSwitch arg = true
        · by_cases hs' : isSwitch arg' = true
          · simp [Mqtt.runAction, hs, hs', Mqtt.actionState] at hopen
            exact ⟨arg_eq_of_switches hs hs' (by simp [hopen]), Or.inl hs⟩
          · -- a switch leaves one of the two values of `allowOpen`, a slot neither
            simp [Mqtt.runAction, hs, hs', Mqtt.actionState] at hopen hclosed
            simp_all
        · by_cases hs' : isSwitch arg' = true
          · simp [Mqtt.runAction, hs, hs', Mqtt.actionState] at hopen hclosed
            simp_all
          · simp [Mqtt.runAction, hs, hs', Mqtt.actionState] at hopen
            exact ⟨hopen.2, Or.inr hopen.1⟩
      · rintro ⟨rfl, hs | rfl⟩ m
        · simp [Mqtt.runAction, hs]
        · rfl

/-! ### Acceptance of a message -/

/-- A payload received on `topic` is read, accepted, and run. -/
structure Accepted (dev : Device) (topic data : Bytes) (root : Json) : Prop where
  addressed : addressed dev topic = true
  parsed : dev.parse (cstr data) = some root
  signed : checkSignature dev root = true

theorem handleAction_of_accepted {dev : Device} {topic data : Bytes} {root : Json}
    (h : Accepted dev topic data root) (m : Mqtt) :
    m.handleAction dev topic data = m.runAction (actionOf root) := by
  simp [Mqtt.handleAction, h.addressed, h.parsed, h.signed]

/-! ### A device with known digests

SHA-256 of the few inputs used below, and an injection elsewhere. -/

/-- `known` lists inputs and their digests; any other input is followed by a
    byte in which no listed digest ends. -/
def tabulated (known : List (Bytes × Bytes)) (x : Bytes) : Option Bytes :=
  some ((known.lookup x).getD (x ++ [255]))

theorem collisionFree_tabulated {known : List (Bytes × Bytes)}
    (hend : ∀ e ∈ known, e.2.getLast? ≠ some 255)
    (hinj : ∀ e ∈ known, ∀ f ∈ known, e.2 = f.2 → e.1 = f.1) :
    CollisionFree (tabulated known) := by
  have hmem : ∀ {x d}, known.lookup x = some d → (x, d) ∈ known := by
    intro x d h
    obtain ⟨l₁, l₂, heq, _⟩ := List.lookup_eq_some_iff.mp h
    rw [heq]
    simp
  intro x y digest hx hy
  have hxy := (Option.some.inj hx).trans (Option.some.inj hy).symm
  cases hlx : known.lookup x with
  | some dx =>
    cases hly : known.lookup y with
    | some dy =>
      simp only [hlx, hly, Option.getD_some] at hxy
      exact hinj _ (hmem hlx) _ (hmem hly) hxy
    | none =>
      simp only [hlx, hly, Option.getD_some, Option.getD_none] at hxy
      exact absurd (by simp [hxy]) (hend _ (hmem hlx))
  | none =>
    cases hly : known.lookup y with
    | some dy =>
      simp only [hlx, hly, Option.getD_some, Option.getD_none] at hxy
      exact absurd (by simp [← hxy]) (hend _ (hmem hly))
    | none =>
      simp only [hlx, hly, Option.getD_none] at hxy
      exact List.append_cancel_right hxy

def sampleKey : SigningKey := ⟨(List.range 32).map UInt8.ofNat, by decide⟩

def sampleTime : Int := 1783926100

/-- The text signed with an action, and the one of a backend message. -/
def sampleOrder : Bytes := str "lock None"
def sampleMessage : Bytes := str "door|private-monitoring"

/-- The digests of the sample texts after the key and a time of four bytes, and
    of the backend message after a time of eight. -/
def sampleDigests : List (Bytes × Bytes) :=
  [(sampleKey.1 ++ leBytes 4 sampleTime ++ sampleOrder,
    [178, 73, 13, 115, 70, 155, 239, 160, 109, 172, 50, 234, 54, 204, 165, 164,
     7, 205, 145, 105, 50, 209, 117, 224, 48, 16, 239, 154, 193, 15, 88, 5]),
   (sampleKey.1 ++ leBytes 4 sampleTime ++ sampleMessage,
    [0, 177, 56, 50, 152, 104, 55, 49, 45, 162, 80, 194, 237, 38, 31, 189,
     5, 183, 52, 115, 31, 111, 48, 228, 6, 52, 235, 65, 69, 34, 103, 27]),
   (sampleKey.1 ++ leBytes 8 sampleTime ++ sampleMessage,
    [41, 249, 15, 86, 26, 156, 21, 198, 244, 100, 43, 204, 123, 228, 213, 116,
     36, 120, 167, 114, 40, 77, 63, 234, 92, 112, 180, 187, 156, 100, 199, 99])]

theorem collisionFree_sampleDigests : CollisionFree (tabulated sampleDigests) :=
  collisionFree_tabulated (by decide) (by decide)

/-- A message as the backend sends it: text, stamp and hash of "lock None", and
    an action that is not signed. -/
def orderPayload (action : String) : Json :=
  .object [(str "text", .string sampleOrder),
    (str "stamp", .number 1783926100),
    (str "hash",
      .string (str "b2490d73469befa06dac32ea36cca5a407cd916932d175e03010ef9ac10f5805")),
    (str "action", .string (str action)),
    (str "arg", .string (str "None"))]

def orderText (action : String) : Bytes :=
  str "\x7b\"text\": \"lock None\", \"stamp\": 1783926100, \"hash\": " ++
    str "\"b2490d73469befa06dac32ea36cca5a407cd916932d175e03010ef9ac10f5805\", " ++
    str "\"action\": \"" ++ str action ++ str "\", \"arg\": \"None\"\x7d"

/-- The items that `sign` builds for the sample message, and their text. -/
def sampleSigned : List (Bytes × Json) :=
  [(str "stamp", Json.createNumber sampleTime),
   (str "hash", Json.createString
      (str "29f90f561a9c15c6f4642bcc7be4d5742478a772284d3fea5c70b4bb9c64c763")),
   (str "identifier", Json.createString (str "main")),
   (str "text", Json.createString sampleMessage)]

def sampleSignedText : Bytes :=
  str "\x7b\"stamp\":1783926100,\"hash\":" ++
    str "\"29f90f561a9c15c6f4642bcc7be4d5742478a772284d3fea5c70b4bb9c64c763\"," ++
    str "\"identifier\":\"main\",\"text\":\"door|private-monitoring\"\x7d"

def sampleDevice : Device where
  identifier := str "main"
  privateKey := sampleKey
  sha256 := tabulated sampleDigests
  parse text :=
    if text = orderText "lock" then some (orderPayload "lock")
    else if text = orderText "unlock" then some (orderPayload "unlock")
    else if text = sampleSignedText then some (.object sampleSigned)
    else none
  print _ := some sampleSignedText

theorem parse_orderText_lock :
    sampleDevice.parse (cstr (orderText "lock")) = some (orderPayload "lock") := by
  rw [cstr_eq_self (by decide)]
  simp only [sampleDevice, if_pos]

theorem parse_orderText_unlock :
    sampleDevice.parse (cstr (orderText "unlock")) = some (orderPayload "unlock") := by
  have hlock : orderText "unlock" ≠ orderText "lock" := by decide
  rw [cstr_eq_self (by decide)]
  simp only [sampleDevice, if_neg hlock, if_pos]

theorem accepted_order_lock :
    Accepted sampleDevice (str "action/main") (orderText "lock") (orderPayload "lock") :=
  ⟨by decide, parse_orderText_lock, by decide⟩

theorem accepted_order_unlock :
    Accepted sampleDevice (str "action") (orderText "unlock") (orderPayload "unlock") :=
  ⟨by decide, parse_orderText_unlock, by decide⟩

theorem sign_sampleMessage :
    sign sampleDevice sampleTime [] sampleMessage = some sampleSigned := by
  rfl

/-! ### Sign and verify -/

/-- The library prints these items and reads them back as `root`. -/
def ReadBack (dev : Device) (fields : List (Bytes × Json)) (root : Json) : Prop :=
  ∃ data fields', dev.print (.object fields) = some data ∧ dev.parse data = some root ∧
    root = .object fields' ∧ Json.FieldsAgree fields fields'

/-- **A payload that `sign` builds is rejected** by `check_signature` under the
    same key, for every message and every time. -/
theorem signed_payload_rejected (dev : Device) (hsha : CollisionFree dev.sha256)
    (now : Int) (message : Bytes) (payload signed : List (Bytes × Json)) (root : Json)
    (hpayload : BackendPayload payload)
    (hsign : sign dev now payload message = some signed)
    (hread : ReadBack dev signed root) : checkSignature dev root = false := by
  obtain ⟨_, fields', _, _, rfl, hagree⟩ := hread
  exact checkSignature_of_sameSigned hsha hpayload hsign (sameSigned_of_fieldsAgree hagree)

theorem readBack_sampleSigned : ReadBack sampleDevice sampleSigned (.object sampleSigned) := by
  have hlock : sampleSignedText ≠ orderText "lock" := by decide
  have hunlock : sampleSignedText ≠ orderText "unlock" := by decide
  have hparse : sampleDevice.parse sampleSignedText = some (.object sampleSigned) := by
    simp only [sampleDevice, if_neg hlock, if_neg hunlock, if_pos]
  refine ⟨sampleSignedText, sampleSigned, rfl, hparse, rfl, ?_⟩
  apply List.forall₂_same.mpr
  intro field _
  exact ⟨rfl, Or.inl rfl⟩

theorem signed_payload_rejected_sample :
    checkSignature sampleDevice (.object sampleSigned) = false :=
  signed_payload_rejected sampleDevice collisionFree_sampleDigests sampleTime sampleMessage
    [] sampleSigned _ (Or.inl rfl) sign_sampleMessage readBack_sampleSigned

/-- The message "door|private-monitoring", signed at 1783926100, is not accepted
    back. -/
theorem not_sign_then_verify :
    ¬ ∀ (dev : Device), CollisionFree dev.sha256 → ∀ (now : Int) (message : Bytes) signed root,
      0 ≤ now → 0 ∉ message → sign dev now [] message = some signed →
      ReadBack dev signed root → checkSignature dev root = true := by
  intro h
  have haccepted := h sampleDevice collisionFree_sampleDigests sampleTime sampleMessage _ _
    (by decide) (by decide) sign_sampleMessage readBack_sampleSigned
  have hrejected : checkSignature sampleDevice (.object sampleSigned) = false := by decide
  rw [hrejected] at haccepted
  exact Bool.noConfusion haccepted

/-! ### Remote-action authenticity -/

/-- **Which accepted payloads are interchangeable.**  Two accepted payloads with
    the same signed items have the same effect on the action state exactly when
    their unsigned items give the same order; and no payload of the backend
    messages becomes acceptable by adding or replacing unsigned items. -/
theorem accepted_effect_iff_sameOrder (dev : Device) (hsha : CollisionFree dev.sha256) :
    (∀ topic topic' data data' p q, Accepted dev topic data p → Accepted dev topic' data' q →
      SameSigned p q →
      ((∀ m : Mqtt, (m.handleAction dev topic data).actionState =
          (m.handleAction dev topic' data').actionState) ↔ SameOrder p q)) ∧
    (∀ now payload message signed q, BackendPayload payload →
      sign dev now payload message = some signed → SameSigned (.object signed) q →
      checkSignature dev q = false) := by
  refine ⟨?_, ?_⟩
  · intro topic topic' data data' p q hp hq _
    rw [← sameEffect_iff p q]
    simp only [handleAction_of_accepted hp, handleAction_of_accepted hq]
  · intro now payload message signed q hpayload hsign hsame
    exact checkSignature_of_sameSigned hsha hpayload hsign hsame

theorem sameSigned_orders (action action' : String) :
    SameSigned (orderPayload action) (orderPayload action') :=
  ⟨rfl, rfl, rfl⟩

theorem accepted_effect_iff_sameOrder_sample :
    ((∀ m : Mqtt, (m.handleAction sampleDevice (str "action/main") (orderText "lock")).actionState =
        (m.handleAction sampleDevice (str "action") (orderText "unlock")).actionState) ↔
      SameOrder (orderPayload "lock") (orderPayload "unlock")) ∧
    checkSignature sampleDevice (.object sampleSigned) = false :=
  have hboth := accepted_effect_iff_sameOrder sampleDevice collisionFree_sampleDigests
  ⟨hboth.1 _ _ _ _ _ _ accepted_order_lock accepted_order_unlock (sameSigned_orders _ _),
    hboth.2 _ _ _ _ _ (Or.inl rfl) sign_sampleMessage ⟨rfl, rfl, rfl⟩⟩

/-- Replacing the unsigned `action` of a signed "lock" turns it into an accepted
    "unlock". -/
theorem not_effect_determined_by_signed_items :
    ¬ ∀ (dev : Device), CollisionFree dev.sha256 → ∀ topic topic' data data' p q,
      Accepted dev topic data p → Accepted dev topic' data' q → SameSigned p q →
      ∀ m : Mqtt, (m.handleAction dev topic data).actionState =
        (m.handleAction dev topic' data').actionState := by
  intro h
  have hsame := h sampleDevice collisionFree_sampleDigests _ _ _ _ _ _
    accepted_order_lock accepted_order_unlock (sameSigned_orders _ _) {}
  rw [handleAction_of_accepted accepted_order_lock,
    handleAction_of_accepted accepted_order_unlock] at hsame
  exact absurd hsame (by decide)

end Acs.Esp32
