/-
  Acs/Esp32/Actions.lean
  ======================
  **From an incoming message to the controller.**

  `handle_data` runs on the MQTT task and `get_and_clear_action` on the
  controller's; a run is any interleaving of the two (`MqttEvent`).  As far as
  actions go the class is a mailbox with one slot (`Acs/Lib/Mailbox.lean`):
  `handedOver_eq` carries the run over to the mailbox, and the results about
  repeated messages and about lost ones are read off there.
-/
import Acs.Lib.Mailbox
import Acs.Esp32.Signature

namespace Acs.Esp32

open Acs

/-! ### Runs -/

/-- A message from the broker, or a poll by `Controller::check_action`. -/
inductive MqttEvent where
  | data (fullTopic payload : Bytes)
  | poll

def Mqtt.step (dev : Device) (m : Mqtt) : MqttEvent → Mqtt
  | .data fullTopic payload => m.handleData dev fullTopic payload
  | .poll => m.getAndClearAction.2

/-- What `check_action` goes on with: it returns at once on an empty action. -/
def handed (m : Mqtt) : MqttEvent → List (Bytes × Bytes)
  | .data _ _ => []
  | .poll => [m.getAndClearAction.1].filter fun order => order.1 ≠ []

def Mqtt.run (dev : Device) (events : List MqttEvent) : Mqtt :=
  Runs.exec (Mqtt.step dev) {} events

/-- The actions handed to `check_action` over a run, with their arguments. -/
def handedOver (dev : Device) (events : List MqttEvent) : List (Bytes × Bytes) :=
  Runs.emitted (Mqtt.step dev) handed {} events

/-! ### What a message does to the action state -/

def payloadOrder (dev : Device) (payload : Bytes) : Option (Bytes × Bytes) :=
  match dev.parse (cstr payload) with
  | none => none
  | some root => if checkSignature dev root then actionOf root else none

/-- The order that a message gives, when it passes every check on the way. -/
def orderOf (dev : Device) (fullTopic payload : Bytes) : Option (Bytes × Bytes) :=
  let topic := fullTopic.drop (str "hal9k/acs/").length
  if fullTopic.length < (str "hal9k/acs/").length then none
  else if (str "status").isPrefixOf topic then none
  else if (str "action").isPrefixOf topic && addressed dev topic then payloadOrder dev payload
  else none

theorem orderOf_global (dev : Device) (payload : Bytes) :
    orderOf dev (str "hal9k/acs/action") payload = payloadOrder dev payload := by
  have haddressed : addressed dev (str "action") = true := rfl
  show (if (str "action").isPrefixOf (str "action") && addressed dev (str "action") then
    payloadOrder dev payload else none) = _
  rw [haddressed]
  rfl

theorem orderOf_own (dev : Device) (payload : Bytes) :
    orderOf dev (str "hal9k/acs/action/" ++ dev.identifier) payload =
      payloadOrder dev payload := by
  have haddressed : addressed dev (str "action/" ++ dev.identifier) = true := by
    show (dev.identifier == dev.identifier) = true
    exact beq_self_eq_true _
  have hlong : ¬ (str "hal9k/acs/action/" ++ dev.identifier).length <
      (str "hal9k/acs/").length := by
    have hlen : (str "hal9k/acs/").length ≤ (str "hal9k/acs/action/").length := by decide
    rw [List.length_append]
    omega
  rw [orderOf, if_neg hlong]
  show (if (str "action").isPrefixOf (str "action/" ++ dev.identifier) &&
      addressed dev (str "action/" ++ dev.identifier) then
    payloadOrder dev payload else none) = _
  rw [haddressed]
  rfl

theorem handleAction_eq (dev : Device) (m : Mqtt) (topic data : Bytes) :
    m.handleAction dev topic data =
      m.runAction (if addressed dev topic then payloadOrder dev data else none) := by
  unfold Mqtt.handleAction payloadOrder
  cases addressed dev topic with
  | false => rfl
  | true =>
    simp only [if_true]
    cases dev.parse (cstr data) with
    | none => rfl
    | some root => cases hc : checkSignature dev root <;> simp [hc, Mqtt.runAction]

theorem handleStatus_actionState (dev : Device) (m : Mqtt) (topic data : Bytes) :
    (m.handleStatus dev topic data).actionState = m.actionState := by
  unfold Mqtt.handleStatus
  split
  · rfl
  · dsimp only
    split
    · rfl
    · split
      · rfl
      · split
        · split <;> split <;> rfl
        · rfl

/-- **One message**, whatever its topic: its order, if any, is run. -/
theorem handleData_actionState (dev : Device) (m : Mqtt) (fullTopic payload : Bytes) :
    (m.handleData dev fullTopic payload).actionState =
      (m.runAction (orderOf dev fullTopic payload)).actionState := by
  unfold Mqtt.handleData orderOf
  dsimp only
  split
  · rfl
  · split
    · exact handleStatus_actionState dev m _ _
    · cases (str "action").isPrefixOf (fullTopic.drop (str "hal9k/acs/").length) with
      | true => rw [if_pos rfl, handleAction_eq, Bool.true_and]
      | false => rfl

theorem runAction_congr {m m' : Mqtt} (h : m.actionState = m'.actionState)
    (order : Option (Bytes × Bytes)) :
    (m.runAction order).actionState = (m'.runAction order).actionState := by
  simp only [Mqtt.actionState, Prod.mk.injEq] at h
  obtain ⟨haction, harg, hopen⟩ := h
  cases order with
  | none => simp [Mqtt.runAction, Mqtt.actionState, haction, harg, hopen]
  | some order =>
    simp only [Mqtt.runAction]
    split <;> simp [Mqtt.actionState, haction, harg, hopen]

theorem runAction_runAction (m : Mqtt) (order : Option (Bytes × Bytes)) :
    ((m.runAction order).runAction order) = m.runAction order := by
  cases order with
  | none => rfl
  | some order =>
    simp only [Mqtt.runAction]
    split <;> rfl

/-! ### The class as a mailbox -/

/-- The order goes into the slot, unless it only switches `allow_open`. -/
def queued (order : Option (Bytes × Bytes)) : List (Mailbox.Turn (Bytes × Bytes)) :=
  match order with
  | none => []
  | some (action, arg) => if isSwitch arg then [] else [.put (action, arg)]

def turns (dev : Device) : MqttEvent → List (Mailbox.Turn (Bytes × Bytes))
  | .data fullTopic payload => queued (orderOf dev fullTopic payload)
  | .poll => [.take]

/-- The two members are the slot; empty strings stand for an empty one. -/
def SlotIs (m : Mqtt) (slot : Option (Bytes × Bytes)) : Prop :=
  (m.currentAction, m.currentActionArg) = slot.getD ([], [])

theorem slotIs_step (dev : Device) (m : Mqtt) (slot : Option (Bytes × Bytes))
    (e : MqttEvent) (h : SlotIs m slot) :
    SlotIs (m.step dev e) (Runs.exec Mailbox.step slot (turns dev e)) := by
  cases e with
  | poll => rfl
  | data fullTopic payload =>
    have hstate := handleData_actionState dev m fullTopic payload
    simp only [Mqtt.actionState, Prod.mk.injEq] at hstate
    obtain ⟨haction, harg, _⟩ := hstate
    simp only [SlotIs, Mqtt.step, turns, haction, harg]
    cases orderOf dev fullTopic payload with
    | none => exact h
    | some order =>
      simp only [Mqtt.runAction, queued]
      split
      · exact h
      · rfl

theorem handed_eq_out (dev : Device) (m : Mqtt) (slot : Option (Bytes × Bytes))
    (e : MqttEvent) (h : SlotIs m slot) :
    handed m e = Runs.emitted Mailbox.step
      (fun s t => (Mailbox.out s t).filter fun order => order.1 ≠ []) slot (turns dev e) := by
  cases e with
  | poll =>
    simp only [handed, Mqtt.getAndClearAction, turns, Runs.emitted_cons, Runs.emitted_nil]
    rw [show (m.currentAction, m.currentActionArg) = slot.getD ([], []) from h]
    cases slot with
    | none => rfl
    | some order => simp [Mailbox.out]
  | data fullTopic payload =>
    simp only [handed, turns]
    cases orderOf dev fullTopic payload with
    | none => rfl
    | some order =>
      simp only [queued]
      split
      · rfl
      · cases slot <;> rfl

/-- **The class is a mailbox**: what the controller gets is what the mailbox
    hands out, less the orders with an empty action. -/
theorem handedOver_eq (dev : Device) (events : List MqttEvent) :
    handedOver dev events =
      (Mailbox.taken (events.flatMap (turns dev))).filter fun order => order.1 ≠ [] := by
  unfold handedOver Mailbox.taken
  rw [← Runs.emitted_filter]
  have hstart : SlotIs {} none := rfl
  exact Runs.emitted_simulation (Mqtt.step dev) handed Mailbox.step _ (turns dev) SlotIs
    (slotIs_step dev) (handed_eq_out dev) hstart events

/-! ### Repeated messages -/

theorem run_snoc (dev : Device) (events : List MqttEvent) (e : MqttEvent) :
    Mqtt.run dev (events ++ [e]) = (Mqtt.run dev events).step dev e :=
  Runs.exec_snoc _ _ _ _

theorem run_data_actionState {dev : Device} {fullTopic payload action arg : Bytes}
    (horder : orderOf dev fullTopic payload = some (action, arg))
    (hswitch : isSwitch arg = false) (events : List MqttEvent) :
    (Mqtt.run dev (events ++ [.data fullTopic payload])).actionState =
      (action, arg, (Mqtt.run dev events).allowOpen) := by
  rw [run_snoc]
  simp only [Mqtt.step, handleData_actionState, horder, Mqtt.runAction, hswitch]
  rfl

theorem run_poll_actionState (dev : Device) (events : List MqttEvent) :
    (Mqtt.run dev (events ++ [.poll])).actionState =
      ([], [], (Mqtt.run dev events).allowOpen) := by
  rw [run_snoc]
  rfl

/-- The event puts `order` into the slot. -/
def delivers (dev : Device) (order : Bytes × Bytes) : MqttEvent → Bool
  | .data fullTopic payload =>
      orderOf dev fullTopic payload == some order && !isSwitch order.2
  | .poll => false

theorem count_puts_queued (order : Bytes × Bytes) (given : Option (Bytes × Bytes)) :
    (Mailbox.puts (queued given)).count order =
      if given == some order && !isSwitch order.2 then 1 else 0 := by
  cases given with
  | none => rfl
  | some given =>
    simp only [queued]
    by_cases heq : given = order
    · subst heq
      cases isSwitch given.2 <;> simp [Mailbox.puts]
    · split <;> simp [Mailbox.puts, heq]

theorem count_puts_turns (dev : Device) (order : Bytes × Bytes) (e : MqttEvent) :
    (Mailbox.puts (turns dev e)).count order = if delivers dev order e then 1 else 0 := by
  cases e with
  | poll => rfl
  | data fullTopic payload => exact count_puts_queued order _

theorem count_puts_flatMap (dev : Device) (order : Bytes × Bytes) (events : List MqttEvent) :
    (Mailbox.puts (events.flatMap (turns dev))).count order =
      events.countP (delivers dev order) := by
  induction events with
  | nil => rfl
  | cons e events ih =>
    rw [List.flatMap_cons, Mailbox.puts_append, List.count_append, ih, count_puts_turns,
      List.countP_cons, Nat.add_comm]

theorem count_handedOver_le (dev : Device) (order : Bytes × Bytes) (events : List MqttEvent) :
    (handedOver dev events).count order ≤ events.countP (delivers dev order) := by
  rw [handedOver_eq, ← count_puts_flatMap]
  exact (List.filter_sublist.trans (Mailbox.taken_sublist_puts _)).count_le order

/-- **Messages that arrive again.**  A copy that follows its original directly
    changes nothing, and every delivery is acted on at most once; but a copy that
    comes later has the effect of the original again, since nothing that was
    accepted before is remembered. -/
theorem redelivery_effect (dev : Device) (fullTopic payload : Bytes) :
    (∀ events,
      (Mqtt.run dev (events ++ [.data fullTopic payload, .data fullTopic payload])).actionState =
        (Mqtt.run dev (events ++ [.data fullTopic payload])).actionState) ∧
    (∀ events, (Mqtt.run dev (events ++ [.data fullTopic payload])).actionState =
      ((Mqtt.run dev events).runAction (orderOf dev fullTopic payload)).actionState) ∧
    (∀ events order, (handedOver dev events).count order ≤
      events.countP (delivers dev order)) := by
  have honce : ∀ events, (Mqtt.run dev (events ++ [.data fullTopic payload])).actionState =
      ((Mqtt.run dev events).runAction (orderOf dev fullTopic payload)).actionState := by
    intro events
    rw [run_snoc]
    exact handleData_actionState dev _ fullTopic payload
  refine ⟨?_, honce, ?_⟩
  · intro events
    rw [show events ++ [.data fullTopic payload, .data fullTopic payload] =
      (events ++ [.data fullTopic payload]) ++ [.data fullTopic payload] by simp]
    apply (honce _).trans
    calc ((Mqtt.run dev (events ++ [.data fullTopic payload])).runAction
            (orderOf dev fullTopic payload)).actionState
        = (((Mqtt.run dev events).runAction (orderOf dev fullTopic payload)).runAction
            (orderOf dev fullTopic payload)).actionState := runAction_congr (honce events) _
      _ = ((Mqtt.run dev events).runAction (orderOf dev fullTopic payload)).actionState := by
          rw [runAction_runAction]
      _ = (Mqtt.run dev (events ++ [.data fullTopic payload])).actionState := (honce events).symm
  · intro events order
    exact count_handedOver_le dev order events

theorem orderOf_sample :
    orderOf sampleDevice (str "hal9k/acs/action") (orderText "unlock") =
      some (str "unlock", str "None") := by
  rw [orderOf_global]
  simp only [payloadOrder, accepted_order_unlock.parsed, accepted_order_unlock.signed, if_true]
  rfl

/-- A signed "unlock", polled by the controller and delivered again, is in the
    slot again. -/
theorem not_replay_ignored :
    ¬ ∀ (dev : Device) (events : List MqttEvent) fullTopic payload,
      .data fullTopic payload ∈ events → (orderOf dev fullTopic payload).isSome →
      (Mqtt.run dev (events ++ [.data fullTopic payload])).actionState =
        (Mqtt.run dev events).actionState := by
  intro h
  let message := MqttEvent.data (str "hal9k/acs/action") (orderText "unlock")
  have hsome : (orderOf sampleDevice (str "hal9k/acs/action") (orderText "unlock")).isSome := by
    rw [orderOf_sample]
    rfl
  have hsame := h sampleDevice ([message] ++ [.poll]) _ _ List.mem_cons_self hsome
  rw [run_data_actionState orderOf_sample (by decide), run_poll_actionState] at hsame
  exact absurd (Prod.mk.inj hsame).1 (by decide)

/-! ### Lost messages -/

/-- The actions that `Controller::check_action` knows. -/
def implementedActions : List Bytes :=
  [str "lock", str "unlock", str "reboot", str "setacstoken"]

/-- A correctly signed message for this device, or for all, with one of these
    actions and an argument. -/
structure Command (dev : Device) where
  fullTopic : Bytes
  payload : Bytes
  root : Json
  action : Bytes
  arg : Bytes
  toUs : fullTopic = str "hal9k/acs/action" ∨
    fullTopic = str "hal9k/acs/action/" ++ dev.identifier
  parsed : dev.parse (cstr payload) = some root
  signed : checkSignature dev root = true
  hasAction : Json.valuestring? (root.getObjectItem (str "action")) = some action
  hasArg : Json.valuestring? (root.getObjectItem (str "arg")) = some arg
  implemented : action ∈ implementedActions

namespace Command

variable {dev : Device}

def order (c : Command dev) : Bytes × Bytes := (c.action, c.arg)

theorem orderOf_eq (c : Command dev) : orderOf dev c.fullTopic c.payload = some c.order := by
  have hpayload : payloadOrder dev c.payload = some c.order := by
    simp [payloadOrder, c.parsed, c.signed, actionOf, c.hasAction, c.hasArg, order]
  rcases c.toUs with htopic | htopic
  · rw [htopic, orderOf_global, hpayload]
  · rw [htopic, orderOf_own, hpayload]

theorem action_ne_nil (c : Command dev) : c.action ≠ [] := by
  intro h
  have hmem := c.implemented
  rw [h] at hmem
  exact absurd hmem (by decide)

def event : Mailbox.Turn (Command dev) → MqttEvent
  | .put c => .data c.fullTopic c.payload
  | .take => .poll

/-- Its argument is "open" or "close": it switches `allow_open` and nothing else. -/
def switches : Mailbox.Turn (Command dev) → Bool
  | .put c => isSwitch c.arg
  | .take => false

@[simp] theorem switches_put (c : Command dev) : switches (.put c) = isSwitch c.arg := rfl

@[simp] theorem switches_take : switches (.take : Mailbox.Turn (Command dev)) = false := rfl

theorem turns_event (turn : Mailbox.Turn (Command dev)) :
    turns dev (event turn) = if switches turn then [] else [turn.map order] := by
  cases turn with
  | take => rfl
  | put c =>
    simp only [event, turns, c.orderOf_eq]
    rfl

/-- The schedule as the mailbox sees it. -/
def unswitched (schedule : List (Mailbox.Turn (Command dev))) :
    List (Mailbox.Turn (Command dev)) :=
  schedule.filter fun turn => !switches turn

/-- Such a message leaves the slot as it is. -/
theorem run_switch {c : Command dev} (hswitch : isSwitch c.arg = true) (events : List MqttEvent) :
    (Mqtt.run dev (events ++ [event (.put c)])).actionState =
      ((Mqtt.run dev events).currentAction, (Mqtt.run dev events).currentActionArg,
        c.arg == str "open") := by
  rw [run_snoc, event, Mqtt.step, handleData_actionState, c.orderOf_eq, order, Mqtt.runAction,
    if_pos hswitch]
  rfl

theorem flatMap_turns_event (schedule : List (Mailbox.Turn (Command dev))) :
    (schedule.map event).flatMap (turns dev) =
      (unswitched schedule).map (Mailbox.Turn.map order) := by
  induction schedule with
  | nil => rfl
  | cons turn schedule ih =>
    rw [List.map_cons, List.flatMap_cons, ih, turns_event]
    cases hs : switches turn <;> simp [unswitched, hs]

theorem handedOver_schedule (schedule : List (Mailbox.Turn (Command dev))) :
    handedOver dev (schedule.map event) = (Mailbox.kept (unswitched schedule)).map order := by
  rw [handedOver_eq, flatMap_turns_event, Mailbox.taken_eq_kept, Mailbox.kept_map]
  apply List.filter_eq_self.mpr
  intro x hx
  rcases List.mem_map.mp hx with ⟨c, _, rfl⟩
  exact decide_eq_true c.action_ne_nil

theorem puts_unswitched (schedule : List (Mailbox.Turn (Command dev))) :
    Mailbox.puts (unswitched schedule) =
      (Mailbox.puts schedule).filter fun c => !isSwitch c.arg := by
  induction schedule with
  | nil => rfl
  | cons turn schedule ih =>
    rw [unswitched] at ih ⊢
    cases turn with
    | take => exact ih
    | put c => cases hs : isSwitch c.arg <;> simp [hs, Mailbox.puts, ih]

theorem unswitched_eq_self {schedule : List (Mailbox.Turn (Command dev))}
    (h : ∀ c ∈ Mailbox.puts schedule, isSwitch c.arg = false) :
    unswitched schedule = schedule := by
  apply List.filter_eq_self.mpr
  intro turn hturn
  cases turn with
  | take => rfl
  | put c =>
    have hmem : c ∈ Mailbox.puts schedule := Mailbox.mem_puts.mpr hturn
    simp [h c hmem]

/-- Nothing is lost exactly when no argument is a switch and the controller comes
    to poll between any two messages and after the last. -/
theorem kept_unswitched_eq_puts_iff (schedule : List (Mailbox.Turn (Command dev))) :
    (Mailbox.kept (unswitched schedule)).map order = (Mailbox.puts schedule).map order ↔
      (∀ c ∈ Mailbox.puts schedule, isSwitch c.arg = false) ∧ Mailbox.Prompt schedule := by
  constructor
  · intro h
    have hkept := (Mailbox.kept_sublist_puts (unswitched schedule)).length_le
    have hfilter : (Mailbox.puts (unswitched schedule)).Sublist (Mailbox.puts schedule) := by
      rw [puts_unswitched]
      exact List.filter_sublist
    have hlen : (Mailbox.kept (unswitched schedule)).length =
        (Mailbox.puts schedule).length := by simpa using congrArg List.length h
    have hall : Mailbox.puts (unswitched schedule) = Mailbox.puts schedule :=
      hfilter.eq_of_length (le_antisymm hfilter.length_le (hlen ▸ hkept))
    have hno : ∀ c ∈ Mailbox.puts schedule, isSwitch c.arg = false := by
      intro c hc
      rw [← hall, puts_unswitched] at hc
      simpa using (List.mem_filter.mp hc).2
    refine ⟨hno, (Mailbox.kept_eq_puts_iff schedule).mp ?_⟩
    rw [unswitched_eq_self hno] at hlen
    exact (Mailbox.kept_sublist_puts schedule).eq_of_length hlen
  · rintro ⟨hno, hprompt⟩
    rw [unswitched_eq_self hno, (Mailbox.kept_eq_puts_iff schedule).mpr hprompt]

end Command

/-- **Which actions reach the controller.**  A message whose argument is a switch sets
    `allow_open` and leaves what waits in the slot.  Of the others each poll hands
    over the one that arrived last before it, with its own argument; none twice, and
    all in the order of arrival.  Every message is handed over exactly when none is
    a switch and a poll follows each one before the next. -/
theorem handedOver_commands (dev : Device) (schedule : List (Mailbox.Turn (Command dev))) :
    (∀ c : Command dev, isSwitch c.arg = true →
      (Mqtt.run dev (schedule.map Command.event ++ [Command.event (.put c)])).actionState =
        ((Mqtt.run dev (schedule.map Command.event)).currentAction,
          (Mqtt.run dev (schedule.map Command.event)).currentActionArg, c.arg == str "open")) ∧
    handedOver dev (schedule.map Command.event) =
        (Mailbox.kept (Command.unswitched schedule)).map Command.order ∧
    (handedOver dev (schedule.map Command.event)).Sublist
        ((Mailbox.puts schedule).map Command.order) ∧
    (handedOver dev (schedule.map Command.event) = (Mailbox.puts schedule).map Command.order ↔
      (∀ c ∈ Mailbox.puts schedule, isSwitch c.arg = false) ∧ Mailbox.Prompt schedule) := by
  rw [Command.handedOver_schedule]
  refine ⟨fun c hswitch => Command.run_switch hswitch _, rfl, ?_,
    Command.kept_unswitched_eq_puts_iff schedule⟩
  have hfilter : (Mailbox.puts (Command.unswitched schedule)).Sublist (Mailbox.puts schedule) := by
    rw [Command.puts_unswitched]
    exact List.filter_sublist
  exact ((Mailbox.kept_sublist_puts _).trans hfilter).map _

def sampleCommand (action : String) (h : action = "lock" ∨ action = "unlock") :
    Command sampleDevice where
  fullTopic := str "hal9k/acs/action"
  payload := orderText action
  root := orderPayload action
  action := str action
  arg := str "None"
  toUs := Or.inl rfl
  parsed := by
    rcases h with rfl | rfl
    · exact accepted_order_lock.parsed
    · exact accepted_order_unlock.parsed
  signed := by
    rcases h with rfl | rfl
    · exact accepted_order_lock.signed
    · exact accepted_order_unlock.signed
  hasAction := by rcases h with rfl | rfl <;> decide
  hasArg := by rcases h with rfl | rfl <;> decide
  implemented := by rcases h with rfl | rfl <;> decide

/-- Of two messages that arrive between two polls the first is lost. -/
theorem not_all_handed_over :
    ¬ ∀ (dev : Device) (schedule : List (Mailbox.Turn (Command dev))),
      handedOver dev (schedule.map Command.event) =
        (Mailbox.puts schedule).map Command.order := by
  intro h
  let lock := sampleCommand "lock" (Or.inl rfl)
  let unlock := sampleCommand "unlock" (Or.inr rfl)
  have hall := h sampleDevice [.put lock, .put unlock, .take]
  rw [Command.handedOver_schedule] at hall
  exact ((Command.kept_unswitched_eq_puts_iff _).mp hall).2

end Acs.Esp32
