/-
  Acs/Barn/Main.lean
  ==================
  **The scripts of the barn doors** (`barn/src/door/main.py` and
  `barn/src/woodshop/main.py`, with `display.py`, `gateway.py`, `slack.py` and
  `rest.py`).

  The two scripts handle a card in the same way (`card`) and differ in their
  constants, their texts and the handler of one exception (`Place`).  The barn
  door also has a button and watches the door.

  A turn of the main loop is a program that an exception can leave at each call
  to the outside.  What these calls do is the input of the turn: a `Bool` says
  whether a call raises, and an `Option` is what it returns, `none` when it
  raises.  The gateway and Slack swallow the exceptions of their requests, with
  a `print` that can itself raise.  An exception that leaves the turn ends the
  process.
-/
import Acs.Barn.RfidReader
import Acs.Lib.Effects

namespace Acs.Barn

open Acs

/-! ### Programs -/

inductive Raised where
  | call
  | keyError
  | nameError
deriving DecidableEq

/-- What a turn does that matters here. -/
inductive Call where
  | setLock (on : Bool)
  | checkCard (cardId : String)
deriving DecidableEq

/-- The variables of a script and of its objects: `lastStatus` is that of Slack,
    and only the barn door has the three about an open door.  `calls` are the calls
    of the turn so far. -/
structure State where
  reader : RfidReader
  lastStatus : Option String := none
  lastCardId : Option String := none
  lastCardTime : Int
  lastLogTime : Int
  lastGwPing : Int
  lastClosedTime : Option Int := none
  lastOpenWarning : Option Int := none
  openWarningInterval : Int := 5 * 60 * second
  calls : List Call := []
  running : Bool := true

abbrev Action := EStateM Raised State

def State.record (s : State) (c : Call) : State := { s with calls := s.calls ++ [c] }

def record (c : Call) : Action Unit := modify (·.record c)

/-- A call that returns nothing. -/
def call (raises : Bool) : Action Unit := if raises then throw .call else pure ()

/-- `if` without an `else`. -/
def onlyIf (condition : Prop) [Decidable condition] (x : Action Unit) : Action Unit :=
  if condition then x else pure ()

/-- A call or a look-up that returns something. -/
def orRaise {α : Type} (e : Raised) : Option α → Action α
  | some a => pure a
  | none => throw e

/-- `Display.println`. -/
def println (raises : Bool) : Action Unit := call raises

def setLock (on : Bool) : Action Unit := record (.setLock on)

/-! ### The gateway, Slack and the backend -/

/-- One call of the gateway: the status of the response, and whether the `print`
    for a bad status and that of the handler raise. -/
structure GatewayCall where
  post : Option Nat := some 200
  badPrint : Bool := false
  print : Bool := false

/-- The part that `log` and `ping` share. -/
def gatewayRequest (c : GatewayCall) : Action Unit :=
  tryCatch (do
    let statusCode ← orRaise .call c.post
    onlyIf (statusCode ≠ 200) (call c.badPrint))
    fun _ => call c.print

def Gateway.log (c : GatewayCall) : Action Unit := gatewayRequest c

def Gateway.ping (c : GatewayCall) : Action Unit := gatewayRequest c

/-- One call of `send_message`, with the three places where it logs. -/
structure SlackCall where
  before : GatewayCall := {}
  post : Option Nat := some 200
  retcode : GatewayCall := {}
  failed : GatewayCall := {}

def Slack.sendMessage (c : SlackCall) : Action Unit := do
  Gateway.log c.before
  tryCatch (do
    let _ ← orRaise .call c.post
    Gateway.log c.retcode)
    fun _ => Gateway.log c.failed

def Slack.setStatus (status : Option String) (c : SlackCall) : Action Unit := do
  let s ← get
  onlyIf (status ≠ s.lastStatus) do
    onlyIf (status ≠ none ∧ status ≠ some "") (Slack.sendMessage c)
    modify fun s => { s with lastStatus := status }

/-- The answer of the backend, with the keys that the scripts use. -/
structure Answer where
  id : Option Int := none
  name : Option String := none
  allowed : Option Bool := none

/-- `json` is `none` when `response.json()` raises. -/
structure Response where
  statusCode : Nat
  json : Option Answer

def RestClient.checkCard (cardId : String) (post : Option Response) : Action Answer := do
  record (.checkCard cardId)
  let response ← orRaise .call post
  if response.statusCode ≠ 200 then pure { id := some 0 }
  else orRaise .call response.json

/-! ### A card -/

/-- `getid`; `none` when there is no reader object. -/
def getid : Option Int → Action String
  | none => throw .nameError
  | some now => do
      let s ← get
      set { s with reader := (s.reader.getid now).2 }
      pure (s.reader.getid now).1

/-- The calls from the display of "Opening" on. -/
structure Cycle where
  opening : Bool := false
  status : SlackCall := {}
  unlocked : GatewayCall := {}
  closing : Bool := false
  locked : GatewayCall := {}

/-- The lock is opened for ten seconds. -/
def unlock (status : String) (c : Cycle) : Action Unit := do
  println c.opening
  setLock true
  Slack.setStatus (some status) c.status
  Gateway.log c.unlocked
  println c.closing
  setLock false
  Gateway.log c.locked

/-- The calls of a turn about its card.  `shown`, `log` and `status` are those
    for a card that is unknown or not allowed. -/
structure CardTurn where
  getid : Option Int
  now : Int
  cardPrint : Bool := false
  checking : Bool := false
  checked : Int
  response : Option Response
  error : Bool := false
  resultPrint : Bool := false
  user : Bool := false
  shown : Bool := false
  log : GatewayCall := {}
  status : SlackCall := {}
  cycle : Cycle := {}
  logNow : Int
  logged : Int
  restLog : Option Nat
  restError : Bool := false
  restErrorLog : GatewayCall := {}
  tooSoon : GatewayCall := {}

/-- What the scripts differ in: three constants, the statuses for Slack, and the
    handler when the log of the backend raises. -/
structure Place where
  timeout : Int
  logTimeout : Int
  pingInterval : Int
  unrecognized : String → String
  invalid : String
  valid : String
  handler : CardTurn → Action Unit

/-- `except e as Exception` looks up `e`, which is not there. -/
def barnDoor : Place where
  timeout := 5 * second
  logTimeout := 1 * 60 * second
  pingInterval := 1 * 60 * second
  unrecognized := fun cardId => ":ladeport: BarnDoor: Unrecognized card " ++ cardId
  invalid := ":no_entry: BarnDoor: Invalid card swiped"
  valid := ":ladeport: BarnDoor: Valid card swiped, unlocking"
  handler := fun _ => throw .nameError

def woodshop : Place where
  timeout := 10 * second
  logTimeout := 5 * 60 * second
  pingInterval := 5 * 60 * second
  unrecognized := fun cardId => ":tractor: BACS: Unrecognized card " ++ cardId
  invalid := ":no_entry: BACS: Invalid card swiped"
  valid := ":door: BACS: Valid card swiped, unlocking"
  handler := fun i => do
    println i.restError
    Gateway.log i.restErrorLog

/-- How a turn goes on after its card; `continued` is the `continue` after a
    request that raised. -/
inductive Passed where
  | noCard
  | handled
  | continued
deriving DecidableEq

/-- What is known of the card when `user_approved` is set, or the turn is past it
    before that. -/
inductive Verdict where
  | passed (p : Passed)
  | found (userApproved : Bool)
deriving DecidableEq

/-- `check_card` with its handler, `none` for the `continue`. -/
def tryCheckCard (cardId : String) (i : CardTurn) : Action (Option Answer) :=
  tryCatch (some <$> RestClient.checkCard cardId i.response) fun _ => do
    println i.error
    pure none

/-- What the answer says. -/
def verdict (p : Place) (i : CardTurn) (cardId : String) (r : Answer) : Action Verdict := do
  let id ← orRaise .keyError r.id
  call i.resultPrint
  if id = 0 then do
    println i.shown
    Gateway.log i.log
    Slack.setStatus (some (p.unrecognized cardId)) i.status
    pure (.passed .handled)
  else do
    let _ ← orRaise .keyError r.name
    println i.user
    let allowed ← orRaise .keyError r.allowed
    if allowed then pure (.found true)
    else do
      println i.shown
      Slack.setStatus (some p.invalid) i.status
      Gateway.log i.log
      pure (.found false)

/-- A card is not checked again before `TIMEOUT`, unless another one was. -/
def forgetCard (p : Place) (now : Int) (s : State) : State :=
  if now - s.lastCardTime > p.timeout then { s with lastCardId := none } else s

/-- From `getid` to `user_approved`. -/
def approve (p : Place) (i : CardTurn) : Action Verdict := do
  let cardId ← getid i.getid
  if cardId = "" then pure (.passed .noCard)
  else do
    modify (forgetCard p i.now)
    let s ← get
    if some cardId = s.lastCardId then pure (.passed .handled)
    else do
      call i.cardPrint
      println i.checking
      modify fun s => { s with lastCardId := some cardId, lastCardTime := i.checked }
      let answer ← tryCheckCard cardId i
      match answer with
      | none => pure (.passed .continued)
      | some r => verdict p i cardId r

/-- The log of the backend, at most once in `LOG_TIMEOUT`. -/
def report (p : Place) (i : CardTurn) : Action Unit := do
  let s ← get
  if i.logNow - s.lastLogTime > p.logTimeout then do
    modify fun s => { s with lastLogTime := i.logged }
    -- the status is only forgotten, there is no message
    Slack.setStatus none {}
    tryCatch (do let _ ← orRaise .call i.restLog) fun _ => p.handler i
  else Gateway.log i.tooSoon

/-- From `user_approved` on. -/
def proceed (p : Place) (i : CardTurn) : Verdict → Action Passed
  | .passed passed => pure passed
  | .found userApproved => do
      onlyIf userApproved (unlock p.valid i.cycle)
      report p i
      pure .handled

def card (p : Place) (i : CardTurn) : Action Passed := do
  let v ← approve p i
  proceed p i v

/-! ### The main loops -/

/-- Whether Python takes a time or `None` for true. -/
def truthy (t : Option Int) : Bool := t != none && t != some 0

/-- The calls about a door that is open for long, or closed again. -/
structure WatchTurn where
  closed : Bool
  message : SlackCall := {}
  log : GatewayCall := {}
  lastClosed : Int
  now : Int
  asked : Int
  warned : Int

def maxOpenTime : Int := 5 * 60 * second

def watch (i : WatchTurn) : Action Unit := do
  let s ← get
  if i.closed then do
    onlyIf (truthy s.lastOpenWarning) do
      Slack.sendMessage i.message
      Gateway.log i.log
      modify fun s => { s with openWarningInterval := 5 * 60 * second }
    modify fun s => { s with lastClosedTime := some i.lastClosed, lastOpenWarning := none }
  else do
    let lastClosedTime := if truthy s.lastClosedTime then s.lastClosedTime.getD 0 else i.lastClosed
    modify fun s => { s with lastClosedTime := some lastClosedTime }
    onlyIf (i.now - lastClosedTime > maxOpenTime ∧ (¬ truthy s.lastOpenWarning ∨
        i.asked - s.lastOpenWarning.getD 0 ≥ s.openWarningInterval)) do
      Slack.sendMessage i.message
      Gateway.log i.log
      modify fun s => { s with
        lastOpenWarning := some i.warned, openWarningInterval := s.openWarningInterval * 2 }

structure PingTurn where
  now : Int
  ping : GatewayCall := {}
  pinged : Int
  log : GatewayCall := {}

structure DoorTurn where
  watch : WatchTurn
  card : CardTurn
  pressed : Bool
  button : Cycle := {}
  ping : PingTurn

def pingDoor (i : PingTurn) : Action Unit := do
  let s ← get
  onlyIf (i.now - s.lastGwPing > barnDoor.pingInterval) do
    Gateway.ping i.ping
    modify fun s => { s with lastGwPing := i.pinged }

/-- A turn of the loop in `door/main.py`. -/
def doorTurn (i : DoorTurn) : Action Unit := do
  watch i.watch
  let passed ← card barnDoor i.card
  if passed = .continued then pure ()
  else do
    onlyIf i.pressed (unlock ":ladeport: BarnDoor: Unlocking" i.button)
    pingDoor i.ping

structure WoodshopTurn where
  card : CardTurn
  ping : PingTurn

def pingWoodshop (i : PingTurn) : Action Unit := do
  let s ← get
  onlyIf (i.now - s.lastGwPing > woodshop.pingInterval) do
    Gateway.ping i.ping
    modify fun s => { s with lastGwPing := i.pinged }
    Gateway.log i.log

/-- A turn of the loop in `woodshop/main.py`. -/
def woodshopTurn (i : WoodshopTurn) : Action Unit := do
  let passed ← card woodshop i.card
  onlyIf (passed = .noCard) (pingWoodshop i.ping)

/-! ### Runs -/

/-- A turn of the reader thread, with what has arrived from the reader, or one of
    the main loop. -/
inductive Event (τ : Type) where
  | reply (received : Bytes) (now : Int)
  | turn (i : τ)

variable {τ : Type}

/-- A turn starts with no calls. -/
def State.begin (s : State) : State := { s with calls := [] }

/-- The state after a turn; an exception has ended the process. -/
def State.after (s : State) (turn : Action Unit) : State :=
  match turn s.begin with
  | .ok _ t => t
  | .error _ t => { t with running := false }

/-- The thread is a daemon: it ends with the process. -/
def step (loop : τ → Action Unit) (s : State) (e : Event τ) : State :=
  if s.running then
    match e with
    | .reply received now => { s with reader := s.reader.turn received now }
    | .turn i => s.after (loop i)
  else s

section Step

variable {loop : τ → Action Unit} {s : State}

theorem step_reply (h : s.running = true) (received : Bytes) (now : Int) :
    step loop s (.reply received now) = { s with reader := s.reader.turn received now } :=
  if_pos h

theorem step_turn (h : s.running = true) (i : τ) : step loop s (.turn i) = s.after (loop i) :=
  if_pos h

theorem step_ended (h : ¬ s.running = true) (e : Event τ) : step loop s e = s :=
  if_neg h

end Step

/-- The calls of each turn. -/
def turnCalls (loop : τ → Action Unit) (s : State) : Event τ → List (List Call)
  | .reply _ _ => []
  | .turn i => if s.running then [(Effects.final (loop i s.begin)).calls] else []

/-! ### What the calls keep -/

open Effects

/-- An invariant of the reader and of the calls of a turn, where every card that
    `getid` gives meets `Card`, and such a card may be checked. -/
structure Kept (Inv : State → Prop) (Card : String → Prop) : Prop where
  vars : ∀ s t, t.reader = s.reader → t.calls = s.calls → Inv s → Inv t
  getid : ∀ s now, Inv s →
    Inv { s with reader := (s.reader.getid now).2 } ∧ Card (s.reader.getid now).1
  check : ∀ s cardId, Inv s → cardId ≠ "" → Card cardId → Inv (s.record (.checkCard cardId))

section Kept

variable {Inv : State → Prop} {Card : String → Prop}

theorem keeps_call (raises : Bool) : Keeps Inv (call raises) fun _ => True := by
  rw [call]
  split
  · exact keeps_throw Raised.call
  · exact keeps_pure trivial

theorem keeps_onlyIf {condition : Prop} [Decidable condition] {x : Action Unit}
    (hx : Keeps Inv x fun _ => True) : Keeps Inv (onlyIf condition x) fun _ => True := by
  rw [onlyIf]
  split
  · exact hx
  · exact keeps_pure trivial

theorem keeps_orRaise {α : Type} (e : Raised) (o : Option α) :
    Keeps Inv (orRaise e o) fun _ => True := by
  cases o with
  | none => exact keeps_throw e
  | some a => exact keeps_pure trivial

theorem keeps_println (raises : Bool) : Keeps Inv (println raises) fun _ => True :=
  keeps_call raises

theorem keeps_gatewayRequest (c : GatewayCall) : Keeps Inv (gatewayRequest c) fun _ => True := by
  apply Keeps.tryCatch
  · apply (keeps_orRaise .call c.post).bind
    intro statusCode _
    exact keeps_onlyIf (keeps_call c.badPrint)
  · intro _
    exact keeps_call c.print

theorem keeps_log (c : GatewayCall) : Keeps Inv (Gateway.log c) fun _ => True :=
  keeps_gatewayRequest c

theorem keeps_sendMessage (c : SlackCall) : Keeps Inv (Slack.sendMessage c) fun _ => True := by
  apply (keeps_log c.before).bind
  intro _ _
  apply Keeps.tryCatch
  · apply (keeps_orRaise .call c.post).bind
    intro _ _
    exact keeps_log c.retcode
  · intro _
    exact keeps_log c.failed

namespace Kept

variable (h : Kept Inv Card)
include h

theorem assign {g : State → State} (hg : ∀ s, (g s).reader = s.reader ∧ (g s).calls = s.calls) :
    Keeps Inv (modify g : Action PUnit) fun _ => True :=
  keeps_modify (fun s => h.vars s (g s) (hg s).1 (hg s).2) trivial

theorem setStatus (status : Option String) (c : SlackCall) :
    Keeps Inv (Slack.setStatus status c) fun _ => True := by
  apply keeps_get.bind
  intro s _
  apply keeps_onlyIf
  apply (keeps_onlyIf (keeps_sendMessage c)).bind
  intro _ _
  exact h.assign fun _ => ⟨rfl, rfl⟩

theorem tryCheckCard {cardId : String} (hne : cardId ≠ "") (hcard : Card cardId) (i : CardTurn) :
    Keeps Inv (tryCheckCard cardId i) fun _ => True := by
  have hcheck : Keeps Inv (RestClient.checkCard cardId i.response) fun _ => True := by
    have hrecord : Keeps Inv (record (.checkCard cardId)) fun _ => True :=
      keeps_modify (fun s hs => h.check s cardId hs hne hcard) trivial
    apply hrecord.bind
    intro _ _
    apply (keeps_orRaise .call i.response).bind
    intro response _
    split
    · exact keeps_pure trivial
    · exact keeps_orRaise .call response.json
  apply Keeps.tryCatch
  · exact hcheck.bind fun _ _ => keeps_pure trivial
  · intro _
    exact (keeps_println i.error).bind fun _ _ => keeps_pure trivial

theorem verdict (p : Place) (i : CardTurn) (cardId : String) (r : Answer) :
    Keeps Inv (verdict p i cardId r) fun _ => True := by
  apply (keeps_orRaise .keyError r.id).bind
  intro id _
  apply (keeps_call i.resultPrint).bind
  intro _ _
  split
  · apply (keeps_println i.shown).bind
    intro _ _
    apply (keeps_log i.log).bind
    intro _ _
    exact (h.setStatus _ i.status).bind fun _ _ => keeps_pure trivial
  · apply (keeps_orRaise .keyError r.name).bind
    intro _ _
    apply (keeps_println i.user).bind
    intro _ _
    apply (keeps_orRaise .keyError r.allowed).bind
    intro allowed _
    split
    · exact keeps_pure trivial
    · apply (keeps_println i.shown).bind
      intro _ _
      apply (h.setStatus _ i.status).bind
      intro _ _
      exact (keeps_log i.log).bind fun _ _ => keeps_pure trivial

theorem getid' (called : Option Int) : Keeps Inv (Barn.getid called) Card := by
  cases called with
  | none => exact keeps_throw Raised.nameError
  | some now =>
    intro s hs
    obtain ⟨hset, hcard⟩ := h.getid s now hs
    refine ⟨hset, ?_⟩
    intro cardId t hok
    cases hok
    exact hcard

omit h in
theorem forgetCard_kept (p : Place) (now : Int) (s : State) :
    (forgetCard p now s).reader = s.reader ∧ (forgetCard p now s).calls = s.calls := by
  rw [forgetCard]
  split <;> exact ⟨rfl, rfl⟩

theorem approve (p : Place) (i : CardTurn) : Keeps Inv (approve p i) fun _ => True := by
  apply (h.getid' i.getid).bind
  intro cardId hcard
  split
  · exact keeps_pure trivial
  · next hne =>
    apply (h.assign (forgetCard_kept p i.now)).bind
    intro _ _
    apply keeps_get.bind
    intro s _
    split
    · exact keeps_pure trivial
    · apply (keeps_call i.cardPrint).bind
      intro _ _
      apply (keeps_println i.checking).bind
      intro _ _
      refine (h.assign ?_).bind ?_
      · intro _
        exact ⟨rfl, rfl⟩
      intro _ _
      apply (h.tryCheckCard hne hcard i).bind
      intro answer _
      cases answer with
      | none => exact keeps_pure trivial
      | some r => exact h.verdict p i cardId r

theorem report {p : Place} {i : CardTurn} (hhandler : Keeps Inv (p.handler i) fun _ => True) :
    Keeps Inv (report p i) fun _ => True := by
  apply keeps_get.bind
  intro s _
  split
  · refine (h.assign ?_).bind ?_
    · intro _
      exact ⟨rfl, rfl⟩
    intro _ _
    apply (h.setStatus none {}).bind
    intro _ _
    apply Keeps.tryCatch
    · exact (keeps_orRaise .call i.restLog).bind fun _ _ => keeps_pure trivial
    · intro _
      exact hhandler
  · exact keeps_log i.tooSoon

theorem watch (i : WatchTurn) : Keeps Inv (watch i) fun _ => True := by
  apply keeps_get.bind
  intro s _
  split
  · have hwarned : Keeps Inv (onlyIf (truthy s.lastOpenWarning) do
        Slack.sendMessage i.message
        Gateway.log i.log
        modify fun s => { s with openWarningInterval := 5 * 60 * second }) fun _ => True := by
      apply keeps_onlyIf
      apply (keeps_sendMessage i.message).bind
      intro _ _
      apply (keeps_log i.log).bind
      intro _ _
      exact h.assign fun _ => ⟨rfl, rfl⟩
    apply hwarned.bind
    intro _ _
    exact h.assign fun _ => ⟨rfl, rfl⟩
  · refine (h.assign ?_).bind ?_
    · intro _
      exact ⟨rfl, rfl⟩
    intro _ _
    apply keeps_onlyIf
    apply (keeps_sendMessage i.message).bind
    intro _ _
    apply (keeps_log i.log).bind
    intro _ _
    exact h.assign fun _ => ⟨rfl, rfl⟩

theorem pingDoor (i : PingTurn) : Keeps Inv (pingDoor i) fun _ => True := by
  apply keeps_get.bind
  intro s _
  apply keeps_onlyIf
  apply (keeps_gatewayRequest i.ping).bind
  intro _ _
  exact h.assign fun _ => ⟨rfl, rfl⟩

theorem pingWoodshop (i : PingTurn) : Keeps Inv (pingWoodshop i) fun _ => True := by
  apply keeps_get.bind
  intro s _
  apply keeps_onlyIf
  apply (keeps_gatewayRequest i.ping).bind
  intro _ _
  refine (h.assign ?_).bind ?_
  · intro _
    exact ⟨rfl, rfl⟩
  intro _ _
  exact keeps_log i.log

end Kept

/-- The handler of the barn door raises again. -/
theorem keeps_barnDoor_handler (i : CardTurn) : Keeps Inv (barnDoor.handler i) fun _ => True :=
  keeps_throw Raised.nameError

theorem keeps_woodshop_handler (i : CardTurn) : Keeps Inv (woodshop.handler i) fun _ => True :=
  (keeps_println i.restError).bind fun _ _ => keeps_log i.restErrorLog

/-! ### What a turn keeps that may move the lock -/

section Turn

variable (h : Kept Inv Card) (hlock : ∀ s on, Inv s → Inv (s.record (.setLock on)))
include h hlock

theorem Kept.unlock (status : String) (c : Cycle) : Keeps Inv (unlock status c) fun _ => True := by
  have hset : ∀ on, Keeps Inv (setLock on) fun _ => True :=
    fun on => keeps_modify (fun s hs => hlock s on hs) trivial
  apply (keeps_println c.opening).bind
  intro _ _
  apply (hset true).bind
  intro _ _
  apply (h.setStatus (some status) c.status).bind
  intro _ _
  apply (keeps_log c.unlocked).bind
  intro _ _
  apply (keeps_println c.closing).bind
  intro _ _
  apply (hset false).bind
  intro _ _
  exact keeps_log c.locked

theorem Kept.card {p : Place} {i : CardTurn}
    (hhandler : Keeps Inv (p.handler i) fun _ => True) :
    Keeps Inv (card p i) fun _ => True := by
  apply (h.approve p i).bind
  intro v _
  cases v with
  | passed passed => exact keeps_pure trivial
  | found userApproved =>
    apply (keeps_onlyIf (h.unlock hlock p.valid i.cycle)).bind
    intro _ _
    exact (h.report hhandler).bind fun _ _ => keeps_pure trivial

theorem Kept.doorTurn (i : DoorTurn) : Keeps Inv (doorTurn i) fun _ => True := by
  apply (h.watch i.watch).bind
  intro _ _
  apply (h.card hlock (keeps_barnDoor_handler i.card)).bind
  intro passed _
  split
  · exact keeps_pure trivial
  · apply (keeps_onlyIf (h.unlock hlock _ i.button)).bind
    intro _ _
    exact h.pingDoor i.ping

theorem Kept.woodshopTurn (i : WoodshopTurn) : Keeps Inv (woodshopTurn i) fun _ => True := by
  apply (h.card hlock (keeps_woodshop_handler i.card)).bind
  intro passed _
  exact keeps_onlyIf (h.pingWoodshop i.ping)

end Turn

end Kept

end Acs.Barn
