/-
  Acs/Opi/Services.lean
  =====================
  **`Logger` and `ForeningLet`: what the Orange Pi frontend tells its services**
  (`opi/logger.cpp`, `opi/foreninglet.cpp`).

  Each of the two has a queue and a thread that makes one request of each item.
  The controller puts an item in for each card that `check_card` looks up, and
  one for each unknown card; other threads log as well.  Whatever the order of
  the turns, the requests and what is left in the queues are those of the cards,
  in order (`served_run`).

  An iteration of the controller puts its items in at once here.  A thread that
  comes in between takes the oldest item, and makes a request of it alone: it does
  what it would do after the others are in.
-/
import Acs.Opi.Calls
import Acs.Lib.Worker

namespace Acs.Opi

open Acs Runs

open Controller (Call State)

/-- `strncpy` of at most `size` characters into a field that is all zeros. -/
def strncpy (size : Nat) (s : Bytes) : Bytes := (s.take size).takeWhile (· ≠ 0)

/-! ### `Logger` -/

namespace Logger

/-- `Item::MAX_SIZE` and `Item::STAMP_SIZE`. -/
def MAX_SIZE : Nat := 200
def STAMP_SIZE : Nat := 19

inductive ItemType where
  | debug
  | backend
  | unknownCard
deriving DecidableEq, Repr

structure Item where
  type : ItemType
  userId : Int := 0
  stamp : Bytes := []
  text : Bytes
deriving DecidableEq

/-- Without `log_to_gateway` the text is only printed. -/
def log (logToGateway : Bool) (stamp text : Bytes) : List Item :=
  if logToGateway then
    [{ type := .debug, stamp := strncpy STAMP_SIZE stamp, text := strncpy MAX_SIZE text }]
  else []

def logBackend (logToGateway : Bool) (stamp : Bytes) (userId : Int) (text : Bytes) : List Item :=
  if logToGateway then
    [{ type := .backend, userId := userId, stamp := strncpy STAMP_SIZE stamp,
       text := strncpy MAX_SIZE text }]
  else []

def logUnknownCard (cardId : Bytes) : List Item :=
  [{ type := .unknownCard, text := strncpy MAX_SIZE cardId }]

/-- The JSON of a request, one kind for each of the three URLs. -/
inductive Request where
  | acslog (token timestamp text : Bytes)
  | logs (apiToken : Bytes) (userId : Int) (message : Bytes)
  | unknownCards (apiToken cardId : Bytes)
deriving DecidableEq

/-- What `thread_body` makes of an item; whether it succeeds makes no difference. -/
def post (gwToken apiToken : Bytes) (item : Item) : Request :=
  match item.type with
  | .debug => .acslog gwToken item.stamp item.text
  | .backend => .logs apiToken item.userId item.text
  | .unknownCard => .unknownCards apiToken item.text

end Logger

/-! ### `ForeningLet` -/

namespace ForeningLet

def STAMP_SIZE : Nat := 19

structure Item where
  userId : Int
  stamp : Bytes
deriving DecidableEq

def updateLastAccess (userId : Int) (stamp : Bytes) : List Item :=
  [⟨userId, strncpy STAMP_SIZE stamp⟩]

/-- The member in the URL, and `field1` of the JSON. -/
structure Request where
  url : Bytes
  field1 : Bytes
deriving DecidableEq

def url (userId : Int) : Bytes :=
  str "https://foreninglet.dk/api/member/id/" ++ decimal userId ++ str "/?version=1"

def put (item : Item) : Request := ⟨url item.userId, item.stamp⟩

end ForeningLet

/-! ### The threads -/

/-- `log_to_gateway` and the tokens. -/
structure Tokens where
  logToGateway : Bool
  gwToken : Bytes
  apiToken : Bytes

structure Services where
  controller : Controller := {}
  logger : Worker Logger.Item (List Logger.Request) := ⟨[], []⟩
  foreningLet : Worker ForeningLet.Item (List ForeningLet.Request) := ⟨[], []⟩

/-- A turn of the controller or its gateway, in which the `k`th call reads the
    clock as `stamps k`; another thread logs something; or one of the two
    threads has its turn. -/
inductive ServiceTurn where
  | controller (event : Event) (stamps : Nat → Bytes)
  | log (stamp text : Bytes)
  | logBackend (stamp : Bytes) (userId : Int) (text : Bytes)
  | logger
  | foreningLet

/-- What a call of the controller puts into the queue of `Logger`. -/
def Controller.Call.logItems (logToGateway : Bool) (stamp : Bytes) : Call → List Logger.Item
  | .log text => Logger.log logToGateway stamp text
  | .logUnknownCard cardId => Logger.logUnknownCard cardId
  | _ => []

/-- What a call of the controller puts into the queue of `ForeningLet`. -/
def Controller.Call.accessItems (stamp : Bytes) : Call → List ForeningLet.Item
  | .updateLastAccess userId => ForeningLet.updateLastAccess userId stamp
  | _ => []

def Event.made (c : Controller) : Event → List Call
  | .query _ => []
  | .iterate i => (c.iterate i).calls

namespace Services

variable (tokens : Tokens)

def loggerTurns (s : Services) : ServiceTurn → List (Worker.Turn Logger.Item Unit)
  | .controller event stamps =>
    ((event.made s.controller).zipIdx.flatMap fun call =>
      call.1.logItems tokens.logToGateway (stamps call.2)).map .put
  | .log stamp text => (Logger.log tokens.logToGateway stamp text).map .put
  | .logBackend stamp userId text =>
    (Logger.logBackend tokens.logToGateway stamp userId text).map .put
  | .logger => [.work ()]
  | .foreningLet => []

def foreningLetTurns (s : Services) : ServiceTurn → List (Worker.Turn ForeningLet.Item Unit)
  | .controller event stamps =>
    ((event.made s.controller).zipIdx.flatMap fun call =>
      call.1.accessItems (stamps call.2)).map .put
  | .foreningLet => [.work ()]
  | _ => []

def logAct : List Logger.Request → Option Logger.Item → Unit → List Logger.Request :=
  Worker.passOn (Logger.post tokens.gwToken tokens.apiToken)

def putAct : List ForeningLet.Request → Option ForeningLet.Item → Unit → List ForeningLet.Request :=
  Worker.passOn ForeningLet.put

def step (s : Services) (turn : ServiceTurn) : Services where
  controller := match turn with
    | .controller event _ => Opi.step s.controller event
    | _ => s.controller
  logger := exec (Worker.step (logAct tokens)) s.logger (s.loggerTurns tokens turn)
  foreningLet := exec (Worker.step putAct) s.foreningLet (s.foreningLetTurns turn)

def run (turns : List ServiceTurn) : Services := exec (step tokens) {} turns

end Services

/-! ### The cards of an iteration -/

namespace Controller

/-- `check_card` is called: with the door locked, unless White is pressed, or with
    the space open. -/
def ChecksCard (c : Controller) (i : Input) : Prop :=
  i.cardId ≠ [] ∧ ((c.foundView i).state = .open ∨
    ((c.foundView i).state = .locked ∧ i.pressed.white = false))

instance (c : Controller) (i : Input) : Decidable (c.ChecksCard i) :=
  inferInstanceAs (Decidable (_ ∧ _))

def Call.accessed : Call → Option Int
  | .updateLastAccess userId => some userId
  | _ => none

def Call.unknownCard : Call → Option Bytes
  | .logUnknownCard cardId => some cardId
  | _ => none

/-- What is only in the outward calls can be looked for among them. -/
theorem filterMap_calls {β : Type} {f : Call → Option β}
    (hf : ∀ call, (f call).isSome = true → call.isOutward = true) (calls : List Call) :
    (calls.filter Call.isOutward).filterMap f = calls.filterMap f := by
  rw [List.filterMap_filter]
  refine List.filterMap_congr fun call _ => ?_
  split
  · rfl
  next h =>
    cases hcall : f call with
    | none => rfl
    | some b => exact absurd (hf call (by rw [hcall]; rfl)) h

/-- What `check_card` calls for the services. -/
def cardServices (i : Input) : List Call :=
  (if i.access.access = .unknown then [.logUnknownCard i.cardId] else []) ++
    [.updateLastAccess i.access.userId]

section Filter

variable {β : Type} {f : Call → Option β}

/-- `f` is not about Slack. -/
structure ForServices (f : Call → Option β) : Prop where
  outward : ∀ call, (f call).isSome = true → call.isOutward = true
  setStatus : ∀ status, f (.slackSetStatus status) = none
  sendMessage : ∀ message, f (.slackSendMessage message) = none
  announceOpen : f .slackAnnounceOpen = none
  announceClosed : f .slackAnnounceClosed = none

theorem filterMap_cardCalls (hf : ForServices f) (i : Input) (changeState : Bool) :
    (cardCalls i.cardId i changeState).filterMap f = (cardServices i).filterMap f := by
  rw [cardCalls, cardServices]
  cases i.access.access with
  | allowed => cases changeState <;> simp [hf.sendMessage]
  | forbidden => simp [hf.sendMessage]
  | unknown => simp [hf.sendMessage]
  | error => simp [hf.sendMessage]

theorem filterMap_remoteCalls (hf : ForServices f) (c : Controller) (i : Input) :
    (c.remoteCalls i).filterMap f = [] := by
  rw [remoteCalls, actionCalls]
  split
  · rfl
  split
  · split <;> simp [hf.sendMessage]
  · split <;> simp [hf.sendMessage]

theorem filterMap_openCalls (hf : ForServices f) (thursday : Bool) :
    (openCalls thursday).filterMap f = [] := by
  cases thursday <;> simp [openCalls, hf.announceOpen]

theorem filterMap_leaveCalls (hf : ForServices f) : leaveCalls.filterMap f = [] := by
  simp [leaveCalls, hf.sendMessage]

theorem filterMap_timedCalls (hf : ForServices f) (v : View) (ends : Bool) (i : Input) :
    (timedCalls v ends i).filterMap f = [] := by
  rw [timedCalls, List.filterMap_append, List.append_eq_nil_iff]
  constructor
  · split
    · exact filterMap_openCalls hf _
    · rfl
  · split
    · exact filterMap_leaveCalls hf
    · rfl

theorem keys_foundView (c : Controller) (i : Input) : (c.foundView i).keys = i.pressed.read := by
  rw [foundView]
  dsimp only
  split
  · rfl
  · split <;> rfl

theorem cardId_foundView (c : Controller) (i : Input) : (c.foundView i).cardId = i.cardId := by
  rw [foundView]
  dsimp only
  split
  · rfl
  · split <;> rfl

/-- **The services hear of a card** exactly if `check_card` is called for it. -/
theorem filterMap_iterate (hf : ForServices f) (c : Controller) (i : Input) :
    (c.iterate i).calls.filterMap f =
      if c.ChecksCard i then (cardServices i).filterMap f else [] := by
  have hcalls : (c.iterate i).calls.filter Call.isOutward =
      c.remoteCalls i ++ handledCalls (c.foundView i) i := outward_iterate c i
  have hkeys : (c.foundView i).keys = i.pressed.read := keys_foundView c i
  have hcard : (c.foundView i).cardId = i.cardId := cardId_foundView c i
  have hgreen : ¬ i.pressed.read.green = true := Bool.false_ne_true
  rw [← filterMap_calls hf.outward, hcalls, List.filterMap_append, filterMap_remoteCalls hf,
    List.nil_append, handledCalls]
  cases hstate : (c.foundView i).state with
  | initial =>
    have hnot : ¬ c.ChecksCard i := by
      rintro ⟨-, h | ⟨h, -⟩⟩ <;> rw [hstate] at h <;> cases h
    rw [if_neg hnot]
    rfl
  | locked =>
    have hiff : c.ChecksCard i ↔ i.cardId ≠ [] ∧ i.pressed.white = false := by
      rw [ChecksCard, hstate]
      simp
    have hread : i.pressed.read.white = i.pressed.white := rfl
    dsimp only
    rw [lockedCalls, List.filterMap_cons_none (hf.setStatus _), hkeys, hcard, if_neg hgreen, hread]
    cases hwhite : i.pressed.white with
    | true =>
      have hnot : ¬ c.ChecksCard i := by
        rw [hiff, hwhite]
        exact fun h => absurd h.2 (by decide)
      rw [if_pos rfl, if_neg hnot]
      exact filterMap_openCalls hf _
    | false =>
      rw [if_neg Bool.false_ne_true]
      by_cases hnone : i.cardId = []
      · rw [if_neg (not_not.mpr hnone), if_neg fun h => (hiff.mp h).1 hnone]
        split
        · exact filterMap_leaveCalls hf
        · rfl
      · rw [if_pos hnone, if_pos (hiff.mpr ⟨hnone, hwhite⟩)]
        exact filterMap_cardCalls hf i true
  | «open» =>
    have hiff : c.ChecksCard i ↔ i.cardId ≠ [] := by
      rw [ChecksCard, hstate]
      simp
    have hend : (if i.thursday && !(c.foundView i).keys.red then []
        else [Call.slackAnnounceClosed]).filterMap f = [] := by
      split
      · rfl
      · simp [hf.announceClosed]
    dsimp only
    rw [spaceCalls, List.filterMap_append, hend, List.nil_append, hcard]
    by_cases hnone : i.cardId = []
    · rw [if_neg (not_not.mpr hnone), if_neg fun h => hiff.mp h hnone]
      rfl
    · rw [if_pos hnone, if_pos (hiff.mpr hnone)]
      exact filterMap_cardCalls hf i false
  | timedUnlock =>
    have hnot : ¬ c.ChecksCard i := by
      rintro ⟨-, h | ⟨h, -⟩⟩ <;> rw [hstate] at h <;> cases h
    rw [if_neg hnot]
    exact filterMap_timedCalls hf _ _ i

end Filter

theorem forServices_accessed : ForServices Call.accessed where
  outward call h := by
    cases call with
    | updateLastAccess userId => rfl
    | _ => cases h
  setStatus _ := rfl
  sendMessage _ := rfl
  announceOpen := rfl
  announceClosed := rfl

theorem forServices_unknownCard : ForServices Call.unknownCard where
  outward call h := by
    cases call with
    | logUnknownCard cardId => rfl
    | _ => cases h
  setStatus _ := rfl
  sendMessage _ := rfl
  announceOpen := rfl
  announceClosed := rfl

end Controller

/-! ### In a run -/

/-- The members that ForeningLet should hear of. -/
def Event.accesses (c : Controller) : Event → List Int
  | .query _ => []
  | .iterate i => if c.ChecksCard i then [i.access.userId] else []

def Event.unknownCards (c : Controller) : Event → List Bytes
  | .query _ => []
  | .iterate i => if c.ChecksCard i ∧ i.access.access = .unknown then [i.cardId] else []

theorem accesses_made (c : Controller) (event : Event) :
    (event.made c).filterMap Call.accessed = event.accesses c := by
  cases event with
  | query reply => rfl
  | iterate i =>
    rw [Event.made, Event.accesses, Controller.filterMap_iterate Controller.forServices_accessed,
      Controller.cardServices]
    split
    · split <;> rfl
    · rfl

theorem unknownCards_made (c : Controller) (event : Event) :
    (event.made c).filterMap Call.unknownCard = event.unknownCards c := by
  cases event with
  | query reply => rfl
  | iterate i =>
    rw [Event.made, Event.unknownCards,
      Controller.filterMap_iterate Controller.forServices_unknownCard, Controller.cardServices]
    by_cases hchecks : c.ChecksCard i
    · by_cases hunknown : i.access.access = .unknown
      · simp [hchecks, hunknown, Call.unknownCard]
      · simp [hunknown, Call.unknownCard]
    · simp [hchecks]

/-- Each of the calls puts in what it does, whatever the times are. -/
theorem filterMap_zipIdx {α β γ : Type} {f : α → Nat → List β} {g : β → Option γ} {h : α → Option γ}
    (hf : ∀ a k, (f a k).filterMap g = (h a).toList) (as : List α) (n : Nat) :
    ((as.zipIdx n).flatMap fun a => f a.1 a.2).filterMap g = as.filterMap h := by
  induction as generalizing n with
  | nil => rfl
  | cons a as ih =>
    rw [List.zipIdx_cons, List.flatMap_cons, List.filterMap_append, ih, hf, List.filterMap_cons]
    cases h a <;> rfl

namespace Logger

/-- The card of an item for the unknown cards. -/
def Item.cardId (item : Item) : Option Bytes :=
  if item.type = .unknownCard then some item.text else none

def Request.cardId : Request → Option Bytes
  | .acslog _ _ _ => none
  | .logs _ _ _ => none
  | .unknownCards _ cardId => some cardId

theorem cardId_post (gwToken apiToken : Bytes) (item : Item) :
    (post gwToken apiToken item).cardId = item.cardId := by
  rw [post, Item.cardId]
  cases item.type <;> rfl

theorem cardId_log (logToGateway : Bool) (stamp text : Bytes) :
    (log logToGateway stamp text).filterMap Item.cardId = [] := by
  cases logToGateway <;> rfl

theorem cardId_logBackend (logToGateway : Bool) (stamp : Bytes) (userId : Int) (text : Bytes) :
    (logBackend logToGateway stamp userId text).filterMap Item.cardId = [] := by
  cases logToGateway <;> rfl

end Logger

namespace Services

variable (tokens : Tokens)

/-- The turns of the controller and its gateway. -/
def events (turns : List ServiceTurn) : List Event :=
  turns.flatMap fun
    | .controller event _ => [event]
    | _ => []

section Projections

variable (s : Services) (turns : List ServiceTurn)

theorem logger_exec :
    (exec (step tokens) s turns).logger = exec (Worker.step (logAct tokens)) s.logger
      (emitted (step tokens) (loggerTurns tokens) s turns) :=
  exec_refinement (step tokens) (Worker.step (logAct tokens)) (loggerTurns tokens) Services.logger
    (fun _ => True) (fun _ _ => True) (fun _ _ _ _ => trivial) (fun _ _ _ _ => rfl) trivial
    (along_of_forall (P := fun _ => True) (step tokens) fun _ _ => trivial)

theorem foreningLet_exec :
    (exec (step tokens) s turns).foreningLet = exec (Worker.step putAct) s.foreningLet
      (emitted (step tokens) foreningLetTurns s turns) :=
  exec_refinement (step tokens) (Worker.step putAct) foreningLetTurns Services.foreningLet
    (fun _ => True) (fun _ _ => True) (fun _ _ _ _ => trivial) (fun _ _ _ _ => rfl) trivial
    (along_of_forall (P := fun _ => True) (step tokens) fun _ _ => trivial)

end Projections

/-- A thread that has had as many turns as there were items has done them all. -/
theorem pending_replicate {α β : Type} {act : List β → Option α → Unit → List β}
    {out : Services → ServiceTurn → List (Worker.Turn α Unit)} {turn : ServiceTurn}
    (hout : ∀ s, out s turn = [.work ()]) (w : Worker α (List β)) (s : Services) :
    (exec (Worker.step act) w (emitted (step tokens) out s
      (List.replicate w.pending.length turn))).pending = [] := by
  have hturns : ∀ (n : Nat) (s : Services), emitted (step tokens) out s (List.replicate n turn) =
      (List.replicate n ()).map .work := by
    intro n
    induction n with
    | zero => exact fun _ => rfl
    | succ n ih =>
      intro s
      rw [List.replicate_succ, List.replicate_succ, emitted_cons, hout, ih]
      rfl
  rw [hturns, Worker.pending_exec_turns, List.length_replicate, List.drop_length]

/-- What is put into a queue is what the controller calls for it. -/
theorem emitted_puts {α β : Type} {out : Services → ServiceTurn → List (Worker.Turn α Unit)}
    {f : α → Option β} {of : Controller → Event → List β}
    (hcontroller : ∀ s event stamps,
      (Worker.puts (out s (.controller event stamps))).filterMap f = of s.controller event)
    (hother : ∀ s turn, (∀ event stamps, turn ≠ .controller event stamps) →
      (Worker.puts (out s turn)).filterMap f = [])
    (turns : List ServiceTurn) :
    (Worker.puts (emitted (step tokens) out {} turns)).filterMap f =
      emitted Opi.step of {} (events turns) := by
  rw [Worker.puts, emitted_filterMap, emitted_filterMap]
  refine emitted_simulation (step tokens) _ Opi.step of _ (fun s c => s.controller = c) ?_ ?_ rfl
    turns
  · rintro s c turn rfl
    cases turn <;> rfl
  · rintro s c turn rfl
    cases turn with
    | controller event stamps =>
      exact (hcontroller s event stamps).trans (List.append_nil _).symm
    | log stamp text => exact hother s _ (by intro _ _ h; cases h)
    | logBackend stamp userId text => exact hother s _ (by intro _ _ h; cases h)
    | logger => exact hother s _ (by intro _ _ h; cases h)
    | foreningLet => exact hother s _ (by intro _ _ h; cases h)

/-- What the services have got and will get of a run. -/
structure Served (turns : List ServiceTurn) : Prop where
  /-- ForeningLet: the member of each card that has been looked up, in order. -/
  lastAccess : ((run tokens turns).foreningLet.state ++
      (run tokens turns).foreningLet.pending.map ForeningLet.put).map ForeningLet.Request.url =
    (emitted Opi.step Event.accesses {} (events turns)).map ForeningLet.url
  /-- The backend: the unknown ones of them, in order. -/
  unknownCards : ((run tokens turns).logger.state ++ (run tokens turns).logger.pending.map
      (Logger.post tokens.gwToken tokens.apiToken)).filterMap Logger.Request.cardId =
    (emitted Opi.step Event.unknownCards {} (events turns)).map (strncpy Logger.MAX_SIZE)
  /-- A queue is empty after as many turns of its thread. -/
  worked : (run tokens (turns ++ List.replicate (run tokens turns).foreningLet.pending.length
      .foreningLet)).foreningLet.pending = [] ∧
    (run tokens (turns ++ List.replicate (run tokens turns).logger.pending.length
      .logger)).logger.pending = []

theorem accesses_puts (turns : List ServiceTurn) :
    (Worker.puts (emitted (step tokens) foreningLetTurns {} turns)).map ForeningLet.Item.userId =
      emitted Opi.step Event.accesses {} (events turns) := by
  rw [← List.filterMap_eq_map]
  refine emitted_puts tokens ?_ ?_ turns
  · intro s event stamps
    rw [foreningLetTurns, Worker.puts_map_put, ← accesses_made]
    refine filterMap_zipIdx (f := fun call k => Call.accessItems (stamps k) call) ?_ _ 0
    intro call k
    cases call <;> rfl
  · intro s turn hturn
    cases turn with
    | controller event stamps => exact absurd rfl (hturn event stamps)
    | _ => rfl

theorem unknownCards_puts (turns : List ServiceTurn) :
    (Worker.puts (emitted (step tokens) (loggerTurns tokens) {} turns)).filterMap
        Logger.Item.cardId =
      (emitted Opi.step Event.unknownCards {} (events turns)).map (strncpy Logger.MAX_SIZE) := by
  rw [← List.filterMap_eq_map, emitted_filterMap]
  refine emitted_puts tokens ?_ ?_ turns
  · intro s event stamps
    rw [loggerTurns, Worker.puts_map_put, ← unknownCards_made, List.filterMap_filterMap]
    refine filterMap_zipIdx
      (f := fun call k => Call.logItems tokens.logToGateway (stamps k) call) ?_ _ 0
    intro call k
    cases call with
    | log text => exact Logger.cardId_log _ _ _
    | _ => rfl
  · intro s turn hturn
    cases turn with
    | controller event stamps => exact absurd rfl (hturn event stamps)
    | log stamp text =>
      rw [loggerTurns, Worker.puts_map_put]
      exact Logger.cardId_log _ _ _
    | logBackend stamp userId text =>
      rw [loggerTurns, Worker.puts_map_put]
      exact Logger.cardId_logBackend _ _ _ _
    | _ => rfl

/-- **Each card is reported once**, whatever the order of the turns. -/
theorem served_run (turns : List ServiceTurn) : Served tokens turns := by
  constructor
  case lastAccess =>
    have hall := Worker.outputs_append ForeningLet.put
      (emitted (step tokens) foreningLetTurns {} turns)
    have hurl : ∀ items : List ForeningLet.Item,
        (items.map ForeningLet.put).map ForeningLet.Request.url =
          (items.map ForeningLet.Item.userId).map ForeningLet.url := by
      intro items
      rw [List.map_map, List.map_map]
      rfl
    have hrun := foreningLet_exec tokens {} turns
    rw [putAct] at hrun
    rw [run, hrun, hall, hurl, accesses_puts]
  case unknownCards =>
    have hall := Worker.outputs_append (Logger.post tokens.gwToken tokens.apiToken)
      (emitted (step tokens) (loggerTurns tokens) {} turns)
    have hrun := logger_exec tokens {} turns
    rw [logAct] at hrun
    rw [run, hrun, hall, List.filterMap_map, ← unknownCards_puts]
    refine List.filterMap_congr fun item _ => ?_
    exact Logger.cardId_post _ _ item
  case worked =>
    constructor
    · rw [run, run, exec_append, foreningLet_exec]
      exact pending_replicate tokens (fun _ => rfl) _ _
    · rw [run, run, exec_append, logger_exec]
      exact pending_replicate tokens (fun _ => rfl) _ _

end Services

end Acs.Opi
