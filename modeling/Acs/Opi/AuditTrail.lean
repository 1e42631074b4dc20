/-
  Acs/Opi/AuditTrail.lean
  =======================
  **Who has been let in, as the backend's log has it.**

  `has_access` names the member of a card that it allows in a log entry, which
  the thread of `Logger` sends to the backend; the backend makes a row of it for
  the machine of the token.  The thread and the tables of the backend go their
  own way in the meantime, and a request may be lost.  Whatever the order of the
  turns, a card opens the door only with an entry for a member who had the card
  less than 15 minutes before, the rows are those of the entries, in order and
  none twice, and none is missing if the requests arrive (`auditTrail_run`).

  An iteration makes its log entries at once here, as in `Acs.Opi.Services`: the
  thread takes the oldest item, so that it makes no difference whether the
  iteration has put in the next one.
-/
import Acs.Opi.Revocation

namespace Acs.Opi

open Acs Acs.Backend Runs

/-! ### The entry of `has_access` -/

/-- The user that the online part of `has_access` names. -/
def askLogged (db : Database) (current : Current) (token : ApiToken) (id : CardId) : Option Nat :=
  (readAnswer (reply db current (permissionRequest token id))).bind fun answer =>
    answer.2.map (·.1)

/-- The user that `has_access` names in its log entry, if it makes one. -/
def loggedUser (db : Database) (current : Current) (token : ApiToken) (cache : Cache) (now : Int)
    (id : CardId) : Option Nat :=
  match cache[id]? with
  | some info =>
      if now - info.lastUpdate < maxCacheAge then some info.userId
      else askLogged db current token id
  | none => askLogged db current token id

def grantedEntry : Bytes := str "Granted entry"

section Entry

variable {db : Database} {current : Current} {token : ApiToken} {cache : Cache} {now : Int}
  {id : CardId}

/-- The entry names the member of a fresh entry of the cache, or of the answer. -/
theorem owner_of_loggedUser (hid : id < 2 ^ 64) {userId : Nat}
    (h : loggedUser db current token cache now id = some userId) :
    ∃ info : UserInfo, info.userId = userId ∧ now - info.lastUpdate < maxCacheAge ∧
      (cache[id]? = some info ∨ (info.lastUpdate = now ∧ Owns db token id info)) := by
  have hask : askLogged db current token id = some userId → ∃ info : UserInfo,
      info.userId = userId ∧ now - info.lastUpdate < maxCacheAge ∧
      (cache[id]? = some info ∨ (info.lastUpdate = now ∧ Owns db token id info)) := by
    intro h
    obtain ⟨⟨result, user?⟩, hanswer, huser⟩ := Option.bind_eq_some_iff.mp h
    obtain ⟨⟨userId', intId⟩, rfl, rfl⟩ := Option.map_eq_some_iff.mp huser
    obtain ⟨-, howns⟩ := readAnswer_user now hid hanswer
    refine ⟨⟨userId', intId, now⟩, rfl, ?_, .inr ⟨rfl, howns⟩⟩
    change now - now < _
    rw [Int.sub_self]
    decide
  rw [loggedUser] at h
  split at h
  next info hentry =>
    split at h
    next hfresh => exact ⟨info, Option.some.inj h, hfresh, .inl hentry⟩
    next => exact hask h
  next => exact hask h

/-- A card that is allowed has an entry. -/
theorem loggedUser_of_allowed {result : Result} {cache' : Cache}
    (h : hasAccess db current token cache now id = some (result, cache'))
    (hallowed : result.access = .allowed) :
    (loggedUser db current token cache now id).isSome := by
  have hask : askBackend db current token cache now id = some (result, cache') →
      (askLogged db current token id).isSome := by
    intro h
    rw [askBackend] at h
    rw [askLogged]
    split at h
    · cases h
    next hanswer =>
      cases h
      obtain ⟨userId, intId, heq⟩ := readAnswer_allowed hanswer hallowed
      cases heq
    next userId intId hanswer =>
      rw [hanswer]
      rfl
  rw [hasAccess] at h
  rw [loggedUser]
  cases hentry : cache[id]? with
  | none =>
    rw [hentry] at h
    exact hask h
  | some info =>
    rw [hentry] at h
    dsimp only at h ⊢
    by_cases hfresh : now - info.lastUpdate < maxCacheAge
    · rw [if_pos hfresh]
      rfl
    · rw [if_neg hfresh] at h ⊢
      exact hask h

end Entry

/-- The user of the entry that the turn makes. -/
def Gate.granted (token : ApiToken) (g : Gate) : GateTurn → Option Nat
  | .update _ _ _ => none
  | .query _ => none
  | .iterate i db current now =>
    if g.crashed then none
    else if g.controller.ChecksCard i then
      loggedUser db current token g.cache now (getIdFromString i.cardId)
    else none

/-! ### The row of the backend -/

/-- `POST /v1/logs`. -/
def logRequest (token : ApiToken) (userId : Nat) (message : Bytes) : ApiRequest where
  apiToken := some token.1
  authorization := none
  view := .log ⟨some userId, some (text message)⟩

/-- A request is sent: whether it arrives, and what it finds there. -/
structure Posting where
  delivered : Bool
  db : Database
  current : Current

/-- The row that the backend makes of a request with the frontend's token; nobody
    has a negative number. -/
def servedRow (token : ApiToken) (posting : Posting) : Logger.Request → List Log
  | .logs _ (.ofNat userId) message =>
    if posting.delivered then
      match reply posting.db posting.current (logRequest token userId message) with
      | .log (.ok row) => [row]
      | _ => []
    else []
  | .logs _ (.negSucc _) _ => []
  | .acslog _ _ _ => []
  | .unknownCards _ _ => []

theorem reply_logRequest (db : Database) (current : Current) (token : ApiToken) (userId : Nat)
    (message : Bytes) :
    reply db current (logRequest token userId message) =
      match login db token with
      | .error err => .refused err
      | .ok mId => .log (logList db mId ⟨some userId, some (text message)⟩) := by
  have hbody : (logRequest token userId message).bodyToken = some token.1 := by
    simp only [ApiRequest.bodyToken, logRequest, if_neg token.2]
  unfold reply authenticate bodyTokenAuthenticate
  rw [hbody]
  rcases login_cases db current token with ⟨user, t, hok, hlogin⟩ | ⟨err, t, herror, hlogin⟩
  · rw [Effects.bind_ok hok, hlogin]
    rfl
  · rw [Effects.bind_error herror, hlogin]

/-- **When `log_list` makes a row** for a user that is named. -/
theorem logList_eq_ok_iff {db : Database} {mId : Option Nat} {userId : Nat} {message : String}
    {row : Log} :
    logList db mId ⟨some userId, some message⟩ = .ok row ↔
      (∃ user ∈ db.members, user.id = userId) ∧
        ∃ machine ∈ db.machines, mId = some machine.id ∧ row = ⟨machine.id, some userId, message⟩ := by
  have hmachine : ∀ m, Table.get (fun m => some m.id == mId) db.machines = .ok m ↔
      m ∈ db.machines ∧ mId = some m.id := by
    intro m
    cases mId with
    | none =>
      refine iff_of_false (fun h => ?_) (fun h => by cases h.2)
      have hp := (Table.mem_of_get h).2
      cases hp
    | some k =>
      have hkey : (fun m : Machine => some m.id == some k) = fun m => m.id == k := by
        funext m
        exact Bool.eq_iff_iff.mpr (by simp)
      rw [hkey, Table.get_key_eq_ok_iff db.machineIds, Option.some.injEq, eq_comm (a := k)]
  constructor
  · intro h
    rw [logList, logUser] at h
    cases huser : Table.get (fun user => user.id == userId) db.members with
    | error err =>
      rw [huser] at h
      cases h
    | ok user =>
      obtain ⟨hmem, rfl⟩ := (Table.get_key_eq_ok_iff db.memberIds).mp huser
      rw [huser] at h
      cases hm : Table.get (fun m => some m.id == mId) db.machines with
      | error err =>
        rw [hm] at h
        cases h
      | ok m =>
        rw [hm] at h
        obtain ⟨hmem', hid⟩ := (hmachine m).mp hm
        exact ⟨⟨user, hmem, rfl⟩, m, hmem', hid, (Except.ok.inj h).symm⟩
  · rintro ⟨⟨user, hmem, rfl⟩, m, hmem', hid, rfl⟩
    rw [logList, logUser, (Table.get_key_eq_ok_iff db.memberIds).mpr ⟨hmem, rfl⟩,
      (hmachine m).mpr ⟨hmem', hid⟩]
    rfl

/-- The backend knows the token and the users. -/
structure Posting.Knows (posting : Posting) (token : ApiToken) (users : List Nat) : Prop where
  delivered : posting.delivered = true
  machine : ∃ machine ∈ posting.db.machines, login posting.db token = .ok (some machine.id)
  users : ∀ userId ∈ users, ∃ user ∈ posting.db.members, user.id = userId

theorem servedRow_logs (token : ApiToken) (posting : Posting) (apiToken : Bytes) (userId : Nat)
    (message : Bytes) :
    servedRow token posting (.logs apiToken userId message) =
      if posting.delivered then
        match login posting.db token with
        | .error _ => []
        | .ok mId => (logList posting.db mId ⟨some userId, some (text message)⟩).toOption.toList
      else [] := by
  have hlogs : servedRow token posting (.logs apiToken userId message) =
      if posting.delivered then
        match reply posting.db posting.current (logRequest token userId message) with
        | .log (.ok row) => [row]
        | _ => []
      else [] := rfl
  rw [hlogs, reply_logRequest]
  cases login posting.db token with
  | error err => rfl
  | ok mId =>
    dsimp only
    cases logList posting.db mId ⟨some userId, some (text message)⟩ <;> rfl

/-- There is at most one row, and it is for the user of the request. -/
theorem servedRow_cases (token : ApiToken) (posting : Posting) (apiToken : Bytes) (userId : Nat)
    (message : Bytes) :
    servedRow token posting (.logs apiToken userId message) = [] ∨
      ∃ machineId, servedRow token posting (.logs apiToken userId message) =
        [⟨machineId, some userId, text message⟩] := by
  rw [servedRow_logs]
  split
  · cases login posting.db token with
    | error err => exact .inl rfl
    | ok mId =>
      dsimp only
      cases hrow : logList posting.db mId ⟨some userId, some (text message)⟩ with
      | error err => exact .inl rfl
      | ok row =>
        obtain ⟨-, m, -, -, rfl⟩ := logList_eq_ok_iff.mp hrow
        exact .inr ⟨m.id, rfl⟩
  · exact .inl rfl

theorem servedRow_of_knows {token : ApiToken} {posting : Posting} {userId : Nat}
    {users : List Nat} (h : posting.Knows token users) (apiToken : Bytes) (hmem : userId ∈ users)
    (message : Bytes) :
    ∃ machineId, servedRow token posting (.logs apiToken userId message) =
      [⟨machineId, some userId, text message⟩] := by
  obtain ⟨machine, hmachine, hlogin⟩ := h.machine
  refine ⟨machine.id, ?_⟩
  have hrow := logList_eq_ok_iff.mpr ⟨h.users userId hmem, machine, hmachine, rfl,
    rfl (a := (⟨machine.id, some userId, text message⟩ : Log))⟩
  rw [servedRow_logs, if_pos h.delivered, hlogin]
  dsimp only
  rw [hrow]
  rfl

/-! ### The frontend and the log table -/

/-- The rows are the state of the thread, since it is the one who makes them. -/
structure Audit where
  gate : Gate := {}
  logger : Worker Logger.Item (List Log) := ⟨[], []⟩

/-- A turn of the gate, in which the clock is read as `stamp`; something else is
    logged; or the thread of `Logger` has its turn. -/
inductive AuditTurn where
  | gate (turn : GateTurn) (stamp : Bytes)
  | other (item : Logger.Item) (h : item.type ≠ .backend)
  | logger (posting : Posting)

namespace Audit

variable (token : ApiToken) (logToGateway : Bool) (gwToken : Bytes)

/-- The entry that the turn makes. -/
def entry (a : Audit) (turn : GateTurn) (stamp : Bytes) : List Logger.Item :=
  (a.gate.granted token turn).toList.flatMap fun (userId : Nat) =>
    Logger.logBackend logToGateway stamp (Int.ofNat userId) grantedEntry

def queueTurns (a : Audit) : AuditTurn → List (Worker.Turn Logger.Item Posting)
  | .gate turn stamp => (a.entry token logToGateway turn stamp).map .put
  | .other item _ => [.put item]
  | .logger posting => [.work posting]

abbrev Job := Option Logger.Item × Posting

/-- What becomes of an item in a turn of the thread. -/
def sent (item : Logger.Item) (posting : Posting) : List Log :=
  servedRow token posting (Logger.post gwToken (str token.1) item)

def step (a : Audit) (turn : AuditTurn) : Audit where
  gate := match turn with
    | .gate turn _ => a.gate.step token turn
    | _ => a.gate
  logger := exec (Worker.step (Worker.collect (sent token gwToken))) a.logger
    (a.queueTurns token logToGateway turn)

def run (turns : List AuditTurn) : Audit := exec (step token logToGateway gwToken) {} turns

/-- The turns of the thread in a run, each with its item. -/
def jobs (turns : List AuditTurn) : List Job :=
  Worker.jobs (Worker.collect (sent token gwToken)) ⟨[], []⟩
    (emitted (step token logToGateway gwToken) (queueTurns token logToGateway) {} turns)

/-- The turns of the gate. -/
def gateTurns (turns : List AuditTurn) : List GateTurn :=
  turns.flatMap fun
    | .gate turn _ => [turn]
    | _ => []

/-- The users of all entries of the run. -/
def entries (turns : List AuditTurn) : List Nat :=
  emitted (Gate.step token) (fun g turn => (g.granted token turn).toList) {} (gateTurns turns)

/-- The user of an item for the backend's log. -/
def itemUser (item : Logger.Item) : Option Int :=
  if item.type = .backend then some item.userId else none

/-- The items of the queue that are for the log are entries. -/
def IsEntry (item : Logger.Item) : Prop :=
  item.type = .backend → ∃ userId : Nat, item.userId = userId ∧ item.text = grantedEntry

/-- What the log of the backend shows of a run. -/
structure AuditTrail (turns : List AuditTurn) : Prop where
  /-- A card opens the door only with an entry. -/
  opens : ∀ before turn stamp after, turns = before ++ .gate turn stamp :: after →
    ∀ deadline cardId,
      .grant deadline (.card cardId) ∈
          (run token logToGateway gwToken before).gate.doorEvents token turn →
        ((run token logToGateway gwToken before).gate.granted token turn).isSome
  /-- An entry names a member who has had the card less than 15 minutes ago. -/
  owner : ∀ before i db current now stamp after,
    turns = before ++ .gate (.iterate i db current now) stamp :: after →
    ∀ userId ∈ (run token logToGateway gwToken before).gate.granted token (.iterate i db current now),
      ∃ info : UserInfo, info.userId = userId ∧ now - info.lastUpdate < maxCacheAge ∧
        SeenOwner token (gateTurns before ++ [.iterate i db current now])
          (getIdFromString i.cardId) info
  /-- The rows are those of the entries, in order and none twice. -/
  rows : ((run token logToGateway gwToken turns).logger.state.map (·.userId)).Sublist
      ((entries token turns).map some) ∧
    ∀ row ∈ (run token logToGateway gwToken turns).logger.state, row.message = "Granted entry"
  /-- None is missing when the requests arrive at a backend that knows the users. -/
  complete : logToGateway = true →
    (∀ posting, .logger posting ∈ turns → posting.Knows token (entries token turns)) →
    (run token logToGateway gwToken turns).logger.pending = [] →
      (run token logToGateway gwToken turns).logger.state.map (·.userId) =
        (entries token turns).map some

section Run

variable {token : ApiToken} {logToGateway : Bool} {gwToken : Bytes} {turns : List AuditTurn}

theorem logger_run :
    (run token logToGateway gwToken turns).logger =
      exec (Worker.step (Worker.collect (sent token gwToken))) ⟨[], []⟩
        (emitted (step token logToGateway gwToken) (queueTurns token logToGateway) {} turns) :=
  exec_refinement (step token logToGateway gwToken)
    (Worker.step (Worker.collect (sent token gwToken))) (queueTurns token logToGateway)
    Audit.logger (fun _ => True) (fun _ _ => True) (fun _ _ _ _ => trivial)
    (fun _ _ _ _ => rfl) trivial
    (along_of_forall (P := fun _ => True) (step token logToGateway gwToken) fun _ _ => trivial)

theorem gate_run :
    (run token logToGateway gwToken turns).gate = Gate.run token (gateTurns turns) := by
  refine exec_simulation (step token logToGateway gwToken) (Gate.step token)
    (fun | .gate turn _ => [turn] | _ => []) (fun a g => a.gate = g) ?_ rfl turns
  rintro a g turn rfl
  cases turn <;> rfl

/-- The users of the items that are put into the queue for the log. -/
theorem users_puts (gwToken : Bytes) :
    (Worker.puts (emitted (step token logToGateway gwToken) (queueTurns token logToGateway) {}
        turns)).filterMap itemUser =
      if logToGateway then (entries token turns).map Int.ofNat else [] := by
  have hput : ∀ (a : Audit) (turn : AuditTurn),
      (Worker.puts (queueTurns token logToGateway a turn)).filterMap itemUser =
        if logToGateway then
          match turn with
          | .gate turn _ => (a.gate.granted token turn).toList.map Int.ofNat
          | _ => []
        else [] := by
    intro a turn
    cases turn with
    | gate turn stamp =>
      rw [queueTurns, Worker.puts_map_put, entry]
      dsimp only
      cases a.gate.granted token turn with
      | none => cases logToGateway <;> rfl
      | some userId => cases logToGateway <;> rfl
    | other item h =>
      have hitem : itemUser item = none := if_neg h
      change [item].filterMap itemUser = _
      rw [List.filterMap_cons_none hitem]
      cases logToGateway <;> rfl
    | logger posting => cases logToGateway <;> rfl
  rw [Worker.puts_emitted, emitted_filterMap]
  simp only [hput]
  cases logToGateway with
  | false =>
    have hnil : ∀ (s : Audit) (ts : List AuditTurn),
        emitted (step token false gwToken) (fun _ _ => ([] : List Int)) s ts = [] := by
      intro s ts
      induction ts generalizing s with
      | nil => rfl
      | cons t ts ih => exact ih _
    exact hnil {} turns
  | true =>
    rw [if_pos rfl, entries, ← List.filterMap_eq_map, emitted_filterMap]
    refine emitted_simulation (step token true gwToken) _ (Gate.step token) _
      (fun | .gate turn _ => [turn] | _ => []) (fun a g => a.gate = g) ?_ ?_ rfl turns
    · rintro a g turn rfl
      cases turn <;> rfl
    · rintro a g turn rfl
      cases turn with
      | gate turn stamp =>
        rw [if_pos rfl, emitted_cons, emitted_nil, List.append_nil, List.filterMap_eq_map]
      | other item h => rfl
      | logger posting => rfl

theorem isEntry_of_put :
    ∀ item ∈ Worker.puts (emitted (step token logToGateway gwToken)
      (queueTurns token logToGateway) {} turns), IsEntry item := by
  rw [Worker.puts_emitted, forall_emitted_iff]
  refine along_of_forall (P := fun _ => True) _ (fun _ _ => trivial) |>.imp ?_
  rintro a turn - item hitem
  cases turn with
  | gate turn stamp =>
    rw [queueTurns, Worker.puts_map_put, entry] at hitem
    obtain ⟨userId, -, hitem⟩ := List.mem_flatMap.mp hitem
    rw [Logger.logBackend] at hitem
    split at hitem
    · rw [List.mem_singleton.mp hitem]
      exact fun _ => ⟨userId, rfl, rfl⟩
    · exact absurd hitem List.not_mem_nil
  | other other h =>
    rw [List.mem_singleton.mp hitem]
    exact fun hbackend => absurd hbackend h
  | logger posting => exact absurd hitem List.not_mem_nil

/-- Other items are not for the log. -/
theorem sent_other (token : ApiToken) (gwToken : Bytes) {item : Logger.Item}
    (h : item.type ≠ .backend) (posting : Posting) :
    sent token gwToken item posting = [] ∧ itemUser item = none := by
  refine ⟨?_, if_neg h⟩
  rw [sent, Logger.post]
  cases htype : item.type with
  | debug => rfl
  | unknownCard => rfl
  | backend => exact absurd htype h

/-- An entry, with the request that is made of it. -/
theorem sent_entry (token : ApiToken) (gwToken : Bytes) {item : Logger.Item} (h : IsEntry item)
    (htype : item.type = .backend) (posting : Posting) :
    ∃ userId : Nat, itemUser item = some (Int.ofNat userId) ∧
      sent token gwToken item posting =
        servedRow token posting (.logs (str token.1) (Int.ofNat userId) grantedEntry) := by
  obtain ⟨userId, huser, htext⟩ := h htype
  refine ⟨userId, ?_, ?_⟩
  · rw [itemUser, if_pos htype, huser]
    rfl
  · rw [sent, Logger.post, htype, huser, htext]
    rfl

/-- What a list of jobs makes. -/
def rowsOf (token : ApiToken) (gwToken : Bytes) (jobs : List Job) : List Log :=
  jobs.flatMap fun job => job.1.toList.flatMap (sent token gwToken · job.2)

def usersOf (jobs : List Job) : List Int := (jobs.filterMap Prod.fst).filterMap itemUser

/-- One job after the other. -/
theorem rowsOf_cons (job : Job) (jobs : List Job) :
    rowsOf token gwToken (job :: jobs) =
      job.1.toList.flatMap (sent token gwToken · job.2) ++ rowsOf token gwToken jobs :=
  List.flatMap_cons

theorem usersOf_cons (job : Job) (jobs : List Job) :
    usersOf (job :: jobs) = job.1.toList.filterMap itemUser ++ usersOf jobs := by
  obtain ⟨item?, posting⟩ := job
  cases item? with
  | none => rfl
  | some item => exact List.filterMap_append (l := [item])

/-- An item makes at most one row, for its user. -/
theorem rowsOf_sublist (token : ApiToken) (gwToken : Bytes) {jobs : List Job}
    (h : ∀ job ∈ jobs, ∀ item ∈ job.1, IsEntry item) :
    ((rowsOf token gwToken jobs).map (·.userId)).Sublist
        ((usersOf jobs).map fun userId => some userId.toNat) ∧
      ∀ row ∈ rowsOf token gwToken jobs, row.message = "Granted entry" := by
  induction jobs with
  | nil => exact ⟨List.Sublist.refl _, fun row hrow => absurd hrow List.not_mem_nil⟩
  | cons job jobs ih =>
    obtain ⟨hsub, hmessage⟩ := ih fun j hj => h j (List.mem_cons_of_mem job hj)
    have hjob : ((job.1.toList.flatMap (sent token gwToken · job.2)).map (·.userId)).Sublist
        ((job.1.toList.filterMap itemUser).map fun userId => some userId.toNat) ∧
        ∀ row ∈ job.1.toList.flatMap (sent token gwToken · job.2),
          row.message = "Granted entry" := by
      cases hitem : job.1 with
      | none => exact ⟨List.Sublist.refl _, fun row hrow => absurd hrow List.not_mem_nil⟩
      | some item =>
        rw [Option.toList_some, List.flatMap_singleton]
        have hnone : ([].map Log.userId).Sublist
            (([item].filterMap itemUser).map fun userId => some userId.toNat) ∧
            ∀ row ∈ ([] : List Log), row.message = "Granted entry" :=
          ⟨List.nil_sublist _, fun row hrow => absurd hrow List.not_mem_nil⟩
        by_cases htype : item.type = .backend
        · obtain ⟨userId, huser, hsent⟩ :=
            sent_entry token gwToken (h job List.mem_cons_self item hitem) htype job.2
          rcases servedRow_cases token job.2 (str token.1) userId grantedEntry with
            hlost | ⟨machineId, hrow⟩
          · rw [hsent.trans hlost]
            exact hnone
          · rw [hsent.trans hrow, List.filterMap_cons_some huser]
            refine ⟨List.Sublist.refl _, fun row hmem => ?_⟩
            rw [List.mem_singleton.mp hmem]
            exact (by decide : text grantedEntry = "Granted entry")
        · rw [(sent_other token gwToken htype job.2).1]
          exact hnone
    rw [rowsOf_cons, usersOf_cons, List.map_append, List.map_append]
    exact ⟨hjob.1.append hsub, List.forall_mem_append.mpr ⟨hjob.2, hmessage⟩⟩

/-- One row for each user, where every request is answered. -/
theorem rowsOf_eq (users : List Nat) {jobs : List Job}
    (h : ∀ job ∈ jobs, ∀ item ∈ job.1, IsEntry item)
    (hknows : ∀ job ∈ jobs, job.2.Knows token users)
    (husers : ∀ userId : Nat, Int.ofNat userId ∈ usersOf jobs → userId ∈ users) :
    (rowsOf token gwToken jobs).map (·.userId) =
      (usersOf jobs).map fun userId => some userId.toNat := by
  induction jobs with
  | nil => rfl
  | cons job jobs ih =>
    have hrest := ih (fun j hj => h j (List.mem_cons_of_mem job hj))
      (fun j hj => hknows j (List.mem_cons_of_mem job hj))
      (fun userId hmem => husers userId (by
        rw [usersOf_cons]
        exact List.mem_append_right _ hmem))
    have hjob : (job.1.toList.flatMap (sent token gwToken · job.2)).map (·.userId) =
        (job.1.toList.filterMap itemUser).map fun userId => some userId.toNat := by
      cases hitem : job.1 with
      | none => rfl
      | some item =>
        rw [Option.toList_some, List.flatMap_singleton]
        by_cases htype : item.type = .backend
        · obtain ⟨userId, huser, hsent⟩ :=
            sent_entry token gwToken (h job List.mem_cons_self item hitem) htype job.2
          have hmem : userId ∈ users := husers userId (by
            rw [usersOf_cons, hitem, Option.toList_some, List.filterMap_cons_some huser]
            exact List.mem_cons_self)
          obtain ⟨machineId, hrow⟩ :=
            servedRow_of_knows (hknows job List.mem_cons_self) (str token.1) hmem grantedEntry
          rw [hsent.trans hrow, List.filterMap_cons_some huser]
          rfl
        · obtain ⟨hsent, huser⟩ := sent_other token gwToken htype job.2
          rw [hsent, List.filterMap_cons_none huser]
          rfl
    rw [rowsOf_cons, usersOf_cons, List.map_append, List.map_append, hjob, hrest]

end Run

/-- **The log of the backend says who has been let in.** -/
theorem auditTrail_run (token : ApiToken) (logToGateway : Bool) (gwToken : Bytes)
    (turns : List AuditTurn) : AuditTrail token logToGateway gwToken turns := by
  have hstate : (run token logToGateway gwToken turns).logger.state = rowsOf token gwToken
      (jobs token logToGateway gwToken turns) := by
    rw [logger_run, Worker.state_collect]
    rfl
  have hentries : ∀ job ∈ jobs token logToGateway gwToken turns, ∀ item ∈ job.1,
      IsEntry item := by
    rintro ⟨item?, posting⟩ hjob item rfl
    exact isEntry_of_put item (Worker.mem_of_mem_jobs _ _ _ hjob)
  -- what has been taken and what is left are the entries
  have hall : ∃ left, usersOf (jobs token logToGateway gwToken turns) ++ left =
        (if logToGateway then (entries token turns).map Int.ofNat else []) ∧
      ((run token logToGateway gwToken turns).logger.pending = [] → left = []) := by
    have htaken := Worker.taken_append_pending (Worker.collect (sent token gwToken)) ⟨[], []⟩
      (emitted (step token logToGateway gwToken) (queueTurns token logToGateway) {} turns)
    rw [← logger_run, List.nil_append] at htaken
    refine ⟨(run token logToGateway gwToken turns).logger.pending.filterMap itemUser, ?_, ?_⟩
    · rw [← users_puts gwToken, ← htaken, List.filterMap_append]
      rfl
    · intro hworked
      rw [hworked]
      rfl
  have hnumbers : ∀ users : List Nat,
      (users.map Int.ofNat).map (fun userId => some userId.toNat) = users.map some := by
    intro users
    rw [List.map_map]
    rfl
  obtain ⟨left, hleft, hworked⟩ := hall
  constructor
  case opens =>
    intro before turn stamp after _ deadline cardId hgrant
    cases turn with
    | update db current now => exact absurd hgrant List.not_mem_nil
    | query reply => exact absurd hgrant List.not_mem_nil
    | iterate i db current now =>
      rw [Gate.doorEvents.eq_def] at hgrant
      dsimp only at hgrant
      rw [Gate.granted]
      split at hgrant
      · exact absurd hgrant List.not_mem_nil
      next hrunning =>
        rw [if_neg hrunning]
        split at hgrant
        · exact absurd hgrant List.not_mem_nil
        next answer hask =>
          cases answer with
          | none =>
            -- the card is not looked up, and opens nothing
            have hchecks := Controller.checksCard_of_grant hgrant
            have hchecks' : (run token logToGateway gwToken before).gate.controller.ChecksCard i :=
              hchecks
            rw [Gate.ask, if_pos hchecks'] at hask
            obtain ⟨answer, -, heq⟩ := Option.map_eq_some_iff.mp hask
            cases heq
          | some answer =>
            obtain ⟨result, cache'⟩ := answer
            obtain ⟨⟨-, -, haccess⟩, -⟩ := Controller.authorised_of_mem _ hgrant
            have hallowed : result.access = .allowed := haccess
            rw [Gate.ask] at hask
            split at hask
            next hchecks =>
              obtain ⟨answer, hanswer, heq⟩ := Option.map_eq_some_iff.mp hask
              cases heq
              rw [if_pos hchecks]
              exact loggedUser_of_allowed hanswer hallowed
            next => cases hask
  case owner =>
    intro before i db current now stamp after _ userId hgranted
    rw [gate_run] at hgranted
    have hcache := cacheSeen_run token (gateTurns before)
    rw [Gate.granted] at hgranted
    split at hgranted
    · cases hgranted
    split at hgranted
    · obtain ⟨info, huser, hfresh, hinfo⟩ :=
        owner_of_loggedUser (getIdFromString_lt _) (Option.mem_def.mp hgranted)
      refine ⟨info, huser, hfresh, ?_⟩
      rcases hinfo with hentry | ⟨htime, howns⟩
      · exact (hcache _ info hentry).mono _
      · refine ⟨_, List.mem_append_right _ List.mem_cons_self, db, ?_, howns⟩
        rw [htime]
        rfl
    · cases hgranted
  case rows =>
    obtain ⟨hsub, hmessage⟩ := rowsOf_sublist token gwToken hentries
    rw [hstate]
    refine ⟨hsub.trans ?_, hmessage⟩
    have htaken := (List.sublist_append_left (usersOf (jobs token logToGateway gwToken turns))
      left).map fun userId : Int => some userId.toNat
    rw [hleft] at htaken
    refine htaken.trans ?_
    cases logToGateway with
    | false => exact List.nil_sublist _
    | true =>
      rw [if_pos rfl, hnumbers]
  case complete =>
    intro hlog hknows hpending
    subst hlog
    rw [hworked hpending, List.append_nil, if_pos rfl] at hleft
    rw [hstate, rowsOf_eq (entries token turns) hentries ?_ ?_, hleft, hnumbers]
    · rintro ⟨item?, posting⟩ hjob
      have hwork := Worker.work_mem_of_mem_jobs _ _ _ hjob
      have hposting : ∀ t ∈ emitted (step token true gwToken) (queueTurns token true) {} turns,
          ∀ posting, t = .work posting → posting.Knows token (entries token turns) := by
        rw [forall_emitted_iff]
        refine (along_of_forall (P := fun turn => turn ∈ turns) _ fun _ h => h).imp ?_
        rintro a turn hturn t ht posting rfl
        cases turn with
        | gate turn stamp =>
          obtain ⟨item, -, heq⟩ := List.mem_map.mp ht
          cases heq
        | other item h => cases List.mem_singleton.mp ht
        | logger posting' =>
          cases List.mem_singleton.mp ht
          exact hknows posting hturn
      exact hposting _ hwork posting rfl
    · intro userId hmem
      rw [hleft] at hmem
      obtain ⟨userId', hmem', heq⟩ := List.mem_map.mp hmem
      rw [← Int.ofNat.inj heq]
      exact hmem'

end Audit

end Acs.Opi
