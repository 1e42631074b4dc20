/-
  Acs/Backend/Auth.lean
  =====================
  **Which machine a request is judged for** (`acs/auth.py`, the class attributes
  of `Machine`, `logs/api_views.py`).

  The authenticators write the machine of a request to two class attributes,
  which all requests of a process share, and the view reads them.  All views let
  everyone in.  A request without a token is answered for no machine, from what
  the Member table shows to anyone.  When requests take turns, a view reads what
  the last authentication has written.
-/
import Acs.Backend.ApiViews
import Acs.Lib.Effects
import Mathlib.Data.List.Induction

namespace Acs.Backend

open Effects

/-! ### Authentication -/

/-- `Machine.current_token` and `Machine.current_id`. -/
structure Current where
  token : Option String
  id : Option Nat
deriving DecidableEq

inductive AuthError where
  | authenticationFailed (detail : String)
  | noAdministrator
  | multipleObjectsReturned
deriving DecidableEq

/-- What a log entry is sent with; a missing key is `none`. -/
structure LogData where
  userId : Option Nat
  message : Option String

inductive View where
  | permission (request : Request)
  | log (data : LogData)

/-- `request.data.get('api_token')`, the header `Authorization`, and the view that
    the path leads to. -/
structure ApiRequest where
  apiToken : Option String
  authorization : Option String
  view : View

/-- An authenticator gives the user, or `none` for the next one to try. -/
abbrev Authenticator := EStateM AuthError Current (Option Member)

/-- What the two authenticators do with a token. -/
def authenticateToken (db : Database) (token : String) : Authenticator :=
  match Table.get (fun m => m.apitoken == token) db.machines with
  | .error .doesNotExist => throw (.authenticationFailed "No such token")
  | .error .multipleObjectsReturned => throw .multipleObjectsReturned
  | .ok m => do
    set ({ token := some m.apitoken, id := some m.id } : Current)
    match Table.get (fun user => user.username == "administrator") db.members with
    | .error .doesNotExist => throw .noAdministrator
    | .error .multipleObjectsReturned => throw .multipleObjectsReturned
    | .ok user => return some user

/-- The token in the body; an empty one counts as none. -/
def ApiRequest.bodyToken (r : ApiRequest) : Option String :=
  match r.apiToken with
  | none => none
  | some token => if token = "" then none else some token

/-- The token in the header. -/
def ApiRequest.headerToken (r : ApiRequest) : Option String :=
  match r.authorization with
  | none => none
  | some auth =>
      if auth.toList.take 6 ≠ "Token ".toList then none
      else some (.ofList (auth.toList.drop 6))

/-- Both authenticators reset the attributes before they look for their token. -/
def tokenAuthenticate (db : Database) (token : Option String) : Authenticator := do
  set ({ token := none, id := none } : Current)
  match token with
  | none => return none
  | some token => authenticateToken db token

/-- `BodyTokenAuthentication.authenticate`. -/
def bodyTokenAuthenticate (db : Database) (r : ApiRequest) : Authenticator :=
  tokenAuthenticate db r.bodyToken

/-- `HeaderTokenAuthentication.authenticate`. -/
def headerTokenAuthenticate (db : Database) (r : ApiRequest) : Authenticator :=
  tokenAuthenticate db r.headerToken

/-- The authenticators in turn; without a user the request is anonymous. -/
def authenticate (db : Database) (r : ApiRequest) : Authenticator := do
  match ← bodyTokenAuthenticate db r with
  | some user => return some user
  | none => headerTokenAuthenticate db r

/-! ### The view -/

structure Log where
  machineId : Nat
  userId : Option Nat
  message : String
deriving DecidableEq

inductive LogError where
  | get (error : Table.GetError)
  | keyError
deriving DecidableEq

/-- The user of `log_list`, when one is named. -/
def logUser (db : Database) : Option Nat → Except LogError (Option Nat)
  | none => .ok none
  | some userId =>
      match Table.get (fun user => user.id == userId) db.members with
      | .error err => .error (.get err)
      | .ok user => .ok (some user.id)

def logList (db : Database) (mId : Option Nat) (data : LogData) : Except LogError Log := do
  let userId ← logUser db data.userId
  match Table.get (fun m => some m.id == mId) db.machines with
  | .error err => throw (.get err)
  | .ok m =>
    match data.message with
    | none => throw .keyError
    | some message => return { machineId := m.id, userId, message }

inductive Reply where
  | refused (error : AuthError)
  | permission (response : Response)
  | log (result : Except LogError Log)

/-- The body of the view, which reads the machine. -/
def serve (db : Database) (mId : Option Nat) : View → Reply
  | .permission request => .permission (respond db mId request)
  | .log data => .log (logList db mId data)

/-! ### What the authentication leaves -/

/-- The machine with the token, if there is one. -/
def machineOfToken (db : Database) (token : String) : Option Nat :=
  match Table.get (fun m => m.apitoken == token) db.machines with
  | .error _ => none
  | .ok m => some m.id

/-- The token that a request presents: that of the body comes first. -/
def ApiRequest.presented (r : ApiRequest) : Option String :=
  match r.bodyToken with
  | some token => some token
  | none => r.headerToken

/-- The machine whose token the request presents. -/
def presentedId (db : Database) (r : ApiRequest) : Option Nat :=
  r.presented.bind (machineOfToken db)

section Authenticate

variable (db : Database)

theorem tokenAuthenticate_none (current : Current) :
    tokenAuthenticate db none current = .ok none ⟨none, none⟩ := rfl

/-- A token is never passed on to the next authenticator. -/
theorem tokenAuthenticate_some (token : String) (current : Current) :
    (∃ user t, tokenAuthenticate db (some token) current = .ok (some user) t ∧
        t.id = machineOfToken db token) ∨
      ∃ err t, tokenAuthenticate db (some token) current = .error err t ∧
        t.id = machineOfToken db token := by
  have hreset : tokenAuthenticate db (some token) current =
      authenticateToken db token ⟨none, none⟩ := rfl
  rw [hreset, machineOfToken]
  unfold authenticateToken
  cases Table.get (fun m => m.apitoken == token) db.machines with
  | error err => cases err <;> exact .inr ⟨_, _, rfl, rfl⟩
  | ok m =>
    dsimp only
    have hset : ∀ next : PUnit → Authenticator,
        ((set ({ token := some m.apitoken, id := some m.id } : Current) >>= next) :
          Authenticator) ⟨none, none⟩ = next ⟨⟩ ⟨some m.apitoken, some m.id⟩ := fun _ => rfl
    rw [hset]
    cases Table.get (fun user => user.username == "administrator") db.members with
    | error err => cases err <;> exact .inr ⟨_, _, rfl, rfl⟩
    | ok user => exact .inl ⟨user, _, rfl, rfl⟩

/-- **Whatever comes of it**, the authentication leaves the machine whose token
    the request presents, and nothing of the request before. -/
theorem authenticate_current (r : ApiRequest) (current : Current) :
    (final (authenticate db r current)).id = presentedId db r := by
  unfold authenticate bodyTokenAuthenticate headerTokenAuthenticate presentedId
    ApiRequest.presented
  cases r.bodyToken with
  | some token =>
    rcases tokenAuthenticate_some db token current with
      ⟨user, t, hok, ht⟩ | ⟨err, t, herror, ht⟩
    · rw [bind_ok hok]
      exact ht
    · rw [bind_error herror]
      exact ht
  | none =>
    rw [bind_ok (tokenAuthenticate_none db current)]
    dsimp only
    cases r.headerToken with
    | none => rfl
    | some token =>
      rcases tokenAuthenticate_some db token ⟨none, none⟩ with
        ⟨user, t, hok, ht⟩ | ⟨err, t, herror, ht⟩
      · rw [hok]
        exact ht
      · rw [herror]
        exact ht

/-- The request carries neither token. -/
def ApiRequest.Tokenless (r : ApiRequest) : Prop := r.bodyToken = none ∧ r.headerToken = none

theorem authenticate_tokenless {r : ApiRequest} (h : r.Tokenless) (current : Current) :
    authenticate db r current = .ok none ⟨none, none⟩ := by
  unfold authenticate bodyTokenAuthenticate headerTokenAuthenticate
  rw [h.1, h.2, bind_ok (tokenAuthenticate_none db current)]
  rfl

end Authenticate

/-! ### Requests one after the other -/

/-- The reply to a request, with the attributes as the one before has left them. -/
def reply (db : Database) (current : Current) (r : ApiRequest) : Reply :=
  match authenticate db r current with
  | .ok _ t => serve db t.id r.view
  | .error err _ => .refused err

def replies (db : Database) (current : Current) (rs : List ApiRequest) : List Reply :=
  Runs.emitted (fun current r => final (authenticate db r current))
    (fun current r => [reply db current r]) current rs

/-- What anyone can see of a member: the card, and for an active one the entry of
    the lists. -/
structure Shown where
  cardId : Option String
  entry : Option (Nat × Option Int × String)
deriving DecidableEq

def shown (user : Member) : Shown where
  cardId := user.cardId
  entry := if user.isActive then some (user.id, user.flIntId, user.name) else none

/-- The reply says of nobody that they are allowed. -/
def Reply.GrantsNothing : Reply → Prop
  | .permission (.permission (.answer allowed _ _ _)) => allowed = false
  | .permission (.v2Entries entries) => entries = []
  | .permission (.v3Entries entries) => ∀ e ∈ entries, e.allowed = false
  | .permission (.v4Entries entries) => ∀ e ∈ entries, e.al = false
  | _ => True

section Tokenless

variable (db : Database)

theorem machineExists_none (user : Member) : machineExists db user none = false := by
  simp [machineExists]

theorem machineFound_none (user : Member) : machineFound db user none = false := by
  rw [machineFound_eq_machineExists, machineExists_none]

/-- The answer for one card, from what is shown. -/
def permissionShown (rows : List Shown) (cardId : Option String) :
    Except Table.GetError Permission :=
  match Table.get (fun row => row.cardId == cardId) rows with
  | .error .doesNotExist => .ok (.denied "Unknown card")
  | .error .multipleObjectsReturned => .error .multipleObjectsReturned
  | .ok row =>
      match row.entry with
      | none => .ok (.denied "Inactive user")
      | some (id, intId, name) => .ok (.answer false id intId name)

theorem getPermission_none (cardId : Option String) :
    getPermission db none cardId = permissionShown (db.members.map shown) cardId := by
  have hget : Table.get (fun row : Shown => row.cardId == cardId) (db.members.map shown) =
      (Table.get (fun user => user.cardId == cardId) db.members).map shown :=
    Table.get_map shown _ db.members
  rw [getPermission, permissionShown, hget]
  cases Table.get (fun user => user.cardId == cardId) db.members with
  | error err => cases err <;> rfl
  | ok user =>
    cases hactive : user.isActive <;>
      simp [Except.map, shown, hactive, machineExists_none]

/-- The entries of the members who are shown and have a card. -/
def listShown {β : Type} (entry : Nat → Option Int → Option String → String → β)
    (rows : List Shown) : List β :=
  rows.filterMap fun row =>
    match row.entry, row.cardId with
    | some (id, intId, name), some cardId =>
        if cardId = "" then none else some (entry id intId (some cardId) name)
    | _, _ => none

theorem filterMap_shown {β : Type} (entry : Nat → Option Int → Option String → String → β) :
    (db.members.filterMap fun user =>
      if !user.isActive then none
      else if !user.hasCard then none
      else some (entry user.id user.flIntId user.cardId user.name)) =
      listShown entry (db.members.map shown) := by
  rw [listShown, List.filterMap_map]
  apply List.filterMap_congr
  intro user _
  rw [Function.comp_apply]
  cases hcard : user.cardId with
  | none => cases hactive : user.isActive <;> simp [shown, hactive, Member.hasCard, hcard]
  | some cardId =>
    by_cases hempty : cardId = "" <;> cases hactive : user.isActive <;>
      simp [shown, hactive, Member.hasCard, hcard, hempty]

theorem machineV2List_none : machineV2List db none = [] := by
  rw [machineV2List, List.filterMap_eq_nil_iff]
  intro user _
  simp [machineFound_none]

theorem machineV3List_none : machineV3List db none =
    listShown (fun id intId cardId name => ⟨id, intId, cardId, name, false⟩)
      (db.members.map shown) := by
  rw [← filterMap_shown, machineV3List]
  simp only [machineFound_none]

theorem machineV4List_none : machineV4List db none =
    listShown (fun id intId cardId name => ⟨id, intId, cardId, name, false⟩)
      (db.members.map shown) := by
  rw [← filterMap_shown, machineV4List]
  simp only [machineFound_none]

/-- A log entry is for a machine. -/
theorem logList_none (data : LogData) :
    logList db none data = .error (.get .doesNotExist) := by
  have hmachine : Table.get (fun m : Machine => some m.id == none) db.machines =
      .error .doesNotExist := by
    simp [Table.get]
  unfold logList
  rw [hmachine]
  cases huser : logUser db data.userId with
  | ok userId => rfl
  | error err =>
    -- the id of a member is never that of two
    have herr : err = .get .doesNotExist := by
      unfold logUser at huser
      cases hid : data.userId with
      | none =>
        rw [hid] at huser
        cases huser
      | some userId =>
        have hget : Table.get (fun user : Member => user.id == userId) db.members = _ :=
          Table.get_key db.memberIds userId
        rw [hid] at huser
        dsimp only at huser
        rw [hget] at huser
        cases hfound : Table.lookup (·.id) db.members userId with
        | none =>
          rw [hfound] at huser
          exact (Except.error.inj huser).symm
        | some user =>
          rw [hfound] at huser
          cases huser
    rw [herr]
    rfl

/-- **Without a machine** a view answers from what is shown. -/
theorem serve_none (db' : Database)
    (hshown : db.members.map shown = db'.members.map shown) (view : View) :
    serve db none view = serve db' none view := by
  cases view with
  | log data => rw [serve, serve, logList_none, logList_none]
  | permission request =>
    have hpermission : ∀ cardId, getPermission db none cardId = getPermission db' none cardId := by
      intro cardId
      rw [getPermission_none, getPermission_none, hshown]
    cases request with
    | v1Post cardId => simp only [serve, respond, machineList, hpermission]
    | v2Get cardId => simp only [serve, respond, machineV2Getperm, hpermission]
    | v2List => simp only [serve, respond, machineV2List_none]
    | v3List => simp only [serve, respond, machineV3List_none, hshown]
    | v4List => simp only [serve, respond, machineV4List_none, hshown]

theorem grantsNothing_ofExcept (cardId : Option String) :
    (Reply.permission (.ofExcept (getPermission db none cardId))).GrantsNothing := by
  rw [getPermission]
  cases Table.get (fun user => user.cardId == cardId) db.members with
  | error err => cases err <;> trivial
  | ok user =>
    cases hactive : user.isActive with
    | false => simp [hactive, Response.ofExcept, Reply.GrantsNothing]
    | true =>
      simp [hactive, machineExists_none, Response.ofExcept, Reply.GrantsNothing]

theorem serve_none_grantsNothing (view : View) : (serve db none view).GrantsNothing := by
  cases view with
  | log data => trivial
  | permission request =>
    cases request with
    | v1Post cardId => exact grantsNothing_ofExcept db cardId
    | v2Get cardId => exact grantsNothing_ofExcept db (some cardId.1)
    | v2List => exact machineV2List_none db
    | v3List =>
      intro e he
      obtain ⟨user, _, _, _, rfl⟩ := mem_machineV3List.mp he
      exact machineExists_none db user
    | v4List =>
      intro e he
      obtain ⟨user, _, _, _, rfl⟩ := mem_machineV4List.mp he
      exact machineExists_none db user

theorem replies_tokenless {rs : List ApiRequest} (h : ∀ r ∈ rs, r.Tokenless)
    (current : Current) : replies db current rs = rs.map fun r => serve db none r.view := by
  unfold replies
  induction rs generalizing current with
  | nil => rfl
  | cons r rs ih =>
    rw [List.forall_mem_cons] at h
    have hfirst : reply db current r = serve db none r.view := by
      rw [reply, authenticate_tokenless db h.1]
    rw [Runs.emitted_cons, ih h.2, hfirst]
    rfl

/-- **What requests without a token learn**: whatever has happened before, they
    get the same replies from two databases that show the same of their members,
    and no reply says of anyone that they are allowed; the list of version 2 is
    empty. -/
theorem tokenless_replies {rs : List ApiRequest} (h : ∀ r ∈ rs, r.Tokenless)
    (db' : Database) (current current' : Current) :
    (db.members.map shown = db'.members.map shown →
      replies db current rs = replies db' current' rs) ∧
    ∀ reply ∈ replies db current rs, reply.GrantsNothing := by
  rw [replies_tokenless db h, replies_tokenless db' h]
  constructor
  · intro hshown
    apply List.map_congr_left
    intro r _
    exact serve_none db db' hshown r.view
  · intro reply hreply
    obtain ⟨r, _, rfl⟩ := List.mem_map.mp hreply
    exact serve_none_grantsNothing db r.view

end Tokenless

def tokenlessRequest (request : Request) : ApiRequest where
  apiToken := none
  authorization := none
  view := .permission request

/-- The same members without their machines. -/
def unlinkedDatabase : Database where
  machines := sampleDatabase.machines
  members := sampleDatabase.members
  memberMachines := []
  machineIds := by decide
  memberIds := by decide
  links := by decide

theorem tokenless_replies_sample :
    replies sampleDatabase ⟨none, some 1⟩ [tokenlessRequest .v3List] =
      replies unlinkedDatabase ⟨none, none⟩ [tokenlessRequest .v3List] := by
  have htokenless : ∀ r ∈ [tokenlessRequest .v3List], r.Tokenless := by
    intro r hr
    rw [List.mem_singleton.mp hr]
    exact ⟨rfl, rfl⟩
  exact (tokenless_replies sampleDatabase htokenless unlinkedDatabase _ _).1 rfl

/-- The list of version 3 gives the members to anyone. -/
theorem not_tokenless_learns_nothing :
    ¬ ∀ (db db' : Database) (current : Current) (rs : List ApiRequest),
      db.machines = db'.machines → db.memberMachines = db'.memberMachines →
      (∀ r ∈ rs, r.Tokenless) → replies db current rs = replies db' current rs := by
  intro h
  have hsame := h unlinkedDatabase
    ⟨unlinkedDatabase.machines, [], [], by decide, by decide, by decide⟩ ⟨none, none⟩
    [tokenlessRequest .v3List] rfl rfl (by
      intro r hr
      rw [List.mem_singleton.mp hr]
      exact ⟨rfl, rfl⟩)
  have hlist := congrArg (fun rs => rs.map fun
    | .permission (.v3Entries entries) => entries.length
    | _ => 0) hsame
  exact absurd hlist (by decide)

/-! ### Requests that take turns -/

/-- The two steps of a request. -/
inductive Turn (ι : Type) where
  | authenticate (i : ι)
  | view (i : ι)
deriving DecidableEq

section Turns

variable {ι : Type} (db : Database) (requests : ι → ApiRequest)

/-- What a step of a request does to the attributes of the process. -/
def turn (current : Current) : Turn ι → Current
  | .authenticate i => final (authenticate db (requests i) current)
  | .view _ => current

/-- The machine for which a view is run after these steps. -/
def machineAt (current : Current) (turns : List (Turn ι)) : Option Nat :=
  (Runs.exec (turn db requests) current turns).id

/-- The request that was authenticated last. -/
def lastAuthenticated (turns : List (Turn ι)) : Option ι :=
  turns.foldl (fun last turn =>
    match turn with
    | .authenticate i => some i
    | .view _ => last) none

/-- Each view is run after the authentication of its request, which lets it in. -/
def Interleaving (turns : List (Turn ι)) : Prop :=
  ∀ pre i post, turns = pre ++ .view i :: post → .authenticate i ∈ pre ∧
    ∃ user t, authenticate db (requests i) ⟨none, none⟩ = .ok user t

theorem lastAuthenticated_snoc (turns : List (Turn ι)) (t : Turn ι) :
    lastAuthenticated (turns ++ [t]) =
      match t with
      | .authenticate i => some i
      | .view _ => lastAuthenticated turns := by
  rw [lastAuthenticated, List.foldl_append]
  cases t <;> rfl

theorem lastAuthenticated_isSome {turns : List (Turn ι)} {i : ι}
    (h : Turn.authenticate i ∈ turns) : ∃ j, lastAuthenticated turns = some j := by
  induction turns using List.reverseRecOn with
  | nil => cases h
  | append_singleton turns t ih =>
    rw [lastAuthenticated_snoc]
    cases t with
    | authenticate j => exact ⟨j, rfl⟩
    | view j =>
      apply ih
      simpa using h

/-- The attributes are those of the request that was authenticated last. -/
theorem machineAt_eq {turns : List (Turn ι)} {j : ι} (current : Current)
    (h : lastAuthenticated turns = some j) :
    machineAt db requests current turns = presentedId db (requests j) := by
  unfold machineAt
  induction turns using List.reverseRecOn with
  | nil => cases h
  | append_singleton turns t ih =>
    rw [lastAuthenticated_snoc] at h
    rw [Runs.exec_snoc]
    cases t with
    | authenticate i =>
      obtain rfl := Option.some.inj h
      exact authenticate_current db (requests i) _
    | view i => exact ih h

/-- **When requests are judged for their own machines**: in an interleaving every
    view is, exactly when the last request to be authenticated before each view
    presents the same machine as the request of the view. -/
theorem judged_iff {turns : List (Turn ι)} (hturns : Interleaving db requests turns)
    (current : Current) :
    (∀ pre i post, turns = pre ++ .view i :: post →
      machineAt db requests current pre = presentedId db (requests i)) ↔
    ∀ pre i post, turns = pre ++ .view i :: post → ∀ j, lastAuthenticated pre = some j →
      presentedId db (requests j) = presentedId db (requests i) := by
  constructor
  · intro hjudged pre i post hsplit j hj
    rw [← machineAt_eq db requests current hj]
    exact hjudged pre i post hsplit
  · intro hlast pre i post hsplit
    obtain ⟨j, hj⟩ := lastAuthenticated_isSome (hturns pre i post hsplit).1
    rw [machineAt_eq db requests current hj]
    exact hlast pre i post hsplit j hj

end Turns

def twoMachines : Database where
  machines := [⟨1, "main", "alpha"⟩, ⟨2, "woodshop", "beta"⟩]
  members := [⟨1, "administrator", "", "", true, none, none, none⟩]
  memberMachines := []
  machineIds := by decide
  memberIds := by decide
  links := by decide

/-- The requests of the two machines. -/
def twoRequests (second : Bool) : ApiRequest where
  apiToken := some (if second then "beta" else "alpha")
  authorization := none
  view := .permission .v4List

/-- The second request is authenticated before the view of the first is run. -/
def overtaken : List (Turn Bool) := [.authenticate false, .authenticate true, .view false]

theorem overtaken_interleaving : Interleaving twoMachines twoRequests overtaken := by
  intro pre i post hsplit
  rcases pre with _ | ⟨a, _ | ⟨b, _ | ⟨c, pre⟩⟩⟩ <;> simp [overtaken] at hsplit
  obtain ⟨rfl, rfl, rfl, rfl⟩ := hsplit
  exact ⟨by simp, _, _, rfl⟩

theorem judged_iff_sample :
    machineAt twoMachines twoRequests ⟨none, none⟩ [.authenticate true, .authenticate false] =
      presentedId twoMachines (twoRequests false) := by
  have hturns : Interleaving twoMachines twoRequests
      [.authenticate true, .authenticate false, .view false] := by
    intro pre i post hsplit
    rcases pre with _ | ⟨a, _ | ⟨b, _ | ⟨c, pre⟩⟩⟩ <;> simp at hsplit
    obtain ⟨rfl, rfl, rfl, rfl⟩ := hsplit
    exact ⟨by simp, _, _, rfl⟩
  refine (judged_iff twoMachines twoRequests hturns ⟨none, none⟩).mpr ?_ _ false [] rfl
  intro pre i post hsplit j hj
  rcases pre with _ | ⟨a, _ | ⟨b, _ | ⟨c, pre⟩⟩⟩ <;> simp at hsplit
  obtain ⟨rfl, rfl, rfl, rfl⟩ := hsplit
  obtain rfl := Option.some.inj hj
  rfl

/-- The view of the first request is run for the machine of the second. -/
theorem not_judged :
    ¬ ∀ (ι : Type) (db : Database) (requests : ι → ApiRequest) (turns : List (Turn ι))
        (current : Current), Interleaving db requests turns →
      ∀ pre i post, turns = pre ++ .view i :: post →
        machineAt db requests current pre = presentedId db (requests i) := by
  intro h
  have hsame := h Bool twoMachines twoRequests overtaken ⟨none, none⟩ overtaken_interleaving
    [.authenticate false, .authenticate true] false [] rfl
  exact absurd hsame (by decide)

end Acs.Backend
