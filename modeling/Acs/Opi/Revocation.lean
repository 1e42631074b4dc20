/-
  Acs/Opi/Revocation.lean
  =======================
  **How long a card opens the door after it has been revoked.**

  The controller asks the card cache, and the cache the backend, whose tables
  change in the meantime.  A thread fills the cache from a list every minute, if
  the backend answers.  Whatever the order of the turns, a card that opens the
  door has been allowed less than `MAX_CACHE_AGE` ago, by the list or by the
  answer to a question; and a card that is allowed now opens a locked door if
  the backend finds it (`gateFollows_run`).

  A turn reads the tables and stamps the entry of the cache at one instant.  The
  code takes the stamp when it has the reply, up to five seconds after the tables
  have been read, and the age is counted from there.  The backend answers the
  question of `has_access` here; a request that fails gives `Error` in the code,
  and changes neither the cache nor the door.
-/
import Acs.Opi.Services

namespace Acs.Opi

open Acs Acs.Backend Runs

/-! ### What the cache and its answers rest on -/

/-- The text of the member's card has this number. -/
def Carries (user : Member) (id : CardId) : Prop :=
  ∃ card, user.cardId = some card ∧ getIdFromString (str card) = id

/-- The tables admit a member with the card. -/
def AllowedFor (db : Database) (token : ApiToken) (id : CardId) (intId : Int) : Prop :=
  ∃ user ∈ db.members, Carries user id ∧ Admitted db token user intId

theorem getIdFromString_lt (s : Bytes) : getIdFromString s < 2 ^ 64 := by
  have hstored : ∀ negative v, Hex.stored negative v < 2 ^ 64 := by
    intro negative v
    rw [Hex.stored]
    split
    · decide
    split
    · exact Nat.mod_lt _ (by decide)
    · omega
  exact hstored _ _

theorem carries_of_askedText {user : Member} {id : CardId} (hid : id < 2 ^ 64)
    (h : user.cardId = some (askedText id)) : Carries user id := by
  refine ⟨_, h, ?_⟩
  rw [str_askedText]
  exact Hex.extract_padSpace 10 hid

/-- An entry for the card is that of an admitted member who carries it. -/
def Owns (db : Database) (token : ApiToken) (id : CardId) (info : UserInfo) : Prop :=
  ∃ user ∈ db.members, user.id = info.userId ∧ Carries user id ∧
    Admitted db token user info.userIntId

theorem Owns.allowedFor {db : Database} {token : ApiToken} {id : CardId} {info : UserInfo}
    (h : Owns db token id info) : AllowedFor db token id info.userIntId := by
  obtain ⟨user, hmem, -, hcard, hadmitted⟩ := h
  exact ⟨user, hmem, hcard, hadmitted⟩

section Cache

variable {db : Database} {current : Current} {token : ApiToken} {cache : Cache} {now : Int}

/-- An entry is an old one, or that of a member who is admitted now. -/
theorem updateCache_entry {id : CardId} {info : UserInfo}
    (h : (updateCache db current token now cache)[id]? = some info) :
    cache[id]? = some info ∨ (info.lastUpdate = now ∧ Owns db token id info) := by
  rw [updateCache, reply_listRequest] at h
  cases hlogin : login db token with
  | error err =>
    rw [hlogin] at h
    exact .inl h
  | ok mId =>
    rw [hlogin] at h
    dsimp only [listed] at h
    rw [Listing.getElem?_foldl_store, Std.TreeMap.getElem?_emptyc, Option.or_none] at h
    obtain ⟨elem, helem, hentry⟩ := Listing.exists_of_latest h
    obtain ⟨user, huser, hactive, hexists, rfl⟩ := mem_machineV2List.mp helem
    obtain ⟨card, intId, hcard, hint, hid, rfl⟩ := (cacheEntry_eq_some_iff now).mp hentry
    exact .inr ⟨rfl, user, huser, rfl, ⟨card, hcard, hid⟩, mId, hlogin, hactive, hexists, hint⟩

/-- The answer names a user only with one that allows the card, and it is that of
    the member who is found. -/
theorem readAnswer_user (now : Int) {id : CardId} (hid : id < 2 ^ 64) {result : Result} {userId : Nat}
    {intId : Int}
    (h : readAnswer (reply db current (permissionRequest token id)) =
      some (result, some (userId, intId))) :
    result = ⟨.allowed, intId⟩ ∧ Owns db token id ⟨userId, intId, now⟩ := by
  rw [reply_permissionRequest] at h
  cases hlogin : login db token with
  | error err =>
    rw [hlogin] at h
    cases h
  | ok mId =>
    rw [hlogin] at h
    dsimp only at h
    cases hanswer : machineList db mId (some (askedText id)) with
    | error err =>
      rw [hanswer] at h
      cases h
    | ok permission =>
      rw [hanswer, Response.ofExcept] at h
      rw [readAnswer.eq_def] at h
      split at h <;> cases h
      next name hpermission =>
        cases hpermission
        obtain ⟨user, hget, hactive, hexists, huser, hint, -⟩ := getPermission_answer_iff.mp hanswer
        obtain ⟨hmem, hcard⟩ := Table.mem_of_get hget
        exact ⟨rfl, user, hmem, huser, carries_of_askedText hid (beq_iff_eq.mp hcard), mId, hlogin,
          hactive, hexists, hint⟩

/-- There is a user with every answer that allows the card. -/
theorem readAnswer_allowed {reply : Reply} {result : Result} {user : Option (Nat × Int)}
    (h : readAnswer reply = some (result, user)) (hallowed : result.access = .allowed) :
    ∃ userId intId, user = some (userId, intId) := by
  rw [readAnswer.eq_def] at h
  split at h <;> cases h
  · cases hallowed
  · cases hallowed
  · exact ⟨_, _, rfl⟩
  · cases hallowed

/-- What `has_access` says, and what it leaves in the cache. -/
structure Answered (db : Database) (token : ApiToken) (cache : Cache) (now : Int) (id : CardId)
    (result : Result) (cache' : Cache) : Prop where
  entry : ∀ id' info, cache'[id']? = some info → cache[id']? = some info ∨
    (info.lastUpdate = now ∧ Owns db token id' info)
  allowed : result.access = .allowed →
    (∃ info, cache[id]? = some info ∧ now - info.lastUpdate < maxCacheAge) ∨
      AllowedFor db token id result.userId

theorem askBackend_spec {id : CardId} (hid : id < 2 ^ 64) {result : Result} {cache' : Cache}
    (h : askBackend db current token cache now id = some (result, cache')) :
    Answered db token cache now id result cache' := by
  rw [askBackend] at h
  split at h
  · cases h
  next hanswer =>
    cases h
    refine ⟨fun _ _ hentry => .inl hentry, fun hallowed => ?_⟩
    obtain ⟨userId, intId, heq⟩ := readAnswer_allowed hanswer hallowed
    cases heq
  next userId intId hanswer =>
    cases h
    obtain ⟨hresult, howns⟩ := readAnswer_user now hid hanswer
    refine ⟨?_, fun _ => .inr ?_⟩
    · intro id' info hentry
      rw [Std.TreeMap.getElem?_insert] at hentry
      split at hentry
      next heq =>
        cases hentry
        rw [← Std.LawfulEqCmp.eq_of_compare heq]
        exact .inr ⟨rfl, howns⟩
      next => exact .inl hentry
    · rw [hresult]
      exact howns.allowedFor

theorem hasAccess_spec {id : CardId} (hid : id < 2 ^ 64) {result : Result} {cache' : Cache}
    (h : hasAccess db current token cache now id = some (result, cache')) :
    Answered db token cache now id result cache' := by
  rw [hasAccess] at h
  split at h
  next info hentry =>
    split at h
    next hfresh =>
      cases h
      exact ⟨fun _ _ hold => .inl hold, fun _ => .inl ⟨info, hentry, hfresh⟩⟩
    next => exact askBackend_spec hid h
  next => exact askBackend_spec hid h

/-- A member who is admitted, and whom the backend finds by the text that it is
    asked for, is allowed: from a fresh entry or by the answer. -/
theorem hasAccess_of_admitted (current : Current) (cache : Cache) (now : Int) {id : CardId}
    {user : Member} {intId : Int}
    (hget : Table.get (fun user => user.cardId == some (askedText id)) db.members = .ok user)
    (hadmitted : Admitted db token user intId) :
    ∃ result cache', hasAccess db current token cache now id = some (result, cache') ∧
      result.access = .allowed := by
  have hask : ∃ result cache', askBackend db current token cache now id = some (result, cache') ∧
      result.access = .allowed := by
    have honline := askBackend_result db current token cache now id
    rw [(readAnswer_allowed_iff db current token id intId).mpr ⟨user, hget, hadmitted⟩] at honline
    obtain ⟨⟨result, cache'⟩, hresult, heq⟩ := Option.map_eq_some_iff.mp honline
    exact ⟨result, cache', hresult, congrArg Result.access heq⟩
  rw [hasAccess]
  split
  · split
    · exact ⟨_, _, rfl, rfl⟩
    · exact hask
  · exact hask

end Cache

/-! ### The frontend and its cache -/

/-- The members of the frontend here; `crashed` is set where an exception of
    `has_access` ends the program. -/
structure Gate where
  cache : Cache := ∅
  controller : Controller := {}
  crashed : Bool := false

/-- A pass of `update_cache`, a query of the gateway, or an iteration of the
    controller, each with the tables of the backend at that time. -/
inductive GateTurn where
  | update (db : Database) (current : Current) (now : Int)
  | query (reply : Option Bytes)
  | iterate (i : Input) (db : Database) (current : Current) (now : Int)

namespace Gate

variable (token : ApiToken)

/-- The answer of `has_access` in an iteration; the outer `none` is its exception,
    the inner one an iteration that does not ask. -/
def ask (g : Gate) (i : Input) (db : Database) (current : Current) (now : Int) :
    Option (Option (Result × Cache)) :=
  if g.controller.ChecksCard i then
    (hasAccess db current token g.cache now (getIdFromString i.cardId)).map some
  else some none

/-- The iteration as the controller sees it. -/
def answered (i : Input) : Option (Result × Cache) → Input
  | some (result, _) => { i with access := result }
  | none => i

def step (g : Gate) (turn : GateTurn) : Gate :=
  if g.crashed then g
  else
    match turn with
    | .update db current now => { g with cache := updateCache db current token now g.cache }
    | .query reply => { g with controller := Opi.step g.controller (.query reply) }
    | .iterate i db current now =>
      match g.ask token i db current now with
      | none => { g with crashed := true }
      | some answer =>
        { g with
          cache := (answer.map (·.2)).getD g.cache
          controller := g.controller.iterate (answered i answer) }

def run (turns : List GateTurn) : Gate := exec (step token) {} turns

/-- What the turn is to the door. -/
def doorEvents (g : Gate) : GateTurn → List (TimedDoor.Event Int Controller.Authority)
  | .iterate i db current now =>
    if g.crashed then []
    else
      match g.ask token i db current now with
      | none => []
      | some answer => g.controller.doorEvents (answered i answer)
  | _ => []

end Gate

/-- The tables that the turn reads, and when. -/
def GateTurn.moment : GateTurn → Option (Int × Database)
  | .update db _ now => some (now, db)
  | .query _ => none
  | .iterate _ db _ now => some (now, db)

/-- At this time the tables have admitted a member with the card. -/
def Seen (token : ApiToken) (turns : List GateTurn) (id : CardId) (time : Int) : Prop :=
  ∃ turn ∈ turns, ∃ db intId, turn.moment = some (time, db) ∧ AllowedFor db token id intId

theorem Seen.mono {token : ApiToken} {turns : List GateTurn} {id : CardId} {time : Int}
    (h : Seen token turns id time) (more : List GateTurn) : Seen token (turns ++ more) id time := by
  obtain ⟨turn, hturn, hseen⟩ := h
  exact ⟨turn, List.mem_append_left more hturn, hseen⟩

theorem Seen.last {token : ApiToken} {turns : List GateTurn} {turn : GateTurn} {id : CardId}
    {time : Int} {db : Database} {intId : Int} (hmoment : turn.moment = some (time, db))
    (h : AllowedFor db token id intId) : Seen token (turns ++ [turn]) id time :=
  ⟨turn, List.mem_append_right turns (List.mem_singleton_self turn), db, intId, hmoment, h⟩

/-- At the time of the entry the tables have admitted its member with the card. -/
def SeenOwner (token : ApiToken) (turns : List GateTurn) (id : CardId) (info : UserInfo) : Prop :=
  ∃ turn ∈ turns, ∃ db, turn.moment = some (info.lastUpdate, db) ∧ Owns db token id info

theorem SeenOwner.mono {token : ApiToken} {turns : List GateTurn} {id : CardId} {info : UserInfo}
    (h : SeenOwner token turns id info) (more : List GateTurn) :
    SeenOwner token (turns ++ more) id info := by
  obtain ⟨turn, hturn, hseen⟩ := h
  exact ⟨turn, List.mem_append_left more hturn, hseen⟩

theorem SeenOwner.seen {token : ApiToken} {turns : List GateTurn} {id : CardId} {info : UserInfo}
    (h : SeenOwner token turns id info) : Seen token turns id info.lastUpdate := by
  obtain ⟨turn, hturn, db, hmoment, howns⟩ := h
  exact ⟨turn, hturn, db, info.userIntId, hmoment, howns.allowedFor⟩

/-- Every entry of the cache has been seen when it says. -/
def CacheSeen (token : ApiToken) (turns : List GateTurn) (cache : Cache) : Prop :=
  ∀ id info, cache[id]? = some info → SeenOwner token turns id info

section Step

variable {token : ApiToken} {turns : List GateTurn} {g : Gate} {turn : GateTurn}

theorem CacheSeen.entry {cache cache' : Cache} {time : Int} {db : Database}
    (h : CacheSeen token turns cache) (hmoment : turn.moment = some (time, db))
    (hentry : ∀ id info, cache'[id]? = some info → cache[id]? = some info ∨
      (info.lastUpdate = time ∧ Owns db token id info)) :
    CacheSeen token (turns ++ [turn]) cache' := by
  intro id info hinfo
  rcases hentry id info hinfo with hold | ⟨htime, howns⟩
  · exact (h id info hold).mono [turn]
  · rw [← htime] at hmoment
    exact ⟨turn, List.mem_append_right turns List.mem_cons_self, db, hmoment, howns⟩

/-- What an answer in the iteration rests on. -/
theorem answered_of_ask {i : Input} {db : Database} {current : Current} {now : Int}
    {result : Result} {cache' : Cache}
    (h : g.ask token i db current now = some (some (result, cache'))) :
    g.controller.ChecksCard i ∧
      Answered db token g.cache now (getIdFromString i.cardId) result cache' := by
  rw [Gate.ask] at h
  split at h
  next hchecks =>
    obtain ⟨answer, hanswer, heq⟩ := Option.map_eq_some_iff.mp h
    cases heq
    exact ⟨hchecks, hasAccess_spec (getIdFromString_lt _) hanswer⟩
  next => cases h

theorem CacheSeen.step (h : CacheSeen token turns g.cache) :
    CacheSeen token (turns ++ [turn]) (Gate.step token g turn).cache := by
  have hsame : CacheSeen token (turns ++ [turn]) g.cache := fun id info hinfo =>
    (h id info hinfo).mono [turn]
  rw [Gate.step.eq_def]
  split
  · exact hsame
  cases turn with
  | update db current now => exact h.entry rfl fun _ _ => updateCache_entry
  | query reply => exact hsame
  | iterate i db current now =>
    dsimp only
    split
    · exact hsame
    next answer hask =>
      match answer, hask with
      | none, _ => exact hsame
      | some (result, cache'), hask => exact h.entry rfl (answered_of_ask hask).2.entry

theorem cacheSeen_run (token : ApiToken) (turns : List GateTurn) :
    CacheSeen token turns (Gate.run token turns).cache := by
  induction turns using List.reverseRecOn with
  | nil =>
    intro id info hinfo
    have hnone : (∅ : Cache)[id]? = some info := hinfo
    rw [Std.TreeMap.getElem?_emptyc] at hnone
    cases hnone
  | append_singleton turns turn ih =>
    rw [Gate.run, exec_snoc]
    exact ih.step

end Step

/-! ### Cards and grants -/

namespace Controller

/-- A card opens the door only where it is looked up. -/
theorem checksCard_of_grant {c : Controller} {i : Input} {deadline : Int} {cardId : Bytes}
    (h : .grant deadline (.card cardId) ∈ c.doorEvents i) : c.ChecksCard i := by
  have hleave : .grant deadline (.card cardId) ∉ leaveEvents i := by
    rw [leaveEvents]
    split <;> simp
  rw [doorEvents] at h
  split at h
  · exact absurd h List.not_mem_nil
  next hlocked =>
    have hmem : .grant deadline (.card cardId) ∈ lockedEvents i := by
      rcases List.mem_cons.mp h with heq | hmem
      · cases heq
      · exact hmem
    rw [lockedEvents] at hmem
    split at hmem
    · split at hmem <;> simp at hmem
    next hwhite =>
      split at hmem
      next hread => exact ⟨hread, .inr ⟨hlocked, Bool.eq_false_iff.mpr hwhite⟩⟩
      next => exact absurd hmem hleave
  · split at h <;> simp at h
  · rcases List.mem_append.mp h with hmem | hmem
    · split at hmem
      · rw [remoteEvents] at hmem
        split at hmem
        · split at hmem <;> simp at hmem
        · simp at hmem
      · rw [timedEvents] at hmem
        split at hmem
        · simp at hmem
        · split at hmem <;> simp at hmem
    · exact absurd hmem hleave

/-- An allowed card at a locked door. -/
theorem card_granted {c : Controller} {i : Input} {result : Result}
    (hlocked : (c.foundView i).state = .locked) (hwhite : i.pressed.white = false)
    (hread : i.cardId ≠ []) (hallowed : result.access = .allowed) :
    .grant (i.timeoutTime + enterTime) (.card i.cardId) ∈
      c.doorEvents { i with access := result } := by
  have hstate : (c.foundView { i with access := result }).state = .locked := hlocked
  rw [doorEvents, hstate]
  refine List.mem_cons_of_mem _ ?_
  rw [lockedEvents, if_neg (by rw [hwhite]; exact Bool.false_ne_true), if_pos hread,
    if_pos hallowed]
  exact List.mem_cons_self

end Controller

/-- The number that the card's text spells opens the door only for a member who
    has been admitted less than 15 minutes ago; and it opens a locked one for a
    member whom the backend finds. -/
structure GateFollows (token : ApiToken) (turns : List GateTurn) (i : Input) (db : Database)
    (current : Current) (now : Int) : Prop where
  sound : ∀ deadline cardId,
    .grant deadline (.card cardId) ∈
        (Gate.run token turns).doorEvents token (.iterate i db current now) →
      ∃ time, now - time < maxCacheAge ∧
        Seen token (turns ++ [.iterate i db current now]) (getIdFromString cardId) time
  complete : (Gate.run token turns).crashed = false →
    ((Gate.run token turns).controller.foundView i).state = .locked →
    i.pressed.white = false → i.cardId ≠ [] → 16 ^ 9 ≤ getIdFromString i.cardId →
    ∀ user intId, (∀ other ∈ db.members,
        other.cardId = some (cardText (getIdFromString i.cardId)) ↔ other = user) →
      user ∈ db.members → Admitted db token user intId →
        .grant (i.timeoutTime + Controller.enterTime) (.card i.cardId) ∈
          (Gate.run token turns).doorEvents token (.iterate i db current now)

/-- **A revoked card** opens the door for less than 15 minutes. -/
theorem gateFollows_run (token : ApiToken) (turns : List GateTurn) (i : Input) (db : Database)
    (current : Current) (now : Int) : GateFollows token turns i db current now := by
  have hcache := cacheSeen_run token turns
  constructor
  case sound =>
    intro deadline cardId h
    rw [Gate.doorEvents.eq_def] at h
    dsimp only at h
    split at h
    · cases h
    split at h
    · cases h
    next answer hask =>
      match answer, hask, h with
      | none, hask, h =>
        -- the card is not looked up, and opens nothing
        have hchecks : (Gate.run token turns).controller.ChecksCard i :=
          Controller.checksCard_of_grant h
        rw [Gate.ask, if_pos hchecks] at hask
        obtain ⟨answer, -, heq⟩ := Option.map_eq_some_iff.mp hask
        cases heq
      | some (result, cache'), hask, h =>
        obtain ⟨⟨-, hcard, haccess⟩, -⟩ := Controller.authorised_of_mem _ h
        obtain rfl : i.cardId = cardId := hcard
        rcases (answered_of_ask hask).2.allowed haccess with ⟨info, hentry, hfresh⟩ | hallowed
        · exact ⟨info.lastUpdate, hfresh, (hcache _ info hentry).seen.mono _⟩
        · refine ⟨now, ?_, Seen.last rfl hallowed⟩
          rw [sub_self]
          decide
  case complete =>
    intro hrunning hlocked hwhite hread hten user intId honly hmem hadmitted
    have hget : Table.get (fun user => user.cardId == some
        (askedText (getIdFromString i.cardId))) db.members = .ok user := by
      rw [askedText_eq_cardText hten]
      apply (Table.get_eq_ok_iff_of_unique db.members_nodup _).mpr
      · exact ⟨hmem, beq_iff_eq.mpr ((honly user hmem).mpr rfl)⟩
      · intro a ha b hb hcarda hcardb
        rw [(honly a ha).mp (beq_iff_eq.mp hcarda), (honly b hb).mp (beq_iff_eq.mp hcardb)]
    obtain ⟨result, cache', hanswer, haccess⟩ := hasAccess_of_admitted current
      (Gate.run token turns).cache now hget hadmitted
    have hask : (Gate.run token turns).ask token i db current now = some (some (result, cache')) := by
      rw [Gate.ask, if_pos ⟨hread, .inr ⟨hlocked, hwhite⟩⟩, hanswer]
      rfl
    rw [Gate.doorEvents.eq_def]
    dsimp only
    rw [hrunning, if_neg Bool.false_ne_true, hask]
    exact Controller.card_granted hlocked hwhite hread haccess

end Acs.Opi
