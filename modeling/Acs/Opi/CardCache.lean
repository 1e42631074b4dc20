/-
  Acs/Opi/CardCache.lean
  ======================
  **The card cache of the Orange Pi frontend** (`opi/cardcache.cpp`).

  Every minute a thread lists the members with access and fills a map from card
  numbers to users; `has_access` answers from a fresh entry of it, and asks the
  backend for this card otherwise.

  The key of an entry is the number that the stored text spells.  The question
  sends the number printed with `{:10X}`, filled with blanks, and the backend
  compares the text with the stored one, which is filled with zeros.  So only a
  number with ten digits is found (`agrees_iff`).
-/
import Acs.Backend.Auth
import Acs.Bytes
import Acs.Lib.Listing

namespace Acs.Opi

open Acs Acs.Backend

/-! ### The two requests -/

/-- The first line of `./api-token`; without it the program ends. -/
abbrev ApiToken := { token : String // token ≠ "" }

/-- `{:10X}`. -/
def askedText (id : CardId) : String := text (Hex.padSpace 10 id)

/-- `POST /v1/permissions`. -/
def permissionRequest (token : ApiToken) (id : CardId) : ApiRequest where
  apiToken := some token.1
  authorization := none
  view := .permission (.v1Post (some (askedText id)))

/-- `GET /v2/permissions/`. -/
def listRequest (token : ApiToken) : ApiRequest where
  apiToken := none
  authorization := some ("Token " ++ token.1)
  view := .permission .v2List

/-! ### The cache -/

inductive Access where
  | error
  | allowed
  | forbidden
  | unknown
deriving DecidableEq, Repr

/-- `userId` is the internal id. -/
structure Result where
  access : Access
  userId : Int
deriving DecidableEq

/-- `Card_cache::User_info`; times are in nanoseconds.  The code narrows the two ids
    to `int`; those of the backend's rows are below 2^31. -/
structure UserInfo where
  userId : Nat
  userIntId : Int
  lastUpdate : Int

abbrev Cache := Std.TreeMap CardId UserInfo

/-- `MAX_CACHE_AGE`, 15 minutes. -/
def maxCacheAge : Int := 15 * 60 * 1000000000

/-- The entry for one element of the response.  A null for the card or the
    internal id is an exception, and the element is skipped. -/
def cacheEntry (now : Int) (elem : V2Entry) : Option (CardId × UserInfo) := do
  let card ← elem.cardId
  let intId ← elem.intId
  return (getIdFromString (str card), ⟨elem.id, intId, now⟩)

/-- The elements of the response, if it has status 200. -/
def listed : Reply → Option (List V2Entry)
  | .permission (.v2Entries entries) => some entries
  | _ => none

/-- One pass of `update_cache`; `current` is what the process that answers has in
    the attributes of `Machine`. -/
def updateCache (db : Database) (current : Current) (token : ApiToken) (now : Int)
    (cache : Cache) : Cache :=
  match listed (reply db current (listRequest token)) with
  | none => cache
  | some entries =>
      entries.foldl (fun newCache elem => Listing.store newCache (cacheEntry now elem)) ∅

/-- What `has_access` makes of the response to its question: the result, and the
    user for the cache.  `none` is the exception for a null `int_id`. -/
def readAnswer : Reply → Option (Result × Option (Nat × Int))
  | .permission (.permission (.denied _)) => some (⟨.unknown, -1⟩, none)
  | .permission (.permission (.answer false _ _ _)) => some (⟨.forbidden, -1⟩, none)
  | .permission (.permission (.answer true _ none _)) => none
  | .permission (.permission (.answer true id (some intId) _)) =>
      some (⟨.allowed, intId⟩, some (id, intId))
  | _ => some (⟨.error, -1⟩, none)

/-- The online part of `has_access`. -/
def askBackend (db : Database) (current : Current) (token : ApiToken) (cache : Cache) (now : Int)
    (id : CardId) : Option (Result × Cache) :=
  match readAnswer (reply db current (permissionRequest token id)) with
  | none => none
  | some (result, none) => some (result, cache)
  | some (result, some (userId, userIntId)) =>
      some (result, cache.insert id ⟨userId, userIntId, now⟩)

/-- `Card_cache::has_access`, with the cache after it; `none` for an exception. -/
def hasAccess (db : Database) (current : Current) (token : ApiToken) (cache : Cache) (now : Int)
    (id : CardId) : Option (Result × Cache) :=
  match cache[id]? with
  | some info =>
      if now - info.lastUpdate < maxCacheAge then some (⟨.allowed, info.userIntId⟩, cache)
      else askBackend db current token cache now id
  | none => askBackend db current token cache now id

/-! ### What the backend answers -/

/-- The machine that the token logs in as, or the refusal. -/
def login (db : Database) (token : ApiToken) : Except AuthError (Option Nat) :=
  match authenticateToken db token.1 ⟨none, none⟩ with
  | .ok _ t => .ok t.id
  | .error err _ => .error err

section Replies

variable (db : Database) (current : Current) (token : ApiToken)

theorem headerToken_listRequest : (listRequest token).headerToken = some token.1 := by
  have htext : ("Token " ++ token.1).toList = "Token ".toList ++ token.1.toList :=
    String.toList_append
  have htake : ("Token ".toList ++ token.1.toList).take 6 = "Token ".toList := rfl
  have hdrop : ("Token ".toList ++ token.1.toList).drop 6 = token.1.toList := rfl
  simp only [ApiRequest.headerToken, listRequest, htext, htake, hdrop, ne_eq, not_true_eq_false,
    if_false, String.ofList_toList]

theorem bodyToken_permissionRequest (id : CardId) :
    (permissionRequest token id).bodyToken = some token.1 := by
  simp only [ApiRequest.bodyToken, permissionRequest, if_neg token.2]

/-- A token that logs in names a user, so that the next authenticator is not asked. -/
theorem login_cases :
    (∃ user t, tokenAuthenticate db (some token.1) current = .ok (some user) t ∧
        login db token = .ok t.id) ∨
      ∃ err t, tokenAuthenticate db (some token.1) current = .error err t ∧
        login db token = .error err := by
  have hreset : tokenAuthenticate db (some token.1) current =
      authenticateToken db token.1 ⟨none, none⟩ := rfl
  rcases tokenAuthenticate_some db token.1 current with ⟨user, t, hok, _⟩ | ⟨err, t, herror, _⟩
  · refine .inl ⟨user, t, hok, ?_⟩
    rw [login, ← hreset, hok]
  · refine .inr ⟨err, t, herror, ?_⟩
    rw [login, ← hreset, herror]

theorem reply_permissionRequest (id : CardId) :
    reply db current (permissionRequest token id) =
      match login db token with
      | .error err => .refused err
      | .ok mId => .permission (.ofExcept (machineList db mId (some (askedText id)))) := by
  unfold reply authenticate bodyTokenAuthenticate
  rw [bodyToken_permissionRequest]
  rcases login_cases db current token with ⟨user, t, hok, hlogin⟩ | ⟨err, t, herror, hlogin⟩
  · rw [Effects.bind_ok hok, hlogin]
    rfl
  · rw [Effects.bind_error herror, hlogin]

/-- The list is made for the same machine. -/
theorem reply_listRequest :
    reply db current (listRequest token) =
      match login db token with
      | .error err => .refused err
      | .ok mId => .permission (.v2Entries (machineV2List db mId)) := by
  have hbody : (listRequest token).bodyToken = none := rfl
  unfold reply authenticate bodyTokenAuthenticate headerTokenAuthenticate
  rw [hbody, headerToken_listRequest, Effects.bind_ok (tokenAuthenticate_none db current)]
  dsimp only
  rcases login_cases db ⟨none, none⟩ token with ⟨user, t, hok, hlogin⟩ | ⟨err, t, herror, hlogin⟩
  · rw [hok, hlogin]
    rfl
  · rw [herror, hlogin]

end Replies

/-- The member may use the machine that the token logs in as, and has an internal
    id. -/
def Admitted (db : Database) (token : ApiToken) (user : Member) (intId : Int) : Prop :=
  ∃ mId, login db token = .ok mId ∧ user.isActive = true ∧ machineExists db user mId = true ∧
    user.flIntId = some intId

theorem readAnswer_ofExcept (answer : Except Table.GetError Permission) (intId : Int) :
    (readAnswer (.permission (.ofExcept answer))).map (·.1) = some ⟨.allowed, intId⟩ ↔
      ∃ id name, answer = .ok (.answer true id (some intId) name) := by
  match answer with
  | .error _ => simp [Response.ofExcept, readAnswer]
  | .ok (.denied _) => simp [Response.ofExcept, readAnswer]
  | .ok (.answer false _ _ _) => simp [Response.ofExcept, readAnswer]
  | .ok (.answer true _ none _) => simp [Response.ofExcept, readAnswer]
  | .ok (.answer true _ (some _) _) => simp [Response.ofExcept, readAnswer]

/-- **When the backend allows a card**: the one member with the text that is asked
    for is admitted. -/
theorem readAnswer_allowed_iff (db : Database) (current : Current) (token : ApiToken)
    (id : CardId) (intId : Int) :
    (readAnswer (reply db current (permissionRequest token id))).map (·.1) =
        some ⟨.allowed, intId⟩ ↔
      ∃ user, Table.get (fun user => user.cardId == some (askedText id)) db.members = .ok user ∧
        Admitted db token user intId := by
  simp only [reply_permissionRequest, Admitted]
  cases login db token with
  | error err => simp [readAnswer]
  | ok mId =>
    dsimp only
    rw [readAnswer_ofExcept]
    simp only [machineList, getPermission_answer_iff]
    constructor
    · rintro ⟨_, _, user, hget, hactive, hexists, _, hint, _⟩
      exact ⟨user, hget, mId, rfl, hactive, hexists, hint⟩
    · rintro ⟨user, hget, _, heq, hactive, hexists, hint⟩
      obtain rfl := Except.ok.inj heq
      exact ⟨_, _, user, hget, hactive, hexists, rfl, hint, rfl⟩

/-! ### What the cache holds -/

section Cached

variable (db : Database) (current : Current) (token : ApiToken) (now : Int)

theorem cacheEntry_eq_some_iff {elem : V2Entry} {id : CardId} {info : UserInfo} :
    cacheEntry now elem = some (id, info) ↔
      ∃ card intId, elem.cardId = some card ∧ elem.intId = some intId ∧
        getIdFromString (str card) = id ∧ ⟨elem.id, intId, now⟩ = info := by
  rw [cacheEntry]
  cases elem.cardId <;> cases elem.intId <;> simp

theorem updateCache_getElem? (id : CardId) :
    (updateCache db current token now ∅)[id]? =
      match login db token with
      | .error _ => none
      | .ok mId => Listing.latest (cacheEntry now) (machineV2List db mId) id := by
  rw [updateCache, reply_listRequest]
  cases login db token with
  | error err => exact Std.TreeMap.getElem?_emptyc
  | ok mId =>
    dsimp only [listed]
    rw [Listing.getElem?_foldl_store, Std.TreeMap.getElem?_emptyc, Option.or_none]

end Cached

/-! ### The two forms of a card's text -/

/-- The form in which card ids are stored: ten digits, filled with zeros. -/
def cardText (id : CardId) : String := text (cardIdFormat id)

theorem str_cardText (id : CardId) : str (cardText id) = cardIdFormat id :=
  str_text fun _ => Hex.lt_of_mem_padZero

theorem str_askedText (id : CardId) : str (askedText id) = Hex.padSpace 10 id :=
  str_text fun _ => Hex.lt_of_mem_padSpace

theorem getIdFromString_cardText {id : CardId} (h : id < 2 ^ 40) :
    getIdFromString (str (cardText id)) = id := by
  rw [str_cardText]
  exact getIdFromString_cardIdFormat (Nat.lt_trans h (by decide))

theorem askedText_eq_cardText {id : CardId} (h : 16 ^ 9 ≤ id) : askedText id = cardText id :=
  congrArg text (Hex.padSpace_eq_padZero h)

/-- With less than ten digits the text that is asked for starts with a blank, and
    no stored text does. -/
theorem askedText_ne_cardText {id : CardId} (h : id < 16 ^ 9) (stored : CardId) :
    askedText id ≠ cardText stored := by
  intro heq
  have hblank := Hex.blank_mem_padSpace (by omega) h
  rw [← str_askedText, heq, str_cardText] at hblank
  obtain ⟨d, hd, hdigit⟩ := Hex.mem_padZero hblank
  exact Hex.digit_ne_blank hd hdigit.symm

/-- All card ids are stored in this form. -/
def CardsFormatted (db : Database) : Prop :=
  ∀ user ∈ db.members, ∀ card, user.cardId = some card → ∃ id < 2 ^ 40, card = cardText id

section Entries

variable {db : Database} {current : Current} {token : ApiToken} {now : Int} {id : CardId}

/-- An entry is that of an admitted member with the card. -/
theorem exists_of_entry (hform : CardsFormatted db) {info : UserInfo}
    (h : (updateCache db current token now ∅)[id]? = some info) :
    ∃ user ∈ db.members, user.cardId = some (cardText id) ∧
      Admitted db token user info.userIntId ∧ info.lastUpdate = now := by
  rw [updateCache_getElem?] at h
  cases hlogin : login db token with
  | error err =>
    rw [hlogin] at h
    cases h
  | ok mId =>
    rw [hlogin] at h
    obtain ⟨elem, helem, hentry⟩ := Listing.exists_of_latest h
    obtain ⟨user, huser, hactive, hexists, rfl⟩ := mem_machineV2List.mp helem
    obtain ⟨card, intId, hcard, hint, hid, rfl⟩ := (cacheEntry_eq_some_iff now).mp hentry
    obtain ⟨stored, hstored, rfl⟩ := hform user huser card hcard
    rw [getIdFromString_cardText hstored] at hid
    exact ⟨user, huser, hid ▸ hcard, ⟨mId, hlogin, hactive, hexists, hint⟩, rfl⟩

/-- An admitted member with the card has an entry. -/
theorem entry_of_admitted (hid : id < 2 ^ 40) {user : Member} (huser : user ∈ db.members)
    (hcard : user.cardId = some (cardText id)) {intId : Int}
    (hadmitted : Admitted db token user intId) :
    ((updateCache db current token now ∅)[id]?).isSome := by
  obtain ⟨mId, hlogin, hactive, hexists, hint⟩ := hadmitted
  rw [updateCache_getElem?, hlogin]
  apply Listing.latest_isSome (mem_machineV2List.mpr ⟨user, huser, hactive, hexists, rfl⟩)
  exact (cacheEntry_eq_some_iff now).mpr
    ⟨cardText id, intId, hcard, hint, getIdFromString_cardText hid, rfl⟩

end Entries

/-! ### The cached and the online answer -/

/-- The cache has no fresh entry for the card. -/
def Stale (cache : Cache) (now : Int) (id : CardId) : Prop :=
  ∀ info, cache[id]? = some info → ¬ now - info.lastUpdate < maxCacheAge

/-- With a cache that was filled less than 15 minutes ago, and with one that has no
    fresh entry, `has_access` allows the card for the same users. -/
def Agrees (db : Database) (token : ApiToken) (id : CardId) : Prop :=
  ∀ (before current : Current) (filled now : Int) (cache : Cache),
    now - filled < maxCacheAge → Stale cache now id → ∀ intId,
      (hasAccess db current token (updateCache db before token filled ∅) now id).map (·.1) =
          some ⟨.allowed, intId⟩ ↔
        (hasAccess db current token cache now id).map (·.1) = some ⟨.allowed, intId⟩

theorem askBackend_result (db : Database) (current : Current) (token : ApiToken) (cache : Cache)
    (now : Int) (id : CardId) :
    (askBackend db current token cache now id).map (·.1) =
      (readAnswer (reply db current (permissionRequest token id))).map (·.1) := by
  rw [askBackend]
  match readAnswer (reply db current (permissionRequest token id)) with
  | none => rfl
  | some (_, none) => rfl
  | some (_, some _) => rfl

theorem hasAccess_of_stale {cache : Cache} {now : Int} {id : CardId} (h : Stale cache now id)
    (db : Database) (current : Current) (token : ApiToken) :
    (hasAccess db current token cache now id).map (·.1) =
      (readAnswer (reply db current (permissionRequest token id))).map (·.1) := by
  rw [hasAccess]
  cases hentry : cache[id]? with
  | none => exact askBackend_result db current token cache now id
  | some info =>
    dsimp only
    rw [if_neg (h info hentry)]
    exact askBackend_result db current token cache now id

/-- A member who is admitted with the card is the only one who has it, and the
    number has ten digits. -/
def FoundOnline (db : Database) (token : ApiToken) (id : CardId) : Prop :=
  ∀ user ∈ db.members, ∀ intId, user.cardId = some (cardText id) →
    Admitted db token user intId →
      16 ^ 9 ≤ id ∧ ∀ other ∈ db.members, other.cardId = some (cardText id) → other = user

theorem Admitted.intId_eq {db : Database} {token : ApiToken} {user : Member} {intId intId' : Int}
    (h : Admitted db token user intId) (h' : Admitted db token user intId') : intId = intId' := by
  obtain ⟨_, _, _, _, hint⟩ := h
  obtain ⟨_, _, _, _, hint'⟩ := h'
  exact Option.some.inj (hint.symm.trans hint')

theorem hasAccess_of_fresh {db : Database} {current : Current} {token : ApiToken} {cache : Cache}
    {now : Int} {id : CardId} {info : UserInfo} (hentry : cache[id]? = some info)
    (hfresh : now - info.lastUpdate < maxCacheAge) :
    (hasAccess db current token cache now id).map (·.1) = some ⟨.allowed, info.userIntId⟩ := by
  rw [hasAccess, hentry]
  dsimp only
  rw [if_pos hfresh]
  rfl

theorem foundOnline_of_agrees {db : Database} (hform : CardsFormatted db) {token : ApiToken}
    {id : CardId} (hid : id < 2 ^ 40) (h : Agrees db token id) : FoundOnline db token id := by
  intro user huser intId hcard hadmitted
  let current : Current := ⟨none, none⟩
  have hsome : ((updateCache db current token 0 ∅)[id]?).isSome :=
    entry_of_admitted hid huser hcard hadmitted
  obtain ⟨info, hentry⟩ := Option.isSome_iff_exists.mp hsome
  obtain ⟨_, _, _, _, hupdate⟩ := exists_of_entry hform hentry
  have hfresh : (0 : Int) - info.lastUpdate < maxCacheAge := by
    rw [hupdate]
    decide
  have hempty : Stale ∅ 0 id := by
    intro info hinfo
    rw [Std.TreeMap.getElem?_emptyc] at hinfo
    cases hinfo
  have hcached : (hasAccess db current token (updateCache db current token 0 ∅) 0 id).map (·.1) =
      some ⟨.allowed, info.userIntId⟩ := hasAccess_of_fresh hentry hfresh
  have honline := (h current current 0 0 ∅ (by decide) hempty info.userIntId).mp hcached
  rw [hasAccess_of_stale hempty, readAnswer_allowed_iff] at honline
  obtain ⟨found, hget, _⟩ := honline
  obtain ⟨hfound, hasked⟩ := Table.mem_of_get hget
  have hten : 16 ^ 9 ≤ id := by
    obtain ⟨stored, _, heq⟩ := hform found hfound _ (beq_iff_eq.mp hasked)
    by_contra hless
    exact askedText_ne_cardText (Nat.lt_of_not_le hless) stored heq
  refine ⟨hten, ?_⟩
  rw [askedText_eq_cardText hten, Table.get_eq_ok_iff] at hget
  have honly : ∀ other ∈ db.members, other.cardId = some (cardText id) → other = found := by
    intro other hother hothercard
    have hmem : other ∈ db.members.filter fun user => user.cardId == some (cardText id) :=
      List.mem_filter.mpr ⟨hother, beq_iff_eq.mpr hothercard⟩
    rw [hget] at hmem
    exact List.mem_singleton.mp hmem
  intro other hother hothercard
  rw [honly other hother hothercard, honly user huser hcard]

/-- **The cached answer is the online answer** exactly when the members who are
    admitted with the card are found online. -/
theorem agrees_iff (db : Database) (hform : CardsFormatted db) (token : ApiToken) (id : CardId)
    (hid : id < 2 ^ 40) : Agrees db token id ↔ FoundOnline db token id := by
  constructor
  · exact foundOnline_of_agrees hform hid
  · intro h before current filled now cache hfresh hstale intId
    rw [hasAccess_of_stale hstale]
    cases hentry : (updateCache db before token filled ∅)[id]? with
    | none =>
      have hnone : Stale (updateCache db before token filled ∅) now id := by
        intro info hinfo
        rw [hentry] at hinfo
        cases hinfo
      rw [hasAccess_of_stale hnone]
    | some info =>
      obtain ⟨user, huser, hcard, hadmitted, rfl⟩ := exists_of_entry hform hentry
      obtain ⟨hten, honly⟩ := h user huser info.userIntId hcard hadmitted
      have hget : Table.get (fun user => user.cardId == some (askedText id)) db.members =
          .ok user := by
        rw [askedText_eq_cardText hten]
        apply (Table.get_eq_ok_iff_of_unique db.members_nodup _).mpr
        · exact ⟨huser, beq_iff_eq.mpr hcard⟩
        · intro a ha b hb hcarda hcardb
          rw [honly a ha (beq_iff_eq.mp hcarda), honly b hb (beq_iff_eq.mp hcardb)]
      rw [hasAccess_of_fresh hentry hfresh, readAnswer_allowed_iff, hget]
      constructor
      · intro heq
        obtain rfl : info.userIntId = intId := by simpa using heq
        exact ⟨user, rfl, hadmitted⟩
      · rintro ⟨found, heq, hfound⟩
        obtain rfl := Except.ok.inj heq
        rw [hadmitted.intId_eq hfound]

def ann (id : CardId) : Member :=
  ⟨7, "ann", "Ann", "Lee", true, some 70, some 3, some (cardText id)⟩

/-- A machine, the user that every token logs in as, and a member with a card. -/
def cardDatabase (id : CardId) : Database where
  machines := [⟨1, "woodshop", "token"⟩]
  members := [⟨1, "administrator", "", "", true, none, none, none⟩, ann id]
  memberMachines := [⟨7, 1⟩]
  machineIds := by decide
  memberIds := (by decide : [1, 7].Nodup)
  links := by
    intro link hlink
    rw [List.mem_singleton.mp hlink]
    exact ⟨.tail _ (.head _), .head _⟩

def cardToken : ApiToken := ⟨"token", by decide⟩

theorem eq_ann {id : CardId} {user : Member} {card : String}
    (huser : user ∈ (cardDatabase id).members) (hcard : user.cardId = some card) :
    user = ann id := by
  rcases List.mem_cons.mp huser with rfl | huser
  · cases hcard
  · exact List.mem_singleton.mp huser

theorem cardsFormatted_cardDatabase {id : CardId} (hid : id < 2 ^ 40) :
    CardsFormatted (cardDatabase id) := by
  intro user huser card hcard
  obtain rfl := eq_ann huser hcard
  exact ⟨id, hid, (Option.some.inj hcard).symm⟩

/-- A card with ten digits. -/
theorem agrees_sample : Agrees (cardDatabase 0x3F0078E2AE) cardToken 0x3F0078E2AE := by
  apply (agrees_iff (cardDatabase 0x3F0078E2AE) (cardsFormatted_cardDatabase (by decide))
    cardToken 0x3F0078E2AE (by decide)).mpr
  intro user huser intId hcard _
  refine ⟨by decide, ?_⟩
  intro other hother hothercard
  rw [eq_ann hother hothercard, eq_ann huser hcard]

/-- A card with six digits is allowed from the cache and unknown online. -/
theorem not_agrees : ¬ ∀ db token id, CardsFormatted db → 0 < id → id < 2 ^ 40 →
    Agrees db token id := by
  intro h
  have hform : CardsFormatted (cardDatabase 0x78E2AE) := cardsFormatted_cardDatabase (by decide)
  have hagrees := h (cardDatabase 0x78E2AE) cardToken 0x78E2AE hform (by decide) (by decide)
  have hadmitted : Admitted (cardDatabase 0x78E2AE) cardToken (ann 0x78E2AE) 3 :=
    ⟨some 1, by rfl, rfl, by rfl, rfl⟩
  have hmember : ann 0x78E2AE ∈ (cardDatabase 0x78E2AE).members :=
    List.mem_cons_of_mem _ List.mem_cons_self
  have hten := (foundOnline_of_agrees hform (by decide) hagrees _ hmember 3 rfl hadmitted).1
  exact absurd hten (by decide)

end Acs.Opi
