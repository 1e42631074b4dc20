/-
  Acs/Esp32/CardCache.lean
  ========================
  **`Card_cache`: the cards that may enter, fetched in the background.**

  `thread_body` fetches the permissions every five minutes and replaces the
  cache when it has got an array; `has_access` looks a card up.  A run is any
  interleaving of the two, and of `set_api_token`.  Items are looked at one by
  one, and one that is not in order is skipped with a message.
-/
import Acs.Lib.Run
import Acs.CJson
import Mathlib

namespace Acs.Esp32

open Acs

/-! ### The class -/

structure UserInfo where
  userId : Int
  userIntId : Int
  lastUpdate : Int
deriving DecidableEq

abbrev Cache := Std.TreeMap CardId UserInfo

structure CardCache where
  cache : Cache := ∅
  apiToken : Bytes := []

inductive Access where
  | error
  | allowed
  | forbidden
  | unknown
deriving DecidableEq, Repr

structure AccessResult where
  access : Access
  userId : Int
  errorMsg : Bytes := []
deriving DecidableEq

/-- What the class gives to `Mqtt::log` and to `Mqtt::log_backend`. -/
inductive CacheLog where
  | log (text : Bytes)
  | backend (userId : Int) (text : Bytes)
deriving DecidableEq

namespace CardCache

def maxCacheAge : Int := 15 * 60 * 1000000000

def setApiToken (c : CardCache) (token : Bytes) : CardCache := { c with apiToken := token }

/-- `has_access`, on the device with this identifier. -/
def hasAccess (identifier : Bytes) (c : CardCache) (id : CardId) (now : Int) :
    AccessResult × List CacheLog :=
  match c.cache[id]? with
  | some ui =>
    ({ access := .allowed, userId := ui.userIntId },
      [.log (format [cardIdFormat id, str " cached"])] ++
      (if now - ui.lastUpdate > maxCacheAge then
        [.log (format [cardIdFormat id, str ": stale"])] else []) ++
      [.backend ui.userId (format [cstr identifier, str ": Granted entry"])])
  | none => ({ access := .unknown, userId := -1 }, [])

/-! ### One fetch -/

/-- How a fetch goes: the buffer is not allocated, the transfer fails, or there
    is a response, its body in the buffer. -/
inductive Fetch where
  | noMemory
  | failed
  | response (code : Int) (buffer : Bytes)

structure Permission where
  cardId : CardId
  id : Int
  intId : Int
deriving DecidableEq

/-- The checks on one item of the array; the error is what is logged. -/
def permissionOf (item : Json) : Except Bytes Permission :=
  match item with
  | .object _ =>
    match Json.valuestring? (item.getObjectItem (str "card_id")) with
    | none => .error (str "Error: Item from /v2/permissions has no card_id")
    | some cardId =>
      match Json.valueint? (item.getObjectItem (str "id")) with
      | none => .error (str "Error: Item from /v2/permissions has no id")
      | some id =>
        match Json.valueint? (item.getObjectItem (str "int_id")) with
        | none => .error (str "Error: Item from /v2/permissions has no int_id")
        | some intId => .ok { cardId := getIdFromString cardId, id, intId }
  | _ => .error (str "Error: Item from /v2/permissions is not an object")

/-- One round of `cJSON_ArrayForEach`, with the cache and the messages so far. -/
def addItem (now : Int) (acc : Cache × List Bytes) (item : Json) : Cache × List Bytes :=
  match permissionOf item with
  | .error text => (acc.1, acc.2 ++ [text])
  | .ok p => (acc.1.insert p.cardId { userId := p.id, userIntId := p.intId, lastUpdate := now },
      acc.2)

/-- The loop over the items; `clock n` is the time at the `n`th. -/
def addItems (clock : Nat → Int) : Nat → Cache × List Bytes → List Json → Cache × List Bytes
  | _, acc, [] => acc
  | n, acc, item :: items => addItems clock (n + 1) (addItem (clock n) acc item) items

/-- One round of `thread_body`, with the texts given to `Mqtt::log`; `parse` is
    `cJSON_Parse`. -/
def refresh (parse : Bytes → Option Json) (c : CardCache) (fetch : Fetch) (clock : Nat → Int) :
    CardCache × List Bytes :=
  if c.apiToken = [] then (c, [])
  else
    match fetch with
    | .noMemory => (c, [])
    | .failed => (c, [])
    | .response code buffer =>
      if code ≠ 200 then
        (c, [format [str "Error: Unexpected response from /v2/permissions: ", decimal code]])
      else
        let received := format [str "/v2/permissions: ", decimal (cstr buffer).length, str " bytes"]
        match parse (cstr buffer) with
        | none => (c, [received, str "Error: Bad JSON from /v2/permissions"])
        | some (.array items) =>
          let (newCache, texts) := addItems clock 0 (∅, []) items
          ({ c with cache := newCache }, [received] ++ texts ++
            [format [str "Card cache updated: ", decimal newCache.size, str " cards"]])
        | some _ =>
          (c, [received, str "Error: Response from /v2/permissions is not an array"])

/-! ### Runs -/

/-- Another task calls a method, or the thread makes a round. -/
inductive Event where
  | refresh (fetch : Fetch) (clock : Nat → Int)
  | hasAccess (id : CardId) (now : Int)
  | setApiToken (token : Bytes)

def step (parse : Bytes → Option Json) (c : CardCache) : Event → CardCache
  | .refresh fetch clock => (c.refresh parse fetch clock).1
  | .hasAccess _ _ => c
  | .setApiToken token => c.setApiToken token

/-- The array that a round has got, if the round is successful. -/
def fetched (parse : Bytes → Option Json) (c : CardCache) : Event → List (List Json)
  | .refresh (.response code buffer) _ =>
    match parse (cstr buffer) with
    | some (.array items) => if c.apiToken ≠ [] ∧ code = 200 then [items] else []
    | _ => []
  | _ => []

def run (parse : Bytes → Option Json) (events : List Event) : CardCache :=
  Runs.exec (step parse) {} events

def lastFetched (parse : Bytes → Option Json) (events : List Event) : Option (List Json) :=
  (Runs.emitted (step parse) (fetched parse) {} events).getLast?

/-! ### What the array says about a card -/

/-- The item is an object with a string `card_id` that parses to `id`, a numeric
    `id`, and the numeric `int_id` given. -/
def WellFormed (item : Json) (id : CardId) (intId : Int) : Prop :=
  ∃ fields cardId userId, item = .object fields ∧
    Json.valuestring? (item.getObjectItem (str "card_id")) = some cardId ∧
    getIdFromString cardId = id ∧
    Json.valueint? (item.getObjectItem (str "id")) = some userId ∧
    Json.valueint? (item.getObjectItem (str "int_id")) = some intId

/-- The last well-formed item for this card has the `int_id` given. -/
def Grants (items : List Json) (id : CardId) (intId : Int) : Prop :=
  ∃ before item after, items = before ++ item :: after ∧ WellFormed item id intId ∧
    ∀ other ∈ after, ∀ n, ¬ WellFormed other id n

theorem wellFormed_iff {item : Json} {id : CardId} {intId : Int} :
    WellFormed item id intId ↔
      ∃ userId, permissionOf item = .ok { cardId := id, id := userId, intId } := by
  constructor
  · rintro ⟨fields, cardId, userId, rfl, hcard, rfl, hid, hint⟩
    exact ⟨userId, by simp only [permissionOf, hcard, hid, hint]⟩
  · rintro ⟨userId, h⟩
    unfold permissionOf at h
    split at h
    · split at h
      · exact absurd h (by simp)
      next fields _ cardId hcard =>
        split at h
        · exact absurd h (by simp)
        next _ _ hid =>
          split at h
          · exact absurd h (by simp)
          next _ _ hint =>
            simp only [Except.ok.injEq, Permission.mk.injEq] at h
            obtain ⟨rfl, rfl, rfl⟩ := h
            exact ⟨fields, cardId, _, rfl, hcard, rfl, hid, hint⟩
    · exact absurd h (by simp)

theorem grants_nil (id : CardId) (intId : Int) : ¬ Grants [] id intId := by
  rintro ⟨before, item, after, h, _⟩
  exact absurd h (by simp)

theorem grants_cons {item : Json} {items : List Json} {id : CardId} {intId : Int} :
    Grants (item :: items) id intId ↔
      Grants items id intId ∨
        WellFormed item id intId ∧ ∀ other ∈ items, ∀ n, ¬ WellFormed other id n := by
  constructor
  · rintro ⟨before, item', after, h, hwell, hlast⟩
    cases before with
    | nil =>
      obtain ⟨rfl, rfl⟩ := List.cons.inj h
      exact Or.inr ⟨hwell, hlast⟩
    | cons _ before =>
      obtain ⟨rfl, rfl⟩ := List.cons.inj h
      exact Or.inl ⟨before, item', after, rfl, hwell, hlast⟩
  · rintro (⟨before, item', after, rfl, hwell, hlast⟩ | ⟨hwell, hlast⟩)
    · exact ⟨item :: before, item', after, rfl, hwell, hlast⟩
    · exact ⟨[], item, items, rfl, hwell, hlast⟩

theorem exists_grants {items : List Json} {id : CardId} {n : Int} {item : Json}
    (hmem : item ∈ items) (hwell : WellFormed item id n) : ∃ intId, Grants items id intId := by
  induction items generalizing item n with
  | nil => exact absurd hmem List.not_mem_nil
  | cons first items ih =>
    by_cases hlater : ∃ other ∈ items, ∃ k, WellFormed other id k
    · obtain ⟨other, hother, k, hk⟩ := hlater
      obtain ⟨intId, hgrants⟩ := ih hother hk
      exact ⟨intId, grants_cons.mpr (Or.inl hgrants)⟩
    · have hnone : ∀ other ∈ items, ∀ k, ¬ WellFormed other id k := by
        intro other hother k hk
        exact hlater ⟨other, hother, k, hk⟩
      rcases List.mem_cons.mp hmem with rfl | hmem
      · exact ⟨n, grants_cons.mpr (Or.inr ⟨hwell, hnone⟩)⟩
      · exact absurd hwell (hnone item hmem n)

/-! ### What a successful round stores -/

/-- The `int_id` that the cache has for a card. -/
def granted (cache : Cache) (id : CardId) : Option Int := (cache[id]?).map (·.userIntId)

theorem granted_addItem (now : Int) (acc : Cache × List Bytes) (item : Json) (id : CardId)
    (intId : Int) :
    granted (addItem now acc item).1 id = some intId ↔
      WellFormed item id intId ∨
        (∀ n, ¬ WellFormed item id n) ∧ granted acc.1 id = some intId := by
  rw [addItem]
  cases hitem : permissionOf item with
  | error text =>
    have hno : ∀ n, ¬ WellFormed item id n := by
      intro n hn
      obtain ⟨_, h⟩ := wellFormed_iff.mp hn
      rw [hitem] at h
      exact absurd h (by simp)
    constructor
    · intro h
      exact Or.inr ⟨hno, h⟩
    · rintro (h | h)
      · exact absurd h (hno intId)
      · exact h.2
  | ok p =>
    have hwell : ∀ n, WellFormed item id n ↔ p.cardId = id ∧ p.intId = n := by
      intro n
      rw [wellFormed_iff, hitem]
      constructor
      · rintro ⟨userId, h⟩
        simp only [Except.ok.injEq] at h
        subst h
        exact ⟨rfl, rfl⟩
      · rintro ⟨rfl, rfl⟩
        exact ⟨p.id, rfl⟩
    simp only [granted, Std.TreeMap.getElem?_insert, Std.LawfulEqCmp.compare_eq_iff_eq, hwell]
    by_cases hid : p.cardId = id
    · simp [hid]
    · simp [hid]

theorem granted_addItems (clock : Nat → Int) (n : Nat) (acc : Cache × List Bytes)
    (items : List Json) (id : CardId) (intId : Int) :
    granted (addItems clock n acc items).1 id = some intId ↔
      Grants items id intId ∨
        (∀ item ∈ items, ∀ k, ¬ WellFormed item id k) ∧ granted acc.1 id = some intId := by
  induction items generalizing n acc with
  | nil => simp [addItems, grants_nil]
  | cons item items ih =>
    rw [addItems, ih, granted_addItem, grants_cons]
    constructor
    · rintro (h | ⟨hnone, h | ⟨hno, h⟩⟩)
      · exact Or.inl (Or.inl h)
      · exact Or.inl (Or.inr ⟨h, hnone⟩)
      · refine Or.inr ⟨?_, h⟩
        intro other hother
        rcases List.mem_cons.mp hother with rfl | hother
        · exact hno
        · exact hnone other hother
    · rintro ((h | ⟨h, hnone⟩) | ⟨hnone, h⟩)
      · exact Or.inl h
      · exact Or.inr ⟨hnone, Or.inl h⟩
      · refine Or.inr ⟨?_, Or.inr ⟨hnone item List.mem_cons_self, h⟩⟩
        intro other hother
        exact hnone other (List.mem_cons_of_mem item hother)

/-- **What an array puts into the cache**: for each card, its last well-formed item. -/
theorem granted_fresh (clock : Nat → Int) (items : List Json) (id : CardId) (intId : Int) :
    granted (addItems clock 0 (∅, []) items).1 id = some intId ↔ Grants items id intId := by
  rw [granted_addItems]
  simp [granted]

/-! ### Runs of refreshes and lookups -/

/-- **One event**: either nothing is fetched and the cache stays as it is, or an
    array is, and the cache is built from it alone. -/
theorem step_cases (parse : Bytes → Option Json) (c : CardCache) (e : Event) :
    (fetched parse c e = [] ∧ (step parse c e).cache = c.cache) ∨
      ∃ items clock, fetched parse c e = [items] ∧
        (step parse c e).cache = (addItems clock 0 (∅, []) items).1 := by
  cases e with
  | hasAccess id now => exact Or.inl ⟨rfl, rfl⟩
  | setApiToken token => exact Or.inl ⟨rfl, rfl⟩
  | refresh fetch clock =>
    cases fetch with
    | noMemory => exact Or.inl ⟨rfl, by simp [step, refresh]⟩
    | failed => exact Or.inl ⟨rfl, by simp [step, refresh]⟩
    | response code buffer =>
      by_cases htoken : c.apiToken = []
      · refine Or.inl ⟨?_, by simp [step, refresh, htoken]⟩
        simp only [fetched, htoken]
        split <;> rfl
      · by_cases hcode : code = 200
        · subst hcode
          cases hparse : parse (cstr buffer) with
          | none => exact Or.inl (by simp [fetched, step, refresh, htoken, hparse])
          | some root =>
            cases root with
            | array items =>
              exact Or.inr ⟨items, clock, by simp [fetched, step, refresh, htoken, hparse]⟩
            | null => exact Or.inl (by simp [fetched, step, refresh, htoken, hparse])
            | bool b => exact Or.inl (by simp [fetched, step, refresh, htoken, hparse])
            | number d => exact Or.inl (by simp [fetched, step, refresh, htoken, hparse])
            | string s => exact Or.inl (by simp [fetched, step, refresh, htoken, hparse])
            | object fields => exact Or.inl (by simp [fetched, step, refresh, htoken, hparse])
        · refine Or.inl ⟨?_, by simp [step, refresh, htoken, hcode]⟩
          simp only [fetched, hcode, and_false, if_false]
          split <;> rfl

theorem run_snoc (parse : Bytes → Option Json) (events : List Event) (e : Event) :
    run parse (events ++ [e]) = step parse (run parse events) e :=
  Runs.exec_snoc _ _ _ _

/-- **The cache is the most recent array**, whatever came before and after it. -/
theorem granted_run (parse : Bytes → Option Json) (events : List Event) (id : CardId)
    (intId : Int) :
    granted (run parse events).cache id = some intId ↔
      ∃ items, lastFetched parse events = some items ∧ Grants items id intId := by
  induction events using List.reverseRecOn with
  | nil => simp [run, lastFetched, granted]
  | append_singleton events e ih =>
    have hemitted : lastFetched parse (events ++ [e]) =
        (Runs.emitted (step parse) (fetched parse) {} events ++
          fetched parse (run parse events) e).getLast? := by
      rw [lastFetched, Runs.emitted_append, Runs.emitted_cons, Runs.emitted_nil, List.append_nil]
      rfl
    rw [run_snoc, hemitted]
    rcases step_cases parse (run parse events) e with
      ⟨hnone, hcache⟩ | ⟨items, clock, hitems, hcache⟩
    · -- the most recent array is still the one before
      rw [hcache, hnone, List.append_nil]
      exact ih
    · rw [hcache, hitems, granted_fresh, List.getLast?_concat]
      simp

/-- A lookup tells `Allowed` with what the cache has, and `Unknown` otherwise. -/
theorem hasAccess_eq (identifier : Bytes) (c : CardCache) (id : CardId) (now : Int) :
    (c.hasAccess identifier id now).1 =
      match granted c.cache id with
      | some intId => { access := .allowed, userId := intId }
      | none => { access := .unknown, userId := -1 } := by
  rw [hasAccess, granted]
  cases c.cache[id]? <;> rfl

/-- **The answers of the cache.**  After any run, a card is allowed exactly when
    the most recent array fetched has a well-formed item for it, with the
    `int_id` of the last such item; otherwise it is unknown.  A round that
    fetches nothing leaves all answers as they were. -/
theorem hasAccess_run (parse : Bytes → Option Json) (identifier : Bytes) (events : List Event) :
    (∀ id now intId, ((run parse events).hasAccess identifier id now).1 =
        { access := .allowed, userId := intId } ↔
      ∃ items, lastFetched parse events = some items ∧ Grants items id intId) ∧
    (∀ id now, ((run parse events).hasAccess identifier id now).1 =
        { access := .unknown, userId := -1 } ↔
      ¬ ∃ items, lastFetched parse events = some items ∧
        ∃ item ∈ items, ∃ n, WellFormed item id n) ∧
    (∀ fetch clock, fetched parse (run parse events) (.refresh fetch clock) = [] →
      ∀ id now, (run parse (events ++ [.refresh fetch clock])).hasAccess identifier id now =
        (run parse events).hasAccess identifier id now) := by
  refine ⟨?_, ?_, ?_⟩
  · intro id now intId
    rw [hasAccess_eq, ← granted_run]
    cases granted (run parse events).cache id <;> simp
  · intro id now
    have hgranted := granted_run parse events id
    rw [hasAccess_eq]
    cases hcase : granted (run parse events).cache id with
    | some intId =>
      obtain ⟨items, hitems, before, item, after, rfl, hwell, _⟩ := (hgranted intId).mp hcase
      simp only [AccessResult.mk.injEq, reduceCtorEq, false_and, false_iff, not_not]
      exact ⟨_, hitems, item, by simp, intId, hwell⟩
    | none =>
      simp only [true_iff]
      rintro ⟨items, hitems, item, hmem, n, hwell⟩
      obtain ⟨intId, hgrants⟩ := exists_grants hmem hwell
      have hsome := (hgranted intId).mpr ⟨items, hitems, hgrants⟩
      rw [hcase] at hsome
      exact absurd hsome (by simp)
  · intro fetch clock hnone id now
    have hcache : (run parse (events ++ [.refresh fetch clock])).cache =
        (run parse events).cache := by
      rw [run_snoc]
      rcases step_cases parse (run parse events) (.refresh fetch clock) with
        ⟨_, hcache⟩ | ⟨items, _, hitems, _⟩
      · exact hcache
      · rw [hitems] at hnone
        exact absurd hnone (by simp)
    simp only [hasAccess, hcache]

/-- A library that reads every text as the same array: a card twice, and a
    number for a card. -/
def sampleParse (_ : Bytes) : Option Json :=
  some (.array [
    .object [(str "id", .number 1), (str "int_id", .number 6), (str "card_id", .string (str "2A"))],
    .object [(str "id", .number 2), (str "int_id", .number 7),
      (str "card_id", .string (str "000000002A"))],
    .object [(str "id", .number 3), (str "int_id", .number 8), (str "card_id", .number 42)]])

def sampleEvents : List Event :=
  [.setApiToken (str "token"), .refresh (.response 200 (str "[]")) fun _ => 0]

theorem hasAccess_run_sample :
    ((run sampleParse sampleEvents).hasAccess (str "main") 0x2A 0).1 =
        { access := .allowed, userId := 7 } ∧
    (run sampleParse (sampleEvents ++ [.refresh .failed fun _ => 0])).hasAccess
        (str "main") 0x2A 0 =
      (run sampleParse sampleEvents).hasAccess (str "main") 0x2A 0 :=
  ⟨by decide, (hasAccess_run sampleParse (str "main") sampleEvents).2.2 .failed (fun _ => 0) rfl
    0x2A 0⟩

/-! ### The texts that open the door for a card -/

/-- `s` is nothing but the digits of a card's number, blanks in front apart. -/
def SpellsExactly (s : Bytes) (id : CardId) : Prop :=
  ∃ blanks ds : Bytes, s = blanks ++ ds ∧ (∀ c ∈ blanks, Hex.isspace c = true) ∧ ds ≠ [] ∧
    (∀ c ∈ ds, Hex.IsDigit c) ∧ id = Hex.number (Hex.leading ds)

/-- The array has an item with a `card_id` that satisfies `P`. -/
def Lists (items : List Json) (P : Bytes → Prop) : Prop :=
  ∃ item ∈ items, ∃ cardId,
    Json.valuestring? (item.getObjectItem (str "card_id")) = some cardId ∧ P cardId

theorem lists_of_grants {items : List Json} {id : CardId} {intId : Int}
    (h : Grants items id intId) : Lists items fun cardId => getIdFromString cardId = id := by
  obtain ⟨before, item, after, rfl, ⟨_, cardId, _, _, hcard, hid, _⟩, _⟩ := h
  exact ⟨item, by simp, cardId, hcard, hid⟩

/-- **Which texts are read as a card.**  A text gives a card, not zero, exactly if
    it begins with the card's number: white space, perhaps a sign, perhaps a `0x`,
    and the digits; anything may follow.  A card is allowed only if the most recent
    array lists a text that begins so. -/
theorem allowed_reads (parse : Bytes → Option Json) (identifier : Bytes) (events : List Event)
    {id : CardId} (hid : id ≠ 0) :
    (∀ s, getIdFromString s = id ↔ Hex.Reads s id) ∧
    ∀ now intId, ((run parse events).hasAccess identifier id now).1 =
        { access := .allowed, userId := intId } →
      ∃ items, lastFetched parse events = some items ∧
        Lists items fun cardId => Hex.Reads cardId id := by
  refine ⟨fun s => Hex.extract_eq_iff hid, ?_⟩
  intro now intId h
  rw [hasAccess_eq] at h
  have hgranted : granted (run parse events).cache id = some intId := by
    cases hcase : granted (run parse events).cache id with
    | some n =>
      rw [hcase] at h
      exact congrArg some (AccessResult.mk.inj h).2.1
    | none =>
      rw [hcase] at h
      exact absurd (AccessResult.mk.inj h).1 (by decide)
  obtain ⟨items, hitems, hgrants⟩ := (granted_run parse events id intId).mp hgranted
  obtain ⟨item, hmem, cardId, hcard, hread⟩ := lists_of_grants hgrants
  exact ⟨items, hitems, item, hmem, cardId, hcard, (Hex.extract_eq_iff hid).mp hread⟩

theorem allowed_reads_sample :
    ((run sampleParse sampleEvents).hasAccess (str "main") 0x2A 0).1 =
        { access := .allowed, userId := 7 } ∧
      ∃ items, lastFetched sampleParse sampleEvents = some items ∧
        Lists items fun cardId => Hex.Reads cardId 0x2A :=
  ⟨by decide, (allowed_reads sampleParse (str "main") sampleEvents (by decide)).2 0 7 (by decide)⟩

/-- A text with something else behind the digits is read as well. -/
theorem not_spellsExactly :
    getIdFromString (str "2A-lost") = 0x2A ∧ ¬ SpellsExactly (str "2A-lost") 0x2A := by
  refine ⟨by decide, ?_⟩
  rintro ⟨blanks, ds, heq, hblanks, hne, hds, -⟩
  -- the `-` is neither white space nor a digit
  have hmem : (45 : UInt8) ∈ blanks ++ ds := by
    rw [← heq]
    decide
  rcases List.mem_append.mp hmem with h | h
  · exact absurd (hblanks _ h) (by decide)
  · exact absurd (hds _ h) (by decide)

end CardCache

end Acs.Esp32
