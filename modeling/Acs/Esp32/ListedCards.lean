/-
  Acs/Esp32/ListedCards.lean
  ==========================
  **From the backend's tables to the relay.**

  The card cache of the ESP32 frontend fetches the list of those who may use the
  machine; the body comes in chunks into a buffer of 10 kB, and cJSON reads it.
  The controller asks the cache for each card.  A card is allowed exactly if the
  last list that has been answered and has room in the buffer has an entry for it,
  however old that is, and the relay is energised for no other card
  (`listedCards_run`).  A longer list is truncated, cJSON cannot read it, and the
  older one stays.

  The JSON text of a list is Django's and cJSON's: that the one reads what the
  other writes, and not the beginning of it, is the hypothesis `Delivered`.  That a
  longer list is truncated, and not spliced, is the hypothesis `Truncated` on the
  lengths of its chunks.
-/
import Acs.Esp32.Door
import Acs.Esp32.Http
import Acs.Opi.CardCache

namespace Acs.Esp32

open Acs Acs.Backend Runs

open CardCache (Fetch Grants WellFormed granted addItems)
open Acs.Opi (ApiToken listRequest login listed)

/-! ### The list as JSON -/

def entryItem (e : V2Entry) : Json :=
  .object [
    (str "id", .createNumber e.id),
    (str "int_id", match e.intId with
      | some intId => .createNumber intId
      | none => .null),
    (str "card_id", match e.cardId with
      | some card => .string (str card)
      | none => .null),
    (str "name", .string (str e.name))]

/-- The firmware makes an entry for this card of it. -/
def ReadsAs (e : V2Entry) (id : CardId) : Prop :=
  e.intId.isSome = true ∧ ∃ card, e.cardId = some card ∧ getIdFromString (cstr (str card)) = id

theorem exists_wellFormed_iff {e : V2Entry} {id : CardId} :
    (∃ n, WellFormed (entryItem e) id n) ↔ ReadsAs e id := by
  have hcard : (entryItem e).getObjectItem (str "card_id") = some (match e.cardId with
      | some card => .string (str card)
      | none => .null) := rfl
  have hid : (entryItem e).getObjectItem (str "id") = some (.createNumber e.id) := rfl
  have hint : (entryItem e).getObjectItem (str "int_id") = some (match e.intId with
      | some intId => .createNumber intId
      | none => .null) := rfl
  simp only [WellFormed, hcard, hid, hint, ReadsAs]
  constructor
  · rintro ⟨n, fields, cardId, userId, -, hstring, hnumber, -, hintId⟩
    cases hcardId : e.cardId with
    | none =>
      rw [hcardId] at hstring
      cases hstring
    | some card =>
      rw [hcardId] at hstring
      cases hstring
      cases hintIdCase : e.intId with
      | none =>
        rw [hintIdCase] at hintId
        cases hintId
      | some intId => exact ⟨rfl, card, rfl, hnumber⟩
  · rintro ⟨hsome, card, hcardId, hnumber⟩
    obtain ⟨intId, hintId⟩ := Option.isSome_iff_exists.mp hsome
    rw [hcardId, hintId]
    exact ⟨_, _, _, _, rfl, rfl, hnumber, rfl, rfl⟩

/-! ### The frontend, its cache and the backend -/

/-- `HTTP_MAX_OUTPUT`. -/
def httpMaxOutput : Int := 10 * 1024

/-- How a request for the list goes; a response is that of the backend at the
    time, and comes in chunks. -/
inductive Answer where
  | noMemory
  | failed
  | response (db : Database) (current : Current) (memory : Int → UInt8) (chunks : List Chunk)

/-- The status; any other than 200 is the same here. -/
def statusCode : Reply → Int
  | .refused _ => 401
  | _ => 200

/-- What the card cache gets. -/
def Answer.fetch (token : ApiToken) : Answer → Fetch
  | .noMemory => .noMemory
  | .failed => .failed
  | .response db current memory chunks =>
    .response (statusCode (reply db current (listRequest token)))
      (Transfer.run memory httpMaxOutput (chunks.map .onData)).httpData.text

/-- The list in the answer. -/
def Answer.list (token : ApiToken) : Answer → Option (List V2Entry)
  | .response db current _ _ => listed (reply db current (listRequest token))
  | _ => none

/-- A round of the card cache, or an iteration of the controller; `now` is when it
    asks the cache. -/
inductive SiteTurn where
  | fetch (answer : Answer) (clock : Nat → Int)
  | iterate (i : Input) (now : Int)

/-- The list in the turn. -/
def SiteTurn.list (token : ApiToken) : SiteTurn → Option (List V2Entry)
  | .fetch answer _ => answer.list token
  | .iterate _ _ => none

structure Site where
  cards : CardCache
  controller : Controller

namespace Site

variable (parse : Bytes → Option Json) (boot : Boot) (token : ApiToken)

/-- `main` sets the token before it starts the threads. -/
def start : Site where
  cards := { apiToken := str token.1 }
  controller := Controller.start boot

/-- The iteration as the controller sees it. -/
def seen (s : Site) : SiteTurn → List Input
  | .fetch _ _ => []
  | .iterate i now => [{ i with access := (s.cards.hasAccess boot.identifier i.cardId now).1 }]

def step (s : Site) (turn : SiteTurn) : Site where
  cards := match turn with
    | .fetch answer clock => (s.cards.refresh parse (answer.fetch token) clock).1
    | .iterate _ _ => s.cards
  controller := exec (Controller.iterate boot) s.controller (s.seen boot turn)

def run (turns : List SiteTurn) : Site := exec (step parse boot token) (start boot token) turns

end Site

/-- The text of a list has room in the buffer. -/
def HasRoom (body : List V2Entry → Bytes) (entries : List V2Entry) : Prop :=
  (body entries).length < httpMaxOutput

instance (body : List V2Entry → Bytes) (entries : List V2Entry) :
    Decidable (HasRoom body entries) := inferInstanceAs (Decidable (_ < _))

/-- The list in the turn, if it has room. -/
def SiteTurn.roomy (body : List V2Entry → Bytes) (token : ApiToken) (turn : SiteTurn) :
    Option (List V2Entry) :=
  (turn.list token).filter fun entries => HasRoom body entries

/-- The last list that has been answered and had room in the buffer. -/
def lastList (body : List V2Entry → Bytes) (token : ApiToken) (turns : List SiteTurn) :
    Option (List V2Entry) :=
  (turns.filterMap (SiteTurn.roomy body token)).getLast?

/-- cJSON reads the text of a list, and does not read a text that ends in the middle
    of it. -/
structure Reads (parse : Bytes → Option Json) (body : List V2Entry → Bytes)
    (entries : List V2Entry) : Prop where
  noNul : 0 ∉ body entries
  whole : parse (body entries) = some (.array (entries.map entryItem))
  part : ∀ text, text <+: body entries → text ≠ body entries → parse text = none

/-- The chunks of a list are its JSON text, which cJSON reads. -/
def Delivered (parse : Bytes → Option Json) (body : List V2Entry → Bytes) (token : ApiToken) :
    SiteTurn → Prop
  | .fetch (.response db current _ chunks) _ =>
    ∀ entries, listed (reply db current (listRequest token)) = some entries →
      chunks.flatMap (·.data) = body entries ∧ Reads parse body entries
  | _ => True

/-- The first chunk has room in the buffer, and after one that has none there is
    none any more. -/
def Truncated (token : ApiToken) : SiteTurn → Prop
  | .fetch (.response db current _ chunks) _ =>
    (listed (reply db current (listRequest token))).isSome = true →
      ∃ kept refused, chunks = kept ++ refused ∧ kept ≠ [] ∧
        Transfer.Truncates httpMaxOutput kept refused
  | _ => True

/-! ### The buffer -/

theorem length_flatMap_data (chunks : List Chunk) :
    (chunks.flatMap (·.data)).length = Transfer.bodyLength chunks := by
  rw [List.length_flatMap, Transfer.bodyLength]

/-- A body that has room is in the buffer as it was sent. -/
theorem text_of_room (memory : Int → UInt8) {kept refused : List Chunk} {body : Bytes}
    (h : Transfer.Truncates httpMaxOutput kept refused)
    (hbody : (kept ++ refused).flatMap (·.data) = body) (hroom : body.length < httpMaxOutput) :
    (Transfer.run memory httpMaxOutput ((kept ++ refused).map .onData)).httpData.text = body := by
  rw [Transfer.text_of_truncates memory (by decide) h]
  cases refused with
  | nil => rwa [List.append_nil] at hbody
  | cons chunk refused =>
    have hfull := (h.full chunk List.mem_cons_self).1
    rw [← hbody, List.flatMap_append, List.flatMap_cons, List.length_append, List.length_append,
      length_flatMap_data] at hroom
    omega

/-- Of a body without room there is the beginning in the buffer. -/
theorem text_of_no_room (memory : Int → UInt8) {kept refused : List Chunk} {body : Bytes}
    (h : Transfer.Truncates httpMaxOutput kept refused)
    (hbody : (kept ++ refused).flatMap (·.data) = body) (hroom : ¬ body.length < httpMaxOutput) :
    (Transfer.run memory httpMaxOutput ((kept ++ refused).map .onData)).httpData.text <+: body ∧
      (Transfer.run memory httpMaxOutput ((kept ++ refused).map .onData)).httpData.text ≠ body := by
  rw [Transfer.text_of_truncates memory (by decide) h]
  constructor
  · rw [← hbody, List.flatMap_append]
    exact List.prefix_append _ _
  · intro heq
    apply hroom
    rw [← heq, length_flatMap_data]
    exact h.room

/-! ### What the cache holds -/

section Cache

variable {parse : Bytes → Option Json} {boot : Boot} {token : ApiToken}
  {body : List V2Entry → Bytes}

theorem statusCode_list {db : Database} {current : Current} {entries : List V2Entry}
    (h : listed (reply db current (listRequest token)) = some entries) :
    statusCode (reply db current (listRequest token)) = 200 := by
  rw [Opi.reply_listRequest] at h ⊢
  cases hlogin : login db token with
  | error err =>
    rw [hlogin] at h
    cases h
  | ok mId => rfl

/-- A round without a list changes nothing. -/
theorem cache_of_no_list {c : CardCache} {answer : Answer} (h : answer.list token = none)
    (clock : Nat → Int) : (c.refresh parse (answer.fetch token) clock).1.cache = c.cache := by
  by_cases htoken : c.apiToken = []
  · simp [CardCache.refresh, htoken]
  cases answer with
  | noMemory => simp [CardCache.refresh, Answer.fetch]
  | failed => simp [CardCache.refresh, Answer.fetch]
  | response db current memory chunks =>
    have hcode : statusCode (reply db current (listRequest token)) ≠ 200 := by
      rw [Answer.list, Opi.reply_listRequest] at h
      rw [Opi.reply_listRequest]
      cases hlogin : login db token with
      | error err => exact (by decide : (401 : Int) ≠ 200)
      | ok mId =>
        rw [hlogin] at h
        cases h
    simp [CardCache.refresh, Answer.fetch, htoken, hcode]

/-- A round with a list that has no room changes nothing. -/
theorem cache_of_no_room {c : CardCache} {answer : Answer} {entries : List V2Entry}
    (h : answer.list token = some entries) (hroom : ¬ HasRoom body entries) {clock : Nat → Int}
    (hdelivered : Delivered parse body token (.fetch answer clock))
    (htruncated : Truncated token (.fetch answer clock)) :
    (c.refresh parse (answer.fetch token) clock).1.cache = c.cache := by
  by_cases htoken : c.apiToken = []
  · simp [CardCache.refresh, htoken]
  cases answer with
  | noMemory => cases h
  | failed => cases h
  | response db current memory chunks =>
    have hlist : listed (reply db current (listRequest token)) = some entries := h
    obtain ⟨hchunks, hreads⟩ := hdelivered entries hlist
    obtain ⟨kept, refused, rfl, -, htruncates⟩ :=
      htruncated (Option.isSome_iff_exists.mpr ⟨entries, hlist⟩)
    obtain ⟨hfront, hne⟩ := text_of_no_room memory htruncates hchunks hroom
    rw [Answer.fetch, statusCode_list hlist]
    generalize (Transfer.run memory httpMaxOutput
      ((kept ++ refused).map .onData)).httpData.text = text at hfront hne ⊢
    have hzero : 0 ∉ text := fun hmem => hreads.noNul (hfront.subset hmem)
    simp [CardCache.refresh, htoken, cstr_eq_self hzero, hreads.part text hfront hne]

/-- A round with a list that has room makes a new cache of its entries. -/
theorem cache_of_room {c : CardCache} (htoken : c.apiToken ≠ []) {answer : Answer}
    {entries : List V2Entry} (h : answer.list token = some entries) (hroom : HasRoom body entries)
    {clock : Nat → Int} (hdelivered : Delivered parse body token (.fetch answer clock))
    (htruncated : Truncated token (.fetch answer clock)) :
    (c.refresh parse (answer.fetch token) clock).1.cache =
      (addItems clock 0 (∅, []) (entries.map entryItem)).1 := by
  cases answer with
  | noMemory => cases h
  | failed => cases h
  | response db current memory chunks =>
    have hlist : listed (reply db current (listRequest token)) = some entries := h
    obtain ⟨hchunks, hreads⟩ := hdelivered entries hlist
    obtain ⟨kept, refused, rfl, -, htruncates⟩ :=
      htruncated (Option.isSome_iff_exists.mpr ⟨entries, hlist⟩)
    rw [Answer.fetch, statusCode_list hlist, text_of_room memory htruncates hchunks hroom]
    simp [CardCache.refresh, htoken, cstr_eq_self hreads.noNul, hreads.whole]

theorem granted_list (clock : Nat → Int) (entries : List V2Entry) (id : CardId) :
    (granted (addItems clock 0 (∅, []) (entries.map entryItem)).1 id).isSome = true ↔
      ∃ e ∈ entries, ReadsAs e id := by
  rw [Option.isSome_iff_exists]
  simp only [CardCache.granted_fresh]
  constructor
  · rintro ⟨intId, before, item, after, hitems, hwell, -⟩
    have hmem : item ∈ entries.map entryItem := by
      rw [hitems]
      exact List.mem_append_right before List.mem_cons_self
    obtain ⟨e, he, rfl⟩ := List.mem_map.mp hmem
    exact ⟨e, he, exists_wellFormed_iff.mp ⟨intId, hwell⟩⟩
  · rintro ⟨e, he, hreads⟩
    obtain ⟨n, hwell⟩ := exists_wellFormed_iff.mpr hreads
    exact CardCache.exists_grants (List.mem_map_of_mem he) hwell

theorem apiToken_refresh (c : CardCache) (fetch : Fetch) (clock : Nat → Int) :
    (c.refresh parse fetch clock).1.apiToken = c.apiToken := by
  rw [CardCache.refresh.eq_def]
  split
  · rfl
  split
  · rfl
  · rfl
  split
  · rfl
  dsimp only
  split <;> rfl

theorem token_ne_nil (token : ApiToken) : str token.1 ≠ [] := by
  obtain ⟨token, hne⟩ := token
  intro hnil
  rw [str, List.flatMap_eq_nil_iff] at hnil
  cases hchars : token.toList with
  | nil => exact hne (String.toList_eq_nil_iff.mp hchars)
  | cons c chars =>
    have hlength := congrArg List.length (hnil c (by rw [hchars]; exact List.mem_cons_self))
    rw [String.length_utf8EncodeChar] at hlength
    exact absurd hlength (Nat.ne_of_gt c.utf8Size_pos)

theorem lastList_snoc (body : List V2Entry → Bytes) (token : ApiToken) (turns : List SiteTurn)
    (turn : SiteTurn) :
    lastList body token (turns ++ [turn]) =
      (turn.roomy body token).or (lastList body token turns) := by
  rw [lastList, List.filterMap_append]
  cases hlist : turn.roomy body token with
  | none =>
    rw [List.filterMap_cons_none hlist, List.filterMap_nil, List.append_nil]
    rfl
  | some entries =>
    rw [List.filterMap_cons_some hlist, List.filterMap_nil, List.getLast?_concat]
    rfl

/-- **The cache is the last list**, as far as cards are concerned. -/
theorem cards_run {turns : List SiteTurn} (h : ∀ turn ∈ turns, Delivered parse body token turn)
    (h' : ∀ turn ∈ turns, Truncated token turn) :
    (Site.run parse boot token turns).cards.apiToken = str token.1 ∧
      ∀ id, (granted (Site.run parse boot token turns).cards.cache id).isSome = true ↔
        ∃ entries, lastList body token turns = some entries ∧ ∃ e ∈ entries, ReadsAs e id := by
  induction turns using List.reverseRecOn with
  | nil =>
    refine ⟨rfl, fun id => iff_of_false ?_ ?_⟩
    · have hnone : granted (∅ : Cache) id = none := by
        rw [granted, Std.TreeMap.getElem?_emptyc]
        rfl
      have hstart : granted (Site.run parse boot token []).cards.cache id = none := hnone
      rw [hstart]
      exact Bool.false_ne_true
    · rintro ⟨entries, hlist, -⟩
      cases hlist
  | append_singleton turns turn ih =>
    rw [List.forall_mem_append, List.forall_mem_singleton] at h h'
    obtain ⟨htoken, hcards⟩ := ih h.1 h'.1
    rw [Site.run, exec_snoc, ← Site.run, lastList_snoc]
    cases turn with
    | iterate i now => exact ⟨htoken, hcards⟩
    | fetch answer clock =>
      refine ⟨(apiToken_refresh _ _ clock).trans htoken, ?_⟩
      have hsome : (Site.run parse boot token turns).cards.apiToken ≠ [] := by
        rw [htoken]
        exact token_ne_nil token
      intro id
      rw [Site.step, SiteTurn.roomy, SiteTurn.list]
      dsimp only
      cases hlist : answer.list token with
      | none =>
        rw [cache_of_no_list hlist, Option.filter_none, Option.none_or]
        exact hcards id
      | some entries =>
        by_cases hroom : HasRoom body entries
        · rw [cache_of_room hsome hlist hroom h.2 h'.2, granted_list, Option.filter_some,
            decide_eq_true hroom]
          simp
        · rw [cache_of_no_room hlist hroom h.2 h'.2, Option.filter_some, decide_eq_false hroom,
            if_neg Bool.false_ne_true, Option.none_or]
          exact hcards id

end Cache

/-! ### In a run -/

section Run

variable (parse : Bytes → Option Json) (boot : Boot) (token : ApiToken)
  (body : List V2Entry → Bytes)

/-- The iterations of the controller in the turns, from `s` on. -/
def inputs (s : Site) (turns : List SiteTurn) : List Input :=
  emitted (Site.step parse boot token) (Site.seen boot) s turns

theorem controller_exec (s : Site) (turns : List SiteTurn) :
    (exec (Site.step parse boot token) s turns).controller =
      exec (Controller.iterate boot) s.controller (inputs parse boot token s turns) :=
  exec_refinement (Site.step parse boot token) (Controller.iterate boot) (Site.seen boot)
    Site.controller (fun _ => True) (fun _ _ => True) (fun _ _ _ _ => trivial)
    (fun _ _ _ _ => rfl) trivial
    (along_of_forall (P := fun _ => True) (Site.step parse boot token) fun _ _ => trivial)

theorem controller_run (turns : List SiteTurn) :
    (Site.run parse boot token turns).controller =
      Controller.run boot (inputs parse boot token (Site.start boot token) turns) :=
  controller_exec parse boot token (Site.start boot token) turns

/-- Somebody who opens the door in the turn, and who is on the list if it is with
    a card; since then every iteration has unlocked the door. -/
structure Opener (earlier : List SiteTurn) (j : Input) (time : Int) (after : List SiteTurn)
    (why : Controller.Authority) : Prop where
  holds : (Site.run parse boot token earlier).controller.Holds
    { j with access := ((Site.run parse boot token earlier).cards.hasAccess boot.identifier
        j.cardId time).1 } why
  listed : ∀ id, why = .card id →
    ∃ entries, lastList body token earlier = some entries ∧ ∃ e ∈ entries, ReadsAs e id
  since : Along (Controller.iterate boot) (Controller.Unlocks boot)
    (Site.run parse boot token (earlier ++ [.iterate j time])).controller
    (inputs parse boot token (Site.run parse boot token (earlier ++ [.iterate j time]))
      after).dropLast

/-- What the last list decides, and for whom the relay is energised. -/
structure ListedCards (turns : List SiteTurn) (i : Input) (now : Int) : Prop where
  allowed : ∀ id time,
    ((Site.run parse boot token turns).cards.hasAccess boot.identifier id time).1.access = .allowed ↔
      ∃ entries, lastList body token turns = some entries ∧ ∃ e ∈ entries, ReadsAs e id
  /-- The entries are the active members with the machine, at the time of the answer. -/
  members : ∀ entries, lastList body token turns = some entries →
    ∃ db current memory chunks clock mId,
      .fetch (.response db current memory chunks) clock ∈ turns ∧ login db token = .ok mId ∧
        ∀ e, e ∈ entries ↔ ∃ user ∈ db.members, user.isActive = true ∧
          machineExists db user mId = true ∧ e = ⟨user.id, user.flIntId, user.cardId, user.name⟩
  relay : Controller.Energised (Site.run parse boot token (turns ++ [.iterate i now])).controller →
    ∃ earlier j time after why, turns ++ [.iterate i now] = earlier ++ .iterate j time :: after ∧
      Opener parse boot token body earlier j time after why

theorem members_of_lastList {turns : List SiteTurn} {entries : List V2Entry}
    (h : lastList body token turns = some entries) :
    ∃ db current memory chunks clock mId,
      .fetch (.response db current memory chunks) clock ∈ turns ∧ login db token = .ok mId ∧
        ∀ e, e ∈ entries ↔ ∃ user ∈ db.members, user.isActive = true ∧
          machineExists db user mId = true ∧
            e = ⟨user.id, user.flIntId, user.cardId, user.name⟩ := by
  obtain ⟨turn, hturn, hroomy⟩ := List.mem_filterMap.mp (List.mem_of_getLast? h)
  have hlist := (Option.filter_eq_some_iff.mp hroomy).1
  cases turn with
  | iterate i now => cases hlist
  | fetch answer clock =>
    cases answer with
    | noMemory => cases hlist
    | failed => cases hlist
    | response db current memory chunks =>
      rw [SiteTurn.list, Answer.list, Opi.reply_listRequest] at hlist
      cases hlogin : login db token with
      | error err =>
        rw [hlogin] at hlist
        cases hlist
      | ok mId =>
        rw [hlogin] at hlist
        cases hlist
        exact ⟨db, current, memory, chunks, clock, mId, hturn, hlogin, fun e => mem_machineV2List⟩

variable {parse boot token body}

theorem allowed_iff {turns : List SiteTurn} (h : ∀ turn ∈ turns, Delivered parse body token turn)
    (h' : ∀ turn ∈ turns, Truncated token turn) (id : CardId) (time : Int) :
    ((Site.run parse boot token turns).cards.hasAccess boot.identifier id time).1.access = .allowed ↔
      ∃ entries, lastList body token turns = some entries ∧ ∃ e ∈ entries, ReadsAs e id := by
  rw [← (cards_run h h').2 id, CardCache.hasAccess_eq]
  cases granted (Site.run parse boot token turns).cards.cache id <;> simp

/-- An iteration of the controller is that of a turn. -/
theorem turn_of_input {s : Site} {turns : List SiteTurn} {front back : List Input} {j : Input}
    (h : inputs parse boot token s turns = front ++ j :: back) :
    ∃ earlier i time after, turns = earlier ++ .iterate i time :: after ∧
      j = { i with access := ((exec (Site.step parse boot token) s earlier).cards.hasAccess
        boot.identifier i.cardId time).1 } ∧
      front = inputs parse boot token s earlier ∧
      back = inputs parse boot token
        (exec (Site.step parse boot token) s (earlier ++ [.iterate i time])) after := by
  obtain ⟨earlier, turn, after, before, rest, rfl, hseen, rfl, rfl⟩ :=
    emitted_eq_append_cons (Site.step parse boot token) (Site.seen boot) h
  cases turn with
  | fetch answer clock =>
    exact absurd hseen.symm (List.append_ne_nil_of_right_ne_nil _ (List.cons_ne_nil _ _))
  | iterate i time =>
    rcases List.append_eq_singleton_iff.mp hseen.symm with ⟨rfl, hrest⟩ | ⟨-, hrest⟩
    · obtain ⟨rfl, rfl⟩ := List.cons.inj hrest
      exact ⟨earlier, i, time, after, rfl, rfl, List.append_nil _, rfl⟩
    · cases hrest

/-- **From the tables to the relay.** -/
theorem listedCards_run (turns : List SiteTurn) (i : Input) (now : Int)
    (hdelivered : ∀ turn ∈ turns, Delivered parse body token turn)
    (htruncated : ∀ turn ∈ turns, Truncated token turn)
    (hclock : ∀ j time, .iterate j time ∈ turns → Controller.AfterEpoch j) :
    ListedCards parse boot token body turns i now := by
  refine ⟨fun id time => allowed_iff hdelivered htruncated id time,
    fun entries h => members_of_lastList token body h, ?_⟩
  intro henergised
  let i' : Input := { i with access :=
    ((Site.run parse boot token turns).cards.hasAccess boot.identifier i.cardId now).1 }
  have hall : inputs parse boot token (Site.start boot token) (turns ++ [.iterate i now]) =
      inputs parse boot token (Site.start boot token) turns ++ [i'] := by
    rw [inputs, emitted_append, emitted_cons, emitted_nil, List.append_nil]
    rfl
  have hclocks : ∀ j ∈ inputs parse boot token (Site.start boot token) turns,
      Controller.AfterEpoch j := by
    intro j hj
    obtain ⟨front, back, heq⟩ := List.append_of_mem hj
    obtain ⟨earlier, k, time, after, rfl, rfl, -, -⟩ := turn_of_input heq
    exact hclock k time (List.mem_append_right earlier List.mem_cons_self)
  rw [controller_run, hall, Controller.run_snoc] at henergised
  obtain ⟨front, j, back, why, heq, hholds, hsince⟩ :=
    Controller.exists_holder_of_energised hclocks henergised
  rw [← hall] at heq
  obtain ⟨earlier, k, time, after, hturns, rfl, rfl, rfl⟩ := turn_of_input heq
  have hsnoc : inputs parse boot token (Site.start boot token) (earlier ++ [.iterate k time]) =
      inputs parse boot token (Site.start boot token) earlier ++
        [{ k with access := ((Site.run parse boot token earlier).cards.hasAccess boot.identifier
          k.cardId time).1 }] := by
    rw [inputs, emitted_append, emitted_cons, emitted_nil, List.append_nil]
    rfl
  refine ⟨earlier, k, time, after, why, hturns, ?_, ?_, ?_⟩
  · rw [controller_run]
    exact hholds
  · intro id hwhy
    rw [hwhy] at hholds
    obtain ⟨-, hcard, haccess⟩ := hholds
    have hbefore : ∀ turn ∈ earlier, Delivered parse body token turn ∧ Truncated token turn := by
      intro turn hturn
      have hmem : turn ∈ turns ++ [.iterate i now] := by
        rw [hturns]
        exact List.mem_append_left _ hturn
      rcases List.mem_append.mp hmem with h | h
      · exact ⟨hdelivered turn h, htruncated turn h⟩
      · rw [List.mem_singleton.mp h]
        exact ⟨trivial, trivial⟩
    obtain rfl : k.cardId = id := hcard
    exact (allowed_iff (fun turn h => (hbefore turn h).1) (fun turn h => (hbefore turn h).2)
      k.cardId time).mp haccess
  · rw [controller_run, hsnoc]
    exact hsince

end Run

/-! ### A card on the list -/

def sampleText : Bytes :=
  str "[\x7b\"id\":7,\"int_id\":3,\"card_id\":\"3F0078E2AE\",\"name\":\"Ann Lee\"\x7d]"

def sampleEntries : List V2Entry := [⟨7, some 3, some (Opi.cardText 0x3F0078E2AE), "Ann Lee"⟩]

/-- The renderer and the parser on this list. -/
def sampleBody (_ : List V2Entry) : Bytes := sampleText

def sampleParse (text : Bytes) : Option Json :=
  if text = sampleText then some (.array (sampleEntries.map entryItem)) else none

/-- The list is fetched in two chunks, a second time without success, and the card
    is swiped at the locked door. -/
def sampleTurns : List SiteTurn :=
  [.fetch (.response (Opi.cardDatabase 0x3F0078E2AE) ⟨none, none⟩ (fun _ => 0)
      [⟨sampleText.take 30, by decide⟩, ⟨sampleText.drop 30, by decide⟩]) (fun _ => 0),
    .iterate (Controller.sampleInput 100 {}) 0,
    .fetch .failed (fun _ => 0),
    .iterate { Controller.sampleInput 101 {} with cardId := 0x3F0078E2AE } 0]

theorem reads_sample : Reads sampleParse sampleBody sampleEntries where
  noNul := by decide
  whole := if_pos rfl
  part _ _ hne := if_neg hne

theorem delivered_sample :
    ∀ turn ∈ sampleTurns, Delivered sampleParse sampleBody Opi.cardToken turn := by
  have hlist : listed (reply (Opi.cardDatabase 0x3F0078E2AE) ⟨none, none⟩
      (listRequest Opi.cardToken)) = some sampleEntries := by rfl
  simp only [sampleTurns, List.forall_mem_cons, List.not_mem_nil, false_imp_iff, implies_true,
    and_true]
  refine ⟨?_, trivial, trivial, trivial⟩
  intro entries hentries
  rw [hlist] at hentries
  cases hentries
  exact ⟨by decide, reads_sample⟩

theorem truncated_sample : ∀ turn ∈ sampleTurns, Truncated Opi.cardToken turn := by
  simp only [sampleTurns, List.forall_mem_cons, List.not_mem_nil, false_imp_iff, implies_true,
    and_true]
  refine ⟨?_, trivial, trivial, trivial⟩
  intro _
  exact ⟨_, [], (List.append_nil _).symm, List.cons_ne_nil _ _, by decide, List.forall_mem_nil _⟩

theorem listedCards_run_sample :
    ((Site.run sampleParse Controller.sampleBoot Opi.cardToken sampleTurns).cards.hasAccess
      Controller.sampleBoot.identifier 0x3F0078E2AE 0).1.access = .allowed := by
  have hclock : ∀ j time, .iterate j time ∈ sampleTurns → Controller.AfterEpoch j := by
    intro j time h
    simp only [sampleTurns, List.mem_cons, reduceCtorEq, SiteTurn.iterate.injEq, List.not_mem_nil,
      false_or, or_false] at h
    rcases h with ⟨rfl, -⟩ | ⟨rfl, -⟩ <;> exact ⟨by decide, by decide⟩
  have hlisted : ListedCards sampleParse Controller.sampleBoot Opi.cardToken sampleBody sampleTurns
      (Controller.sampleInput 102 {}) 0 :=
    listedCards_run sampleTurns (Controller.sampleInput 102 {}) 0 delivered_sample truncated_sample
      hclock
  refine (hlisted.allowed _ _).mpr ⟨sampleEntries, by rfl, _, List.mem_cons_self, rfl, _, rfl, ?_⟩
  decide

end Acs.Esp32
