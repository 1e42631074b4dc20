/-
  Acs/Barn/CardForm.lean
  ======================
  **The form in which the barn scripts send a card.**

  The backend compares texts, and card ids are stored with ten digits, filled
  with zeros (`Opi.cardText`).  The reader fills with blanks, and nothing in
  between changes that: `read_id` keeps the blanks after `ID`, and the scripts
  pass on what `getid` gives them.  So the two forms are the same only where
  there is nothing to fill (`cardForm_iff`).
-/
import Acs.Barn.Main

namespace Acs.Barn

open Acs Effects

variable {τ : Type}

/-! ### Runs with the reader -/

/-- A turn of the reader thread that the reader answers with `id`, or one of the
    main loop. -/
inductive Moment (τ : Type) where
  | answered (id : RfidId) (now : Int)
  | turn (i : τ)

def Moment.event : Moment τ → Event τ
  | .answered id now => .reply (Reader.cardReply id) now
  | .turn i => .turn i

/-- The last card that the reader has answered; zero is no card. -/
def lastCard : List (Moment τ) → Option RfidId :=
  List.foldl (fun last m =>
    match m with
    | .answered id _ => if id.1 = 0 then last else some id
    | .turn _ => last) none

/-- What the thread holds is the text of the last card, or nothing. -/
structure Shows (last : Option RfidId) (r : RfidReader) : Prop where
  ser : r.ser = []
  alive : r.alive = true
  tag : r.tagId = "" ∨ ∃ id, last = some id ∧ r.tagId = Opi.askedText id.1

/-- A reader after `__init__`. -/
def RfidReader.Fresh (r : RfidReader) : Prop := r.ser = [] ∧ r.tagId = "" ∧ r.alive = true

theorem Shows.turn {last : Option RfidId} {r : RfidReader} (h : Shows last r) (id : RfidId)
    (now : Int) :
    Shows (if id.1 = 0 then last else some id) (r.turn (Reader.cardReply id) now) := by
  rw [RfidReader.turn, if_pos h.alive, RfidReader.readId_cardReply h.ser]
  dsimp only
  by_cases hid : id.1 = 0
  · rw [if_pos hid, RfidReader.shown, if_pos hid]
    exact h
  · have hlen : (Opi.askedText id.1).length > 0 := by
      rw [Opi.askedText, text, String.length_ofList, List.length_map,
        Hex.length_padSpace (by decide) id.2]
      decide
    rw [if_neg hid, RfidReader.shown, if_neg hid, if_pos hlen]
    exact ⟨h.ser, h.alive, .inr ⟨id, rfl, rfl⟩⟩

/-- The reader shows the last card, and every card that was checked in this turn is
    it. -/
def OnlyLast (last : Option RfidId) (s : State) : Prop :=
  Shows last s.reader ∧
    ∀ c, .checkCard c ∈ s.calls → ∃ id, last = some id ∧ c = Opi.askedText id.1

theorem kept_onlyLast (last : Option RfidId) : Kept (OnlyLast last) fun c =>
    c = "" ∨ ∃ id, last = some id ∧ c = Opi.askedText id.1 where
  vars s t hreader hcalls hs := by rwa [OnlyLast, hreader, hcalls]
  getid s now hs := by
    rw [RfidReader.getid]
    split
    · exact ⟨⟨⟨hs.1.ser, hs.1.alive, .inl rfl⟩, hs.2⟩, hs.1.tag⟩
    · exact ⟨hs, .inl rfl⟩
  check s cardId hs hne hcard := by
    refine ⟨hs.1, ?_⟩
    intro c hc
    rcases List.mem_append.mp hc with hc | hc
    · exact hs.2 c hc
    · cases List.mem_singleton.mp hc
      exact hcard.resolve_left hne

theorem onlyLast_setLock (last : Option RfidId) (s : State) (on : Bool) (hs : OnlyLast last s) :
    OnlyLast last (s.record (.setLock on)) := by
  refine ⟨hs.1, ?_⟩
  intro c hc
  rcases List.mem_append.mp hc with hc | hc
  · exact hs.2 c hc
  · exact nomatch List.mem_singleton.mp hc

theorem lastCard_snoc (ms : List (Moment τ)) (m : Moment τ) :
    lastCard (ms ++ [m]) =
      match m with
      | .answered id _ => if id.1 = 0 then lastCard ms else some id
      | .turn _ => lastCard ms :=
  List.foldl_append

theorem after_reader (s : State) (turn : Action Unit) :
    (s.after turn).reader = (final (turn s.begin)).reader := by
  rw [State.after]
  split
  · next h => rw [h, final_ok]
  · next h => rw [h, final_error]

section Run

variable {loop : τ → Action Unit}

/-- The reader shows the last card as long as the script runs. -/
theorem shows_run (hloop : ∀ last i, Keeps (OnlyLast last) (loop i) fun _ => True) {s : State}
    (hfresh : s.reader.Fresh) (ms : List (Moment τ))
    (hrunning : (Runs.exec (step loop) s (ms.map Moment.event)).running = true) :
    Shows (lastCard ms) (Runs.exec (step loop) s (ms.map Moment.event)).reader := by
  induction ms using List.reverseRecOn with
  | nil => exact ⟨hfresh.1, hfresh.2.2, .inl hfresh.2.1⟩
  | append_singleton ms m ih =>
    rw [List.map_append, List.map_singleton, Runs.exec_snoc] at hrunning ⊢
    rw [lastCard_snoc]
    generalize Runs.exec (step loop) s (ms.map Moment.event) = t at *
    by_cases ht : t.running = true
    · have hshows := ih ht
      cases m with
      | answered id now =>
        rw [Moment.event, step_reply ht]
        exact hshows.turn id now
      | turn i =>
        have hbegin : OnlyLast (lastCard ms) t.begin :=
          ⟨hshows, fun _ hc => absurd hc List.not_mem_nil⟩
        rw [Moment.event, step_turn ht, after_reader]
        exact (hloop (lastCard ms) i t.begin hbegin).1.1
    · rw [step_ended ht] at hrunning
      exact absurd hrunning ht

/-- In a run from a start with a fresh reader, the turns after the card `id` pass
    `card` to `check_card`, and nothing else. -/
def PassedAs (loop : τ → Action Unit) (id : RfidId) (card : String) : Prop :=
  ∀ (s : State) (ms : List (Moment τ)) (i : τ), s.reader.Fresh → lastCard ms = some id →
    ∀ calls ∈ turnCalls loop (Runs.exec (step loop) s (ms.map Moment.event)) (.turn i),
      ∀ c, .checkCard c ∈ calls → c = card

theorem passedAs_askedText (hloop : ∀ last i, Keeps (OnlyLast last) (loop i) fun _ => True)
    (id : RfidId) : PassedAs loop id (Opi.askedText id.1) := by
  intro s ms i hfresh hlast calls hcalls c hc
  have hshows := shows_run hloop hfresh ms
  generalize Runs.exec (step loop) s (ms.map Moment.event) = t at *
  rw [turnCalls] at hcalls
  split at hcalls
  · next ht =>
    rw [List.mem_singleton.mp hcalls] at hc
    have hbegin : OnlyLast (lastCard ms) t.begin :=
      ⟨hshows ht, fun _ h => absurd h List.not_mem_nil⟩
    obtain ⟨last, hlast', rfl⟩ := (hloop (lastCard ms) i t.begin hbegin).1.2 c hc
    rw [Option.some.inj (hlast.symm.trans hlast')]
  · exact absurd hcalls List.not_mem_nil

end Run

theorem doorTurn_passedAs (id : RfidId) : PassedAs doorTurn id (Opi.askedText id.1) :=
  passedAs_askedText
    (fun last i => (kept_onlyLast last).doorTurn (onlyLast_setLock last) i) id

theorem woodshopTurn_passedAs (id : RfidId) : PassedAs woodshopTurn id (Opi.askedText id.1) :=
  passedAs_askedText
    (fun last i => (kept_onlyLast last).woodshopTurn (onlyLast_setLock last) i) id

/-- What follows at the backend: with less than ten digits every card is unknown,
    whoever has it. -/
theorem machineList_askedText {db : Backend.Database} (hform : Opi.CardsFormatted db)
    (mId : Option Nat) {id : RfidId} (hshort : id.1 < 16 ^ 9) :
    Backend.machineList db mId (some (Opi.askedText id.1)) = .ok (.denied "Unknown card") := by
  have hnobody : db.members.filter (fun user => user.cardId == some (Opi.askedText id.1)) = [] := by
    rw [List.filter_eq_nil_iff]
    intro user huser hcard
    obtain ⟨stored, _, heq⟩ := hform user huser _ (beq_iff_eq.mp hcard)
    exact Opi.askedText_ne_cardText hshort stored heq
  rw [Backend.machineList, Backend.getPermission, Table.get, hnobody]

/-- `read_id` returns the stored form of the card, and both scripts pass it on. -/
def CardKept (id : RfidId) : Prop :=
  (∀ r : RfidReader, r.ser = [] →
    (r.readId (Reader.cardReply id)).1 = some (Opi.cardText id.1)) ∧
  PassedAs doorTurn id (Opi.cardText id.1) ∧ PassedAs woodshopTurn id (Opi.cardText id.1)

/-- **When a card keeps its form**: exactly when its number has ten digits. -/
theorem cardForm_iff (id : RfidId) (hid : 0 < id.1) : CardKept id ↔ 16 ^ 9 ≤ id.1 := by
  have hread : ∀ r : RfidReader, r.ser = [] →
      (r.readId (Reader.cardReply id)).1 = some (Opi.askedText id.1) := by
    intro r hser
    rw [RfidReader.readId_cardReply hser, RfidReader.shown, if_neg hid.ne']
  constructor
  · rintro ⟨hform, _⟩
    by_contra hshort
    have heq := (hread { last := 0 } rfl).symm.trans (hform { last := 0 } rfl)
    exact Opi.askedText_ne_cardText (Nat.not_le.mp hshort) id.1 (Option.some.inj heq)
  · intro hlong
    rw [CardKept, ← Opi.askedText_eq_cardText hlong]
    exact ⟨hread, doorTurn_passedAs id, woodshopTurn_passedAs id⟩

theorem cardForm_sample : CardKept ⟨0x3F0078E2AE, by decide⟩ :=
  (cardForm_iff ⟨0x3F0078E2AE, by decide⟩ (by decide)).mpr (by decide)

/-- `0000BB96C5` is read as `    BB96C5`. -/
theorem not_cardForm : ¬ ∀ id : RfidId, 0 < id.1 → CardKept id := by
  intro h
  obtain ⟨hform, _⟩ := h ⟨0xBB96C5, by decide⟩ (by decide)
  have hread := RfidReader.readId_cardReply (r := { last := 0 }) rfl ⟨0xBB96C5, by decide⟩
  have heq := (congrArg Prod.fst hread).symm.trans (hform { last := 0 } rfl)
  exact Opi.askedText_ne_cardText (by decide) 0xBB96C5 (Option.some.inj heq)

end Acs.Barn
