/-
  Acs/Link.lean
  =============
  **The RS485 link between the two firmwares.**

  The first part is about one reply: a card that the reader hands out arrives as
  the same number.  The second is the whole link: two byte channels without
  loss, the reader answering each line, and the frontend looping through its
  stages, in any interleaving.  `sent` is everything that the reader has written
  and `nread` how much of it the frontend has read; what lies between is in
  flight.
-/
import Acs.Lib.Run
import Acs.Reader.Console
import Acs.Esp32.CardReader

namespace Acs

open Acs.Reader Acs.Esp32

/-! ### One reply -/

theorem newCardId_of_lineOf {buf : Bytes} {id : RfidId}
    (h : CardReader.lineOf buf = cardText id) : CardReader.newCardId buf = id.1 := by
  have hprefix : (cardText id).take 2 = str "ID" := rfl
  have hnumber : (cardText id).drop 2 = Hex.padSpace 10 id.1 := rfl
  have hline : CardReader.isCardLine (cardText id) = true :=
    decide_eq_true ⟨length_cardText id, hprefix⟩
  have hid : id.1 < 2 ^ 64 := lt_trans id.2 (by decide)
  rw [CardReader.newCardId, h, if_pos hline, hnumber]
  exact Hex.extract_padSpace 10 hid

theorem newCardId_cardReply {id : RfidId} (hid : id.1 ≠ 0) :
    CardReader.newCardId (cardReply id) = id.1 := by
  apply newCardId_of_lineOf
  rw [CardReader.lineOf, cstr_eq_self (zero_not_mem_cardReply id), cardReply_eq hid, stripNp,
    List.filter_append]
  show stripNp (cardText id) ++ [] = cardText id
  rw [List.append_nil, stripNp_cardText]

/-- **A card keeps its number on the way.**  The reply read alone gives the card
    that the reader had, which is also what the frontend's own spelling of the
    number gives; and no two cards share a key in either form. -/
theorem card_id_transport {δ : Type} (reader : State δ) (card : CardReader)
    (hid : 0 < reader.lastCardid.1) :
    (card.hear (getCard reader).1).cardId = reader.lastCardid.1 ∧
    getIdFromString (cardIdFormat reader.lastCardid.1) = (card.hear (getCard reader).1).cardId ∧
    ∀ other : State δ, 0 < other.lastCardid.1 → other.lastCardid ≠ reader.lastCardid →
      (card.hear (getCard other).1).cardId ≠ (card.hear (getCard reader).1).cardId ∧
      getIdFromString (cardIdFormat other.lastCardid.1) ≠
        getIdFromString (cardIdFormat reader.lastCardid.1) := by
  have hheard : ∀ s : State δ, 0 < s.lastCardid.1 →
      (card.hear (getCard s).1).cardId = s.lastCardid.1 := by
    intro s hs
    have hnew := newCardId_cardReply hs.ne'
    show (card.hear (cardReply s.lastCardid)).cardId = _
    rw [CardReader.hear_cardId, hnew, if_neg hs.ne']
  have hformat : ∀ id : RfidId, getIdFromString (cardIdFormat id.1) = id.1 := by
    intro id
    exact getIdFromString_cardIdFormat (lt_trans id.2 (by decide))
  refine ⟨hheard reader hid, ?_, ?_⟩
  · rw [hheard reader hid, hformat]
  · intro other hother hne
    have hval : other.lastCardid.1 ≠ reader.lastCardid.1 := by
      intro h
      exact hne (Subtype.ext h)
    rw [hheard other hother, hheard reader hid, hformat, hformat]
    exact ⟨hval, hval⟩

theorem card_id_transport_sample :
    let reader : State Unit := { lastCardid := ⟨0x2A, by decide⟩, devices := () }
    (getCard reader).1 = str "ID        2A\n" ∧
    (CardReader.hear { lastSoundChange := 0 } (getCard reader).1).cardId = 0x2A :=
  ⟨by decide, (card_id_transport { lastCardid := ⟨0x2A, by decide⟩, devices := () }
    { lastSoundChange := 0 } (by decide)).1⟩

/-! ### The link -/

/-- The two firmwares and the bytes between them.  `handed` records each card
    that the reader has handed out and cleared, and where its reply starts in
    `sent`; `stored` each card that the frontend has stored in `card_id`. -/
structure Link (δ : Type) where
  reader : State δ
  card : CardReader
  toReader : Bytes := []
  sent : Bytes := []
  nread : Nat := 0
  handed : List (Nat × RfidId) := []
  stored : List CardId := []

inductive LinkEvent where
  | swipe (id : RfidId)
  | readerByte
  | frontend (arrived : Nat) (now nowAgain : Int)
  | setPattern (p : Pattern)
  | setSound (s : Sound)
  | takeCard
deriving DecidableEq

namespace Link

variable {δ : Type}

def start (devices : δ) (now : Int) : Link δ :=
  { reader := { devices }, card := { lastSoundChange := now } }

/-- What the frontend's stage reads when `arrived` bytes are there for it: up to
    39, as its buffer has 40 bytes. -/
def received (l : Link δ) (arrived : Nat) : Bytes :=
  if l.card.stage = .read then (l.sent.drop l.nread).take (min arrived 39) else []

def readerStep (cmds : Commands δ) (l : Link δ) : Link δ :=
  match l.toReader with
  | [] => l
  | ch :: rest =>
    let (reply, reader) := receiveByte cmds ch l.reader
    { l with
      reader
      toReader := rest
      sent := l.sent ++ reply
      handed := if l.reader.lastCardid.1 ≠ 0 ∧ reader.lastCardid.1 = 0 then
          l.handed ++ [(l.sent.length, l.reader.lastCardid)]
        else l.handed }

def frontendStep (l : Link δ) (arrived : Nat) (now nowAgain : Int) : Link δ :=
  let buf := l.received arrived
  let (written, card) := l.card.step buf now nowAgain
  { l with
    card
    toReader := l.toReader ++ written
    nread := l.nread + buf.length
    stored := if l.card.stores buf now nowAgain = 0 then l.stored
      else l.stored ++ [l.card.stores buf now nowAgain] }

def step (cmds : Commands δ) (l : Link δ) : LinkEvent → Link δ
  | .swipe id => { l with reader := l.reader.swipe id }
  | .readerByte => l.readerStep cmds
  | .frontend arrived now nowAgain => l.frontendStep arrived now nowAgain
  | .setPattern p => { l with card := l.card.setPattern p }
  | .setSound s => { l with card := l.card.setSound s }
  | .takeCard => { l with card := l.card.getAndClearCardId.2 }

/-! ### The records -/

/-- If a card has been handed out, the reader has forgotten it, and its reply has
    been sent. -/
def HandsOut (l l' : Link δ) : Prop :=
  (l'.handed = l.handed ∧ l'.reader.lastCardid = l.reader.lastCardid) ∨
    (l.reader.lastCardid.1 ≠ 0 ∧ l'.handed = l.handed ++ [(l.sent.length, l.reader.lastCardid)] ∧
      l'.sent = l.sent ++ cardReply l.reader.lastCardid ∧ l'.reader.lastCardid.1 = 0)

/-- If a card has been stored, it is what `card_id` is now. -/
def StoresCard (l l' : Link δ) : Prop :=
  (l'.stored = l.stored ∧ l'.card.cardId = l.card.cardId) ∨
    ∃ id, id ≠ 0 ∧ l'.stored = l.stored ++ [id] ∧ l'.card.cardId = id

/-- `handed` grows when the reader hands its card out, and forgets it. -/
theorem readerStep_handed (cmds : Commands δ) (l : Link δ) : HandsOut l (l.readerStep cmds) := by
  rw [readerStep]
  cases l.toReader with
  | nil => exact Or.inl ⟨rfl, rfl⟩
  | cons ch rest =>
    have hlast := receiveByte_lastCardid cmds ch l.reader
    have hcleared := cleared_iff cmds ch l.reader
    by_cases hhands : handsOut ch l.reader = 0
    · rw [if_pos hhands] at hlast
      left
      exact ⟨if_neg fun h => hcleared.mp h hhands, Subtype.ext hlast⟩
    · rw [if_neg hhands] at hlast
      right
      refine ⟨lastCardid_ne_zero hhands, if_pos (hcleared.mpr hhands), ?_, hlast⟩
      show l.sent ++ (receiveByte cmds ch l.reader).1 = _
      rw [receiveByte_handsOut cmds hhands]

/-- `stored` grows when the frontend stores a card. -/
theorem frontendStep_stored (l : Link δ) (arrived : Nat) (now nowAgain : Int) :
    StoresCard l (l.frontendStep arrived now nowAgain) := by
  have hcard := l.card.step_cardId_of_stores (l.received arrived) now nowAgain
  by_cases hnone : l.card.stores (l.received arrived) now nowAgain = 0
  · rw [if_pos hnone] at hcard
    exact .inl ⟨if_pos hnone, hcard⟩
  · rw [if_neg hnone] at hcard
    exact .inr ⟨_, hnone, if_neg hnone, hcard⟩

/-- Only the read stage gets any bytes. -/
theorem stores_received (l : Link δ) (arrived : Nat) (now nowAgain : Int) :
    l.card.stores (l.received arrived) now nowAgain =
      CardReader.newCardId (l.received arrived) := by
  rw [CardReader.stores_eq]
  split
  next => rfl
  next hread =>
    have hnothing : l.received arrived = [] := if_neg hread
    rw [hnothing]
    rfl

/-! ### Which reads recognise a card -/

/-- The `n` bytes from `nread` on have some printing character of the reply that
    starts at `p`. -/
def Touches (nread n p : Nat) : Prop := nread < p + 12 ∧ p < nread + n

/-- The bytes `buf` from `nread` on have all twelve printing characters of the
    reply that starts at `p`, and no other printing character. -/
def Alone (nread : Nat) (buf : Bytes) (p : Nat) : Prop :=
  nread ≤ p ∧ p + 12 ≤ nread + buf.length ∧
    stripNp (buf.take (p - nread)) = [] ∧ stripNp (buf.drop (p + 12 - nread)) = []

/-- If the step reads any part of a reply with a card, it reads the whole reply
    and nothing of another. -/
def Aligned (l : Link δ) : LinkEvent → Prop
  | .frontend arrived _ _ => ∀ m ∈ l.handed,
      Touches l.nread (l.received arrived).length m.1 → Alone l.nread (l.received arrived) m.1
  | _ => True

instance decidableAligned (l : Link δ) (e : LinkEvent) : Decidable (l.Aligned e) := by
  unfold Aligned Touches Alone
  split <;> infer_instance

/-- The cards handed out in replies that the frontend has read to the last
    printing character. -/
def delivered (l : Link δ) : List CardId :=
  (l.handed.filter fun m => m.1 + 12 ≤ l.nread).map fun m => m.2.1

/-! ### The channels -/

/-- What holds between the channels and the records: no byte is a NUL, and each
    card handed out has its reply in `sent`, the replies one after another. -/
structure Wf (l : Link δ) : Prop where
  nread_le : l.nread ≤ l.sent.length
  toReader : 0 ∉ l.toReader
  line : 0 ∉ l.reader.line
  sent : 0 ∉ l.sent
  genuine : ∀ m ∈ l.handed, m.2.1 ≠ 0 ∧ m.1 + 12 ≤ l.sent.length ∧
    (l.sent.drop m.1).take 12 = cardText m.2
  ordered : l.handed.Pairwise fun m m' => m.1 + 12 ≤ m'.1

theorem wf_start (devices : δ) (now : Int) : Wf (start devices now) where
  nread_le := le_refl 0
  toReader := List.not_mem_nil
  line := List.not_mem_nil
  sent := List.not_mem_nil
  genuine := by
    intro m hm
    exact absurd hm List.not_mem_nil
  ordered := List.Pairwise.nil

theorem genuine_append {sent : Bytes} {m : Nat × RfidId} (more : Bytes)
    (h : m.2.1 ≠ 0 ∧ m.1 + 12 ≤ sent.length ∧ (sent.drop m.1).take 12 = cardText m.2) :
    m.2.1 ≠ 0 ∧ m.1 + 12 ≤ (sent ++ more).length ∧
      ((sent ++ more).drop m.1).take 12 = cardText m.2 := by
  obtain ⟨hid, hlen, htext⟩ := h
  refine ⟨hid, by rw [List.length_append]; omega, ?_⟩
  rw [List.drop_append_of_le_length (by omega), List.take_append_of_le_length, htext]
  rw [List.length_drop]
  omega

theorem wf_readerStep (cmds : Commands δ) {l : Link δ} (h : Wf l) : Wf (l.readerStep cmds) := by
  rw [readerStep]
  cases hto : l.toReader with
  | nil => exact h
  | cons ch rest =>
    have hch : ch ≠ 0 := by
      intro h0
      apply h.toReader
      rw [hto, h0]
      exact List.mem_cons_self
    have hrest : 0 ∉ rest := by
      intro h0
      apply h.toReader
      rw [hto]
      exact List.mem_cons_of_mem ch h0
    obtain ⟨hreply, hline⟩ := zero_not_mem_receiveByte cmds hch h.line
    have hsent : 0 ∉ l.sent ++ (receiveByte cmds ch l.reader).1 := by
      intro h0
      rcases List.mem_append.mp h0 with h0 | h0
      · exact h.sent h0
      · exact hreply h0
    have hnread : l.nread ≤ (l.sent ++ (receiveByte cmds ch l.reader).1).length := by
      have hle := h.nread_le
      rw [List.length_append]
      omega
    dsimp only
    rw [if_congr (cleared_iff cmds ch l.reader) rfl rfl]
    by_cases hhands : handsOut ch l.reader = 0
    · rw [if_neg (not_not.mpr hhands)]
      refine ⟨hnread, hrest, hline, hsent, ?_, h.ordered⟩
      intro m hm
      exact genuine_append _ (h.genuine m hm)
    · have hreplied := receiveByte_handsOut cmds hhands
      have hid := lastCardid_ne_zero hhands
      rw [if_pos hhands]
      refine ⟨hnread, hrest, hline, hsent, ?_, ?_⟩
      · intro m hm
        rcases List.mem_append.mp hm with hm | hm
        · exact genuine_append _ (h.genuine m hm)
        · obtain rfl := List.mem_singleton.mp hm
          have hlen := length_cardText l.reader.lastCardid
          simp only [hreplied, cardReply_eq hid]
          refine ⟨hid, by simp [hlen], ?_⟩
          rw [List.drop_left, List.take_append_of_le_length hlen.ge, List.take_of_length_le hlen.le]
      · refine List.pairwise_append.mpr ⟨h.ordered, List.pairwise_singleton _ _, ?_⟩
        intro m hm m' hm'
        obtain rfl := List.mem_singleton.mp hm'
        exact (h.genuine m hm).2.1

theorem length_received_le (l : Link δ) (arrived : Nat) :
    l.nread + (l.received arrived).length ≤ max l.nread l.sent.length := by
  rw [received]
  split
  · rw [List.length_take, List.length_drop]
    omega
  · exact le_max_left _ _

theorem wf_frontendStep {l : Link δ} (h : Wf l) (arrived : Nat) (now nowAgain : Int) :
    Wf (l.frontendStep arrived now nowAgain) where
  nread_le := by
    have hlen := l.length_received_le arrived
    rw [max_eq_right h.nread_le] at hlen
    exact hlen
  toReader := by
    intro h0
    rcases List.mem_append.mp h0 with h0 | h0
    · exact h.toReader h0
    · exact CardReader.zero_not_mem_step _ _ _ _ h0
  line := h.line
  sent := h.sent
  genuine := h.genuine
  ordered := h.ordered

theorem wf_step (cmds : Commands δ) (l : Link δ) (e : LinkEvent) (h : Wf l) :
    Wf (l.step cmds e) := by
  cases e with
  | readerByte => exact wf_readerStep cmds h
  | frontend arrived now nowAgain => exact wf_frontendStep h arrived now nowAgain
  | swipe id => exact ⟨h.nread_le, h.toReader, h.line, h.sent, h.genuine, h.ordered⟩
  | setPattern p => exact ⟨h.nread_le, h.toReader, h.line, h.sent, h.genuine, h.ordered⟩
  | setSound s => exact ⟨h.nread_le, h.toReader, h.line, h.sent, h.genuine, h.ordered⟩
  | takeCard => exact ⟨h.nread_le, h.toReader, h.line, h.sent, h.genuine, h.ordered⟩

/-! ### One read -/

theorem received_eq (l : Link δ) (arrived : Nat) :
    l.received arrived = (l.sent.drop l.nread).take (l.received arrived).length := by
  rw [received]
  split
  · rw [List.length_take, List.take_eq_take_iff, List.length_drop]
    omega
  · rfl

theorem received_reply {l : Link δ} (arrived : Nat) {p : Nat} (hfrom : l.nread ≤ p)
    (hto : p + 12 ≤ l.nread + (l.received arrived).length) :
    ((l.received arrived).drop (p - l.nread)).take 12 = (l.sent.drop p).take 12 := by
  rw [received_eq l arrived, List.drop_take, List.drop_drop, List.take_take,
    Nat.add_sub_cancel' hfrom, min_eq_left (by omega)]

theorem newCardId_of_alone {l : Link δ} (h : Wf l) (arrived : Nat) {m : Nat × RfidId}
    (hm : m ∈ l.handed) (halone : Alone l.nread (l.received arrived) m.1) :
    CardReader.newCardId (l.received arrived) = m.2.1 := by
  obtain ⟨hfrom, hto, hbefore, hafter⟩ := halone
  have hnul : 0 ∉ l.received arrived := by
    rw [received_eq]
    intro h0
    exact h.sent (List.mem_of_mem_drop (List.mem_of_mem_take h0))
  have hreply := received_reply arrived hfrom hto
  rw [(h.genuine m hm).2.2] at hreply
  apply newCardId_of_lineOf
  -- what surrounds the reply is stripped, and the reply itself is kept
  have hparts : l.received arrived = (l.received arrived).take (m.1 - l.nread) ++
      (cardText m.2 ++ (l.received arrived).drop (m.1 + 12 - l.nread)) := by
    rw [← hreply, show m.1 + 12 - l.nread = m.1 - l.nread + 12 by omega, ← List.drop_drop,
      List.take_append_drop, List.take_append_drop]
  have hstrip : stripNp (l.received arrived) =
      stripNp ((l.received arrived).take (m.1 - l.nread)) ++ (stripNp (cardText m.2) ++
        stripNp ((l.received arrived).drop (m.1 + 12 - l.nread))) := by
    conv_lhs => rw [hparts, stripNp, List.filter_append, List.filter_append]
    rfl
  rw [CardReader.lineOf, cstr_eq_self hnul, hstrip, hbefore, hafter, stripNp_cardText,
    List.nil_append, List.append_nil]

/-- Two replies are not each the only one in the same bytes. -/
theorem not_alone_twice {l : Link δ} (h : Wf l) (arrived : Nat) {m m' : Nat × RfidId}
    (hm' : m' ∈ l.handed) (hafter : m.1 + 12 ≤ m'.1)
    (halone : Alone l.nread (l.received arrived) m.1)
    (halone' : Alone l.nread (l.received arrived) m'.1) : False := by
  obtain ⟨hfrom, _, _, hrest⟩ := halone
  obtain ⟨hfrom', hto', _, _⟩ := halone'
  have hreply := received_reply arrived hfrom' hto'
  rw [(h.genuine m' hm').2.2] at hreply
  -- the second reply starts with a printing character behind the first
  have hmem : str "I" ⊆ (l.received arrived).drop (m.1 + 12 - l.nread) := by
    have hsplit : (l.received arrived).drop (m'.1 - l.nread) =
        ((l.received arrived).drop (m.1 + 12 - l.nread)).drop (m'.1 - (m.1 + 12)) := by
      rw [List.drop_drop]
      congr 1
      omega
    have htext : str "I" ⊆ cardText m'.2 :=
      List.subset_append_of_subset_left _ (by decide)
    intro c hc
    have hin := htext hc
    rw [← hreply, hsplit] at hin
    exact List.mem_of_mem_drop (List.mem_of_mem_take hin)
  have hkept : (73 : UInt8) ∈ stripNp ((l.received arrived).drop (m.1 + 12 - l.nread)) :=
    List.mem_filter.mpr ⟨hmem (by decide), by decide⟩
  rw [hrest] at hkept
  exact absurd hkept List.not_mem_nil

/-! ### No card is lost along aligned runs -/

/-- Further reading adds to what has been delivered, at the end. -/
theorem filter_read_le {marks : List (Nat × RfidId)}
    (hordered : marks.Pairwise fun m m' => m.1 + 12 ≤ m'.1) {a b : Nat} (hab : a ≤ b) :
    marks.filter (fun m => m.1 + 12 ≤ b) =
      marks.filter (fun m => m.1 + 12 ≤ a) ++
        marks.filter (fun m => a < m.1 + 12 ∧ m.1 + 12 ≤ b) := by
  induction marks with
  | nil => rfl
  | cons m marks ih =>
    obtain ⟨hafter, hrest⟩ := List.pairwise_cons.mp hordered
    have ih := ih hrest
    by_cases hm : m.1 + 12 ≤ a
    · have hmb : m.1 + 12 ≤ b := le_trans hm hab
      simp [hm, hmb, ih, not_lt.mpr hm]
    · have hnone : ∀ m' ∈ m :: marks, ¬ m'.1 + 12 ≤ a := by
        intro m' hm'
        rcases List.mem_cons.mp hm' with rfl | hm'
        · exact hm
        · have hle := hafter m' hm'
          omega
      have hearly : (m :: marks).filter (fun m => decide (m.1 + 12 ≤ a)) = [] := by
        apply List.filter_eq_nil_iff.mpr
        intro m' hm'
        simpa using hnone m' hm'
      rw [hearly, List.nil_append]
      apply List.filter_congr
      intro m' hm'
      have hlate := hnone m' hm'
      simp only [decide_eq_decide]
      omega

def NoneLost (l : Link δ) : Prop := l.delivered.Sublist l.stored

/-- The cards whose replies an aligned read completes: at most one, and the read
    stores it. -/
theorem fresh_sublist {l : Link δ} (h : Wf l) (arrived : Nat) (now nowAgain : Int)
    (haligned : l.Aligned (.frontend arrived now nowAgain)) :
    ((l.handed.filter fun m => l.nread < m.1 + 12 ∧
        m.1 + 12 ≤ l.nread + (l.received arrived).length).map fun m => m.2.1).Sublist
      (if CardReader.newCardId (l.received arrived) = 0 then []
        else [CardReader.newCardId (l.received arrived)]) := by
  have halone : ∀ m ∈ l.handed, l.nread < m.1 + 12 →
      m.1 + 12 ≤ l.nread + (l.received arrived).length →
      Alone l.nread (l.received arrived) m.1 := by
    intro m hm hlo hhi
    apply haligned m hm
    exact ⟨hlo, by omega⟩
  have hordered := h.ordered.filter fun m => l.nread < m.1 + 12 ∧
    m.1 + 12 ≤ l.nread + (l.received arrived).length
  cases hfresh : l.handed.filter fun m => l.nread < m.1 + 12 ∧
      m.1 + 12 ≤ l.nread + (l.received arrived).length with
  | nil => exact List.nil_sublist _
  | cons m more =>
    have hall : ∀ m' ∈ m :: more, m' ∈ l.handed ∧ Alone l.nread (l.received arrived) m'.1 := by
      intro m' hm'
      rw [← hfresh] at hm'
      rcases List.mem_filter.mp hm' with ⟨hmem, hbounds⟩
      have hbounds := of_decide_eq_true hbounds
      exact ⟨hmem, halone m' hmem hbounds.1 hbounds.2⟩
    obtain ⟨hm, hmalone⟩ := hall m List.mem_cons_self
    have hnew := newCardId_of_alone h arrived hm hmalone
    rw [hnew, if_neg (h.genuine m hm).1]
    cases more with
    | nil => exact List.Sublist.refl _
    | cons m' more =>
      -- a second reply would have to be alone in the same bytes
      rw [hfresh] at hordered
      obtain ⟨hm', hmalone'⟩ := hall m' (by simp)
      have hafter := (List.pairwise_cons.mp hordered).1 m' List.mem_cons_self
      exact (not_alone_twice h arrived hm' hafter hmalone hmalone').elim

theorem noneLost_frontendStep {l : Link δ} (h : Wf l) (hnone : NoneLost l) (arrived : Nat)
    (now nowAgain : Int) (haligned : l.Aligned (.frontend arrived now nowAgain)) :
    NoneLost (l.frontendStep arrived now nowAgain) := by
  have hfresh := fresh_sublist h arrived now nowAgain haligned
  have hsplit := filter_read_le h.ordered
    (Nat.le_add_right l.nread (l.received arrived).length)
  have hstored : (l.frontendStep arrived now nowAgain).stored = l.stored ++
      if CardReader.newCardId (l.received arrived) = 0 then []
      else [CardReader.newCardId (l.received arrived)] := by
    rw [frontendStep]
    dsimp only
    rw [stores_received]
    split
    · exact (List.append_nil _).symm
    · rfl
  show ((l.handed.filter fun m => m.1 + 12 ≤ l.nread + (l.received arrived).length).map
    fun m => m.2.1).Sublist _
  rw [hsplit, List.map_append, hstored]
  exact List.Sublist.append hnone hfresh

theorem noneLost_readerStep (cmds : Commands δ) {l : Link δ} (h : Wf l) (hnone : NoneLost l) :
    NoneLost (l.readerStep cmds) := by
  have hsame : (l.readerStep cmds).stored = l.stored ∧ (l.readerStep cmds).nread = l.nread := by
    rw [readerStep]
    split <;> exact ⟨rfl, rfl⟩
  have hnread := h.nread_le
  rw [NoneLost, delivered, hsame.1, hsame.2]
  rcases readerStep_handed cmds l with ⟨hhanded, _⟩ | ⟨_, hhanded, _⟩
  · rw [hhanded]
    exact hnone
  · -- the reply that is sent now has not been read yet
    have hlate : ¬ l.sent.length + 12 ≤ l.nread := by omega
    rw [hhanded, List.filter_append, List.filter_singleton, decide_eq_false hlate, cond_false,
      List.append_nil]
    exact hnone

theorem noneLost_step (cmds : Commands δ) (l : Link δ) (e : LinkEvent) (h : Wf l ∧ NoneLost l)
    (haligned : l.Aligned e) : Wf (l.step cmds e) ∧ NoneLost (l.step cmds e) := by
  refine ⟨wf_step cmds l e h.1, ?_⟩
  cases e with
  | readerByte => exact noneLost_readerStep cmds h.1 h.2
  | frontend arrived now nowAgain =>
    exact noneLost_frontendStep h.1 h.2 arrived now nowAgain haligned
  | swipe id => exact h.2
  | setPattern p => exact h.2
  | setSound s => exact h.2
  | takeCard => exact h.2

def run (cmds : Commands δ) (devices : δ) (now : Int) (events : List LinkEvent) : Link δ :=
  Runs.exec (step cmds) (start devices now) events

/-- What becomes of the cards in a run. -/
structure NoSwipeLost (cmds : Commands δ) (devices : δ) (now : Int) (events : List LinkEvent) :
    Prop where
  /-- A card that is handed out is cleared, and sent in a reply. -/
  handedOut : Runs.Along (step cmds) (fun l e => e = .readerByte → HandsOut l (l.step cmds e))
    (start devices now) events
  /-- A card that is stored is then in `card_id`. -/
  storedIn : Runs.Along (step cmds) (fun l e => ∀ arrived now nowAgain,
    e = .frontend arrived now nowAgain → StoresCard l (l.step cmds e)) (start devices now) events
  /-- The cards whose replies have been read have been stored, in order. -/
  read : (run cmds devices now events).delivered.Sublist (run cmds devices now events).stored
  /-- When nothing is in flight, these are all that have been handed out. -/
  all : (run cmds devices now events).sent.length ≤ (run cmds devices now events).nread →
    ((run cmds devices now events).handed.map fun m => m.2.1).Sublist
      (run cmds devices now events).stored

/-- **No swipe is lost on a run that keeps the replies apart.**  If every read
    that takes part of a reply with a card takes the whole reply and nothing of
    another, then each card that the reader hands out is stored in `card_id`, in
    order, when its reply has been read; all of them, when nothing is in flight. -/
theorem handed_stored_of_aligned (cmds : Commands δ) (devices : δ) (now : Int)
    (events : List LinkEvent)
    (haligned : Runs.Along (step cmds) Aligned (start devices now) events) :
    NoSwipeLost cmds devices now events := by
  have hstart : Wf (start devices now) ∧ NoneLost (start devices now) :=
    ⟨wf_start devices now, List.Sublist.refl _⟩
  obtain ⟨hwf, hnone⟩ := Runs.exec_invariant (step cmds) Aligned
    (fun l => Wf l ∧ NoneLost l) (noneLost_step cmds) hstart haligned
  refine ⟨?_, ?_, hnone, ?_⟩
  · apply haligned.imp
    rintro l e _ rfl
    exact readerStep_handed cmds l
  · apply haligned.imp
    rintro l e _ arrived now nowAgain rfl
    exact frontendStep_stored l arrived now nowAgain
  · intro hread
    have hall : (run cmds devices now events).delivered =
        (run cmds devices now events).handed.map fun m => m.2.1 := by
      rw [delivered]
      congr 1
      apply List.filter_eq_self.mpr
      intro m hm
      exact decide_eq_true (le_trans (hwf.genuine m hm).2.1 hread)
    rw [← hall]
    exact hnone

def sampleCommands : Commands Unit where
  playSound _ s := (true, s)
  setLedIntensity _ s := (true, s)
  setLedPattern _ s := (true, s)

/-- A swipe, a poll, and a read of the whole reply. -/
def pollSwipe : List LinkEvent :=
  [.swipe ⟨0x1234ABCD, by decide⟩, .frontend 0 0 0, .readerByte, .readerByte, .frontend 13 0 0]

theorem handed_stored_of_aligned_pollSwipe :
    (run sampleCommands () 0 pollSwipe).handed.map (fun m => m.2.1) = [0x1234ABCD] ∧
    ((run sampleCommands () 0 pollSwipe).handed.map fun m => m.2.1).Sublist
      (run sampleCommands () 0 pollSwipe).stored :=
  ⟨by decide, (handed_stored_of_aligned sampleCommands () 0 pollSwipe (by decide)).all (by decide)⟩

/-- The pattern changes, and a card is swiped before the next poll: the next read
    finds the reply to the pattern command in front of the card. -/
def patternSwipe : List LinkEvent :=
  [.setPattern .open, .frontend 0 0 0, .readerByte, .readerByte, .frontend 3 0 0, .frontend 0 0 0,
    .frontend 0 0 0, .swipe ⟨0x1234ABCD, by decide⟩, .frontend 0 0 0] ++
  List.replicate 11 .readerByte ++ [.frontend 16 0 0]

/-- In that run all has been read, and the card is not stored. -/
theorem not_all_handed_stored :
    ¬ ∀ (δ : Type) (cmds : Commands δ) (devices : δ) (now : Int) (events : List LinkEvent),
      (run cmds devices now events).sent.length ≤ (run cmds devices now events).nread →
      ∀ m ∈ (run cmds devices now events).handed,
        m.2.1 ∈ (run cmds devices now events).stored := by
  intro h
  have hstored := h Unit sampleCommands () 0 patternSwipe (by decide) (6, ⟨0x1234ABCD, by decide⟩)
    (by decide)
  exact absurd hstored (by decide)

end Link

end Acs
