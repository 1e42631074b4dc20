/-
  Acs/Reader/RfidTask.lean
  ========================
  **The card between two polls** (`rfid_task` in `reader.cpp`).

  When a frame ends, the task stores what `get_id` gives into `last_cardid`: the
  card, or zero when the checksum does not fit.  A frame that has arrived damaged
  thus takes away a card that no poll has asked for yet.  Apart from that,
  `last_cardid` is a mailbox with one slot, into which every good frame puts its
  card (`cardKept_iff`).
-/
import Acs.Lib.Mailbox
import Acs.Rdm6300
import Acs.Reader.Console

namespace Acs

namespace Rdm6300

/-- The condition of `get_id` for its result. -/
def ChecksumFits (s : Rdm6300) : Prop :=
  s.buf.toList.foldl (fun cs b => cs ^^^ toInt b) 0 = s.checksum

instance (s : Rdm6300) : Decidable s.ChecksumFits :=
  inferInstanceAs (Decidable (_ = _))

theorem getId_lt (s : Rdm6300) : s.getId < 2 ^ 40 := by
  have hbytes : ∀ d ∈ s.buf.toList.reverse.map UInt8.toNat, d < 256 := by
    intro d hd
    obtain ⟨b, _, rfl⟩ := List.mem_map.mp hd
    exact b.toNat_lt
  have hlt := Nat.ofDigits_lt_base_pow_length (by decide : 1 < 256) hbytes
  rw [List.length_map, List.length_reverse, Vector.length_toList] at hlt
  rw [getId]
  split
  · decide
  · exact lt_of_lt_of_eq hlt (by norm_num [idSize])

/-- What `get_id` returns fills five bytes. -/
def card (s : Rdm6300) : RfidId := ⟨s.getId, s.getId_lt⟩

theorem card_of_not_fits {s : Rdm6300} (h : ¬ s.ChecksumFits) : s.card = Reader.noCard :=
  Subtype.ext (if_pos h)

end Rdm6300

namespace Reader

open Rdm6300 (idSize)

variable {δ : Type}

/-- The task and the reader that it stores its cards in. -/
structure RfidTask (δ : Type) where
  decoder : Rdm6300
  reader : State δ

inductive RfidEvent where
  | byte (input : UInt8)
  | poll
deriving DecidableEq

namespace RfidTask

def start (memory : Vector UInt8 idSize) (devices : δ) : RfidTask δ :=
  { decoder := { buf := memory }, reader := { devices } }

/-- The body of the loop for one byte; and `get_and_clear_last_cardid`. -/
def step (s : RfidTask δ) : RfidEvent → RfidTask δ
  | .byte input =>
    let (ended, decoder) := s.decoder.addByte input
    if ended then { decoder, reader := s.reader.swipe decoder.card } else { s with decoder }
  | .poll => { s with reader := (getAndClearLastCardid s.reader).2 }

def run (memory : Vector UInt8 idSize) (devices : δ) (events : List RfidEvent) : RfidTask δ :=
  Runs.exec step (start memory devices) events

/-! ### The card that a poll should give -/

/-- A good frame that ends with this byte puts its card into the slot, and a poll
    takes what is there. -/
def turns (s : RfidTask δ) : RfidEvent → List (Mailbox.Turn RfidId)
  | .byte input =>
    if (s.decoder.addByte input).1 = true ∧ (s.decoder.step input).ChecksumFits then
      [.put (s.decoder.step input).card]
    else []
  | .poll => [.take]

/-- The card of the last good frame since the last poll. -/
def awaited (memory : Vector UInt8 idSize) (devices : δ) (events : List RfidEvent) : RfidId :=
  (Runs.exec Mailbox.step none (Runs.emitted step turns (start memory devices) events)).getD noCard

/-- A byte changes a card only at the end of a good frame, to the card of this
    frame; at the end of a damaged one it changes nothing. -/
structure Keeps (s : RfidTask δ) (input : UInt8) : Prop where
  replaced : s.reader.lastCardid ≠ noCard →
    (s.step (.byte input)).reader.lastCardid ≠ s.reader.lastCardid →
    (s.decoder.addByte input).1 = true ∧ (s.decoder.step input).ChecksumFits ∧
      (s.step (.byte input)).reader.lastCardid = (s.decoder.step input).card
  damaged : (s.decoder.addByte input).1 = true → ¬ (s.decoder.step input).ChecksumFits →
    (s.step (.byte input)).reader.lastCardid = s.reader.lastCardid

/-- No card is lost in a run: each byte keeps it, and at any time a poll would get
    the card of the last good frame since the poll before. -/
structure CardKept (memory : Vector UInt8 idSize) (devices : δ) (events : List RfidEvent) : Prop where
  keeps : Runs.Along step (fun s e => ∀ input, e = .byte input → s.Keeps input)
    (start memory devices) events
  reported : ∀ pre, pre <+: events →
    (getAndClearLastCardid (run memory devices pre).reader).1 = awaited memory devices pre

/-- A damaged frame ends while there is no card to be lost. -/
def NothingToLose (s : RfidTask δ) : RfidEvent → Prop
  | .byte input => (s.decoder.addByte input).1 = true →
      ¬ (s.decoder.step input).ChecksumFits → s.reader.lastCardid = noCard
  | .poll => True

/-! ### One event -/

theorem lastCardid_byte (s : RfidTask δ) (input : UInt8) :
    (s.step (.byte input)).reader.lastCardid =
      if (s.decoder.addByte input).1 = true then (s.decoder.step input).card
      else s.reader.lastCardid := by
  rw [step]
  dsimp only
  split <;> rfl

theorem keeps_iff (s : RfidTask δ) (input : UInt8) :
    s.Keeps input ↔ s.NothingToLose (.byte input) := by
  have hlast := lastCardid_byte s input
  constructor
  · intro h hended hdamaged
    rw [if_pos hended, Rdm6300.card_of_not_fits hdamaged] at hlast
    rw [← h.damaged hended hdamaged, hlast]
  · intro h
    by_cases hended : (s.decoder.addByte input).1 = true
    · rw [if_pos hended] at hlast
      by_cases hfits : (s.decoder.step input).ChecksumFits
      · exact ⟨fun _ _ => ⟨hended, hfits, hlast⟩, fun _ hdamaged => absurd hfits hdamaged⟩
      · have hnone := h hended hfits
        refine ⟨fun hcard _ => absurd hnone hcard, fun _ _ => ?_⟩
        rw [hlast, Rdm6300.card_of_not_fits hfits, hnone]
    · rw [if_neg hended] at hlast
      exact ⟨fun _ hne => absurd hlast hne, fun hend => absurd hend hended⟩

/-- `last_cardid` follows the slot. -/
theorem slot_step {s : RfidTask δ} {slot : Option RfidId}
    (h : s.reader.lastCardid = slot.getD noCard) {e : RfidEvent} (he : s.NothingToLose e) :
    (s.step e).reader.lastCardid = (Runs.exec Mailbox.step slot (s.turns e)).getD noCard := by
  cases e with
  | poll => rfl
  | byte input =>
    rw [lastCardid_byte, turns]
    by_cases hended : (s.decoder.addByte input).1 = true
    · by_cases hfits : (s.decoder.step input).ChecksumFits
      · rw [if_pos hended, if_pos ⟨hended, hfits⟩]
        rfl
      · rw [if_pos hended, if_neg fun hboth => hfits hboth.2, Rdm6300.card_of_not_fits hfits,
          Runs.exec_nil, ← h]
        exact (he hended hfits).symm
    · rw [if_neg hended, if_neg fun hboth => hended hboth.1]
      exact h

/-! ### Runs -/

theorem lastCardid_run (memory : Vector UInt8 idSize) (devices : δ) {events : List RfidEvent}
    (h : Runs.Along step NothingToLose (start memory devices) events) :
    (run memory devices events).reader.lastCardid = awaited memory devices events := by
  have hstep : ∀ (s : RfidTask δ) (ts : List (Mailbox.Turn RfidId)) (e : RfidEvent),
      s.reader.lastCardid = (Runs.exec Mailbox.step none ts).getD noCard → s.NothingToLose e →
        (s.step e).reader.lastCardid =
          (Runs.exec Mailbox.step none (ts ++ s.turns e)).getD noCard := by
    intro s ts e hs he
    rw [Runs.exec_append]
    exact slot_step hs he
  have hslot : (run memory devices events).reader.lastCardid =
      (Runs.exec Mailbox.step none
        ([] ++ Runs.emitted step turns (start memory devices) events)).getD noCard :=
    Runs.emitted_invariant step turns NothingToLose _ hstep rfl h
  exact hslot

theorem nothingToLose_of_cardKept {memory : Vector UInt8 idSize} {devices : δ}
    {events : List RfidEvent} (h : CardKept memory devices events) :
    Runs.Along step NothingToLose (start memory devices) events := by
  apply h.keeps.imp
  intro s e hkeeps
  cases e with
  | byte input => exact (keeps_iff s input).mp (hkeeps input rfl)
  | poll => trivial

/-- **No card is lost** exactly when every damaged frame comes at a time when there
    is none. -/
theorem cardKept_iff (memory : Vector UInt8 idSize) (devices : δ) (events : List RfidEvent) :
    CardKept memory devices events ↔
      Runs.Along step NothingToLose (start memory devices) events := by
  constructor
  · exact nothingToLose_of_cardKept
  · intro h
    constructor
    · apply h.imp
      rintro s e hlose input rfl
      exact (keeps_iff s input).mpr hlose
    · rintro pre ⟨post, rfl⟩
      exact lastCardid_run memory devices (Runs.along_append.mp h).1

/-- A card is read twice, the second time with a wrong checksum. -/
theorem not_cardKept : ¬ ∀ (memory : Vector UInt8 idSize) (devices : Unit) events,
    CardKept memory devices events := by
  intro h
  let bytes : Bytes := Rdm6300.frame Rdm6300.sampleCard ++
    ([Rdm6300.stx] ++ str "13006042CF00" ++ [Rdm6300.etx])
  have hlose := nothingToLose_of_cardKept (h (Vector.replicate idSize 0) () (bytes.map .byte))
  have hlast := (Runs.along_iff.mp hlose) ((bytes.map RfidEvent.byte).take 27) (.byte Rdm6300.etx)
    [] (by decide) (by decide) (by decide)
  exact absurd hlast (by decide)

end RfidTask

end Reader

end Acs
