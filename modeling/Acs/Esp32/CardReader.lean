/-
  Acs/Esp32/CardReader.lean
  =========================
  **`Card_reader`: the frontend's side of the RS485 link.**

  The loop of `thread_body` has four stages: it asks the reader for a card,
  reads what has arrived, and may then write a sound and a pattern command.
  Other tasks see the object between any two stages.  Times are nanoseconds.
-/
import Acs.Bytes

namespace Acs.Esp32

open Acs

inductive Pattern where
  | none
  | ready
  | enter
  | open
  | warnClosing
  | error
  | noEntry
  | wait
deriving DecidableEq, Repr

inductive Sound where
  | none
  | warning
  | warnClosing
deriving DecidableEq, Repr

/-- Where `thread_body` is in its loop. -/
inductive Stage where
  | poll
  | read
  | sound
  | pattern
deriving DecidableEq, Repr

/-- `Card_reader`, with the local variables of `thread_body` and the texts given
    to `Mqtt::log`, the latest last. -/
structure CardReader where
  cardId : CardId := 0
  sound : Sound := .none
  pattern : Pattern := .none
  lastSoundChange : Int
  lastPattern : Pattern := .none
  stage : Stage := .poll
  log : List Bytes := []

namespace CardReader

/-! ### What the other tasks do -/

def setPattern (c : CardReader) (p : Pattern) : CardReader := { c with pattern := p }

def setSound (c : CardReader) (s : Sound) : CardReader := { c with sound := s }

def getAndClearCardId (c : CardReader) : CardId × CardReader :=
  (c.cardId, { c with cardId := 0 })

/-! ### The stages of the loop -/

def soundWarningBeep : Bytes := str "S1000 100\n"

def beepInterval : Int := 500000000

/-- The line in a buffer: the printing characters before the first NUL. -/
def lineOf (buf : Bytes) : Bytes := stripNp (cstr buf)

/-- The line is a card reply: `ID` and ten more characters. -/
def isCardLine (line : Bytes) : Bool := line.length = 2 + 10 ∧ line.take 2 = str "ID"

/-- The card in the line that was read, zero if it is not a card reply. -/
def newCardId (buf : Bytes) : CardId :=
  if isCardLine (lineOf buf) then getIdFromString ((lineOf buf).drop 2) else 0

def hear (c : CardReader) (buf : Bytes) : CardReader :=
  let line := lineOf buf
  if isCardLine line then
    let c := { c with
      log := c.log ++ [format [str "Card_reader: got card ID '", line.drop 2, str "'"]] }
    if newCardId buf ≠ 0 then { c with cardId := newCardId buf } else c
  else c

/-- The command that shows a pattern, empty for `none`. -/
def patternCommand : Pattern → Bytes
  | .ready => str "P200R10SGN\n"
  | .enter => str "P250R8SGN\n"
  | .open => str "P200R0SG\n"
  | .warnClosing => str "P5R0SGX10NX100R\n"
  | .error => str "P5R10SGX10NX100RX100N\n"
  | .noEntry => str "P100R30SRN\n"
  | .wait => str "P20R0SGNN\n"
  | .none => []

/-- The sound stage, with the two readings of the clock that it makes: what it
    writes, and the state after it. -/
def doSound (c : CardReader) (now nowAgain : Int) : Bytes × CardReader :=
  match c.sound with
  | .warning =>
    if now - c.lastSoundChange ≥ beepInterval then
      (soundWarningBeep, { c with lastSoundChange := nowAgain })
    else ([], c)
  | .warnClosing => ([], c)
  | .none => ([], c)

def doPattern (c : CardReader) : Bytes × CardReader :=
  let activePattern := c.pattern
  let c := { c with pattern := .none }
  if activePattern ≠ c.lastPattern then
    (patternCommand activePattern, { c with lastPattern := activePattern })
  else ([], c)

/-- One stage: `received` is what a read returns, the clock is what the sound
    stage reads.  The first component is written to the link. -/
def step (c : CardReader) (received : Bytes) (now nowAgain : Int) : Bytes × CardReader :=
  match c.stage with
  | .poll => (str "C\n", { c with stage := .read })
  | .read => ([], { c.hear received with stage := .sound })
  | .sound =>
    let (written, c) := c.doSound now nowAgain
    (written, { c with stage := .pattern })
  | .pattern =>
    let (written, c) := c.doPattern
    (written, { c with stage := .poll })

/-- What a stage stores in `card_id`: what it leaves there if nothing was there. -/
def stores (c : CardReader) (received : Bytes) (now nowAgain : Int) : CardId :=
  ({ c with cardId := 0 }.step received now nowAgain).2.cardId

/-! ### What the stages change -/

/-- Only the read stage stores a card. -/
theorem hear_cardId (c : CardReader) (buf : Bytes) :
    (c.hear buf).cardId = if newCardId buf = 0 then c.cardId else newCardId buf := by
  rw [hear]
  by_cases hline : isCardLine (lineOf buf)
  · rw [if_pos hline]
    by_cases hnew : newCardId buf = 0 <;> simp [hnew]
  · have hnew : newCardId buf = 0 := if_neg hline
    rw [if_neg hline, hnew, if_pos rfl]

theorem step_cardId (c : CardReader) (received : Bytes) (now nowAgain : Int) :
    (c.step received now nowAgain).2.cardId =
      if c.stage = .read then (c.hear received).cardId else c.cardId := by
  unfold step
  cases c.stage with
  | poll => rfl
  | read => rfl
  | sound =>
    rw [doSound]
    cases c.sound with
    | warning =>
      dsimp only
      split <;> rfl
    | warnClosing => rfl
    | none => rfl
  | pattern =>
    rw [doPattern]
    dsimp only
    split <;> rfl

/-- Only the read stage stores a card, if the line is a reply with one. -/
theorem stores_eq (c : CardReader) (received : Bytes) (now nowAgain : Int) :
    c.stores received now nowAgain = if c.stage = .read then newCardId received else 0 := by
  rw [stores, step_cardId, hear_cardId]
  dsimp only
  split
  next =>
    split
    next hnew => exact hnew.symm
    next => rfl
  next => rfl

/-- **What is stored is what `card_id` is then**, and otherwise it stays as it was. -/
theorem step_cardId_of_stores (c : CardReader) (received : Bytes) (now nowAgain : Int) :
    (c.step received now nowAgain).2.cardId =
      if c.stores received now nowAgain = 0 then c.cardId else c.stores received now nowAgain := by
  rw [stores_eq, step_cardId, hear_cardId]
  split
  next => rfl
  next => rw [if_pos rfl]

theorem zero_not_mem_step (c : CardReader) (received : Bytes) (now nowAgain : Int) :
    0 ∉ (c.step received now nowAgain).1 := by
  unfold step
  split
  · exact (by decide : 0 ∉ str "C\n")
  · exact List.not_mem_nil
  · show 0 ∉ (c.doSound now nowAgain).1
    rw [doSound]
    split
    · split
      · exact (by decide : 0 ∉ soundWarningBeep)
      · exact List.not_mem_nil
    · exact List.not_mem_nil
    · exact List.not_mem_nil
  · show 0 ∉ c.doPattern.1
    rw [doPattern]
    dsimp only
    split
    · show 0 ∉ patternCommand c.pattern
      cases c.pattern <;> decide
    · exact List.not_mem_nil

end CardReader

end Acs.Esp32
