/-
  Acs/Reader/Console.lean
  =======================
  **The card reader's side of the RS485 link.**

  `app_main` collects the bytes it reads into a line, gives each complete line
  to `handle_line`, and writes the reply back; `rfid_task` stores the last card
  seen.  The commands that work on the buzzer and the LEDs are a parameter
  (`Commands`): a reply depends on them only through whether they succeed.
-/
import Acs.Bytes

namespace Acs.Reader

open Acs

/-- `play_sound`, `set_led_intensity` and `set_led_pattern`, on the state `δ` of
    the buzzer and the LEDs. -/
structure Commands (δ : Type) where
  playSound : Bytes → δ → Bool × δ
  setLedIntensity : Bytes → δ → Bool × δ
  setLedPattern : Bytes → δ → Bool × δ

def noCard : RfidId := ⟨0, by decide⟩

/-- The reader: the last card seen (`last_cardid`), the line read so far, and the
    buzzer and LEDs. -/
structure State (δ : Type) where
  lastCardid : RfidId := noCard
  line : Bytes := []
  devices : δ

variable {δ : Type}

/-- `rfid_task`: a frame has been decoded. -/
def State.swipe (s : State δ) (id : RfidId) : State δ := { s with lastCardid := id }

def getAndClearLastCardid (s : State δ) : RfidId × State δ :=
  (s.lastCardid, { s with lastCardid := noCard })

/-- What `get_card` answers: `ID%10llX`, or `ID` when there is no card. -/
def cardReply (id : RfidId) : Bytes :=
  if id.1 = 0 then str "ID\n" else str "ID" ++ Hex.padSpace 10 id.1 ++ str "\n"

def getCard (s : State δ) : Bytes × State δ :=
  let (id, s) := getAndClearLastCardid s
  (cardReply id, s)

def version : Bytes := str "ACS ESP32 cardreader v 0.6\n"

def acknowledge (s : State δ) (result : Bool × δ) : Bytes × State δ :=
  (if result.1 then str "OK\n" else str "ERROR\n", { s with devices := result.2 })

/-- `handle_line`: the first character selects the command, in either case. -/
def handleLine (cmds : Commands δ) (line : Bytes) (s : State δ) : Bytes × State δ :=
  match line with
  | [] => ([], s)
  | ch :: rest =>
    if [ch] = str "v" ∨ [ch] = str "V" then (version, s)
    else if [ch] = str "c" ∨ [ch] = str "C" then getCard s
    else if [ch] = str "s" ∨ [ch] = str "S" then
      acknowledge s (cmds.playSound rest s.devices)
    else if [ch] = str "i" ∨ [ch] = str "I" then
      acknowledge s (cmds.setLedIntensity rest s.devices)
    else if [ch] = str "p" ∨ [ch] = str "P" then
      acknowledge s (cmds.setLedPattern rest s.devices)
    else (str "ERROR: Unknown command: " ++ line ++ str "\n", s)

/-- One byte in the loop of `app_main`, with the reply that is written back.  An
    overlong line is dropped. -/
def receiveByte (cmds : Commands δ) (ch : UInt8) (s : State δ) : Bytes × State δ :=
  if [ch] = str "\r" ∨ [ch] = str "\n" then
    let (reply, s) := handleLine cmds s.line s
    (reply, { s with line := [] })
  else
    let line := s.line ++ [ch]
    if line.length > 1024 then ([], { s with line := [] }) else ([], { s with line })

/-! ### Which lines hand out a card -/

def asksForCard : Bytes → Bool
  | [] => false
  | ch :: _ => [ch] = str "c" ∨ [ch] = str "C"

/-- The card that answering this byte hands out, zero if none. -/
def handsOut (ch : UInt8) (s : State δ) : CardId :=
  if ([ch] = str "\r" ∨ [ch] = str "\n") ∧ asksForCard s.line then s.lastCardid.1 else 0

theorem lastCardid_ne_zero {ch : UInt8} {s : State δ} (h : handsOut ch s ≠ 0) :
    s.lastCardid.1 ≠ 0 := by
  intro h0
  apply h
  simp [handsOut, h0]

theorem receiveByte_handsOut (cmds : Commands δ) {ch : UInt8} {s : State δ}
    (h : handsOut ch s ≠ 0) :
    receiveByte cmds ch s =
      (cardReply s.lastCardid, { s with lastCardid := noCard, line := [] }) := by
  rw [handsOut] at h
  split at h
  case isFalse => exact absurd rfl h
  case isTrue hc =>
    obtain ⟨hend, hask⟩ := hc
    rw [receiveByte, if_pos hend]
    cases hline : s.line with
    | nil =>
      rw [hline] at hask
      exact absurd hask (by decide)
    | cons c rest =>
      have hC : [c] = str "c" ∨ [c] = str "C" := by
        rw [hline] at hask
        exact of_decide_eq_true hask
      have hV : ¬ ([c] = str "v" ∨ [c] = str "V") := by
        rcases hC with hC | hC <;> rw [hC] <;> decide
      simp only [handleLine, if_neg hV, if_pos hC]
      rfl

/-- **The reader forgets a card exactly when it hands it out.** -/
theorem receiveByte_lastCardid (cmds : Commands δ) (ch : UInt8) (s : State δ) :
    (receiveByte cmds ch s).2.lastCardid.1 =
      if handsOut ch s = 0 then s.lastCardid.1 else 0 := by
  by_cases h : handsOut ch s = 0
  case neg =>
    rw [if_neg h, receiveByte_handsOut cmds h]
    rfl
  case pos =>
    rw [if_pos h]
    rw [receiveByte]
    split
    case isFalse =>
      dsimp only
      split <;> rfl
    case isTrue hend =>
      cases hline : s.line with
      | nil => rfl
      | cons c rest =>
        simp only [handleLine]
        split
        · rfl
        · split
          next hC =>
            -- a `C` command hands out nothing only when there is no card
            have hask : asksForCard s.line := by
              rw [hline]
              exact decide_eq_true hC
            rw [handsOut, if_pos ⟨hend, hask⟩] at h
            exact h.symm
          · split
            · rfl
            · split
              · rfl
              · split <;> rfl

theorem cleared_iff (cmds : Commands δ) (ch : UInt8) (s : State δ) :
    s.lastCardid.1 ≠ 0 ∧ (receiveByte cmds ch s).2.lastCardid.1 = 0 ↔ handsOut ch s ≠ 0 := by
  rw [receiveByte_lastCardid]
  constructor
  · rintro ⟨hcard, hclear⟩ hnone
    rw [if_pos hnone] at hclear
    exact hcard hclear
  · intro hhands
    exact ⟨lastCardid_ne_zero hhands, if_neg hhands⟩

/-! ### The reply with a card -/

/-- The printing characters of the reply: everything but the line end. -/
def cardText (id : RfidId) : Bytes := str "ID" ++ Hex.padSpace 10 id.1

theorem cardReply_eq {id : RfidId} (h : id.1 ≠ 0) : cardReply id = cardText id ++ str "\n" :=
  if_neg h

/-- The reply has 13 characters, so it fits in the buffer of 20 bytes. -/
theorem length_cardText (id : RfidId) : (cardText id).length = 12 := by
  have hid : id.1 < 16 ^ 10 := lt_of_lt_of_eq id.2 (by norm_num)
  have hpad := Hex.length_padSpace (k := 10) (by decide) hid
  rw [cardText, List.length_append, hpad]
  rfl

theorem isprint_digit {d : Nat} (hd : d < 16) : isprint (Hex.digit d) = true := by
  interval_cases d <;> decide

theorem isprint_of_mem_cardText {id : RfidId} {c : UInt8} (hc : c ∈ cardText id) :
    isprint c = true := by
  rcases List.mem_append.mp hc with h | h
  · have hall : (str "ID").all isprint = true := by decide
    exact List.all_eq_true.mp hall c h
  · rcases List.mem_append.mp (by simpa only [Hex.padSpace, List.leftpad] using h) with h | h
    · rw [List.eq_of_mem_replicate h]
      rfl
    · rcases List.mem_map.mp h with ⟨d, hd, rfl⟩
      exact isprint_digit (Hex.digits_lt hd)

theorem stripNp_cardText (id : RfidId) : stripNp (cardText id) = cardText id := by
  apply List.filter_eq_self.mpr
  intro c hc
  exact isprint_of_mem_cardText hc

/-! ### No reply has a NUL -/

theorem zero_not_mem_cardText (id : RfidId) : 0 ∉ cardText id := by
  intro h
  exact absurd (isprint_of_mem_cardText h) (by decide)

theorem zero_not_mem_cardReply (id : RfidId) : 0 ∉ cardReply id := by
  by_cases hid : id.1 = 0
  · rw [cardReply, if_pos hid]
    decide
  · rw [cardReply_eq hid]
    intro h
    rcases List.mem_append.mp h with h | h
    · exact zero_not_mem_cardText id h
    · exact absurd h (by decide)

theorem zero_not_mem_acknowledge (s : State δ) (result : Bool × δ) :
    0 ∉ (acknowledge s result).1 := by
  show 0 ∉ (if result.1 then str "OK\n" else str "ERROR\n")
  cases result.1 <;> decide

/-- Only an unknown command is repeated in its reply. -/
theorem zero_not_mem_handleLine (cmds : Commands δ) {line : Bytes} (hline : 0 ∉ line)
    (s : State δ) : 0 ∉ (handleLine cmds line s).1 := by
  unfold handleLine
  split
  · exact List.not_mem_nil
  · split
    · exact (by decide : 0 ∉ version)
    · split
      · exact zero_not_mem_cardReply _
      · split
        · exact zero_not_mem_acknowledge _ _
        · split
          · exact zero_not_mem_acknowledge _ _
          · split
            · exact zero_not_mem_acknowledge _ _
            · intro h
              rcases List.mem_append.mp h with h | h
              · rcases List.mem_append.mp h with h | h
                · exact absurd h (by decide)
                · exact hline h
              · exact absurd h (by decide)

theorem zero_not_mem_receiveByte (cmds : Commands δ) {ch : UInt8} {s : State δ} (hch : ch ≠ 0)
    (hline : 0 ∉ s.line) :
    0 ∉ (receiveByte cmds ch s).1 ∧ 0 ∉ (receiveByte cmds ch s).2.line := by
  rw [receiveByte]
  split
  · exact ⟨zero_not_mem_handleLine cmds hline s, List.not_mem_nil⟩
  · have hmore : 0 ∉ s.line ++ [ch] := by
      intro h
      rcases List.mem_append.mp h with h | h
      · exact hline h
      · exact hch (List.mem_singleton.mp h).symm
    dsimp only
    split
    · exact ⟨List.not_mem_nil, List.not_mem_nil⟩
    · exact ⟨List.not_mem_nil, hmore⟩

end Acs.Reader
