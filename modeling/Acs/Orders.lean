/-
  Acs/Orders.lean
  ===============
  **The commands of the frontend, and what the reader does with them.**

  A stage of the frontend writes one whole line or nothing (`step_written`), and
  the reader answers each such line without an error and without a fault; only
  the commands for patterns touch the LEDs (`answered_handleLine`).
-/
import Acs.Lib.Framing
import Acs.Esp32.CardReader
import Acs.Reader.AppMain

namespace Acs

open Acs.Reader Acs.Esp32 CInt Decimal Framing

/-! ### The commands of the frontend -/

/-- A line that the frontend writes. -/
inductive Order where
  | poll
  | beep
  | pattern (p : Esp32.Pattern)
deriving DecidableEq, Repr

namespace Order

/-- The line without its end. -/
def text : Order → Bytes
  | .poll => str "C"
  | .beep => str "S1000 100"
  | .pattern p => (CardReader.patternCommand p).dropLast

/-- No command shows `none`. -/
def Proper (o : Order) : Prop := o ≠ .pattern .none

instance (o : Order) : Decidable o.Proper := inferInstanceAs (Decidable (_ ≠ _))

def pattern? : Order → Option Esp32.Pattern
  | .poll => none
  | .beep => none
  | .pattern p => some p

/-- The pattern, element by element. -/
def shape : Esp32.Pattern → Reader.Pattern
  | .none => { period := 0, repeats := 0, seq := [] }
  | .ready => { period := 200, repeats := 10, seq := [.green, .none] }
  | .enter => { period := 250, repeats := 8, seq := [.green, .none] }
  | .open => { period := 200, repeats := 0, seq := [.green] }
  | .warnClosing => { period := 5, repeats := 0, seq :=
      [.green] ++ List.replicate 10 .none ++ List.replicate 100 .red }
  | .error => { period := 5, repeats := 10, seq :=
      [.green] ++ List.replicate 10 .none ++ List.replicate 100 .red ++ List.replicate 100 .none }
  | .noEntry => { period := 100, repeats := 30, seq := [.red, .none] }
  | .wait => { period := 20, repeats := 0, seq := [.green, .none, .none] }

/-- What the command puts up. -/
def sign? (o : Order) : Option Sign := o.pattern?.map fun p => .pattern (shape p)

def all : List Order :=
  [.poll, .beep, .pattern .ready, .pattern .enter, .pattern .open, .pattern .warnClosing,
    .pattern .error, .pattern .noEntry, .pattern .wait]

/-- What a line puts up that has been handled. -/
def signOf (line : Bytes) : Option Sign := (all.find? fun o => o.text = line).bind sign?

theorem mem_all {o : Order} (h : o.Proper) : o ∈ all := by
  cases o with
  | poll => decide
  | beep => decide
  | pattern p => cases p <;> first | decide | exact absurd rfl h

theorem forall_proper {P : Order → Prop} (h : ∀ o ∈ all, P o) {o : Order} (ho : o.Proper) : P o :=
  h o (mem_all ho)

theorem signOf_text {o : Order} (h : o.Proper) : signOf o.text = o.sign? :=
  forall_proper (P := fun o => signOf o.text = o.sign?) (by decide +kernel) h

theorem length_text_le {o : Order} (h : o.Proper) : o.text.length ≤ 1023 :=
  forall_proper (P := fun o => o.text.length ≤ 1023) (by decide +kernel) h

end Order

def newline : UInt8 := '\n'.toUInt8

/-- The bytes with which the reader ends a line. -/
def IsLineEnd (c : UInt8) : Prop := [c] = str "\r" ∨ [c] = str "\n"

instance (c : UInt8) : Decidable (IsLineEnd c) := inferInstanceAs (Decidable (_ ∨ _))

theorem isLineEnd_newline : IsLineEnd newline := by decide

theorem not_isLineEnd_text {o : Order} (h : o.Proper) : ∀ c ∈ o.text, ¬ IsLineEnd c :=
  Order.forall_proper (P := fun o => ∀ c ∈ o.text, ¬ IsLineEnd c) (by decide +kernel) h

namespace Esp32.CardReader

/-- The command that a stage writes. -/
def orders (c : CardReader) (now : Int) : List Order :=
  match c.stage with
  | .poll => [.poll]
  | .read => []
  | .sound => if c.sound = .warning ∧ now - c.lastSoundChange ≥ beepInterval then [.beep] else []
  | .pattern =>
    if c.pattern ≠ c.lastPattern ∧ c.pattern ≠ .none then [.pattern c.pattern] else []

theorem proper_of_mem_orders {c : CardReader} {now : Int} {o : Order} (h : o ∈ c.orders now) :
    o.Proper := by
  rw [orders] at h
  cases hstage : c.stage with
  | poll =>
    rw [hstage] at h
    obtain rfl := List.mem_singleton.mp h
    decide
  | read =>
    rw [hstage] at h
    exact absurd h List.not_mem_nil
  | sound =>
    rw [hstage] at h
    dsimp only at h
    split at h
    · obtain rfl := List.mem_singleton.mp h
      decide
    · exact absurd h List.not_mem_nil
  | pattern =>
    rw [hstage] at h
    dsimp only at h
    split at h
    next hne =>
      obtain rfl := List.mem_singleton.mp h
      intro hnone
      exact hne.2 (Order.pattern.inj hnone)
    next => exact absurd h List.not_mem_nil

/-- **A stage writes a whole command or nothing.** -/
theorem step_written (c : CardReader) (received : Bytes) (now nowAgain : Int) :
    (c.step received now nowAgain).1 = encode newline ((c.orders now).map Order.text) := by
  rw [step, orders]
  cases c.stage with
  | poll => rfl
  | read => rfl
  | sound =>
    dsimp only
    rw [doSound]
    cases hsound : c.sound with
    | warning =>
      dsimp only
      by_cases hdue : now - c.lastSoundChange ≥ beepInterval
      · rw [if_pos hdue, if_pos ⟨rfl, hdue⟩]
        rfl
      · rw [if_neg hdue, if_neg fun h => hdue h.2]
        rfl
    | warnClosing => rfl
    | none => rfl
  | pattern =>
    dsimp only
    rw [doPattern]
    dsimp only
    by_cases hnew : c.pattern ≠ c.lastPattern
    · rw [if_pos hnew]
      by_cases hnone : c.pattern = .none
      · rw [if_neg fun h => h.2 hnone, hnone]
        rfl
      · rw [if_pos ⟨hnew, hnone⟩]
        cases hp : c.pattern <;> first | rfl | exact absurd hp hnone
    · rw [if_neg hnew, if_neg fun h => hnew h.1]
      rfl

end Esp32.CardReader

/-! ### What the reader does with them -/

/-- The reader has answered a command. -/
structure Answered (o : Order) (r : Console) (reply : Bytes) (r' : Console) : Prop where
  reply : reply = str "OK\n" ∨ ∃ id, reply = cardReply id
  faults : r'.devices.faults = r.devices.faults
  leds : r'.devices.value.leds =
    (o.pattern?.map fun p => r.devices.value.leds.install (Order.shape p)).getD r.devices.value.leds

theorem parsePattern_text {p : Esp32.Pattern} (h : p ≠ .none) :
    (parsePattern (cstr (Order.pattern p).text.tail)).value = some (Order.shape p) ∧
      (parsePattern (cstr (Order.pattern p).text.tail)).faults = [] := by
  cases p <;> first | exact absurd rfl h | exact ⟨by decide +kernel, by decide +kernel⟩

theorem faults_perform {command : Devices → Checked Field (Bool × Devices)}
    {d : Checked Field Devices} (h : (command d.value).faults = []) :
    (perform command d).2.faults = d.faults := by
  have hfaults : (perform command d).2.faults = (d.faults ++ (command d.value).faults) ++ [] := rfl
  rw [hfaults, h, List.append_nil, List.append_nil]

/-- A command is answered as it succeeds. -/
theorem answered_acknowledge {o : Order} {r : Console}
    {command : Devices → Checked Field (Bool × Devices)}
    (hok : (command r.devices.value).value.1 = true) (hfaults : (command r.devices.value).faults = [])
    (hleds : (command r.devices.value).value.2.leds = (o.pattern?.map fun p =>
      r.devices.value.leds.install (Order.shape p)).getD r.devices.value.leds) :
    Answered o r (acknowledge r (perform command r.devices)).1
      (acknowledge r (perform command r.devices)).2 where
  reply := .inl (if_pos hok)
  faults := faults_perform hfaults
  leds := hleds

theorem answered_poll (r : Console) : Answered .poll r (getCard r).1 (getCard r).2 where
  reply := .inr ⟨r.lastCardid, rfl⟩
  faults := rfl
  leds := rfl

/-- A sound leaves the LEDs alone. -/
theorem leds_playSound (line : Bytes) (d : Devices) : (playSound line d).value.2.leds = d.leds := by
  rw [playSound, Checked.value_bind]
  split
  · rfl
  · rw [Checked.value_bind]
    split
    · rfl
    · rw [Checked.value_bind]
      rfl

theorem answered_beep (r : Console) :
    Answered .beep r (acknowledge r (perform (playSound (str "1000 100")) r.devices)).1
      (acknowledge r (perform (playSound (str "1000 100")) r.devices)).2 :=
  answered_acknowledge (by rfl) (proper_playSound (by decide) _).safe (leds_playSound _ _)

theorem answered_pattern {p : Esp32.Pattern} (hp : p ≠ .none) (r : Console) :
    Answered (.pattern p) r
      (acknowledge r (perform (setPattern (Order.pattern p).text.tail) r.devices)).1
      (acknowledge r (perform (setPattern (Order.pattern p).text.tail) r.devices)).2 := by
  obtain ⟨hvalue, hfaults⟩ := parsePattern_text hp
  have hset := value_setLedPattern (Order.pattern p).text.tail r.devices.value.leds
  rw [hvalue] at hset
  have hsafe : (setLedPattern (Order.pattern p).text.tail r.devices.value.leds).Safe := by
    rw [setLedPattern, Checked.safe_bind, hvalue]
    exact ⟨hfaults, Checked.safe_pure _⟩
  refine answered_acknowledge ?_ ?_ ?_
  · rw [setPattern, Checked.value_bind, hset]
    rfl
  · exact Checked.safe_bind.mpr ⟨hsafe, Checked.safe_pure _⟩
  · rw [setPattern, Checked.value_bind, hset]
    rfl

theorem text_pattern {p : Esp32.Pattern} (h : p ≠ .none) :
    (Order.pattern p).text = 'P'.toUInt8 :: (Order.pattern p).text.tail := by
  cases p <;> first | rfl | exact absurd rfl h

/-- **Every command of the frontend is answered**, without a fault, and a pattern is
    installed. -/
theorem answered_handleLine {o : Order} (h : o.Proper) (r : Console) :
    Answered o r (handleLine commands o.text r).1 (handleLine commands o.text r).2 := by
  cases o with
  | poll => exact answered_poll r
  | beep => exact answered_beep r
  | pattern p =>
    have hp : p ≠ .none := fun hnone => h (by rw [hnone])
    rw [text_pattern hp]
    exact answered_pattern hp r

end Acs
