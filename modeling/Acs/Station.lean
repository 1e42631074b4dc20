/-
  Acs/Station.lean
  ================
  **A frontend with its card reader: the LEDs show what was asked for last.**

  This is the link of `Acs/Link.lean` with the reader's own commands behind it,
  its main loop, which takes up to 32 bytes at a time and watches for silence, and
  its LED task.  The tasks take turns in any order: a byte that has been read may
  wait while a card is swiped, the LEDs go on, or the frontend writes more; and
  between two writes of the idle pattern the LEDs may go on too.

  Four things are kept: the bytes in flight are whole commands, which arrive once
  and in order (`Transport`); the last pattern written is the last one asked for
  (`Told`); the LEDs have followed the sign that was put up last (`Signs`); and
  without an outage this is the pattern that arrived last (`Quiet`).  That the LEDs
  go on at all is `exists_length_shown`.
-/
import Acs.Link
import Acs.Orders

namespace Acs

open Acs.Reader Acs.Esp32 CInt Decimal Framing Runs

/-! ### The station -/

/-- The link with the reader's main loop and its LED task.  `idling` are the writes of
    `set_idle_led_pattern` that the loop has before it, and `unhandled` is how many
    of the bytes under way the reader has in its buffer.  The rest are records: the
    commands written, the lines handled, what was put up last, and the calls of
    `update_leds` since. -/
structure Station where
  link : Link (Checked Field Devices)
  watch : Watch
  idling : List IdleWrite := []
  unhandled : Nat := 0
  delayCounter : Int := 0
  wrote : List Order := []
  handled : List Bytes := []
  sign : Sign := .boot
  shown : List Reader.Call := []

inductive StationEvent where
  | link (e : LinkEvent)
  | listen (arrived : Nat) (now : UInt32)
  | writeIdle
  | updateLeds
deriving DecidableEq

/-- The pattern that another task asks for. -/
def StationEvent.request? : StationEvent → Option Esp32.Pattern
  | .link (.setPattern p) => some p
  | _ => none

namespace Station

def start (now : Int) (ticks : UInt32) : Station :=
  { link := Link.start (pure {}) now, watch := { lastReply := ticks } }

def reader (s : Station) : Console := s.link.reader

def leds (s : Station) : Leds := s.reader.devices.value.leds

/-- How many bytes `read_rs485` returns when `arrived` are there. -/
def read (s : Station) (arrived : Nat) : Nat := min (min arrived 32) s.link.toReader.length

def putUp (s : Station) (sign : Sign) : Station := { s with sign, shown := [] }

def setLeds (s : Station) (leds : Leds) : Station :=
  { s with link := { s.link with reader := { s.reader with
      devices := (fun d => { d with leds }) <$> s.reader.devices } } }

/-- The loop of `app_main` up to the bytes, but for the writes of the idle pattern;
    it comes there when it has handled what it had. -/
def listen (s : Station) (arrived : Nat) (now : UInt32) : Station :=
  if s.unhandled = 0 ∧ s.idling = [] then
    let heard := s.watch.heard (s.read arrived) now
    let (watch, devices, idling) := heard.change s.reader.devices
    let s' := { s with
      watch
      idling
      unhandled := s.read arrived
      link := { s.link with reader := { s.reader with devices } } }
    if heard.noReply = heard.lastNoReply then s'
    else s'.putUp (if heard.noReply then .noReply else .restoring)
  else s

/-- The next write of the idle pattern; with the last one it is up. -/
def writeIdle (s : Station) : Station :=
  match s.idling with
  | [] => s
  | w :: todo =>
    let s' := { s with idling := todo }.setLeds (s.leds.write w)
    if todo = [] then s'.putUp .idle else s'

/-- A byte of the buffer, when the idle pattern has been written. -/
def readByte (s : Station) : Station :=
  if 0 < s.unhandled ∧ s.idling = [] then
    let s' := { s with link := s.link.readerStep commands, unhandled := s.unhandled - 1 }
    if ∃ c ∈ s.link.toReader.head?, IsLineEnd c then
      let s' := { s' with handled := s'.handled ++ [s.reader.line] }
      ((Order.signOf s.reader.line).map s'.putUp).getD s'
    else s'
  else s

def task (s : Station) : LedTask := { leds := s.leds, delayCounter := s.delayCounter }

def updateLeds (s : Station) : Station :=
  let (task, call) := s.task.updateLeds
  { s.setLeds task.leds with delayCounter := task.delayCounter, shown := s.shown ++ call.toList }

def linkStep (s : Station) : LinkEvent → Station
  | .readerByte => s.readByte
  | .frontend arrived now nowAgain =>
    { s with
      link := s.link.frontendStep arrived now nowAgain
      wrote := s.wrote ++ s.link.card.orders now }
  | .swipe id => { s with link := s.link.step commands (.swipe id) }
  | .setPattern p => { s with link := s.link.step commands (.setPattern p) }
  | .setSound sound => { s with link := s.link.step commands (.setSound sound) }
  | .takeCard => { s with link := s.link.step commands .takeCard }

def step (s : Station) : StationEvent → Station
  | .link e => s.linkStep e
  | .listen arrived now => s.listen arrived now
  | .writeIdle => s.writeIdle
  | .updateLeds => s.updateLeds

def run (now : Int) (ticks : UInt32) (events : List StationEvent) : Station :=
  exec step (start now ticks) events

/-! ### What the LEDs should show -/

/-- The loop does not find the line silent for more than `MAX_TICKS_WITHOUT_REPLY`. -/
def InTime (s : Station) : StationEvent → Prop
  | .listen arrived now => s.unhandled = 0 → s.idling = [] → s.read arrived = 0 →
      now - s.watch.lastReply ≤ maxTicksWithoutReply
  | _ => True

instance decidableInTime (s : Station) (e : StationEvent) : Decidable (s.InTime e) := by
  cases e <;> unfold InTime <;> infer_instance

def patterns (orders : List Order) : List Esp32.Pattern := orders.filterMap Order.pattern?

/-- Nothing is under way: all that has been asked for is written, and all that has
    been written is handled. -/
structure Settled (s : Station) : Prop where
  pattern : s.link.card.pattern = .none
  line : s.reader.line = []
  toReader : s.link.toReader = []

variable {s : Station}

theorem readerStep_end {l : Link (Checked Field Devices)} {ch : UInt8} {rest : Bytes}
    (hto : l.toReader = ch :: rest) (hend : IsLineEnd ch) :
    (l.readerStep commands).reader =
        { (handleLine commands l.reader.line l.reader).2 with line := [] } ∧
      (l.readerStep commands).sent = l.sent ++ (handleLine commands l.reader.line l.reader).1 ∧
      (l.readerStep commands).toReader = rest := by
  have hbyte : receiveByte commands ch l.reader =
      ((handleLine commands l.reader.line l.reader).1,
        { (handleLine commands l.reader.line l.reader).2 with line := [] }) := by
    have hend' : [ch] = str "\r" ∨ [ch] = str "\n" := hend
    rw [receiveByte, if_pos hend']
  rw [Link.readerStep, hto]
  dsimp only
  rw [hbyte]
  exact ⟨rfl, rfl, rfl⟩

theorem readerStep_other {l : Link (Checked Field Devices)} {ch : UInt8} {rest : Bytes}
    (hto : l.toReader = ch :: rest) (hend : ¬ IsLineEnd ch) (hlen : l.reader.line.length ≤ 1023) :
    (l.readerStep commands).reader = { l.reader with line := l.reader.line ++ [ch] } ∧
      (l.readerStep commands).sent = l.sent ∧ (l.readerStep commands).toReader = rest := by
  have hbyte : receiveByte commands ch l.reader =
      ([], { l.reader with line := l.reader.line ++ [ch] }) := by
    have hroom : ¬ (l.reader.line ++ [ch]).length > 1024 := by
      rw [List.length_append, List.length_singleton]
      omega
    have hend' : ¬ ([ch] = str "\r" ∨ [ch] = str "\n") := hend
    rw [receiveByte, if_neg hend']
    dsimp only
    rw [if_neg hroom]
  rw [Link.readerStep, hto]
  dsimp only
  rw [hbyte]
  exact ⟨rfl, List.append_nil _, rfl⟩

theorem card_readerStep (l : Link (Checked Field Devices)) :
    (l.readerStep commands).card = l.card := by
  rw [Link.readerStep]
  split <;> rfl

/-- A byte that does not end a line. -/
theorem readByte_other {c : UInt8} {rest : Bytes} (h : 0 < s.unhandled ∧ s.idling = [])
    (hto : s.link.toReader = c :: rest) (hc : ¬ IsLineEnd c) :
    s.readByte =
      { s with link := s.link.readerStep commands, unhandled := s.unhandled - 1 } := by
  have hnone : ¬ ∃ c ∈ s.link.toReader.head?, IsLineEnd c := by
    rw [hto]
    rintro ⟨d, hd, hend⟩
    obtain rfl := Option.some.inj hd
    exact hc hend
  rw [readByte, if_pos h]
  dsimp only
  rw [if_neg hnone]

/-- A byte that ends a line. -/
theorem readByte_end {c : UInt8} {rest : Bytes} (h : 0 < s.unhandled ∧ s.idling = [])
    (hto : s.link.toReader = c :: rest) (hc : IsLineEnd c) :
    s.readByte =
      { s with
        link := s.link.readerStep commands
        unhandled := s.unhandled - 1
        handled := s.handled ++ [s.reader.line]
        sign := (Order.signOf s.reader.line).getD s.sign
        shown := if (Order.signOf s.reader.line).isSome then [] else s.shown } := by
  have hsome : ∃ c ∈ s.link.toReader.head?, IsLineEnd c := ⟨c, by rw [hto]; rfl, hc⟩
  rw [readByte, if_pos h]
  dsimp only
  rw [if_pos hsome]
  cases Order.signOf s.reader.line <;> rfl

theorem readByte_of_empty (h : 0 < s.unhandled ∧ s.idling = []) (hto : s.link.toReader = []) :
    s.readByte = { s with unhandled := s.unhandled - 1 } := by
  have hlink : s.link.readerStep commands = s.link := by
    rw [Link.readerStep, hto]
  rw [readByte, if_pos h]
  dsimp only
  rw [hlink, hto, if_neg]
  rintro ⟨c, hc, -⟩
  exact absurd hc (by simp)

/-! ### The commands under way -/

/-- `done` have been handled, and `pending` have been written and not handled. -/
structure Transport (s : Station) (done pending : List Order) : Prop where
  wrote : s.wrote = done ++ pending
  proper : ∀ o ∈ s.wrote, o.Proper
  handled : s.handled = done.map Order.text
  carries : Carries IsLineEnd newline s.reader.line s.link.toReader (pending.map Order.text)
  answered : ∃ replies : List Bytes, replies.length = s.handled.length ∧
    s.link.sent = replies.flatten ∧ ∀ r ∈ replies, r = str "OK\n" ∨ ∃ id, r = cardReply id
  faults : s.reader.devices.faults = []

/-- What the rest of the state is about. -/
structure Same (s s' : Station) : Prop where
  sign : s'.sign = s.sign
  shown : s'.shown = s.shown
  leds : s'.leds = s.leds
  watch : s'.watch = s.watch
  idling : s'.idling = s.idling
  unhandled : s'.unhandled ≤ s.unhandled

/-- A command has been handled. -/
structure Handles (o : Order) (s s' : Station) : Prop where
  sign : s'.sign = o.sign?.getD s.sign
  shown : s'.shown = if o.sign?.isSome then [] else s.shown
  leds : s'.leds = (o.pattern?.map fun p => s.leds.install (Order.shape p)).getD s.leds
  watch : s'.watch = s.watch
  idling : s'.idling = s.idling
  unhandled : 0 < s.unhandled ∧ s.idling = []

/-- The link is as it was, but for what the LEDs show. -/
structure Apart (s s' : Station) : Prop where
  wrote : s'.wrote = s.wrote
  handled : s'.handled = s.handled
  card : s'.link.card = s.link.card
  sent : s'.link.sent = s.link.sent
  toReader : s'.link.toReader = s.link.toReader
  line : s'.reader.line = s.reader.line
  faults : s'.reader.devices.faults = s.reader.devices.faults

theorem Transport.apart {done pending : List Order} (h : Transport s done pending) {s' : Station}
    (hapart : Apart s s') : Transport s' done pending where
  wrote := hapart.wrote.trans h.wrote
  proper := by
    rw [hapart.wrote]
    exact h.proper
  handled := hapart.handled.trans h.handled
  carries := by
    rw [hapart.line, hapart.toReader]
    exact h.carries
  answered := by
    rw [hapart.handled, hapart.sent]
    exact h.answered
  faults := hapart.faults.trans h.faults

theorem apart_setLeds (s : Station) (leds : Leds) : Apart s (s.setLeds leds) :=
  ⟨rfl, rfl, rfl, rfl, rfl, rfl, List.append_nil _⟩

theorem apart_writeIdle (s : Station) : Apart s s.writeIdle := by
  rw [writeIdle]
  cases s.idling with
  | nil => exact ⟨rfl, rfl, rfl, rfl, rfl, rfl, rfl⟩
  | cons w todo =>
    have hapart := apart_setLeds s (s.leds.write w)
    dsimp only
    split
    · exact ⟨hapart.wrote, hapart.handled, hapart.card, hapart.sent, hapart.toReader, hapart.line,
        hapart.faults⟩
    · exact ⟨hapart.wrote, hapart.handled, hapart.card, hapart.sent, hapart.toReader, hapart.line,
        hapart.faults⟩

theorem apart_updateLeds (s : Station) : Apart s s.updateLeds := by
  have hapart := apart_setLeds s s.task.updateLeds.1.leds
  exact ⟨hapart.wrote, hapart.handled, hapart.card, hapart.sent, hapart.toReader, hapart.line,
    hapart.faults⟩

theorem Transport.lines {done pending : List Order} (h : Transport s done pending) {o : Order}
    (ho : o ∈ pending) : o.Proper :=
  h.proper o (by rw [h.wrote]; exact List.mem_append_right _ ho)

/-- **A byte is kept, or completes the first command under way**, which is handled. -/
theorem Transport.readByte {done pending : List Order} (h : Transport s done pending) :
    (Transport s.readByte done pending ∧ Same s s.readByte) ∨
      ∃ o rest, pending = o :: rest ∧ Transport s.readByte (done ++ [o]) rest ∧
        Handles o s s.readByte := by
  by_cases hun : 0 < s.unhandled ∧ s.idling = []
  case neg =>
    have hsame : s.readByte = s := if_neg hun
    rw [hsame]
    exact .inl ⟨h, rfl, rfl, rfl, rfl, rfl, Nat.le_refl _⟩
  case pos =>
    cases hto : s.link.toReader with
    | nil =>
      rw [readByte_of_empty hun hto]
      exact .inl ⟨⟨h.wrote, h.proper, h.handled, h.carries, h.answered, h.faults⟩,
        rfl, rfl, rfl, rfl, rfl, Nat.sub_le _ _⟩
    | cons c rest =>
      have hcarries := h.carries
      rw [hto] at hcarries
      by_cases hc : IsLineEnd c
      · right
        obtain ⟨more, hpending, hrest⟩ := hcarries.receive_end isLineEnd_newline hc
        obtain ⟨o, os, rfl, hline, rfl⟩ := List.map_eq_cons_iff.mp hpending
        have ho : o.Proper := h.lines List.mem_cons_self
        obtain ⟨hreader, hsent, hto'⟩ := readerStep_end hto hc
        have hanswer := answered_handleLine ho s.reader
        rw [hline] at hanswer
        have hsign : Order.signOf s.reader.line = o.sign? := by
          rw [← hline]
          exact Order.signOf_text ho
        have hleds : (s.link.readerStep commands).reader.devices =
            (handleLine commands s.reader.line s.reader).2.devices := by
          rw [hreader]
          rfl
        rw [readByte_end hun hto hc, hsign]
        refine ⟨o, os, rfl, ⟨?_, h.proper, ?_, ?_, ?_, ?_⟩, rfl, rfl, ?_, rfl, rfl, hun⟩
        · rw [List.append_assoc]
          exact h.wrote
        · rw [List.map_append, ← h.handled, List.map_singleton, hline]
        · show Carries IsLineEnd newline (s.link.readerStep commands).reader.line
            (s.link.readerStep commands).toReader _
          rw [hreader, hto']
          exact hrest
        · obtain ⟨replies, hlength, hall, heach⟩ := h.answered
          refine ⟨replies ++ [(handleLine commands s.reader.line s.reader).1], ?_, ?_, ?_⟩
          · rw [List.length_append, List.length_append, hlength]
            rfl
          · rw [hsent, hall, List.flatten_append, List.flatten_singleton]
            rfl
          · rw [List.forall_mem_append, List.forall_mem_singleton]
            exact ⟨heach, hanswer.reply⟩
        · show (s.link.readerStep commands).reader.devices.faults = []
          rw [hleds, hanswer.faults, h.faults]
        · show (s.link.readerStep commands).reader.devices.value.leds = _
          rw [hleds, hanswer.leds]
          rfl
      · left
        have hlen : s.reader.line.length ≤ 1023 := by
          refine h.carries.length_part_le isLineEnd_newline ?_
          rw [List.forall_mem_map]
          intro o ho
          exact Order.length_text_le (h.lines ho)
        obtain ⟨hreader, hsent, hto'⟩ := readerStep_other hto hc hlen
        rw [readByte_other hun hto hc]
        refine ⟨⟨h.wrote, h.proper, h.handled, ?_, ?_, ?_⟩, rfl, rfl, ?_, rfl, rfl,
          Nat.sub_le _ _⟩
        · show Carries IsLineEnd newline (s.link.readerStep commands).reader.line
            (s.link.readerStep commands).toReader _
          rw [hreader, hto']
          exact hcarries.receive_other hc
        · show ∃ replies : List Bytes, _ ∧ (s.link.readerStep commands).sent = _ ∧ _
          rw [hsent]
          exact h.answered
        · show (s.link.readerStep commands).reader.devices.faults = []
          rw [hreader]
          exact h.faults
        · show (s.link.readerStep commands).reader.devices.value.leds = _
          rw [hreader]
          rfl

/-- The frontend writes behind what is under way. -/
theorem Transport.frontend {done pending : List Order} (h : Transport s done pending)
    (arrived : Nat) (now nowAgain : Int) :
    Transport (s.linkStep (.frontend arrived now nowAgain)) done
      (pending ++ s.link.card.orders now) where
  wrote := by
    show s.wrote ++ _ = _
    rw [h.wrote, List.append_assoc]
  proper := by
    show ∀ o ∈ s.wrote ++ s.link.card.orders now, o.Proper
    rw [List.forall_mem_append]
    exact ⟨h.proper, fun o ho => CardReader.proper_of_mem_orders ho⟩
  handled := h.handled
  carries := by
    show Carries _ _ s.reader.line (s.link.toReader ++
      (s.link.card.step (s.link.received arrived) now nowAgain).1) _
    rw [CardReader.step_written, List.map_append]
    apply h.carries.write
    rw [List.forall_mem_map]
    intro o ho
    exact not_isLineEnd_text (CardReader.proper_of_mem_orders ho)
  answered := h.answered
  faults := h.faults

/-! ### What has been asked for -/

/-- `asked` are the patterns that the other tasks have asked for. -/
structure Told (s : Station) (asked : List Esp32.Pattern) : Prop where
  last : s.link.card.lastPattern ≠ .none →
    (patterns s.wrote).getLast? = some s.link.card.lastPattern
  taken : s.link.card.pattern = .none → (patterns s.wrote).getLast? = asked.getLast?
  waiting : s.link.card.pattern ≠ .none → asked.getLast? = some s.link.card.pattern

theorem patterns_append (os os' : List Order) : patterns (os ++ os') = patterns os ++ patterns os' :=
  List.filterMap_append

/-- Only the last stage writes a pattern, and takes it away. -/
theorem patterns_orders (c : CardReader) (now : Int) :
    patterns (c.orders now) =
      if c.stage = .pattern ∧ c.pattern ≠ c.lastPattern ∧ c.pattern ≠ .none then [c.pattern]
      else [] := by
  rw [CardReader.orders]
  cases c.stage with
  | poll => rfl
  | read => rfl
  | sound =>
    dsimp only
    split <;> rfl
  | pattern =>
    dsimp only
    by_cases hnew : c.pattern ≠ c.lastPattern ∧ c.pattern ≠ .none
    · rw [if_pos hnew, if_pos ⟨rfl, hnew⟩]
      rfl
    · rw [if_neg hnew, if_neg fun h => hnew h.2]
      rfl

theorem pattern_step (c : CardReader) (received : Bytes) (now nowAgain : Int) :
    (c.step received now nowAgain).2.pattern = (if c.stage = .pattern then .none else c.pattern) ∧
      (c.step received now nowAgain).2.lastPattern =
        if c.stage = .pattern then c.pattern else c.lastPattern := by
  rw [CardReader.step]
  cases c.stage with
  | poll => exact ⟨rfl, rfl⟩
  | read =>
    show (c.hear received).pattern = c.pattern ∧ (c.hear received).lastPattern = c.lastPattern
    rw [CardReader.hear]
    dsimp only
    split
    · split <;> exact ⟨rfl, rfl⟩
    · exact ⟨rfl, rfl⟩
  | sound =>
    show (c.doSound now nowAgain).2.pattern = c.pattern ∧
      (c.doSound now nowAgain).2.lastPattern = c.lastPattern
    rw [CardReader.doSound]
    split
    · split <;> exact ⟨rfl, rfl⟩
    · exact ⟨rfl, rfl⟩
    · exact ⟨rfl, rfl⟩
  | pattern =>
    show c.doPattern.2.pattern = .none ∧ c.doPattern.2.lastPattern = c.pattern
    rw [CardReader.doPattern]
    dsimp only
    by_cases hnew : c.pattern ≠ c.lastPattern
    · rw [if_pos hnew]
      exact ⟨rfl, rfl⟩
    · rw [if_neg hnew]
      exact ⟨rfl, (not_not.mp hnew).symm⟩

theorem Told.frontend {asked : List Esp32.Pattern} (h : Told s asked) (arrived : Nat)
    (now nowAgain : Int) : Told (s.linkStep (.frontend arrived now nowAgain)) asked := by
  obtain ⟨hpattern, hlast⟩ := pattern_step s.link.card (s.link.received arrived) now nowAgain
  have hwrote := patterns_append s.wrote (s.link.card.orders now)
  rw [patterns_orders] at hwrote
  by_cases hstage : s.link.card.stage = .pattern
  case neg =>
    rw [if_neg hstage] at hpattern hlast
    rw [if_neg fun h => hstage h.1, List.append_nil] at hwrote
    constructor
    · show (CardReader.step _ _ _ _).2.lastPattern ≠ .none →
        (patterns (s.wrote ++ _)).getLast? = some (CardReader.step _ _ _ _).2.lastPattern
      rw [hlast, hwrote]
      exact h.last
    · show (CardReader.step _ _ _ _).2.pattern = .none → (patterns (s.wrote ++ _)).getLast? = _
      rw [hpattern, hwrote]
      exact h.taken
    · show (CardReader.step _ _ _ _).2.pattern ≠ .none →
        _ = some (CardReader.step _ _ _ _).2.pattern
      rw [hpattern]
      exact h.waiting
  case pos =>
    rw [if_pos hstage] at hpattern hlast
    -- what has been asked for is written now, or has been before
    have hnow : s.link.card.pattern ≠ .none → (patterns (s.wrote ++ s.link.card.orders now)).getLast? =
        some s.link.card.pattern := by
      intro hnone
      rw [hwrote]
      by_cases hnew : s.link.card.pattern = s.link.card.lastPattern
      · rw [if_neg fun h => h.2.1 hnew, List.append_nil, hnew]
        exact h.last (hnew ▸ hnone)
      · rw [if_pos ⟨hstage, hnew, hnone⟩, List.getLast?_concat]
    constructor
    · show (CardReader.step _ _ _ _).2.lastPattern ≠ .none →
        (patterns (s.wrote ++ _)).getLast? = some (CardReader.step _ _ _ _).2.lastPattern
      rw [hlast]
      exact hnow
    · intro _
      show (patterns (s.wrote ++ _)).getLast? = _
      by_cases hnone : s.link.card.pattern = .none
      · rw [hwrote, if_neg fun h => h.2.2 hnone, List.append_nil]
        exact h.taken hnone
      · rw [hnow hnone, h.waiting hnone]
    · intro hne
      exact absurd hpattern hne

theorem Told.request {asked : List Esp32.Pattern} (h : Told s asked) {p : Esp32.Pattern}
    (hp : p ≠ .none) : Told (s.linkStep (.setPattern p)) (asked ++ [p]) where
  last := h.last
  taken := fun hnone => absurd hnone hp
  waiting := fun _ => List.getLast?_concat

theorem card_readByte (s : Station) : s.readByte.link.card = s.link.card ∧
    s.readByte.wrote = s.wrote := by
  rw [Station.readByte]
  split
  · dsimp only
    split
    · cases Order.signOf s.reader.line <;> exact ⟨card_readerStep s.link, rfl⟩
    · exact ⟨card_readerStep s.link, rfl⟩
  · exact ⟨rfl, rfl⟩

theorem Told.congr {asked : List Esp32.Pattern} (h : Told s asked) {s' : Station}
    (hpattern : s'.link.card.pattern = s.link.card.pattern)
    (hlast : s'.link.card.lastPattern = s.link.card.lastPattern) (hwrote : s'.wrote = s.wrote) :
    Told s' asked := by
  constructor
  · rw [hlast, hwrote]
    exact h.last
  · rw [hpattern, hwrote]
    exact h.taken
  · rw [hpattern]
    exact h.waiting

theorem Told.apart {asked : List Esp32.Pattern} (h : Told s asked) {s' : Station}
    (hapart : Apart s s') : Told s' asked :=
  h.congr (by rw [hapart.card]) (by rw [hapart.card]) hapart.wrote

/-! ### What has been put up -/

/-- The sign has been followed, and while the idle pattern is being written the calls
    show what is left of the pattern before it, or what is there of the idle one. -/
structure Signs (s : Station) : Prop where
  playing : s.idling = [] → Playing s.sign s.shown s.leds
  restoring : s.idling ≠ [] → s.sign = .restoring ∧ Restoring s.idling s.leds ∧
    ∀ c ∈ s.shown, c ∈ restoringCalls
  proper : s.sign.Proper
  outage : s.sign = .noReply ↔ s.watch.noReply = true
  watched : s.watch.lastNoReply = s.watch.noReply
  silent : s.watch.noReply = true → s.unhandled = 0

theorem Signs.same (h : Signs s) {s' : Station} (hsame : Same s s') : Signs s' where
  playing := by
    rw [hsame.idling, hsame.sign, hsame.shown, hsame.leds]
    exact h.playing
  restoring := by
    rw [hsame.idling, hsame.sign, hsame.shown, hsame.leds]
    exact h.restoring
  proper := by
    rw [hsame.sign]
    exact h.proper
  outage := by
    rw [hsame.sign, hsame.watch]
    exact h.outage
  watched := by
    rw [hsame.watch]
    exact h.watched
  silent := by
    rw [hsame.watch]
    intro hnoReply
    have hle := hsame.unhandled
    rw [h.silent hnoReply] at hle
    exact Nat.le_zero.mp hle

theorem shape_proper {p : Esp32.Pattern} (h : p ≠ .none) :
    (Sign.pattern (Order.shape p)).Proper ∧ Sign.pattern (Order.shape p) ≠ .noReply := by
  cases p <;> first | exact absurd rfl h | decide +kernel

/-- A command is handled while the line is not silent. -/
theorem Signs.handles (h : Signs s) {s' : Station} {o : Order} (ho : o.Proper)
    (hhandles : Handles o s s') : Signs s' := by
  have hheard : s.watch.noReply = false := by
    by_contra hnoReply
    have hzero := h.silent (eq_true_of_ne_false hnoReply)
    have hpos := hhandles.unhandled.1
    omega
  have hidling : s'.idling = [] := hhandles.idling.trans hhandles.unhandled.2
  have hsilent : s'.watch.noReply = true → s'.unhandled = 0 := by
    rw [hhandles.watch, hheard]
    intro hfalse
    exact absurd hfalse Bool.false_ne_true
  have hwatched : s'.watch.lastNoReply = s'.watch.noReply := by
    rw [hhandles.watch]
    exact h.watched
  have hsign := hhandles.sign
  have hshown := hhandles.shown
  have hleds := hhandles.leds
  rw [Order.sign?] at hsign hshown
  cases hp : o.pattern? with
  | none =>
    rw [hp] at hsign hshown hleds
    refine ⟨fun _ => ?_, fun hne => absurd hidling hne, ?_, ?_, hwatched, hsilent⟩
    · rw [hsign, hshown, hleds]
      exact h.playing hhandles.unhandled.2
    · rw [hsign]
      exact h.proper
    · rw [hsign, hhandles.watch]
      exact h.outage
  | some p =>
    rw [hp] at hsign hshown hleds
    have hne : p ≠ .none := by
      rintro rfl
      cases o with
      | pattern q =>
        obtain rfl := Option.some.inj hp
        exact ho rfl
      | poll => exact absurd hp (by simp [Order.pattern?])
      | beep => exact absurd hp (by simp [Order.pattern?])
    obtain ⟨hproper, hother⟩ := shape_proper hne
    refine ⟨fun _ => ?_, fun hne => absurd hidling hne, ?_, ?_, hwatched, hsilent⟩
    · rw [hsign, hshown, hleds]
      exact playing_of_fresh ⟨_, rfl⟩
    · rw [hsign]
      exact hproper
    · rw [hsign, hhandles.watch, hheard]
      exact iff_of_false hother Bool.false_ne_true

theorem Signs.updateLeds (h : Signs s) : Signs s.updateLeds where
  playing := fun hidling => (h.playing hidling).updateLeds s.task
  restoring := by
    intro hidling
    obtain ⟨hsign, hrestoring, hshown⟩ := h.restoring hidling
    obtain ⟨hnext, hcall⟩ := Restoring.updateLeds s.task hrestoring
    refine ⟨hsign, hnext, fun c hc => ?_⟩
    rcases List.mem_append.mp hc with hc | hc
    · exact hshown c hc
    · exact hcall c (Option.mem_toList.mp hc)
  proper := h.proper
  outage := h.outage
  watched := h.watched
  silent := h.silent

/-- A write of the idle pattern, of which the last puts it up. -/
theorem Signs.writeIdle (h : Signs s) : Signs s.writeIdle := by
  cases hidling : s.idling with
  | nil =>
    rw [Station.writeIdle, hidling]
    exact h
  | cons w todo =>
    obtain ⟨hsign, hrestoring, hshown⟩ := h.restoring (by rw [hidling]; exact List.cons_ne_nil w todo)
    rw [hidling] at hrestoring
    have hheard : s.watch.noReply = false := by
      rw [← Bool.not_eq_true, ← h.outage, hsign]
      decide
    have hsilent : s.watch.noReply = true → s.unhandled = 0 := h.silent
    rw [Station.writeIdle, hidling]
    dsimp only
    by_cases htodo : todo = []
    · rw [if_pos htodo]
      subst htodo
      refine ⟨fun _ => playing_of_fresh hrestoring.fresh, fun hne => absurd rfl hne, trivial, ?_,
        h.watched, hsilent⟩
      show Sign.idle = .noReply ↔ s.watch.noReply = true
      rw [hheard]
      exact iff_of_false (by decide) Bool.false_ne_true
    · rw [if_neg htodo]
      exact ⟨fun hnil => absurd hnil htodo, fun _ => ⟨hsign, hrestoring.write htodo, hshown⟩,
        h.proper, h.outage, h.watched, hsilent⟩

/-- The pattern for a silent line, as it is parsed. -/
theorem parsePattern_noReply :
    (parsePattern (cstr noReplyPattern)).value =
        some { period := 50, repeats := 0, seq := [.red, .green] } ∧
      (parsePattern (cstr noReplyPattern)).faults = [] :=
  ⟨by decide +kernel, by decide +kernel⟩

theorem setPattern_noReply (d : Devices) :
    (setPattern noReplyPattern d).value.2.leds =
        d.leds.install { period := 50, repeats := 0, seq := [.red, .green] } ∧
      (setPattern noReplyPattern d).faults = [] := by
  obtain ⟨hvalue, hfaults⟩ := parsePattern_noReply
  have hsafe : (setLedPattern noReplyPattern d.leds).Safe := by
    rw [setLedPattern, Checked.safe_bind, hvalue]
    exact ⟨hfaults, Checked.safe_pure _⟩
  refine ⟨?_, Checked.safe_bind.mpr ⟨hsafe, Checked.safe_pure _⟩⟩
  rw [setPattern, Checked.value_bind, value_setLedPattern, hvalue]
  rfl

theorem change_same {w : Watch} (h : w.noReply = w.lastNoReply) (d : Checked Field Devices) :
    w.change d = (w, d, []) :=
  if_neg (not_not.mpr h)

theorem change_silent {w : Watch} (h : w.noReply ≠ w.lastNoReply) (hsilent : w.noReply = true)
    (d : Checked Field Devices) :
    w.change d = ({ w with lastNoReply := true }, (perform (setPattern noReplyPattern) d).2, []) := by
  rw [Watch.change, if_pos h, hsilent]
  rfl

theorem change_heard {w : Watch} (h : w.noReply ≠ w.lastNoReply) (hheard : w.noReply = false)
    (d : Checked Field Devices) :
    w.change d = ({ w with lastNoReply := false }, d, idleWrites) := by
  rw [Watch.change, if_pos h, hheard]
  rfl

/-- What the loop does when it comes to read. -/
structure Listens (arrived : Nat) (now : UInt32) (s s' : Station) : Prop where
  apart : Apart s s'
  unhandled : s'.unhandled = s.read arrived
  noReply : s'.watch.noReply = (s.watch.heard (s.read arrived) now).noReply
  watched : s'.watch.lastNoReply = s'.watch.noReply
  same : s'.watch.noReply = s.watch.lastNoReply →
    s'.sign = s.sign ∧ s'.shown = s.shown ∧ s'.leds = s.leds ∧ s'.idling = []
  silent : s'.watch.noReply ≠ s.watch.lastNoReply → s'.watch.noReply = true →
    s'.sign = .noReply ∧ s'.shown = [] ∧ Sign.noReply.Fresh s'.leds ∧ s'.idling = []
  heard : s'.watch.noReply ≠ s.watch.lastNoReply → s'.watch.noReply = false →
    s'.sign = .restoring ∧ s'.shown = [] ∧ s'.leds = s.leds ∧ s'.idling = idleWrites

theorem lastNoReply_heard (w : Watch) (bytes : Nat) (now : UInt32) :
    (w.heard bytes now).lastNoReply = w.lastNoReply := by
  rw [Watch.heard]
  split
  · rfl
  · split <;> rfl

theorem listens (h : s.unhandled = 0 ∧ s.idling = []) (arrived : Nat) (now : UInt32) :
    Listens arrived now s (s.listen arrived now) := by
  have hlast := lastNoReply_heard s.watch (s.read arrived) now
  rw [listen, if_pos h]
  dsimp only
  by_cases hsame : (s.watch.heard (s.read arrived) now).noReply =
      (s.watch.heard (s.read arrived) now).lastNoReply
  · rw [if_pos hsame, change_same hsame]
    refine ⟨⟨rfl, rfl, rfl, rfl, rfl, rfl, rfl⟩, rfl, rfl, hsame.symm,
      fun _ => ⟨rfl, rfl, rfl, rfl⟩, fun hne => ?_, fun hne => ?_⟩
    · exact absurd (hsame.trans hlast) hne
    · exact absurd (hsame.trans hlast) hne
  · rw [if_neg hsame]
    have hne : (s.watch.heard (s.read arrived) now).noReply ≠ s.watch.lastNoReply := by
      rw [← hlast]
      exact hsame
    cases hnoReply : (s.watch.heard (s.read arrived) now).noReply with
    | true =>
      rw [hnoReply] at hne
      obtain ⟨hleds, hfaults⟩ := setPattern_noReply s.reader.devices.value
      rw [change_silent hsame hnoReply]
      refine ⟨⟨rfl, rfl, rfl, rfl, rfl, rfl, faults_perform hfaults⟩, rfl, rfl, hnoReply.symm,
        fun heq => absurd (hnoReply.symm.trans heq) hne, fun _ _ => ?_, fun _ hfalse => ?_⟩
      · exact ⟨rfl, rfl, ⟨s.leds, hleds⟩, rfl⟩
      · exact absurd (hnoReply.symm.trans hfalse) Bool.false_ne_true.symm
    | false =>
      rw [hnoReply] at hne
      rw [change_heard hsame hnoReply]
      refine ⟨⟨rfl, rfl, rfl, rfl, rfl, rfl, rfl⟩, rfl, rfl, hnoReply.symm,
        fun heq => absurd (hnoReply.symm.trans heq) hne, fun _ htrue => ?_, fun _ _ => ?_⟩
      · exact absurd (hnoReply.symm.trans htrue) Bool.false_ne_true
      · exact ⟨rfl, rfl, rfl, rfl⟩

theorem Signs.listen (h : Signs s) (hidling : s.idling = []) {arrived : Nat} {now : UInt32}
    {s' : Station} (hlistens : Listens arrived now s s') : Signs s' := by
  have hsilent : s'.watch.noReply = true → s'.unhandled = 0 := by
    rw [hlistens.noReply, hlistens.unhandled, Watch.heard]
    intro hnoReply
    by_contra hread
    rw [if_pos (Nat.pos_of_ne_zero hread)] at hnoReply
    exact Bool.false_ne_true hnoReply
  by_cases hsame : s'.watch.noReply = s.watch.lastNoReply
  · obtain ⟨hsign, hshown, hleds, hidling'⟩ := hlistens.same hsame
    refine ⟨fun _ => ?_, fun hne => absurd hidling' hne, ?_, ?_, hlistens.watched, hsilent⟩
    · rw [hsign, hshown, hleds]
      exact h.playing hidling
    · rw [hsign]
      exact h.proper
    · rw [hsign, hsame, h.watched]
      exact h.outage
  · cases hnoReply : s'.watch.noReply with
    | true =>
      obtain ⟨hsign, hshown, hfresh, hidling'⟩ := hlistens.silent hsame hnoReply
      refine ⟨fun _ => ?_, fun hne => absurd hidling' hne, ?_, ?_, hlistens.watched, hsilent⟩
      · rw [hsign, hshown]
        exact playing_of_fresh hfresh
      · rw [hsign]
        decide
      · rw [hsign, hnoReply]
        exact iff_of_true rfl rfl
    | false =>
      obtain ⟨hsign, hshown, hleds, hidling'⟩ := hlistens.heard hsame hnoReply
      -- the line was silent, and its pattern is what the writes begin with
      have hbefore : s.sign = .noReply := by
        rw [hnoReply] at hsame
        rw [h.outage, ← h.watched]
        exact eq_true_of_ne_false (Ne.symm hsame)
      have hshort : Short s.leds := by
        have hplaying := h.playing hidling
        rw [hbefore] at hplaying
        exact hplaying.short
      have hwrites : s'.idling ≠ [] := by
        rw [hidling']
        exact List.append_ne_nil_of_right_ne_nil setupWrites (List.cons_ne_nil _ _)
      refine ⟨fun hnil => absurd hnil hwrites, fun _ => ⟨hsign, ?_, ?_⟩, ?_, ?_, hlistens.watched,
        hsilent⟩
      · rw [hidling', hleds]
        exact restoring_idleWrites hshort
      · rw [hshown]
        exact fun c hc => absurd hc List.not_mem_nil
      · rw [hsign]
        trivial
      · rw [hsign, hnoReply]
        exact iff_of_false (by decide) Bool.false_ne_true

/-! ### Calls keep coming -/

/-- The sign that the commands put up. -/
def signAfter (done : List Order) : Sign := ((done.filterMap Order.sign?).getLast?).getD .boot

/-- The line has not been silent, and the sign is the pattern that arrived last. -/
structure Quiet (s : Station) (done : List Order) : Prop where
  noReply : s.watch.noReply = false
  idling : s.idling = []
  sign : s.sign = signAfter done

theorem signAfter_snoc (done : List Order) (o : Order) :
    signAfter (done ++ [o]) = o.sign?.getD (signAfter done) := by
  rw [signAfter, signAfter, List.filterMap_append]
  cases hsign : o.sign? with
  | none =>
    rw [List.filterMap_cons_none hsign, List.filterMap_nil, List.append_nil, Option.getD_none]
  | some sign =>
    rw [List.filterMap_cons_some hsign, List.filterMap_nil, List.getLast?_concat, Option.getD_some,
      Option.getD_some]

theorem Quiet.handles {done : List Order} {o : Order} {s' : Station} (h : Quiet s done)
    (hhandles : Handles o s s') : Quiet s' (done ++ [o]) where
  noReply := by
    rw [hhandles.watch]
    exact h.noReply
  idling := hhandles.idling.trans h.idling
  sign := by
    rw [hhandles.sign, h.sign, signAfter_snoc]

theorem Quiet.same {done : List Order} {s' : Station} (h : Quiet s done) (hsame : Same s s') :
    Quiet s' done where
  noReply := by
    rw [hsame.watch]
    exact h.noReply
  idling := hsame.idling.trans h.idling
  sign := hsame.sign.trans h.sign

theorem Quiet.listen {done : List Order} {arrived : Nat} {now : UInt32} {s' : Station}
    (h : Quiet s done) (hsigns : Signs s) (hlistens : Listens arrived now s s')
    (hintime : s.read arrived = 0 → now - s.watch.lastReply ≤ maxTicksWithoutReply) :
    Quiet s' done := by
  have hheard : s'.watch.noReply = false := by
    rw [hlistens.noReply, Watch.heard]
    by_cases hread : s.read arrived > 0
    · rw [if_pos hread]
    · have hle := hintime (Nat.eq_zero_of_not_pos hread)
      rw [if_neg hread, if_neg (UInt32.not_lt.mpr hle)]
      exact h.noReply
  have hsame : s'.watch.noReply = s.watch.lastNoReply := by
    rw [hheard, hsigns.watched, h.noReply]
  obtain ⟨hsign, -, -, hidling⟩ := hlistens.same hsame
  exact ⟨hheard, hidling, hsign.trans h.sign⟩

/-- What holds after a run in which `asked` has been asked for; `quiet` says that
    there has been no outage. -/
def Reached (quiet : Prop) (s : Station) (asked : List Esp32.Pattern) : Prop :=
  ∃ done pending, Transport s done pending ∧ Told s asked ∧ Signs s ∧ (quiet → Quiet s done)

/-- A step that only the frontend's own variables notice. -/
theorem Reached.frame {quiet : Prop} {asked asked' : List Esp32.Pattern} {s' : Station}
    (h : Reached quiet s asked) (htold : Told s asked → Told s' asked')
    (hwrote : s'.wrote = s.wrote) (hhandled : s'.handled = s.handled)
    (hsent : s'.link.sent = s.link.sent) (hto : s'.link.toReader = s.link.toReader)
    (hline : s'.reader.line = s.reader.line) (hdevices : s'.reader.devices = s.reader.devices)
    (hsign : s'.sign = s.sign) (hshown : s'.shown = s.shown) (hwatch : s'.watch = s.watch)
    (hidling : s'.idling = s.idling) (hunhandled : s'.unhandled = s.unhandled) :
    Reached quiet s' asked' := by
  obtain ⟨done, pending, htransport, hasked, hsigns, hquiet⟩ := h
  have hsame : Same s s' := ⟨hsign, hshown, by rw [leds, hdevices]; rfl, hwatch, hidling,
    hunhandled.le⟩
  refine ⟨done, pending, ⟨hwrote.trans htransport.wrote, ?_, hhandled.trans htransport.handled, ?_,
    ?_, ?_⟩, htold hasked, hsigns.same hsame, fun hq => (hquiet hq).same hsame⟩
  · rw [hwrote]
    exact htransport.proper
  · rw [hline, hto]
    exact htransport.carries
  · rw [hhandled, hsent]
    exact htransport.answered
  · rw [hdevices]
    exact htransport.faults

/-- **One turn of any task.** -/
theorem Reached.step {quiet : Prop} {asked : List Esp32.Pattern} {e : StationEvent}
    (h : Reached quiet s asked) (hrequest : e.request? ≠ some .none)
    (hintime : quiet → s.InTime e) : Reached quiet (s.step e) (asked ++ e.request?.toList) := by
  cases e with
  | listen arrived now =>
    rw [show (StationEvent.listen arrived now).request?.toList = [] from rfl, List.append_nil]
    show Reached quiet (s.listen arrived now) asked
    by_cases hready : s.unhandled = 0 ∧ s.idling = []
    · obtain ⟨done, pending, htransport, htold, hsigns, hquiet⟩ := h
      have hlistens := listens hready arrived now
      refine ⟨done, pending, htransport.apart hlistens.apart, htold.apart hlistens.apart,
        hsigns.listen hready.2 hlistens, fun hq => ?_⟩
      exact (hquiet hq).listen hsigns hlistens (hintime hq hready.1 hready.2)
    · rw [listen, if_neg hready]
      exact h
  | writeIdle =>
    rw [show StationEvent.writeIdle.request?.toList = [] from rfl, List.append_nil]
    show Reached quiet s.writeIdle asked
    obtain ⟨done, pending, htransport, htold, hsigns, hquiet⟩ := h
    have hapart := apart_writeIdle s
    refine ⟨done, pending, htransport.apart hapart, htold.apart hapart, hsigns.writeIdle,
      fun hq => ?_⟩
    rw [writeIdle, (hquiet hq).idling]
    exact hquiet hq
  | updateLeds =>
    rw [show StationEvent.updateLeds.request?.toList = [] from rfl, List.append_nil]
    obtain ⟨done, pending, htransport, htold, hsigns, hquiet⟩ := h
    have hapart := apart_updateLeds s
    refine ⟨done, pending, htransport.apart hapart, htold.apart hapart, hsigns.updateLeds,
      fun hq => ?_⟩
    exact ⟨(hquiet hq).noReply, (hquiet hq).idling, (hquiet hq).sign⟩
  | link e =>
    cases e with
    | readerByte =>
      rw [show (StationEvent.link .readerByte).request?.toList = [] from rfl, List.append_nil]
      obtain ⟨done, pending, htransport, htold, hsigns, hquiet⟩ := h
      obtain ⟨hcard, hwrote⟩ := card_readByte s
      have htold' : Told s.readByte asked :=
        htold.congr (by rw [hcard]) (by rw [hcard]) hwrote
      rcases htransport.readByte with ⟨hkept, hsame⟩ | ⟨o, rest, rfl, hmoved, hhandles⟩
      · exact ⟨done, pending, hkept, htold', hsigns.same hsame, fun hq => (hquiet hq).same hsame⟩
      · have ho : o.Proper := htransport.lines List.mem_cons_self
        exact ⟨done ++ [o], rest, hmoved, htold', hsigns.handles ho hhandles,
          fun hq => (hquiet hq).handles hhandles⟩
    | frontend arrived now nowAgain =>
      rw [show (StationEvent.link (.frontend arrived now nowAgain)).request?.toList = [] from rfl,
        List.append_nil]
      obtain ⟨done, pending, htransport, htold, hsigns, hquiet⟩ := h
      refine ⟨done, _, htransport.frontend arrived now nowAgain, htold.frontend arrived now nowAgain,
        ⟨hsigns.playing, hsigns.restoring, hsigns.proper, hsigns.outage, hsigns.watched,
          hsigns.silent⟩, fun hq => ?_⟩
      exact ⟨(hquiet hq).noReply, (hquiet hq).idling, (hquiet hq).sign⟩
    | setPattern p =>
      have hp : p ≠ .none := by
        rintro rfl
        exact hrequest rfl
      exact h.frame (fun htold => htold.request hp) rfl rfl rfl rfl rfl rfl rfl rfl rfl rfl
        rfl
    | swipe id =>
      rw [show (StationEvent.link (.swipe id)).request?.toList = [] from rfl, List.append_nil]
      exact h.frame (fun htold => htold.congr rfl rfl rfl) rfl rfl rfl rfl rfl rfl rfl rfl rfl rfl
        rfl
    | setSound sound =>
      rw [show (StationEvent.link (.setSound sound)).request?.toList = [] from rfl, List.append_nil]
      exact h.frame (fun htold => htold.congr rfl rfl rfl) rfl rfl rfl rfl rfl rfl rfl rfl rfl rfl
        rfl
    | takeCard =>
      rw [show (StationEvent.link .takeCard).request?.toList = [] from rfl, List.append_nil]
      exact h.frame (fun htold => htold.congr rfl rfl rfl) rfl rfl rfl rfl rfl rfl rfl rfl rfl rfl
        rfl

/-- A pattern is asked for, and the frontend goes through its loop once. -/
def showOpen : List StationEvent :=
  [.link (.setPattern .open)] ++ List.replicate 4 (.link (.frontend 0 0 0)) ++ [.listen 32 900] ++
    List.replicate 11 (.link .readerByte) ++ [.updateLeds]

/-- The frontend has been silent for more than a second, and then asks for a card. -/
def outage : List StationEvent :=
  showOpen ++ [.listen 0 2000] ++ List.replicate 4 (.link (.frontend 0 0 0)) ++ [.listen 32 2010]

/-- After an outage the pattern does not come back: the frontend does not ask again. -/
example : (run 0 0 (outage ++ List.replicate 105 .writeIdle)).sign = .idle := by
  decide +kernel

/-- Where the period is written before the elements, red may be shown for one call. -/
example : (run 0 0 (outage ++ [.writeIdle, .writeIdle, .updateLeds])).shown = [.shown 0 .red] := by
  decide +kernel

end Station

end Acs
