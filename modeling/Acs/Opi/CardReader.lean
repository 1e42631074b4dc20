/-
  Acs/Opi/CardReader.lean
  =======================
  **`Card_reader` of the Orange Pi frontend** (`opi/cardreader.cpp`), and the
  replies to its commands.

  Twice a second the thread asks the reader for a card and reads one line; it may
  then write a sound and a pattern command, whose replies it leaves in the port.
  The port is a lossless FIFO on which each write succeeds, and the reader answers
  each command at once with one line; each reply keeps the request that it is for.
  Other threads set the sound and the pattern between the stages of the loop.

  A line that is left is read after the next `C`, in the place of the answer to
  it.  So the answers match exactly as long as no other command has been written
  (`matched_iff`).
-/
import Acs.Esp32.CardReader
import Acs.Lib.Run
import Acs.Reader.Commands

namespace Acs.Opi

open Acs Runs
open Acs.Esp32.CardReader (soundWarningBeep beepInterval patternCommand isCardLine)

/-! ### The port -/

/-- What a reply is for: the `C` of the poll `k`, or another command. -/
inductive Request where
  | poll (k : Nat)
  | sound
  | pattern
deriving DecidableEq

structure Reply where
  request : Request
  text : Bytes
deriving DecidableEq

/-- `readString` with the final character `\n`: the line, the result, and what is
    left.  A line that is longer than the buffer is left in part. -/
def readString (maxNbBytes : Nat) : List Reply → Bytes × Int × List Reply
  | [] => ([], 0, [])
  | r :: unread =>
      if r.text.length ≤ maxNbBytes then (r.text, r.text.length - 1, unread)
      else (r.text.take maxNbBytes, -3, { r with text := r.text.drop maxNbBytes } :: unread)

/-- The loop of `skip_prologue`: it ends at a read that times out when the line
    before was empty, too. -/
def skipLoop : Nat → Bytes → Nat → List Reply → Nat × List Reply
  | 0, _, skipped, unread => (skipped, unread)
  | i + 1, line, skipped, unread =>
      let (next, result, unread) := readString 80 unread
      if result = 0 ∧ line = [] then (skipped, unread) else skipLoop i next (skipped + 1) unread

def skipPrologue (unread : List Reply) : Nat × List Reply := skipLoop 120 [] 0 unread

/-! ### The thread -/

/-- Where `thread_body` is in its loop. -/
inductive Stage where
  | poll
  | sound
  | pattern
deriving DecidableEq

/-- `Card_reader` with the locals of `thread_body`, the port and the reader behind
    it.  `polls` counts the `C` that have been written, and `consumed` keeps the
    line that was read after each. -/
structure CardReader (δ : Type) where
  reader : Reader.State δ
  device : Bytes
  unread : List Reply := []
  cardId : Bytes := []
  sound : Esp32.Sound := .none
  pattern : Esp32.Pattern := .none
  lastSoundChange : Int
  lastReopen : Int
  lastPattern : Esp32.Pattern := .none
  n : Nat := 0
  stage : Stage := .poll
  log : List Bytes := []
  polls : Nat := 0
  consumed : List (Nat × Reply) := []

/-- The clock at each of its readings in one turn. -/
structure Clock where
  reopenTime : Int
  reopenedTime : Int
  soundTime : Int
  soundChangeTime : Int

namespace CardReader

variable {δ : Type} (cmds : Reader.Commands δ)

def setPattern (c : CardReader δ) (p : Esp32.Pattern) : CardReader δ := { c with pattern := p }

def setSound (c : CardReader δ) (s : Esp32.Sound) : CardReader δ := { c with sound := s }

def getAndClearCardId (c : CardReader δ) : Bytes × CardReader δ :=
  (c.cardId, { c with cardId := [] })

def logText (c : CardReader δ) (text : Bytes) : CardReader δ := { c with log := c.log ++ [text] }

/-- `port.write`: the reader takes the line without its end, and answers. -/
def send (c : CardReader δ) (request : Request) (command : Bytes) : CardReader δ :=
  let (reply, reader) := Reader.handleLine cmds command.dropLast c.reader
  { c with reader, unread := c.unread ++ [⟨request, reply⟩] }

def alive (c : CardReader δ) : CardReader δ :=
  if c.n + 1 > 120 then { c.logText (str "Card_reader: I'm alive") with n := 0 }
  else { c with n := c.n + 1 }

/-- `REOPEN_INTERVAL`. -/
def reopenInterval : Int := 3600 * 1000000000

/-- A port that is reopened has what it had. -/
def reopen (c : CardReader δ) (i : Clock) : CardReader δ :=
  if i.reopenTime - c.lastReopen ≥ reopenInterval then
    let c := c.logText (str "Card_reader: Reopening port")
    let c := c.logText (str "Successfully reopened " ++ c.device)
    { c with lastReopen := i.reopenedTime }
  else c

/-- What is done with a line: only what is neither a card nor two characters long
    makes the thread empty the port. -/
def hear (c : CardReader δ) (line : Bytes) : CardReader δ :=
  if isCardLine line then
    { c.logText (str "Card_reader: got card ID '" ++ line.drop 2 ++ str "'") with
      cardId := line.drop 2 }
  else if line ≠ [] ∧ line.length ≠ 2 then
    let (skipped, unread) := skipPrologue c.unread
    { c.logText (str "Card_reader: got garbage '" ++ line ++ str "', skipped " ++
        decimal skipped) with unread }
  else c

/-- The `C`, and the line that is read after it. -/
def poll (c : CardReader δ) : CardReader δ :=
  let c := { c.send cmds (.poll c.polls) (str "C\n") with polls := c.polls + 1 }
  let (line, _, unread) := readString 50 c.unread
  let consumed := c.unread.head?.toList.map fun r => (c.polls - 1, r)
  { c with unread, consumed := c.consumed ++ consumed }.hear (stripNp line)

def beepDue (c : CardReader δ) (i : Clock) : Bool :=
  c.sound = .warning ∧ i.soundTime - c.lastSoundChange ≥ beepInterval

def doSound (c : CardReader δ) (i : Clock) : CardReader δ :=
  if c.beepDue i then
    { c with lastSoundChange := i.soundChangeTime }.send cmds .sound soundWarningBeep
  else c

/-- The commands for the patterns are those of the other frontend. -/
def doPattern (c : CardReader δ) : CardReader δ :=
  let activePattern := c.pattern
  let c := { c with pattern := .none }
  if activePattern ≠ c.lastPattern then
    let c := { c with lastPattern := activePattern }
    if patternCommand activePattern ≠ [] then
      c.send cmds .pattern (patternCommand activePattern)
    else c
  else c

/-- One stage of the loop. -/
def turn (c : CardReader δ) (i : Clock) : CardReader δ :=
  match c.stage with
  | .poll => { (c.alive.reopen i).poll cmds with stage := .sound }
  | .sound => { c.doSound cmds i with stage := .pattern }
  | .pattern => { c.doPattern cmds with stage := .poll }

inductive Event where
  | swipe (id : RfidId)
  | setPattern (p : Esp32.Pattern)
  | setSound (s : Esp32.Sound)
  | takeCard
  | turn (i : Clock)

def step (c : CardReader δ) : Event → CardReader δ
  | .swipe id => { c with reader := c.reader.swipe id }
  | .setPattern p => c.setPattern p
  | .setSound s => c.setSound s
  | .takeCard => c.getAndClearCardId.2
  | .turn i => c.turn cmds i

def start (devices : δ) (device : Bytes) (now : Int) : CardReader δ :=
  { reader := { devices }, device, lastSoundChange := now, lastReopen := now }

/-! ### What a stage does to the port -/

@[simp] theorem unread_send (c : CardReader δ) (request : Request) (command : Bytes) :
    (c.send cmds request command).unread =
      c.unread ++ [⟨request, (Reader.handleLine cmds command.dropLast c.reader).1⟩] := rfl

theorem skipPrologue_nil : (skipPrologue []).2 = [] := rfl

theorem unread_hear_of_nil {c : CardReader δ} (h : c.unread = []) (line : Bytes) :
    (c.hear line).unread = [] := by
  rw [hear]
  split
  · exact h
  · split
    · rw [h]
      exact skipPrologue_nil
    · exact h

@[simp] theorem consumed_hear (c : CardReader δ) (line : Bytes) :
    (c.hear line).consumed = c.consumed ∧ (c.hear line).polls = c.polls := by
  rw [hear]
  split
  · exact ⟨rfl, rfl⟩
  · split <;> exact ⟨rfl, rfl⟩

/-- The answer to a `C`. -/
def answer (c : CardReader δ) : Reply := ⟨.poll c.polls, Reader.cardReply c.reader.lastCardid⟩

theorem length_answer_le (c : CardReader δ) : c.answer.text.length ≤ 50 := by
  rw [answer, Reader.cardReply]
  split
  · exact Nat.le_of_ble_eq_true rfl
  · rw [List.length_append, ← Reader.cardText, Reader.length_cardText]
    exact Nat.le_of_ble_eq_true rfl

/-- The `C` is answered, and then a line is read and heard. -/
theorem poll_eq (c : CardReader δ) :
    c.poll cmds =
      { c with
        reader := (Reader.getCard c.reader).2
        polls := c.polls + 1
        unread := (readString 50 (c.unread ++ [c.answer])).2.2
        consumed := c.consumed ++ (c.unread ++ [c.answer]).head?.toList.map (c.polls, ·) }.hear
      (stripNp (readString 50 (c.unread ++ [c.answer])).1) := rfl

theorem unread_poll_of_nil {c : CardReader δ} (h : c.unread = []) :
    (c.poll cmds).unread = [] := by
  rw [poll_eq]
  apply unread_hear_of_nil
  change (readString 50 (c.unread ++ [c.answer])).2.2 = []
  rw [h, List.nil_append, readString, if_pos (length_answer_le c)]

/-- The line that is read is the oldest one. -/
theorem consumed_poll (c : CardReader δ) :
    (c.poll cmds).consumed = c.consumed ++ [(c.polls, c.unread.head?.getD c.answer)] ∧
      (c.poll cmds).polls = c.polls + 1 := by
  rw [poll_eq, (consumed_hear _ _).1, (consumed_hear _ _).2]
  cases c.unread <;> exact ⟨rfl, rfl⟩

/-- The turn of the loop that writes a `C`. -/
def Polls (c : CardReader δ) : Event → Prop
  | .turn _ => c.stage = .poll
  | _ => False

/-- No command but `C` is written. -/
def Quiet (c : CardReader δ) : Event → Prop
  | .turn i =>
      match c.stage with
      | .poll => True
      | .sound => ¬ (c.sound = .warning ∧ i.soundTime - c.lastSoundChange ≥ beepInterval)
      | .pattern => c.pattern = c.lastPattern ∨ c.pattern = .none
  | _ => True

@[simp] theorem unread_reopen (c : CardReader δ) (i : Clock) :
    (c.reopen i).unread = c.unread ∧ (c.reopen i).consumed = c.consumed ∧
      (c.reopen i).polls = c.polls ∧ (c.reopen i).reader = c.reader := by
  rw [reopen]
  split <;> exact ⟨rfl, rfl, rfl, rfl⟩

@[simp] theorem unread_alive (c : CardReader δ) :
    c.alive.unread = c.unread ∧ c.alive.consumed = c.consumed ∧ c.alive.polls = c.polls ∧
      c.alive.reader = c.reader := by
  rw [alive]
  split <;> exact ⟨rfl, rfl, rfl, rfl⟩

theorem patternCommand_ne_nil_iff (p : Esp32.Pattern) : patternCommand p ≠ [] ↔ p ≠ .none := by
  cases p <;> decide

/-- The sound stage leaves the replies alone, or one more of them. -/
theorem unread_doSound (c : CardReader δ) (i : Clock) :
    (c.doSound cmds i).unread =
      if c.sound = .warning ∧ i.soundTime - c.lastSoundChange ≥ beepInterval then
        c.unread ++ [⟨.sound, (Reader.handleLine cmds soundWarningBeep.dropLast c.reader).1⟩]
      else c.unread := by
  rw [doSound, beepDue]
  simp only [decide_eq_true_eq]
  split <;> rfl

theorem unread_doPattern (c : CardReader δ) :
    (c.doPattern cmds).unread =
      if c.pattern = c.lastPattern ∨ c.pattern = .none then c.unread
      else c.unread ++
        [⟨.pattern, (Reader.handleLine cmds (patternCommand c.pattern).dropLast c.reader).1⟩] := by
  rw [doPattern]
  dsimp only
  by_cases hsame : c.pattern = c.lastPattern
  · rw [if_neg (not_not.mpr hsame), if_pos (.inl hsame)]
  · rw [if_pos hsame]
    by_cases hnone : c.pattern = .none
    · rw [if_neg (fun h => (patternCommand_ne_nil_iff _).mp h hnone), if_pos (.inr hnone)]
    · rw [if_pos ((patternCommand_ne_nil_iff _).mpr hnone), if_neg (by tauto)]
      rfl

/-- A step that does not poll leaves the replies alone if it is quiet, and one
    more of them if not. -/
theorem unread_step {c : CardReader δ} {e : Event} (hnot : ¬ Polls c e) :
    ((step cmds c e).unread = c.unread ∧ Quiet c e) ∨
      (∃ r, (∀ k, r.request ≠ .poll k) ∧ (step cmds c e).unread = c.unread ++ [r] ∧
        ¬ Quiet c e) := by
  cases e with
  | swipe id => exact .inl ⟨rfl, trivial⟩
  | setPattern p => exact .inl ⟨rfl, trivial⟩
  | setSound s => exact .inl ⟨rfl, trivial⟩
  | takeCard => exact .inl ⟨rfl, trivial⟩
  | turn i =>
    rw [step, turn, Quiet]
    cases hstage : c.stage with
    | poll => exact absurd hstage hnot
    | sound =>
      have hunread := unread_doSound cmds c i
      by_cases hdue : c.sound = .warning ∧ i.soundTime - c.lastSoundChange ≥ beepInterval
      · rw [if_pos hdue] at hunread
        refine .inr ⟨_, ?_, hunread, not_not.mpr hdue⟩
        intro k h
        cases h
      · rw [if_neg hdue] at hunread
        exact .inl ⟨hunread, hdue⟩
    | pattern =>
      have hunread := unread_doPattern cmds c
      by_cases hsame : c.pattern = c.lastPattern ∨ c.pattern = .none
      · rw [if_pos hsame] at hunread
        exact .inl ⟨hunread, hsame⟩
      · rw [if_neg hsame] at hunread
        refine .inr ⟨_, ?_, hunread, hsame⟩
        intro k h
        cases h

/-- A step that does not poll consumes nothing. -/
theorem consumed_step {c : CardReader δ} {e : Event} (hnot : ¬ Polls c e) :
    (step cmds c e).consumed = c.consumed ∧ (step cmds c e).polls = c.polls := by
  cases e with
  | swipe id => exact ⟨rfl, rfl⟩
  | setPattern p => exact ⟨rfl, rfl⟩
  | setSound s => exact ⟨rfl, rfl⟩
  | takeCard => exact ⟨rfl, rfl⟩
  | turn i =>
    rw [step, turn]
    cases hstage : c.stage with
    | poll => exact absurd hstage hnot
    | sound =>
      show (c.doSound cmds i).consumed = _ ∧ (c.doSound cmds i).polls = _
      rw [doSound]
      split <;> exact ⟨rfl, rfl⟩
    | pattern =>
      show (c.doPattern cmds).consumed = _ ∧ (c.doPattern cmds).polls = _
      rw [doPattern]
      dsimp only
      split
      · split <;> exact ⟨rfl, rfl⟩
      · exact ⟨rfl, rfl⟩

theorem polls_iff {c : CardReader δ} {e : Event} :
    Polls c e ↔ c.stage = .poll ∧ ∃ i, e = .turn i := by
  cases e with
  | turn i => exact ⟨fun h => ⟨h, i, rfl⟩, fun h => h.1⟩
  | _ => exact ⟨False.elim, fun h => by obtain ⟨-, i, hi⟩ := h; cases hi⟩

theorem step_of_polls {c : CardReader δ} {e : Event} (h : Polls c e) :
    ∃ i, e = .turn i ∧
      step cmds c e = { (c.alive.reopen i).poll cmds with stage := .sound } := by
  obtain ⟨hstage, i, rfl⟩ := polls_iff.mp h
  refine ⟨i, rfl, ?_⟩
  rw [step, turn, hstage]

theorem unread_step_of_polls {c : CardReader δ} {e : Event} (h : Polls c e)
    (hnil : c.unread = []) : (step cmds c e).unread = [] := by
  obtain ⟨i, -, hstep⟩ := step_of_polls cmds h
  rw [hstep]
  apply unread_poll_of_nil
  rw [(unread_reopen _ i).1, (unread_alive c).1, hnil]

theorem consumed_step_of_polls {c : CardReader δ} {e : Event} (h : Polls c e) :
    (step cmds c e).consumed = c.consumed ++ [(c.polls, c.unread.head?.getD c.answer)] ∧
      (step cmds c e).polls = c.polls + 1 := by
  obtain ⟨i, -, hstep⟩ := step_of_polls cmds h
  obtain ⟨hunread, hconsumed, hpolls, hreader⟩ := unread_reopen c.alive i
  obtain ⟨hunread', hconsumed', hpolls', hreader'⟩ := unread_alive c
  rw [hstep]
  show ((c.alive.reopen i).poll cmds).consumed = _ ∧ ((c.alive.reopen i).poll cmds).polls = _
  rw [(consumed_poll cmds _).1, (consumed_poll cmds _).2, answer, hunread, hunread', hconsumed,
    hconsumed', hpolls, hpolls', hreader, hreader', answer]
  exact ⟨rfl, rfl⟩

/-! ### When the answers match -/

/-- The line after each `C` is the answer to it. -/
def Matched (c : CardReader δ) : Prop := ∀ m ∈ c.consumed, m.2.request = .poll m.1

/-- No reply is to a `C` that has not been written. -/
def Numbered (c : CardReader δ) : Prop := ∀ r ∈ c.unread, ∀ k, r.request = .poll k → k < c.polls

/-- The replies that `readString` leaves, or a part of one, are to the same
    requests. -/
theorem request_readString {n k : Nat} {unread : List Reply}
    (h : ∀ r ∈ unread, ∀ j, r.request = .poll j → j < k) :
    ∀ r ∈ (readString n unread).2.2, ∀ j, r.request = .poll j → j < k := by
  cases unread with
  | nil => exact h
  | cons r unread =>
    rw [List.forall_mem_cons] at h
    rw [readString]
    split
    · exact h.2
    · exact List.forall_mem_cons.mpr h

theorem request_skipLoop {k : Nat} (i : Nat) (line : Bytes) (skipped : Nat)
    {unread : List Reply} (h : ∀ r ∈ unread, ∀ j, r.request = .poll j → j < k) :
    ∀ r ∈ (skipLoop i line skipped unread).2, ∀ j, r.request = .poll j → j < k := by
  induction i generalizing line skipped unread with
  | zero => exact h
  | succ i ih =>
    have hnext := request_readString (n := 80) h
    rw [skipLoop]
    dsimp only
    split
    · exact hnext
    · exact ih _ _ hnext

theorem Numbered.hear {c : CardReader δ} (h : Numbered c) (line : Bytes) :
    Numbered (c.hear line) := by
  rw [CardReader.hear]
  split
  · exact h
  · split
    · exact request_skipLoop 120 [] 0 h
    · exact h

theorem Numbered.poll {c : CardReader δ} (h : Numbered c) : Numbered (c.poll cmds) := by
  rw [poll_eq]
  apply Numbered.hear
  apply request_readString
  rw [List.forall_mem_append, List.forall_mem_singleton]
  constructor
  · intro r hr k hk
    exact Nat.lt_succ_of_lt (h r hr k hk)
  · intro k hk
    cases hk
    exact Nat.lt_succ_self _

theorem Numbered.step {c : CardReader δ} (h : Numbered c) (e : Event) :
    Numbered (CardReader.step cmds c e) := by
  by_cases hpolls : Polls c e
  · obtain ⟨i, -, hstep⟩ := step_of_polls cmds hpolls
    have hready : Numbered (c.alive.reopen i) := by
      obtain ⟨hunread, -, hcount, -⟩ := unread_reopen c.alive i
      obtain ⟨hunread', -, hcount', -⟩ := unread_alive c
      rw [Numbered, hunread, hunread', hcount, hcount']
      exact h
    rw [hstep]
    exact hready.poll cmds
  · rw [Numbered, (consumed_step cmds hpolls).2]
    rcases unread_step cmds hpolls with ⟨hunread, -⟩ | ⟨r, hr, hunread, -⟩
    · rw [hunread]
      exact h
    · rw [hunread, List.forall_mem_append, List.forall_mem_singleton]
      exact ⟨h, fun k hk => absurd hk (hr k)⟩

/-- One more answer matches exactly when nothing was left before the `C`. -/
theorem matched_step_iff {c : CardReader δ} (hnum : Numbered c) (e : Event) :
    Matched (step cmds c e) ↔ Matched c ∧ (Polls c e → c.unread = []) := by
  by_cases hpolls : Polls c e
  · rw [Matched, (consumed_step_of_polls cmds hpolls).1, List.forall_mem_append,
      List.forall_mem_singleton, imp_iff_right hpolls]
    refine and_congr_right fun _ => ?_
    cases hunread : c.unread with
    | nil => exact iff_of_true rfl rfl
    | cons r unread =>
      refine iff_of_false ?_ (List.cons_ne_nil r unread)
      intro hr
      exact absurd (hnum r (hunread ▸ List.mem_cons_self) c.polls hr) (Nat.lt_irrefl _)
  · rw [Matched, (consumed_step cmds hpolls).1, ← Matched]
    exact ⟨fun h => ⟨h, fun hp => absurd hp hpolls⟩, fun h => h.1⟩

theorem matched_exec_iff {c : CardReader δ} (hnum : Numbered c) (hmatched : Matched c)
    (events : List Event) :
    Matched (exec (step cmds) c events) ↔
      Along (step cmds) (fun c e => Polls c e → c.unread = []) c events := by
  induction events using List.reverseRec with
  | nil => exact iff_of_true hmatched trivial
  | append_singleton events e ih =>
    have hnum' : Numbered (exec (step cmds) c events) :=
      exec_invariant_of_forall (step cmds) (fun _ => True) Numbered
        (fun _ e h _ => h.step cmds e) hnum fun _ _ => trivial
    rw [exec_snoc, matched_step_iff cmds hnum', ih, along_append, Along, Along, and_true]

/-- A reply that is left stays until the next `C`. -/
theorem unread_ne_nil_of_along {c : CardReader δ} {events : List Event}
    (h : Along (step cmds) (fun c e => Polls c e → c.unread = []) c events)
    (hleft : c.unread ≠ []) : (exec (step cmds) c events).unread ≠ [] := by
  refine exec_invariant (step cmds) _ (fun c => c.unread ≠ []) ?_ hleft h
  intro c e hleft hempty
  have hnot : ¬ Polls c e := fun hpolls => hleft (hempty hpolls)
  rcases unread_step cmds hnot with ⟨hunread, -⟩ | ⟨r, -, hunread, -⟩
  · rw [hunread]
    exact hleft
  · rw [hunread]
    exact List.append_ne_nil_of_left_ne_nil hleft [r]

theorem unread_exec_of_quiet {c : CardReader δ} {events : List Event} (hnil : c.unread = [])
    (h : Along (step cmds) Quiet c events) : (exec (step cmds) c events).unread = [] := by
  refine exec_invariant (step cmds) Quiet (fun c => c.unread = []) ?_ hnil h
  intro c e hnil hquiet
  by_cases hpolls : Polls c e
  · exact unread_step_of_polls cmds hpolls hnil
  · rcases unread_step cmds hpolls with ⟨hunread, -⟩ | ⟨r, -, -, hnot⟩
    · rw [hunread, hnil]
    · exact absurd hquiet hnot

/-- Nothing is left at any `C` exactly when all has been quiet before it. -/
theorem along_empty_iff {c : CardReader δ} (hnil : c.unread = []) (events : List Event) :
    Along (step cmds) (fun c e => Polls c e → c.unread = []) c events ↔
      ∀ before e after, events = before ++ e :: after →
        Polls (exec (step cmds) c before) e → Along (step cmds) Quiet c before := by
  constructor
  · rintro h before e after rfl hpolls
    rw [along_iff]
    rintro pre e' post rfl
    by_contra hnot
    obtain ⟨hbefore, hempty, -⟩ := along_append.mp h
    obtain ⟨-, -, hpost⟩ := along_append.mp hbefore
    have hquiet : ¬ Polls (exec (step cmds) c pre) e' := by
      intro hp
      obtain ⟨hstage, i, rfl⟩ := polls_iff.mp hp
      rw [Quiet, hstage] at hnot
      exact hnot trivial
    have hleft : (step cmds (exec (step cmds) c pre) e').unread ≠ [] := by
      rcases unread_step cmds hquiet with ⟨-, hq⟩ | ⟨r, -, hunread, -⟩
      · exact absurd hq hnot
      · rw [hunread]
        exact List.append_ne_nil_of_right_ne_nil _ (List.cons_ne_nil r [])
    have hstill := unread_ne_nil_of_along cmds hpost hleft
    rw [exec_append, exec_cons] at hpolls hempty
    exact hstill (hempty hpolls)
  · intro h
    rw [along_iff]
    rintro before e after rfl hpolls
    exact unread_exec_of_quiet cmds hnil (h before e after rfl hpolls)

theorem numbered_start (devices : δ) (device : Bytes) (now : Int) :
    Numbered (start devices device now) :=
  List.forall_mem_nil _

theorem matched_start (devices : δ) (device : Bytes) (now : Int) :
    Matched (start devices device now) :=
  List.forall_mem_nil _

/-- **When the answers match**: each `C` comes before the first beep and the
    first pattern. -/
theorem matched_iff (devices : δ) (device : Bytes) (now : Int) (events : List Event) :
    Matched (exec (step cmds) (start devices device now) events) ↔
      ∀ before e after, events = before ++ e :: after →
        Polls (exec (step cmds) (start devices device now) before) e →
          Along (step cmds) Quiet (start devices device now) before := by
  rw [matched_exec_iff cmds (numbered_start devices device now)
    (matched_start devices device now), along_empty_iff cmds rfl]

/-- Equivalently, nothing is unread at any `C`. -/
theorem matched_iff_unread (devices : δ) (device : Bytes) (now : Int) (events : List Event) :
    Matched (exec (step cmds) (start devices device now) events) ↔
      Along (step cmds) (fun c e => Polls c e → c.unread = []) (start devices device now) events :=
  matched_exec_iff cmds (numbered_start devices device now) (matched_start devices device now)
    events

theorem hear_cardReply (c : CardReader δ) {id : RfidId} (hid : id.1 ≠ 0) :
    (c.hear (stripNp (Reader.cardReply id))).cardId = Hex.padSpace 10 id.1 := by
  have hline : stripNp (Reader.cardReply id) = Reader.cardText id := by
    rw [Reader.cardReply_eq hid, stripNp, List.filter_append, ← stripNp, Reader.stripNp_cardText]
    exact List.append_nil _
  have hcard : isCardLine (Reader.cardText id) = true :=
    decide_eq_true ⟨Reader.length_cardText id, rfl⟩
  rw [hline, hear, if_pos hcard]
  rfl

/-- Then a card that has been swiped is reported by the next `C`. -/
theorem cardId_step_of_unread {c : CardReader δ} {e : Event} (hpolls : Polls c e)
    (hnil : c.unread = []) (hcard : c.reader.lastCardid.1 ≠ 0) :
    (step cmds c e).cardId = Hex.padSpace 10 c.reader.lastCardid.1 := by
  obtain ⟨i, -, hstep⟩ := step_of_polls cmds hpolls
  obtain ⟨hunread, -, -, hreader⟩ := unread_reopen c.alive i
  obtain ⟨hunread', -, -, hreader'⟩ := unread_alive c
  have hanswer : (c.alive.reopen i).answer.text = Reader.cardReply c.reader.lastCardid := by
    rw [answer, hreader, hreader']
  rw [hstep]
  show ((c.alive.reopen i).poll cmds).cardId = _
  rw [poll_eq, hunread, hunread', hnil, List.nil_append, readString,
    if_pos (length_answer_le _), hanswer]
  exact hear_cardReply _ hcard

/-- A pattern is set, and with the next `C` a card is waiting. -/
def patternThenSwipe : List Event :=
  [.setPattern .ready, .turn ⟨0, 0, 0, 0⟩, .turn ⟨0, 0, 0, 0⟩, .turn ⟨0, 0, 0, 0⟩,
    .swipe ⟨0x1234ABCD, Nat.le_of_ble_eq_true rfl⟩, .turn ⟨0, 0, 0, 0⟩]

/-- What is read after the second `C` is the answer to the pattern. -/
theorem not_matched : ¬ ∀ (devices : CInt.Checked Decimal.Field Reader.Devices) device now events,
    Matched (exec (step Reader.commands) (start devices device now) events) := by
  intro h
  have hmatched := h (pure {}) (str "/dev/ttyUSB0") 0 patternThenSwipe
  rw [matched_iff_unread] at hmatched
  exact absurd (hmatched.2.2.2.2.2.1 rfl) (List.cons_ne_nil _ _)

end CardReader

end Acs.Opi
