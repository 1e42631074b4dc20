/-
  Acs/Opi/DisplayThread.lean
  ==========================
  **`Display`: what the Orange Pi's display shows** (`opi/display.cpp`).

  The controller puts its texts into a queue; a thread takes them out, keeps the
  last status, and shows a message for some time.  The thread is a board with
  notices (`Acs.Lib.Notice`), as far as every text keeps to the seven rows, and
  those of the controller do: so it never writes outside of its rows and is not
  caught in `wrap`, and with the queue worked off and no message up the display
  shows the status of the controller (`panelShows_run`).

  That is as long as the GPIO pins can be read and written.  Where one cannot,
  `fatal_error` puts the name of its file into the queue, and `wrap` does not get
  over that word: the display thread is caught (`looping_of_fatalStatus`).

  A turn of the controller is a whole iteration, with all it puts into the queue.
  The thread may come in between two of these items; but it works on one item at a
  time, the oldest, so it does what it would do after both.
-/
import Acs.Lib.Notice
import Acs.Opi.Display
import Acs.Opi.Services

namespace Acs.Opi

open Acs Runs

namespace Display

/-! ### The queue -/

/-- An `Item` of each `Type`, with the members that are used for it. -/
inductive Item where
  | clear
  | setStatus (s : Bytes) (color : Color)
  | showMessage (s : Bytes) (color : Color) (dur : Int)
  | showInfo (lineNo : Int) (s : Bytes) (color : Color) (dur : Int)
deriving DecidableEq

def setStatus (text : Bytes) (col : Color) : Item := .setStatus (strncpy MAX_SIZE text) col

def showMessage (text : Bytes) (col : Color) (dur : Int) : Item :=
  .showMessage (strncpy MAX_SIZE text) col dur

def showInfo (line : Int) (text : Bytes) (col : Color) : Item :=
  .showInfo line (strncpy MAX_SIZE text) col 0

/-! ### The thread -/

/-- `util::time_point()`. -/
def noTime : Int := 0

def noRows : Buffer := List.replicate NOF_LINES ([], .white)

/-- The buffers and `clear_at` of the class, the locals of `thread_body`, and what
    has been written to the port. -/
structure Thread where
  curBuffer : Buffer := noRows
  newBuffer : Buffer := noRows
  clearAt : Int := noTime
  lastStatus : Bytes := []
  lastStatusColor : Color := .white
  lastClock : Int
  sent : List Bytes := []

/-- The readings of the clock in one turn of the loop, and the last one as
    `{:%H:%M:%S}` of the local time. -/
structure Moment where
  takenTime : Int := 0
  checkTime : Int
  clockTime : Int
  clockText : Bytes

namespace Thread

def doShowMessage (fuel : Nat) (t : Thread) (msg : Bytes) (color : Color) : Except Fault Thread := do
  let newBuffer ← Display.doShowMessage fuel t.newBuffer msg color
  let synced := sync t.curBuffer newBuffer
  return { t with newBuffer, curBuffer := synced.1, sent := t.sent ++ synced.2 }

def doShowInfo (t : Thread) (line : Int) (text : Bytes) (color : Color) : Thread :=
  { t with sent := t.sent ++ [str "te," ++ decimal line ++ str "," ++ decimal color.toInt ++
      str "," ++ text ++ str "\n"] }

/-- The cases of the `switch`. -/
def handle (fuel : Nat) (t : Thread) (m : Moment) : Item → Except Fault Thread
  | .clear => return { t with sent := t.sent ++ [str "C\n"] }
  | .setStatus s color =>
    if s ≠ t.lastStatus ∨ color ≠ t.lastStatusColor then do
      let t ← t.doShowMessage fuel s color
      return { t with lastStatus := s, lastStatusColor := color }
    else return t
  | .showMessage s color dur => do
    let t ← t.doShowMessage fuel s color
    return { t with clearAt := m.takenTime + dur }
  | .showInfo lineNo s color dur =>
    return { t.doShowInfo lineNo s color with clearAt := m.takenTime + dur }

def take (fuel : Nat) (t : Thread) (m : Moment) : Option Item → Except Fault Thread
  | none => return t
  | some item => t.handle fuel m item

/-- The message is over. -/
def endMessage (fuel : Nat) (t : Thread) (m : Moment) : Except Fault Thread :=
  if t.clearAt ≠ noTime ∧ m.checkTime ≥ t.clearAt then
    { t with clearAt := noTime }.doShowMessage fuel t.lastStatus t.lastStatusColor
  else return t

/-- `std::chrono::floor<std::chrono::seconds>`. -/
def floorSeconds (time : Int) : Int := time / 1000000000 * 1000000000

def showClock (t : Thread) (m : Moment) : Thread :=
  if floorSeconds m.clockTime ≠ t.lastClock then
    { t with lastClock := floorSeconds m.clockTime }.doShowInfo 12 m.clockText .white
  else t

/-- One turn of the loop, with the item that the queue has. -/
def turn (fuel : Nat) (t : Thread) (item : Option Item) (m : Moment) : Except Fault Thread := do
  let t ← t.take fuel m item
  let t ← t.endMessage fuel m
  return t.showClock m

/-- After a fault there is no thread any more. -/
def act (fuel : Nat) (t : Except Fault Thread) (item : Option Item) (m : Moment) :
    Except Fault Thread :=
  t >>= fun t => t.turn fuel item m

end Thread

/-! ### Texts that keep to the rows -/

/-- The text is short, or at most seven words that each fit in a row. -/
def FitsRows (msg : Bytes) : Prop :=
  msg.length ≤ MAX_LINE_LEN ∨
    (Wrappable msg MAX_LINE_LEN ∧ (split msg (str " ")).length ≤ NOF_LINES)

instance (msg : Bytes) : Decidable (FitsRows msg) := inferInstanceAs (Decidable (_ ∨ _))

/-- The lines of the text stand one below the other, and there is nothing else. -/
def RowsShow (buf : Buffer) (row : Row) : Prop :=
  ∃ lines above below, Lines row.1 lines ∧ buf = above ++ lines.map (·, row.2) ++ below ∧
    ∀ blank ∈ above ++ below, blank.1 = []

theorem rowsShow_of_shows {newBuffer buf : Buffer} {msg : Bytes} {lines : List Bytes}
    {color : Color} (hlines : Lines msg lines) (h : Shows newBuffer buf lines color) :
    RowsShow buf (msg, color) := by
  obtain ⟨first, -, hbuf⟩ := h
  refine ⟨lines, _, _, hlines, hbuf, ?_⟩
  have hcleared : ∀ row ∈ cleared newBuffer, row.1 = [] := by
    intro row hrow
    obtain ⟨old, -, rfl⟩ := List.mem_map.mp hrow
    rfl
  intro blank hblank
  rcases List.mem_append.mp hblank with h | h
  · exact hcleared blank (List.mem_of_mem_take h)
  · exact hcleared blank (List.mem_of_mem_drop h)

theorem length_of_shows {newBuffer buf : Buffer} {lines : List Bytes} {color : Color}
    (hlen : newBuffer.length = NOF_LINES) (h : Shows newBuffer buf lines color) :
    buf.length = NOF_LINES := by
  obtain ⟨first, hrows, rfl⟩ := h
  rw [List.length_append, List.length_append, List.length_take, List.length_drop, List.length_map,
    length_cleared, hlen]
  omega

/-- Fifteen turns of the loops of `wrap` are enough for seven words. -/
def enoughTurns : Nat := 15

theorem doShowMessage_of_fits {fuel : Nat} (hfuel : enoughTurns ≤ fuel) {msg : Bytes}
    (hfits : FitsRows msg) {newBuffer : Buffer} (hlen : newBuffer.length = NOF_LINES)
    (color : Color) :
    ∃ buf, doShowMessage fuel newBuffer msg color = .ok buf ∧ buf.length = NOF_LINES ∧
      RowsShow buf (msg, color) := by
  rcases Nat.lt_or_ge MAX_LINE_LEN msg.length with hlong | hshort
  · obtain ⟨hwrap, hwords⟩ := hfits.resolve_left (Nat.not_le.mpr hlong)
    have hreturns := hwrap.returns
    have hseven := (sevenLines_iff hreturns).mp (sevenLines_of_words hreturns hwords)
    have hturns : 2 * (split msg (str " ")).length < fuel := by
      rw [NOF_LINES] at hwords
      rw [enoughTurns] at hfuel
      omega
    obtain ⟨buf, hplace, hshows⟩ := shows_of_place hlen color hseven
    refine ⟨buf, ?_, length_of_shows hlen hshows,
      rowsShow_of_shows ((lines_of_long hlong).mpr hreturns) hshows⟩
    rw [doShowMessage_of_returns hlong (hwrap.wrap_eq hturns hreturns), hplace]
  · obtain ⟨buf, hok, hshows⟩ := shows_of_short hshort hlen color
    have hlines : Lines msg [msg] := by
      rw [Lines, if_neg (Nat.not_lt.mpr hshort)]
    refine ⟨buf, ?_, length_of_shows hlen hshows, rowsShow_of_shows hlines hshows⟩
    rw [doShowMessage, if_neg (Nat.not_lt.mpr hshort)] at hok
    rw [doShowMessage, if_neg (Nat.not_lt.mpr hshort), hok]

/-! ### The thread is a board with notices -/

/-- What the item is to the board. -/
def Item.post : Item → Notice.Post Row
  | .setStatus s color => .status (s, color)
  | .showMessage s color dur => .notice (s, color) dur
  | .clear => .idle
  | .showInfo _ _ _ _ => .idle

def boardTurn (job : Option Item × Moment) : Notice.Turn Row where
  post := (job.1.map Item.post).getD .idle
  posted := job.2.takenTime
  checked := job.2.checkTime

def emptyBoard : Notice.Board Row := ⟨([], .white), ([], .white), none⟩

/-- The board that the thread is. -/
structure ShowsBoard (t : Thread) (b : Notice.Board Row) : Prop where
  rows : RowsShow t.curBuffer b.shown
  lengths : t.curBuffer.length = NOF_LINES ∧ t.newBuffer.length = NOF_LINES
  status : b.status = (t.lastStatus, t.lastStatusColor)
  fits : FitsRows t.lastStatus
  clearAt : b.until? = if t.clearAt = noTime then none else some t.clearAt

/-- What the controller puts into the queue: texts that keep to the rows, and
    messages that are shown for some time. -/
inductive Item.Plain : Item → Prop
  | setStatus {s : Bytes} (color : Color) (hfits : FitsRows s) : Plain (.setStatus s color)
  | showMessage {s : Bytes} (color : Color) {dur : Int} (hfits : FitsRows s) (hdur : 0 < dur) :
    Plain (.showMessage s color dur)

section Turn

variable {fuel : Nat} (hfuel : enoughTurns ≤ fuel)

include hfuel in
theorem Thread.doShowMessage_of_fits {t : Thread} {b : Notice.Board Row} (h : ShowsBoard t b)
    {msg : Bytes} (hfits : FitsRows msg) (color : Color) :
    ∃ t', t.doShowMessage fuel msg color = .ok t' ∧ ShowsBoard t' { b with shown := (msg, color) } ∧
      t'.lastStatus = t.lastStatus ∧ t'.lastStatusColor = t.lastStatusColor ∧
      t'.clearAt = t.clearAt := by
  obtain ⟨buf, hok, hlen, hrows⟩ := Display.doShowMessage_of_fits hfuel hfits h.lengths.2 color
  refine ⟨{ t with newBuffer := buf, curBuffer := buf, sent := t.sent ++ (sync t.curBuffer buf).2 },
    ?_, ⟨hrows, ⟨hlen, hlen⟩, h.status, h.fits, h.clearAt⟩, rfl, rfl, rfl⟩
  have hsync : (sync t.curBuffer buf).1 = buf := sync_fst (h.lengths.1.trans hlen.symm)
  rw [Thread.doShowMessage, hok]
  change Except.ok _ = Except.ok _
  rw [hsync]

include hfuel in
theorem Thread.take_of_plain {t : Thread} {b : Notice.Board Row} (h : ShowsBoard t b) {m : Moment}
    (hclock : 0 ≤ m.takenTime) {item : Option Item} (hplain : ∀ i ∈ item, i.Plain) :
    ∃ t', t.take fuel m item = .ok t' ∧
      ShowsBoard t' (b.put m.takenTime ((item.map Item.post).getD .idle)) := by
  cases item with
  | none => exact ⟨t, rfl, h⟩
  | some item =>
    cases hplain item rfl with
    | @setStatus s color hfits =>
      rw [Thread.take, Thread.handle, Option.map_some, Option.getD_some, Item.post,
        Notice.Board.put, h.status]
      by_cases hsame : (s, color) = (t.lastStatus, t.lastStatusColor)
      · obtain ⟨hs, hcolor⟩ := Prod.mk.inj hsame
        rw [if_neg (by rw [hs, hcolor]; exact fun hne => hne.elim (· rfl) (· rfl)), if_pos hsame]
        exact ⟨t, rfl, h⟩
      · have hnew : s ≠ t.lastStatus ∨ color ≠ t.lastStatusColor := by
          by_contra hboth
          rw [not_or, not_not, not_not] at hboth
          exact hsame (by rw [hboth.1, hboth.2])
        obtain ⟨t', hok, hshows, -, -, hclear⟩ :=
          Thread.doShowMessage_of_fits hfuel h hfits color
        rw [if_pos hnew, if_neg hsame, hok]
        exact ⟨_, rfl, hshows.rows, hshows.lengths, rfl, hfits, hshows.clearAt⟩
    | @showMessage s color dur hfits hdur =>
      obtain ⟨t', hok, hshows, -, -, -⟩ := Thread.doShowMessage_of_fits hfuel h hfits color
      have htime : m.takenTime + dur ≠ noTime := by
        rw [noTime]
        omega
      rw [Thread.take, Thread.handle, hok]
      refine ⟨_, rfl, hshows.rows, hshows.lengths, hshows.status, hshows.fits, ?_⟩
      exact (if_neg htime).symm

include hfuel in
theorem Thread.endMessage_of_shows {t : Thread} {b : Notice.Board Row} (h : ShowsBoard t b)
    (m : Moment) :
    ∃ t', t.endMessage fuel m = .ok t' ∧ ShowsBoard t' (b.takeDown m.checkTime) := by
  have hover : b.over m.checkTime = true ↔ t.clearAt ≠ noTime ∧ m.checkTime ≥ t.clearAt := by
    rw [Notice.Board.over, h.clearAt]
    by_cases hnone : t.clearAt = noTime
    · simp [hnone]
    · simp [hnone]
  rw [Thread.endMessage, Notice.Board.takeDown]
  by_cases hend : t.clearAt ≠ noTime ∧ m.checkTime ≥ t.clearAt
  · have hbefore : ShowsBoard { t with clearAt := noTime } { b with until? := none } :=
      ⟨h.rows, h.lengths, h.status, h.fits, (if_pos rfl).symm⟩
    obtain ⟨t', hok, hshows, -, -, -⟩ :=
      Thread.doShowMessage_of_fits hfuel hbefore h.fits t.lastStatusColor
    rw [if_pos hend, if_pos (hover.mpr hend)]
    refine ⟨t', hok, ?_⟩
    rw [h.status]
    rw [h.status] at hshows
    exact hshows
  · rw [if_neg hend, if_neg fun hb => hend (hover.mp hb)]
    exact ⟨t, rfl, h⟩

theorem Thread.showClock_of_shows {t : Thread} {b : Notice.Board Row} (h : ShowsBoard t b)
    (m : Moment) : ShowsBoard (t.showClock m) b := by
  rw [Thread.showClock]
  split
  · exact ⟨h.rows, h.lengths, h.status, h.fits, h.clearAt⟩
  · exact h

include hfuel in
/-- **One turn of the thread** is one of the board, and there is no fault. -/
theorem Thread.turn_shows {t : Thread} {b : Notice.Board Row} (h : ShowsBoard t b)
    {item : Option Item} {m : Moment} (hclock : 0 ≤ m.takenTime) (hplain : ∀ i ∈ item, i.Plain) :
    ∃ t', t.turn fuel item m = .ok t' ∧ ShowsBoard t' (Notice.step b (boardTurn (item, m))) := by
  obtain ⟨t₁, htake, hshows₁⟩ := Thread.take_of_plain hfuel h hclock hplain
  obtain ⟨t₂, hend, hshows₂⟩ := Thread.endMessage_of_shows hfuel hshows₁ m
  refine ⟨t₂.showClock m, ?_, Thread.showClock_of_shows hshows₂ m⟩
  rw [Thread.turn, htake]
  change (t₁.endMessage fuel m >>= fun t => .ok (t.showClock m)) = _
  rw [hend]
  rfl

end Turn

/-! ### A pin that cannot be reached -/

/-- What goes wrong with the file of a GPIO pin: `Buttons::read_pin` opens and reads
    it, and `Lock::set_pin` opens and writes it. -/
inductive PinFault where
  | opening
  | reading
  | writing

def PinFault.name : PinFault → Bytes
  | opening => str "Unable to open"
  | reading => str "Error reading from"
  | writing => str "Error writing to"

/-- The text for `fatal_error`. -/
def PinFault.text (fault : PinFault) (pin errno : Nat) : Bytes :=
  fault.name ++ str " " ++ (str "/sys/class/gpio/gpio" ++ decimal pin ++ str "/value:") ++ str " " ++
    decimal errno

/-- What `fatal_error` puts into the queue first. -/
def fatalStatus (fault : PinFault) (pin errno : Nat) : Item :=
  setStatus (fault.text pin errno) .red

theorem length_fatalText {fault : PinFault} {pin errno : Nat} (hpin : pin < 100)
    (herrno : errno < 2 ^ 31) : (fault.text pin errno).length ≤ MAX_SIZE := by
  have hname : fault.name.length ≤ 18 := by cases fault <;> decide
  have hdecimal := length_decimal_le (n := pin) (k := 2) (by decide) (by omega)
  have hdecimal' := length_decimal_le (n := errno) (k := 10) (by decide) (by omega)
  have hblank : (str " ").length = 1 := rfl
  have hdir : (str "/sys/class/gpio/gpio").length = 20 := rfl
  have hvalue : (str "/value:").length = 7 := rfl
  rw [PinFault.text]
  simp only [List.length_append, hblank, hdir, hvalue, MAX_SIZE]
  omega

theorem zero_notMem_fatalText (fault : PinFault) (pin errno : Nat) :
    0 ∉ fault.text pin errno := by
  have hname : 0 ∉ fault.name := by cases fault <;> decide
  rw [PinFault.text]
  simp only [List.mem_append, not_or]
  exact ⟨⟨⟨⟨hname, by decide⟩, ⟨by decide, notMem_decimal (by decide) _⟩, by decide⟩, by decide⟩,
    notMem_decimal (by decide) _⟩

/-- The name of the file is one word, and too long for a row. -/
theorem exists_long_word (fault : PinFault) (pin errno : Nat) :
    ∃ w ∈ split (fault.text pin errno) (str " "), MAX_LINE_LEN ≤ 1 + w.length := by
  have hname : ∃ a b c : Bytes, fault.name = a ++ [32] ++ b ++ [32] ++ c ∧
      32 ∉ a ∧ 32 ∉ b ∧ 32 ∉ c := by
    cases fault with
    | opening => exact ⟨str "Unable", str "to", str "open", by decide⟩
    | reading => exact ⟨str "Error", str "reading", str "from", by decide⟩
    | writing => exact ⟨str "Error", str "writing", str "to", by decide⟩
  obtain ⟨a, b, c, hname, ha, hb, hc⟩ := hname
  let file := str "/sys/class/gpio/gpio" ++ decimal pin ++ str "/value:"
  have hfile : 32 ∉ file := by
    simp only [file, List.mem_append, not_or]
    exact ⟨⟨by decide, notMem_decimal (by decide) _⟩, by decide⟩
  have htext : fault.text pin errno = [32].intercalate [a, b, c, file, decimal errno] := by
    have hblank : str " " = [32] := rfl
    simp only [PinFault.text, hname, hblank, List.intercalate_cons_cons,
      List.intercalate_singleton, List.append_assoc, file]
  have hne : fault.text pin errno ≠ [] := by
    rw [PinFault.text, hname]
    simp
  have hwords : ∀ w ∈ [a, b, c, file, decimal errno], (32 : UInt8) ∉ w := by
    simp only [List.forall_mem_cons, List.not_mem_nil, false_imp_iff, implies_true, and_true]
    exact ⟨ha, hb, hc, hfile, notMem_decimal (by decide) _⟩
  refine ⟨file, ?_, ?_⟩
  · rw [split_of_ne_nil hne, htext, List.splitOn_intercalate 32 hwords (List.cons_ne_nil _ _)]
    simp
  · have hdir : (str "/sys/class/gpio/gpio").length = 20 := rfl
    rw [List.length_append, List.length_append, hdir, MAX_LINE_LEN]
    omega

/-- Such a text never leaves `wrap`, and does not fit. -/
theorem doShowMessage_fatalText (fuel : Nat) (newBuffer : Buffer) (fault : PinFault)
    (pin errno : Nat) (color : Color) :
    doShowMessage fuel newBuffer (fault.text pin errno) color = .error .looping := by
  obtain ⟨w, hw, hlong⟩ := exists_long_word fault pin errno
  have hlength : (fault.text pin errno).length > MAX_LINE_LEN := by
    have hdir : (str "/sys/class/gpio/gpio").length = 20 := rfl
    have hvalue : (str "/value:").length = 7 := rfl
    rw [PinFault.text]
    simp only [List.length_append, hdir, hvalue, MAX_LINE_LEN]
    omega
  rw [doShowMessage, if_pos hlength, wrap_looping hw hlong fuel]

theorem not_fitsRows_fatalText (fault : PinFault) (pin errno : Nat) :
    ¬ FitsRows (fault.text pin errno) := by
  obtain ⟨w, hw, hlong⟩ := exists_long_word fault pin errno
  rintro (hshort | ⟨hwrap, -⟩)
  · have hdir : (str "/sys/class/gpio/gpio").length = 20 := rfl
    have hvalue : (str "/value:").length = 7 := rfl
    rw [PinFault.text] at hshort
    simp only [List.length_append, hdir, hvalue, MAX_LINE_LEN] at hshort
    omega
  · exact absurd (hwrap.2 w hw) (Nat.not_lt.mpr hlong)

theorem Thread.turn_fatalStatus {fuel : Nat} {t : Thread} (hfits : FitsRows t.lastStatus)
    {fault : PinFault} {pin errno : Nat} (hpin : pin < 100) (herrno : errno < 2 ^ 31) (m : Moment) :
    t.turn fuel (some (fatalStatus fault pin errno)) m = .error .looping := by
  have hwhole : strncpy MAX_SIZE (fault.text pin errno) = fault.text pin errno := by
    rw [strncpy, List.take_of_length_le (length_fatalText hpin herrno), List.takeWhile_eq_self_iff]
    intro b hb
    have hne : b ≠ 0 := fun h0 => zero_notMem_fatalText fault pin errno (h0 ▸ hb)
    exact decide_eq_true hne
  have hnew : fault.text pin errno ≠ t.lastStatus := by
    intro heq
    rw [← heq] at hfits
    exact not_fitsRows_fatalText fault pin errno hfits
  rw [Thread.turn, Thread.take, fatalStatus, setStatus, hwhole, Thread.handle, if_pos (.inl hnew),
    Thread.doShowMessage, doShowMessage_fatalText]
  rfl

/-- **The text catches the thread** once what is before it in the queue is taken. -/
theorem looping_of_fatalStatus {fuel : Nat} (hfuel : enoughTurns ≤ fuel) {fault : PinFault}
    {pin errno : Nat} (hpin : pin < 100) (herrno : errno < 2 ^ 31)
    {turns : List (Worker.Turn Item Moment)} (hclock : ∀ m ∈ Worker.works turns, 0 ≤ m.takenTime)
    {before after : List Item} (hbefore : ∀ item ∈ before, item.Plain)
    (hworks : before.length < (Worker.works turns).length) {t : Thread} {b : Notice.Board Row}
    (h : ShowsBoard t b) :
    (exec (Worker.step (Thread.act fuel)) ⟨before ++ fatalStatus fault pin errno :: after, .ok t⟩
      turns).state = .error .looping := by
  induction turns generalizing before after t b with
  | nil => exact absurd hworks (Nat.not_lt_zero _)
  | cons turn turns ih =>
    cases turn with
    | put item =>
      have hput : Worker.step (Thread.act fuel)
          ⟨before ++ fatalStatus fault pin errno :: after, .ok t⟩ (.put item) =
            ⟨before ++ fatalStatus fault pin errno :: (after ++ [item]), .ok t⟩ := by
        rw [Worker.step, List.append_assoc, List.cons_append]
      rw [exec_cons, hput]
      exact ih hclock hbefore hworks h
    | work m =>
      rw [exec_cons]
      cases before with
      | nil =>
        have hcaught : Thread.act fuel (.ok t) (some (fatalStatus fault pin errno)) m =
            .error .looping := Thread.turn_fatalStatus h.fits hpin herrno m
        refine Worker.state_invariant _ ⟨after, Thread.act fuel (.ok t) _ m⟩ turns
          (fun s => s = Except.error Fault.looping) ?_ hcaught
        rintro s item m rfl
        rfl
      | cons item before =>
        obtain ⟨hitem, hbefore⟩ := List.forall_mem_cons.mp hbefore
        have hm : 0 ≤ m.takenTime := hclock m List.mem_cons_self
        have hplain : ∀ i ∈ some item, i.Plain := by
          rintro i ⟨⟩
          exact hitem
        obtain ⟨t', hok, hshows⟩ := Thread.turn_shows hfuel h hm hplain
        have hwork : Worker.step (Thread.act fuel)
            ⟨item :: before ++ fatalStatus fault pin errno :: after, .ok t⟩ (.work m) =
              ⟨before ++ fatalStatus fault pin errno :: after, .ok t'⟩ :=
          congrArg (Worker.mk _) hok
        rw [hwork]
        exact ih (fun m' hm' => hclock m' (List.mem_cons_of_mem m hm')) hbefore
          (Nat.lt_of_succ_lt_succ hworks) hshows

end Display

/-! ### What the controller puts into the queue -/

def Colour.color : Colour → Display.Color
  | .red => .red
  | .green => .green
  | .orange => .orange

namespace Controller

/-- A message is shown for this time if no other is given. -/
def messageDuration : Int := seconds 5

def Call.displayItem : Call → Option Display.Item
  | .setStatus status colour => some (Display.setStatus status colour.color)
  | .showMessage message colour =>
    some (Display.showMessage message colour.color messageDuration)
  | _ => none

/-- What the iteration has put into the queue so far. -/
def items (c : Controller) : List Display.Item := c.calls.filterMap Call.displayItem

theorem items_show (c : Controller) {call : Call} {item : Display.Item}
    (h : call.displayItem = some item) : (c.emit call).items = c.items ++ [item] := by
  rw [items, emit, List.filterMap_append, List.filterMap_cons_some h]
  rfl

/-- A call that is not for the display. -/
theorem items_keep (c : Controller) {call : Call} (h : call.displayItem = none) :
    (c.emit call).items = c.items := by
  rw [items, emit, List.filterMap_append, List.filterMap_cons_none h]
  exact List.append_nil _

/-- The time that is left, as `handle_timed_unlock` shows it. -/
def timeLeftText (timeLeft : Int) : Bytes :=
  let secsLeft := timeLeft.tdiv (seconds 1)
  let minsLeft := -((-secsLeft) / 60)
  str "Open for " ++ if minsLeft > 1 then decimal minsLeft ++ str " minutes"
    else decimal secsLeft ++ str " seconds"

def timeLeftStatus (timeLeft : Int) : Bytes × Colour :=
  if timeLeft ≤ unlockWarn then (timeLeftText timeLeft, .orange) else (str "Open", .green)

/-- The status that a handler sets. -/
def handledStatus (v : View) (i : Input) : Option (Bytes × Colour) :=
  match v.state with
  | .initial => none
  | .locked => some (str "Locked", .orange)
  | .open => some (str "Open", .green)
  | .timedUnlock =>
    if v.unlockEnds i || v.keys.white || v.timeout = invalidTimePoint then none
    else some (timeLeftStatus (v.timeout - i.displayTime))

/-- White is refused. -/
def refusesWhite (v : View) (i : Input) : Bool :=
  v.keys.white && !i.thursday &&
    (v.state = .locked || (v.state = .timedUnlock && !v.unlockEnds i))

def statusItem (status : Bytes × Colour) : Display.Item :=
  Display.setStatus status.1 status.2.color

def refusal : Display.Item :=
  Display.showMessage (str "It is not Thursday yet") .red messageDuration

def handledItems (v : View) (i : Input) : List Display.Item :=
  (handledStatus v i).toList.map statusItem ++ if refusesWhite v i then [refusal] else []

theorem items_checkThursday (c : Controller) (i : Input) :
    (c.checkThursday i).items = c.items ++ if i.thursday then [] else [refusal] := by
  rw [checkThursday]
  cases i.thursday with
  | false => exact items_show c rfl
  | true => exact (items_keep { c with state := .open } rfl).trans (List.append_nil _).symm

theorem items_checkCard (c : Controller) (i : Input) (changeState : Bool) :
    (c.checkCard i changeState).items = c.items := by
  rw [checkCard]
  refine (items_keep _ rfl).trans ?_
  cases i.access.access with
  | allowed =>
    cases changeState with
    | false => exact items_keep c rfl
    | true => exact (items_keep _ rfl).trans (items_keep c rfl)
  | forbidden => exact (items_keep _ rfl).trans (items_keep c rfl)
  | unknown => exact (items_keep _ rfl).trans (items_keep c rfl)
  | error => exact items_keep c rfl

theorem items_leavePressed (c : Controller) : c.leavePressed.items = c.items := items_keep _ rfl

theorem items_showTimeLeft (c : Controller) (i : Input) :
    (c.showTimeLeft i).items =
      c.items ++ [statusItem (timeLeftStatus (c.timeout - i.displayTime))] := by
  rw [showTimeLeft, timeLeftStatus]
  dsimp only
  split
  · cases c.simulate with
    | true => exact items_show c rfl
    | false => exact (items_show _ rfl).trans (congrArg (· ++ _) (items_keep c rfl))
  · exact items_show c rfl

theorem items_handleLocked (c : Controller) (i : Input) :
    (c.handleLocked i).items =
      c.items ++ statusItem (str "Locked", .orange) ::
        if c.keys.white && !i.thursday then [refusal] else [] := by
  have hstatus : ((((c.ensureLockState .locked).emit (.setPattern .ready)).emit
      (.setStatus (str "Locked") .orange)).emit
        (.slackSetStatus (str ":lock: Door is locked"))).items =
      c.items ++ [statusItem (str "Locked", .orange)] := by
    rw [items_keep _ rfl, items_show _ rfl, items_keep _ rfl]
    rfl
  have htests : ∀ d : Controller,
      (if d.keys.white then d.checkThursday i
        else if d.keys.green then
          { d.emit (.log (str "Green pressed")) with
            timeoutDur := unlockPeriod, state := .timedUnlock }
        else if d.cardId ≠ [] then d.checkCard i true
        else if d.keys.leave then d.leavePressed
        else d).items = d.items ++ if d.keys.white && !i.thursday then [refusal] else [] := by
    intro d
    cases d.keys.white with
    | true =>
      rw [if_pos rfl, items_checkThursday, Bool.true_and]
      cases i.thursday <;> rfl
    | false =>
      rw [if_neg Bool.false_ne_true, Bool.false_and, if_neg Bool.false_ne_true, List.append_nil]
      split
      · exact items_keep d rfl
      split
      · exact items_checkCard d i true
      split
      · exact items_leavePressed d
      · rfl
  rw [handleLocked]
  refine (htests _).trans ?_
  rw [hstatus, List.append_assoc]
  rfl

theorem items_handleOpen (c : Controller) (i : Input) :
    (c.handleOpen i).items = c.items ++ [statusItem (str "Open", .green)] := by
  have hend : ∀ d : Controller, (d.endOpenPeriod i).items = d.items := by
    intro d
    rw [endOpenPeriod]
    split
    · exact (items_keep _ rfl).trans (items_keep d rfl)
    split
    · exact items_keep d rfl
    · rfl
  have hstatus : (((c.ensureLockState .open).emit (.setStatus (str "Open") .green)).endOpenPeriod
      i).items = c.items ++ [statusItem (str "Open", .green)] :=
    (hend _).trans (items_show (c.ensureLockState .open) rfl)
  rw [handleOpen]
  split
  · exact (items_checkCard _ i false).trans hstatus
  · exact hstatus

theorem items_checkUnlock (c : Controller) (i : Input) :
    (c.checkUnlock i).items =
      c.items ++
        if c.unlockEnds i then []
        else if c.keys.white then if i.thursday then [] else [refusal]
        else if c.timeout ≠ invalidTimePoint then
          [statusItem (timeLeftStatus (c.timeout - i.displayTime))]
        else [] := by
  rw [checkUnlock]
  split
  · exact (List.append_nil _).symm
  split
  · exact items_checkThursday c i
  split
  · exact items_showTimeLeft c i
  · exact (List.append_nil _).symm

theorem items_handleTimedUnlock (c : Controller) (i : Input) :
    (c.handleTimedUnlock i).items = ((c.ensureLockState .open).checkUnlock i).items := by
  have hlock : ∀ d : Controller, d.lockWithoutTimeout.items = d.items := by
    intro d
    rw [lockWithoutTimeout]
    split <;> rfl
  rw [handleTimedUnlock]
  split
  · exact (items_leavePressed _).trans (hlock _)
  · exact hlock _

theorem items_handle (c : Controller) (i : Input) :
    (c.handle i).items = c.items ++ handledItems c.view i := by
  have hstate : c.view.state = c.state := rfl
  have hkeys : c.view.keys = c.keys := rfl
  have htimeout : c.view.timeout = c.timeout := rfl
  rw [handle, handledItems, handledStatus, refusesWhite, hstate, hkeys, htimeout]
  cases c.state with
  | initial =>
    refine (items_keep c rfl).trans ?_
    simp
  | locked =>
    refine (items_handleLocked c i).trans ?_
    simp
  | «open» =>
    refine (items_handleOpen c i).trans ?_
    simp
  | timedUnlock =>
    have hends : c.view.unlockEnds i = c.unlockEnds i := rfl
    refine (items_handleTimedUnlock c i).trans ((items_checkUnlock _ i).trans ?_)
    change c.items ++ (if c.unlockEnds i then [] else if c.keys.white then _ else
      if c.timeout ≠ invalidTimePoint then _ else []) = _
    rw [hends]
    cases c.unlockEnds i <;> cases c.keys.white <;> cases i.thursday <;>
      by_cases hnone : c.timeout = invalidTimePoint <;> simp [hnone]
    all_goals rfl

theorem items_startAction (c : Controller) (action : Bytes) :
    (c.startAction action).items = c.items := by
  rw [startAction]
  split
  · split
    · exact (items_keep _ rfl).trans (items_keep _ rfl)
    · exact (items_keep _ rfl).trans (items_keep _ rfl)
  split
  · exact (items_keep _ rfl).trans (items_keep _ rfl)
  · exact (items_keep _ rfl).trans ((items_keep _ rfl).trans (items_keep _ rfl))

theorem items_atHandler (c : Controller) (i : Input) : (c.atHandler i).items = [] := by
  have hread : (c.readInputs i).items = [] := by
    rw [readInputs]
    dsimp only
    split
    · exact items_keep _ rfl
    · rfl
  have hnote : (c.readInputs i).noteChange.items = [] := by
    rw [noteChange]
    split
    · exact (items_keep _ rfl).trans hread
    · exact hread
  have hcheck : ∀ d : Controller, d.checkAction.items = d.items := by
    intro d
    rw [checkAction]
    split
    · rfl
    · exact items_startAction d _
  rw [atHandler, gatewayUpdate]
  dsimp only
  split
  · exact (hcheck _).trans hnote
  · exact hnote

/-- **What an iteration shows** follows from what its handler finds. -/
theorem items_iterate (c : Controller) (i : Input) :
    (c.iterate i).items = handledItems (c.foundView i) i := by
  have hstate : ∀ (d : Controller) (old : State), (d.logState old).items = d.items := by
    intro d old
    rw [logState]
    split
    · exact items_keep d rfl
    · rfl
  have hkeys : ∀ d : Controller, d.logKeys.items = d.items := by
    intro d
    rw [logKeys]
    split
    · exact items_keep d rfl
    · rfl
  have htimeout : ∀ d : Controller, (d.setTimeout i).items = d.items := by
    intro d
    rw [setTimeout]
    split
    · exact items_keep d rfl
    · rfl
  have hbefore : ((c.readInputs i).gatewayUpdate i).items = [] := items_atHandler c i
  have hfound : ((c.readInputs i).gatewayUpdate i).view = c.foundView i := view_atHandler c i
  rw [iterate, htimeout, hkeys, hstate, items_handle, hbefore, hfound, List.nil_append]

/-! ### Its texts keep to the rows -/

theorem fitsRows_words {words : List Bytes} (hne : words ≠ []) (hlen : words.length ≤ 7)
    (hwords : ∀ w ∈ words, 32 ∉ w ∧ w.length < 19) :
    Display.FitsRows ([32].intercalate words) := by
  by_cases hnil : [32].intercalate words = []
  · rw [hnil]
    decide
  have hsplit : split ([32].intercalate words) (str " ") = words := by
    rw [split_of_ne_nil hnil, List.splitOn_intercalate 32 (fun w hw => (hwords w hw).1) hne]
  refine .inr ⟨⟨hnil, ?_⟩, ?_⟩
  · rw [hsplit]
    intro w hw
    have hw := (hwords w hw).2
    rw [Display.MAX_LINE_LEN]
    omega
  · rw [hsplit]
    exact hlen

/-- The text is shown as it is. -/
structure Showable (text : Bytes) : Prop where
  fits : Display.FitsRows text
  whole : 0 ∉ text ∧ text.length ≤ Display.MAX_SIZE

instance (text : Bytes) : Decidable (Showable text) :=
  decidable_of_iff (Display.FitsRows text ∧ 0 ∉ text ∧ text.length ≤ Display.MAX_SIZE)
    ⟨fun h => ⟨h.1, h.2⟩, fun h => ⟨h.fits, h.whole⟩⟩

theorem Showable.strncpy_eq {text : Bytes} (h : Showable text) :
    strncpy Display.MAX_SIZE text = text := by
  rw [strncpy, List.take_of_length_le h.whole.2, List.takeWhile_eq_self_iff]
  intro b hb
  have hne : b ≠ 0 := fun h0 => h.whole.1 (h0 ▸ hb)
  exact decide_eq_true hne

/-- The time that is left, four words of it. -/
theorem showable_timeLeftText {timeLeft : Int} (hlow : -2 ^ 63 ≤ timeLeft)
    (hhigh : timeLeft ≤ unlockWarn) : Showable (timeLeftText timeLeft) := by
  have hnumber : ∀ (n : Int) (w unit : Bytes), n.natAbs < 10 ^ 17 → str " " ++ w = unit →
      32 ∉ w → 0 ∉ w → w.length < 19 → Showable (str "Open for " ++ (decimal n ++ unit)) := by
    rintro n w unit hn rfl hw hzero hlen
    have hdecimal := length_decimal_le (by decide) hn
    have hwords := @fitsRows_words [str "Open", str "for", decimal n, w] (List.cons_ne_nil _ _)
      (by simp) (by
        intro x hx
        simp only [List.mem_cons, List.not_mem_nil, or_false] at hx
        rcases hx with rfl | rfl | rfl | rfl
        · decide
        · decide
        · exact ⟨notMem_decimal (by decide) n, by omega⟩
        · exact ⟨hw, hlen⟩)
    have htext : [32].intercalate [str "Open", str "for", decimal n, w] =
        str "Open for " ++ (decimal n ++ (str " " ++ w)) := by
      have hopen : str "Open for " = str "Open" ++ [32] ++ str "for" ++ [32] := rfl
      simp only [hopen, List.intercalate_cons_cons, List.intercalate_singleton, List.append_assoc]
      rfl
    rw [htext] at hwords
    refine ⟨hwords, ?_, ?_⟩
    · simp only [List.mem_append, not_or]
      exact ⟨by decide, notMem_decimal (by decide) n, by decide, hzero⟩
    · have hopen : (str "Open for ").length = 9 := rfl
      have hblank : (str " ").length = 1 := rfl
      rw [List.length_append, List.length_append, List.length_append, hopen, hblank,
        Display.MAX_SIZE]
      omega
  have hsecs : (timeLeft.tdiv (seconds 1)).natAbs < 10 ^ 11 := by
    rw [seconds, Int.one_mul, Int.natAbs_tdiv]
    rw [unlockWarn, seconds] at hhigh
    change timeLeft.natAbs / 1000000000 < _
    omega
  rw [timeLeftText]
  split
  · exact hnumber _ (str "minutes") _ (by omega) rfl (by decide) (by decide) (by decide)
  · exact hnumber _ (str "seconds") _ (by omega) rfl (by decide) (by decide) (by decide)

/-- With a clock of 64 bits. -/
theorem showable_handledStatus {v : View} {i : Input} (htimeout : 0 ≤ v.timeout)
    (hclock : i.displayTime < 2 ^ 63) {status : Bytes × Colour}
    (h : handledStatus v i = some status) : Showable status.1 := by
  rw [handledStatus] at h
  split at h
  · cases h
  · cases h
    decide
  · cases h
    decide
  · split at h
    · cases h
    · cases h
      rw [timeLeftStatus]
      split
      next hwarn => exact showable_timeLeftText (by omega) hwarn
      next => decide

theorem plain_handledItems {v : View} {i : Input} (htimeout : 0 ≤ v.timeout)
    (hclock : i.displayTime < 2 ^ 63) : ∀ item ∈ handledItems v i, item.Plain := by
  intro item hitem
  rw [handledItems] at hitem
  rcases List.mem_append.mp hitem with h | h
  · obtain ⟨status, hsome, rfl⟩ := List.mem_map.mp h
    have hshow := showable_handledStatus htimeout hclock (Option.mem_toList.mp hsome)
    rw [statusItem, Display.setStatus, hshow.strncpy_eq]
    exact .setStatus _ hshow.fits
  · split at h
    · rw [List.mem_singleton.mp h]
      exact .showMessage _ (by decide) (by decide)
    · exact absurd h List.not_mem_nil

/-- The statuses among the items, as they are. -/
theorem statuses_handledItems {v : View} {i : Input} (htimeout : 0 ≤ v.timeout)
    (hclock : i.displayTime < 2 ^ 63) :
    (handledItems v i).filterMap (·.post.status?) =
      (handledStatus v i).toList.map fun status => (status.1, status.2.color) := by
  have hmessage : (if refusesWhite v i then [refusal] else []).filterMap (·.post.status?) = [] := by
    split <;> rfl
  rw [handledItems, List.filterMap_append, hmessage, List.append_nil]
  cases hsome : handledStatus v i with
  | none => rfl
  | some status =>
    have hshow := showable_handledStatus htimeout hclock hsome
    rw [Option.toList_some, List.map_singleton, List.map_singleton, statusItem, Display.setStatus,
      hshow.strncpy_eq]
    rfl

/-! ### The timeout is never before the epoch -/

structure TimesKept (v : View) : Prop where
  timeout : 0 ≤ v.timeout
  timeoutDur : v.timeoutDur = invalidDuration ∨ 0 < v.timeoutDur

theorem lockedGrant_pos {v : View} {i : Input} {period : Int} (h : lockedGrant v i = some period) :
    0 < period := by
  rw [lockedGrant] at h
  split at h
  · cases h
  split at h
  · cases h
    decide
  split at h
  · split at h
    · cases h
      decide
    · cases h
  split at h
  · cases h
    decide
  · cases h

theorem timesKept_foundView {c : Controller} (i : Input) (h : TimesKept c.view) :
    TimesKept (c.foundView i) := by
  rw [foundView]
  dsimp only
  split
  · exact ⟨h.timeout, h.timeoutDur⟩
  split
  · exact ⟨h.timeout, .inr (show 0 < gwUnlockPeriod by decide)⟩
  · exact ⟨h.timeout, h.timeoutDur⟩

theorem timesKept_handledView {v : View} (i : Input) (h : TimesKept v) :
    TimesKept (handledView v i) := by
  rw [handledView]
  split
  · exact ⟨h.timeout, h.timeoutDur⟩
  · rw [lockedView]
    split
    next period hgrant => exact ⟨h.timeout, .inr (lockedGrant_pos hgrant)⟩
    next => exact ⟨h.timeout, h.timeoutDur⟩
  · exact ⟨h.timeout, h.timeoutDur⟩
  · rw [timedView]
    have htests : ∀ u : View, TimesKept u →
        TimesKept (if v.keys.leave then { u with state := .timedUnlock, timeoutDur := leaveTime }
          else u) := by
      intro u hu
      split
      · exact ⟨hu.timeout, .inr (show 0 < leaveTime by decide)⟩
      · exact hu
    apply htests
    split
    · exact ⟨Int.le_refl 0, h.timeoutDur⟩
    · exact ⟨h.timeout, h.timeoutDur⟩

theorem timesKept_iterate {c : Controller} {i : Input} (hclock : 0 ≤ i.timeoutTime)
    (h : TimesKept c.view) : TimesKept (c.iterate i).view := by
  have hhandled := timesKept_handledView i (timesKept_foundView i h)
  rw [view_iterate, timeoutView]
  split
  next hasked =>
    have hdur := hhandled.timeoutDur.resolve_left hasked
    exact ⟨Int.add_nonneg hclock (Int.le_of_lt hdur), .inl rfl⟩
  next => exact hhandled

end Controller

/-! ### The controller and its display -/

open Controller (TimesKept)

structure Panel where
  controller : Controller := {}
  display : Worker Display.Item (Except Display.Fault Display.Thread)

/-- The controller or its gateway has a turn, or the thread of the display. -/
inductive PanelTurn where
  | controller (event : Event)
  | display (m : Display.Moment)

def Event.items (c : Controller) (event : Event) : List Display.Item :=
  (event.made c).filterMap Controller.Call.displayItem

/-- The statuses that the handlers set, from what they find. -/
def Event.statuses (c : Controller) : Event → List Display.Row
  | .query _ => []
  | .iterate i =>
    (Controller.handledStatus (c.foundView i) i).toList.map fun status =>
      (status.1, status.2.color)

namespace Panel

/-- The status that `main` sets. -/
def firstStatus : Display.Row := (str "HAL9K ACS", .white)

def start (lastClock : Int) : Panel where
  display := ⟨[Display.setStatus firstStatus.1 firstStatus.2], .ok { lastClock }⟩

def turns (p : Panel) : PanelTurn → List (Worker.Turn Display.Item Display.Moment)
  | .controller event => (event.items p.controller).map .put
  | .display m => [.work m]

variable (fuel : Nat)

def step (p : Panel) (turn : PanelTurn) : Panel where
  controller := match turn with
    | .controller event => Opi.step p.controller event
    | .display _ => p.controller
  display := exec (Worker.step (Display.Thread.act fuel)) p.display (p.turns turn)

variable (lastClock : Int)

def run (turns : List PanelTurn) : Panel := exec (step fuel) (start lastClock) turns

/-- The turns of the controller and its gateway. -/
def events (turns : List PanelTurn) : List Event :=
  turns.flatMap fun
    | .controller event => [event]
    | .display _ => []

/-- The clocks show times after the epoch, of 64 bits. -/
def ClockFits : PanelTurn → Prop
  | .controller event =>
    ∀ i, event = .iterate i → 0 ≤ i.timeoutTime ∧ i.displayTime < 2 ^ 63
  | .display m => 0 ≤ m.takenTime

/-- What happens to the queue of the display. -/
def queueTurns (panelTurns : List PanelTurn) : List (Worker.Turn Display.Item Display.Moment) :=
  emitted (step fuel) turns (start lastClock) panelTurns

/-- The items that the thread takes, with the time. -/
def jobs (panelTurns : List PanelTurn) : List (Option Display.Item × Display.Moment) :=
  Worker.jobs (Display.Thread.act fuel) (start lastClock).display
    (queueTurns fuel lastClock panelTurns)

/-- The board that the display should be. -/
def board (panelTurns : List PanelTurn) : Notice.Board Display.Row :=
  exec Notice.step Display.emptyBoard ((jobs fuel lastClock panelTurns).map Display.boardTurn)

section Run

variable {fuel : Nat} {lastClock : Int} {panelTurns : List PanelTurn}

theorem display_run :
    (run fuel lastClock panelTurns).display =
      exec (Worker.step (Display.Thread.act fuel)) (start lastClock).display
        (queueTurns fuel lastClock panelTurns) :=
  exec_refinement (step fuel) (Worker.step (Display.Thread.act fuel)) turns Panel.display
    (fun _ => True) (fun _ _ => True) (fun _ _ _ _ => trivial) (fun _ _ _ _ => rfl) trivial
    (along_of_forall (P := fun _ => True) (step fuel) fun _ _ => trivial)

theorem timesKept_step {p : Panel} {turn : PanelTurn} (hclock : ClockFits turn)
    (h : TimesKept p.controller.view) : TimesKept (p.step fuel turn).controller.view := by
  cases turn with
  | display m => exact h
  | controller event =>
    cases event with
    | query reply => exact ⟨h.timeout, h.timeoutDur⟩
    | iterate i => exact Controller.timesKept_iterate (hclock i rfl).1 h

theorem timesKept_start : TimesKept (start lastClock).controller.view :=
  ⟨Int.le_refl 0, .inl rfl⟩

/-- What an event puts into the queue keeps to the rows, and is what its handler
    sets. -/
theorem items_of_event {c : Controller} {event : Event} (hclock : ClockFits (.controller event))
    (h : TimesKept c.view) :
    (∀ item ∈ event.items c, item.Plain) ∧
      (event.items c).filterMap (·.post.status?) = event.statuses c := by
  cases event with
  | query reply => exact ⟨fun item hitem => absurd hitem List.not_mem_nil, rfl⟩
  | iterate i =>
    have hitems : Event.items c (.iterate i) = Controller.handledItems (c.foundView i) i :=
      Controller.items_iterate c i
    have hfound := Controller.timesKept_foundView i h
    have hdisplay := (hclock i rfl).2
    rw [hitems]
    exact ⟨Controller.plain_handledItems hfound.timeout hdisplay,
      Controller.statuses_handledItems hfound.timeout hdisplay⟩

theorem along_timesKept (hclock : ∀ turn ∈ panelTurns, ClockFits turn) :
    Along (step fuel) (fun p turn => TimesKept p.controller.view ∧ ClockFits turn)
      (start lastClock) panelTurns := by
  rw [along_iff]
  rintro before turn after rfl
  refine ⟨?_, hclock turn (List.mem_append_right before List.mem_cons_self)⟩
  refine exec_invariant_of_forall (step fuel) ClockFits (fun p => TimesKept p.controller.view)
    (fun p turn h hturn => timesKept_step hturn h) timesKept_start ?_
  exact fun turn hturn => hclock turn (List.mem_append_left _ hturn)

theorem plain_of_put (hclock : ∀ turn ∈ panelTurns, ClockFits turn) :
    ∀ item ∈ Worker.puts (queueTurns fuel lastClock panelTurns), item.Plain := by
  rw [queueTurns, Worker.puts_emitted, forall_emitted_iff]
  refine (along_timesKept hclock).imp ?_
  rintro p turn ⟨hkept, hturn⟩ item hitem
  cases turn with
  | display m => exact absurd hitem List.not_mem_nil
  | controller event =>
    rw [turns, Worker.puts_map_put] at hitem
    exact (items_of_event hturn hkept).1 item hitem

theorem plain_of_queued (hclock : ∀ turn ∈ panelTurns, ClockFits turn) :
    ∀ item ∈ (start lastClock).display.pending ++ Worker.puts (queueTurns fuel lastClock panelTurns),
      item.Plain := by
  rw [List.forall_mem_append]
  refine ⟨?_, plain_of_put hclock⟩
  rw [start]
  exact List.forall_mem_singleton.mpr (.setStatus _ (by decide))

theorem plain_of_pending (hclock : ∀ turn ∈ panelTurns, ClockFits turn) :
    ∀ item ∈ (run fuel lastClock panelTurns).display.pending, item.Plain := by
  intro item hitem
  rw [display_run] at hitem
  apply plain_of_queued hclock
  rw [← Worker.taken_append_pending (Display.Thread.act fuel)]
  exact List.mem_append_right _ hitem

theorem plain_of_job (hclock : ∀ turn ∈ panelTurns, ClockFits turn) :
    ∀ job ∈ jobs fuel lastClock panelTurns,
      0 ≤ job.2.takenTime ∧ ∀ item ∈ job.1, item.Plain := by
  rintro ⟨item?, m⟩ hjob
  constructor
  · have hwork := Worker.work_mem_of_mem_jobs _ _ _ hjob
    have hall : ∀ t ∈ queueTurns fuel lastClock panelTurns, ∀ m, t = .work m → 0 ≤ m.takenTime := by
      rw [queueTurns, forall_emitted_iff]
      refine (along_of_forall (step fuel) hclock).imp ?_
      rintro p turn hturn t ht m rfl
      cases turn with
      | display m' =>
        cases List.mem_singleton.mp ht
        exact hturn
      | controller event =>
        obtain ⟨item, -, heq⟩ := List.mem_map.mp ht
        cases heq
    exact hall _ hwork m rfl
  · rintro item rfl
    exact plain_of_queued hclock item (Worker.mem_of_mem_jobs _ _ _ hjob)

/-- **The display is the board.** -/
theorem display_shows (hfuel : Display.enoughTurns ≤ fuel)
    (hclock : ∀ turn ∈ panelTurns, ClockFits turn) :
    ∃ t, (run fuel lastClock panelTurns).display.state = .ok t ∧
      Display.ShowsBoard t (board fuel lastClock panelTurns) := by
  rw [display_run, Worker.state_exec]
  refine exec_simulation_of_forall _ Notice.step Display.boardTurn
    (fun job => 0 ≤ job.2.takenTime ∧ ∀ item ∈ job.1, item.Plain)
    (fun s b => ∃ t, s = Except.ok t ∧ Display.ShowsBoard t b) ?_ ?_ (plain_of_job hclock)
  · rintro s b job ⟨t, rfl, hshows⟩ ⟨htaken, hplain⟩
    exact Display.Thread.turn_shows hfuel hshows htaken hplain
  · refine ⟨_, rfl, ?_, ⟨rfl, rfl⟩, rfl, (by decide : Display.FitsRows []), rfl⟩
    exact ⟨[[]], List.replicate 3 ([], .white), List.replicate 3 ([], .white), rfl, rfl, by decide⟩

theorem statuses_puts (hclock : ∀ turn ∈ panelTurns, ClockFits turn) :
    (Worker.puts (queueTurns fuel lastClock panelTurns)).filterMap (·.post.status?) =
      emitted Opi.step Event.statuses {} (events panelTurns) := by
  have hevents : emitted (step fuel)
      (fun p turn => (Worker.puts (turns p turn)).filterMap (·.post.status?)) (start lastClock)
        panelTurns =
      emitted (step fuel) (fun p => fun
        | .controller event => event.statuses p.controller
        | .display _ => []) (start lastClock) panelTurns := by
    refine emitted_congr (step fuel) ((along_timesKept hclock).imp ?_)
    rintro p turn ⟨hkept, hturn⟩
    cases turn with
    | display m => rfl
    | controller event =>
      rw [turns, Worker.puts_map_put]
      exact (items_of_event hturn hkept).2
  rw [queueTurns, Worker.puts_emitted, emitted_filterMap, hevents]
  refine emitted_simulation (step fuel) _ Opi.step Event.statuses _
    (fun p c => p.controller = c) ?_ ?_ rfl panelTurns
  · rintro p c turn rfl
    cases turn <;> rfl
  · rintro p c turn rfl
    cases turn with
    | controller event => exact (List.append_nil _).symm
    | display m => rfl

/-- The status of the board is the last one that has been taken. -/
theorem status_board :
    (board fuel lastClock panelTurns).status =
      ((Worker.taken (Display.Thread.act fuel) (start lastClock).display
        (queueTurns fuel lastClock panelTurns)).filterMap (·.post.status?)).getLastD
          ([], .white) := by
  rw [board, Notice.status_exec, List.filterMap_map, Worker.taken, List.filterMap_filterMap]
  refine congrArg (List.getLastD · _) (List.filterMap_congr fun job _ => ?_)
  obtain ⟨item?, m⟩ := job
  cases item? <;> rfl

end Run

/-- What the display of a run shows. -/
structure Shows (fuel : Nat) (lastClock : Int) (panelTurns : List PanelTurn) : Prop where
  /-- The thread is alive, and its rows are what the board shows. -/
  rows : ∃ t, (run fuel lastClock panelTurns).display.state = .ok t ∧
    Display.RowsShow t.curBuffer (board fuel lastClock panelTurns).shown
  /-- Without a message it shows the status, -/
  quiet : (board fuel lastClock panelTurns).until? = none →
    (board fuel lastClock panelTurns).shown = (board fuel lastClock panelTurns).status
  /-- and that is the last one of the controller when the queue is worked off. -/
  current : (run fuel lastClock panelTurns).display.pending = [] →
    (board fuel lastClock panelTurns).status =
      (emitted Opi.step Event.statuses {} (events panelTurns)).getLastD firstStatus
  /-- A message stays as long as its time is not over and no other status or
      message comes, -/
  up : ∀ before s color dur m after,
    jobs fuel lastClock panelTurns = before ++ (some (.showMessage s color dur), m) :: after →
    m.checkTime < m.takenTime + dur →
    (∀ job ∈ after, job.2.checkTime < m.takenTime + dur ∧
      ∀ item ∈ job.1, ∃ s' color', item = .setStatus s' color' ∧
        (s', color') = (exec Notice.step Display.emptyBoard (before.map Display.boardTurn)).status) →
    (board fuel lastClock panelTurns).shown = (s, color)
  /-- and not longer. -/
  down : ∀ before s color dur m after,
    jobs fuel lastClock panelTurns = before ++ (some (.showMessage s color dur), m) :: after →
    (∀ job ∈ after, ∀ s' color' dur', job.1 ≠ some (.showMessage s' color' dur')) →
    (∃ job ∈ (some (.showMessage s color dur), m) :: after,
      m.takenTime + dur ≤ job.2.checkTime) →
    (board fuel lastClock panelTurns).until? = none
  /-- When a pin cannot be opened, read or written, the text of `fatal_error`
      catches the thread, once it has taken what is in the queue before it. -/
  caught : ∀ fault pin errno after, pin < 100 → errno < 2 ^ 31 →
    (∀ m ∈ Worker.works after, 0 ≤ m.takenTime) →
    (run fuel lastClock panelTurns).display.pending.length < (Worker.works after).length →
    (exec (Worker.step (Display.Thread.act fuel)) (run fuel lastClock panelTurns).display
      (.put (Display.fatalStatus fault pin errno) :: after)).state = .error .looping

/-- **The display shows the status of the controller**, in every run. -/
theorem panelShows_run (fuel : Nat) (lastClock : Int) (panelTurns : List PanelTurn)
    (hfuel : Display.enoughTurns ≤ fuel) (hclock : ∀ turn ∈ panelTurns, ClockFits turn) :
    Shows fuel lastClock panelTurns := by
  constructor
  case rows =>
    obtain ⟨t, hok, hshows⟩ := display_shows hfuel hclock
    exact ⟨t, hok, hshows.rows⟩
  case quiet => exact Notice.shown_of_quiet (fun _ => rfl) _
  case current =>
    intro hworked
    have hall := Worker.taken_append_pending (Display.Thread.act fuel) (start lastClock).display
      (queueTurns fuel lastClock panelTurns)
    rw [display_run] at hworked
    rw [hworked, List.append_nil] at hall
    rw [status_board, hall, List.filterMap_append, statuses_puts hclock]
    have hfirst : (start lastClock).display.pending.filterMap (·.post.status?) = [firstStatus] :=
      rfl
    rw [hfirst, List.singleton_append, List.getLastD_cons]
  case up =>
    intro before s color dur m after hjobs hearly hafter
    rw [board, hjobs, List.map_append, exec_append, List.map_cons]
    refine @Notice.shown_exec _ _ _ (s, color) dur _ _ rfl hearly ?_
    intro turn hturn
    obtain ⟨job, hjob, rfl⟩ := List.mem_map.mp hturn
    obtain ⟨hcheck, hitem⟩ := hafter job hjob
    refine ⟨?_, hcheck⟩
    rcases hjob' : job with ⟨_ | item, m'⟩
    · exact .inl rfl
    · rw [hjob'] at hitem
      obtain ⟨s', color', rfl, hstatus⟩ := hitem item rfl
      exact .inr (congrArg Notice.Post.status hstatus)
  case down =>
    intro before s color dur m after hjobs hnone hover
    rw [board, hjobs, List.map_append, exec_append, List.map_cons]
    refine @Notice.until?_exec_notice _ _ _ (s, color) dur _ _ rfl ?_ ?_
    · intro turn hturn a duration hpost
      obtain ⟨job, hjob, rfl⟩ := List.mem_map.mp hturn
      have hnot := hnone job hjob
      obtain ⟨item?, m'⟩ := job
      cases item? with
      | none => cases hpost
      | some item =>
        cases item with
        | showMessage s' color' dur' => exact hnot s' color' dur' rfl
        | clear => cases hpost
        | setStatus s' color' => cases hpost
        | showInfo line s' color' dur' => cases hpost
    · obtain ⟨job, hjob, hlate⟩ := hover
      refine ⟨Display.boardTurn job, ?_, hlate⟩
      rw [← List.map_cons (f := Display.boardTurn)]
      exact List.mem_map_of_mem hjob
  case caught =>
    intro fault pin errno after hpin herrno htimes hworks
    obtain ⟨t, hok, hshows⟩ := display_shows hfuel hclock
    have hput : Worker.step (Display.Thread.act fuel) (run fuel lastClock panelTurns).display
        (.put (Display.fatalStatus fault pin errno)) =
          ⟨(run fuel lastClock panelTurns).display.pending ++
            Display.fatalStatus fault pin errno :: [], .ok t⟩ := by
      rw [Worker.step, hok]
    rw [exec_cons, hput]
    exact Display.looping_of_fatalStatus hfuel hpin herrno htimes (plain_of_pending hclock) hworks
      hshows

/-- Two iterations of the controller, and a turn of the thread for each status. -/
def lockedPanel : List PanelTurn :=
  [.controller (.iterate { updateTime := 1, updatedTime := 1 }),
   .controller (.iterate { updateTime := 1, updatedTime := 1 }),
   .display { checkTime := 1, clockTime := 1, clockText := str "01:00:00" },
   .display { checkTime := 1, clockTime := 1, clockText := str "01:00:00" }]

theorem clockFits_lockedPanel : ∀ turn ∈ lockedPanel, ClockFits turn := by
  intro turn hturn
  simp only [lockedPanel, List.mem_cons, List.not_mem_nil, or_false] at hturn
  rcases hturn with rfl | rfl | rfl | rfl
  · rintro i ⟨⟩
    decide
  · rintro i ⟨⟩
    decide
  · exact Int.le_refl 0
  · exact Int.le_refl 0

theorem panelShows_run_sample :
    ∃ t, (run 15 0 lockedPanel).display.state = .ok t ∧
      Display.RowsShow t.curBuffer (str "Locked", .orange) := by
  have hshows := panelShows_run 15 0 lockedPanel (by decide) clockFits_lockedPanel
  have hquiet : (board 15 0 lockedPanel).until? = none := by decide +kernel
  have hworked : (run 15 0 lockedPanel).display.pending = [] := by decide +kernel
  have hlast : (emitted Opi.step Event.statuses {} (events lockedPanel)).getLastD firstStatus =
      (str "Locked", .orange) := by decide +kernel
  have hrows := hshows.rows
  rw [hshows.quiet hquiet, hshows.current hworked, hlast] at hrows
  exact hrows

end Panel

end Acs.Opi
