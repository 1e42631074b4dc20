/-
  Acs/Opi/Display.lean
  ====================
  **`Display`: the rows of a message on the Orange Pi's display**
  (`opi/display.cpp`).

  `do_show_message` wraps a text of more than 20 characters and writes its lines
  into a buffer of seven rows, around row 3; `sync` sends the rows that have
  changed.  How many lines there are depends on the longest of the words, not on
  the room that there is: with eight or more the first row has a negative number
  (`rowsKept_iff`).
-/
import Acs.Lib.CInt
import Acs.Opi.Wrap
import Mathlib.Algebra.BigOperators.Group.List.Basic

namespace Acs.Opi

open Acs Grouping

namespace Display

inductive Color where
  | red
  | green
  | blue
  | white
  | gray
  | yellow
  | cyan
  | purple
  | orange
deriving DecidableEq

/-- `static_cast<int>`. -/
def Color.toInt : Color → Int
  | red => 0
  | green => 1
  | blue => 2
  | white => 3
  | gray => 4
  | yellow => 5
  | cyan => 6
  | purple => 7
  | orange => 8

abbrev Row := Bytes × Color
abbrev Buffer := List Row

/-- `NOF_LINES`, `MAX_LINE_LEN` and `Item::MAX_SIZE`. -/
def NOF_LINES : Nat := 7
def MAX_LINE_LEN : Nat := 20
def MAX_SIZE : Nat := 80

/-! ### `do_show_message` -/

inductive Fault where
  | looping
  | dividesByZero
  | outOfBounds (row : Int)
deriving DecidableEq

/-- `new_buffer[row] = r`. -/
def put (buf : Buffer) (row : Int) (r : Row) : Except Fault Buffer :=
  if 0 ≤ row ∧ row < buf.length then .ok (buf.set row.toNat r) else .error (.outOfBounds row)

/-- `int line = center_line - lines.size()/2`: the difference is a `size_t`. -/
def startRow (nofLines : Nat) : Int := CInt.wrap (((3 : Int) - (nofLines / 2 : Nat)) % 2 ^ 64)

/-- The loop over the lines. -/
def place (line : Int) (color : Color) : Nat → List Bytes → Buffer → Except Fault Buffer
  | _, [], buf => .ok buf
  | index, text :: lines, buf => do
    let buf ← put buf (line + index) (text, color)
    place line color (index + 1) lines buf

def cleared (buf : Buffer) : Buffer := buf.map fun row => ([], row.2)

/-- `do_show_message` up to `sync()`. -/
def doShowMessage (fuel : Nat) (newBuffer : Buffer) (msg : Bytes) (color : Color) :
    Except Fault Buffer :=
  if msg.length > MAX_LINE_LEN then
    match wrap fuel msg MAX_LINE_LEN with
    | .looping => .error .looping
    | .dividesByZero => .error .dividesByZero
    | .lines lines => place (startRow lines.length) color 0 lines (cleared newBuffer)
  else put (cleared newBuffer) ((NOF_LINES / 2 : Nat) : Int) (msg, color)

/-! ### `sync` -/

/-- The command for one row; a second line feed is sent with it. -/
def rowCommand (i : Nat) (row : Row) : Bytes :=
  str "TE," ++ decimal i ++ str "," ++ decimal row.2.toInt ++ str "," ++ row.1 ++ str "\n" ++ str "\n"

/-- `sync` from row `i` on: the rows that are then on the display, and what has
    been sent. -/
def syncFrom : Nat → Buffer → Buffer → Buffer × List Bytes
  | i, cur :: curs, new :: news =>
      let rest := syncFrom (i + 1) curs news
      if cur = new then (cur :: rest.1, rest.2) else (new :: rest.1, rowCommand i new :: rest.2)
  | _, curs, _ => (curs, [])

def sync (curBuffer newBuffer : Buffer) : Buffer × List Bytes := syncFrom 0 curBuffer newBuffer

/-- The display shows the new rows. -/
theorem sync_fst {curBuffer newBuffer : Buffer} (hlen : curBuffer.length = newBuffer.length) :
    (sync curBuffer newBuffer).1 = newBuffer := by
  have hfrom : ∀ (i : Nat) (curs news : Buffer), curs.length = news.length →
      (syncFrom i curs news).1 = news := by
    intro i curs
    induction curs generalizing i with
    | nil =>
      intro news h
      rw [List.length_eq_zero_iff.mp h.symm]
      rfl
    | cons cur curs ih =>
      intro news h
      cases news with
      | nil => cases h
      | cons new news =>
        have hrest := ih (i + 1) news (Nat.succ.inj h)
        rw [syncFrom]
        by_cases heq : cur = new
        · rw [if_pos heq, hrest, heq]
        · rw [if_neg heq, hrest]
  exact hfrom 0 curBuffer newBuffer hlen

/-! ### The rows of a message -/

/-- The lines stand in rows of their own, in order, and nothing in the others. -/
def Shows (newBuffer buf : Buffer) (lines : List Bytes) (color : Color) : Prop :=
  ∃ first, first + lines.length ≤ NOF_LINES ∧
    buf = (cleared newBuffer).take first ++ lines.map (·, color) ++
      (cleared newBuffer).drop (first + lines.length)

/-- The lines of a message: a short one is not wrapped. -/
def Lines (msg : Bytes) (lines : List Bytes) : Prop :=
  if msg.length > MAX_LINE_LEN then Returns msg MAX_LINE_LEN lines else lines = [msg]

/-- A message is written to rows of the buffer only, each line to a row of its
    own, in order. -/
def RowsKept (msg : Bytes) : Prop :=
  ∀ newBuffer color, newBuffer.length = NOF_LINES →
    ∃ fuel buf lines, doShowMessage fuel newBuffer msg color = .ok buf ∧ Lines msg lines ∧
      Shows newBuffer buf lines color

/-- Never more lines than characters. -/
theorem length_le_of_flatten {lines : List Bytes} {s : Bytes} (hne : ∀ line ∈ lines, line ≠ [])
    (hflat : lines.flatten = s) : lines.length ≤ s.length := by
  rw [← hflat, List.length_flatten, ← List.length_map List.length]
  apply List.length_le_sum_of_one_le
  intro n hn
  obtain ⟨line, hline, rfl⟩ := List.mem_map.mp hn
  exact List.length_pos_iff.mpr (hne line hline)

theorem startRow_eq {n : Nat} (hn : n ≤ 81) : startRow n = 3 - (n / 2 : Nat) := by
  rw [startRow, CInt.wrap]
  omega

@[simp] theorem length_cleared (buf : Buffer) : (cleared buf).length = buf.length :=
  List.length_map _

theorem put_ok {buf : Buffer} {row : Nat} (h : row < buf.length) (r : Row) :
    put buf row r = .ok (buf.set row r) := by
  have hrow : (0 : Int) ≤ row ∧ (row : Int) < buf.length := ⟨Int.natCast_nonneg row, by omega⟩
  rw [put, if_pos hrow, Int.toNat_natCast]

theorem put_error {buf : Buffer} {row : Int} (h : row < 0) (r : Row) :
    put buf row r = .error (.outOfBounds row) := by
  rw [put, if_neg fun hrow => absurd hrow.1 (Int.not_le.mpr h)]

theorem place_ok (color : Color) {first index : Nat} {lines : List Bytes} {buf : Buffer}
    (h : first + index + lines.length ≤ buf.length) :
    place first color index lines buf = .ok (buf.take (first + index) ++ lines.map (·, color) ++
      buf.drop (first + index + lines.length)) := by
  induction lines generalizing index buf with
  | nil =>
    rw [place, List.map_nil, List.append_nil, List.length_nil, Nat.add_zero,
      List.take_append_drop]
  | cons text lines ih =>
    rw [List.length_cons] at h
    have hrow : first + index < buf.length := by omega
    have hput : put buf (first + index : Int) (text, color) =
        .ok (buf.set (first + index) (text, color)) := put_ok hrow (text, color)
    have htake : (buf.set (first + index) (text, color)).take (first + index + 1) =
        buf.take (first + index) ++ [(text, color)] := by
      rw [List.take_add_one, List.take_set_of_le (Nat.le_refl _), List.getElem?_set_self hrow,
        Option.toList_some]
    have hdrop : (buf.set (first + index) (text, color)).drop (first + index + 1 + lines.length) =
        buf.drop (first + index + 1 + lines.length) := List.drop_set_of_lt (by omega)
    have hrest := @ih (index + 1) (buf.set (first + index) (text, color))
      (by rw [List.length_set]; omega)
    rw [← Nat.add_assoc, htake, hdrop] at hrest
    rw [place, hput]
    change place first color (index + 1) lines _ = _
    rw [hrest, List.map_cons, List.length_cons, Nat.add_right_comm, Nat.add_assoc _ _ 1,
      List.append_assoc _ [_], List.singleton_append]

/-! ### When the rows are enough -/

/-- With `q` the number of words to a line, when the lines are as few as can be,
    seven lines of at most `q` words are enough. -/
def SevenLines (msg : Bytes) : Prop :=
  ∃ k, IsLeast {n | Divides (Short MAX_LINE_LEN) (split msg (str " ")) n} k ∧
    Divides (Quota MAX_LINE_LEN ((split msg (str " ")).length / k)) (split msg (str " ")) NOF_LINES

section Rows

variable {msg : Bytes} {lines : List Bytes}

theorem lines_of_long (hlong : msg.length > MAX_LINE_LEN) :
    Lines msg lines ↔ Returns msg MAX_LINE_LEN lines := by
  rw [Lines, if_pos hlong]

theorem sevenLines_iff (hreturns : Returns msg MAX_LINE_LEN lines) :
    SevenLines msg ↔ lines.length ≤ NOF_LINES := by
  have hwrap : Wrappable msg MAX_LINE_LEN := Terminates.wrappable ⟨lines, hreturns⟩
  have hleast := isLeast_groups (hereditary_short MAX_LINE_LEN) hwrap.short
  have hlines : lines.length = (wrapped MAX_LINE_LEN (split msg (str " "))).length := by
    rw [hreturns.unique hwrap.returns, List.length_map]
  rw [hlines, wrapped, ← divides_iff (hereditary_quota _ _) hwrap.quota]
  constructor
  · rintro ⟨k, hk, hdivides⟩
    rwa [hk.unique hleast] at hdivides
  · intro hdivides
    exact ⟨_, hleast, hdivides⟩

theorem doShowMessage_of_returns (hlong : msg.length > MAX_LINE_LEN) {fuel : Nat}
    (hwrap : wrap fuel msg MAX_LINE_LEN = .lines lines) (newBuffer : Buffer) (color : Color) :
    doShowMessage fuel newBuffer msg color =
      place (startRow lines.length) color 0 lines (cleared newBuffer) := by
  rw [doShowMessage, if_pos hlong, hwrap]

/-- Eight lines begin one row above the buffer. -/
theorem place_outOfBounds (hhigh : NOF_LINES < lines.length) (hlow : lines.length ≤ 81)
    (color : Color) (buf : Buffer) :
    place (startRow lines.length) color 0 lines buf =
      .error (.outOfBounds (3 - (lines.length / 2 : Nat))) := by
  rw [NOF_LINES] at hhigh
  cases lines with
  | nil => cases hhigh
  | cons text lines =>
    have hneg : (3 : Int) - ((text :: lines).length / 2 : Nat) + (0 : Nat) < 0 := by omega
    rw [startRow_eq hlow, place, put_error hneg, Int.natCast_zero, Int.add_zero]
    rfl

theorem shows_of_short (hshort : msg.length ≤ MAX_LINE_LEN) {newBuffer : Buffer}
    (hlen : newBuffer.length = NOF_LINES) (color : Color) :
    ∃ buf, doShowMessage 0 newBuffer msg color = .ok buf ∧ Shows newBuffer buf [msg] color := by
  have hrow : (3 : Nat) < (cleared newBuffer).length := by
    rw [length_cleared, hlen]
    decide
  refine ⟨_, ?_, 3, Nat.le_of_ble_eq_true rfl, rfl⟩
  rw [doShowMessage, if_neg (Nat.not_lt.mpr hshort), show NOF_LINES / 2 = 3 from rfl, put_ok hrow,
    List.set_eq_take_append_cons_drop, if_pos hrow]
  simp

theorem shows_of_place {newBuffer : Buffer} (hlen : newBuffer.length = NOF_LINES) (color : Color)
    (hlines : lines.length ≤ NOF_LINES) :
    ∃ buf, place (startRow lines.length) color 0 lines (cleared newBuffer) = .ok buf ∧
      Shows newBuffer buf lines color := by
  rw [NOF_LINES] at hlines hlen
  have hstart : startRow lines.length = ((3 - lines.length / 2 : Nat) : Int) := by
    rw [startRow_eq (by omega)]
    omega
  have hplace := @place_ok color (3 - lines.length / 2) 0 lines
    (cleared newBuffer) (by rw [length_cleared]; omega)
  rw [hstart, hplace]
  refine ⟨_, rfl, 3 - lines.length / 2, ?_, rfl⟩
  rw [NOF_LINES]
  omega

/-- A line has a character at least, and all have one more than the message. -/
theorem length_le_of_returns (hlen : msg.length ≤ MAX_SIZE)
    (hreturns : Returns msg MAX_LINE_LEN lines) : lines.length ≤ 81 := by
  have hwrap : Wrappable msg MAX_LINE_LEN := Terminates.wrappable ⟨lines, hreturns⟩
  obtain ⟨lines', hreturns', hne, hflat⟩ := hwrap.returns_lines
  obtain rfl := hreturns.unique hreturns'
  have hle := length_le_of_flatten (fun line hline => (hne line hline).1) hflat
  rw [List.length_append, show (str " ").length = 1 from rfl] at hle
  rw [MAX_SIZE] at hlen
  omega

theorem rowsKept_of_long (hlen : msg.length ≤ MAX_SIZE) (hlong : msg.length > MAX_LINE_LEN)
    (hreturns : Returns msg MAX_LINE_LEN lines) :
    RowsKept msg ↔ lines.length ≤ NOF_LINES := by
  constructor
  · intro h
    by_contra hhigh
    obtain ⟨fuel, buf, -, hok, -⟩ :=
      h (List.replicate NOF_LINES ([], .white)) .white List.length_replicate
    cases hwrap : wrap fuel msg MAX_LINE_LEN with
    | looping =>
      rw [doShowMessage, if_pos hlong, hwrap] at hok
      cases hok
    | dividesByZero =>
      rw [doShowMessage, if_pos hlong, hwrap] at hok
      cases hok
    | lines lines' =>
      obtain rfl := hreturns.unique ⟨fuel, hwrap⟩
      rw [doShowMessage_of_returns hlong hwrap, place_outOfBounds (Nat.lt_of_not_le hhigh)
        (length_le_of_returns hlen hreturns)] at hok
      cases hok
  · intro hle newBuffer color hrows
    obtain ⟨fuel, hwrap⟩ := hreturns
    obtain ⟨buf, hplace, hshows⟩ := shows_of_place hrows color hle
    refine ⟨fuel, buf, lines, ?_, (lines_of_long hlong).mpr ⟨fuel, hwrap⟩, hshows⟩
    rw [doShowMessage_of_returns hlong hwrap, hplace]

/-- **When a message keeps to the rows.** -/
theorem rowsKept_iff (msg : Bytes) (hlen : msg.length ≤ MAX_SIZE)
    (hends : msg.length > MAX_LINE_LEN → Terminates msg MAX_LINE_LEN) :
    RowsKept msg ↔ msg.length ≤ MAX_LINE_LEN ∨ SevenLines msg := by
  by_cases hshort : msg.length ≤ MAX_LINE_LEN
  · refine iff_of_true ?_ (.inl hshort)
    intro newBuffer color hrows
    obtain ⟨buf, hok, hshows⟩ := shows_of_short hshort hrows color
    refine ⟨0, buf, [msg], hok, ?_, hshows⟩
    rw [Lines, if_neg (Nat.not_lt.mpr hshort)]
  · obtain ⟨lines, hreturns⟩ := hends (Nat.lt_of_not_le hshort)
    rw [rowsKept_of_long hlen (Nat.lt_of_not_le hshort) hreturns, sevenLines_iff hreturns,
      or_iff_right hshort]

theorem rowsKept_iff_sample :
    RowsKept (str "Valid card swiped, unlocking") ↔
      (str "Valid card swiped, unlocking").length ≤ MAX_LINE_LEN ∨
        SevenLines (str "Valid card swiped, unlocking") :=
  rowsKept_iff (str "Valid card swiped, unlocking") (by decide)
    fun _ => ⟨_, Wrappable.returns (by decide)⟩

/-- Seven words are never too many. -/
theorem sevenLines_of_words (hreturns : Returns msg MAX_LINE_LEN lines)
    (hwords : (split msg (str " ")).length ≤ NOF_LINES) : SevenLines msg := by
  have hwrap : Wrappable msg MAX_LINE_LEN := Terminates.wrappable ⟨lines, hreturns⟩
  rw [sevenLines_iff hreturns, hreturns.unique hwrap.returns, List.length_map]
  exact Nat.le_trans (length_groups_le_length (hereditary_quota _ _) hwrap.quota) hwords

/-- Five lines would do for the eight words, so that each line gets one word. -/
def eightWords : Bytes := str "workshop, metalworks electronic laboratory ventilator a b c"

theorem not_rowsKept : ¬ ∀ msg, msg.length ≤ MAX_SIZE →
    (msg.length > MAX_LINE_LEN → Terminates msg MAX_LINE_LEN) → RowsKept msg := by
  intro h
  have hreturns : Returns eightWords MAX_LINE_LEN
      [str " workshop,", str " metalworks", str " electronic", str " laboratory",
        str " ventilator", str " a", str " b", str " c"] := ⟨40, by decide⟩
  have hrows := h eightWords (by decide) fun _ => ⟨_, hreturns⟩
  have hseven := (rowsKept_of_long (by decide) (by decide) hreturns).mp hrows
  exact absurd hseven (by decide)

end Rows

end Display

end Acs.Opi
