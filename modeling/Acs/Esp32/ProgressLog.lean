/-
  Acs/Esp32/ProgressLog.lean
  ==========================
  **`Display::add_progress`: the progress log on the screen of a lock's
  controller** (`display.cpp`).

  A message is drawn in the next row.  When the rows have reached the lower edge
  of the screen, the oldest message is taken out, the screen is filled with
  black, and the lines that are left are drawn anew.  So the screen always shows
  the latest messages, as many as there are rows (`exec_addProgress`).
-/
import Acs.Esp32.Display
import Acs.Lib.Scroll

namespace Acs.Esp32

open Acs Runs
open Display (Tft Drawing TFT_WIDTH TFT_HEIGHT TFT_WHITE)

/-- The part of `Display` that the log uses, with what is drawn on the screen. -/
structure ProgressLog where
  screen : List Drawing
  row : Nat := 0
  lines : List Bytes := []

namespace ProgressLog

variable (tft : Tft) (smallTextheight : Int)

/-- A line in the middle of row `i`. -/
def drawLine (i : Nat) (line : Bytes) : Drawing where
  font := .small
  text := cstr line
  colour := TFT_WHITE
  x := TFT_HEIGHT / 2 - (tft.textWidth .small (cstr line)).tdiv 2
  y := i * smallTextheight

/-- The loop over the lines, from line `i` on. -/
def drawLines : Nat → List Bytes → List Drawing
  | _, [] => []
  | i, line :: lines => drawLine tft smallTextheight i line :: drawLines (i + 1) lines

/-- The next row, in front of the test for room. -/
def write (d : ProgressLog) (status : Bytes) : ProgressLog where
  screen := d.screen ++ [drawLine tft smallTextheight d.row status]
  row := d.row + 1
  lines := d.lines ++ [status]

def addProgress (d : ProgressLog) (status : Bytes) : ProgressLog :=
  let d := write tft smallTextheight d status
  if d.row * smallTextheight < TFT_WIDTH then d
  else
    let d := { d with lines := d.lines.tail, row := d.row - 1 }
    { d with screen := drawLines tft smallTextheight 0 d.lines }

/-- The log with its lines on the screen. -/
def shown (lines : List Bytes) : ProgressLog where
  screen := drawLines tft smallTextheight 0 lines
  row := lines.length
  lines := lines

/-- The rows that end above the lower edge of the screen. -/
def rows : Nat := ((TFT_WIDTH - 1) / smallTextheight).toNat

variable {tft smallTextheight}

theorem drawLines_append (lines : List Bytes) (status : Bytes) (i : Nat) :
    drawLines tft smallTextheight i (lines ++ [status]) =
      drawLines tft smallTextheight i lines ++
        [drawLine tft smallTextheight (i + lines.length) status] := by
  induction lines generalizing i with
  | nil => rfl
  | cons line lines ih =>
    rw [List.cons_append, drawLines, drawLines, ih, List.length_cons, List.cons_append,
      Nat.add_right_comm, Nat.add_assoc]

theorem lt_rows_iff (hheight : 0 < smallTextheight) (n : Nat) :
    n < rows smallTextheight ↔ ((n + 1 : Nat) : Int) * smallTextheight < TFT_WIDTH := by
  rw [rows, Int.lt_toNat, ← Int.add_one_le_iff, Int.le_ediv_iff_mul_le hheight, Int.le_sub_one_iff]
  push_cast
  rfl

theorem write_shown (lines : List Bytes) (status : Bytes) :
    write tft smallTextheight (shown tft smallTextheight lines) status =
      shown tft smallTextheight (lines ++ [status]) := by
  rw [write, shown, shown, drawLines_append, List.length_append, List.length_singleton, Nat.zero_add]

/-- **One step** scrolls the log. -/
theorem addProgress_shown (hheight : 0 < smallTextheight) {lines : List Bytes}
    (hlen : lines.length ≤ rows smallTextheight) (status : Bytes) :
    addProgress tft smallTextheight (shown tft smallTextheight lines) status =
      shown tft smallTextheight (Scroll.push (rows smallTextheight) lines status) := by
  have hlength : (lines ++ [status]).length = lines.length + 1 := by
    rw [List.length_append, List.length_singleton]
  have hroom := lt_rows_iff hheight lines.length
  rw [← hlength] at hroom
  rw [addProgress, write_shown]
  by_cases hlt : lines.length < rows smallTextheight
  · rw [Scroll.push_of_lt hlt]
    exact if_pos (hroom.mp hlt)
  · have hfull : lines.length = rows smallTextheight := le_antisymm hlen (Nat.le_of_not_lt hlt)
    rw [Scroll.push_of_eq hfull, shown, shown, List.length_tail]
    exact if_neg fun h => hlt (hroom.mpr h)

/-- **The log after a run** shows the latest messages. -/
theorem exec_addProgress (hheight : 0 < smallTextheight) (messages : List Bytes) :
    exec (addProgress tft smallTextheight) (shown tft smallTextheight []) messages =
      shown tft smallTextheight (messages.rtake (rows smallTextheight)) := by
  have hrun := exec_simulation (addProgress tft smallTextheight)
    (Scroll.push (rows smallTextheight)) (fun status => [status])
    (fun d lines => d = shown tft smallTextheight lines ∧ lines.length ≤ rows smallTextheight)
    (by
      rintro d lines status ⟨rfl, hlen⟩
      exact ⟨addProgress_shown hheight hlen status, Scroll.length_push_le _ lines status⟩)
    (t := []) ⟨rfl, Nat.zero_le _⟩ messages
  rw [List.flatMap_singleton', Scroll.exec_push] at hrun
  exact hrun.1

end ProgressLog

end Acs.Esp32
