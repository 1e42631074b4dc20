/-
  Acs/Camcontrol/Display.lean
  ===========================
  **The progress log on the camera controller's display** (`display.cpp`, with
  what it uses of `ssd1306.c`).

  While the controller boots, each message is written into the next row.  With
  the seventh one the rows are full: the oldest message is taken out, and the
  screen is to be cleared and written anew.  It is cleared with
  `Display::clear()`, which empties the log as well, so that nothing is written
  anew (`addProgress_of_ge`).  The log never holds more than the messages since
  the last seventh one (`lines_exec`).
-/
import Acs.Bytes
import Acs.Lib.Run

namespace Acs.Camcontrol

open Acs Runs

/-! ### The device -/

namespace Ssd1306

/-- The pages of a device of 128 by 64 pixels, and the glyphs that fit into one. -/
def PAGES : Nat := 8
def COLUMNS : Nat := 16

/-- The codes of the glyphs that a page shows. -/
abbrev Page := Fin COLUMNS → UInt8
abbrev Screen := Fin PAGES → Page

/-- The glyph of code 0 is empty. -/
def blank : Page := fun _ => 0

/-- An empty page with a text on it, as far as it fits. -/
def glyphs (text : Bytes) : Page := fun c => text.getD c 0

/-- `ssd1306_display_text`: the text is written over what the page shows. -/
def displayText (screen : Screen) (page : Nat) (text : Bytes) : Screen := fun p c =>
  if p.val = page then text.getD c (screen p c) else screen p c

/-- `ssd1306_clear_screen`. -/
def clearScreen (screen : Screen) : Screen :=
  (List.range PAGES).foldl (fun screen page => displayText screen page (List.replicate COLUMNS 0))
    screen

theorem displayText_of_ne {p : Fin PAGES} {page : Nat} (h : p.val ≠ page) (screen : Screen)
    (text : Bytes) : displayText screen page text p = screen p := by
  funext c
  rw [displayText, if_neg h]

theorem displayText_of_blank {screen : Screen} {p : Fin PAGES} (h : screen p = blank)
    (text : Bytes) : displayText screen p text p = glyphs text := by
  funext c
  rw [displayText, if_pos rfl, h, glyphs, blank]

theorem clearScreen_eq (screen : Screen) : clearScreen screen = fun _ => blank := by
  have hloop : ∀ (pages : List Nat) (screen : Screen) (p : Fin PAGES),
      (p.val ∉ pages → screen p = blank) →
      pages.foldl (fun screen page => displayText screen page (List.replicate COLUMNS 0)) screen p =
        blank := by
    intro pages
    induction pages with
    | nil => exact fun screen p h => h List.not_mem_nil
    | cons page pages ih =>
      intro screen p h
      apply ih
      intro hp
      by_cases heq : p.val = page
      · have hspace : displayText screen page (List.replicate COLUMNS 0) p = blank := by
          funext c
          rw [displayText, if_pos heq, blank]
          simp
        exact hspace
      · have hother := displayText_of_ne heq screen (List.replicate COLUMNS 0)
        rw [h fun hmem => (List.mem_cons.mp hmem).elim heq hp] at hother
        exact hother
  funext p
  exact hloop _ screen p fun hp => absurd (List.mem_range.mpr p.isLt) hp

end Ssd1306

open Ssd1306 (Page Screen displayText clearScreen glyphs blank)

/-! ### The display -/

structure Display where
  device : Screen
  row : Nat := 0
  lines : List Bytes := []

namespace Display

def clear (d : Display) : Display :=
  { d with device := clearScreen d.device, lines := [], row := 0 }

/-- The loop over the lines, from line `i` on. -/
def drawLines (device : Screen) : Nat → List Bytes → Screen
  | _, [] => device
  | i, line :: lines => drawLines (displayText device i line) (i + 1) lines

/-- The next row, in front of the test for room. -/
def write (d : Display) (status : Bytes) : Display :=
  { device := displayText d.device d.row (str " " ++ status)
    row := d.row + 1
    lines := d.lines ++ [status] }

def addProgress (d : Display) (status : Bytes) : Display :=
  let d := d.write status
  if d.row < 7 then d
  else
    let d := { d with lines := d.lines.tail, row := d.row - 1 }
    let d := d.clear
    { d with device := drawLines d.device 0 d.lines }

@[simp] theorem row_write (d : Display) (status : Bytes) : (d.write status).row = d.row + 1 := rfl

@[simp] theorem lines_write (d : Display) (status : Bytes) :
    (d.write status).lines = d.lines ++ [status] := rfl

theorem addProgress_of_lt {d : Display} (h : d.row < 6) (status : Bytes) :
    d.addProgress status = d.write status := by
  have hroom : (d.write status).row < 7 := Nat.succ_lt_succ h
  rw [addProgress, if_pos hroom]

/-- `lines` and `row` are read after `clear`. -/
theorem addProgress_of_ge {d : Display} (h : 6 ≤ d.row) (status : Bytes) :
    d.addProgress status = { device := fun _ => blank, row := 0, lines := [] } := by
  have hfull : ¬ (d.write status).row < 7 := Nat.not_lt.mpr (Nat.succ_le_succ h)
  rw [addProgress, if_neg hfull]
  simp only [clear, drawLines, Ssd1306.clearScreen_eq]

/-! ### What the screen shows -/

/-- A page shows a message: behind a space, as a new one is written, or without
    it, as it is written anew. -/
def ShowsMessage (page : Page) (message : Bytes) : Prop :=
  page = glyphs (str " " ++ message) ∨ page = glyphs message

/-- The screen shows the lines, each in the row of its number, and nothing else. -/
structure ShowsLines (d : Display) : Prop where
  row_eq : d.row = d.lines.length
  shows : ∀ (p : Fin Ssd1306.PAGES) (h : p.val < d.lines.length),
    ShowsMessage (d.device p) (d.lines[p.val])
  rest : ∀ p : Fin Ssd1306.PAGES, d.lines.length ≤ p.val → d.device p = blank

theorem showsLines_clear (d : Display) : ShowsLines d.clear where
  row_eq := rfl
  shows := fun _ h => absurd h (Nat.not_lt_zero _)
  rest := fun p _ => by rw [clear, Ssd1306.clearScreen_eq]

theorem device_write_of_ne {d : Display} {p : Fin Ssd1306.PAGES} (h : p.val ≠ d.row)
    (status : Bytes) : (d.write status).device p = d.device p :=
  Ssd1306.displayText_of_ne h d.device (str " " ++ status)

theorem ShowsLines.write {d : Display} (hd : ShowsLines d) (status : Bytes) :
    ShowsLines (d.write status) := by
  constructor
  · rw [row_write, hd.row_eq, lines_write, List.length_append, List.length_singleton]
  · intro p h
    simp only [lines_write, List.length_append, List.length_singleton] at h ⊢
    by_cases hnew : p.val = d.lines.length
    · left
      have hpage : d.device p = blank := hd.rest p hnew.ge
      have hrow : d.row = p.val := hd.row_eq.trans hnew.symm
      simp only [hnew, List.getElem_concat_length]
      rw [Display.write, hrow]
      exact Ssd1306.displayText_of_blank hpage (str " " ++ status)
    · have hold : p.val < d.lines.length := by omega
      rw [device_write_of_ne (hd.row_eq ▸ hnew), List.getElem_append_left hold]
      exact hd.shows p hold
  · intro p h
    rw [lines_write, List.length_append, List.length_singleton] at h
    have hne : p.val ≠ d.row := by
      rw [hd.row_eq]
      omega
    rw [device_write_of_ne hne]
    exact hd.rest p (by omega)

/-- **One step**, with room or without. -/
theorem ShowsLines.addProgress {d : Display} (hd : ShowsLines d) (status : Bytes) :
    ShowsLines (d.addProgress status) := by
  by_cases hroom : d.row < 6
  · rw [addProgress_of_lt hroom]
    exact hd.write status
  · rw [addProgress_of_ge (Nat.le_of_not_lt hroom)]
    exact ⟨rfl, fun _ h => absurd h (Nat.not_lt_zero _), fun _ _ => rfl⟩

theorem ShowsLines.exec {d : Display} (hd : ShowsLines d) (messages : List Bytes) :
    ShowsLines (Runs.exec Display.addProgress d messages) :=
  exec_invariant_of_forall Display.addProgress (fun _ => True) ShowsLines
    (fun _ status hs _ => hs.addProgress status) hd fun _ _ => trivial

/-! ### The log over a run -/

theorem lines_addProgress (d : Display) (status : Bytes) :
    (d.addProgress status).lines = if d.row < 6 then d.lines ++ [status] else [] := by
  by_cases hroom : d.row < 6
  · rw [addProgress_of_lt hroom, if_pos hroom, lines_write]
  · rw [addProgress_of_ge (Nat.le_of_not_lt hroom), if_neg hroom]

/-- **The log** holds the messages since the last one that filled the rows. -/
theorem lines_exec (d : Display) (messages : List Bytes) :
    (exec addProgress d.clear messages).lines = messages.drop (7 * (messages.length / 7)) := by
  induction messages using List.reverseRecOn with
  | nil => rfl
  | append_singleton messages status ih =>
    have hrow := ((showsLines_clear d).exec messages).row_eq
    rw [ih, List.length_drop] at hrow
    rw [exec_snoc, lines_addProgress, hrow, ih, List.length_append, List.length_singleton]
    by_cases hroom : messages.length - 7 * (messages.length / 7) < 6
    · have hsame : (messages.length + 1) / 7 = messages.length / 7 := by omega
      rw [if_pos hroom, hsame, List.drop_append_of_le_length (Nat.mul_div_le _ _)]
    · have hall : 7 * ((messages.length + 1) / 7) = messages.length + 1 := by omega
      rw [if_neg hroom, hall]
      exact (List.drop_of_length_le (by simp)).symm

/-- After every seventh message the screen is empty. -/
theorem device_exec {messages : List Bytes} (h : 7 ∣ messages.length) (d : Display)
    (p : Fin Ssd1306.PAGES) : (exec addProgress d.clear messages).device p = blank := by
  apply ((showsLines_clear d).exec messages).rest
  rw [lines_exec, Nat.mul_div_cancel' h, List.drop_length]
  exact Nat.zero_le _

/-- What a progress log is for: the rows in use show the most recent messages, the
    latest one among them, and a message is missing only if it has been scrolled
    out, which leaves six rows in use. -/
structure ShowsRecent (messages : List Bytes) (d : Display) : Prop where
  shows : ShowsLines d
  recent : d.lines <:+ messages
  latest : messages ≠ [] → d.lines ≠ []
  scrolled : d.lines = messages ∨ d.lines.length = 6

/-- The screen shows the recent messages after each call of a run exactly as long
    as nothing has to scroll. -/
theorem showsRecent_iff (d : Display) (messages : List Bytes) :
    (∀ sent, sent <+: messages → ShowsRecent sent (exec addProgress d.clear sent)) ↔
      messages.length ≤ 6 := by
  constructor
  · intro hshows
    by_contra hlong
    have hlen : (messages.take 7).length = 7 := by
      rw [List.length_take]
      omega
    have hlatest := (hshows (messages.take 7) (List.take_prefix 7 messages)).latest
    rw [lines_exec, hlen] at hlatest
    exact hlatest (List.ne_nil_of_length_pos (by omega)) (List.drop_of_length_le hlen.le)
  · intro hshort sent hsent
    have hlen := hsent.length_le
    have hlines : (exec addProgress d.clear sent).lines = sent := by
      have hfirst : sent.length / 7 = 0 := by omega
      rw [lines_exec, hfirst, Nat.mul_zero, List.drop_zero]
    constructor
    · exact (showsLines_clear d).exec sent
    · rw [hlines]
    · rw [hlines]
      exact id
    · exact .inl hlines

/-- What is reported in a start that finds no newer firmware. -/
def bootMessages : List Bytes :=
  [str "camctl 0.1", str "NVS init", str "WiFi connect", str "SNTP synch", str "OTA check",
    str "Downloading", str "No new version"]

theorem not_showsRecent :
    ¬ ∀ (d : Display) (messages sent : List Bytes), sent <+: messages →
      ShowsRecent sent (exec addProgress d.clear sent) := by
  intro hshows
  have hlatest := (hshows ⟨fun _ => blank, 0, []⟩ bootMessages bootMessages List.prefix_rfl).latest
  rw [lines_exec] at hlatest
  exact hlatest (List.cons_ne_nil _ _) (by rfl)

end Display

end Acs.Camcontrol
