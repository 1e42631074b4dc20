/-
  Acs/Esp32/Display.lean
  ======================
  **`Display`: the status area of the screen** (`display.cpp`).

  A status is drawn when it differs from the last one, and drawn again from the
  fields that are kept of it when a message has been shown for ten seconds.  The
  comparison leaves the colours out, and `set_status` without an auxiliary text
  keeps that of the status before.

  So the area shows the most recent status exactly as long as a status that is
  not drawn looks like the one before it, and the fields that are kept look like
  the most recent status when a message ends (`consistent_iff`).  They do not after
  a call with two arguments behind one that had an auxiliary text, or after a call
  that was not drawn and had other colours (`sameLook_kept_iff`).
-/
import Acs.Bytes
import Acs.Lib.CInt
import Acs.Lib.Run

namespace Acs.Esp32

open Acs Runs

namespace Display

/-! ### Drawing -/

inductive Font where
  | small
  | medium
  | status
deriving DecidableEq

/-- What the library tells about its fonts. -/
structure Tft where
  textWidth : Font → Bytes → Int
  mediumTextheight : Int

/-- A text on the screen, with its place. -/
structure Drawing where
  font : Font
  text : Bytes
  colour : UInt16
  x : Int
  y : Int
deriving DecidableEq

def TFT_BLACK : UInt16 := 0x0000
def TFT_OLIVE : UInt16 := 0x7BE0
def TFT_GREEN : UInt16 := 0x07E0
def TFT_RED : UInt16 := 0xF800
def TFT_ORANGE : UInt16 := 0xFDA0
def TFT_WHITE : UInt16 := 0xFFFF

/-- The screen is turned, so that its width is `TFT_HEIGHT`. -/
def TFT_WIDTH : Int := 240
def TFT_HEIGHT : Int := 320
def STATUS_HEIGHT : Int := 20
def LABEL_HEIGHT : Int := 20

/-- The loop of `split`, with the line that has been begun; an empty last line is
    none. -/
def splitFrom (line : Bytes) : Bytes → List Bytes
  | [] => if line = [] then [] else [line]
  | c :: s => if [c] = str "\n" then line :: splitFrom [] s else splitFrom (line ++ [c]) s

def split (s : Bytes) : List Bytes := splitFrom [] s

/-- The arguments of `show_text`. -/
structure Status where
  status : Bytes
  colour : UInt16
  auxStatus : Bytes
  auxColour : UInt16
deriving DecidableEq

/-- A text in the middle of its line; the coordinate is computed without a sign. -/
def centred (tft : Tft) (font : Font) (colour : UInt16) (y : Int) (text : Bytes) : Drawing :=
  ⟨font, text, colour, TFT_HEIGHT / 2 - (tft.textWidth font text).tdiv 2, CInt.wrap y⟩

/-- The lines of a status from `y` on. -/
def drawLines (tft : Tft) (colour : UInt16) : Int → List Bytes → List Drawing
  | _, [] => []
  | y, line :: lines =>
      centred tft .medium colour y line :: drawLines tft colour (y + tft.mediumTextheight) lines

/-- Where the first of `nofLines` lines stands. -/
def firstY (tft : Tft) (nofLines : Nat) : Int :=
  STATUS_HEIGHT + (TFT_WIDTH - STATUS_HEIGHT - LABEL_HEIGHT) / 2 -
    (nofLines / 2 : Nat) * tft.mediumTextheight - tft.mediumTextheight.tdiv 2

/-- The auxiliary text, if there is one. -/
def drawAux (tft : Tft) (y : Int) (s : Status) : List Drawing :=
  if s.auxStatus ≠ [] then [centred tft .small s.auxColour y (cstr s.auxStatus)] else []

def showText (tft : Tft) (s : Status) : List Drawing :=
  let lines := (split s.status).map cstr
  let y := firstY tft (lines.length + if s.auxStatus ≠ [] then 1 else 0)
  drawLines tft s.colour y lines ++ drawAux tft (y + lines.length * tft.mediumTextheight) s

end Display

open Display (Tft Drawing Status)

/-! ### The object -/

/-- `Display`, with what is drawn in the status area and around it.  `recent` is
    the most recent call of `set_status`; the code does not keep it. -/
structure Display where
  area : List Drawing
  lastStatus : Bytes := []
  lastAuxStatus : Bytes := []
  lastStatusColour : UInt16 := 0
  lastAuxStatusColour : UInt16 := 0
  lastMessage : Int := 0
  bar : List Drawing := []
  lastClock : Int := 0
  secondsSinceStatusUpdate : Nat := 59
  statusPage : Nat := 0
  recent : Option Status := none

namespace Display

/-- `util::invalid_time_point()` and `MESSAGE_DURATION`, in nanoseconds. -/
def invalidTimePoint : Int := 0
def messageDuration : Int := 10 * 1000000000

variable (tft : Tft)

/-- `clear_status_area` and `show_text`. -/
def draw (d : Display) (s : Status) : Display := { d with area := showText tft s }

/-- The overload with two arguments. -/
def setStatus (d : Display) (status : Bytes) (colour : UInt16) : Display :=
  let s : Status := ⟨status, colour, [], TFT_BLACK⟩
  let d := { d with recent := some s }
  if status ≠ d.lastStatus ∨ d.lastAuxStatus ≠ [] then
    { d with lastStatus := status, lastStatusColour := colour }.draw tft s
  else d

/-- The overload with four arguments. -/
def setStatusAux (d : Display) (s : Status) : Display :=
  let d := { d with recent := some s }
  if s.status ≠ d.lastStatus ∨ s.auxStatus ≠ d.lastAuxStatus then
    { d with
      lastStatus := s.status
      lastStatusColour := s.colour
      lastAuxStatus := s.auxStatus
      lastAuxStatusColour := s.auxColour }.draw tft s
  else d

def showMessage (d : Display) (message : Bytes) (colour : UInt16) (now : Int) : Display :=
  { d with lastMessage := now }.draw tft ⟨message, colour, [], TFT_BLACK⟩

/-- The status that is kept. -/
def kept (d : Display) : Status :=
  ⟨d.lastStatus, d.lastStatusColour, d.lastAuxStatus, d.lastAuxStatusColour⟩

/-- A message has been shown for long enough. -/
def messageOver (d : Display) (now : Int) : Bool :=
  d.lastMessage ≠ invalidTimePoint ∧ now - d.lastMessage ≥ messageDuration

def endMessage (d : Display) (now : Int) : Display :=
  if d.messageOver now then { d with lastMessage := invalidTimePoint }.draw tft d.kept else d

/-- What `update` finds: the clock, the text of each status page, and the label
    between the buttons. -/
structure Input where
  now : Int
  current : Int
  pageText : Nat → Bytes
  label : Bytes

/-- The bars at the top and at the bottom. -/
def drawBar (page : Nat) (i : Input) : List Drawing :=
  let y := TFT_WIDTH - LABEL_HEIGHT
  [⟨.status, cstr (i.pageText page), TFT_OLIVE, 0, 0⟩,
    ⟨.small, str "Open 15m", TFT_GREEN, 5, y⟩,
    ⟨.small, str "Close", TFT_RED, TFT_HEIGHT - 60, y⟩] ++
  if i.label ≠ [] then
    [⟨.small, cstr i.label, TFT_WHITE,
      (TFT_HEIGHT - tft.textWidth .small (cstr i.label)).tdiv 2, y⟩]
  else []

/-- The part of `update` that comes once a second, and does its work once a
    minute. -/
def updateBar (d : Display) (i : Input) : Display :=
  if i.current ≠ d.lastClock then
    let d := { d with
      lastClock := i.current
      secondsSinceStatusUpdate := d.secondsSinceStatusUpdate + 1 }
    if d.secondsSinceStatusUpdate ≥ 60 then
      { d with
        secondsSinceStatusUpdate := 0
        bar := drawBar tft d.statusPage i
        statusPage := if d.statusPage + 1 > 3 then 0 else d.statusPage + 1 }
    else d
  else d

def update (d : Display) (i : Input) : Display := (d.endMessage tft i.now).updateBar tft i

inductive Event where
  | setStatus (status : Bytes) (colour : UInt16)
  | setStatusAux (s : Status)
  | showMessage (message : Bytes) (colour : UInt16) (now : Int)
  | update (i : Input)

def step (d : Display) : Event → Display
  | .setStatus status colour => d.setStatus tft status colour
  | .setStatusAux s => d.setStatusAux tft s
  | .showMessage message colour now => d.showMessage tft message colour now
  | .update i => d.update tft i

/-! ### What can be told apart on the screen -/

/-- Two statuses look the same: the lines, the auxiliary text, and the colours of
    what there is. -/
structure SameLook (s s' : Status) : Prop where
  lines : (split s.status).map cstr = (split s'.status).map cstr
  colour : split s.status ≠ [] → s.colour = s'.colour
  aux : s.auxStatus = [] ↔ s'.auxStatus = []
  auxText : s.auxStatus ≠ [] → cstr s.auxStatus = cstr s'.auxStatus ∧ s.auxColour = s'.auxColour

section Look

variable {tft} {colour : UInt16} {y : Int} {lines : List Bytes} {s s' : Status}

theorem map_text_drawLines : (drawLines tft colour y lines).map Drawing.text = lines := by
  induction lines generalizing y with
  | nil => rfl
  | cons line lines ih =>
    rw [drawLines, List.map_cons, ih]
    rfl

theorem of_mem_drawLines {d : Drawing} (h : d ∈ drawLines tft colour y lines) :
    d.font = .medium ∧ d.colour = colour := by
  induction lines generalizing y with
  | nil => cases h
  | cons line lines ih =>
    rcases List.mem_cons.mp h with rfl | h
    · exact ⟨rfl, rfl⟩
    · exact ih h

theorem font_of_mem_drawAux {d : Drawing} (h : d ∈ drawAux tft y s) : d.font = .small := by
  rw [drawAux] at h
  split at h
  · rw [List.mem_singleton.mp h]
    rfl
  · cases h

/-- The drawings of the lines and of the auxiliary text differ in the font. -/
theorem append_inj_of_font {ds ds' as as' : List Drawing} (h : ds ++ as = ds' ++ as')
    (hds : ∀ d ∈ ds, d.font = .medium) (hds' : ∀ d ∈ ds', d.font = .medium)
    (has : ∀ d ∈ as, d.font = .small) (has' : ∀ d ∈ as', d.font = .small) :
    ds = ds' ∧ as = as' := by
  have hfilter : ∀ xs ys : List Drawing, (∀ d ∈ xs, d.font = .medium) →
      (∀ d ∈ ys, d.font = .small) → (xs ++ ys).filter (fun d => d.font = .medium) = xs := by
    intro xs ys hxs hys
    have hkeep : xs.filter (fun d => d.font = .medium) = xs :=
      List.filter_eq_self.mpr fun d hd => decide_eq_true (hxs d hd)
    have hdrop : ys.filter (fun d => d.font = .medium) = [] := by
      refine List.filter_eq_nil_iff.mpr fun d hd => ?_
      rw [hys d hd]
      decide
    rw [List.filter_append, hkeep, hdrop, List.append_nil]
  have heq : ds = ds' := by rw [← hfilter ds as hds has, h, hfilter ds' as' hds' has']
  exact ⟨heq, List.append_cancel_left (heq ▸ h)⟩

theorem showText_eq_iff : showText tft s = showText tft s' ↔ SameLook s s' := by
  constructor
  · intro h
    obtain ⟨hlines, haux⟩ := append_inj_of_font h (fun d hd => (of_mem_drawLines hd).1)
      (fun d hd => (of_mem_drawLines hd).1) (fun d => font_of_mem_drawAux)
      (fun d => font_of_mem_drawAux)
    have htext := congrArg (List.map Drawing.text) hlines
    rw [map_text_drawLines, map_text_drawLines] at htext
    have hempty : s.auxStatus = [] ↔ s'.auxStatus = [] := by
      have hlen := congrArg List.length haux
      rw [drawAux, drawAux] at hlen
      by_cases hs : s.auxStatus = [] <;> by_cases hs' : s'.auxStatus = [] <;> simp_all
    refine ⟨htext, ?_, hempty, ?_⟩
    · intro hne
      obtain ⟨line, rest, hsplit⟩ := List.exists_cons_of_ne_nil hne
      rw [hsplit, List.map_cons, drawLines] at hlines
      exact (of_mem_drawLines (hlines ▸ List.mem_cons_self)).2
    · intro hne
      rw [drawAux, drawAux, if_pos hne, if_pos (fun hs' => hne (hempty.mpr hs'))] at haux
      have hdrawing := (List.cons.inj haux).1
      exact ⟨congrArg Drawing.text hdrawing, congrArg Drawing.colour hdrawing⟩
  · rintro ⟨hlines, hcolour, hempty, haux⟩
    have hdraw : ∀ y, drawLines tft s.colour y ((split s'.status).map cstr) =
        drawLines tft s'.colour y ((split s'.status).map cstr) := by
      intro y
      by_cases hnone : split s.status = []
      · rw [← hlines, hnone]
        rfl
      · rw [hcolour hnone]
    rw [showText, showText, hlines, hdraw]
    by_cases hs : s.auxStatus = []
    · have hs' := hempty.mp hs
      rw [drawAux, drawAux, hs, hs']
      rfl
    · have hs' : s'.auxStatus ≠ [] := fun h => hs (hempty.mpr h)
      obtain ⟨htext, hauxColour⟩ := haux hs
      rw [drawAux, drawAux, if_pos hs, if_pos hs', if_pos hs, if_pos hs', htext, hauxColour]

end Look

/-! ### The most recent status -/

/-- Without a message, the area shows the most recent status. -/
def Consistent (d : Display) : Prop :=
  d.lastMessage = invalidTimePoint → ∀ s ∈ d.recent, d.area = showText tft s

/-- A status that is not drawn looks like what is there: the most recent one, or
    the area as it was at first. -/
def LooksShown (d : Display) (s : Status) : Prop :=
  match d.recent with
  | some s' => SameLook s' s
  | none => d.area = showText tft s

/-- A status that is not drawn looks like the one before it, and what is kept looks
    like the most recent one when it is drawn again.  (A message at the invalid time
    point is none.) -/
def Honest (d : Display) : Event → Prop
  | .setStatus status colour =>
      status = d.lastStatus ∧ d.lastAuxStatus = [] ∧ d.lastMessage = invalidTimePoint →
        LooksShown tft d ⟨status, colour, [], TFT_BLACK⟩
  | .setStatusAux s =>
      s.status = d.lastStatus ∧ s.auxStatus = d.lastAuxStatus ∧
        d.lastMessage = invalidTimePoint → LooksShown tft d s
  | .showMessage message colour now =>
      now = invalidTimePoint → ∀ s ∈ d.recent, SameLook ⟨message, colour, [], TFT_BLACK⟩ s
  | .update i => d.messageOver i.now → ∀ s ∈ d.recent, SameLook d.kept s

variable {tft}

/-- A status that has just been drawn is shown. -/
theorem consistent_of_area {d : Display} {s : Status} (hrecent : d.recent = some s)
    (harea : d.area = showText tft s) : Consistent tft d := by
  intro _ s' hs'
  rw [hrecent] at hs'
  cases hs'
  exact harea

/-- A status that is not drawn is shown exactly if it looks like what is there. -/
theorem consistent_skip_iff {d : Display} (h : Consistent tft d) (s : Status) :
    Consistent tft { d with recent := some s } ↔
      (d.lastMessage = invalidTimePoint → LooksShown tft d s) := by
  refine forall_congr' fun hmessage => ?_
  have hshown : (d.area = showText tft s) ↔ LooksShown tft d s := by
    rw [LooksShown]
    cases hrecent : d.recent with
    | none => exact Iff.rfl
    | some s' =>
      rw [h hmessage s' hrecent]
      exact showText_eq_iff
  rw [← hshown]
  exact ⟨fun hall => hall s rfl, fun harea s' hs' => by cases hs'; exact harea⟩

theorem consistent_setStatus_iff {d : Display} (h : Consistent tft d) (status : Bytes)
    (colour : UInt16) :
    Consistent tft (d.setStatus tft status colour) ↔ Honest tft d (.setStatus status colour) := by
  rw [setStatus, Honest]
  dsimp only
  by_cases hdraw : status ≠ d.lastStatus ∨ d.lastAuxStatus ≠ []
  · rw [if_pos hdraw]
    refine iff_of_true (consistent_of_area (s := ⟨status, colour, [], TFT_BLACK⟩) rfl rfl) ?_
    rintro ⟨hstatus, haux, -⟩
    rcases hdraw with hne | hne
    · exact absurd hstatus hne
    · exact absurd haux hne
  · obtain ⟨hstatus, haux⟩ := not_or.mp hdraw
    rw [if_neg hdraw, consistent_skip_iff h]
    exact ⟨fun hlook hskip => hlook hskip.2.2,
      fun hlook hmessage => hlook ⟨not_not.mp hstatus, not_not.mp haux, hmessage⟩⟩

theorem consistent_setStatusAux_iff {d : Display} (h : Consistent tft d) (s : Status) :
    Consistent tft (d.setStatusAux tft s) ↔ Honest tft d (.setStatusAux s) := by
  rw [setStatusAux, Honest]
  dsimp only
  by_cases hdraw : s.status ≠ d.lastStatus ∨ s.auxStatus ≠ d.lastAuxStatus
  · rw [if_pos hdraw]
    refine iff_of_true (consistent_of_area (s := s) rfl rfl) ?_
    rintro ⟨hstatus, haux, -⟩
    rcases hdraw with hne | hne
    · exact absurd hstatus hne
    · exact absurd haux hne
  · obtain ⟨hstatus, haux⟩ := not_or.mp hdraw
    rw [if_neg hdraw, consistent_skip_iff h]
    exact ⟨fun hlook hskip => hlook hskip.2.2,
      fun hlook hmessage => hlook ⟨not_not.mp hstatus, not_not.mp haux, hmessage⟩⟩

theorem consistent_showMessage_iff (d : Display) (message : Bytes) (colour : UInt16) (now : Int) :
    Consistent tft (d.showMessage tft message colour now) ↔
      Honest tft d (.showMessage message colour now) := by
  refine forall_congr' fun _ => forall₂_congr fun s _ => ?_
  exact showText_eq_iff

theorem consistent_endMessage_iff {d : Display} (h : Consistent tft d) (now : Int) :
    Consistent tft (d.endMessage tft now) ↔
      (d.messageOver now → ∀ s ∈ d.recent, SameLook d.kept s) := by
  rw [endMessage]
  by_cases hover : d.messageOver now = true
  · rw [if_pos hover, imp_iff_right hover, Consistent]
    refine (imp_iff_right rfl).trans (forall₂_congr fun s _ => ?_)
    exact showText_eq_iff
  · rw [if_neg hover]
    exact iff_of_true h fun hover' => absurd hover' hover

/-- The bars are no part of the status area. -/
theorem consistent_updateBar_iff (d : Display) (i : Input) :
    Consistent tft (d.updateBar tft i) ↔ Consistent tft d := by
  rw [updateBar]
  split
  · dsimp only
    split <;> exact Iff.rfl
  · exact Iff.rfl

theorem consistent_step_iff {d : Display} (h : Consistent tft d) (event : Event) :
    Consistent tft (step tft d event) ↔ Honest tft d event := by
  cases event with
  | setStatus status colour => exact consistent_setStatus_iff h status colour
  | setStatusAux s => exact consistent_setStatusAux_iff h s
  | showMessage message colour now => exact consistent_showMessage_iff d message colour now
  | update i => exact (consistent_updateBar_iff _ i).trans (consistent_endMessage_iff h i.now)

/-! ### The fields, in terms of the calls -/

/-- The auxiliary text of the last call with four arguments. -/
def auxOf (events : List Event) : Bytes :=
  ((events.filterMap fun
    | .setStatusAux s => some s.auxStatus
    | _ => none).getLast?).getD []

/-- What the calls have left in the fields that are kept. -/
structure Keeps (events : List Event) (d : Display) : Prop where
  aux : d.lastAuxStatus = auxOf events
  recent : ∀ s ∈ d.recent, d.lastStatus = s.status ∧
    (s.auxStatus ≠ [] → d.lastAuxStatus = s.auxStatus)

theorem auxOf_aux (events : List Event) (s : Status) :
    auxOf (events ++ [.setStatusAux s]) = s.auxStatus := by
  rw [auxOf, List.filterMap_append]
  exact congrArg (Option.getD · []) List.getLast?_concat

theorem auxOf_other {event : Event} (events : List Event) (h : ∀ s, event ≠ .setStatusAux s) :
    auxOf (events ++ [event]) = auxOf events := by
  rw [auxOf, auxOf, List.filterMap_append]
  cases event with
  | setStatusAux s => exact absurd rfl (h s)
  | setStatus => exact congrArg (fun l => (List.getLast? l).getD []) (List.append_nil _)
  | showMessage => exact congrArg (fun l => (List.getLast? l).getD []) (List.append_nil _)
  | update => exact congrArg (fun l => (List.getLast? l).getD []) (List.append_nil _)

/-- Only the calls of `set_status` touch the fields. -/
theorem keeps_update {events : List Event} {d : Display} (h : Keeps events d) (i : Input) :
    Keeps (events ++ [.update i]) (d.update tft i) := by
  have hend : ∀ now, (d.endMessage tft now).lastAuxStatus = d.lastAuxStatus ∧
      (d.endMessage tft now).lastStatus = d.lastStatus ∧
      (d.endMessage tft now).recent = d.recent := by
    intro now
    rw [endMessage]
    split <;> exact ⟨rfl, rfl, rfl⟩
  have hbar : ∀ d : Display, (d.updateBar tft i).lastAuxStatus = d.lastAuxStatus ∧
      (d.updateBar tft i).lastStatus = d.lastStatus ∧ (d.updateBar tft i).recent = d.recent := by
    intro d
    rw [updateBar]
    split
    · dsimp only
      split <;> exact ⟨rfl, rfl, rfl⟩
    · exact ⟨rfl, rfl, rfl⟩
  obtain ⟨haux, hstatus, hrecent⟩ := hbar (d.endMessage tft i.now)
  obtain ⟨haux', hstatus', hrecent'⟩ := hend i.now
  refine ⟨?_, ?_⟩
  · rw [auxOf_other events (by simp), update, haux, haux']
    exact h.aux
  · rw [update, haux, haux', hstatus, hstatus', hrecent, hrecent']
    exact h.recent

theorem keeps_run (area : List Drawing) (events : List Event) :
    Keeps events (exec (step tft) { area } events) := by
  induction events using List.reverseRecOn with
  | nil => exact ⟨rfl, fun s hs => by cases hs⟩
  | append_singleton events event ih =>
    rw [exec_snoc]
    cases event with
    | setStatus status colour =>
      refine ⟨?_, ?_⟩
      · rw [auxOf_other events (by simp), ← ih.aux, step, setStatus]
        dsimp only
        split <;> rfl
      · rw [step, setStatus]
        dsimp only
        split
        · rintro s hs
          cases hs
          exact ⟨rfl, fun hne => absurd rfl hne⟩
        next hskip =>
          rintro s hs
          cases hs
          exact ⟨(not_not.mp (not_or.mp hskip).1).symm, fun hne => absurd rfl hne⟩
    | setStatusAux s =>
      rw [step, setStatusAux]
      dsimp only
      split
      · refine ⟨(auxOf_aux events s).symm, fun s' hs' => ?_⟩
        cases hs'
        exact ⟨rfl, fun _ => rfl⟩
      next hskip =>
        obtain ⟨hstatus, haux⟩ := not_or.mp hskip
        refine ⟨(not_not.mp haux).symm.trans (auxOf_aux events s).symm, fun s' hs' => ?_⟩
        cases hs'
        exact ⟨(not_not.mp hstatus).symm, fun _ => (not_not.mp haux).symm⟩
    | showMessage message colour now =>
      exact ⟨by rw [auxOf_other events (by simp)]; exact ih.aux, ih.recent⟩
    | update i => exact keeps_update ih i

/-- **What is drawn again when a message ends** looks like the most recent status if
    the colours are those of it, and, where it has no auxiliary text, no call with
    four arguments has left one behind. -/
theorem sameLook_kept_iff (area : List Drawing) (events : List Event) {s : Status}
    (hs : s ∈ (exec (step tft) { area } events).recent) :
    SameLook (exec (step tft) { area } events).kept s ↔
      (split s.status ≠ [] → (exec (step tft) { area } events).lastStatusColour = s.colour) ∧
      (s.auxStatus = [] → auxOf events = []) ∧
      (s.auxStatus ≠ [] →
        (exec (step tft) { area } events).lastAuxStatusColour = s.auxColour) := by
  have hkeeps : Keeps events (exec (step tft) { area } events) := keeps_run area events
  generalize exec (step tft) { area } events = d at hs hkeeps ⊢
  obtain ⟨hstatus, haux⟩ := hkeeps.recent s hs
  rw [← hkeeps.aux, ← hstatus]
  constructor
  · rintro ⟨-, hcolour, hempty, htext⟩
    refine ⟨hcolour, hempty.mpr, fun hne => ?_⟩
    exact (htext fun hnil => hne (hempty.mp hnil)).2
  · rintro ⟨hcolour, hempty, hauxColour⟩
    have hempty' : d.lastAuxStatus = [] → s.auxStatus = [] := by
      intro hnil
      by_contra hne
      exact hne ((haux hne).symm.trans hnil)
    refine ⟨congrArg (fun text => (split text).map cstr) hstatus, hcolour, ⟨hempty', hempty⟩,
      fun hne => ?_⟩
    have hne' : s.auxStatus ≠ [] := fun hnil => hne (hempty hnil)
    exact ⟨congrArg cstr (haux hne'), hauxColour hne'⟩

variable (tft)

/-- **When the area shows the most recent status**, whatever it shows at first. -/
theorem consistent_iff (area : List Drawing) (events : List Event) :
    (∀ pre, pre <+: events → Consistent tft (exec (step tft) { area } pre)) ↔
      Along (step tft) (Honest tft) { area } events :=
  (along_iff_prefixes (step tft) (Honest tft) (Consistent tft)
    (fun _ event h => consistent_step_iff h event) (fun _ s hs => by cases hs) events).symm

/-- A font in which each letter is 10 pixels wide. -/
def sampleTft : Tft where
  textWidth _ text := 10 * text.length
  mediumTextheight := 42

/-- The door is locked with a card forgotten, then open for a while; a card is
    swiped, and its message ends. -/
def forgottenCard : List Event :=
  [.setStatusAux ⟨str "Locked", TFT_ORANGE, str "Cards forgot in: lathe", TFT_RED⟩,
    .setStatus (str "Open for\n15 minutes") TFT_GREEN,
    .showMessage (str "Valid card swiped") TFT_WHITE 1700000000000000000,
    .update {
      now := 1700000010000000000
      current := 1700000010
      pageText := fun _ => []
      label := [] }]

theorem not_consistent : ¬ ∀ (tft : Tft) (area : List Drawing) (events pre : List Event),
    pre <+: events → Consistent tft (exec (step tft) { area } pre) := by
  intro h
  have hshown := h sampleTft [] forgottenCard forgottenCard List.prefix_rfl (by decide)
    ⟨str "Open for\n15 minutes", TFT_GREEN, [], TFT_BLACK⟩ rfl
  exact absurd hshown (by decide)

end Display

end Acs.Esp32
