/-
  Acs/Opi/Strip.lean
  ==================
  **`util::strip`, and the replies that are compared with its result**
  (`opi/util.cpp`, `display.cpp`, `serial.cpp`).

  `strip` looks for the first character that is not white space, and then takes
  one step back.  So one white-space character in front of a text stays with it
  (`strip_cases`); a text with none in front, or with nothing else in it, is
  stripped as it should be.

  A reply of the display with white space in front is therefore taken for an
  error, and a port that echoes a command with a blank in front is not found.  The
  names of the devices are searched for, and found all the same (`device_strip`).
-/
import Acs.Bytes
import Acs.Lib.Trim

namespace Acs.Opi

open Acs Trim
open Hex (isspace)

/-! ### `strip` -/

def strip (s : Bytes) : Bytes :=
  let i := (s.takeWhile isspace).length
  let i := if i > 0 then i - 1 else i
  (s.drop i).rdropWhile isspace

/-- The text without the white space around it. -/
def bare (s : Bytes) : Bytes := trim isspace s

theorem strip_of_head {s : Bytes} (h : ∀ c ∈ s.head?, isspace c = false) : strip s = bare s := by
  rw [strip, takeWhile_of_head h, bare, trim, dropWhile_of_head h]
  rfl

/-- The last of the white-space characters in front stays. -/
theorem strip_of_blanks {blanks s : Bytes} {c : UInt8} (hblanks : ∀ b ∈ blanks, isspace b = true)
    (hc : isspace c = true) (hs : ∀ b ∈ s.head?, isspace b = false) :
    strip (blanks ++ c :: s) = (c :: s).rdropWhile isspace := by
  have htake : ((blanks ++ c :: s).takeWhile isspace).length = blanks.length + 1 := by
    rw [List.takeWhile_append_of_pos hblanks, List.takeWhile_cons_of_pos hc, takeWhile_of_head hs,
      List.length_append, List.length_singleton]
  rw [strip, htake]
  simp

theorem bare_of_blanks {blanks s : Bytes} {c : UInt8} (hblanks : ∀ b ∈ blanks, isspace b = true)
    (hc : isspace c = true) (hs : ∀ b ∈ s.head?, isspace b = false) :
    bare (blanks ++ c :: s) = s.rdropWhile isspace := by
  have hall : ∀ b ∈ blanks ++ [c], isspace b = true :=
    List.forall_mem_append.mpr ⟨hblanks, List.forall_mem_singleton.mpr hc⟩
  rw [bare, trim, List.append_cons, Hex.dropWhile_isspace_append hall hs]

/-- No text behind white space. -/
def NothingInFront (s : Bytes) : Prop :=
  (∀ c ∈ s.head?, isspace c = false) ∨ ∀ c ∈ s, isspace c = true

/-- A text starts with another character, or with white space of which the last
    character is `c`. -/
theorem front_cases (s : Bytes) :
    (∀ c ∈ s.head?, isspace c = false) ∨
      ∃ blanks c rest, s = blanks ++ c :: rest ∧ (∀ b ∈ blanks, isspace b = true) ∧
        isspace c = true ∧ ∀ b ∈ rest.head?, isspace b = false := by
  have hsplit : s.takeWhile isspace ++ s.dropWhile isspace = s := List.takeWhile_append_dropWhile
  have hfront : ∀ b ∈ s.takeWhile isspace, isspace b = true := fun b => List.mem_takeWhile_imp
  have hrest : ∀ b ∈ (s.dropWhile isspace).head?, isspace b = false := head_dropWhile
  rcases List.eq_nil_or_concat (s.takeWhile isspace) with hnil | ⟨blanks, c, hconcat⟩
  · rw [hnil, List.nil_append] at hsplit
    rw [hsplit] at hrest
    exact .inl hrest
  · rw [List.concat_eq_append] at hconcat
    rw [hconcat] at hsplit hfront
    rw [← List.append_cons] at hsplit
    refine .inr ⟨blanks, c, s.dropWhile isspace, hsplit.symm, ?_, ?_, hrest⟩
    · exact fun b hb => hfront b (List.mem_append_left _ hb)
    · exact hfront c (List.mem_append_right _ (List.mem_singleton.mpr rfl))

/-- **What `strip` leaves**: the bare text, or that with a white-space character in
    front of it. -/
theorem strip_cases (s : Bytes) :
    (NothingInFront s ∧ strip s = bare s) ∨
      (¬ NothingInFront s ∧ ∃ c, isspace c = true ∧ strip s = c :: bare s) := by
  rcases front_cases s with hhead | ⟨blanks, c, rest, rfl, hblanks, hc, hrest⟩
  · exact .inl ⟨.inl hhead, strip_of_head hhead⟩
  rw [strip_of_blanks hblanks hc hrest, bare_of_blanks hblanks hc hrest]
  cases rest with
  | nil =>
    left
    constructor
    · exact .inr (List.forall_mem_append.mpr ⟨hblanks, List.forall_mem_singleton.mpr hc⟩)
    · rw [List.rdropWhile_singleton, if_pos hc, List.rdropWhile_nil]
  | cons b rest =>
    have hb : isspace b = false := hrest b rfl
    refine .inr ⟨?_, c, hc, rdropWhile_cons ?_⟩
    · rintro (hhead | hall)
      · cases blanks with
        | nil => cases hc.symm.trans (hhead c rfl)
        | cons d blanks => cases (hblanks d List.mem_cons_self).symm.trans (hhead d rfl)
      · cases hb.symm.trans (hall b (by simp))
    · rw [Ne, List.rdropWhile_eq_nil_iff]
      intro hall
      cases hb.symm.trans (hall b List.mem_cons_self)

theorem strip_eq_bare_iff {s : Bytes} : strip s = bare s ↔ NothingInFront s := by
  rcases strip_cases s with ⟨hnothing, hstrip⟩ | ⟨hblank, c, _, hstrip⟩
  · exact iff_of_true hstrip hnothing
  · refine iff_of_false ?_ hblank
    rw [hstrip]
    exact List.cons_ne_self c (bare s)

/-! ### `Display::get_reply` -/

/-- One turn of the loop, for a function that strips a line: nothing for a debug
    line, an empty one or the echo of the command, or else the reply, with whether
    it is logged as an error. -/
def turn (strip : Bytes → Bytes) (cmd line : Bytes) : Option (Bytes × Bool) :=
  if line.take 5 = str "DEBUG" then none
  else
    let line := strip line
    if line = [] ∨ line = cmd then none else some (line, decide (line ≠ str "OK"))

/-- `get_reply`, for the lines that arrive; `none` while it waits. -/
def getReply (strip : Bytes → Bytes) (cmd : Bytes) (lines : List Bytes) : Option (Bytes × Bool) :=
  lines.findSome? (turn strip cmd)

theorem turn_congr {line : Bytes} (h : strip line = bare line) (cmd : Bytes) :
    turn strip cmd line = turn bare cmd line := by
  rw [turn, turn, h]

/-- A reply with white space in front is logged as an error, whatever it says, unless
    the command starts with white space as well. -/
theorem turn_of_blanks {s : Bytes} (h : ¬ NothingInFront s) (cmd : Bytes) :
    ∃ c, isspace c = true ∧ turn strip cmd s =
      if c :: bare s = cmd then none else some (c :: bare s, true) := by
  rcases strip_cases s with ⟨hnothing, _⟩ | ⟨_, c, hc, hstrip⟩
  · exact absurd hnothing h
  refine ⟨c, hc, ?_⟩
  have hdebug : s.take 5 ≠ str "DEBUG" := by
    intro hdebug
    apply h
    left
    intro d hd
    cases s with
    | nil => cases hd
    | cons e s =>
      obtain rfl := Option.some.inj hd
      rw [List.take_succ_cons] at hdebug
      rw [(List.cons.inj hdebug).1]
      rfl
  have hok : c :: bare s ≠ str "OK" := by
    intro hok
    rw [(List.cons.inj hok).1] at hc
    cases hc
  rw [turn, if_neg hdebug, hstrip]
  simp [hok]

example : getReply strip (str "C") [str "C\n", str " OK\n"] = some (str " OK", true) := by decide

/-! ### `detect_port` -/

inductive Device where
  | display
  | cardreader
deriving DecidableEq

/-- The line is the echo of the command. -/
def IsEcho (strip : Bytes → Bytes) (line : Bytes) : Prop := stripNp (strip line) = str "V"

instance (strip : Bytes → Bytes) (line : Bytes) : Decidable (IsEcho strip line) :=
  inferInstanceAs (Decidable (_ = _))

theorem echo_congr {line : Bytes} (h : strip line = bare line) :
    IsEcho strip line ↔ IsEcho bare line := by
  rw [IsEcho, IsEcho, h]

/-- The device that a line names. -/
def device (strip : Bytes → Bytes) (line : Bytes) : Option Device :=
  let reply := stripNp (strip line)
  if str "ACS" <:+: reply then
    if str "display" <:+: reply then some .display
    else if str "cardreader" <:+: reply then some .cardreader
    else none
  else none

/-- The last line that was read, and the next one. -/
def detectPort (strip : Bytes → Bytes) (line next : Bytes) : Option Device :=
  if IsEcho strip line then device strip next else device strip line

theorem infix_cons_of_head {α : Type} {c : α} {word s : List α} (hne : word ≠ [])
    (hhead : c ∉ word.head?) : word <:+: c :: s ↔ word <:+: s := by
  rw [List.infix_cons_iff]
  apply or_iff_right
  intro hprefix
  cases word with
  | nil => exact hne rfl
  | cons d word =>
    obtain ⟨rfl, _⟩ := List.cons_prefix_cons.mp hprefix
    exact hhead rfl

/-- A name that starts with another character is found or not behind white space. -/
theorem infix_stripNp_cons {c : UInt8} {word s : Bytes} (hne : word ≠ []) (hhead : c ∉ word.head?) :
    word <:+: stripNp (c :: s) ↔ word <:+: stripNp s := by
  rw [stripNp, List.filter_cons]
  split
  next => exact infix_cons_of_head hne hhead
  next => exact Iff.rfl

/-- **The names of the devices** are found all the same. -/
theorem device_strip (s : Bytes) : device strip s = device bare s := by
  rcases strip_cases s with ⟨_, hstrip⟩ | ⟨_, c, hc, hstrip⟩
  · rw [device, device, hstrip]
  · have hother : ∀ d : UInt8, isspace d = false → c ≠ d := by
      rintro d hd rfl
      cases hc.symm.trans hd
    have hA : c ∉ (str "ACS").head? := fun h => hother 65 rfl (Option.some.inj h).symm
    have hd : c ∉ (str "display").head? := fun h => hother 100 rfl (Option.some.inj h).symm
    have hcr : c ∉ (str "cardreader").head? := fun h => hother 99 rfl (Option.some.inj h).symm
    rw [device, device, hstrip]
    simp only [infix_stripNp_cons (by decide : str "ACS" ≠ []) hA,
      infix_stripNp_cons (by decide : str "display" ≠ []) hd,
      infix_stripNp_cons (by decide : str "cardreader" ≠ []) hcr]

/-! ### The law of `strip` -/

/-- `strip` leaves the longest part of `s` with no white space at its ends, and a
    reply `s` is compared as its bare text. -/
structure Strips (s : Bytes) : Prop where
  longest : IsTrimmed isspace s (strip s)
  turn_eq : ∀ cmd, turn strip cmd s = turn bare cmd s
  echo_iff : IsEcho strip s ↔ IsEcho bare s
  device_eq : device strip s = device bare s

/-- `strip` does what it is documented to do exactly where there is no text behind
    white space. -/
theorem strips_iff (s : Bytes) : Strips s ↔ NothingInFront s := by
  rw [← strip_eq_bare_iff]
  constructor
  · intro hstrips
    exact isTrimmed_iff.mp hstrips.longest
  · intro hstrip
    exact ⟨isTrimmed_iff.mpr hstrip, turn_congr hstrip, echo_congr hstrip, device_strip s⟩

/-- A reply with a blank in front. -/
theorem not_strips : ¬ ∀ s : Bytes, Strips s := by
  intro hstrips
  have hhead := (hstrips (str " OK")).longest.bare.head 32 (by decide)
  cases hhead

/-- Lines with nothing in front of them are read as their bare texts. -/
theorem getReply_eq {lines : List Bytes} (h : ∀ line ∈ lines, NothingInFront line) (cmd : Bytes) :
    getReply strip cmd lines = getReply bare cmd lines := by
  induction lines with
  | nil => rfl
  | cons line lines ih =>
    rw [List.forall_mem_cons] at h
    have hline := turn_congr (strip_eq_bare_iff.mpr h.1) cmd
    have hrest := ih h.2
    rw [getReply, getReply] at hrest ⊢
    rw [List.findSome?_cons, List.findSome?_cons, hline, hrest]

theorem detectPort_eq {line : Bytes} (h : NothingInFront line) (next : Bytes) :
    detectPort strip line next = detectPort bare line next := by
  have hecho := echo_congr (strip_eq_bare_iff.mpr h)
  rw [detectPort, detectPort, device_strip, device_strip]
  simp only [hecho]

end Acs.Opi
