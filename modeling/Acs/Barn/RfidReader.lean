/-
  Acs/Barn/RfidReader.lean
  ========================
  **The card reader of the barn doors** (`barn/src/rfidreader.py`).

  A thread sends `C` to the reader again and again and keeps the last card
  that was answered; the script takes it with `getid`.  The two share a lock, so
  a turn of the thread (`turn`) and `getid` are each one step.

  The answer is stripped before `ID` is cut off, not after it.  The blanks that
  the reader puts between `ID` and a number of less than ten digits are inside
  the text by then, and stay.
-/
import Acs.Backend.Text
import Acs.Opi.CardCache
import Acs.Reader.Console

namespace Acs.Barn

open Acs

/-- `bytes.decode("utf-8")`, `none` for a `UnicodeDecodeError`. -/
def decode (line : Bytes) : Option String := String.fromUTF8? line.toByteArray

/-- `Serial.read_until`: what has arrived up to the first newline, or all of it
    when the second is over without one.  The rest is left for the next read. -/
def readUntil : Bytes → Bytes × Bytes
  | [] => ([], [])
  | b :: buf =>
      if b = 10 then ([b], buf)
      else
        let (line, rest) := readUntil buf
        (b :: line, rest)

/-- What `read_id` makes of the line: stripped, and without `ID` in front. -/
def idOfLine (line : String) : String :=
  let line := Backend.Text.strip line
  if line.toList.take 2 = "ID".toList then .ofList (line.toList.drop 2) else line

/-- A microsecond is the unit of the times. -/
def second : Int := 1000000

/-- `ser` is what has arrived and was not read.  The thread is over when a turn of
    it has raised. -/
structure RfidReader where
  ser : Bytes := []
  tagId : String := ""
  last : Int
  alive : Bool := true
deriving DecidableEq

namespace RfidReader

/-- `read_id`, when `reply` has arrived after the `C`. -/
def readId (r : RfidReader) (reply : Bytes) : Option String × RfidReader :=
  let (line, rest) := readUntil (r.ser ++ reply)
  ((decode line).map idOfLine, { r with ser := rest })

/-- A turn of `run`. -/
def turn (r : RfidReader) (reply : Bytes) (now : Int) : RfidReader :=
  if r.alive then
    match r.readId reply with
    | (none, r) => { r with alive := false }
    | (some i, r) => if i.length > 0 then { r with tagId := i, last := now } else r
  else r

/-- `getid`: a card is given out once, and for 10 seconds. -/
def getid (r : RfidReader) (now : Int) : String × RfidReader :=
  if now - r.last < 10 * second then (r.tagId, { r with tagId := "" }) else ("", r)

end RfidReader

/-! ### Reading the answer of the reader -/

theorem readUntil_of_not_mem {line : Bytes} (h : 10 ∉ line) (rest : Bytes) :
    readUntil (line ++ 10 :: rest) = (line ++ [10], rest) := by
  induction line with
  | nil => rfl
  | cons b line ih =>
    rw [List.mem_cons, not_or] at h
    rw [List.cons_append, readUntil, if_neg (Ne.symm h.1), ih h.2]
    rfl

theorem decode_of_ascii {line : Bytes} (h : ∀ c ∈ line, c < 128) :
    decode line = some (text line) := by
  have hbytes : (text line).toByteArray = line.toByteArray := by
    have hstr := congrArg List.toByteArray (str_text h)
    rw [← hstr, str, text, String.toList_ofList]
    rfl
  rw [decode, ← hbytes, String.fromUTF8?, dif_pos (text line).isValidUTF8]
  rfl

theorem strip_line {s : String} {first last : Char} {middle : List Char}
    (hs : s.toList = first :: (middle ++ [last]) ++ ['\n'])
    (hfirst : Backend.Text.isSpace first = false) (hlast : Backend.Text.isSpace last = false) :
    (Backend.Text.strip s).toList = first :: (middle ++ [last]) := by
  have hnewline : Backend.Text.isSpace '\n' = true := by decide
  rw [Backend.Text.strip, String.toList_ofList, hs, Backend.Text.stripChars, List.cons_append,
    List.dropWhile_cons_of_neg (by simp [hfirst])]
  simp [hnewline, hlast]

theorem isSpace_digit {d : Nat} (hd : d < 16) :
    Backend.Text.isSpace (Char.ofUInt8 (Hex.digit d)) = false := by
  interval_cases d <;> decide

/-- The number stays filled with blanks. -/
theorem idOfLine_cardReply {id : RfidId} (hid : id.1 ≠ 0) :
    idOfLine (text (Reader.cardReply id)) = Opi.askedText id.1 := by
  obtain ⟨front, d, hd, hpad⟩ := Hex.exists_padSpace 10 id.1
  have hreply : (text (Reader.cardReply id)).toList =
      'I' :: (('D' :: front.map Char.ofUInt8) ++ [Char.ofUInt8 (Hex.digit d)]) ++ ['\n'] := by
    rw [Reader.cardReply_eq hid, Reader.cardText, hpad, text, String.toList_ofList]
    simp only [List.map_append, List.map_cons, List.map_nil, List.cons_append]
    rfl
  have hstrip := strip_line hreply (by decide) (isSpace_digit hd)
  have hprefixed : (Backend.Text.strip (text (Reader.cardReply id))).toList.take 2 =
      "ID".toList := by
    rw [hstrip]
    rfl
  rw [idOfLine, if_pos hprefixed, hstrip, Opi.askedText, hpad, text, List.map_append]
  rfl

theorem cardReply_lt (id : RfidId) : ∀ c ∈ Reader.cardReply id, c < 128 := by
  have hascii : ∀ c, isprint c ∨ c = 10 → c < 128 := by
    rintro c (hprint | rfl)
    · rw [isprint, Bool.and_eq_true, decide_eq_true_eq, decide_eq_true_eq] at hprint
      exact UInt8.lt_of_le_of_lt hprint.2 (by decide)
    · decide
  by_cases hid : id.1 = 0
  · have hall : (str "ID\n").all (· < 128) = true := by decide
    rw [Reader.cardReply, if_pos hid]
    exact fun c hc => of_decide_eq_true (List.all_eq_true.mp hall c hc)
  · intro c hc
    rw [Reader.cardReply_eq hid, List.mem_append] at hc
    rcases hc with hc | hc
    · exact hascii c (.inl (Reader.isprint_of_mem_cardText hc))
    · exact hascii c (.inr (List.mem_singleton.mp hc))

theorem exists_cardReply (id : RfidId) : ∃ line, 10 ∉ line ∧ Reader.cardReply id = line ++ [10] := by
  by_cases hid : id.1 = 0
  · exact ⟨str "ID", by decide, by rw [Reader.cardReply, if_pos hid]; rfl⟩
  · refine ⟨Reader.cardText id, ?_, Reader.cardReply_eq hid⟩
    intro h
    exact absurd (Reader.isprint_of_mem_cardText h) (by decide)

namespace RfidReader

/-- What `read_id` gives for the reader's answer to an empty port. -/
def shown (id : RfidId) : String := if id.1 = 0 then "" else Opi.askedText id.1

theorem readId_cardReply {r : RfidReader} (hser : r.ser = []) (id : RfidId) :
    r.readId (Reader.cardReply id) = (some (shown id), r) := by
  obtain ⟨line, hline, hreply⟩ := exists_cardReply id
  have huntil : readUntil (r.ser ++ Reader.cardReply id) = (Reader.cardReply id, []) := by
    rw [hser, List.nil_append, hreply, readUntil_of_not_mem hline]
  have hshown : idOfLine (text (Reader.cardReply id)) = shown id := by
    by_cases hid : id.1 = 0
    · rw [Reader.cardReply, if_pos hid, shown, if_pos hid]
      decide
    · rw [idOfLine_cardReply hid, shown, if_neg hid]
  rw [readId, huntil]
  dsimp only
  rw [decode_of_ascii (cardReply_lt id), Option.map_some, hshown, ← hser]

end RfidReader

end Acs.Barn
