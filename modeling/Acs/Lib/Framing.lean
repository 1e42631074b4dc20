/-
  Acs/Lib/Framing.lean
  ====================
  **Lines over a channel of characters.**

  A sender writes lines, each with the character `e` behind it, into a channel
  that loses nothing.  A receiver takes one character at a time: it keeps those
  that do not end a line, and has a line when one comes that does.  The receiver
  may know more ends than the sender uses.

  `Carries` is what holds between what the receiver has kept, what is in flight
  and the lines that have not arrived yet; a character that is received leaves it
  as it is (`Carries.receive_other`) or completes the first of these lines
  (`Carries.receive_end`).
-/
import Mathlib.Data.List.Basic

namespace Framing

universe u

variable {α : Type u} {isEnd : α → Prop} {e : α}

/-- The lines as they are written. -/
def encode (e : α) (lines : List (List α)) : List α := (lines.map (· ++ [e])).flatten

@[simp] theorem encode_nil : encode e [] = [] := rfl

theorem encode_cons (line : List α) (lines : List (List α)) :
    encode e (line :: lines) = line ++ e :: encode e lines := by
  rw [encode, List.map_cons, List.flatten_cons, List.append_assoc]
  rfl

theorem encode_append (lines more : List (List α)) :
    encode e (lines ++ more) = encode e lines ++ encode e more := by
  rw [encode, List.map_append, List.flatten_append]
  rfl

/-- The receiver has kept `part`, `inFlight` has been written and not received,
    and `pending` are the lines that it makes up together with `part`. -/
structure Carries (isEnd : α → Prop) (e : α) (part inFlight : List α)
    (pending : List (List α)) : Prop where
  text : part ++ inFlight = encode e pending
  part : ∀ c ∈ part, ¬ isEnd c
  lines : ∀ line ∈ pending, ∀ c ∈ line, ¬ isEnd c

namespace Carries

variable {part inFlight rest : List α} {pending : List (List α)} {c : α}

/-- The sender writes more lines. -/
theorem write (h : Carries isEnd e part inFlight pending) {more : List (List α)}
    (hmore : ∀ line ∈ more, ∀ c ∈ line, ¬ isEnd c) :
    Carries isEnd e part (inFlight ++ encode e more) (pending ++ more) where
  text := by rw [← List.append_assoc, h.text, encode_append]
  part := h.part
  lines := List.forall_mem_append.mpr ⟨h.lines, hmore⟩

/-- What has been kept is the front of the first line. -/
theorem part_prefix {line : List α} (he : isEnd e)
    (h : Carries isEnd e part inFlight (line :: pending)) : part <+: line := by
  have htext := h.text
  rw [encode_cons] at htext
  rcases List.append_eq_append_iff.mp htext with ⟨mid, hline, -⟩ | ⟨mid, hpart, hmid⟩
  · exact ⟨mid, hline.symm⟩
  · cases mid with
    | nil => exact ⟨[], by rw [hpart, List.append_nil, List.append_nil]⟩
    | cons d mid =>
      -- the end of the line would have been kept
      obtain ⟨rfl, -⟩ := List.cons.inj hmid
      exact absurd he (h.part e (by rw [hpart]; simp))

/-- There is a first line, if there is a character in flight. -/
theorem exists_line (h : Carries isEnd e part (c :: rest) pending) :
    ∃ line more, pending = line :: more := by
  cases pending with
  | nil => exact absurd h.text (List.append_ne_nil_of_right_ne_nil _ (List.cons_ne_nil _ _))
  | cons line more => exact ⟨line, more, rfl⟩

/-- A character that ends a line completes the first one. -/
theorem receive_end (he : isEnd e) (hc : isEnd c)
    (h : Carries isEnd e part (c :: rest) pending) :
    ∃ more, pending = part :: more ∧ Carries isEnd e [] rest more := by
  obtain ⟨line, more, rfl⟩ := h.exists_line
  obtain ⟨mid, rfl⟩ := h.part_prefix he
  have htext := h.text
  rw [encode_cons, List.append_assoc, List.append_cancel_left_eq] at htext
  cases mid with
  | nil =>
    obtain ⟨-, hrest⟩ := List.cons.inj htext
    refine ⟨more, by rw [List.append_nil], hrest, fun _ h => absurd h List.not_mem_nil, ?_⟩
    intro line hline
    exact h.lines line (List.mem_cons_of_mem _ hline)
  | cons d mid =>
    -- the lines have no such character
    obtain ⟨rfl, -⟩ := List.cons.inj htext
    exact absurd hc (h.lines _ List.mem_cons_self c (by simp))

/-- A character that ends no line is kept. -/
theorem receive_other (hc : ¬ isEnd c) (h : Carries isEnd e part (c :: rest) pending) :
    Carries isEnd e (part ++ [c]) rest pending where
  text := by rw [List.append_assoc, List.singleton_append, h.text]
  part := by
    intro d hd
    rcases List.mem_append.mp hd with hd | hd
    · exact h.part d hd
    · rw [List.mem_singleton.mp hd]
      exact hc
  lines := h.lines

/-- What is kept is no longer than the longest line. -/
theorem length_part_le (he : isEnd e) (h : Carries isEnd e part inFlight pending) {n : Nat}
    (hn : ∀ line ∈ pending, line.length ≤ n) : part.length ≤ n := by
  cases pending with
  | nil =>
    have htext := h.text
    rw [encode_nil, List.append_eq_nil_iff] at htext
    rw [htext.1]
    exact Nat.zero_le n
  | cons line more =>
    exact Nat.le_trans (h.part_prefix he).length_le (hn line List.mem_cons_self)

end Carries

end Framing
