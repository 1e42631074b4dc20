/-
  Acs/Lib/Scroll.lean
  ===================
  **A log that scrolls.**

  A log with room for a number of entries drops its oldest one where a new one
  would not fit (`push`).  After any number of entries it holds the latest of
  them, `List.rtake` (`exec_push`).
-/
import Mathlib.Data.List.DropRight
import Acs.Lib.Run

namespace Scroll

open Runs

universe u

variable {α : Type u}

/-- One more entry; without room for it, the oldest one goes. -/
def push (room : Nat) (log : List α) (entry : α) : List α := (log ++ [entry]).rtake room

theorem rtake_of_length_le {room : Nat} {log : List α} (h : log.length ≤ room) :
    log.rtake room = log := by
  rw [List.rtake, Nat.sub_eq_zero_of_le h, List.drop_zero]

theorem push_of_lt {room : Nat} {log : List α} (h : log.length < room) (entry : α) :
    push room log entry = log ++ [entry] := by
  apply rtake_of_length_le
  rw [List.length_append, List.length_singleton]
  exact h

theorem push_of_eq {room : Nat} {log : List α} (h : log.length = room) (entry : α) :
    push room log entry = (log ++ [entry]).tail := by
  have hone : log.length + 1 - room = 1 := by omega
  rw [push, List.rtake, List.length_append, List.length_singleton, hone, List.drop_one]

theorem length_push_le (room : Nat) (log : List α) (entry : α) :
    (push room log entry).length ≤ room := by
  rw [push, List.rtake, List.length_drop]
  omega

/-- What a log holds of its latest entries does not depend on those before. -/
theorem push_rtake (room : Nat) (log : List α) (entry : α) :
    push room (log.rtake room) entry = push room log entry := by
  cases room with
  | zero => rw [push, push, List.rtake_zero, List.rtake_zero]
  | succ room =>
    have hshort : (log.rtake (room + 1)).rtake room = log.rtake room := by
      rw [List.rtake_eq_reverse_take_reverse, List.rtake_eq_reverse_take_reverse (n := room + 1),
        List.reverse_reverse, List.take_take, Nat.min_eq_left (Nat.le_succ room),
        List.rtake_eq_reverse_take_reverse]
    rw [push, push, List.rtake_concat_succ, List.rtake_concat_succ, hshort]

/-- **The log after a run** holds the latest entries. -/
theorem exec_push (room : Nat) (entries : List α) :
    exec (push room) [] entries = entries.rtake room := by
  induction entries using List.reverseRecOn with
  | nil => rw [exec_nil, List.rtake_nil]
  | append_singleton entries entry ih => rw [exec_snoc, ih, push_rtake, push]

end Scroll
