/-
  Acs/Reader/AppMain.lean
  =======================
  **The main loop of the reader, and what its LEDs show** (`app_main`).

  Before it looks at the bytes that it has read, the loop watches the line: after
  a second without any it installs a pattern that says so, and the idle pattern
  when bytes come again.  The first it does with the mutex of `led.cpp`, the second
  without: `update_leds` may be called between two writes of
  `set_idle_led_pattern` (`IdleWrite`), and shows what is there by then.  A call
  that is cut in two by a write would be a data race and is left out.

  What the LEDs show is then one of a few signs, each with the calls of
  `update_leds` that it may lead to (`Sign.Plays`).  A pattern with `R` repeats is
  shown `R + 1` times, as `update_leds` counts them, and gives way to the idle
  pattern; nothing else changes a sign.
-/
import Acs.Reader.Commands
import Acs.Reader.LedPlayback

namespace Acs.Reader

open Acs CInt Decimal Runs

/-! ### The idle pattern, write by write -/

/-- The assignments of `set_idle_led_pattern` to what it shares with `update_leds`. -/
inductive IdleWrite where
  | index
  | period
  | repeats
  | iteration
  | element (i : Nat) (elem : Sequence)
  | length
deriving DecidableEq

/-- All of them but the last. -/
def setupWrites : List IdleWrite :=
  [.index, .period, .repeats, .iteration] ++ Leds.idleSequence.mapIdx .element

/-- The assignments in the order of the source. -/
def idleWrites : List IdleWrite := setupWrites ++ [.length]

namespace Leds

def write (s : Leds) : IdleWrite → Leds
  | .index => { s with sequenceIndex := 0 }
  | .period => { s with sequencePeriod := 1 }
  | .repeats => { s with sequenceRepeats := 0 }
  | .iteration => { s with sequenceIteration := 0 }
  | .element i elem => { s with sequence := s.sequence.setIfInBounds i elem }
  | .length => { s with sequenceLen := idleSequence.length }

def atIndex (s : Leds) (i : Nat) : Leds := { s with sequenceIndex := i }

theorem copy_concat (s : Leds) (seq : List Sequence) (elem : Sequence) :
    s.copy (seq ++ [elem]) = (s.copy seq).setIfInBounds seq.length elem := by
  apply Vector.ext
  intro i hi
  rw [Vector.getElem_setIfInBounds]
  simp only [copy, Vector.getElem_ofFn]
  rcases lt_trichotomy i seq.length with hlt | rfl | hgt
  · rw [if_neg hlt.ne', List.getD_append _ _ _ _ hlt]
  · rw [if_pos rfl, List.getD_append_right _ _ _ _ (Nat.le_refl _), Nat.sub_self]
    rfl
  · rw [if_neg hgt.ne, List.getD_eq_default, List.getD_eq_default _ _ hgt.le]
    rw [List.length_append, List.length_singleton]
    exact hgt

/-- The elements one by one are the sequence copied. -/
theorem exec_elements (s : Leds) (seq : List Sequence) :
    exec write s (seq.mapIdx .element) = { s with sequence := s.copy seq } := by
  induction seq using List.reverseRecOn with
  | nil =>
    have hcopy : s.copy [] = s.sequence := by
      apply Vector.ext
      intro i hi
      simp only [copy, Vector.getElem_ofFn, List.getD_nil]
      rfl
    rw [hcopy]
    rfl
  | append_singleton seq elem ih =>
    rw [List.mapIdx_append, exec_append, ih, copy_concat]
    show write _ (.element (0 + seq.length) elem) = _
    rw [Nat.zero_add]
    rfl

/-- **All the writes together are `set_idle_led_pattern`.** -/
theorem exec_idleWrites (s : Leds) : exec write s idleWrites = s.setIdleLedPattern := by
  rw [idleWrites, setupWrites, exec_append, exec_append, exec_elements]
  rfl

theorem write_atIndex (s : Leds) (i : Nat) (w : IdleWrite) :
    (s.atIndex i).write w = if w = .index then s.write w else (s.write w).atIndex i := by
  cases w <;> rfl

/-- Where the index is matters only when it is not written any more. -/
theorem exec_atIndex (s : Leds) (i : Nat) (todo : List IdleWrite) :
    exec write (s.atIndex i) todo =
      if .index ∈ todo then exec write s todo else (exec write s todo).atIndex i := by
  induction todo generalizing s with
  | nil => rfl
  | cons w todo ih =>
    rw [exec_cons, exec_cons, write_atIndex]
    by_cases hw : w = .index
    · rw [if_pos hw, if_pos (by rw [hw]; exact List.mem_cons_self)]
    · have hmem : IdleWrite.index ∈ w :: todo ↔ .index ∈ todo := by
        rw [List.mem_cons, or_iff_right (Ne.symm hw)]
      rw [if_neg hw, ih]
      simp only [hmem]

end Leds

/-! ### The watch over the line -/

def maxTicksWithoutReply : UInt32 := 1000

def noReplyPattern : Bytes := str "50R0SRG"

/-- The local variables of `app_main` for the watch; times are ticks. -/
structure Watch where
  lastReply : UInt32
  noReply : Bool := false
  lastNoReply : Bool := false
deriving DecidableEq

namespace Watch

/-- `bytes` bytes have been read. -/
def heard (w : Watch) (bytes : Nat) (now : UInt32) : Watch :=
  if bytes > 0 then { w with lastReply := now, noReply := false }
  else if now - w.lastReply > maxTicksWithoutReply then { w with noReply := true }
  else w

/-- The change of the pattern, if `no_reply` has changed: what has been done to the
    devices, and the writes that are to be made one by one. -/
def change (w : Watch) (d : Checked Field Devices) :
    Watch × Checked Field Devices × List IdleWrite :=
  if w.noReply ≠ w.lastNoReply then
    ({ w with lastNoReply := w.noReply },
      if w.noReply then ((perform (setPattern noReplyPattern) d).2, []) else (d, idleWrites))
  else (w, d, [])

end Watch

/-! ### Signs -/

/-- What has been put up: nothing since the start, the idle pattern, a pattern that
    was asked for, or the idle pattern as far as it has been written. -/
inductive Sign where
  | boot
  | idle
  | pattern (p : Pattern)
  | restoring
deriving DecidableEq, Repr

/-- The pattern of a line that is silent. -/
def Sign.noReply : Sign := .pattern { period := 50, repeats := 0, seq := [.red, .green] }

/-- One pass over the elements. -/
def passOf (seq : List Sequence) : List Call := seq.mapIdx .shown

def passesOf (seq : List Sequence) (n : Nat) : List Call := (List.replicate n (passOf seq)).flatten

/-- The first two elements, of the pattern for a silent line or of the idle pattern. -/
def restoringCalls : List Call := passOf [.red, .green] ++ passOf [.green, .none]

/-- The calls of a pattern that are not skipped, with `n` passes over what is
    repeated for ever; a pattern with `R` repeats is passed over `R + 1` times. -/
def Pattern.script (p : Pattern) (n : Nat) : List Call :=
  if p.repeats ≤ 0 then passesOf p.seq n
  else passesOf p.seq (p.repeats.toNat + 1) ++ [.idle] ++ passesOf Leds.idleSequence n

namespace Sign

/-- The calls are those that the sign may lead to.  The idle pattern may be taken up
    at its third element, where the pattern before it has ended. -/
def Plays : Sign → List Call → Prop
  | .boot, shown => ∃ n, shown <+: [.nothing, .idle] ++ passesOf Leds.idleSequence n
  | .idle, shown => ∃ i ≤ 2, ∃ n,
      shown <+: (passOf Leds.idleSequence).drop i ++ passesOf Leds.idleSequence n
  | .pattern p, shown => ∃ n, shown <+: p.script n
  | .restoring, shown => ∀ c ∈ shown, c ∈ restoringCalls

/-- The state when the sign has just been put up; `restoring` is not a state but
    several (`Restoring`). -/
def Fresh : Sign → Leds → Prop
  | .boot, s => s = {}
  | .idle, s => ∃ t : Leds, ∃ i ≤ 2, s = t.setIdleLedPattern.atIndex i
  | .pattern p, s => ∃ t : Leds, s = t.install p
  | .restoring, _ => False

/-- A pattern that is not empty and has room. -/
def Proper : Sign → Prop
  | .boot => True
  | .idle => True
  | .pattern p => 0 < p.seq.length ∧ p.seq.length ≤ maxSeqSize
  | .restoring => True

instance (sign : Sign) : Decidable sign.Proper := by
  cases sign <;> unfold Proper <;> infer_instance

end Sign

/-! ### One sign -/

namespace Leds

theorem length_idleSequence : idleSequence.length = 100 := by
  rw [LedTask.idleSequence_eq]
  rfl

theorem length_idleSequence_le : idleSequence.length ≤ maxSeqSize := by
  rw [length_idleSequence]
  decide

theorem installed_setIdleLedPattern (t : Leds) : t.setIdleLedPattern.Installed where
  index := rfl
  iteration := rfl
  lenLe := length_idleSequence_le

end Leds

namespace Sign

end Sign

/-! ### The calls since a sign was put up -/

/-- The calls `shown` have been made since the sign was put up. -/
def Playing (sign : Sign) (shown : List Call) (leds : Leds) : Prop :=
  ∃ s, sign.Fresh s ∧ shown = Leds.turns shown.length s ∧ leds = Leds.advanced shown.length s

theorem playing_of_fresh {sign : Sign} {leds : Leds} (h : sign.Fresh leds) :
    Playing sign [] leds := ⟨leds, h, rfl, rfl⟩

theorem Playing.advance {sign : Sign} {shown : List Call} {leds : Leds}
    (h : Playing sign shown leds) : Playing sign (shown ++ [leds.advance.2]) leds.advance.1 := by
  obtain ⟨s, hfresh, hshown, rfl⟩ := h
  refine ⟨s, hfresh, ?_, ?_⟩
  · rw [List.length_append, List.length_singleton, Leds.turns_add, ← hshown]
    rfl
  · rw [List.length_append, List.length_singleton, Leds.advanced_add]
    rfl

theorem Playing.updateLeds {sign : Sign} {shown : List Call} (task : LedTask)
    (h : Playing sign shown task.leds) :
    Playing sign (shown ++ task.updateLeds.2.toList) task.updateLeds.1.leds := by
  by_cases hskip : task.delayCounter + 1 < task.leds.sequencePeriod
  · rw [LedTask.updateLeds_skipped hskip, Option.toList_none, List.append_nil]
    exact h
  · rw [LedTask.updateLeds_taken hskip]
    exact h.advance

/-! ### Between the two patterns -/

/-- The pattern for a silent line is up, or part of the idle pattern instead of it. -/
structure Short (s : Leds) : Prop where
  index : s.sequenceIndex ≤ 2
  len : s.sequenceLen = 2
  repeats : s.sequenceRepeats ≤ 0
  calls : ∀ i < 2, .shown i (s.sequence.toList.getD i .red) ∈ restoringCalls

theorem Short.showNext {s : Leds} (hlen : s.sequenceLen = 2) (hindex : s.sequenceIndex < 2) :
    s.showNext = (s.atIndex (s.sequenceIndex + 1),
      .shown s.sequenceIndex (s.sequence.toList.getD s.sequenceIndex .red)) := by
  have hlt : s.sequenceIndex < s.sequenceLen := by
    rw [hlen]
    exact hindex
  rw [Leds.showNext, if_pos hlt]
  rfl

/-- A call shows one of the two elements that are there. -/
theorem Short.advance {s : Leds} (h : Short s) :
    ∃ i < 2, s.advance = (s.atIndex (i + 1), .shown i (s.sequence.toList.getD i .red)) := by
  rw [Leds.advance]
  by_cases hend : s.sequenceIndex ≥ s.sequenceLen
  · refine ⟨0, Nat.zero_lt_two, ?_⟩
    rw [if_pos hend]
    dsimp only
    rw [if_neg (not_lt.mpr h.repeats)]
    exact Short.showNext (s := s.atIndex 0) h.len Nat.zero_lt_two
  · have hlt : s.sequenceIndex < 2 := by
      rw [← h.len]
      exact not_le.mp hend
    refine ⟨s.sequenceIndex, hlt, ?_⟩
    rw [if_neg hend]
    exact Short.showNext h.len hlt

theorem Short.atIndex {s : Leds} (h : Short s) {i : Nat} (hi : i ≤ 2) : Short (s.atIndex i) :=
  ⟨hi, h.len, h.repeats, h.calls⟩

theorem Short.advanced {s : Leds} (h : Short s) (k : Nat) : Short (Leds.advanced k s) := by
  refine exec_invariant_of_forall (fun s (_ : Unit) => s.advance.1) (fun _ => True) Short ?_ h
    fun _ _ => trivial
  intro s _ hs _
  obtain ⟨i, hi, hadvance⟩ := hs.advance
  rw [hadvance]
  exact hs.atIndex hi

theorem short_install (t : Leds) :
    Short (t.install { period := 50, repeats := 0, seq := [.red, .green] }) where
  index := Nat.zero_le 2
  len := rfl
  repeats := Int.le_refl 0
  calls := by
    have htake : (t.copy [.red, .green]).toList.take [Sequence.red, .green].length =
        [.red, .green] := take_copy t (by decide)
    have hget : ∀ i < 2, (t.copy [.red, .green]).toList.getD i .red =
        [Sequence.red, .green].getD i .red := by
      intro i hi
      have hi' : i < [Sequence.red, .green].length := hi
      nth_rewrite 2 [← htake]
      rw [List.getD_eq_getElem?_getD, List.getD_eq_getElem?_getD, List.getElem?_take_of_lt hi']
    intro i hi
    show Call.shown i ((t.copy [.red, .green]).toList.getD i .red) ∈ restoringCalls
    rw [hget i hi]
    interval_cases i <;> decide

/-- Every write but the last leaves two elements. -/
theorem Short.write {s : Leds} (h : Short s) {w : IdleWrite} (hw : w ∈ setupWrites) :
    Short (s.write w) := by
  rw [setupWrites, List.mem_append, List.mem_mapIdx] at hw
  rcases hw with hfirst | ⟨j, hj, rfl⟩
  · have hcase : w = .index ∨ w = .period ∨ w = .repeats ∨ w = .iteration := by
      simpa using hfirst
    rcases hcase with rfl | rfl | rfl | rfl
    · exact ⟨Nat.zero_le 2, h.len, h.repeats, h.calls⟩
    · exact ⟨h.index, h.len, h.repeats, h.calls⟩
    · exact ⟨h.index, h.len, Int.le_refl 0, h.calls⟩
    · exact ⟨h.index, h.len, h.repeats, h.calls⟩
  · refine ⟨h.index, h.len, h.repeats, fun i hi => ?_⟩
    have hlen := Leds.length_idleSequence
    have hget : (s.sequence.setIfInBounds j Leds.idleSequence[j]).toList.getD i .red =
        if j = i then Leds.idleSequence[j] else s.sequence.toList.getD i .red := by
      have hi' : i < maxSeqSize := lt_trans hi (by decide)
      rw [List.getD_eq_getElem _ _ (by rwa [Vector.length_toList]),
        List.getD_eq_getElem _ _ (by rwa [Vector.length_toList]), Vector.getElem_toList,
        Vector.getElem_toList, Vector.getElem_setIfInBounds]
    show Call.shown i ((s.sequence.setIfInBounds j Leds.idleSequence[j]).toList.getD i .red) ∈ _
    rw [hget]
    by_cases hji : j = i
    · subst hji
      rw [if_pos rfl]
      simp only [LedTask.idleSequence_eq]
      interval_cases j
      · exact (by decide : Call.shown 0 .green ∈ restoringCalls)
      · exact (by decide : Call.shown 1 .none ∈ restoringCalls)
    · rw [if_neg hji]
      exact h.calls i hi

/-- `todo` are the writes that are to come. -/
structure Restoring (todo : List IdleWrite) (leds : Leds) : Prop where
  suffix : todo <:+ idleWrites
  short : Short leds
  /-- They lead to the idle pattern. -/
  leads : ∃ t : Leds, ∃ i ≤ 2, exec Leds.write leds todo = t.setIdleLedPattern.atIndex i

theorem restoring_idleWrites {leds : Leds} (h : Short leds) : Restoring idleWrites leds :=
  ⟨List.suffix_rfl, h, leds, 0, Nat.zero_le 2, Leds.exec_idleWrites leds⟩

theorem Restoring.write {w : IdleWrite} {todo : List IdleWrite} {leds : Leds}
    (h : Restoring (w :: todo) leds) (htodo : todo ≠ []) : Restoring todo (leds.write w) := by
  have hw : w ∈ setupWrites := by
    obtain ⟨pre, hpre⟩ := h.suffix
    obtain ⟨init, last, rfl⟩ := List.eq_nil_or_concat todo |>.resolve_left htodo
    rw [idleWrites, List.concat_eq_append, ← List.cons_append, ← List.append_assoc] at hpre
    obtain ⟨hsetup, -⟩ := List.append_inj' hpre rfl
    rw [← hsetup]
    exact List.mem_append_right _ List.mem_cons_self
  exact ⟨(List.suffix_cons w todo).trans h.suffix, h.short.write hw, h.leads⟩

/-- The last write puts up the idle pattern. -/
theorem Restoring.fresh {w : IdleWrite} {leds : Leds} (h : Restoring [w] leds) :
    Sign.idle.Fresh (leds.write w) := h.leads

theorem Restoring.advance {todo : List IdleWrite} {leds : Leds} (h : Restoring todo leds) :
    Restoring todo leds.advance.1 ∧ leds.advance.2 ∈ restoringCalls := by
  obtain ⟨i, hi, hadvance⟩ := h.short.advance
  rw [hadvance]
  refine ⟨⟨h.suffix, h.short.atIndex hi, ?_⟩, h.short.calls i hi⟩
  obtain ⟨t, j, hj, hleads⟩ := h.leads
  dsimp only
  rw [Leds.exec_atIndex]
  by_cases hmem : .index ∈ todo
  · rw [if_pos hmem]
    exact ⟨t, j, hj, hleads⟩
  · rw [if_neg hmem, hleads]
    exact ⟨t, i + 1, hi, rfl⟩

theorem Restoring.updateLeds {todo : List IdleWrite} (task : LedTask)
    (h : Restoring todo task.leds) :
    Restoring todo task.updateLeds.1.leds ∧ ∀ c ∈ task.updateLeds.2, c ∈ restoringCalls := by
  by_cases hskip : task.delayCounter + 1 < task.leds.sequencePeriod
  · rw [LedTask.updateLeds_skipped hskip]
    exact ⟨h, fun c hc => absurd hc (Option.not_mem_none c)⟩
  · rw [LedTask.updateLeds_taken hskip]
    refine ⟨h.advance.1, fun c hc => ?_⟩
    obtain rfl := Option.some.inj hc
    exact h.advance.2

/-- Where the pattern for a silent line is up, the writes may begin. -/
theorem Playing.short {shown : List Call} {leds : Leds} (h : Playing .noReply shown leds) :
    Short leds := by
  obtain ⟨s, ⟨t, rfl⟩, -, rfl⟩ := h
  exact (short_install t).advanced _

end Acs.Reader
