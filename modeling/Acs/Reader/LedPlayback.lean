/-
  Acs/Reader/LedPlayback.lean
  ===========================
  **LED patterns: the playback** (`update_leds`).

  The task calls `update_leds` every ten milliseconds; all but every `period`th
  call are skipped.  At the end of the sequence `sequence_iteration` is compared
  with `sequence_repeats` before the pass that has just ended is counted, so a
  pattern with `R` repeats is shown `R + 1` times (`turns_repeats`), and what is
  asked for is shown exactly for the patterns that repeat for ever (`plays_iff`).
-/
import Acs.Lib.Run
import Acs.Reader.Led

namespace Acs.Reader

open Acs CInt Decimal Runs

/-! ### One call -/

/-- What a call that is not skipped does: it shows an element, or nothing, or goes
    back to the idle pattern with both LEDs off. -/
inductive Call where
  | shown (index : Nat) (elem : Sequence)
  | nothing
  | idle
deriving DecidableEq, Repr

/-- The duties of the red and of the green LED, as they are set. -/
def Call.duties (pwmMax : Int) : Call → Option (Int × Int)
  | .shown _ .red => some (pwmMax, 0)
  | .shown _ .green => some (0, pwmMax)
  | .shown _ .both => some (pwmMax, pwmMax)
  | .shown _ .none => some (0, 0)
  | .nothing => none
  | .idle => some (0, 0)

/-- No duty is above the brightness that has been set. -/
theorem duties_le {pwmMax red green : Int} (h : 0 ≤ pwmMax) {call : Call}
    (hduties : call.duties pwmMax = some (red, green)) :
    (0 ≤ red ∧ red ≤ pwmMax) ∧ 0 ≤ green ∧ green ≤ pwmMax := by
  cases call with
  | nothing => exact absurd hduties (by simp [Call.duties])
  | idle =>
    obtain ⟨rfl, rfl⟩ := Prod.mk.inj (Option.some.inj hduties)
    omega
  | shown index elem =>
    cases elem <;>
      · obtain ⟨rfl, rfl⟩ := Prod.mk.inj (Option.some.inj hduties)
        omega

namespace Leds

/-- P10R0SGX99N. -/
def idleSequence : List Sequence := (fillSeq [.green] 99 .none).value.getD []

def setIdleLedPattern (s : Leds) : Leds :=
  { sequenceIndex := 0
    sequencePeriod := 1
    sequenceRepeats := 0
    sequenceIteration := 0
    sequence := s.copy idleSequence
    sequenceLen := idleSequence.length }

/-- The second half of `update_leds`. -/
def showNext (s : Leds) : Leds × Call :=
  if s.sequenceIndex < s.sequenceLen then
    ({ s with sequenceIndex := s.sequenceIndex + 1 },
      .shown s.sequenceIndex (s.sequence.toList.getD s.sequenceIndex .red))
  else (s, .nothing)

/-- `update_leds` when it is not skipped. -/
def advance (s : Leds) : Leds × Call :=
  if s.sequenceIndex ≥ s.sequenceLen then
    let s := { s with sequenceIndex := 0 }
    if s.sequenceRepeats > 0 then
      if s.sequenceIteration ≥ s.sequenceRepeats then
        (setIdleLedPattern { s with sequenceLen := 0 }, .idle)
      else showNext { s with sequenceIteration := s.sequenceIteration + 1 }
    else showNext s
  else showNext s

end Leds

/-- The pattern, with the static `delay_counter` of `update_leds`. -/
structure LedTask where
  leds : Leds
  delayCounter : Int := 0

namespace LedTask

def updateLeds (s : LedTask) : LedTask × Option Call :=
  let delayCounter := s.delayCounter + 1
  if delayCounter < s.leds.sequencePeriod then ({ s with delayCounter }, none)
  else ({ leds := s.leds.advance.1, delayCounter := 0 }, some s.leds.advance.2)

/-- `n` calls, one after the other. -/
def after (n : Nat) (s : LedTask) : LedTask :=
  exec (fun s (_ : Unit) => s.updateLeds.1) s (List.replicate n ())

/-- What those of them do that are not skipped. -/
def results (n : Nat) (s : LedTask) : List Call :=
  emitted (fun s (_ : Unit) => s.updateLeds.1) (fun s _ => s.updateLeds.2.toList) s
    (List.replicate n ())

end LedTask

/-! ### What a pattern asks for -/

namespace Leds

/-- The elements of the pattern. -/
def pattern (s : Leds) : List Sequence := s.sequence.toList.take s.sequenceLen

/-- One pass over the pattern. -/
def pass (s : Leds) : List Call := s.pattern.mapIdx .shown

def passes (s : Leds) (m : Nat) : List Call := (List.replicate m s.pass).flatten

end Leds

/-- The calls show the pattern as often as it asks for, then the idle pattern is
    installed, or for ever if it asks for zero repeats.  All reads are inside the
    sequence, and calls that are not skipped keep coming. -/
structure LedTask.Plays (s : LedTask) : Prop where
  inRange : ∀ n i elem, (s.after n).updateLeds.2 = some (.shown i elem) →
    i < (s.after n).leds.sequenceLen
  repeated : 1 ≤ s.leds.sequenceRepeats → ∀ n,
    s.results n <+: s.leds.passes s.leds.sequenceRepeats.toNat ++ [.idle] ∨
      s.leds.passes s.leds.sequenceRepeats.toNat ++ [.idle] <+: s.results n
  forever : s.leds.sequenceRepeats = 0 → ∀ n, ∃ m, s.results n <+: s.leds.passes m
  progress : ∀ k, ∃ n, (s.results n).length = k

/-! ### Turns -/

namespace Leds

/-- `k` calls that are not skipped. -/
def advanced (k : Nat) (s : Leds) : Leds :=
  exec (fun s (_ : Unit) => s.advance.1) s (List.replicate k ())

def turns (k : Nat) (s : Leds) : List Call :=
  emitted (fun s (_ : Unit) => s.advance.1) (fun s _ => [s.advance.2]) s (List.replicate k ())

theorem turns_succ (k : Nat) (s : Leds) : turns (k + 1) s = s.advance.2 :: turns k s.advance.1 :=
  rfl

theorem advanced_succ (k : Nat) (s : Leds) : advanced (k + 1) s = advanced k s.advance.1 := rfl

theorem turns_add (j k : Nat) (s : Leds) : turns (j + k) s = turns j s ++ turns k (advanced j s) := by
  rw [turns, List.replicate_add, emitted_append]
  rfl

theorem advanced_add (j k : Nat) (s : Leds) : advanced (j + k) s = advanced k (advanced j s) := by
  rw [advanced, List.replicate_add, exec_append]
  rfl

theorem turns_prefix {j k : Nat} (h : j ≤ k) (s : Leds) : turns j s <+: turns k s := by
  obtain ⟨i, rfl⟩ := Nat.exists_eq_add_of_le h
  rw [turns_add]
  exact List.prefix_append _ _

/-! ### One pass -/

/-- The state at an element of the pattern. -/
def position (s : Leds) (index : Nat) (iteration : Int) : Leds :=
  { s with sequenceIndex := index, sequenceIteration := iteration }

variable {s : Leds}

theorem length_pass (hle : s.sequenceLen ≤ maxSeqSize) : s.pass.length = s.sequenceLen := by
  rw [pass, List.length_mapIdx, pattern, List.length_take, Vector.length_toList]
  omega

theorem passes_succ (s : Leds) (m : Nat) : s.passes (m + 1) = s.pass ++ s.passes m := by
  rw [passes, List.replicate_succ, List.flatten_cons, passes]

theorem passes_succ' (s : Leds) (m : Nat) : s.passes (m + 1) = s.passes m ++ s.pass := by
  rw [passes, List.replicate_succ', List.flatten_append, List.flatten_singleton, passes]

theorem length_passes (hle : s.sequenceLen ≤ maxSeqSize) (m : Nat) :
    (s.passes m).length = m * s.sequenceLen := by
  rw [passes, List.length_flatten, List.map_replicate, List.sum_replicate, length_pass hle]
  rfl

theorem advance_position {i : Nat} (hi : i < s.sequenceLen) (it : Int) :
    (s.position i it).advance =
      (s.position (i + 1) it, .shown i (s.sequence.toList.getD i .red)) := by
  have hlt : ¬ (s.position i it).sequenceIndex ≥ (s.position i it).sequenceLen := not_le.mpr hi
  rw [advance, if_neg hlt, showNext, if_pos (not_le.mp hlt)]
  rfl

/-- At the end of a pass the next one begins, as long as there are repeats left. -/
theorem advance_again {it : Int} (hmore : s.sequenceRepeats ≤ 0 ∨ it < s.sequenceRepeats) :
    (s.position s.sequenceLen it).advance =
      (s.position 0 (if 0 < s.sequenceRepeats then it + 1 else it)).showNext := by
  have hend : (s.position s.sequenceLen it).sequenceIndex ≥
      (s.position s.sequenceLen it).sequenceLen := Nat.le_refl _
  rw [advance, if_pos hend]
  by_cases hpos : 0 < s.sequenceRepeats
  · have hpos' : (s.position s.sequenceLen it).sequenceRepeats > 0 := hpos
    have hless : ¬ (s.position s.sequenceLen it).sequenceIteration ≥
        (s.position s.sequenceLen it).sequenceRepeats := by
      rw [position]
      dsimp only
      omega
    simp only [if_pos hpos', if_neg hless, if_pos hpos]
    rfl
  · have hpos' : ¬ (s.position s.sequenceLen it).sequenceRepeats > 0 := hpos
    simp only [if_neg hpos', if_neg hpos]
    rfl

theorem showNext_eq_advance (hlen : 0 < s.sequenceLen) (it : Int) :
    (s.position 0 it).showNext = (s.position 0 it).advance := by
  rw [advance_position hlen, showNext, if_pos (show (s.position 0 it).sequenceIndex <
    (s.position 0 it).sequenceLen from hlen)]
  rfl

/-- The elements from `i` on, one turn each. -/
theorem turns_position (hle : s.sequenceLen ≤ maxSeqSize) {i j : Nat}
    (hij : i + j ≤ s.sequenceLen) (it : Int) :
    turns j (s.position i it) = (s.pass.drop i).take j ∧
      advanced j (s.position i it) = s.position (i + j) it := by
  induction j generalizing i with
  | zero => exact ⟨by rw [List.take_zero]; rfl, rfl⟩
  | succ j ih =>
    have hi : i < s.sequenceLen := by omega
    have hpass : i < s.pass.length := by rwa [length_pass hle]
    have helem : s.pass[i] = .shown i (s.sequence.toList.getD i .red) := by
      simp only [pass, pattern, List.getElem_mapIdx, List.getElem_take]
      congr 1
      exact (List.getD_eq_getElem _ _ _).symm
    obtain ⟨hturns, hadvanced⟩ := ih (i := i + 1) (by omega)
    rw [turns_succ, advanced_succ, advance_position hi, hturns, hadvanced]
    constructor
    · rw [List.drop_eq_getElem_cons hpass, List.take_succ_cons, helem]
    · rw [Nat.add_right_comm, Nat.add_assoc]

/-- At the end of a pass there is no difference to the beginning of the next one. -/
theorem turns_again (hlen : 0 < s.sequenceLen) {it : Int} {k : Nat} (hk : 0 < k)
    (hmore : s.sequenceRepeats ≤ 0 ∨ it < s.sequenceRepeats) :
    turns k (s.position s.sequenceLen it) =
        turns k (s.position 0 (if 0 < s.sequenceRepeats then it + 1 else it)) ∧
      advanced k (s.position s.sequenceLen it) =
        advanced k (s.position 0 (if 0 < s.sequenceRepeats then it + 1 else it)) := by
  obtain ⟨k, rfl⟩ := Nat.exists_eq_succ_of_ne_zero hk.ne'
  have hsame := advance_again hmore
  rw [showNext_eq_advance hlen] at hsame
  rw [Nat.succ_eq_add_one, turns_succ, turns_succ, advanced_succ, advanced_succ, hsame]
  exact ⟨rfl, rfl⟩

/-- **A number of passes**, as long as there are repeats left for them. -/
theorem turns_passes (hle : s.sequenceLen ≤ maxSeqSize) (hlen : 0 < s.sequenceLen) (m : Nat)
    (it : Int) (hmore : s.sequenceRepeats ≤ 0 ∨ it + m ≤ s.sequenceRepeats) :
    turns ((m + 1) * s.sequenceLen) (s.position 0 it) = s.passes (m + 1) ∧
      advanced ((m + 1) * s.sequenceLen) (s.position 0 it) =
        s.position s.sequenceLen (if 0 < s.sequenceRepeats then it + m else it) := by
  induction m generalizing it with
  | zero =>
    obtain ⟨hfirst, hend⟩ := turns_position (i := 0) (j := s.sequenceLen) hle (by omega) it
    rw [List.drop_zero, List.take_of_length_le (length_pass hle).le] at hfirst
    rw [Nat.zero_add, Nat.one_mul, hfirst, hend, passes_succ, Nat.zero_add]
    simp [passes]
  | succ m ih =>
    obtain ⟨hfirst, hend⟩ := turns_position (i := 0) (j := s.sequenceLen) hle (by omega) it
    rw [List.drop_zero, List.take_of_length_le (length_pass hle).le] at hfirst
    rw [Nat.zero_add] at hend
    have hpos : 0 < (m + 1) * s.sequenceLen := Nat.mul_pos (Nat.succ_pos m) hlen
    obtain ⟨hturns, hadvanced⟩ := turns_again hlen hpos
      (hmore.imp_right fun h => by omega : s.sequenceRepeats ≤ 0 ∨ it < s.sequenceRepeats)
    obtain ⟨hrest, hlast⟩ := ih (if 0 < s.sequenceRepeats then it + 1 else it) (by
      rcases hmore with h | h
      · exact .inl h
      · split <;> omega)
    have hsplit : (m + 1 + 1) * s.sequenceLen = s.sequenceLen + (m + 1) * s.sequenceLen := by
      rw [Nat.succ_mul (m + 1), Nat.add_comm]
    rw [hsplit, turns_add, advanced_add, hend, hfirst, hturns, hadvanced, hrest, hlast,
      passes_succ s (m + 1)]
    refine ⟨rfl, ?_⟩
    congr 1
    split <;> omega

/-- A state in which a pattern has just been installed. -/
structure Installed (s : Leds) : Prop where
  index : s.sequenceIndex = 0
  iteration : s.sequenceIteration = 0
  lenLe : s.sequenceLen ≤ maxSeqSize

theorem Installed.position_eq (h : s.Installed) : s.position 0 0 = s := by
  rw [position, ← h.index, ← h.iteration]

/-- A pattern with zero repeats is shown for ever. -/
theorem turns_forever (h : s.Installed) (hlen : 0 < s.sequenceLen)
    (hrepeats : s.sequenceRepeats ≤ 0) (k : Nat) : turns k s <+: s.passes (k + 1) := by
  obtain ⟨hturns, -⟩ := turns_passes h.lenLe hlen k 0 (.inl hrepeats)
  rw [h.position_eq] at hturns
  rw [← hturns]
  apply turns_prefix
  calc k ≤ k + 1 := Nat.le_succ k
    _ ≤ (k + 1) * s.sequenceLen := Nat.le_mul_of_pos_right _ hlen

end Leds

/-! ### Calls that are skipped -/

namespace LedTask

variable {s : LedTask}

theorem updateLeds_skipped (h : s.delayCounter + 1 < s.leds.sequencePeriod) :
    s.updateLeds = ({ s with delayCounter := s.delayCounter + 1 }, none) :=
  if_pos h

theorem updateLeds_taken (h : ¬ s.delayCounter + 1 < s.leds.sequencePeriod) :
    s.updateLeds = ({ leds := s.leds.advance.1, delayCounter := 0 }, some s.leds.advance.2) :=
  if_neg h

theorem results_succ (n : Nat) (s : LedTask) :
    s.results (n + 1) = s.updateLeds.2.toList ++ (s.updateLeds.1).results n := rfl

/-- The calls take turns on the pattern, whichever of them are skipped. -/
theorem results_eq_turns (n : Nat) (s : LedTask) :
    s.results n = s.leds.turns (s.results n).length := by
  induction n generalizing s with
  | zero => rfl
  | succ n ih =>
    by_cases hskip : s.delayCounter + 1 < s.leds.sequencePeriod
    · rw [results_succ, updateLeds_skipped hskip]
      exact ih _
    · rw [results_succ, updateLeds_taken hskip, Option.toList_some, List.singleton_append,
        List.length_cons, Leds.turns_succ, ← ih]

/-- Sooner or later a call is not skipped. -/
theorem exists_results_succ (s : LedTask) :
    ∃ n call, ∃ t : LedTask, ∀ m, s.results (n + 1 + m) = call :: t.results m := by
  obtain ⟨d, hd⟩ : ∃ d : Nat, s.leds.sequencePeriod - s.delayCounter ≤ d :=
    ⟨_, Int.self_le_toNat _⟩
  induction d generalizing s with
  | zero =>
    refine ⟨0, s.leds.advance.2, { leds := s.leds.advance.1 }, fun m => ?_⟩
    rw [Nat.zero_add, Nat.add_comm, results_succ, updateLeds_taken (by omega)]
    rfl
  | succ d ih =>
    by_cases hskip : s.delayCounter + 1 < s.leds.sequencePeriod
    · obtain ⟨n, call, t, hrest⟩ :=
        ih { s with delayCounter := s.delayCounter + 1 } (by dsimp only; omega)
      refine ⟨n + 1, call, t, fun m => ?_⟩
      rw [Nat.add_right_comm, results_succ, updateLeds_skipped hskip]
      exact hrest m
    · refine ⟨0, s.leds.advance.2, { leds := s.leds.advance.1 }, fun m => ?_⟩
      rw [Nat.zero_add, Nat.add_comm, results_succ, updateLeds_taken hskip]
      rfl

theorem exists_length_results (k : Nat) (s : LedTask) : ∃ n, (s.results n).length = k := by
  induction k generalizing s with
  | zero => exact ⟨0, rfl⟩
  | succ k ih =>
    obtain ⟨n, call, t, hrest⟩ := exists_results_succ s
    obtain ⟨m, hm⟩ := ih t
    exact ⟨n + 1 + m, by rw [hrest, List.length_cons, hm]⟩

/-! ### What is asked for, and what is shown -/

theorem shown_lt {i : Nat} {elem : Sequence} (h : s.updateLeds.2 = some (.shown i elem)) :
    i < s.leds.sequenceLen := by
  by_cases hskip : s.delayCounter + 1 < s.leds.sequencePeriod
  · rw [updateLeds_skipped hskip] at h
    exact absurd h (by simp)
  · rw [updateLeds_taken hskip] at h
    have hcall := Option.some.inj h
    have hnext : ∀ t : Leds, t.showNext.2 = .shown i elem → i < t.sequenceLen := by
      intro t ht
      rw [Leds.showNext] at ht
      split at ht
      next hlt =>
        obtain ⟨rfl, -⟩ := Call.shown.inj ht
        exact hlt
      next => exact absurd ht (by simp)
    rw [Leds.advance] at hcall
    split at hcall
    · dsimp only at hcall
      split at hcall
      · split at hcall
        · exact absurd hcall (by simp)
        · have hlt := hnext _ hcall
          exact hlt
      · have hlt := hnext _ hcall
        exact hlt
    · exact hnext _ hcall

/-- **A pattern that repeats is not shown as often as it asks for.** -/
theorem not_plays_of_pos (h : s.leds.Installed) (hlen : 0 < s.leds.sequenceLen)
    (hpos : 0 < s.leds.sequenceRepeats) : ¬ s.Plays := by
  intro hplays
  obtain ⟨r, hr⟩ : ∃ r : Nat, s.leds.sequenceRepeats = r := ⟨_, (Int.toNat_of_nonneg hpos.le).symm⟩
  have hr0 : 0 < r := by omega
  obtain ⟨n, hn⟩ := hplays.progress (r * s.leds.sequenceLen + 1)
  -- the turn at which the idle pattern should be installed is one of those of one more pass
  have hasked : s.results n = s.leds.passes r ++ [.idle] := by
    have hlength : (s.leds.passes r ++ [Call.idle]).length = (s.results n).length := by
      rw [List.length_append, Leds.length_passes h.lenLe, hn, List.length_singleton]
    rcases hplays.repeated (by omega) n with hpre | hpre
    · rw [hr, Int.toNat_natCast] at hpre
      exact hpre.eq_of_length hlength.symm
    · rw [hr, Int.toNat_natCast] at hpre
      exact (hpre.eq_of_length hlength).symm
  have hshown : s.results n <+: s.leds.passes r ++ s.leds.pass := by
    rw [results_eq_turns, hn, ← Leds.passes_succ']
    obtain ⟨hturns, -⟩ := Leds.turns_passes h.lenLe hlen r 0 (.inr (by rw [hr]; omega))
    rw [h.position_eq] at hturns
    rw [← hturns]
    apply Leds.turns_prefix
    rw [Nat.succ_mul]
    omega
  rw [hasked, List.prefix_append_right_inj] at hshown
  have hmem : Call.idle ∈ s.leds.pass := hshown.subset (List.mem_singleton_self _)
  rw [Leds.pass, List.mem_mapIdx] at hmem
  obtain ⟨i, hi, hidle⟩ := hmem
  exact absurd hidle (by simp)

theorem plays_of_nonpos (h : s.leds.Installed) (hlen : 0 < s.leds.sequenceLen)
    (hrepeats : s.leds.sequenceRepeats ≤ 0) : s.Plays where
  inRange := fun _ _ _ hcall => shown_lt hcall
  repeated := fun hpos => absurd hpos (by omega)
  forever := fun _ n => by
    refine ⟨(s.results n).length + 1, ?_⟩
    rw [results_eq_turns]
    nth_rewrite 2 [← results_eq_turns]
    exact Leds.turns_forever h hlen hrepeats _
  progress := fun k => exists_length_results k s

theorem installed_setLedPattern {line : Bytes} {s : Leds}
    (h : (setLedPattern line s).value.1 = true) : (setLedPattern line s).value.2.Installed := by
  rw [value_setLedPattern] at h ⊢
  split at h
  next => exact absurd h (by simp)
  next p hp => exact ⟨rfl, rfl, length_parsePattern_le hp⟩

/-- **Which patterns are shown as they ask for**: those that repeat for ever. -/
theorem plays_iff {line : Bytes} {s : Leds} (h : (setLedPattern line s).value.1 = true)
    (hlen : 0 < (setLedPattern line s).value.2.sequenceLen) (delayCounter : Int) :
    Plays { leds := (setLedPattern line s).value.2, delayCounter } ↔
      (setLedPattern line s).value.2.sequenceRepeats ≤ 0 := by
  have hinstalled := installed_setLedPattern h
  constructor
  · intro hplays
    by_contra hpos
    exact not_plays_of_pos hinstalled hlen (not_le.mp hpos) hplays
  · intro hrepeats
    exact plays_of_nonpos hinstalled hlen hrepeats

theorem plays_iff_sample :
    Plays { leds := (setLedPattern (str "200R0SGRN") {}).value.2, delayCounter := 7 } ∧
      ¬ Plays { leds := (setLedPattern (str "200R3SGX2N") {}).value.2, delayCounter := 7 } := by
  constructor
  · rw [plays_iff (by decide +kernel) (by decide +kernel)]
    decide +kernel
  · rw [plays_iff (by decide +kernel) (by decide +kernel)]
    decide +kernel

/-- A single flash is asked for, and two are shown. -/
theorem not_plays :
    ¬ Plays { leds := (setLedPattern (str "100R1SG") {}).value.2 } :=
  not_plays_of_pos (installed_setLedPattern (by decide +kernel)) (by decide +kernel)
    (by decide +kernel)

/-! ### The array -/

/-- Another task gives a line to `set_led_pattern`, or `update_leds` is called. -/
inductive Event where
  | setLedPattern (line : Bytes)
  | updateLeds

def step (s : LedTask) : Event → LedTask
  | .setLedPattern line => { s with leds := (Reader.setLedPattern line s.leds).value.2 }
  | .updateLeds => s.updateLeds.1

theorem idleSequence_eq : Leds.idleSequence = .green :: List.replicate 99 .none := by
  have h := value_fillSeq .none (n := 99) (by decide)
    (by decide : [Sequence.green].length ≤ maxSeqSize)
  rw [if_pos (by decide)] at h
  rw [Leds.idleSequence]
  exact congrArg (Option.getD · []) h

theorem sequenceLen_showNext (s : Leds) : s.showNext.1.sequenceLen = s.sequenceLen := by
  rw [Leds.showNext]
  split <;> rfl

theorem sequenceLen_advance_le (s : Leds) (h : s.sequenceLen ≤ maxSeqSize) :
    s.advance.1.sequenceLen ≤ maxSeqSize := by
  have hidle : ∀ t : Leds, t.setIdleLedPattern.sequenceLen ≤ maxSeqSize := by
    intro t
    rw [Leds.setIdleLedPattern, idleSequence_eq]
    exact (by decide : 1 + 99 ≤ maxSeqSize)
  rw [Leds.advance]
  split
  · dsimp only
    split
    · split
      · exact hidle _
      · rw [sequenceLen_showNext]
        exact h
    · rw [sequenceLen_showNext]
      exact h
  · rw [sequenceLen_showNext]
    exact h

/-- **The sequence stays inside its array**, whatever lines come and whenever the
    task is called; so do all reads, which are below `sequence_len`. -/
theorem sequenceLen_run_le {s : LedTask} (h : s.leds.sequenceLen ≤ maxSeqSize)
    (events : List Event) : (exec step s events).leds.sequenceLen ≤ maxSeqSize := by
  refine exec_invariant_of_forall step (fun _ => True)
    (fun s => s.leds.sequenceLen ≤ maxSeqSize) ?_ h (fun _ _ => trivial)
  intro s e hs _
  cases e with
  | setLedPattern line =>
    rw [step, value_setLedPattern]
    dsimp only
    split
    next => exact hs
    next p hp => exact length_parsePattern_le hp
  | updateLeds =>
    rw [step]
    by_cases hskip : s.delayCounter + 1 < s.leds.sequencePeriod
    · rw [updateLeds_skipped hskip]
      exact hs
    · rw [updateLeds_taken hskip]
      exact sequenceLen_advance_le _ hs

end LedTask

end Acs.Reader
