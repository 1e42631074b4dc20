/-
  Acs/Reader/Commands.lean
  ========================
  **The commands of the reader that compute** (`console.cpp`, `buzzer.cpp`).

  `play_sound`, `set_led_intensity` and `set_led_pattern` read their numbers from
  the line and compute with them.  None of them looks at how long a number is,
  and `beep` divides by the frequency it is given.  What a line must not ask for
  is stated on the text alone (`LineOk`); lines that keep to it cause no fault,
  are read exactly, and leave the brightness in the range of the PWM
  (`arithmetic_run`).
-/
import Acs.Reader.Console
import Acs.Reader.Led
import Acs.Lib.Run

namespace Acs.Reader

open Acs CInt Decimal Runs

/-! ### The commands -/

/-- The variables of `buzzer.cpp`. -/
structure Buzzer where
  beepDuration : Int := 0
  beepInterval : Int := 0
  beepDurationLeft : Int := 0
  beepIntervalLeft : Int := 0
deriving DecidableEq

structure Devices where
  buzzer : Buzzer := {}
  leds : Leds := {}
  pwmMax : Int := 64

def beep (freq duration : Int) : Checked Field Buzzer := do
  let beepInterval ← div 4000 freq
  let beepDuration ← result (duration * 8)
  pure
    { beepInterval
      beepIntervalLeft := beepInterval
      beepDuration
      beepDurationLeft := beepDuration }

def skipBlanks (line : Bytes) : Bytes := line.dropWhile (· = ' '.toUInt8)

/-- `get_int`; it moves the index behind the digits. -/
def getInt (line : Bytes) : Checked Field (Option Int) := parseInt (skipBlanks line)

def afterInt (line : Bytes) : Bytes := after (skipBlanks line)

def playSound (line : Bytes) (d : Devices) : Checked Field (Bool × Devices) := do
  match ← getInt line with
  | none => pure (false, d)
  | some frequency =>
    match ← getInt (afterInt line) with
    | none => pure (false, d)
    | some duration =>
      let buzzer ← beep frequency duration
      pure (true, { d with buzzer })

/-- `static_cast<int>(intensity/100.0*1023)`.  No quotient of an `int` by 100 comes
    so close to the next integer that the rounding of the `double` matters. -/
def pwmOf (intensity : Int) : Checked Field Int := result ((intensity * 1023).tdiv 100)

def setLedIntensity (line : Bytes) (d : Devices) : Checked Field (Bool × Devices) := do
  match ← getInt line with
  | none => pure (false, d)
  | some intensity =>
    if intensity > 100 then pure (false, d)
    else
      let pwmMax ← pwmOf intensity
      pure (true, { d with pwmMax })

def setPattern (line : Bytes) (d : Devices) : Checked Field (Bool × Devices) := do
  let (ok, leds) ← setLedPattern line d.leds
  pure (ok, { d with leds })

/-- A command, after all that has gone before. -/
def perform (command : Devices → Checked Field (Bool × Devices)) (d : Checked Field Devices) :
    Bool × Checked Field Devices :=
  ((d >>= command).value.1, Prod.snd <$> (d >>= command))

def commands : Commands (Checked Field Devices) where
  playSound line := perform (playSound line)
  setLedIntensity line := perform (setLedIntensity line)
  setLedPattern line := perform (setPattern line)

/-- The reader, with all faults and all fields so far. -/
abbrev Console := State (Checked Field Devices)

namespace Console

def start : Console := { devices := pure {} }

def step (s : Console) (line : Bytes) : Console := (handleLine commands line s).2

def run (lines : List Bytes) : Console := exec step start lines

end Console

/-- The lines cause no fault; each field is used with its value, or the line is
    answered with an error; and the brightness stays in the range of the PWM. -/
structure Arithmetic (lines : List Bytes) : Prop where
  faults : (Console.run lines).devices.faults = []
  fields : ∀ before line, before ++ [line] <+: lines → ∃ fields,
    (Console.run (before ++ [line])).devices.notes =
        (Console.run before).devices.notes ++ fields ∧
      ((∀ f ∈ fields, f.Exact) ∨
        (handleLine commands line (Console.run before)).1 = str "ERROR\n")
  pwmMax : ∀ before, before <+: lines →
    0 ≤ (Console.run before).devices.value.pwmMax ∧
      (Console.run before).devices.value.pwmMax ≤ 1023

/-! ### What a line may ask for -/

/-- The number at the front of a text. -/
def field (line : Bytes) : Option Nat :=
  if leading line = [] then none else some (number (leading line))

/-- The number can be read without overflow. -/
def Small (n : Nat) : Prop := n < 2147483600

instance (n : Nat) : Decidable (Small n) := inferInstanceAs (Decidable (_ < _))

def SoundOk (line : Bytes) : Prop :=
  ∀ frequency ∈ field (skipBlanks line), Small frequency ∧
    ∀ duration ∈ field (skipBlanks (afterInt line)),
      Small duration ∧ frequency ≠ 0 ∧ duration * 8 < 2147483648

instance (line : Bytes) : Decidable (SoundOk line) := inferInstanceAs (Decidable (∀ _ ∈ _, _))

def IntensityOk (line : Bytes) : Prop := ∀ n ∈ field (skipBlanks line), Small n

/-- `n` is a number that the parser of patterns comes to: what is in front of it is
    in the format. -/
inductive Reaches : Bytes → Nat → Prop where
  | period {line : Bytes} {n : Nat} (h : field line = some n) : Reaches line n
  | repeats {ps line : Bytes} {r : UInt8} {period n : Nat} (hps : Spells ps period)
      (hpos : 0 < period) (hr : tolower r = 'r'.toUInt8) (h : field line = some n) :
      Reaches (ps ++ r :: line) n
  | times {ps rs items line : Bytes} {r s x : UInt8} {period repeats n : Nat}
      {seq : List Sequence} (hps : Spells ps period) (hpos : 0 < period)
      (hr : tolower r = 'r'.toUInt8) (hrs : Spells rs repeats) (hs : tolower s = 's'.toUInt8)
      (hitems : Items 0 items seq) (hfree : seq.length < maxSeqSize)
      (hx : tolower x = 'x'.toUInt8) (h : field line = some n) :
      Reaches (ps ++ r :: (rs ++ s :: (items ++ x :: line))) n

def PatternOk (line : Bytes) : Prop := ∀ n, Reaches (cstr line) n → Small n

/-- All numbers that are read are small, the frequency is not zero, and the
    duration has a product with 8. -/
def LineOk : Bytes → Prop
  | [] => True
  | ch :: line =>
    ([ch] = str "s" ∨ [ch] = str "S" → SoundOk line) ∧
    ([ch] = str "i" ∨ [ch] = str "I" → IntensityOk line) ∧
    ([ch] = str "p" ∨ [ch] = str "P" → PatternOk line)

/-! ### Reading a number -/

theorem parseInt_of_small (line : Bytes) (h : ∀ n, field line = some n → Small n) :
    (parseInt line).Safe ∧ (parseInt line).value = (field line).map Int.ofNat := by
  have hvalue := value_parseInt line
  rw [field] at h ⊢
  split at h
  next hnil =>
    rw [hvalue, if_pos hnil, if_pos hnil, parseInt_eq, if_pos hnil]
    exact ⟨Checked.safe_pure _, rfl⟩
  next hne =>
    have hsmall : number (leading line) < 2147483600 := h _ rfl
    rw [hvalue, if_neg hne, if_neg hne, wrap_eq_self (by constructor <;> omega), parseInt_eq,
      if_neg hne]
    exact ⟨Checked.safe_bind.mpr ⟨(safe_read _).mpr hsmall, Checked.safe_pure _⟩, rfl⟩

theorem faithful_parseInt (line : Bytes) : Faithful (parseInt line) := by
  rw [parseInt_eq]
  split
  · exact faithful_pure _
  · exact faithful_bind (faithful_read line) (faithful_pure _)

/-! ### The pattern -/

theorem safe_fillLoop (elem : Sequence) {n : Nat} (hn : n < 2147483648) (room : Nat)
    (seq : List Sequence) : (fillLoop elem room n seq).Safe := by
  have hfits : Fits ((n : Int) - 1) := by constructor <;> omega
  induction room generalizing n seq with
  | zero =>
    rw [fillLoop, Checked.safe_bind, safe_result]
    exact ⟨hfits, Checked.safe_pure _⟩
  | succ room ih =>
    rw [fillLoop, Checked.safe_bind, safe_result]
    refine ⟨hfits, ?_⟩
    rw [value_result, wrap_eq_self hfits]
    split
    next => exact Checked.safe_pure _
    next hne =>
      have hpred : (n : Int) - 1 = ((n - 1 : Nat) : Int) := by omega
      rw [hpred]
      exact ih (by omega) _ (by constructor <;> omega)

theorem faithful_fillLoop (elem : Sequence) (room : Nat) (reps : Int) (seq : List Sequence) :
    Faithful (fillLoop elem room reps seq) := by
  induction room generalizing reps seq with
  | zero => exact faithful_bind (faithful_result _) (faithful_pure _)
  | succ room ih =>
    rw [fillLoop]
    apply faithful_bind (faithful_result _)
    split
    · exact faithful_pure _
    · exact ih _ _

/-- A number that has been read is a field in front of the rest. -/
theorem spells_of_field {line : Bytes} {n : Nat} (h : field line = some n) :
    Spells (leading line) n := by
  rw [field] at h
  split at h
  next => exact absurd h (by simp)
  next hne => exact Option.some.inj h ▸ spells_leading hne

/-- `n` is a number of repeats that the loop comes to, behind `k` elements. -/
def ItemsReach (k : Nat) (line : Bytes) (n : Nat) : Prop :=
  ∃ items x rest more, line = items ++ x :: rest ∧ Items k items more ∧
    k + more.length < maxSeqSize ∧ tolower x = 'x'.toUInt8 ∧ field rest = some n

theorem ItemsReach.here {k n : Nat} {c : UInt8} {line : Bytes} (hfree : k < maxSeqSize)
    (hx : tolower c = 'x'.toUInt8) (hfield : field line = some n) : ItemsReach k (c :: line) n :=
  ⟨[], c, line, [], rfl, Items.nil k, hfree, hx, hfield⟩

theorem ItemsReach.cons {k n : Nat} {item rest : Bytes} {es : List Sequence}
    (hfree : k < maxSeqSize) (hitem : Item item es) (hroom : k + es.length ≤ maxSeqSize)
    (h : ItemsReach (k + es.length) rest n) : ItemsReach k (item ++ rest) n := by
  obtain ⟨items, x, rest', more, rfl, hitems, hmore, hx, hfield⟩ := h
  refine ⟨item ++ items, x, rest', es ++ more, by rw [List.append_assoc],
    Items.cons hfree hitem hroom hitems, ?_, hx, hfield⟩
  rw [List.length_append]
  omega

/-- The items behind `seq` are read without a fault, if every number that the loop
    comes to is small. -/
theorem safe_parseItems {seq : List Sequence} {line : Bytes} (hseq : seq.length ≤ maxSeqSize)
    (h : ∀ n, ItemsReach seq.length line n → Small n) : (parseItems seq line).Safe := by
  induction seq, line using parseItems.induct with
  | case1 seq =>
    rw [parseItems]
    exact Checked.safe_pure _
  | case2 seq c line hfull =>
    rw [parseItems, if_pos hfull]
    exact Checked.safe_pure _
  | case3 seq c line hfull hx ih =>
    have hfree : seq.length < maxSeqSize := by omega
    obtain ⟨hsafe, hvalue⟩ := parseInt_of_small line fun n hn => h n (.here hfree hx hn)
    rw [parseItems, if_neg hfull, if_pos hx, Checked.safe_bind, and_iff_right hsafe, hvalue]
    cases hfield : field line with
    | none => exact Checked.safe_pure _
    | some n =>
      dsimp only [Option.map_some]
      split
      next => exact Checked.safe_pure _
      next d rest hafter =>
        split
        next => exact Checked.safe_pure _
        next elem helem =>
          have hsmall : n < 2147483600 := h n (.here hfree hx hfield)
          have hn : n < 2147483648 := by omega
          rw [Checked.safe_bind, Int.ofNat_eq_natCast]
          refine ⟨safe_fillLoop elem hn _ _, ?_⟩
          rw [value_fillSeq elem hn hseq]
          split_ifs with hroom
          case neg => exact Checked.safe_pure _
          case pos =>
            have hitem : Item (c :: (leading line ++ [d])) (List.replicate n elem) :=
              .times hx (spells_of_field hfield) helem
            have hreps : seq.length + (List.replicate n elem).length ≤ maxSeqSize := by
              rwa [List.length_replicate]
            have hlength : (seq ++ List.replicate n elem).length ≤ maxSeqSize := by
              rwa [List.length_append]
            refine ih d rest hafter _ hlength ?_
            intro m hm
            rw [List.length_append] at hm
            have hreach := ItemsReach.cons hfree hitem hreps hm
            rw [times_append hafter] at hreach
            exact h m hreach
  | case4 seq c line hfull hx helem =>
    rw [parseItems, if_neg hfull, if_neg hx, helem]
    exact Checked.safe_pure _
  | case5 seq c line hfull hx elem helem ih =>
    have hfree : seq.length < maxSeqSize := by omega
    have hlength : (seq ++ [elem]).length = seq.length + 1 := List.length_append
    rw [parseItems, if_neg hfull, if_neg hx, helem]
    refine ih (by omega) ?_
    intro m hm
    rw [hlength] at hm
    exact h m (ItemsReach.cons hfree (Item.single helem) hfree hm)

theorem faithful_parseItems (seq : List Sequence) (line : Bytes) :
    Faithful (parseItems seq line) := by
  induction seq, line using parseItems.induct with
  | case1 seq =>
    rw [parseItems]
    exact faithful_pure _
  | case2 seq c line hfull =>
    rw [parseItems, if_pos hfull]
    exact faithful_pure _
  | case3 seq c line hfull hx ih =>
    rw [parseItems, if_neg hfull, if_pos hx]
    apply faithful_bind (faithful_parseInt line)
    split
    next => exact faithful_pure _
    next =>
      split
      next => exact faithful_pure _
      next d rest hafter =>
        split
        next => exact faithful_pure _
        next =>
          apply faithful_bind (faithful_fillLoop _ _ _ _)
          split
          next => exact faithful_pure _
          next seq' _ => exact ih d rest hafter seq'
  | case4 seq c line hfull hx helem =>
    rw [parseItems, if_neg hfull, if_neg hx, helem]
    exact faithful_pure _
  | case5 seq c line hfull hx elem helem ih =>
    rw [parseItems, if_neg hfull, if_neg hx, helem]
    exact ih

theorem safe_parsePattern {line : Bytes} (h : ∀ n, Reaches line n → Small n) :
    (parsePattern line).Safe := by
  obtain ⟨hsafe, hvalue⟩ := parseInt_of_small _ fun n hn => h n (.period hn)
  rw [parsePattern, Checked.safe_bind, and_iff_right hsafe, hvalue]
  cases hperiod : field line with
  | none => exact Checked.safe_pure _
  | some period =>
    dsimp only [Option.map_some]
    split
    next => exact Checked.safe_pure _
    next hpos =>
      have hpos : 0 < period := by
        rw [Int.ofNat_eq_natCast] at hpos
        omega
      have hps := spells_of_field hperiod
      split
      next => exact Checked.safe_pure _
      next r rest hafter =>
        have hline : line = leading line ++ r :: rest := by rw [← hafter, leading_append_after]
        split
        next => exact Checked.safe_pure _
        next hr =>
          obtain ⟨hsafe', hvalue'⟩ := parseInt_of_small rest fun n hn =>
            h n (hline ▸ .repeats hps hpos (not_not.mp hr) hn)
          rw [Checked.safe_bind, and_iff_right hsafe', hvalue']
          cases hrepeats : field rest with
          | none => exact Checked.safe_pure _
          | some repeats =>
            dsimp only [Option.map_some]
            have hrs := spells_of_field hrepeats
            split
            next => exact Checked.safe_pure _
            next s items hafter' =>
              have hrest : rest = leading rest ++ s :: items := by
                rw [← hafter', leading_append_after]
              split
              next => exact Checked.safe_pure _
              next hs =>
                rw [Checked.safe_bind]
                constructor
                · refine safe_parseItems (Nat.zero_le _) ?_
                  rintro n ⟨before, x, rest', more, hitems, hbefore, hfree, hx, hn⟩
                  rw [hitems] at hrest
                  rw [hrest] at hline
                  rw [List.length_nil, Nat.zero_add] at hfree
                  exact h n (hline ▸ .times hps hpos (not_not.mp hr) hrs (not_not.mp hs) hbefore
                    hfree hx hn)
                · split <;> exact Checked.safe_pure _

theorem faithful_parsePattern (line : Bytes) : Faithful (parsePattern line) := by
  rw [parsePattern]
  apply faithful_bind (faithful_parseInt line)
  split
  · exact faithful_pure _
  · split
    · exact faithful_pure _
    · split
      · exact faithful_pure _
      · split
        · exact faithful_pure _
        · apply faithful_bind (faithful_parseInt _)
          split
          · exact faithful_pure _
          · split
            · exact faithful_pure _
            · split
              · exact faithful_pure _
              · apply faithful_bind (faithful_parseItems _ _)
                split <;> exact faithful_pure _

/-! ### One command -/

/-- A command that causes no fault, reads its fields exactly, and keeps the
    brightness in the range. -/
structure Proper (d : Devices) (x : Checked Field (Bool × Devices)) : Prop where
  safe : x.Safe
  exactly : ∀ f ∈ x.notes, f.Exact
  pwmMax : 0 ≤ d.pwmMax ∧ d.pwmMax ≤ 1023 → 0 ≤ x.value.2.pwmMax ∧ x.value.2.pwmMax ≤ 1023

theorem proper_pure {d d' : Devices} (ok : Bool) (h : d'.pwmMax = d.pwmMax) :
    Proper d (pure (ok, d')) where
  safe := Checked.safe_pure _
  exactly := fun _ hf => absurd hf List.not_mem_nil
  pwmMax := fun hd => by
    rw [Checked.value_pure, h]
    exact hd

/-- What comes before does not touch the devices: it only must not fault. -/
theorem proper_bind {α : Type} {d : Devices} {x : Checked Field α}
    {f : α → Checked Field (Bool × Devices)} (hsafe : x.Safe) (hfaithful : Faithful x)
    (hf : Proper d (f x.value)) : Proper d (x >>= f) where
  safe := Checked.safe_bind.mpr ⟨hsafe, hf.safe⟩
  exactly := by
    intro n hn
    rw [Checked.notes_bind, List.mem_append] at hn
    rcases hn with hn | hn
    · exact hfaithful hsafe n hn
    · exact hf.exactly n hn
  pwmMax := hf.pwmMax

theorem proper_setPattern {line : Bytes} (h : PatternOk line) (d : Devices) :
    Proper d (setPattern line d) := by
  have hset : (setLedPattern line d.leds).Safe := by
    rw [setLedPattern, Checked.safe_bind]
    refine ⟨safe_parsePattern h, ?_⟩
    split <;> exact Checked.safe_pure _
  have hfaithful : Faithful (setLedPattern line d.leds) := by
    rw [setLedPattern]
    apply faithful_bind (faithful_parsePattern _)
    split <;> exact faithful_pure _
  exact proper_bind hset hfaithful (proper_pure _ rfl)

theorem faithful_beep (freq duration : Int) : Faithful (beep freq duration) := by
  apply faithful_of_notes
  rw [beep, Checked.notes_bind, Checked.notes_bind]
  rw [div]
  split <;> rfl

/-- `beep` is safe for a frequency and a duration that are not too large. -/
theorem safe_beep {freq duration : Nat} (hfreq : freq ≠ 0) (hduration : duration * 8 < 2147483648) :
    (beep freq duration).Safe := by
  have hquotient : (4000 : Int).tdiv freq = 4000 / freq :=
    Int.tdiv_eq_ediv_of_nonneg (by decide)
  have hlow : 0 ≤ (4000 : Int) / freq := Int.ediv_nonneg (by decide) (by omega)
  have hhigh : (4000 : Int) / freq ≤ 4000 := Int.ediv_le_self _ (by decide)
  rw [beep, Checked.safe_bind, Checked.safe_bind, safe_div, safe_result, hquotient]
  refine ⟨⟨by omega, ?_⟩, ?_, Checked.safe_pure _⟩ <;> constructor <;> omega

theorem proper_playSound {line : Bytes} (h : SoundOk line) (d : Devices) :
    Proper d (playSound line d) := by
  obtain ⟨hsafe, hvalue⟩ := parseInt_of_small _ fun n hn => (h n hn).1
  apply proper_bind hsafe (faithful_parseInt _)
  rw [hvalue]
  cases hfreq : field (skipBlanks line) with
  | none => exact proper_pure _ rfl
  | some frequency =>
    have hrest := (h frequency hfreq).2
    obtain ⟨hsafe', hvalue'⟩ := parseInt_of_small _ fun n hn => (hrest n hn).1
    apply proper_bind hsafe' (faithful_parseInt _)
    rw [hvalue']
    cases hduration : field (skipBlanks (afterInt line)) with
    | none => exact proper_pure _ rfl
    | some duration =>
      obtain ⟨-, hne, hproduct⟩ := hrest duration hduration
      exact proper_bind (safe_beep hne hproduct) (faithful_beep _ _) (proper_pure _ rfl)

/-- Percentages become numbers of ten bits. -/
theorem pwmOf_of_le {n : Nat} (h : n ≤ 100) :
    (pwmOf n).Safe ∧ 0 ≤ (pwmOf n).value ∧ (pwmOf n).value ≤ 1023 := by
  have hpwm : ((n : Int) * 1023).tdiv 100 = (n : Int) * 1023 / 100 :=
    Int.tdiv_eq_ediv_of_nonneg (by omega)
  have hfits : Fits (((n : Int) * 1023).tdiv 100) := by
    rw [hpwm]
    constructor <;> omega
  refine ⟨safe_result.mpr hfits, ?_⟩
  rw [pwmOf, value_result, wrap_eq_self hfits, hpwm]
  omega

theorem proper_setLedIntensity {line : Bytes} (h : IntensityOk line) (d : Devices) :
    Proper d (setLedIntensity line d) := by
  obtain ⟨hsafe, hvalue⟩ := parseInt_of_small _ h
  apply proper_bind hsafe (faithful_parseInt _)
  rw [hvalue]
  cases hfield : field (skipBlanks line) with
  | none => exact proper_pure _ rfl
  | some n =>
    dsimp only [Option.map_some]
    split
    next => exact proper_pure _ rfl
    next hn =>
      have hle : n ≤ 100 := Int.ofNat_le.mp (not_lt.mp hn)
      obtain ⟨hpwm, hrange⟩ := pwmOf_of_le hle
      refine ⟨Checked.safe_bind.mpr ⟨hpwm, Checked.safe_pure _⟩, ?_, fun _ => hrange⟩
      exact faithful_bind (faithful_result _) (faithful_pure _)
        (Checked.safe_bind.mpr ⟨hpwm, Checked.safe_pure _⟩)

/-! ### Lines -/

/-- `d'` comes after `d`, without a fault in between. -/
structure Extends (d d' : Checked Field Devices) : Prop where
  faults : d'.faults = d.faults
  fields : ∃ fields, d'.notes = d.notes ++ fields ∧ ∀ f ∈ fields, f.Exact
  pwmMax : 0 ≤ d.value.pwmMax ∧ d.value.pwmMax ≤ 1023 →
    0 ≤ d'.value.pwmMax ∧ d'.value.pwmMax ≤ 1023

theorem Extends.refl (d : Checked Field Devices) : Extends d d where
  faults := rfl
  fields := ⟨[], by rw [List.append_nil], fun _ hf => absurd hf List.not_mem_nil⟩
  pwmMax := id

theorem extends_perform {command : Devices → Checked Field (Bool × Devices)}
    {d : Checked Field Devices} (h : Proper d.value (command d.value)) :
    Extends d (perform command d).2 where
  faults := by
    have hfaults : (perform command d).2.faults = (d.faults ++ (command d.value).faults) ++ [] := rfl
    rw [hfaults, h.safe, List.append_nil, List.append_nil]
  fields := by
    have hnotes : (perform command d).2.notes = (d.notes ++ (command d.value).notes) ++ [] := rfl
    rw [List.append_nil] at hnotes
    exact ⟨(command d.value).notes, hnotes, h.exactly⟩
  pwmMax := h.pwmMax

theorem extends_step {line : Bytes} (h : LineOk line) (s : Console) :
    Extends s.devices (s.step line).devices := by
  cases line with
  | nil => exact Extends.refl _
  | cons ch line =>
    obtain ⟨hsound, hintensity, hpattern⟩ := h
    rw [Console.step, handleLine]
    split
    next => exact Extends.refl _
    split
    next => exact Extends.refl _
    split
    next hs => exact extends_perform (proper_playSound (hsound hs) _)
    split
    next hi => exact extends_perform (proper_setLedIntensity (hintensity hi) _)
    split
    next hp => exact extends_perform (proper_setPattern (hpattern hp) _)
    exact Extends.refl _

/-- **Lines that ask for nothing out of the range are computed without a fault**, in
    any sequence. -/
theorem arithmetic_run {lines : List Bytes} (h : ∀ line ∈ lines, LineOk line) :
    Arithmetic lines := by
  have hinv : ∀ before, before <+: lines → (Console.run before).devices.faults = [] ∧
      0 ≤ (Console.run before).devices.value.pwmMax ∧
      (Console.run before).devices.value.pwmMax ≤ 1023 := by
    intro before hbefore
    refine exec_invariant_of_forall Console.step LineOk
      (fun s => s.devices.faults = [] ∧ 0 ≤ s.devices.value.pwmMax ∧ s.devices.value.pwmMax ≤ 1023)
      ?_ ⟨rfl, by decide⟩ (fun line hline => h line (hbefore.subset hline))
    intro s line hs hline
    have hstep := extends_step hline s
    exact ⟨hstep.faults.trans hs.1, hstep.pwmMax hs.2⟩
  refine ⟨(hinv lines (List.prefix_refl _)).1, ?_, fun before hbefore => (hinv before hbefore).2⟩
  intro before line hline
  have hok : LineOk line := h line (hline.subset (by simp))
  obtain ⟨fields, hnotes, hexact⟩ := (extends_step hok (Console.run before)).fields
  refine ⟨fields, ?_, .inl hexact⟩
  rw [Console.run, exec_snoc]
  exact hnotes

theorem arithmetic_run_sample : Arithmetic ['S'.toUInt8 :: str "1000 100", str "V"] := by
  refine arithmetic_run ?_
  intro line hline
  rw [List.mem_cons, List.mem_singleton] at hline
  rcases hline with rfl | rfl
  · exact ⟨fun _ => by decide, fun h => absurd h (by decide), fun h => absurd h (by decide)⟩
  · exact ⟨fun h => absurd h (by decide), fun h => absurd h (by decide),
      fun h => absurd h (by decide)⟩

/-- A tone without a frequency is a division by zero. -/
theorem not_arithmetic : ¬ Arithmetic [str "S0 100"] := by
  intro h
  exact absurd h.faults (by decide)

/-- A number that is too long is read as another one, here as a negative brightness. -/
theorem not_arithmetic_of_long : ¬ Arithmetic [str "I4294967290"] := by
  intro h
  exact absurd (h.pwmMax _ (List.prefix_refl _)).1 (by decide +kernel)

end Acs.Reader
