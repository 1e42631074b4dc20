/-
  Acs/Reader/Led.lean
  ===================
  **LED patterns: the parser** (`led.cpp`).

  `set_led_pattern` reads `<period>R<repeats>S<items>` and replaces the pattern
  that is shown only when it has read all of it.  What it accepts is stated by a
  grammar of its own (`Format`), with the room that is left in the sequence as an
  index of the items.  Numbers are read into an `int` by a loop that does not
  look at their length, so the grammar is exact for lines whose fields fit
  (`setLedPattern_iff`).
-/
import Acs.Lib.Decimal
import Acs.Bytes
import Mathlib.Data.List.GetD

namespace Acs.Reader

open Acs CInt Decimal

/-! ### The shared state -/

def maxSeqSize : Nat := 250

inductive Sequence where
  | red
  | green
  | both
  | none
deriving DecidableEq, Repr

/-- The pattern that is shown, and how far it has been shown. -/
structure Leds where
  sequence : Vector Sequence maxSeqSize := Vector.replicate maxSeqSize .red
  sequenceLen : Nat := 0
  sequenceIndex : Nat := 0
  sequencePeriod : Int := 1
  sequenceRepeats : Int := 1
  sequenceIteration : Int := 0
deriving DecidableEq

/-! ### The parser -/

/-- The loop of `fill_seq`, with the room that is left. -/
def fillLoop (elem : Sequence) :
    Nat → Int → List Sequence → Checked Field (Option (List Sequence))
  | 0, reps, seq => do
    let _ ← result (reps - 1)
    pure (if reps = 0 then some seq else none)
  | room + 1, reps, seq => do
    let next ← result (reps - 1)
    if reps = 0 then pure (some seq) else fillLoop elem room next (seq ++ [elem])

def fillSeq (seq : List Sequence) (reps : Int) (elem : Sequence) :
    Checked Field (Option (List Sequence)) :=
  fillLoop elem (maxSeqSize - seq.length) reps seq

def tolower (c : UInt8) : UInt8 := if 65 ≤ c ∧ c ≤ 90 then c + 32 else c

/-- The element that a character stands for. -/
def element (c : UInt8) : Option Sequence :=
  if tolower c = 'r'.toUInt8 then some .red
  else if tolower c = 'g'.toUInt8 then some .green
  else if tolower c = 'b'.toUInt8 then some .both
  else if tolower c = 'n'.toUInt8 then some .none
  else none

/-- `parse_int`; it moves the index behind the digits, to `after line`. -/
def parseInt (line : Bytes) : Checked Field (Option Int) :=
  match line.head? with
  | some c => if isdigit c then some <$> read line else pure none
  | none => pure none

/-- The loop over the items; the end of the list is the NUL. -/
def parseItems (seq : List Sequence) (line : Bytes) : Checked Field (Option (List Sequence)) :=
  match line with
  | [] => pure (some seq)
  | c :: line =>
    if seq.length = maxSeqSize then pure none
    else if tolower c = 'x'.toUInt8 then do
      match ← parseInt line with
      | none => pure none
      | some reps =>
        match _hafter : after line with
        | [] => pure none
        | c :: rest =>
          match element c with
          | none => pure none
          | some elem =>
            match ← fillSeq seq reps elem with
            | none => pure none
            | some seq => parseItems seq rest
    else
      match element c with
      | none => pure none
      | some elem => parseItems (seq ++ [elem]) line
termination_by line.length
decreasing_by
  · have h := length_after_le line
    rw [_hafter] at h
    simp only [List.length_cons] at h ⊢
    omega
  · exact Nat.lt_succ_self _

/-- The local variables of `set_led_pattern`. -/
structure Pattern where
  period : Int
  repeats : Int
  seq : List Sequence
deriving DecidableEq, Repr

/-- `set_led_pattern` up to the lock. -/
def parsePattern (line : Bytes) : Checked Field (Option Pattern) := do
  match ← parseInt line with
  | none => pure none
  | some period =>
    if period ≤ 0 then pure none
    else
      match after line with
      | [] => pure none
      | c :: line =>
        if tolower c ≠ 'r'.toUInt8 then pure none
        else
          match ← parseInt line with
          | none => pure none
          | some repeats =>
            match after line with
            | [] => pure none
            | c :: line =>
              if tolower c ≠ 's'.toUInt8 then pure none
              else
                match ← parseItems [] line with
                | none => pure none
                | some seq => pure (some { period, repeats, seq })

/-- The array with `seq` copied to its front. -/
def Leds.copy (s : Leds) (seq : List Sequence) : Vector Sequence maxSeqSize :=
  Vector.ofFn fun i => seq.getD i (s.sequence.get i)

/-- `set_led_pattern` from the lock on. -/
def Leds.install (s : Leds) (p : Pattern) : Leds :=
  { sequenceIndex := 0
    sequencePeriod := p.period.tdiv 10
    sequenceRepeats := p.repeats
    sequenceIteration := 0
    sequence := s.copy p.seq
    sequenceLen := p.seq.length }

def setLedPattern (line : Bytes) (s : Leds) : Checked Field (Bool × Leds) := do
  match ← parsePattern (cstr line) with
  | none => pure (false, s)
  | some p => pure (true, s.install p)

/-! ### The grammar -/

/-- One item, with the elements that it stands for. -/
inductive Item : Bytes → List Sequence → Prop where
  | single {c : UInt8} {elem : Sequence} (helem : element c = some elem) : Item [c] [elem]
  | times {x c : UInt8} {ds : Bytes} {n : Nat} {elem : Sequence} (hx : tolower x = 'x'.toUInt8)
      (hds : Spells ds n) (helem : element c = some elem) :
      Item (x :: (ds ++ [c])) (List.replicate n elem)

/-- The items behind `n` elements.  None begins when the sequence is full. -/
inductive Items : Nat → Bytes → List Sequence → Prop where
  | nil (n : Nat) : Items n [] []
  | cons {n : Nat} {item rest : Bytes} {es more : List Sequence} (hfree : n < maxSeqSize)
      (hitem : Item item es) (hroom : n + es.length ≤ maxSeqSize)
      (hmore : Items (n + es.length) rest more) : Items n (item ++ rest) (es ++ more)

/-- A line in the format of the command. -/
def Format (line : Bytes) (period repeats : Nat) (seq : List Sequence) : Prop :=
  ∃ (ps rs items : Bytes) (r s : UInt8), line = ps ++ r :: (rs ++ s :: items) ∧
    Spells ps period ∧ 0 < period ∧ tolower r = 'r'.toUInt8 ∧
    Spells rs repeats ∧ tolower s = 's'.toUInt8 ∧ Items 0 items seq

/-- The shared state after such a line. -/
structure Leds.Shows (s : Leds) (period repeats : Nat) (seq : List Sequence) : Prop where
  sequence : s.sequence.toList.take seq.length = seq
  sequenceLen : s.sequenceLen = seq.length
  sequencePeriod : s.sequencePeriod = period / 10
  sequenceRepeats : s.sequenceRepeats = repeats
  sequenceIndex : s.sequenceIndex = 0
  sequenceIteration : s.sequenceIteration = 0

/-! ### Characters -/

theorem tolower_of_isdigit {c : UInt8} (h : isdigit c = true) : tolower c = c := by
  have hc := toNat_of_isdigit h
  rw [tolower, if_neg]
  rintro ⟨hlow, -⟩
  have hlow : 65 ≤ c.toNat := UInt8.le_iff_toNat_le.mp hlow
  omega

/-- A letter of the grammar is no digit. -/
theorem isdigit_of_tolower {c d : UInt8} (hd : isdigit d = false) (h : tolower c = d) :
    isdigit c = false := by
  by_contra hc
  rw [Bool.not_eq_false] at hc
  rw [tolower_of_isdigit hc] at h
  rw [h, hd] at hc
  exact Bool.false_ne_true hc

theorem isdigit_of_element {c : UInt8} {elem : Sequence} (h : element c = some elem) :
    isdigit c = false := by
  rw [element] at h
  split at h
  next hc => exact isdigit_of_tolower (by decide) hc
  split at h
  next hc => exact isdigit_of_tolower (by decide) hc
  split at h
  next hc => exact isdigit_of_tolower (by decide) hc
  split at h
  next hc => exact isdigit_of_tolower (by decide) hc
  exact absurd h (by simp)

theorem element_of_tolower {c : UInt8} (h : tolower c = 'x'.toUInt8) : element c = none := by
  rw [element, h]
  decide

/-! ### Numbers -/

/-- A number is read if the text begins with a digit. -/
theorem parseInt_eq (line : Bytes) :
    parseInt line = if leading line = [] then pure none else some <$> read line := by
  cases line with
  | nil => rfl
  | cons c line =>
    rw [parseInt]
    dsimp only [List.head?_cons]
    split
    next hc =>
      have hne : leading (c :: line) ≠ [] := by
        rw [leading, List.takeWhile_cons_of_pos hc]
        exact List.cons_ne_nil _ _
      rw [if_neg hne]
    next hc =>
      have hnil : leading (c :: line) = [] := List.takeWhile_cons_of_neg hc
      rw [if_pos hnil]

theorem value_parseInt (line : Bytes) :
    (parseInt line).value =
      if leading line = [] then none else some (wrap (number (leading line))) := by
  rw [parseInt_eq]
  split
  next => rfl
  next =>
    rw [← value_read]
    rfl

/-- What is read is a field, and the text goes on behind it. -/
theorem parseInt_some {line : Bytes} {v : Int} (hfits : FieldsFit line)
    (h : (parseInt line).value = some v) :
    ∃ n : Nat, v = n ∧ Spells (leading line) n ∧ line = leading line ++ after line := by
  rw [value_parseInt] at h
  split at h
  next hnil => exact absurd h (by simp)
  next hne =>
    have hspells := spells_leading hne
    have hlt := hfits _ _ hspells (List.takeWhile_prefix _).isInfix
    refine ⟨number (leading line), ?_, hspells, (leading_append_after line).symm⟩
    rw [← Option.some.inj h, wrap_eq_self]
    constructor <;> omega

/-- A field in front of something else is read. -/
theorem parseInt_append {ds rest : Bytes} {n : Nat} (hds : Spells ds n) (hn : n < 2147483648)
    (hrest : ∀ c ∈ rest.head?, isdigit c = false) :
    (parseInt (ds ++ rest)).value = some (n : Int) ∧ after (ds ++ rest) = rest := by
  obtain ⟨hleading, hafter⟩ := leading_append hds.digits hrest
  refine ⟨?_, hafter⟩
  rw [value_parseInt, hleading, if_neg hds.nonempty, hds.value, wrap_eq_self]
  constructor <;> omega

/-! ### Items -/

theorem value_fillLoop (elem : Sequence) {n : Nat} (hn : n < 2147483648) (room : Nat)
    (seq : List Sequence) :
    (fillLoop elem room n seq).value =
      if n ≤ room then some (seq ++ List.replicate n elem) else none := by
  induction room generalizing n seq with
  | zero =>
    rw [fillLoop, Checked.value_bind, Checked.value_pure]
    cases n with
    | zero => simp
    | succ n =>
      have hne : ((n + 1 : Nat) : Int) ≠ 0 := by omega
      rw [if_neg hne, if_neg (Nat.not_succ_le_zero n)]
  | succ room ih =>
    rw [fillLoop, Checked.value_bind, value_result]
    cases n with
    | zero => simp
    | succ n =>
      have hne : ((n + 1 : Nat) : Int) ≠ 0 := by omega
      have hnext : wrap (((n + 1 : Nat) : Int) - 1) = n := by
        rw [wrap_eq_self (by constructor <;> omega)]
        omega
      rw [if_neg hne, hnext, ih (by omega)]
      simp only [Nat.add_le_add_iff_right, List.replicate_succ, List.append_assoc,
        List.singleton_append]

theorem value_fillSeq (elem : Sequence) {n : Nat} (hn : n < 2147483648) {seq : List Sequence}
    (hseq : seq.length ≤ maxSeqSize) :
    (fillSeq seq n elem).value =
      if seq.length + n ≤ maxSeqSize then some (seq ++ List.replicate n elem) else none := by
  rw [fillSeq, value_fillLoop elem hn]
  congr 1
  rw [eq_iff_iff]
  omega

/-- The sequence never outgrows its array, whatever number has been read. -/
theorem length_fillLoop_le {elem : Sequence} {room : Nat} {reps : Int} {seq out : List Sequence}
    (h : (fillLoop elem room reps seq).value = some out) : out.length ≤ seq.length + room := by
  induction room generalizing reps seq with
  | zero =>
    rw [fillLoop, Checked.value_bind, Checked.value_pure] at h
    split_ifs at h
    rw [Option.some.inj h, Nat.add_zero]
  | succ room ih =>
    rw [fillLoop, Checked.value_bind] at h
    split_ifs at h
    · rw [Checked.value_pure] at h
      rw [Option.some.inj h]
      omega
    · have hle := ih h
      rw [List.length_append, List.length_singleton] at hle
      omega

theorem length_fillSeq_le {elem : Sequence} {reps : Int} {seq out : List Sequence}
    (hseq : seq.length ≤ maxSeqSize) (h : (fillSeq seq reps elem).value = some out) :
    out.length ≤ maxSeqSize := by
  have hle := length_fillLoop_le h
  omega

theorem length_parseItems_le {seq : List Sequence} {line : Bytes} {out : List Sequence}
    (hseq : seq.length ≤ maxSeqSize) (h : (parseItems seq line).value = some out) :
    out.length ≤ maxSeqSize := by
  induction seq, line using parseItems.induct with
  | case1 seq =>
    rw [parseItems] at h
    rw [← Option.some.inj h]
    exact hseq
  | case2 seq c line hfull =>
    rw [parseItems, if_pos hfull] at h
    exact absurd h (by simp)
  | case3 seq c line hfull hx ih =>
    rw [parseItems, if_neg hfull, if_pos hx, Checked.value_bind] at h
    split at h
    next => exact absurd h (by simp)
    next reps hreps =>
      split at h
      next => exact absurd h (by simp)
      next d rest hafter =>
        split at h
        next => exact absurd h (by simp)
        next elem helem =>
          rw [Checked.value_bind] at h
          split at h
          next => exact absurd h (by simp)
          next seq' hfill => exact ih d rest hafter _ (length_fillSeq_le hseq hfill) h
  | case4 seq c line hfull hx helem =>
    rw [parseItems, if_neg hfull, if_neg hx, helem] at h
    exact absurd h (by simp)
  | case5 seq c line hfull hx elem helem ih =>
    rw [parseItems, if_neg hfull, if_neg hx, helem] at h
    refine ih ?_ h
    rw [List.length_append, List.length_singleton]
    omega

/-- The item with the repeats, in front of the rest of the line. -/
theorem times_append {c d : UInt8} {line rest : Bytes} (hafter : after line = d :: rest) :
    (c :: (leading line ++ [d])) ++ rest = c :: line := by
  rw [List.cons_append, List.append_assoc, List.singleton_append, ← hafter,
    leading_append_after]

/-- What the loop returns has been read as items. -/
theorem items_of_parseItems {seq : List Sequence} {line : Bytes} {out : List Sequence}
    (hfits : FieldsFit line) (hseq : seq.length ≤ maxSeqSize)
    (h : (parseItems seq line).value = some out) :
    ∃ es, out = seq ++ es ∧ Items seq.length line es := by
  induction seq, line using parseItems.induct with
  | case1 seq =>
    rw [parseItems] at h
    exact ⟨[], by rw [List.append_nil, Option.some.inj h], Items.nil _⟩
  | case2 seq c line hfull =>
    rw [parseItems, if_pos hfull] at h
    exact absurd h (by simp)
  | case3 seq c line hfull hx ih =>
    rw [parseItems, if_neg hfull, if_pos hx, Checked.value_bind] at h
    have hfits' := hfits.of_suffix (List.suffix_cons c line)
    split at h
    next => exact absurd h (by simp)
    next reps hreps =>
      obtain ⟨n, rfl, hspells, -⟩ := parseInt_some hfits' hreps
      have hn := hfits' _ _ hspells (List.takeWhile_prefix _).isInfix
      split at h
      next => exact absurd h (by simp)
      next d rest hafter =>
        split at h
        next => exact absurd h (by simp)
        next elem helem =>
          rw [Checked.value_bind, value_fillSeq elem hn hseq] at h
          split_ifs at h with hroom
          · have hlength : (seq ++ List.replicate n elem).length = seq.length + n := by
              rw [List.length_append, List.length_replicate]
            have hfits'' := hfits'.of_suffix
              ((List.suffix_cons d rest).trans (hafter ▸ after_suffix line))
            obtain ⟨more, rfl, hmore⟩ := ih d rest hafter _ hfits'' (by omega) h
            refine ⟨List.replicate n elem ++ more, List.append_assoc .., ?_⟩
            rw [hlength] at hmore
            rw [← times_append hafter]
            refine Items.cons (by omega) (Item.times hx hspells helem) ?_ ?_
            · rw [List.length_replicate]
              exact hroom
            · rw [List.length_replicate]
              exact hmore
  | case4 seq c line hfull hx helem =>
    rw [parseItems, if_neg hfull, if_neg hx, helem] at h
    exact absurd h (by simp)
  | case5 seq c line hfull hx elem helem ih =>
    rw [parseItems, if_neg hfull, if_neg hx, helem] at h
    have hlength : (seq ++ [elem]).length = seq.length + 1 := List.length_append
    obtain ⟨more, rfl, hmore⟩ := ih (hfits.of_suffix (List.suffix_cons c line)) (by omega) h
    rw [hlength] at hmore
    have hitems : Items seq.length ([c] ++ line) ([elem] ++ more) :=
      Items.cons (by omega) (Item.single helem) (by rw [List.length_singleton]; omega) hmore
    exact ⟨elem :: more, by rw [List.append_assoc, List.singleton_append], hitems⟩

/-- Items are read to the end of the line. -/
theorem parseItems_of_items {n : Nat} {line : Bytes} {es : List Sequence} (h : Items n line es)
    {seq : List Sequence} (hseq : seq.length = n) :
    (parseItems seq line).value = some (seq ++ es) := by
  induction h generalizing seq with
  | nil n =>
    rw [parseItems, Checked.value_pure, List.append_nil]
  | @cons n item rest es more hfree hitem hroom hmore ih =>
    have hfull : seq.length ≠ maxSeqSize := by omega
    cases hitem with
    | @single c elem helem =>
      have hx : tolower c ≠ 'x'.toUInt8 := by
        intro hx
        rw [element_of_tolower hx] at helem
        exact absurd helem (by simp)
      rw [List.singleton_append, parseItems, if_neg hfull, if_neg hx, helem]
      dsimp only
      rw [ih (by rw [List.length_append, hseq]), List.append_assoc]
    | @times x c ds k elem hx hds helem =>
      rw [List.length_replicate] at hroom ih
      have hk : k < 2147483648 := by
        rw [maxSeqSize] at hroom
        omega
      have hstop : ∀ d ∈ (c :: rest).head?, isdigit d = false := by
        rintro d hd
        obtain rfl := Option.some.inj hd
        exact isdigit_of_element helem
      obtain ⟨hparse, hafter⟩ := parseInt_append hds hk hstop
      rw [List.cons_append, List.append_assoc, List.singleton_append, parseItems, if_neg hfull,
        if_pos hx, Checked.value_bind, hparse]
      dsimp only
      split
      next hnil => exact absurd (hafter.symm.trans hnil) (List.cons_ne_nil _ _)
      next d rest' hcons =>
        obtain ⟨rfl, rfl⟩ := List.cons.inj (hafter.symm.trans hcons)
        rw [helem]
        dsimp only
        rw [Checked.value_bind, value_fillSeq elem hk (by omega), hseq, if_pos hroom]
        dsimp only
        rw [ih (by rw [List.length_append, List.length_replicate, hseq]), List.append_assoc]

/-! ### Lines -/

/-- What has been read when a pattern is returned. -/
theorem parsePattern_some {line : Bytes} {p : Pattern} (h : (parsePattern line).value = some p) :
    ∃ (r s : UInt8) (line' items : Bytes),
      (parseInt line).value = some p.period ∧ 0 < p.period ∧
      after line = r :: line' ∧ tolower r = 'r'.toUInt8 ∧
      (parseInt line').value = some p.repeats ∧
      after line' = s :: items ∧ tolower s = 's'.toUInt8 ∧
      (parseItems [] items).value = some p.seq := by
  rw [parsePattern, Checked.value_bind] at h
  split at h
  next => exact absurd h (by simp)
  next period hperiod =>
    split at h
    next => exact absurd h (by simp)
    next hpos =>
      split at h
      next => exact absurd h (by simp)
      next r line' hafter =>
        split at h
        next => exact absurd h (by simp)
        next hr =>
          rw [Checked.value_bind] at h
          split at h
          next => exact absurd h (by simp)
          next repeats hrepeats =>
            split at h
            next => exact absurd h (by simp)
            next s items hafter' =>
              split at h
              next => exact absurd h (by simp)
              next hs =>
                rw [Checked.value_bind] at h
                split at h
                next => exact absurd h (by simp)
                next seq hseq =>
                  obtain rfl := Option.some.inj h
                  exact ⟨r, s, line', items, hperiod, not_le.mp hpos, hafter, not_not.mp hr,
                    hrepeats, hafter', not_not.mp hs, hseq⟩

theorem length_parsePattern_le {line : Bytes} {p : Pattern}
    (h : (parsePattern line).value = some p) : p.seq.length ≤ maxSeqSize := by
  obtain ⟨_, _, _, _, _, _, _, _, _, _, _, hseq⟩ := parsePattern_some h
  exact length_parseItems_le (Nat.zero_le _) hseq

/-- A pattern that has been parsed is one of the format. -/
theorem format_of_parsePattern {line : Bytes} {p : Pattern} (hfits : FieldsFit line)
    (h : (parsePattern line).value = some p) :
    ∃ period repeats : Nat, p.period = period ∧ p.repeats = repeats ∧
      Format line period repeats p.seq := by
  obtain ⟨r, s, line', items, hperiod, hpos, hafter, hr, hrepeats, hafter', hs, hseq⟩ :=
    parsePattern_some h
  have hfits' : FieldsFit line' := hfits.of_suffix
    ((List.suffix_cons r line').trans (hafter ▸ after_suffix line))
  have hfits'' : FieldsFit items := hfits'.of_suffix
    ((List.suffix_cons s items).trans (hafter' ▸ after_suffix line'))
  obtain ⟨n, hn, hps, hline⟩ := parseInt_some hfits hperiod
  obtain ⟨m, hm, hrs, hline'⟩ := parseInt_some hfits' hrepeats
  obtain ⟨es, hes, hitems⟩ := items_of_parseItems hfits'' (Nat.zero_le _) hseq
  rw [List.nil_append] at hes
  refine ⟨n, m, hn, hm, leading line, leading line', items, r, s, ?_, hps, by omega, hr, hrs, hs,
    hes ▸ hitems⟩
  rw [← hafter', ← hline', ← hafter]
  exact hline

/-- A line in the format is parsed. -/
theorem parsePattern_of_format {line : Bytes} {period repeats : Nat} {seq : List Sequence}
    (hfits : FieldsFit line) (h : Format line period repeats seq) :
    (parsePattern line).value = some { period, repeats, seq } := by
  obtain ⟨ps, rs, items, r, s, rfl, hps, hpos, hr, hrs, hs, hitems⟩ := h
  have hperiod : period < 2147483648 := hfits ps _ hps (List.prefix_append _ _).isInfix
  have hrepeats : repeats < 2147483648 :=
    hfits rs _ hrs ⟨ps ++ [r], s :: items, by simp⟩
  have hstop : ∀ {c d : UInt8} (rest : Bytes), isdigit d = false → tolower c = d →
      ∀ b ∈ (c :: rest).head?, isdigit b = false := by
    intro c d _ hd hc b hb
    obtain rfl := Option.some.inj hb
    exact isdigit_of_tolower hd hc
  obtain ⟨hparse, hafter⟩ := parseInt_append hps hperiod
    (hstop (rs ++ s :: items) (by decide) hr)
  obtain ⟨hparse', hafter'⟩ := parseInt_append hrs hrepeats (hstop items (by decide) hs)
  rw [parsePattern, Checked.value_bind, hparse]
  dsimp only
  rw [if_neg (by omega), hafter]
  dsimp only
  rw [if_neg (not_not.mpr hr), Checked.value_bind, hparse']
  dsimp only
  rw [hafter']
  dsimp only
  rw [if_neg (not_not.mpr hs), Checked.value_bind, parseItems_of_items hitems rfl]
  rfl

theorem Items.length_le {n : Nat} {line : Bytes} {es : List Sequence} (h : Items n line es)
    (hn : n ≤ maxSeqSize) : n + es.length ≤ maxSeqSize := by
  induction h with
  | nil n => exact hn
  | cons hfree hitem hroom hmore ih =>
    have := ih hroom
    rw [List.length_append]
    omega

theorem take_copy (s : Leds) {seq : List Sequence} (hlen : seq.length ≤ maxSeqSize) :
    (s.copy seq).toList.take seq.length = seq := by
  apply List.ext_getElem
  · rw [List.length_take, Vector.length_toList]
    omega
  · intro i hi hi'
    rw [List.getElem_take, Vector.getElem_toList]
    simp only [Leds.copy, Vector.getElem_ofFn]
    exact List.getD_eq_getElem _ _ hi'

/-- What is installed is shown. -/
theorem shows_install (s : Leds) {period repeats : Nat} {seq : List Sequence}
    (hlen : seq.length ≤ maxSeqSize) :
    (s.install { period, repeats, seq }).Shows period repeats seq where
  sequence := take_copy s hlen
  sequenceLen := rfl
  sequencePeriod := rfl
  sequenceRepeats := rfl
  sequenceIndex := rfl
  sequenceIteration := rfl

theorem value_setLedPattern (line : Bytes) (s : Leds) :
    (setLedPattern line s).value =
      match (parsePattern (cstr line)).value with
      | none => (false, s)
      | some p => (true, s.install p) := by
  rw [setLedPattern, Checked.value_bind]
  split <;> rfl

/-- **`set_led_pattern` accepts the lines in the format, and those only**; it shows
    the pattern of a line that it accepts, and leaves everything as it is otherwise. -/
theorem setLedPattern_iff {line : Bytes} (hnul : 0 ∉ line) (hfits : FieldsFit line) (s : Leds) :
    ((setLedPattern line s).value.1 = true ↔
      ∃ period repeats seq, Format line period repeats seq) ∧
    (∀ period repeats seq, Format line period repeats seq →
      (setLedPattern line s).value.2.Shows period repeats seq) ∧
    ((setLedPattern line s).value.1 = false → (setLedPattern line s).value.2 = s) := by
  have hvalue := value_setLedPattern line s
  rw [cstr_eq_self hnul] at hvalue
  refine ⟨⟨?_, ?_⟩, ?_, ?_⟩
  · intro h
    rw [hvalue] at h
    split at h
    next => exact absurd h (by simp)
    next p hp =>
      obtain ⟨period, repeats, -, -, hformat⟩ := format_of_parsePattern hfits hp
      exact ⟨period, repeats, p.seq, hformat⟩
  · rintro ⟨period, repeats, seq, hformat⟩
    rw [hvalue, parsePattern_of_format hfits hformat]
  · intro period repeats seq hformat
    rw [hvalue, parsePattern_of_format hfits hformat]
    obtain ⟨-, -, items, -, -, -, -, -, -, -, -, hitems⟩ := hformat
    have hlen := hitems.length_le (Nat.zero_le _)
    rw [Nat.zero_add] at hlen
    exact shows_install s hlen
  · intro h
    rw [hvalue] at h ⊢
    split at h
    next => rfl
    next => exact absurd h (by simp)

theorem setLedPattern_iff_sample :
    (setLedPattern (str "20R1SGX2n") {}).value.1 = true ↔
      ∃ period repeats seq, Format (str "20R1SGX2n") period repeats seq :=
  (setLedPattern_iff (by decide) (fieldsFit_of_length (by decide)) {}).1

example : (setLedPattern (str "20R1SGX2n") {}).value.2.sequence.toList.take 3 =
    [.green, .none, .none] := by
  decide +kernel

end Acs.Reader
