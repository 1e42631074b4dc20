/-
  Acs/Opi/Wrap.lean
  =================
  **`util::wrap`** (`opi/util.cpp`): a text broken into lines at its spaces.

  A first loop counts the lines that are needed, and the words are then spread
  over that many: a second loop breaks a line when the next word is too long for
  it, or when it has its share of the words.  Both loops go on to the next word
  on one of their branches only, and the share is a quotient by the count.

  Both loops are the loop of `Grouping` in disguise (`Counts`, `Fills`).  So
  they end exactly if there is a word and each word is short enough
  (`terminates_iff`), and then nothing is lost (`wrap_complete`).
-/
import Acs.Bytes
import Acs.Lib.Grouping

namespace Acs.Opi

open Acs Grouping

/-! ### The function -/

/-- `boost::split` with `is_any_of`: an empty field between two separators is
    kept. -/
def split (s sep : Bytes) : List Bytes :=
  if s = [] then [] else s.splitOnP fun c => c ∈ sep

/-- The locals of the first loop. -/
structure Counting where
  idx : Nat := 0
  curSize : Nat := 0
  nofLines : Nat := 0
deriving DecidableEq

def countNext (words : List Bytes) (maxLen : Nat) (c : Counting) : Option Counting :=
  words[c.idx]?.map fun word =>
    if c.curSize + 1 + word.length < maxLen then
      { c with curSize := c.curSize + 1 + word.length, idx := c.idx + 1 }
    else { c with nofLines := c.nofLines + 1, curSize := 0 }

/-- The count after the last line. -/
def Counting.total (c : Counting) : Nat := if c.curSize > 0 then c.nofLines + 1 else c.nofLines

/-- The locals of the second loop. -/
structure Filling where
  idx : Nat := 0
  wordsOnCurLine : Nat := 0
  curLine : Bytes := []
  lines : List Bytes := []
deriving DecidableEq

def fillNext (words : List Bytes) (maxLen wordsPerLine : Nat) (f : Filling) : Option Filling :=
  words[f.idx]?.map fun word =>
    if f.curLine.length + 1 + word.length < maxLen ∧ f.wordsOnCurLine < wordsPerLine then
      { f with
        curLine := f.curLine ++ str " " ++ word
        wordsOnCurLine := f.wordsOnCurLine + 1
        idx := f.idx + 1 }
    else { f with lines := f.lines ++ [f.curLine], curLine := [], wordsOnCurLine := 0 }

/-- The lines with the last one. -/
def Filling.total (f : Filling) : List Bytes :=
  if f.curLine ≠ [] then f.lines ++ [f.curLine] else f.lines

/-- What `wrap` has come to: still in one of its loops, at the division with a
    count of zero, or at its end. -/
inductive Wrapped where
  | looping
  | dividesByZero
  | lines (lines : List Bytes)
deriving DecidableEq

/-- Each of the two loops is given `fuel` turns. -/
def wrap (fuel : Nat) (s : Bytes) (maxLen : Nat) : Wrapped :=
  let words := split s (str " ")
  match Loops.run (countNext words maxLen) fuel {} with
  | none => .looping
  | some c =>
    if c.total = 0 then .dividesByZero
    else
      match Loops.run (fillNext words maxLen (words.length / c.total)) fuel {} with
      | none => .looping
      | some f => .lines f.total

def Returns (s : Bytes) (maxLen : Nat) (lines : List Bytes) : Prop :=
  ∃ fuel, wrap fuel s maxLen = .lines lines

/-- Both loops end, and there is no division by zero. -/
def Terminates (s : Bytes) (maxLen : Nat) : Prop := ∃ lines, Returns s maxLen lines

theorem returns_iff {s : Bytes} {maxLen : Nat} {lines : List Bytes} :
    Returns s maxLen lines ↔
      ∃ c f, Loops.Ends (countNext (split s (str " ")) maxLen) {} c ∧ c.total ≠ 0 ∧
        Loops.Ends (fillNext (split s (str " ")) maxLen ((split s (str " ")).length / c.total)) {} f ∧
        f.total = lines := by
  constructor
  · rintro ⟨fuel, h⟩
    rw [wrap] at h
    split at h
    · cases h
    next c hc =>
      split at h
      · cases h
      next hne =>
        split at h
        · cases h
        next f hf =>
          cases h
          exact ⟨c, f, ⟨fuel, hc⟩, hne, ⟨fuel, hf⟩, rfl⟩
  · rintro ⟨c, f, ⟨fuel, hc⟩, hne, ⟨fuel', hf⟩, rfl⟩
    refine ⟨max fuel fuel', ?_⟩
    rw [wrap, Loops.run_mono (Nat.le_max_left _ _) hc]
    dsimp only
    rw [if_neg hne, Loops.run_mono (Nat.le_max_right _ _) hf]

theorem Returns.unique {s : Bytes} {maxLen : Nat} {lines lines' : List Bytes}
    (h : Returns s maxLen lines) (h' : Returns s maxLen lines') : lines = lines' := by
  obtain ⟨c, f, hc, _, hf, rfl⟩ := returns_iff.mp h
  obtain ⟨c', f', hc', _, hf', rfl⟩ := returns_iff.mp h'
  obtain rfl := hc.unique hc'
  rw [hf.unique hf']

/-! ### The words of a text -/

theorem split_of_ne_nil {s : Bytes} (hs : s ≠ []) : split s (str " ") = s.splitOn 32 := by
  have hsep : (fun c : UInt8 => decide (c ∈ str " ")) = (· == 32) := by
    funext c
    exact Bool.eq_iff_iff.mpr (by simp [show str " " = [32] from rfl])
  rw [split, if_neg hs, hsep, List.splitOn]

theorem split_eq_nil_iff {s : Bytes} : split s (str " ") = [] ↔ s = [] := by
  constructor
  · intro h
    by_contra hs
    rw [split_of_ne_nil hs] at h
    exact List.splitOnP_ne_nil _ s h
  · rintro rfl
    rfl

/-- Each word with a space before it is the text with a space before it. -/
theorem flatMap_split {s : Bytes} (hs : s ≠ []) :
    (split s (str " ")).flatMap (str " " ++ ·) = 32 :: s := by
  have hcons : ∀ words : List Bytes, words ≠ [] →
      words.flatMap (str " " ++ ·) = 32 :: [32].intercalate words := by
    intro words hne
    induction words with
    | nil => exact absurd rfl hne
    | cons w words ih =>
      cases words with
      | nil => simp [show str " " = [32] from rfl]
      | cons w' words =>
        rw [List.flatMap_cons, ih (List.cons_ne_nil w' words)]
        simp [show str " " = [32] from rfl, List.intercalate]
  rw [hcons _ (fun h => hs (split_eq_nil_iff.mp h)), split_of_ne_nil hs, List.intercalate_splitOn]

/-! ### Groups of words

A line is a group of consecutive words, each with the space before it. -/

def size (g : List Bytes) : Nat := (g.map fun w => 1 + w.length).sum

/-- The lines that the first loop counts. -/
def Short (maxLen : Nat) (g : List Bytes) : Prop := size g < maxLen

/-- The lines that the second loop fills. -/
def Quota (maxLen wordsPerLine : Nat) (g : List Bytes) : Prop :=
  size g < maxLen ∧ g.length ≤ wordsPerLine

instance (maxLen : Nat) : DecidablePred (Short maxLen) := fun g =>
  inferInstanceAs (Decidable (size g < maxLen))

instance (maxLen wordsPerLine : Nat) : DecidablePred (Quota maxLen wordsPerLine) := fun g =>
  inferInstanceAs (Decidable (size g < maxLen ∧ g.length ≤ wordsPerLine))

/-- The text of a line. -/
def joinLine (g : List Bytes) : Bytes := g.flatMap (str " " ++ ·)

theorem size_append (g h : List Bytes) : size (g ++ h) = size g + size h := by
  rw [size, List.map_append, List.sum_append]
  rfl

@[simp] theorem size_nil : size [] = 0 := rfl

@[simp] theorem size_singleton (w : Bytes) : size [w] = 1 + w.length := by
  rw [size, List.map_singleton, List.sum_singleton]

theorem size_pos {g : List Bytes} (hg : g ≠ []) : 0 < size g := by
  obtain ⟨w, g, rfl⟩ := List.exists_cons_of_ne_nil hg
  rw [size, List.map_cons, List.sum_cons]
  omega

theorem size_mono {g h : List Bytes} (hgh : g <:+: h) : size g ≤ size h := by
  obtain ⟨pre, post, rfl⟩ := hgh
  rw [size_append, size_append]
  omega

theorem length_joinLine (g : List Bytes) : (joinLine g).length = size g := by
  induction g with
  | nil => rfl
  | cons w g ih =>
    have hsplit := size_append [w] g
    rw [List.singleton_append, size_singleton] at hsplit
    rw [joinLine, List.flatMap_cons, List.length_append, ← joinLine, ih, hsplit,
      List.length_append, show (str " ").length = 1 from rfl]

theorem joinLine_append (g : List Bytes) (w : Bytes) :
    joinLine (g ++ [w]) = joinLine g ++ str " " ++ w := by
  rw [joinLine, List.flatMap_append, List.flatMap_singleton, List.append_assoc]
  rfl

theorem joinLine_ne_nil {g : List Bytes} (hg : g ≠ []) : joinLine g ≠ [] := by
  rw [← List.length_pos_iff, length_joinLine]
  exact size_pos hg

theorem hereditary_short (maxLen : Nat) : Hereditary (Short maxLen) :=
  fun _ _ hsub h => Nat.lt_of_le_of_lt (size_mono hsub) h

theorem hereditary_quota (maxLen wordsPerLine : Nat) :
    Hereditary (Quota maxLen wordsPerLine) :=
  fun _ _ hsub h =>
    ⟨Nat.lt_of_le_of_lt (size_mono hsub) h.1, Nat.le_trans hsub.length_le h.2⟩

theorem short_singleton_iff {maxLen : Nat} {w : Bytes} :
    Short maxLen [w] ↔ 1 + w.length < maxLen := by
  rw [Short, size_singleton]

/-! ### The two loops are the loop of `Grouping` -/

/-- The locals of the first loop, and the groups that they stand for. -/
structure Counts (words : List Bytes) (c : Counting) (g : State Bytes) : Prop where
  rest : words.drop c.idx = g.rest
  curSize : c.curSize = size g.current
  nofLines : c.nofLines = g.closed.length

structure Fills (words : List Bytes) (f : Filling) (g : State Bytes) : Prop where
  rest : words.drop f.idx = g.rest
  curLine : f.curLine = joinLine g.current
  wordsOnCurLine : f.wordsOnCurLine = g.current.length
  lines : f.lines = g.closed.map joinLine

theorem getElem?_of_drop {words : List Bytes} {idx : Nat} {w : Bytes} {rest : List Bytes}
    (h : words.drop idx = w :: rest) : words[idx]? = some w ∧ words.drop (idx + 1) = rest := by
  constructor
  · have hhead := congrArg List.head? h
    rwa [List.head?_drop, List.head?_cons] at hhead
  · rw [← List.drop_drop, h, List.drop_one, List.tail_cons]

theorem getElem?_of_drop_nil {words : List Bytes} {idx : Nat} (h : words.drop idx = []) :
    words[idx]? = none := by
  have hhead := congrArg List.head? h
  rwa [List.head?_drop, List.head?_nil] at hhead

theorem Counts.next {words : List Bytes} {maxLen : Nat} {c : Counting} {g : State Bytes}
    (h : Counts words c g) :
    Option.Rel (Counts words) (countNext words maxLen c) (Grouping.next (Short maxLen) g) := by
  obtain ⟨rest, current, closed⟩ := g
  cases rest with
  | nil =>
    rw [countNext, getElem?_of_drop_nil h.rest]
    exact .none
  | cons w rest =>
    obtain ⟨hget, hdrop⟩ := getElem?_of_drop h.rest
    have hsize : size (current ++ [w]) = c.curSize + 1 + w.length := by
      rw [size_append, size_singleton, show c.curSize = size current from h.curSize,
        Nat.add_assoc]
    have hfits : Short maxLen (current ++ [w]) ↔ c.curSize + 1 + w.length < maxLen := by
      rw [Short, hsize]
    rw [countNext, hget, Option.map_some, Grouping.next]
    by_cases hlt : c.curSize + 1 + w.length < maxLen
    · rw [if_pos hlt, if_pos (hfits.mpr hlt)]
      exact .some ⟨hdrop, hsize.symm, h.nofLines⟩
    · rw [if_neg hlt, if_neg (fun hshort => hlt (hfits.mp hshort))]
      refine .some ⟨h.rest, rfl, ?_⟩
      rw [List.length_append, List.length_singleton, h.nofLines]

theorem Fills.next {words : List Bytes} {maxLen wordsPerLine : Nat} {f : Filling}
    {g : State Bytes} (h : Fills words f g) :
    Option.Rel (Fills words) (fillNext words maxLen wordsPerLine f)
      (Grouping.next (Quota maxLen wordsPerLine) g) := by
  obtain ⟨rest, current, closed⟩ := g
  cases rest with
  | nil =>
    rw [fillNext, getElem?_of_drop_nil h.rest]
    exact .none
  | cons w rest =>
    obtain ⟨hget, hdrop⟩ := getElem?_of_drop h.rest
    have hsize : size (current ++ [w]) = f.curLine.length + 1 + w.length := by
      rw [size_append, size_singleton, h.curLine, length_joinLine, Nat.add_assoc]
    have hcount : (current ++ [w]).length = f.wordsOnCurLine + 1 := by
      rw [List.length_append, List.length_singleton, h.wordsOnCurLine]
    have hfits : Quota maxLen wordsPerLine (current ++ [w]) ↔
        f.curLine.length + 1 + w.length < maxLen ∧ f.wordsOnCurLine < wordsPerLine := by
      rw [Quota, hsize, hcount, Nat.add_one_le_iff]
    rw [fillNext, hget, Option.map_some, Grouping.next]
    by_cases hlt : f.curLine.length + 1 + w.length < maxLen ∧ f.wordsOnCurLine < wordsPerLine
    · rw [if_pos hlt, if_pos (hfits.mpr hlt)]
      refine .some ⟨hdrop, ?_, hcount.symm, h.lines⟩
      rw [joinLine_append, h.curLine]
    · rw [if_neg hlt, if_neg (fun hquota => hlt (hfits.mp hquota))]
      refine .some ⟨h.rest, rfl, rfl, ?_⟩
      rw [List.map_append, List.map_singleton, h.lines, h.curLine]

/-- The count is that of the groups. -/
theorem Counts.total {words : List Bytes} {c : Counting} {g : State Bytes}
    (h : Counts words c g) : c.total = g.result.length := by
  rw [Counting.total, h.curSize, h.nofLines, State.result, List.length_append]
  cases hcurrent : g.current with
  | nil => rfl
  | cons w ws =>
    rw [if_pos (size_pos (List.cons_ne_nil w ws))]
    rfl

theorem Fills.total {words : List Bytes} {f : Filling} {g : State Bytes} (h : Fills words f g) :
    f.total = g.result.map joinLine := by
  rw [Filling.total, h.curLine, h.lines, State.result, List.map_append]
  cases hcurrent : g.current with
  | nil => exact (List.append_nil _).symm
  | cons w ws =>
    rw [if_pos (joinLine_ne_nil (List.cons_ne_nil w ws))]
    rfl

/-! ### When it ends -/

/-- The number of lines that the first loop counts. -/
def nofLines (maxLen : Nat) (words : List Bytes) : Nat := (groups (Short maxLen) [] words).length

/-- The lines that the second loop makes. -/
def wrapped (maxLen : Nat) (words : List Bytes) : List (List Bytes) :=
  groups (Quota maxLen (words.length / nofLines maxLen words)) [] words

/-- There is a word, and each word fits in a line. -/
def Wrappable (s : Bytes) (maxLen : Nat) : Prop :=
  s ≠ [] ∧ ∀ w ∈ split s (str " "), 1 + w.length < maxLen

instance (s : Bytes) (maxLen : Nat) : Decidable (Wrappable s maxLen) :=
  inferInstanceAs (Decidable (_ ∧ _))

section Wrappable

variable {s : Bytes} {maxLen : Nat}

theorem Wrappable.short (h : Wrappable s maxLen) :
    ∀ w ∈ split s (str " "), Short maxLen [w] :=
  fun w hw => short_singleton_iff.mpr (h.2 w hw)

theorem Wrappable.nofLines_pos (h : Wrappable s maxLen) :
    0 < nofLines maxLen (split s (str " ")) := by
  rw [nofLines, List.length_pos_iff]
  intro hnil
  have hflat : (groups (Short maxLen) [] (split s (str " "))).flatten = [] ++ split s (str " ") :=
    flatten_groups [] (split s (str " "))
  rw [hnil, List.flatten_nil, List.nil_append] at hflat
  exact h.1 (split_eq_nil_iff.mp hflat.symm)

/-- Each line gets a word at least: there are not more lines than words. -/
theorem Wrappable.quota (h : Wrappable s maxLen) : ∀ w ∈ split s (str " "),
    Quota maxLen ((split s (str " ")).length / nofLines maxLen (split s (str " "))) [w] := by
  intro w hw
  refine ⟨h.short w hw, ?_⟩
  rw [List.length_singleton, Nat.le_div_iff_mul_le h.nofLines_pos, Nat.one_mul]
  exact length_groups_le_length (hereditary_short maxLen) h.short

theorem Wrappable.returns (h : Wrappable s maxLen) :
    Returns s maxLen ((wrapped maxLen (split s (str " "))).map joinLine) := by
  obtain ⟨g, hg, -, hresult⟩ := ends_groups [] h.short []
  obtain ⟨c, hc, hcounts⟩ := Loops.ends_of_simulation (R := Counts (split s (str " ")))
    (fun _ _ hR => hR.next) (s := {}) ⟨rfl, rfl, rfl⟩ hg
  have htotal : c.total = nofLines maxLen (split s (str " ")) := by
    rw [hcounts.total, hresult, List.nil_append, nofLines]
  obtain ⟨g', hg', -, hresult'⟩ := ends_groups [] h.quota []
  obtain ⟨f, hf, hfills⟩ := Loops.ends_of_simulation (R := Fills (split s (str " ")))
    (fun _ _ hR => hR.next) (s := {}) ⟨rfl, rfl, rfl, rfl⟩ hg'
  refine returns_iff.mpr ⟨c, f, hc, ?_, ?_, ?_⟩
  · rw [htotal]
    exact Nat.pos_iff_ne_zero.mp h.nofLines_pos
  · rw [htotal]
    exact hf
  · rw [hfills.total, hresult', List.nil_append, wrapped]

/-- The first loop comes to its end only where each word is short enough. -/
theorem short_of_counted {c : Counting}
    (h : Loops.Ends (countNext (split s (str " ")) maxLen) {} c) :
    ∀ w ∈ split s (str " "), 1 + w.length < maxLen := by
  intro w hw
  by_contra hlong
  obtain ⟨g, hg, -⟩ := Loops.ends_of_simulation' (R := Counts (split s (str " ")))
    (t := ⟨split s (str " "), [], []⟩) (fun _ _ hR => hR.next) ⟨rfl, rfl, rfl⟩ h
  exact not_ends (hereditary_short maxLen)
    ⟨w, hw, fun hshort => hlong (short_singleton_iff.mp hshort)⟩ hg

/-- **A word that is too long** is never got over. -/
theorem wrap_looping {w : Bytes} (hw : w ∈ split s (str " ")) (hlong : maxLen ≤ 1 + w.length)
    (fuel : Nat) : wrap fuel s maxLen = .looping := by
  rw [wrap]
  cases hrun : Loops.run (countNext (split s (str " ")) maxLen) fuel {} with
  | none => rfl
  | some c => exact absurd (short_of_counted ⟨fuel, hrun⟩ w hw) (Nat.not_lt.mpr hlong)

theorem Terminates.wrappable (h : Terminates s maxLen) : Wrappable s maxLen := by
  obtain ⟨lines, hreturns⟩ := h
  obtain ⟨c, f, hc, hne, hf, -⟩ := returns_iff.mp hreturns
  constructor
  · rintro rfl
    -- no word, no turn, and a count of zero
    have hend : Loops.Ends (countNext (split [] (str " ")) maxLen) {} {} := Loops.ends_of_none rfl
    rw [hc.unique hend] at hne
    exact hne rfl
  · exact short_of_counted hc

/-- **When `wrap` ends**: for no other text does it, whatever the fuel. -/
theorem terminates_iff (s : Bytes) (maxLen : Nat) :
    Terminates s maxLen ↔ s ≠ [] ∧ ∀ w ∈ split s (str " "), 1 + w.length < maxLen :=
  ⟨Terminates.wrappable, fun h => ⟨_, Wrappable.returns h⟩⟩

end Wrappable

/-- A fatal error that names a file of 19 letters, say. -/
theorem not_terminates : ¬ ∀ s maxLen, 2 ≤ maxLen → Terminates s maxLen := by
  intro h
  have hwrap := h (str "Missing abcdefghijklmnopqrs") 20 (by decide)
  exact absurd hwrap.wrappable (by decide)

/-! ### In how many turns

A turn takes a word, or closes a line that is not empty. -/

section Turns

variable {words : List Bytes} {maxLen : Nat}

theorem exists_run_countNext (hwords : ∀ w ∈ words, 1 + w.length < maxLen) {fuel : Nat}
    (hfuel : 2 * words.length < fuel) :
    ∃ c, Loops.run (countNext words maxLen) fuel {} = some c := by
  apply Loops.run_of_measure fun c : Counting =>
    2 * (words.length - c.idx) + if 0 < c.curSize then 1 else 0
  · intro c d hnext
    obtain ⟨word, hget, hd⟩ := Option.map_eq_some_iff.mp hnext
    obtain ⟨hidx, rfl⟩ := List.getElem?_eq_some_iff.mp hget
    have hshort := hwords _ (List.getElem_mem hidx)
    subst hd
    split
    next =>
      dsimp only
      rw [if_pos (by omega)]
      omega
    next hlong =>
      have hsize : 0 < c.curSize := by omega
      dsimp only
      rw [if_pos hsize, if_neg (Nat.lt_irrefl 0)]
      omega
  · exact hfuel

theorem exists_run_fillNext (hwords : ∀ w ∈ words, 1 + w.length < maxLen) {wordsPerLine : Nat}
    (hquota : 0 < wordsPerLine) {fuel : Nat} (hfuel : 2 * words.length < fuel) :
    ∃ f, Loops.run (fillNext words maxLen wordsPerLine) fuel {} = some f := by
  apply Loops.run_of_measure fun f : Filling =>
    2 * (words.length - f.idx) + if 0 < f.curLine.length + f.wordsOnCurLine then 1 else 0
  · intro f d hnext
    obtain ⟨word, hget, hd⟩ := Option.map_eq_some_iff.mp hnext
    obtain ⟨hidx, rfl⟩ := List.getElem?_eq_some_iff.mp hget
    have hshort := hwords _ (List.getElem_mem hidx)
    subst hd
    split
    next =>
      dsimp only
      rw [if_pos (by omega)]
      omega
    next hfull =>
      have hline : 0 < f.curLine.length + f.wordsOnCurLine := by
        by_contra hnone
        exact hfull ⟨by omega, by omega⟩
      dsimp only
      rw [if_pos hline, List.length_nil, Nat.add_zero, if_neg (Nat.lt_irrefl 0)]
      omega
  · exact hfuel

end Turns

/-- **Enough turns**: twice as many as there are words, and one. -/
theorem Wrappable.wrap_eq {s : Bytes} {maxLen fuel : Nat} (h : Wrappable s maxLen)
    (hfuel : 2 * (split s (str " ")).length < fuel) {lines : List Bytes}
    (hreturns : Returns s maxLen lines) : wrap fuel s maxLen = .lines lines := by
  obtain ⟨c, f, hc, hne, hf, rfl⟩ := returns_iff.mp hreturns
  obtain ⟨c', hc'⟩ := exists_run_countNext h.2 hfuel
  obtain rfl := hc.unique ⟨fuel, hc'⟩
  have htotal : c.total = nofLines maxLen (split s (str " ")) := by
    obtain ⟨g, hg, -, hresult⟩ := ends_groups [] h.short []
    obtain ⟨d, hd, hcounts⟩ := Loops.ends_of_simulation (R := Counts (split s (str " ")))
      (fun _ _ hR => hR.next) (s := {}) ⟨rfl, rfl, rfl⟩ hg
    rw [hc.unique hd, hcounts.total, hresult, List.nil_append, nofLines]
  obtain ⟨w, words, hsplit⟩ := List.exists_cons_of_ne_nil fun hnil => h.1 (split_eq_nil_iff.mp hnil)
  have hquota : 0 < (split s (str " ")).length / c.total := by
    rw [htotal]
    exact (h.quota w (hsplit ▸ List.mem_cons_self)).2
  obtain ⟨f', hf'⟩ := exists_run_fillNext h.2 hquota hfuel
  obtain rfl := hf.unique ⟨fuel, hf'⟩
  rw [wrap, hc']
  dsimp only
  rw [if_neg hne, hf']

/-! ### What it returns -/

theorem Wrappable.returns_lines {s : Bytes} {maxLen : Nat} (h : Wrappable s maxLen) :
    ∃ lines, Returns s maxLen lines ∧ (∀ line ∈ lines, line ≠ [] ∧ line.length < maxLen) ∧
      lines.flatten = str " " ++ s := by
  refine ⟨_, h.returns, ?_, ?_⟩
  · intro line hline
    obtain ⟨g, hg, rfl⟩ := List.mem_map.mp hline
    obtain ⟨hne, hquota⟩ := groups_fit h.quota (.inl rfl) g hg
    refine ⟨joinLine_ne_nil hne, ?_⟩
    rw [length_joinLine]
    exact hquota.1
  · have hflat : (wrapped maxLen (split s (str " "))).flatten = split s (str " ") :=
      flatten_groups [] _
    rw [← List.flatMap_def]
    calc (wrapped maxLen (split s (str " "))).flatMap joinLine
        = (wrapped maxLen (split s (str " "))).flatten.flatMap (str " " ++ ·) := by
          rw [← List.flatMap_id, List.flatMap_assoc]
          rfl
      _ = (split s (str " ")).flatMap (str " " ++ ·) := by rw [hflat]
      _ = str " " ++ s := flatMap_split h.1

/-- **Nothing is lost.** -/
theorem wrap_complete (s : Bytes) (maxLen : Nat) (hs : s ≠ [])
    (hwords : ∀ w ∈ split s (str " "), 1 + w.length < maxLen) :
    ∃ lines, Returns s maxLen lines ∧ (∀ line ∈ lines, line ≠ [] ∧ line.length < maxLen) ∧
      lines.flatten = str " " ++ s :=
  Wrappable.returns_lines ⟨hs, hwords⟩

theorem wrap_complete_sample :
    ∃ lines, Returns (str "Valid card swiped, unlocking") 20 lines ∧
      (∀ line ∈ lines, line ≠ [] ∧ line.length < 20) ∧
      lines.flatten = str " " ++ str "Valid card swiped, unlocking" :=
  wrap_complete (str "Valid card swiped, unlocking") 20 (by decide) (by decide)

end Acs.Opi
