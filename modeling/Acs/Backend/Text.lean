/-
  Acs/Backend/Text.lean
  =====================
  **Texts and numbers of Python**, as far as the imports read them: `strip`,
  `isdecimal` and `int`.  A decimal digit is one of any script, and what counts
  as a space is that of `str.isspace`.  `int` has a limit on the digits that it
  takes.
-/
import Mathlib.Data.List.Basic

namespace Acs.Backend.Text

/-- The zeros of the decimal digits of Unicode; each is followed by its nine others. -/
def decimalZeros : List Nat :=
  [0x30, 0x660, 0x6f0, 0x7c0, 0x966, 0x9e6, 0xa66, 0xae6, 0xb66, 0xbe6, 0xc66, 0xce6, 0xd66,
    0xde6, 0xe50, 0xed0, 0xf20, 0x1040, 0x1090, 0x17e0, 0x1810, 0x1946, 0x19d0, 0x1a80, 0x1a90,
    0x1b50, 0x1bb0, 0x1c40, 0x1c50, 0xa620, 0xa8d0, 0xa900, 0xa9d0, 0xa9f0, 0xaa50, 0xabf0,
    0xff10, 0x104a0, 0x10d30, 0x11066, 0x110f0, 0x11136, 0x111d0, 0x112f0, 0x11450, 0x114d0,
    0x11650, 0x116c0, 0x11730, 0x118e0, 0x11950, 0x11c50, 0x11d50, 0x11da0, 0x11f50, 0x16a60, 0x16ac0,
    0x16b50, 0x1d7ce, 0x1d7d8, 0x1d7e2, 0x1d7ec, 0x1d7f6, 0x1e140, 0x1e2f0, 0x1e4f0, 0x1e950, 0x1fbf0]

def decimal (c : Char) : Option Nat :=
  (decimalZeros.find? fun first => first ≤ c.toNat && c.toNat < first + 10).map (c.toNat - ·)

def spaces : List Nat :=
  [0x9, 0xa, 0xb, 0xc, 0xd, 0x1c, 0x1d, 0x1e, 0x1f, 0x20, 0x85, 0xa0, 0x1680, 0x2000, 0x2001,
    0x2002, 0x2003, 0x2004, 0x2005, 0x2006, 0x2007, 0x2008, 0x2009, 0x200a, 0x2028, 0x2029,
    0x202f, 0x205f, 0x3000]

def isSpace (c : Char) : Bool := spaces.contains c.toNat

/-- `int` does not take the four separators of ASCII for spaces. -/
def isNumberSpace (c : Char) : Bool := isSpace c && !(0x1c ≤ c.toNat && c.toNat ≤ 0x1f)

def stripChars (space : Char → Bool) (cs : List Char) : List Char :=
  ((cs.dropWhile space).reverse.dropWhile space).reverse

def strip (s : String) : String := .ofList (stripChars isSpace s.toList)

def isdecimal (s : String) : Bool := s != "" && s.toList.all fun c => (decimal c).isSome

/-- Digits with single underscores between them; `afterDigit` says whether the
    last character was a digit, and `n` is the value so far. -/
def digitsFrom : Bool → Nat → List Char → Option Nat
  | afterDigit, n, [] => if afterDigit then some n else none
  | afterDigit, n, c :: cs =>
      match decimal c with
      | some d => digitsFrom true (10 * n + d) cs
      | none => if afterDigit && c == '_' then digitsFrom false n cs else none

/-- How many digits the interpreter takes for a number. -/
def maxDigits : Nat := 4300

def tooLong (s : String) : Bool :=
  maxDigits < (s.toList.filter fun c => (decimal c).isSome).length

/-- `int` of a text, `none` for a `ValueError`. -/
def int (s : String) : Option Int :=
  if tooLong s then none
  else
    match stripChars isNumberSpace s.toList with
    | '-' :: cs => (digitsFrom false 0 cs).map fun n => -(n : Int)
    | '+' :: cs => (digitsFrom false 0 cs).map fun n => (n : Int)
    | cs => (digitsFrom false 0 cs).map fun n => (n : Int)

example : int " -1_0 " = some (-10) := by decide

/-! ### Texts of digits -/

/-- A digit is no space. -/
theorem isNumberSpace_of_decimal {c : Char} (h : (decimal c).isSome = true) :
    isNumberSpace c = false := by
  have hdisjoint : ∀ space ∈ spaces, ∀ first ∈ decimalZeros,
      ¬ (first ≤ space ∧ space < first + 10) := by decide
  rw [decimal, Option.isSome_map, List.find?_isSome] at h
  obtain ⟨first, hfirst, hrange⟩ := h
  rw [Bool.and_eq_true, decide_eq_true_eq, decide_eq_true_eq] at hrange
  rw [isNumberSpace, Bool.and_eq_false_iff, isSpace]
  left
  rw [Bool.eq_false_iff]
  intro hspace
  exact hdisjoint c.toNat (List.contains_iff_mem.mp hspace) first hfirst hrange

theorem stripChars_of_forall {space : Char → Bool} {cs : List Char}
    (h : ∀ c ∈ cs, space c = false) : stripChars space cs = cs := by
  have hdrop : ∀ ds : List Char, (∀ c ∈ ds, space c = false) → ds.dropWhile space = ds := by
    intro ds hds
    cases ds with
    | nil => rfl
    | cons c ds => exact List.dropWhile_cons_of_neg (by simp [hds c List.mem_cons_self])
  rw [stripChars, hdrop cs h, hdrop cs.reverse (by simpa using h), List.reverse_reverse]

theorem isSome_digitsFrom {cs : List Char} (h : ∀ c ∈ cs, (decimal c).isSome = true)
    (n : Nat) (afterDigit : Bool) (hne : afterDigit = true ∨ cs ≠ []) :
    (digitsFrom afterDigit n cs).isSome = true := by
  induction cs generalizing n afterDigit with
  | nil =>
    rw [digitsFrom, if_pos (hne.resolve_right fun hnil => hnil rfl)]
    rfl
  | cons c cs ih =>
    rw [List.forall_mem_cons] at h
    obtain ⟨d, hd⟩ := Option.isSome_iff_exists.mp h.1
    rw [digitsFrom, hd]
    exact ih h.2 _ true (.inl rfl)

/-- **The number of a text of digits** is refused exactly when the text is too long. -/
theorem int_eq_none_iff {s : String} (h : isdecimal s = true) :
    int s = none ↔ maxDigits < s.toList.length := by
  rw [isdecimal, Bool.and_eq_true, bne_iff_ne, List.all_eq_true] at h
  have hlong : tooLong s = decide (maxDigits < s.toList.length) := by
    rw [tooLong, List.filter_eq_self.mpr h.2]
  have hne : s.toList ≠ [] := by
    intro hnil
    exact h.1 (String.toList_eq_nil_iff.mp hnil)
  have hsign : ∀ c ∈ s.toList, c ≠ '-' ∧ c ≠ '+' := by
    intro c hc
    have hdigit := h.2 c hc
    constructor
    · rintro rfl
      exact absurd hdigit (by decide)
    · rintro rfl
      exact absurd hdigit (by decide)
  have hstrip : stripChars isNumberSpace s.toList = s.toList :=
    stripChars_of_forall fun c hc => isNumberSpace_of_decimal (h.2 c hc)
  have hsome := isSome_digitsFrom h.2 0 false (.inr hne)
  rw [int, hlong, hstrip]
  split
  next hmax => exact iff_of_true rfl (decide_eq_true_eq.mp hmax)
  next hmax =>
    refine iff_of_false ?_ fun hlt => hmax (decide_eq_true_eq.mpr hlt)
    split
    next cs hcs => exact absurd rfl (hsign '-' (by rw [hcs]; exact List.mem_cons_self)).1
    next cs hcs => exact absurd rfl (hsign '+' (by rw [hcs]; exact List.mem_cons_self)).2
    next =>
      obtain ⟨n, hn⟩ := Option.isSome_iff_exists.mp hsome
      rw [hn]
      exact Option.some_ne_none _

end Acs.Backend.Text
