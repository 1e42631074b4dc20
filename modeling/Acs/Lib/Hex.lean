/-
  Acs/Lib/Hex.lean
  ================
  **Hexadecimal numerals: `printf` on one side, an input stream on the other.**

  `upper n` is what `%llX` prints for `n`; `extract` is what the stream
  extraction `is >> std::hex >> v` stores into an unsigned 64-bit `v` that was
  zero before: leading white space is skipped, a sign and a `0x` are accepted,
  the longest run of hexadecimal digits is converted, a value that does not fit
  is replaced by the largest one, and when there is no digit at all the result
  is zero.

  The round trip (`extract_padSpace`, `extract_padZero`) holds for both ways
  of filling a field to a fixed width, because blanks are skipped and leading
  zeros do not change the number.
-/
import Mathlib.Data.Nat.Digits.Lemmas
import Mathlib.Tactic.IntervalCases

namespace Hex

/-! ### Digits and the numbers they spell -/

def digit (d : Nat) : UInt8 :=
  if d < 10 then UInt8.ofNat (48 + d) else UInt8.ofNat (55 + d)

/-- The value of a hexadecimal digit, in either case. -/
def value? (c : UInt8) : Option Nat :=
  if 48 ≤ c ∧ c ≤ 57 then some (c.toNat - 48)
  else if 65 ≤ c ∧ c ≤ 70 then some (c.toNat - 55)
  else if 97 ≤ c ∧ c ≤ 102 then some (c.toNat - 87)
  else none

theorem value?_digit {d : Nat} (hd : d < 16) : value? (digit d) = some d := by
  interval_cases d <;> rfl

/-- The number a list of digits spells, the most significant one first. -/
def number (ds : List Nat) : Nat := ds.foldl (fun acc d => 16 * acc + d) 0

/-- The digits of `n` as they are printed; zero is printed as one digit. -/
def digits (n : Nat) : List Nat := if n = 0 then [0] else (Nat.digits 16 n).reverse

def upper (n : Nat) : List UInt8 := (digits n).map digit

/-- The values of the digits at the front of `s`, up to the first other byte. -/
def leading : List UInt8 → List Nat
  | [] => []
  | c :: s =>
      match value? c with
      | some d => d :: leading s
      | none => []

theorem leading_map_digit {ds : List Nat} (hds : ∀ d ∈ ds, d < 16) :
    leading (ds.map digit) = ds := by
  induction ds with
  | nil => rfl
  | cons d ds ih =>
    have hd : d < 16 := hds d (List.mem_cons_self ..)
    have htail : ∀ e ∈ ds, e < 16 := by
      intro e he
      exact hds e (List.mem_cons_of_mem d he)
    simp only [List.map_cons, leading, value?_digit hd, ih htail]

theorem number_digits (n : Nat) : number (digits n) = n := by
  rw [digits]
  split
  · next h => subst h; rfl
  · rw [number, List.foldl_reverse]
    have hfold : (Nat.digits 16 n).foldr (fun d acc => 16 * acc + d) 0 =
        Nat.ofDigits 16 (Nat.digits 16 n) := by
      rw [Nat.ofDigits_eq_foldr]
      congr 1
      funext d acc
      simp [Nat.add_comm]
    rw [hfold, Nat.ofDigits_digits]

theorem digits_lt {n d : Nat} (hd : d ∈ digits n) : d < 16 := by
  rw [digits] at hd
  split at hd
  · rw [List.mem_singleton] at hd
    omega
  · exact Nat.digits_lt_base (by omega) (List.mem_reverse.mp hd)

theorem digits_ne_nil (n : Nat) : digits n ≠ [] := by
  rw [digits]
  split
  · exact List.cons_ne_nil 0 []
  · next h => simpa [Nat.digits_eq_nil_iff_eq_zero] using h

theorem length_digits_le {n k : Nat} (hk : 0 < k) (hn : n < 16 ^ k) :
    (digits n).length ≤ k := by
  rw [digits]
  split
  · exact hk
  · rw [List.length_reverse]
    exact (Nat.digits_length_le_iff (by omega) n).mpr hn

theorem number_replicate_zero (k : Nat) (ds : List Nat) :
    number (List.replicate k 0 ++ ds) = number ds := by
  induction k with
  | zero => rfl
  | succ k ih => exact ih

/-! ### Bytes as pairs of digits -/

def lowerDigit (d : Nat) : UInt8 :=
  if d < 10 then UInt8.ofNat (48 + d) else UInt8.ofNat (87 + d)

/-- `%02x` of each byte in turn. -/
def encode (s : List UInt8) : List UInt8 :=
  s.flatMap fun b => [lowerDigit (b.toNat / 16), lowerDigit (b.toNat % 16)]

theorem value?_lowerDigit {d : Nat} (hd : d < 16) : value? (lowerDigit d) = some d := by
  interval_cases d <;> rfl

theorem lowerDigit_inj {d e : Nat} (hd : d < 16) (he : e < 16)
    (h : lowerDigit d = lowerDigit e) : d = e := by
  have hvalue : some d = some e := by
    rw [← value?_lowerDigit hd, h, value?_lowerDigit he]
  exact Option.some.inj hvalue

theorem encode_injective : Function.Injective encode := by
  intro s
  induction s with
  | nil =>
    intro t h
    cases t with
    | nil => rfl
    | cons c t => simp [encode] at h
  | cons b s ih =>
    intro t h
    cases t with
    | nil => simp [encode] at h
    | cons c t =>
      simp only [encode, List.flatMap_cons, List.cons_append, List.nil_append,
        List.cons.injEq] at h
      obtain ⟨hhigh, hlow, htail⟩ := h
      have hb := b.toNat_lt
      have hc := c.toNat_lt
      have hdiv := lowerDigit_inj (by omega) (by omega) hhigh
      have hmod := lowerDigit_inj (by omega) (by omega) hlow
      have hbyte : b = c := UInt8.toNat_inj.mp (by omega)
      rw [hbyte, ih htail]

theorem zero_not_mem_encode (s : List UInt8) : 0 ∉ encode s := by
  intro h
  rcases List.mem_flatMap.mp h with ⟨b, _, hb⟩
  have hlt := b.toNat_lt
  have hno : ∀ d, d < 16 → (0 : UInt8) ≠ lowerDigit d := by
    intro d hd
    interval_cases d <;> decide
  rcases List.mem_cons.mp hb with h0 | hb
  · exact hno _ (by omega) h0
  · exact hno _ (by omega) (List.mem_singleton.mp hb)

/-! ### Stream extraction -/

/-- `isspace` of the C locale: blank, tab, newline and the three next to it. -/
def isspace (c : UInt8) : Bool := c == 32 || (9 ≤ c && c ≤ 13)

/-- A leading `-` (then `true`) or `+` is taken off. -/
def splitSign : List UInt8 → Bool × List UInt8
  | [] => (false, [])
  | c :: s => if c = 45 then (true, s) else if c = 43 then (false, s) else (false, c :: s)

/-- A leading `0x` or `0X` is taken off. -/
def dropBase : List UInt8 → List UInt8
  | [] => []
  | [c] => [c]
  | c :: x :: s => if c = 48 ∧ (x = 120 ∨ x = 88) then s else c :: x :: s

/-- `v = 0; is >> std::hex >> v` for an unsigned 64-bit `v`. -/
def extract (s : List UInt8) : Nat :=
  let (negative, s) := splitSign (s.dropWhile isspace)
  let v := number (leading (dropBase s))
  if 2 ^ 64 ≤ v then 2 ^ 64 - 1
  else if negative then (2 ^ 64 - v) % 2 ^ 64
  else v

theorem isspace_digit {d : Nat} (hd : d < 16) : isspace (digit d) = false := by
  interval_cases d <;> rfl

theorem splitSign_digit {d : Nat} (hd : d < 16) (s : List UInt8) :
    splitSign (digit d :: s) = (false, digit d :: s) := by
  have hminus : digit d ≠ 45 := by interval_cases d <;> decide
  have hplus : digit d ≠ 43 := by interval_cases d <;> decide
  simp [splitSign, hminus, hplus]

/-- `X` is not a digit, so no digit string starts with the base prefix. -/
theorem dropBase_map_digit {ds : List Nat} (hds : ∀ d ∈ ds, d < 16) :
    dropBase (ds.map digit) = ds.map digit := by
  match ds, hds with
  | [], _ => rfl
  | [_], _ => rfl
  | c :: x :: ds, hds =>
    have hx : x < 16 := hds x (by simp)
    have hlower : digit x ≠ 120 := by interval_cases x <;> decide
    have hupper : digit x ≠ 88 := by interval_cases x <;> decide
    simp [dropBase, hlower, hupper]

theorem dropWhile_isspace_pad (k : Nat) {d : Nat} (hd : d < 16) (s : List UInt8) :
    (List.replicate k 32 ++ digit d :: s).dropWhile isspace = digit d :: s := by
  induction k with
  | zero => simp [isspace_digit hd]
  | succ k ih =>
    rw [List.replicate_succ, List.cons_append, List.dropWhile_cons_of_pos (by rfl)]
    exact ih

/-- **Extraction of a blank-padded digit string.** -/
theorem extract_map_digit (k : Nat) {ds : List Nat} (hne : ds ≠ [])
    (hds : ∀ d ∈ ds, d < 16) (hsmall : number ds < 2 ^ 64) :
    extract (List.replicate k 32 ++ ds.map digit) = number ds := by
  cases ds with
  | nil => exact absurd rfl hne
  | cons d ds =>
    have hd : d < 16 := hds d (List.mem_cons_self ..)
    have hspace := dropWhile_isspace_pad k hd (ds.map digit)
    have hsign := splitSign_digit hd (ds.map digit)
    have hbase := dropBase_map_digit hds
    have hlead := leading_map_digit hds
    rw [List.map_cons] at hbase hlead
    rw [List.map_cons]
    simp only [extract, hspace, hsign, hbase, hlead]
    rw [if_neg (Nat.not_le.mpr hsmall)]
    simp

/-! ### Fixed-width fields -/

/-- `%<k>llX`: filled with blanks on the left. -/
def padSpace (k n : Nat) : List UInt8 := (upper n).leftpad k 32

/-- `%0<k>llX`: filled with zeros on the left. -/
def padZero (k n : Nat) : List UInt8 := (upper n).leftpad k 48

theorem length_padSpace {k n : Nat} (hk : 0 < k) (hn : n < 16 ^ k) :
    (padSpace k n).length = k := by
  have hlen := length_digits_le hk hn
  simp only [padSpace, upper, List.length_leftpad, List.length_map]
  omega

/-- A field ends in a digit. -/
theorem exists_padSpace (k n : Nat) : ∃ front d, d < 16 ∧ padSpace k n = front ++ [digit d] := by
  rcases List.eq_nil_or_concat (digits n) with hnil | ⟨ds, d, hds⟩
  · exact absurd hnil (digits_ne_nil n)
  rw [List.concat_eq_append] at hds
  have hd : d < 16 := digits_lt (n := n) (by simp [hds])
  refine ⟨List.replicate (k - (upper n).length) 32 ++ ds.map digit, d, hd, ?_⟩
  rw [padSpace, List.leftpad, List.append_assoc, upper, hds, List.map_append, List.map_singleton]

theorem digits_of_lt {n : Nat} (h : n < 16) : digits n = [n] := by
  rw [digits]
  split
  · next h0 => rw [h0]
  · next h0 => rw [Nat.digits_of_lt 16 n h0 h, List.reverse_singleton]

theorem digits_of_ge {n : Nat} (h : 16 ≤ n) : digits n = digits (n / 16) ++ [n % 16] := by
  have hn : n ≠ 0 := by omega
  have hq : n / 16 ≠ 0 := by omega
  rw [digits, digits, if_neg hn, if_neg hq, Nat.digits_def' (by omega) (by omega),
    List.reverse_cons]

/-- The last digit of a field comes after a field for the rest of the number. -/
theorem padZero_succ {k : Nat} (hk : 0 < k) (n : Nat) :
    padZero (k + 1) n = padZero k (n / 16) ++ [digit (n % 16)] := by
  simp only [padZero, upper, List.leftpad, List.length_map]
  by_cases h : n < 16
  · have hq : n / 16 = 0 := by omega
    have hr : n % 16 = n := by omega
    obtain ⟨k, rfl⟩ : ∃ j, k = j + 1 := ⟨k - 1, by omega⟩
    rw [hq, hr, digits_of_lt h, digits_of_lt (by omega : 0 < 16)]
    simp only [List.length_singleton, Nat.add_sub_cancel, List.map_singleton]
    rw [List.replicate_succ']
    rfl
  · rw [digits_of_ge (by omega)]
    simp [Nat.add_sub_add_right]

theorem padZero_one {n : Nat} (h : n < 16) : padZero 1 n = [digit n] := by
  simp [padZero, upper, digits_of_lt h]

/-- A byte more is two digits more. -/
theorem padZero_byte {k : Nat} (hk : 0 < k) (n : Nat) :
    padZero (k + 2) n = padZero k (n / 256) ++ [digit (n / 16 % 16), digit (n % 16)] := by
  rw [padZero_succ (by omega), padZero_succ hk, Nat.div_div_eq_div_mul, List.append_assoc]
  rfl

theorem padZero_two {n : Nat} (h : n < 256) :
    padZero 2 n = [digit (n / 16), digit (n % 16)] := by
  rw [padZero_succ (by omega), padZero_one (by omega)]
  rfl

theorem length_padZero {k n : Nat} (hk : 0 < k) (hn : n < 16 ^ k) : (padZero k n).length = k := by
  have hlen := length_digits_le hk hn
  simp only [padZero, upper, List.length_leftpad, List.length_map]
  omega

theorem number_snoc (ds : List Nat) (d : Nat) : number (ds ++ [d]) = 16 * number ds + d := by
  rw [number, number, List.foldl_append]
  rfl

theorem number_lt {ds : List Nat} (hds : ∀ d ∈ ds, d < 16) : number ds < 16 ^ ds.length := by
  induction ds using List.reverseRecOn with
  | nil => exact Nat.one_pos
  | append_singleton ds d ih =>
    rw [List.forall_mem_append, List.forall_mem_singleton] at hds
    have hrest := ih hds.1
    rw [number_snoc, List.length_append, List.length_singleton, Nat.pow_succ]
    omega

/-- **A field of digits is the field of the number they spell.** -/
theorem padZero_number {ds : List Nat} (hne : ds ≠ []) (hds : ∀ d ∈ ds, d < 16) :
    padZero ds.length (number ds) = ds.map digit := by
  induction ds using List.reverseRecOn with
  | nil => exact absurd rfl hne
  | append_singleton ds d ih =>
    rw [List.forall_mem_append, List.forall_mem_singleton] at hds
    have hdiv : (16 * number ds + d) / 16 = number ds := by omega
    have hmod : (16 * number ds + d) % 16 = d := by omega
    rw [number_snoc, List.length_append, List.length_singleton, List.map_append,
      List.map_singleton]
    by_cases hempty : ds = []
    · subst hempty
      have hd : 16 * number [] + d = d := by rw [number, List.foldl_nil]; omega
      rw [hd]
      exact padZero_one hds.2
    · rw [padZero_succ (List.length_pos_iff.mpr hempty), hdiv, hmod, ih hempty hds.1]

theorem mem_padZero {k n : Nat} {c : UInt8} (h : c ∈ padZero k n) : ∃ d < 16, c = digit d := by
  rw [padZero, List.leftpad, List.mem_append] at h
  rcases h with h | h
  · exact ⟨0, by decide, List.eq_of_mem_replicate h⟩
  · obtain ⟨d, hd, rfl⟩ := List.mem_map.mp h
    exact ⟨d, digits_lt hd, rfl⟩

theorem digit_lt {d : Nat} (hd : d < 16) : digit d < 128 := by
  interval_cases d <;> decide

theorem digit_ne_blank {d : Nat} (hd : d < 16) : digit d ≠ 32 := by
  interval_cases d <;> decide

theorem lt_of_mem_padZero {k n : Nat} {c : UInt8} (h : c ∈ padZero k n) : c < 128 := by
  obtain ⟨d, hd, rfl⟩ := mem_padZero h
  exact digit_lt hd

theorem lt_of_mem_padSpace {k n : Nat} {c : UInt8} (h : c ∈ padSpace k n) : c < 128 := by
  rw [padSpace, List.leftpad, List.mem_append] at h
  rcases h with h | h
  · rw [List.eq_of_mem_replicate h]
    decide
  · obtain ⟨d, hd, rfl⟩ := List.mem_map.mp h
    exact digit_lt (digits_lt hd)

/-- A number with all the digits needs no filling. -/
theorem padSpace_eq_padZero {k n : Nat} (hn : 16 ^ k ≤ n) :
    padSpace (k + 1) n = padZero (k + 1) n := by
  have hn0 : n ≠ 0 := by
    have hpos : 0 < 16 ^ k := Nat.pow_pos (by omega)
    omega
  have hlen : ¬ (digits n).length ≤ k := by
    rw [digits, if_neg hn0, List.length_reverse, Nat.digits_length_le_iff (by omega)]
    omega
  have hfull : k + 1 - (upper n).length = 0 := by
    rw [upper, List.length_map]
    omega
  rw [padSpace, padZero, List.leftpad, List.leftpad, hfull]
  rfl

theorem blank_mem_padSpace {k n : Nat} (hk : 0 < k) (hn : n < 16 ^ k) :
    32 ∈ padSpace (k + 1) n := by
  have hlen := length_digits_le hk hn
  rw [padSpace, List.leftpad, List.mem_append]
  apply Or.inl
  rw [List.mem_replicate, upper, List.length_map]
  exact ⟨by omega, rfl⟩

theorem extract_padSpace (k : Nat) {n : Nat} (hn : n < 2 ^ 64) :
    extract (padSpace k n) = n := by
  have hround := extract_map_digit (k - (upper n).length) (digits_ne_nil n)
    (fun _ => digits_lt) (by rw [number_digits]; exact hn)
  rw [number_digits] at hround
  simpa [padSpace, upper, List.leftpad] using hround

theorem extract_padZero (k : Nat) {n : Nat} (hn : n < 2 ^ 64) :
    extract (padZero k n) = n := by
  have hzero : padZero k n =
      (List.replicate (k - (upper n).length) 0 ++ digits n).map digit := by
    simp only [padZero, upper, List.leftpad, List.map_append, List.map_replicate]
    rfl
  have hnumber : number (List.replicate (k - (upper n).length) 0 ++ digits n) = n := by
    rw [number_replicate_zero, number_digits]
  have hne : List.replicate (k - (upper n).length) 0 ++ digits n ≠ [] := by
    simp [digits_ne_nil]
  have hlt : ∀ d ∈ List.replicate (k - (upper n).length) 0 ++ digits n, d < 16 := by
    intro d hd
    rcases List.mem_append.mp hd with h | h
    · rw [List.eq_of_mem_replicate h]
      omega
    · exact digits_lt h
  have hround := extract_map_digit 0 hne hlt (by rw [hnumber]; exact hn)
  rw [hnumber] at hround
  rw [hzero]
  simpa using hround

/-! ### What an extraction reads -/

def IsDigit (c : UInt8) : Prop := (value? c).isSome = true

instance (c : UInt8) : Decidable (IsDigit c) := inferInstanceAs (Decidable (_ = _))

/-- `s` does not go on with a digit. -/
def NoDigitNext (s : List UInt8) : Prop := ∀ c ∈ s.head?, ¬ IsDigit c

/-- What is stored for the number `v` after a sign. -/
def stored (negative : Bool) (v : Nat) : Nat :=
  if 2 ^ 64 ≤ v then 2 ^ 64 - 1
  else if negative then (2 ^ 64 - v) % 2 ^ 64
  else v

/-- `s` is white space, perhaps a sign, perhaps a `0x`, and a whole run of digits,
    with anything behind it; `v` is what is stored for the number. -/
def Reads (s : List UInt8) (v : Nat) : Prop :=
  ∃ blanks sign base ds rest : List UInt8,
    s = blanks ++ (sign ++ (base ++ (ds ++ rest))) ∧
    (∀ c ∈ blanks, isspace c = true) ∧
    (sign = [] ∨ sign = [43] ∨ sign = [45]) ∧
    (base = [] ∨ base = [48, 120] ∨ base = [48, 88]) ∧
    ds ≠ [] ∧ (∀ c ∈ ds, IsDigit c) ∧ NoDigitNext rest ∧
    v = stored (sign = [45]) (number (leading ds))

theorem extract_eq (s : List UInt8) :
    extract s =
      stored (splitSign (s.dropWhile isspace)).1
        (number (leading (dropBase (splitSign (s.dropWhile isspace)).2))) := rfl

theorem stored_zero (negative : Bool) : stored negative 0 = 0 := by
  cases negative <;> rfl

theorem leading_cons_digit {c : UInt8} {d : Nat} (h : value? c = some d) (s : List UInt8) :
    leading (c :: s) = d :: leading s := by
  rw [leading, h]

theorem leading_of_noDigitNext {s : List UInt8} (h : NoDigitNext s) : leading s = [] := by
  cases s with
  | nil => rfl
  | cons c s =>
    have hc : value? c = none := Option.not_isSome_iff_eq_none.mp (h c rfl)
    rw [leading, hc]

theorem leading_append {ds rest : List UInt8} (hds : ∀ c ∈ ds, IsDigit c)
    (hrest : NoDigitNext rest) : leading (ds ++ rest) = leading ds := by
  induction ds with
  | nil => exact leading_of_noDigitNext hrest
  | cons c ds ih =>
    rw [List.forall_mem_cons] at hds
    obtain ⟨d, hd⟩ := Option.isSome_iff_exists.mp hds.1
    rw [List.cons_append, leading_cons_digit hd, leading_cons_digit hd, ih hds.2]

/-- Every text is a run of digits and what comes behind it. -/
theorem exists_run (s : List UInt8) :
    ∃ ds rest, s = ds ++ rest ∧ (∀ c ∈ ds, IsDigit c) ∧ NoDigitNext rest := by
  induction s with
  | nil => exact ⟨[], [], rfl, by simp, by simp [NoDigitNext]⟩
  | cons c s ih =>
    by_cases hc : IsDigit c
    · obtain ⟨ds, rest, hs, hds, hrest⟩ := ih
      exact ⟨c :: ds, rest, by rw [hs, List.cons_append], List.forall_mem_cons.mpr ⟨hc, hds⟩, hrest⟩
    · refine ⟨[], c :: s, rfl, by simp, ?_⟩
      intro c' hc'
      rwa [← Option.some.inj hc']

/-- A digit is neither white space nor part of a sign or a prefix. -/
theorem isDigit_ne {c : UInt8} (h : IsDigit c) :
    isspace c = false ∧ c ≠ 45 ∧ c ≠ 43 ∧ c ≠ 120 ∧ c ≠ 88 := by
  refine ⟨?_, ?_, ?_, ?_, ?_⟩
  · apply Bool.eq_false_iff.mpr
    intro hs
    have hle : c.toNat ≤ 32 := by
      rw [isspace, Bool.or_eq_true, Bool.and_eq_true, beq_iff_eq, decide_eq_true_eq,
        decide_eq_true_eq] at hs
      rcases hs with rfl | ⟨-, hs⟩
      · decide
      · exact (UInt8.le_iff_toNat_le.mp hs).trans (by decide)
    have hsmall : ∀ b : UInt8, 32 < b.toNat → ¬ b ≤ c := by
      intro b hb hbc
      have := UInt8.le_iff_toNat_le.mp hbc
      omega
    rw [IsDigit, value?, if_neg fun h' => hsmall 48 (by decide) h'.1,
      if_neg fun h' => hsmall 65 (by decide) h'.1,
      if_neg fun h' => hsmall 97 (by decide) h'.1] at h
    exact absurd h (by decide)
  all_goals
    rintro rfl
    exact absurd h (by decide)

theorem splitSign_cases (s : List UInt8) :
    ∃ sign, s = sign ++ (splitSign s).2 ∧ (sign = [] ∨ sign = [43] ∨ sign = [45]) ∧
      (splitSign s).1 = decide (sign = [45]) := by
  cases s with
  | nil => exact ⟨[], rfl, .inl rfl, rfl⟩
  | cons c s =>
    rw [splitSign]
    split
    next h => exact ⟨[45], by rw [h]; rfl, .inr (.inr rfl), rfl⟩
    next h =>
      split
      next h' => exact ⟨[43], by rw [h']; rfl, .inr (.inl rfl), rfl⟩
      next h' => exact ⟨[], rfl, .inl rfl, rfl⟩

theorem dropBase_cases (s : List UInt8) :
    ∃ base, s = base ++ dropBase s ∧ (base = [] ∨ base = [48, 120] ∨ base = [48, 88]) := by
  match s with
  | [] => exact ⟨[], rfl, .inl rfl⟩
  | [c] => exact ⟨[], rfl, .inl rfl⟩
  | c :: x :: s =>
    rw [dropBase]
    split
    next h =>
      obtain ⟨rfl, rfl | rfl⟩ := h
      · exact ⟨[48, 120], rfl, .inr (.inl rfl)⟩
      · exact ⟨[48, 88], rfl, .inr (.inr rfl)⟩
    next h => exact ⟨[], rfl, .inl rfl⟩

theorem dropWhile_isspace_append {blanks s : List UInt8} (hblanks : ∀ c ∈ blanks, isspace c = true)
    (hs : ∀ c ∈ s.head?, isspace c = false) : (blanks ++ s).dropWhile isspace = s := by
  induction blanks with
  | nil =>
    cases s with
    | nil => rfl
    | cons c s => exact List.dropWhile_cons_of_neg (by rw [hs c rfl]; exact Bool.false_ne_true)
  | cons c blanks ih =>
    rw [List.forall_mem_cons] at hblanks
    rw [List.cons_append, List.dropWhile_cons_of_pos hblanks.1]
    exact ih hblanks.2

theorem splitSign_append {sign s : List UInt8} (hsign : sign = [] ∨ sign = [43] ∨ sign = [45])
    (hs : ∀ c ∈ s.head?, c ≠ 45 ∧ c ≠ 43) :
    splitSign (sign ++ s) = (decide (sign = [45]), s) := by
  rcases hsign with rfl | rfl | rfl
  · cases s with
    | nil => rfl
    | cons c s =>
      obtain ⟨hminus, hplus⟩ := hs c rfl
      rw [List.nil_append, splitSign, if_neg hminus, if_neg hplus]
      rfl
  · rfl
  · rfl

/-- A run of digits is taken for a prefix only if it is a single zero. -/
theorem dropBase_run {ds rest : List UInt8} (hds : ∀ c ∈ ds, IsDigit c)
    (hne : number (leading ds) ≠ 0) : dropBase (ds ++ rest) = ds ++ rest := by
  match ds with
  | [] => exact absurd rfl hne
  | [c] =>
    have hc : c ≠ 48 := by
      rintro rfl
      exact hne rfl
    cases rest with
    | nil => rfl
    | cons x rest =>
      rw [List.singleton_append, dropBase, if_neg]
      exact fun h => hc h.1
  | c :: x :: ds =>
    have hx := isDigit_ne (hds x (by simp))
    rw [List.cons_append, List.cons_append, dropBase, if_neg]
    rintro ⟨-, h | h⟩
    · exact hx.2.2.2.1 h
    · exact hx.2.2.2.2 h

/-- **Which texts an extraction reads as a number**, zero apart. -/
theorem extract_eq_iff {s : List UInt8} {v : Nat} (hv : v ≠ 0) : extract s = v ↔ Reads s v := by
  constructor
  · rintro rfl
    obtain ⟨sign, hsplit, hsign, hneg⟩ := splitSign_cases (s.dropWhile isspace)
    obtain ⟨base, hdrop, hbase⟩ := dropBase_cases (splitSign (s.dropWhile isspace)).2
    obtain ⟨ds, rest, hrun, hds, hrest⟩ := exists_run (dropBase (splitSign (s.dropWhile isspace)).2)
    have hextract : extract s = stored (sign = [45]) (number (leading ds)) := by
      rw [extract_eq, hneg, hrun, leading_append hds hrest]
    refine ⟨s.takeWhile isspace, sign, base, ds, rest, ?_, ?_, hsign, hbase, ?_, hds, hrest,
      hextract⟩
    · rw [← hrun, ← hdrop, ← hsplit, List.takeWhile_append_dropWhile]
    · exact List.all_eq_true.mp List.all_takeWhile
    · rintro rfl
      exact hv (hextract.trans (stored_zero _))
  · rintro ⟨blanks, sign, base, ds, rest, rfl, hblanks, hsign, hbase, hne, hds, hrest, hstored⟩
    have hnumber : number (leading ds) ≠ 0 := by
      intro h0
      rw [h0, stored_zero] at hstored
      exact hv hstored
    obtain ⟨d, ds', hcons⟩ := List.exists_cons_of_ne_nil hne
    have hd := isDigit_ne (hds d (by rw [hcons]; exact List.mem_cons_self))
    -- the first character behind the white space and behind the sign
    have hfirst : ∀ c ∈ (base ++ (ds ++ rest)).head?, isspace c = false ∧ c ≠ 45 ∧ c ≠ 43 := by
      intro c hc
      rcases hbase with rfl | rfl | rfl
      · rw [hcons] at hc
        obtain rfl := Option.some.inj hc
        exact ⟨hd.1, hd.2.1, hd.2.2.1⟩
      · obtain rfl := Option.some.inj hc
        decide
      · obtain rfl := Option.some.inj hc
        decide
    have hspace : ∀ c ∈ (sign ++ (base ++ (ds ++ rest))).head?, isspace c = false := by
      intro c hc
      rcases hsign with rfl | rfl | rfl
      · exact (hfirst c hc).1
      · obtain rfl := Option.some.inj hc
        decide
      · obtain rfl := Option.some.inj hc
        decide
    have hbody : dropBase (base ++ (ds ++ rest)) = ds ++ rest := by
      rcases hbase with rfl | rfl | rfl
      · rw [List.nil_append]
        exact dropBase_run hds hnumber
      · rfl
      · rfl
    rw [extract_eq, dropWhile_isspace_append hblanks hspace,
      splitSign_append hsign fun c hc => (hfirst c hc).2]
    dsimp only
    rw [hbody, leading_append hds hrest, ← hstored]

end Hex
