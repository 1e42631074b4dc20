/-
  Acs/Lib/HexScan.lean
  ====================
  **Bytes scanned from pairs of hexadecimal digits.**

  `scanByte` is what `sscanf(s, "%2hhx", &b)` makes of the front of a text.  On a
  pair of digits it is the byte that they spell (`scanByte_digits`), and printing
  the bytes again gives the digits in lower case (`encode_decode`).  It reads more
  than that: which texts, is said by `Scannable`.
-/
import Acs.Lib.Hex

namespace Hex

/-! ### Scanning a byte -/

/-- What `sscanf(s, "%2hhx", &b)` stores if it returns one.  White space is skipped
    and does not count; of the two characters one may be a sign; and a `0x` is the
    beginning of a number that there is no room for. -/
def scanByte (s : List UInt8) : Option UInt8 :=
  match s.dropWhile isspace with
  | [] => none
  | c :: rest =>
    match value? c with
    | some a =>
      match rest with
      | [] => some (UInt8.ofNat a)
      | d :: _ =>
        match value? d with
        | some b => some (UInt8.ofNat (16 * a + b))
        | none => if c = 48 ∧ (d = 120 ∨ d = 88) then none else some (UInt8.ofNat a)
    | none =>
      match rest with
      | [] => none
      | d :: _ =>
        if c = 45 then (value? d).map fun b => UInt8.ofNat (256 - b)
        else if c = 43 then (value? d).map UInt8.ofNat
        else none

/-- A number can be read at the front of `s`, behind white space and a sign. -/
def Scannable (s : List UInt8) : Prop :=
  ∃ (blanks sign : List UInt8) (c : UInt8) (rest : List UInt8), s = blanks ++ (sign ++ c :: rest) ∧
    (∀ b ∈ blanks, isspace b = true) ∧ (sign = [] ∨ sign = [43] ∨ sign = [45]) ∧ IsDigit c ∧
    ¬ (sign = [] ∧ c = 48 ∧ ∃ d ∈ rest.head?, d = 120 ∨ d = 88)

theorem scannable_of_scanByte {s : List UInt8} {b : UInt8} (h : scanByte s = some b) :
    Scannable s := by
  have hs : s = s.takeWhile isspace ++ s.dropWhile isspace := List.takeWhile_append_dropWhile.symm
  have hblanks : ∀ c ∈ s.takeWhile isspace, isspace c = true :=
    List.all_eq_true.mp List.all_takeWhile
  rw [scanByte] at h
  split at h
  next => exact absurd h (by simp)
  next c rest htext =>
    rw [htext] at hs
    split at h
    next a ha =>
      have hdigit : IsDigit c := Option.isSome_iff_exists.mpr ⟨a, ha⟩
      refine ⟨_, [], c, rest, hs, hblanks, .inl rfl, hdigit, ?_⟩
      rintro ⟨-, hc, d, hd, hx⟩
      cases rest with
      | nil => exact absurd hd (by simp)
      | cons e rest =>
        obtain rfl := Option.some.inj hd
        dsimp only at h
        split at h
        next b hb =>
          have hnone : value? e = none := by rcases hx with rfl | rfl <;> rfl
          rw [hnone] at hb
          exact absurd hb (by simp)
        next =>
          rw [if_pos ⟨hc, hx⟩] at h
          exact absurd h (by simp)
    next =>
      split at h
      next => exact absurd h (by simp)
      next d rest' =>
        have hdigit : ∀ {f : Nat → UInt8}, (value? d).map f = some b → IsDigit d := by
          intro f hf
          obtain ⟨a, ha, -⟩ := Option.map_eq_some_iff.mp hf
          exact Option.isSome_iff_exists.mpr ⟨a, ha⟩
        split at h
        next hc =>
          rw [hc] at hs
          exact ⟨_, [45], d, rest', hs, hblanks, .inr (.inr rfl), hdigit h,
            fun hn => absurd hn.1 (List.cons_ne_nil _ _)⟩
        next =>
          split at h
          next hc =>
            rw [hc] at hs
            exact ⟨_, [43], d, rest', hs, hblanks, .inr (.inl rfl), hdigit h,
              fun hn => absurd hn.1 (List.cons_ne_nil _ _)⟩
          next => exact absurd h (by simp)

theorem exists_scanByte {s : List UInt8} (h : Scannable s) : ∃ b, scanByte s = some b := by
  obtain ⟨blanks, sign, c, rest, rfl, hblanks, hsign, hdigit, hbase⟩ := h
  obtain ⟨a, ha⟩ := Option.isSome_iff_exists.mp hdigit
  have hspace : ∀ b ∈ (sign ++ c :: rest).head?, isspace b = false := by
    intro b hb
    rcases hsign with rfl | rfl | rfl
    · obtain rfl := Option.some.inj hb
      exact (isDigit_ne hdigit).1
    · obtain rfl := Option.some.inj hb
      decide
    · obtain rfl := Option.some.inj hb
      decide
  rw [scanByte, dropWhile_isspace_append hblanks hspace]
  rcases hsign with rfl | rfl | rfl
  · rw [List.nil_append]
    dsimp only
    rw [ha]
    dsimp only
    cases rest with
    | nil => exact ⟨_, rfl⟩
    | cons d rest =>
      dsimp only
      split
      next => exact ⟨_, rfl⟩
      next =>
        rw [if_neg]
        · exact ⟨_, rfl⟩
        · rintro ⟨hc, hx⟩
          exact hbase ⟨rfl, hc, d, rfl, hx⟩
  · have hsign : value? 43 = none := rfl
    simp only [List.singleton_append, hsign, ha]
    exact ⟨_, rfl⟩
  · have hsign : value? 45 = none := rfl
    simp only [List.singleton_append, hsign, ha]
    exact ⟨_, rfl⟩

/-! ### Decoding pairs of digits -/

/-- The bytes that pairs of digits spell. -/
def decode : List UInt8 → List UInt8
  | c :: d :: s => UInt8.ofNat (16 * (value? c).getD 0 + (value? d).getD 0) :: decode s
  | _ => []

def lower (c : UInt8) : UInt8 := if 65 ≤ c ∧ c ≤ 70 then c + 32 else c

/-- Two digits are scanned as the byte that they spell. -/
theorem scanByte_digits {c d : UInt8} (hc : IsDigit c) (hd : IsDigit d) (s : List UInt8) :
    scanByte (c :: d :: s) = some (UInt8.ofNat (16 * (value? c).getD 0 + (value? d).getD 0)) := by
  obtain ⟨a, ha⟩ := Option.isSome_iff_exists.mp hc
  obtain ⟨b, hb⟩ := Option.isSome_iff_exists.mp hd
  have hspace : (c :: d :: s).dropWhile isspace = c :: d :: s :=
    List.dropWhile_cons_of_neg (by rw [(isDigit_ne hc).1]; exact Bool.false_ne_true)
  rw [scanByte, hspace]
  dsimp only
  rw [ha]
  dsimp only
  rw [hb]
  rfl

theorem lowerDigit_value {c : UInt8} {d : Nat} (h : value? c = some d) :
    d < 16 ∧ lowerDigit d = lower c := by
  have hc : UInt8.ofNat c.toNat = c := UInt8.ofNat_toNat
  rw [value?] at h
  split_ifs at h with h1 h2 h3
  · have hlow : 48 ≤ c.toNat := UInt8.le_iff_toNat_le.mp h1.1
    have hhigh : c.toNat ≤ 57 := UInt8.le_iff_toNat_le.mp h1.2
    obtain rfl := Option.some.inj h
    refine ⟨by omega, ?_⟩
    rw [lowerDigit, if_pos (by omega), Nat.add_sub_cancel' hlow, hc, lower, if_neg]
    rintro ⟨hupper, -⟩
    have hupper : 65 ≤ c.toNat := UInt8.le_iff_toNat_le.mp hupper
    omega
  · have hlow : 65 ≤ c.toNat := UInt8.le_iff_toNat_le.mp h2.1
    have hhigh : c.toNat ≤ 70 := UInt8.le_iff_toNat_le.mp h2.2
    obtain rfl := Option.some.inj h
    refine ⟨by omega, ?_⟩
    have hsum : 87 + (c.toNat - 55) = c.toNat + 32 := by omega
    rw [lowerDigit, if_neg (by omega), hsum, UInt8.ofNat_add, hc, lower, if_pos h2]
    rfl
  · have hlow : 97 ≤ c.toNat := UInt8.le_iff_toNat_le.mp h3.1
    have hhigh : c.toNat ≤ 102 := UInt8.le_iff_toNat_le.mp h3.2
    obtain rfl := Option.some.inj h
    refine ⟨by omega, ?_⟩
    rw [lowerDigit, if_neg (by omega), Nat.add_sub_cancel' (by omega), hc, lower, if_neg]
    rintro ⟨-, hupper⟩
    have hupper : c.toNat ≤ 70 := UInt8.le_iff_toNat_le.mp hupper
    omega

/-- **Printing the bytes again gives the text in lower case.** -/
theorem encode_decode {n : Nat} {s : List UInt8} (hlen : s.length = 2 * n)
    (hs : ∀ c ∈ s, IsDigit c) : encode (decode s) = s.map lower := by
  induction n generalizing s with
  | zero =>
    rw [Nat.mul_zero, List.length_eq_zero_iff] at hlen
    rw [hlen]
    rfl
  | succ n ih =>
    match s, hlen with
    | c :: d :: s, hlen =>
      rw [List.forall_mem_cons, List.forall_mem_cons] at hs
      obtain ⟨hc, hd, hs⟩ := hs
      obtain ⟨a, ha⟩ := Option.isSome_iff_exists.mp hc
      obtain ⟨b, hb⟩ := Option.isSome_iff_exists.mp hd
      obtain ⟨ha', hlowa⟩ := lowerDigit_value ha
      obtain ⟨hb', hlowb⟩ := lowerDigit_value hb
      have hrest := ih (s := s) (by simp only [List.length_cons] at hlen; omega) hs
      have hbyte : (UInt8.ofNat (16 * a + b)).toNat = 16 * a + b := UInt8.toNat_ofNat_of_lt' (by
        show 16 * a + b < 256
        omega)
      have hdiv : (16 * a + b) / 16 = a := by omega
      have hmod : (16 * a + b) % 16 = b := by omega
      rw [encode] at hrest ⊢
      rw [decode, ha, hb, List.flatMap_cons, hrest, Option.getD_some, Option.getD_some, hbyte,
        hdiv, hmod, hlowa, hlowb]
      rfl

end Hex
