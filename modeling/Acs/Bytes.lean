/-
  Acs/Bytes.lean
  ==============
  **Strings as the firmwares see them.**

  A `std::string` is a list of bytes.  Text literals of the sources are written
  with `str`, their UTF-8 bytes; a pointer obtained with `c_str()` or read from
  a `valuestring` shows only the bytes before the first NUL (`cstr`).  Also
  here are the helpers of `util.cpp` and `format.cpp` that work on text, and
  the memory image of an integer that is hashed byte by byte.
-/
import Acs.Lib.Hex
import Mathlib.Data.List.TakeWhile

namespace Acs

abbrev Bytes := List UInt8

def str (s : String) : Bytes := s.toList.flatMap String.utf8EncodeChar

/-- ASCII bytes as a text, as other programs keep it. -/
def text (s : Bytes) : String := .ofList (s.map Char.ofUInt8)

theorem utf8EncodeChar_ofUInt8 {c : UInt8} (h : c < 128) :
    String.utf8EncodeChar (Char.ofUInt8 c) = [c] := by
  have hlt : c.toNat < 128 := UInt8.lt_iff_toNat_lt.mp h
  have hval : (Char.ofUInt8 c).val.toNat = c.toNat := UInt8.toNat_toUInt32 c
  have hsmall : (Char.ofUInt8 c).val.toNat ≤ 127 := by omega
  rw [String.utf8EncodeChar]
  simp only [hval] at hsmall ⊢
  rw [if_pos hsmall, UInt8.ofNat_toNat]

theorem str_text {s : Bytes} (h : ∀ c ∈ s, c < 128) : str (text s) = s := by
  rw [str, text, String.toList_ofList, List.flatMap_map]
  induction s with
  | nil => rfl
  | cons c s ih =>
    rw [List.forall_mem_cons] at h
    rw [List.flatMap_cons, utf8EncodeChar_ofUInt8 h.1, ih h.2]
    rfl

/-- What a `const char*` to `s` shows: the bytes before the first NUL. -/
def cstr (s : Bytes) : Bytes := s.takeWhile (· ≠ 0)

theorem cstr_eq_self {s : Bytes} (h : 0 ∉ s) : cstr s = s := by
  rw [cstr, List.takeWhile_eq_self_iff]
  intro b hb
  have hne : b ≠ 0 := fun h0 => h (h0 ▸ hb)
  exact decide_eq_true hne

/-- `format()`: `vsnprintf` into a buffer of 1024 bytes, the last one a NUL.
    The pieces are the literal parts and the converted arguments, in order. -/
def format (pieces : List Bytes) : Bytes := pieces.flatten.take 1023

def decimal (n : Int) : Bytes := str (toString n)

/-- A decimal digit is one byte, above blanks and signs. -/
theorem utf8EncodeChar_of_isDigit {c : Char} (h : c.isDigit = true) :
    ∃ b, String.utf8EncodeChar c = [b] ∧ 48 ≤ b := by
  obtain ⟨hlow, hhigh⟩ := Char.isDigit_iff_toNat.mp h
  have hval : c.val.toNat = c.toNat := rfl
  have hsmall : c.val.toNat ≤ 127 := by
    rw [hval]
    exact Nat.le_trans hhigh (by decide)
  refine ⟨UInt8.ofNat c.val.toNat, ?_, ?_⟩
  · rw [String.utf8EncodeChar]
    exact if_pos hsmall
  · rw [UInt8.le_iff_toNat_le, UInt8.toNat_ofNat', Nat.mod_eq_of_lt (by omega)]
    exact hlow

/-- What `decimal` is made of: a sign, and the digits of the absolute value. -/
theorem decimal_eq (n : Int) : ∃ sign digits : Bytes, decimal n = sign ++ digits ∧
    sign.length ≤ 1 ∧ digits.length = (Nat.toDigits 10 n.natAbs).length ∧ ∀ b ∈ sign ++ digits, 45 ≤ b := by
  have hdigits : ∀ m : Nat, (str m.repr).length = (Nat.toDigits 10 m).length ∧
      ∀ b ∈ str m.repr, 45 ≤ b := by
    intro m
    have hall : ∀ c ∈ Nat.toDigits 10 m, c.isDigit = true :=
      fun c hc => Nat.isDigit_of_mem_toDigits (by decide) (by decide) hc
    rw [str, Nat.toList_repr]
    generalize Nat.toDigits 10 m = cs at hall
    induction cs with
    | nil => exact ⟨rfl, fun b hb => absurd hb List.not_mem_nil⟩
    | cons c cs ih =>
      obtain ⟨b, hb, hlow⟩ := utf8EncodeChar_of_isDigit (hall c List.mem_cons_self)
      obtain ⟨hlen, hrest⟩ := ih fun d hd => hall d (List.mem_cons_of_mem c hd)
      rw [List.flatMap_cons, hb, List.singleton_append, List.length_cons, List.length_cons, hlen]
      exact ⟨rfl, List.forall_mem_cons.mpr ⟨UInt8.le_trans (by decide) hlow, hrest⟩⟩
  cases n with
  | ofNat m => exact ⟨[], str m.repr, rfl, Nat.zero_le 1, (hdigits m).1, (hdigits m).2⟩
  | negSucc m =>
    refine ⟨[45], str (m + 1).repr, ?_, Nat.le_refl 1, (hdigits (m + 1)).1, ?_⟩
    · change str ("-" ++ (m + 1).repr) = _
      rw [str, String.toList_append, List.flatMap_append]
      rfl
    · exact List.forall_mem_cons.mpr ⟨UInt8.le_refl 45, (hdigits (m + 1)).2⟩

/-- No blank and no NUL, for example. -/
theorem notMem_decimal {b : UInt8} (hb : b < 45) (n : Int) : b ∉ decimal n := by
  obtain ⟨sign, digits, heq, -, -, hlow⟩ := decimal_eq n
  rw [heq]
  exact fun h => absurd (hlow b h) (UInt8.not_le.mpr hb)

theorem length_decimal_le {n : Int} {k : Nat} (hk : 0 < k) (h : n.natAbs < 10 ^ k) :
    (decimal n).length ≤ k + 1 := by
  obtain ⟨sign, digits, heq, hsign, hdigits, -⟩ := decimal_eq n
  have hlen := (Nat.length_toDigits_le_iff (by decide) hk).mpr h
  rw [heq, List.length_append, hdigits]
  omega

/-- `isprint` of the C locale. -/
def isprint (c : UInt8) : Bool := 32 ≤ c && c ≤ 126

/-- `util::strip_np`: only the printing characters are kept. -/
def stripNp (s : Bytes) : Bytes := s.filter isprint

/-- The `n` bytes of an integer in memory, the least significant first; both
    firmwares run on little-endian chips. -/
def leBytes (n : Nat) (v : Int) : Bytes :=
  (List.range n).map fun k => UInt8.ofNat (v / 256 ^ k % 256).toNat

@[simp] theorem length_leBytes (n : Nat) (v : Int) : (leBytes n v).length = n := by
  simp [leBytes]

theorem leBytes_natCast (k n : Nat) :
    leBytes k n = (List.range k).map fun j => UInt8.ofNat (n / 256 ^ j % 256) := by
  rw [leBytes]
  apply List.map_congr_left
  intro j _
  have hcast : ((n : Int) / 256 ^ j % 256) = ((n / 256 ^ j % 256 : Nat) : Int) := by push_cast; rfl
  rw [hcast, Int.toNat_natCast]

/-- The least significant byte, and those of the rest of the number. -/
theorem leBytes_succ (k n : Nat) :
    leBytes (k + 1) n = UInt8.ofNat (n % 256) :: leBytes k (n / 256 : Nat) := by
  rw [leBytes_natCast, leBytes_natCast, List.range_succ_eq_map, List.map_cons, List.map_map]
  congr 1
  · rw [Nat.pow_zero, Nat.div_one]
  apply List.map_congr_left
  intro j _
  rw [Function.comp_apply, Nat.pow_succ', Nat.div_div_eq_div_mul]

theorem ofDigits_leBytes {k n : Nat} (hn : n < 256 ^ k) :
    Nat.ofDigits 256 ((leBytes k n).map UInt8.toNat) = n := by
  induction k generalizing n with
  | zero =>
    rw [Nat.pow_zero] at hn
    simp [leBytes, show n = 0 by omega]
  | succ k ih =>
    have hrest : n / 256 < 256 ^ k := by
      rw [Nat.div_lt_iff_lt_mul (by omega), ← Nat.pow_succ]
      exact hn
    have hbyte : (UInt8.ofNat (n % 256)).toNat = n % 256 := by
      rw [UInt8.toNat_ofNat']
      omega
    rw [leBytes_succ, List.map_cons, Nat.ofDigits_cons, ih hrest, hbyte]
    omega

/-! ### Card numbers as text -/

/-- `RDM6300::Card_id`, an unsigned 64-bit number; zero stands for no card. -/
abbrev CardId := Nat

/-- A number that `RDM6300::get_id` can return: it fills five of the eight
    bytes. -/
abbrev RfidId := { id : CardId // id < 2 ^ 40 }

/-- `CARD_ID_FORMAT`, `%010llX`. -/
def cardIdFormat (id : CardId) : Bytes := Hex.padZero 10 id

def getIdFromString (s : Bytes) : CardId := Hex.extract s

theorem getIdFromString_cardIdFormat {id : CardId} (h : id < 2 ^ 64) :
    getIdFromString (cardIdFormat id) = id :=
  Hex.extract_padZero 10 h

end Acs
