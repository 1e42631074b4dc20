/-
  Acs/Esp32/PrivateKey.lean
  =========================
  **The signing key, typed in at the console** (`console.cpp`).

  `hex_string_to_bytes` looks at the length of the text, and then scans a number
  of at most two characters at every second position.  The scan fails only where
  no number begins, so a digit with something else behind it, a sign, or a blank
  that the digits of the next pair follow, is taken for a byte.  The function does
  what it is meant to exactly for texts of digits, and for those that it refuses
  (`decodesExactly_iff`).
-/
import Acs.Lib.HexScan
import Acs.Esp32.Mqtt
import Acs.Esp32.Nvs
import Mathlib

namespace Acs.Esp32

open Acs

/-- The loop of `hex_string_to_bytes`, for `k` more bytes from the `i`th on; `text` is
    `hex_str + 2*i`. -/
def scanBytes : Nat → Nat → Bytes → (Nat → UInt8) → Bool × (Nat → UInt8)
  | 0, _, _, bytes => (true, bytes)
  | k + 1, i, text, bytes =>
    match Hex.scanByte text with
    | none => (false, bytes)
    | some b => scanBytes k (i + 1) (text.drop 2) (Function.update bytes i b)

/-- `hex_string_to_bytes`, with the memory behind `bytes`.  Half of a length is an
    `int`, because `size_t` has no more bits than that. -/
def hexStringToBytes (hexStr : CString) (bytes : Nat → UInt8) (maxLen : Nat) :
    Int × (Nat → UInt8) :=
  let len := hexStr.1.length
  if len % 2 ≠ 0 then (-1, bytes)
  else
    let byteLen := len / 2
    if byteLen > maxLen then (-1, bytes)
    else
      let (ok, bytes) := scanBytes byteLen 0 hexStr.1 bytes
      if ok then (byteLen, bytes) else (-1, bytes)

/-- The first `n` bytes. -/
def firstBytes (bytes : Nat → UInt8) (n : Nat) : List UInt8 := (List.range n).map bytes

/-- `set_private_key_cmd`: what it returns, and the key that it gives to
    `set_private_key`, if any.  `memory` is what `key_bytes` holds before. -/
def setPrivateKeyCmd (memory : Nat → UInt8) (key : Option CString) :
    Int × Option (List UInt8) :=
  match key with
  | none => (1, none)
  | some keyStr =>
    if keyStr.1.length ≠ 2 * signingKeySize then (1, none)
    else
      let (keyLen, keyBytes) := hexStringToBytes keyStr memory signingKeySize
      if keyLen < 0 then (1, none) else (0, some (firstBytes keyBytes signingKeySize))

/-! ### What is meant -/

/-- The text consists of the digits of `n` bytes. -/
def Digits (s : CString) (n : Nat) : Prop := s.1.length = 2 * n ∧ ∀ c ∈ s.1, Hex.IsDigit c

/-- Digits are decoded, if there are not too many, and everything else is refused. -/
structure DecodesExactly (s : CString) (maxLen : Nat) : Prop where
  decoded : ∀ bytes n, Digits s n → n ≤ maxLen →
    (hexStringToBytes s bytes maxLen).1 = n ∧
    firstBytes (hexStringToBytes s bytes maxLen).2 n = Hex.decode s.1 ∧
    Hex.encode (firstBytes (hexStringToBytes s bytes maxLen).2 n) = s.1.map Hex.lower
  refused : ∀ bytes, (∀ n, Digits s n → maxLen < n) → (hexStringToBytes s bytes maxLen).1 = -1

/-- The key is stored if the text is that of one, and nothing else is. -/
structure StoresExactly (s : CString) : Prop where
  stored : ∀ memory, Digits s signingKeySize →
    setPrivateKeyCmd memory (some s) = (0, some (Hex.decode s.1))
  refused : ∀ memory, ¬ Digits s signingKeySize → (setPrivateKeyCmd memory (some s)).2 = none

/-- There is nothing in the text but digits, or it has the wrong length, or at one of
    the places that a byte is scanned from there is no number. -/
def Clear (s : CString) (maxLen : Nat) : Prop :=
  (∀ c ∈ s.1, Hex.IsDigit c) ∨ s.1.length % 2 ≠ 0 ∨ maxLen < s.1.length / 2 ∨
    ∃ i < s.1.length / 2, ¬ Hex.Scannable (s.1.drop (2 * i))

/-! ### The loop -/

/-- The loop runs to its end where a number begins at each of its places. -/
theorem scanBytes_iff (k i : Nat) (text : Bytes) (bytes : Nat → UInt8) :
    (scanBytes k i text bytes).1 = true ↔ ∀ j < k, Hex.Scannable (text.drop (2 * j)) := by
  induction k generalizing i text bytes with
  | zero => simp [scanBytes]
  | succ k ih =>
    rw [scanBytes]
    cases hscan : Hex.scanByte text with
    | none =>
      refine iff_of_false Bool.false_ne_true ?_
      intro h
      obtain ⟨b, hb⟩ := Hex.exists_scanByte (h 0 (Nat.succ_pos k))
      rw [Nat.mul_zero, List.drop_zero, hscan] at hb
      exact absurd hb (by simp)
    | some b =>
      have hfirst := Hex.scannable_of_scanByte hscan
      dsimp only
      rw [ih]
      constructor
      · intro h j hj
        cases j with
        | zero => exact hfirst
        | succ j =>
          have hnext := h j (by omega)
          rw [List.drop_drop] at hnext
          rw [Nat.mul_succ, Nat.add_comm]
          exact hnext
      · intro h j hj
        have hnext := h (j + 1) (by omega)
        rw [Nat.mul_succ, Nat.add_comm] at hnext
        rw [List.drop_drop]
        exact hnext

theorem firstBytes_update (bytes : Nat → UInt8) (i : Nat) (b : UInt8) :
    firstBytes (Function.update bytes i b) (i + 1) = firstBytes bytes i ++ [b] := by
  rw [firstBytes, List.range_succ, List.map_append, List.map_singleton, Function.update_self]
  congr 1
  apply List.map_congr_left
  intro j hj
  exact Function.update_of_ne (List.mem_range.mp hj).ne _ _

/-- Digits are scanned pair by pair. -/
theorem scanBytes_digits {k : Nat} (i : Nat) {text : Bytes} (bytes : Nat → UInt8)
    (hlen : text.length = 2 * k) (htext : ∀ c ∈ text, Hex.IsDigit c) :
    (scanBytes k i text bytes).1 = true ∧
      firstBytes (scanBytes k i text bytes).2 (i + k) = firstBytes bytes i ++ Hex.decode text := by
  induction k generalizing i text bytes with
  | zero =>
    rw [Nat.mul_zero, List.length_eq_zero_iff] at hlen
    rw [hlen]
    exact ⟨rfl, (List.append_nil _).symm⟩
  | succ k ih =>
    match text, hlen with
    | c :: d :: rest, hlen =>
      rw [List.forall_mem_cons, List.forall_mem_cons] at htext
      obtain ⟨hc, hd, hrest⟩ := htext
      have hlen' : rest.length = 2 * k := by
        simp only [List.length_cons] at hlen
        omega
      rw [scanBytes, Hex.scanByte_digits hc hd]
      dsimp only
      obtain ⟨hok, hbytes⟩ := ih (i + 1) (Function.update bytes i
        (UInt8.ofNat (16 * (Hex.value? c).getD 0 + (Hex.value? d).getD 0))) hlen' hrest
      refine ⟨hok, ?_⟩
      rw [firstBytes_update, List.append_assoc, List.singleton_append, Nat.add_right_comm] at hbytes
      rw [Hex.decode]
      exact hbytes

/-! ### The function -/

theorem hexStringToBytes_digits {s : CString} {n maxLen : Nat} (hs : Digits s n)
    (hn : n ≤ maxLen) (bytes : Nat → UInt8) :
    (hexStringToBytes s bytes maxLen).1 = n ∧
      firstBytes (hexStringToBytes s bytes maxLen).2 n = Hex.decode s.1 := by
  obtain ⟨hlen, hdigits⟩ := hs
  have heven : ¬ s.1.length % 2 ≠ 0 := by omega
  have hhalf : s.1.length / 2 = n := by omega
  obtain ⟨hok, hbytes⟩ := scanBytes_digits 0 bytes hlen hdigits
  rw [Nat.zero_add] at hbytes
  rw [hexStringToBytes]
  dsimp only
  rw [if_neg heven, hhalf, if_neg (not_lt.mpr hn), if_pos hok]
  exact ⟨rfl, hbytes⟩

theorem hexStringToBytes_refuses {s : CString} {maxLen : Nat} (bytes : Nat → UInt8)
    (h : s.1.length % 2 ≠ 0 ∨ maxLen < s.1.length / 2 ∨
      ∃ i < s.1.length / 2, ¬ Hex.Scannable (s.1.drop (2 * i))) :
    (hexStringToBytes s bytes maxLen).1 = -1 := by
  rw [hexStringToBytes]
  dsimp only
  split
  next => rfl
  next heven =>
    split
    next => rfl
    next hshort =>
      rw [if_neg]
      intro hok
      rcases h with h | h | ⟨i, hi, hscan⟩
      · exact heven h
      · exact hshort h
      · exact hscan ((scanBytes_iff _ _ _ _).mp hok i hi)

theorem hexStringToBytes_accepts {s : CString} {maxLen : Nat} (bytes : Nat → UInt8)
    (heven : s.1.length % 2 = 0) (hshort : s.1.length / 2 ≤ maxLen)
    (hscan : ∀ i < s.1.length / 2, Hex.Scannable (s.1.drop (2 * i))) :
    (hexStringToBytes s bytes maxLen).1 = (s.1.length / 2 : Nat) := by
  rw [hexStringToBytes]
  dsimp only
  rw [if_neg (not_not.mpr heven), if_neg (not_lt.mpr hshort),
    if_pos ((scanBytes_iff _ _ _ _).mpr hscan)]

theorem decodesExactly_of_clear {s : CString} {maxLen : Nat} (h : Clear s maxLen) :
    DecodesExactly s maxLen where
  decoded := by
    intro bytes n hs hn
    obtain ⟨hlen, hbytes⟩ := hexStringToBytes_digits hs hn bytes
    exact ⟨hlen, hbytes, by rw [hbytes, Hex.encode_decode hs.1 hs.2]⟩
  refused := by
    intro bytes hno
    rcases h with hdigits | h
    · apply hexStringToBytes_refuses
      by_cases heven : s.1.length % 2 = 0
      · exact .inr (.inl (hno _ ⟨by omega, hdigits⟩))
      · exact .inl heven
    · exact hexStringToBytes_refuses bytes h

/-- A text that is accepted although it is not all digits. -/
theorem accepts_of_not_clear {s : CString} {maxLen : Nat} (h : ¬ Clear s maxLen)
    (bytes : Nat → UInt8) :
    (∀ n, ¬ Digits s n) ∧ s.1.length % 2 = 0 ∧
      (hexStringToBytes s bytes maxLen).1 = (s.1.length / 2 : Nat) := by
  rw [Clear] at h
  simp only [not_or, not_not, not_lt, not_exists, not_and] at h
  obtain ⟨hdigits, heven, hshort, hscan⟩ := h
  exact ⟨fun n hn => hdigits hn.2, heven, hexStringToBytes_accepts bytes heven hshort hscan⟩

theorem clear_of_decodesExactly {s : CString} {maxLen : Nat} (h : DecodesExactly s maxLen) :
    Clear s maxLen := by
  by_contra hclear
  obtain ⟨hno, -, haccepts⟩ := accepts_of_not_clear hclear fun _ => 0
  have hrefused := h.refused (fun _ => 0) fun n hn => absurd hn (hno n)
  omega

/-! ### The command -/

theorem setPrivateKeyCmd_of_length {s : CString} (hlen : s.1.length = 2 * signingKeySize)
    (memory : Nat → UInt8) :
    setPrivateKeyCmd memory (some s) =
      if (hexStringToBytes s memory signingKeySize).1 < 0 then (1, none)
      else (0, some (firstBytes (hexStringToBytes s memory signingKeySize).2 signingKeySize)) := by
  rw [setPrivateKeyCmd]
  dsimp only
  rw [if_neg (not_not.mpr hlen)]

theorem storesExactly_iff (s : CString) :
    StoresExactly s ↔ (s.1.length = 2 * signingKeySize → Clear s signingKeySize) := by
  constructor
  · intro h hlen
    by_contra hclear
    obtain ⟨hno, -, haccepts⟩ := accepts_of_not_clear hclear fun _ => 0
    have hrefused := h.refused (fun _ => 0) (hno _)
    rw [setPrivateKeyCmd_of_length hlen, if_neg (by omega)] at hrefused
    exact absurd hrefused (by simp)
  · intro h
    constructor
    · intro memory hs
      obtain ⟨hlen, hbytes⟩ := hexStringToBytes_digits hs (Nat.le_refl _) memory
      rw [setPrivateKeyCmd_of_length hs.1, if_neg (by omega), hbytes]
    · intro memory hs
      by_cases hlen : s.1.length = 2 * signingKeySize
      · have hno : ∀ n, Digits s n → signingKeySize < n := by
          intro n hn
          have heq : n = signingKeySize := by
            have := hn.1
            omega
          exact absurd (heq ▸ hn) hs
        have hrefused := (decodesExactly_of_clear (h hlen)).refused memory hno
        rw [setPrivateKeyCmd_of_length hlen, if_pos (by omega)]
      · rw [setPrivateKeyCmd]
        dsimp only
        rw [if_pos hlen]

/-- **For which texts `hex_string_to_bytes` and the command do what they are meant to**:
    those of digits, and those that are refused. -/
theorem decodesExactly_iff (s : CString) (maxLen : Nat) :
    (DecodesExactly s maxLen ↔ Clear s maxLen) ∧
      (StoresExactly s ↔ (s.1.length = 2 * signingKeySize → Clear s signingKeySize)) :=
  ⟨⟨clear_of_decodesExactly, decodesExactly_of_clear⟩, storesExactly_iff s⟩

/-- A letter slipped in behind the first digit. -/
def mistypedKey : CString := ⟨str "1g" ++ List.replicate 62 48, by decide⟩

theorem not_decodesExactly : ¬ DecodesExactly mistypedKey 32 ∧ ¬ StoresExactly mistypedKey := by
  have hno : ∀ n, ¬ Digits mistypedKey n := fun n hn =>
    absurd (hn.2 'g'.toUInt8 (by decide)) (by decide)
  constructor
  · intro h
    have hrefused := h.refused (fun _ => 0) fun n hn => absurd hn (hno n)
    exact absurd hrefused (by decide +kernel)
  · intro h
    exact absurd (h.refused (fun _ => 0) (hno _)) (by decide +kernel)

end Acs.Esp32
