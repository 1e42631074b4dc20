/-
  Acs/Rdm6300.lean
  ================
  **The decoder of the RFID module** (`RDM6300.h`).

  `addByte` is fed the bytes of the serial line one at a time and tells when a
  frame has ended; `getId` is then the card, or zero when the checksum does not
  fit.  An `int` is a `BitVec 32`, as the conversion of a byte that is no digit
  goes below zero and past a nibble.  The state after some bytes of a frame is
  computed from these bytes alone (`Reads`): the results on frames need nothing
  else.
-/
import Acs.Bytes
import Acs.Lib.Run

namespace Acs

/-! ### The class -/

namespace Rdm6300

def stx : UInt8 := 2
def etx : UInt8 := 3

/-- `ID_SIZE`, the number of bytes of a card. -/
def idSize : Nat := 5

end Rdm6300

/-- `RDM6300`.  The constructor leaves `m_buf` as it is in memory. -/
structure Rdm6300 where
  state : Nat := 0
  checksum : BitVec 32 := 0
  temp : BitVec 32 := 0
  index : Nat := 0
  buf : Vector UInt8 Rdm6300.idSize

namespace Rdm6300

/-- A byte as an `int`. -/
def toInt (b : UInt8) : BitVec 32 := b.toBitVec.setWidth 32

/-- The digit of a byte in an `int`: `x = input - '0'; if (x > 9) x -= 7;`. -/
def intDigit (input : UInt8) : BitVec 32 :=
  let x := toInt input - 48
  if (9 : BitVec 32).slt x then x - 7 else x

/-- The same in the byte itself. -/
def byteDigit (input : UInt8) : UInt8 :=
  let x := input - 48
  if x > 9 then x - 7 else x

/-- `(x << 4) | input`. -/
def append (x : BitVec 32) (input : UInt8) : BitVec 32 := x <<< 4 ||| toInt (byteDigit input)

/-- An `int` stored into a byte. -/
def toByte (x : BitVec 32) : UInt8 := ⟨x.setWidth 8⟩

/-- The bytes between `STX` and `ETX`. -/
def addDigit (s : Rdm6300) (input : UInt8) : Rdm6300 :=
  match s.state with
  | 1 => { s with temp := intDigit input, state := 2 }
  | 2 =>
    let s := { s with temp := append s.temp input }
    let s := { s with buf := s.buf.setIfInBounds s.index (toByte s.temp), index := s.index + 1 }
    { s with state := if s.index ≥ idSize then 3 else 1 }
  | 3 => { s with checksum := intDigit input, state := 4 }
  | 4 => { s with checksum := append s.checksum input, state := 5 }
  | _ => s

def addByte (s : Rdm6300) (input : UInt8) : Bool × Rdm6300 :=
  if input = stx then (false, { s with state := 1, checksum := 0, index := 0 })
  else if input = etx then (s.state = 5, { s with state := 0 })
  else (false, s.addDigit input)

/-- The index at which `addByte` stores into `m_buf`, if it does. -/
def storeIndex (s : Rdm6300) (input : UInt8) : Option Nat :=
  if input ≠ stx ∧ input ≠ etx ∧ s.state = 2 then some s.index else none

/-- The bytes of the buffer are laid down from the fifth byte of `id` to the
    first, on a little-endian machine. -/
def getId (s : Rdm6300) : CardId :=
  let id := Nat.ofDigits 256 (s.buf.toList.reverse.map UInt8.toNat)
  let cs := s.buf.toList.foldl (fun cs b => cs ^^^ toInt b) 0
  if cs ≠ s.checksum then 0 else id

def step (s : Rdm6300) (input : UInt8) : Rdm6300 := (s.addByte input).2

/-- What `addByte` returns along a stream. -/
def returns (s : Rdm6300) (stream : Bytes) : List Bool :=
  Runs.emitted step (fun s input => [(s.addByte input).1]) s stream

/-- The decoder after a stream, when `memory` is what `m_buf` was made of. -/
def run (memory : Vector UInt8 idSize) (stream : Bytes) : Rdm6300 :=
  Runs.exec step { buf := memory } stream

/-! ### The state inside a frame -/

/-- The byte of two digits. -/
def pack (high low : UInt8) : UInt8 := toByte (append (intDigit high) low)

/-- Neither `STX` nor `ETX`. -/
def IsDigit (input : UInt8) : Prop := input ≠ stx ∧ input ≠ etx

instance (input : UInt8) : Decidable (IsDigit input) :=
  inferInstanceAs (Decidable (_ ∧ _))

/-- The state after `STX` and the bytes `p`, none of them a control byte. -/
structure Reads (s : Rdm6300) (p : Bytes) : Prop where
  state : s.state = if p.length < 10 then 1 + p.length % 2 else min (p.length - 7) 5
  index : s.index = min (p.length / 2) idSize
  buf : ∀ k high low, k < idSize → p[2 * k]? = some high → p[2 * k + 1]? = some low →
    s.buf[k]? = some (pack high low)
  temp : p.length < 10 → p.length % 2 = 1 → ∀ high, p.getLast? = some high →
    s.temp = intDigit high
  checkHigh : p.length = 11 → ∀ high, p[10]? = some high → s.checksum = intDigit high
  checksum : ∀ high low, p[10]? = some high → p[11]? = some low →
    s.checksum = append (intDigit high) low

theorem step_digit (s : Rdm6300) {input : UInt8} (h : IsDigit input) :
    s.step input = s.addDigit input := by
  rw [step, addByte, if_neg h.1, if_neg h.2]

theorem reads_stx (s : Rdm6300) : Reads (s.step stx) [] := by
  constructor <;> simp [step, addByte]

theorem getElem?_snoc {p : Bytes} {input b : UInt8} {k : Nat} :
    (p ++ [input])[k]? = some b ↔ p[k]? = some b ∨ k = p.length ∧ input = b := by
  rw [List.getElem?_append]
  split
  next h => simp [h.ne]
  next h =>
    have hnone : p[k]? = none := List.getElem?_eq_none_iff.mpr (by omega)
    rw [hnone, List.getElem?_singleton]
    by_cases hk : k - p.length = 0
    · simp [show k = p.length by omega]
    · simp [hk, show k ≠ p.length by omega]

section Digit

variable {s : Rdm6300} {p : Bytes} {input : UInt8}

/-- The first digit of a byte waits in `m_temp`. -/
theorem Reads.first (h : Reads s p) (hlen : p.length < 10) (heven : p.length % 2 = 0) :
    Reads (s.addDigit input) (p ++ [input]) := by
  have hstate := h.state
  rw [if_pos hlen, heven] at hstate
  simp only [addDigit, hstate]
  have hsize : idSize = 5 := rfl
  constructor
  case state =>
    rw [List.length_append, List.length_singleton]
    dsimp only
    split <;> omega
  case index =>
    rw [h.index, List.length_append, List.length_singleton]
    omega
  case buf =>
    intro k high low hk hhigh hlow
    rw [getElem?_snoc] at hhigh hlow
    rcases hlow with hlow | ⟨hlow, _⟩
    · have hlt := (List.getElem?_eq_some_iff.mp hlow).1
      rcases hhigh with hhigh | ⟨hhigh, _⟩
      · exact h.buf k high low hk hhigh hlow
      · omega
    · omega
  case temp =>
    intro _ _ high hhigh
    simp at hhigh
    rw [hhigh]
  case checkHigh =>
    intro hlen'
    simp at hlen'
    omega
  case checksum =>
    intro high low _ hlow
    have hlt := (List.getElem?_eq_some_iff.mp hlow).1
    simp at hlt
    omega

/-- The second digit completes a byte of the buffer. -/
theorem Reads.second (h : Reads s p) (hlen : p.length < 10) (hodd : p.length % 2 = 1) :
    Reads (s.addDigit input) (p ++ [input]) := by
  have hstate := h.state
  rw [if_pos hlen, hodd] at hstate
  have hindex : s.index = p.length / 2 := by
    rw [h.index]
    exact Nat.min_eq_left (by rw [idSize]; omega)
  simp only [addDigit, hstate]
  have hsize : idSize = 5 := rfl
  constructor
  case state =>
    rw [hindex, List.length_append, List.length_singleton]
    dsimp only
    split <;> split <;> omega
  case index =>
    rw [hindex, List.length_append, List.length_singleton]
    dsimp only
    omega
  case buf =>
    intro k high low hk hhigh hlow
    rw [getElem?_snoc] at hhigh hlow
    rw [Vector.getElem?_setIfInBounds, hindex]
    rcases hlow with hlow | ⟨hlow, rfl⟩
    · have hlt := (List.getElem?_eq_some_iff.mp hlow).1
      rcases hhigh with hhigh | ⟨hhigh, _⟩
      · rw [if_neg (by omega)]
        exact h.buf k high low hk hhigh hlow
      · omega
    · rcases hhigh with hhigh | ⟨hhigh, _⟩
      · have hlast : p.getLast? = some high := by
          rw [List.getLast?_eq_getElem?, ← hhigh]
          congr 1
          omega
        rw [if_pos (by omega), if_pos (by omega), h.temp hlen hodd high hlast]
        rfl
      · omega
  case temp => simp; omega
  case checkHigh => simp; omega
  case checksum =>
    intro high low _ hlow
    have hlt := (List.getElem?_eq_some_iff.mp hlow).1
    simp at hlt
    omega

/-- After the digits of the card come those of the checksum, and more of them
    change nothing. -/
theorem Reads.check (h : Reads s p) (hlen : 10 ≤ p.length) :
    Reads (s.addDigit input) (p ++ [input]) := by
  have hsize : idSize = 5 := rfl
  have hstate := h.state
  rw [if_neg (by omega)] at hstate
  -- the bytes of the buffer are all older than this digit
  have hbuf : ∀ k high low, k < idSize → (p ++ [input])[2 * k]? = some high →
      (p ++ [input])[2 * k + 1]? = some low → s.buf[k]? = some (pack high low) := by
    intro k high low hk hhigh hlow
    rw [getElem?_snoc] at hhigh hlow
    exact h.buf k high low hk (hhigh.resolve_right (by omega)) (hlow.resolve_right (by omega))
  have hindex : s.index = min ((p ++ [input]).length / 2) idSize := by
    rw [h.index, List.length_append, List.length_singleton]
    omega
  have htemp : ¬ (p ++ [input]).length < 10 := by simp; omega
  rcases (by omega : p.length = 10 ∨ p.length = 11 ∨ 12 ≤ p.length) with hlen | hlen | hlen
  · have hstate : s.state = 3 := by rw [hstate, hlen]; rfl
    simp only [addDigit, hstate]
    refine ⟨by simp [hlen], hindex, hbuf, fun hlt => absurd hlt htemp, ?_, ?_⟩
    · intro _ high hhigh
      have hhigh : input = high := by simpa [hlen] using hhigh
      rw [hhigh]
    · intro high low _ hlow
      exact absurd (List.getElem?_eq_some_iff.mp hlow).1 (by simp [hlen])
  · have hstate : s.state = 4 := by rw [hstate, hlen]; rfl
    simp only [addDigit, hstate]
    refine ⟨by simp [hlen], hindex, hbuf, fun hlt => absurd hlt htemp, by simp [hlen], ?_⟩
    intro high low hhigh hlow
    have hhigh : p[10]? = some high := (getElem?_snoc.mp hhigh).resolve_right (by omega)
    have hlow : input = low := by simpa [hlen] using hlow
    rw [h.checkHigh hlen high hhigh, hlow]
  · rw [Nat.min_eq_right (by omega)] at hstate
    simp only [addDigit, hstate]
    refine ⟨?_, hindex, hbuf, fun hlt => absurd hlt htemp, by simp; omega, ?_⟩
    · rw [if_neg htemp, hstate, List.length_append, List.length_singleton]
      omega
    · intro high low hhigh hlow
      exact h.checksum high low ((getElem?_snoc.mp hhigh).resolve_right (by omega))
        ((getElem?_snoc.mp hlow).resolve_right (by omega))

/-- **One more byte of a frame.** -/
theorem Reads.digit (h : Reads s p) (hinput : IsDigit input) :
    Reads (s.step input) (p ++ [input]) := by
  rw [step_digit s hinput]
  rcases Nat.lt_or_ge p.length 10 with hlen | hlen
  · rcases Nat.mod_two_eq_zero_or_one p.length with heven | hodd
    · exact h.first hlen heven
    · exact h.second hlen hodd
  · exact h.check hlen

end Digit

/-! ### Streams -/

/-- Bytes of a frame never end it. -/
theorem Reads.digits {s : Rdm6300} {p q : Bytes} (h : Reads s p) (hq : ∀ b ∈ q, IsDigit b) :
    Reads (Runs.exec step s q) (p ++ q) := by
  induction q generalizing s p with
  | nil => simpa using h
  | cons b q ih =>
    rw [List.forall_mem_cons] at hq
    have hnext := ih (h.digit hq.1) hq.2
    rwa [List.append_assoc] at hnext

theorem returns_digits (s : Rdm6300) {q : Bytes} (hq : ∀ b ∈ q, IsDigit b) :
    returns s q = List.replicate q.length false := by
  induction q generalizing s with
  | nil => rfl
  | cons b q ih =>
    rw [List.forall_mem_cons] at hq
    have hb : (s.addByte b).1 = false := by
      rw [addByte, if_neg hq.1.1, if_neg hq.1.2]
    have hrest := ih (s.step b) hq.2
    rw [returns] at hrest ⊢
    rw [Runs.emitted_cons, hrest, hb]
    rfl

/-- **Where a decoder is** that was between two frames before the stream: between
    two frames still, or in one that the stream has begun. -/
theorem idle_or_reads {s : Rdm6300} (h : s.state = 0) (stream : Bytes) :
    (Runs.exec step s stream).state = 0 ∨
      ∃ before p, stream = before ++ stx :: p ∧ (∀ b ∈ p, IsDigit b) ∧
        Reads (Runs.exec step s stream) p := by
  induction stream using List.reverseRecOn with
  | nil => exact .inl h
  | append_singleton stream input ih =>
    rw [Runs.exec_snoc]
    by_cases hstx : input = stx
    · rw [hstx]
      exact .inr ⟨stream, [], rfl, by simp, reads_stx _⟩
    by_cases hetx : input = etx
    · left
      rw [hetx]
      rfl
    have hdigit : IsDigit input := ⟨hstx, hetx⟩
    rcases ih with hidle | ⟨before, p, hstream, hp, hreads⟩
    · left
      rw [step_digit _ hdigit]
      simp only [addDigit, hidle]
    · refine .inr ⟨before, p ++ [input], by rw [hstream]; simp, ?_, hreads.digit hdigit⟩
      intro b hb
      rcases List.mem_append.mp hb with hb | hb
      · exact hp b hb
      · rwa [List.mem_singleton.mp hb]

/-- Every frame that has begun in the stream has ended. -/
def Ended (stream : Bytes) : Prop :=
  ∀ before rest, stream = before ++ stx :: rest → etx ∈ rest

theorem state_of_ended (memory : Vector UInt8 idSize) {stream : Bytes} (h : Ended stream) :
    (run memory stream).state = 0 := by
  rcases idle_or_reads (s := { buf := memory }) rfl stream with hidle | ⟨before, p, hstream, hp, _⟩
  · exact hidle
  · exact absurd rfl (hp etx (h before p hstream)).2

/-- **The buffer is never overrun.** -/
theorem storeIndex_lt (memory : Vector UInt8 idSize) (stream : Bytes) (input : UInt8) {k : Nat}
    (h : (run memory stream).storeIndex input = some k) : k < idSize := by
  rw [storeIndex] at h
  split at h
  next hstore =>
    obtain rfl := Option.some.inj h
    have hstate := hstore.2.2
    rcases idle_or_reads (s := { buf := memory }) rfl stream with hidle | ⟨_, p, _, _, hreads⟩
    · exact absurd (hidle.symm.trans hstate) (by decide)
    · have hsize : idSize = 5 := rfl
      have hindex := hreads.index
      have hstate' := hreads.state.symm.trans hstate
      rw [run, hindex]
      split at hstate' <;> omega
  next => exact absurd h (by simp)

/-! ### The card of a frame -/

/-- The bytes that pairs of digits stand for. -/
def packs : Bytes → Bytes
  | high :: low :: p => pack high low :: packs p
  | _ => []

/-- What `getId` makes of the digits of a card and those of its checksum. -/
def decode (digits : Bytes) (high low : UInt8) : CardId :=
  if (packs digits).foldl (fun cs b => cs ^^^ toInt b) 0 ≠ append (intDigit high) low then 0
  else Nat.ofDigits 256 ((packs digits).reverse.map UInt8.toNat)

theorem getElem?_packs {p : Bytes} {k : Nat} {high low : UInt8} (hhigh : p[2 * k]? = some high)
    (hlow : p[2 * k + 1]? = some low) : (packs p)[k]? = some (pack high low) := by
  induction k generalizing p with
  | zero =>
    match p, hhigh, hlow with
    | a :: b :: p, hhigh, hlow =>
      obtain rfl := Option.some.inj hhigh
      obtain rfl := Option.some.inj hlow
      rfl
  | succ k ih =>
    match p, hhigh, hlow with
    | a :: b :: p, hhigh, hlow => exact ih (p := p) hhigh hlow

theorem length_packs (p : Bytes) : (packs p).length = p.length / 2 := by
  fun_induction packs p with
  | case1 high low p ih => simp [ih]; omega
  | case2 p h =>
    match p, h with
    | [], _ => rfl
    | [_], _ => simp
    | a :: b :: p, h => exact absurd rfl (h a b p)

theorem Reads.getId {s : Rdm6300} {digits : Bytes} {high low : UInt8}
    (h : Reads s (digits ++ [high, low])) (hlen : digits.length = 10) :
    s.getId = decode digits high low := by
  have hbuf : s.buf.toList = packs digits := by
    apply List.ext_getElem?
    intro k
    by_cases hk : k < idSize
    · have hsize : idSize = 5 := rfl
      have hhigh : 2 * k < digits.length := by omega
      have hlow : 2 * k + 1 < digits.length := by omega
      have hstored := h.buf k digits[2 * k] digits[2 * k + 1] hk
        (by rw [List.getElem?_append_left hhigh]; exact List.getElem?_eq_getElem hhigh)
        (by rw [List.getElem?_append_left hlow]; exact List.getElem?_eq_getElem hlow)
      rw [getElem?_packs (List.getElem?_eq_getElem hhigh) (List.getElem?_eq_getElem hlow),
        ← hstored, Vector.getElem?_toList]
    · rw [List.getElem?_eq_none_iff.mpr, List.getElem?_eq_none_iff.mpr]
      · rw [length_packs, hlen]
        exact Nat.not_lt.mp hk
      · simpa using hk
  have hchecksum : s.checksum = append (intDigit high) low :=
    h.checksum high low (by simp [hlen]) (by simp [hlen])
  simp only [Rdm6300.getId, decode, hbuf, hchecksum]

/-! ### Frames -/

/-- The bytes of a card, the most significant first. -/
def cardBytes (id : CardId) : Bytes := (leBytes idSize id).reverse

def xorBytes (bytes : Bytes) : UInt8 := bytes.foldl (· ^^^ ·) 0

/-- The digits of a card in its frame, and those of the checksum. -/
def cardDigits (id : CardId) : Bytes := Hex.padZero 10 id
def checkDigits (id : CardId) : Bytes := Hex.padZero 2 (xorBytes (cardBytes id)).toNat

/-- What the module sends for a card. -/
def frame (id : CardId) : Bytes := [stx] ++ cardDigits id ++ checkDigits id ++ [etx]

theorem pack_digit {a b : Nat} (ha : a < 16) (hb : b < 16) :
    pack (Hex.digit a) (Hex.digit b) = UInt8.ofNat (16 * a + b) := by
  have hall : ∀ x y : Fin 16, pack (Hex.digit x) (Hex.digit y) = UInt8.ofNat (16 * x + y) := by
    decide
  exact hall ⟨a, ha⟩ ⟨b, hb⟩

theorem append_digit {a b : Nat} (ha : a < 16) (hb : b < 16) :
    append (intDigit (Hex.digit a)) (Hex.digit b) = toInt (UInt8.ofNat (16 * a + b)) := by
  have hall : ∀ x y : Fin 16, append (intDigit (Hex.digit x)) (Hex.digit y) =
      toInt (UInt8.ofNat (16 * x + y)) := by decide
  exact hall ⟨a, ha⟩ ⟨b, hb⟩

theorem packs_snoc {p : Bytes} (heven : p.length % 2 = 0) (high low : UInt8) :
    packs (p ++ [high, low]) = packs p ++ [pack high low] := by
  fun_induction packs p with
  | case1 a b p ih =>
    have heven' : p.length % 2 = 0 := by
      rw [List.length_cons, List.length_cons] at heven
      omega
    simp [packs, ih heven']
  | case2 p h =>
    match p, h with
    | [], _ => rfl
    | [_], _ => simp at heven
    | a :: b :: p, h => exact absurd rfl (h a b p)

theorem packs_padZero {k n : Nat} (hn : n < 256 ^ (k + 1)) :
    packs (Hex.padZero (2 * (k + 1)) n) = (leBytes (k + 1) n).reverse := by
  induction k generalizing n with
  | zero =>
    have hn : n < 256 := by simpa using hn
    rw [leBytes_succ, Hex.padZero_two hn, packs, pack_digit (by omega) (by omega)]
    have hbyte : 16 * (n / 16) + n % 16 = n % 256 := by omega
    rw [hbyte]
    rfl
  | succ k ih =>
    have hrest : n / 256 < 256 ^ (k + 1) := by
      rw [Nat.div_lt_iff_lt_mul (by omega), ← Nat.pow_succ]
      exact hn
    have heven : (Hex.padZero (2 * (k + 1)) (n / 256)).length % 2 = 0 := by
      rw [Hex.length_padZero (by omega) (by rw [Nat.pow_mul]; exact hrest)]
      omega
    have hbyte : 16 * (n / 16 % 16) + n % 16 = n % 256 := by omega
    rw [leBytes_succ, List.reverse_cons, ← ih hrest,
      show 2 * (k + 1 + 1) = 2 * (k + 1) + 2 by omega, Hex.padZero_byte (by omega),
      packs_snoc heven, pack_digit (by omega) (by omega), hbyte]
theorem toInt_injective {a b : UInt8} (h : toInt a = toInt b) : a = b := by
  have hbits := congrArg (BitVec.setWidth 8) h
  simp only [toInt, BitVec.setWidth_setWidth_of_le _ (by decide : 8 ≤ 32), BitVec.setWidth_eq] at hbits
  exact UInt8.toBitVec_inj.mp hbits

theorem foldl_toInt (a : UInt8) (bytes : Bytes) :
    bytes.foldl (fun cs b => cs ^^^ toInt b) (toInt a) = toInt (bytes.foldl (· ^^^ ·) a) := by
  induction bytes generalizing a with
  | nil => rfl
  | cons b bytes ih =>
    have hxor : toInt a ^^^ toInt b = toInt (a ^^^ b) := by
      simp [toInt, BitVec.setWidth_xor]
    rw [List.foldl_cons, hxor, ih, List.foldl_cons]

theorem decode_eq (digits : Bytes) (high low : UInt8) :
    decode digits high low =
      if toInt (xorBytes (packs digits)) = append (intDigit high) low then
        Nat.ofDigits 256 ((packs digits).reverse.map UInt8.toNat) else 0 := by
  have hfold := foldl_toInt 0 (packs digits)
  rw [decode, show (0 : BitVec 32) = toInt 0 from rfl, hfold, xorBytes]
  simp only [ne_eq, ite_not]

section Card

variable {id : CardId} (hid : id < 2 ^ 40)

include hid

theorem packs_cardDigits : packs (cardDigits id) = cardBytes id :=
  packs_padZero (k := 4) hid

theorem length_cardDigits : (cardDigits id).length = 10 := Hex.length_padZero (by decide) hid

/-- The digits of a card decode to it, or to none with another checksum. -/
theorem decode_cardDigits (high low : UInt8) :
    decode (cardDigits id) high low =
      if toInt (xorBytes (cardBytes id)) = append (intDigit high) low then id else 0 := by
  rw [decode_eq, packs_cardDigits hid, cardBytes, List.reverse_reverse, ofDigits_leBytes hid]

end Card

theorem exists_checkDigits (id : CardId) :
    ∃ high low, checkDigits id = [high, low] ∧
      append (intDigit high) low = toInt (xorBytes (cardBytes id)) := by
  have hlt := (xorBytes (cardBytes id)).toNat_lt
  refine ⟨_, _, Hex.padZero_two hlt, ?_⟩
  rw [append_digit (by omega) (by omega)]
  congr 1
  apply UInt8.toNat_inj.mp
  rw [UInt8.toNat_ofNat']
  omega

theorem isDigit_of_mem {id : CardId} {b : UInt8} (h : b ∈ cardDigits id ++ checkDigits id) :
    IsDigit b := by
  have hpad : ∃ d < 16, b = Hex.digit d := by
    rcases List.mem_append.mp h with h | h
    · exact Hex.mem_padZero h
    · exact Hex.mem_padZero h
  obtain ⟨d, hd, rfl⟩ := hpad
  have hall : ∀ d : Fin 16, IsDigit (Hex.digit d) := by decide
  exact hall ⟨d, hd⟩

/-- **A whole frame**, from any decoder state. -/
theorem Reads.frame {s : Rdm6300} {p : Bytes} (hp : ∀ b ∈ p, IsDigit b) :
    Reads (Runs.exec step s (stx :: p)) p :=
  (reads_stx s).digits hp

@[simp] theorem getId_etx (s : Rdm6300) : (s.step etx).getId = s.getId := rfl

theorem returns_frame (s : Rdm6300) {p : Bytes} (hp : ∀ b ∈ p, IsDigit b) (hlen : 12 ≤ p.length) :
    returns s (stx :: p ++ [etx]) = List.replicate (p.length + 1) false ++ [true] := by
  have hstate := (Reads.frame (s := s) hp).state
  rw [if_neg (by omega), Nat.min_eq_right (by omega)] at hstate
  have hdigits := returns_digits (s.step stx) hp
  have hlast : ((Runs.exec step s (stx :: p)).addByte etx).1 = true := by
    rw [addByte, if_neg (by decide), if_pos rfl]
    exact decide_eq_true hstate
  rw [returns] at hdigits ⊢
  rw [Runs.emitted_append, Runs.emitted_cons, hdigits, Runs.emitted_cons, hlast]
  rfl

/-- **Frames are decoded, from wherever the decoder is**, and the buffer is not
    overrun on any stream. -/
theorem frame_decoded (memory : Vector UInt8 idSize) (stream : Bytes) (id : RfidId) :
    returns (run memory stream) (frame id) = List.replicate 13 false ++ [true] ∧
      (run memory (stream ++ frame id)).getId = id ∧
      ∀ input k, (run memory stream).storeIndex input = some k → k < idSize := by
  have hdigits : ∀ b ∈ cardDigits id ++ checkDigits id, IsDigit b := fun _ => isDigit_of_mem
  have hcard := length_cardDigits id.2
  obtain ⟨high, low, hcheck, hchecksum⟩ := exists_checkDigits id
  have hframe : frame id = stx :: (cardDigits id ++ checkDigits id) ++ [etx] := by
    simp [frame]
  have hlen : (cardDigits id ++ checkDigits id).length = 12 := by
    simp [hcard, hcheck]
  refine ⟨?_, ?_, fun _ _ => storeIndex_lt memory stream _⟩
  · have hreturns := returns_frame (run memory stream) hdigits (by omega)
    rwa [hlen, ← hframe] at hreturns
  · have hreads := Reads.frame (s := run memory stream) hdigits
    rw [hcheck] at hreads
    have hid := hreads.getId hcard
    rw [decode_cardDigits id.2, if_pos hchecksum.symm] at hid
    rw [← hcheck] at hid
    rw [run, Runs.exec_append, hframe, Runs.exec_snoc, getId_etx]
    exact hid

/-! ### Damaged frames -/

/-- **What a decoder accepts** that was between two frames. -/
theorem accepted {s : Rdm6300} (h : s.state = 0) {stream : Bytes} {input : UInt8}
    (haccept : ((Runs.exec step s stream).addByte input).1 = true) :
    input = etx ∧ ∃ before p, stream = before ++ stx :: p ∧ (∀ b ∈ p, IsDigit b) ∧
      12 ≤ p.length ∧ Reads (Runs.exec step s stream) p := by
  rw [addByte] at haccept
  split at haccept
  · exact absurd haccept Bool.false_ne_true
  split at haccept
  next hetx =>
    have hstate : (Runs.exec step s stream).state = 5 := of_decide_eq_true haccept
    rcases idle_or_reads h stream with hidle | ⟨before, p, hstream, hp, hreads⟩
    · exact absurd (hidle.symm.trans hstate) (by decide)
    · refine ⟨hetx, before, p, hstream, hp, ?_, hreads⟩
      have hstate' := hreads.state.symm.trans hstate
      split at hstate' <;> omega
  next => exact absurd haccept Bool.false_ne_true

theorem foldl_xor (a : UInt8) (bytes : Bytes) :
    bytes.foldl (· ^^^ ·) a = a ^^^ xorBytes bytes := by
  induction bytes generalizing a with
  | nil => simp [xorBytes]
  | cons b bytes ih =>
    rw [xorBytes, List.foldl_cons, List.foldl_cons, ih, ih (0 ^^^ b), UInt8.zero_xor,
      UInt8.xor_assoc]

theorem xorBytes_cons (b : UInt8) (bytes : Bytes) : xorBytes (b :: bytes) = b ^^^ xorBytes bytes := by
  rw [xorBytes, List.foldl_cons, UInt8.zero_xor, foldl_xor]

/-- **The XOR sees a change of one byte.** -/
theorem set_eq_of_xorBytes {bytes : Bytes} {k : Nat} {b : UInt8}
    (h : xorBytes (bytes.set k b) = xorBytes bytes) : bytes.set k b = bytes := by
  induction bytes generalizing k with
  | nil => rfl
  | cons a bytes ih =>
    cases k with
    | zero =>
      rw [List.set_cons_zero, xorBytes_cons, xorBytes_cons, UInt8.xor_left_inj] at h
      rw [List.set_cons_zero, h]
    | succ k =>
      rw [List.set_cons_succ, xorBytes_cons, xorBytes_cons, UInt8.xor_right_inj] at h
      rw [List.set_cons_succ, ih h]

theorem packs_set (p : Bytes) (k : Nat) (b : UInt8) :
    ∃ j c, packs (p.set k b) = (packs p).set j c := by
  fun_induction packs p generalizing k with
  | case1 high low p ih =>
    match k with
    | 0 => exact ⟨0, pack b low, rfl⟩
    | 1 => exact ⟨0, pack high b, rfl⟩
    | k + 2 =>
      obtain ⟨j, c, hset⟩ := ih k
      exact ⟨j + 1, c, by simp [packs, hset]⟩
  | case2 p h =>
    refine ⟨0, 0, ?_⟩
    match p, h with
    | [], _ => rfl
    | [_], _ => cases k <;> rfl
    | a :: b :: p, h => exact absurd rfl (h a b p)

/-- A frame of which one byte is replaced, and which is a frame still. -/
theorem eq_or_set_of_frame {p q : Bytes} {position : Nat} {b : UInt8} (hlen : p.length = q.length)
    (h : (stx :: q ++ [etx]).set position b = stx :: p ++ [etx]) :
    p = q ∨ ∃ k, p = q.set k b := by
  rw [List.cons_append, List.cons_append] at h
  cases position with
  | zero =>
    rw [List.set_cons_zero, List.cons.injEq] at h
    exact .inl (List.append_inj_left' h.2 rfl).symm
  | succ k =>
    rw [List.set_cons_succ, List.cons.injEq, List.set_append] at h
    have hinner := h.2
    split at hinner
    · exact .inr ⟨k, (List.append_inj_left' hinner rfl).symm⟩
    · exact .inl (List.append_inj_left hinner hlen.symm).symm

theorem decode_cardDigits_or {id : CardId} (hid : id < 2 ^ 40) (high low : UInt8) :
    decode (cardDigits id) high low = id ∨ decode (cardDigits id) high low = 0 := by
  rw [decode_cardDigits hid]
  split
  · exact .inl rfl
  · exact .inr rfl

/-- One digit of the card is changed. -/
theorem decode_set {id : CardId} (hid : id < 2 ^ 40) {high low : UInt8} (k : Nat) (b : UInt8)
    (hcheck : append (intDigit high) low = toInt (xorBytes (cardBytes id))) :
    decode ((cardDigits id).set k b) high low = id ∨
      decode ((cardDigits id).set k b) high low = 0 := by
  obtain ⟨j, c, hset⟩ := packs_set (cardDigits id) k b
  rw [decode_eq, hset, packs_cardDigits hid, hcheck]
  split
  next hsame =>
    left
    rw [set_eq_of_xorBytes (toInt_injective hsame), cardBytes, List.reverse_reverse,
      ofDigits_leBytes hid]
  next => exact .inr rfl

/-- The digits of a frame, one of them replaced, are those of the card or of none. -/
theorem decode_damaged {id : CardId} (hid : id < 2 ^ 40) {p : Bytes} {b : UInt8}
    (h : p = cardDigits id ++ checkDigits id ∨ ∃ k, p = (cardDigits id ++ checkDigits id).set k b) :
    ∃ digits high low, p = digits ++ [high, low] ∧ digits.length = 10 ∧
      (decode digits high low = id ∨ decode digits high low = 0) := by
  obtain ⟨high, low, hcheck, hchecksum⟩ := exists_checkDigits id
  have hcard := length_cardDigits hid
  rw [hcheck] at h
  rcases h with rfl | ⟨k, rfl⟩
  · exact ⟨_, _, _, rfl, hcard, decode_cardDigits_or hid high low⟩
  rw [List.set_append]
  split
  · exact ⟨_, _, _, rfl, by rw [List.length_set, hcard], decode_set hid k b hchecksum⟩
  · obtain ⟨high', low', hset⟩ : ∃ high' low', [high, low].set (k - (cardDigits id).length) b =
        [high', low'] := by
      rcases k - (cardDigits id).length with - | - | -
      · exact ⟨b, low, rfl⟩
      · exact ⟨high, b, rfl⟩
      · exact ⟨high, low, rfl⟩
    rw [hset]
    exact ⟨_, _, _, rfl, hcard, decode_cardDigits_or hid high' low'⟩

/-- **A frame with one byte replaced** is never the frame of another card. -/
theorem damaged_frame (memory : Vector UInt8 idSize) {stream : Bytes} (hended : Ended stream)
    (id : RfidId) (position : Nat) (b : UInt8) {before after : Bytes} {input : UInt8}
    (hframe : (frame id).set position b = before ++ input :: after)
    (haccept : ((run memory (stream ++ before)).addByte input).1 = true) :
    (run memory (stream ++ before ++ [input])).getId = id ∨
      (run memory (stream ++ before ++ [input])).getId = 0 := by
  have hidle := state_of_ended memory hended
  rw [run, Runs.exec_append] at haccept
  obtain ⟨rfl, start, p, rfl, hp, hlen, hreads⟩ := accepted hidle haccept
  -- what is accepted has the length of a frame, so it is the whole of it
  have hlenq : (cardDigits id ++ checkDigits id).length = 12 := by
    obtain ⟨high, low, hcheck, _⟩ := exists_checkDigits id
    simp [length_cardDigits id.2, hcheck]
  have hform : frame id = stx :: (cardDigits id ++ checkDigits id) ++ [etx] := by
    simp [frame]
  have hcount := congrArg List.length hframe
  rw [hform] at hframe hcount
  simp only [List.length_set, List.length_append, List.length_cons, List.length_nil] at hcount hlenq
  obtain rfl : start = [] := List.length_eq_zero_iff.mp (by omega)
  obtain rfl : after = [] := List.length_eq_zero_iff.mp (by omega)
  have hlenp : p.length = (cardDigits id ++ checkDigits id).length := by
    rw [List.length_append]
    omega
  obtain ⟨digits, high, low, rfl, hten, hid⟩ :=
    decode_damaged id.2 (eq_or_set_of_frame hlenp hframe)
  rw [run, Runs.exec_snoc, Runs.exec_append, getId_etx]
  have hgetId := hreads.getId hten
  rw [List.nil_append, run] at hgetId
  rw [List.nil_append, hgetId]
  exact hid

def sampleCard : RfidId := ⟨0x13006042CF, by decide⟩

/-- The second digit of the card reads as an `X`. -/
def sampleDamage : Bytes := [stx] ++ str "1X006042CFFE"

theorem damaged_frame_sample :
    ((run (Vector.replicate idSize 0) sampleDamage).addByte etx).1 = true ∧
      (frame sampleCard).set 2 88 = sampleDamage ++ etx :: [] ∧
      ((run (Vector.replicate idSize 0) (sampleDamage ++ [etx])).getId = sampleCard ∨
        (run (Vector.replicate idSize 0) (sampleDamage ++ [etx])).getId = 0) := by
  have hframe : (frame sampleCard).set 2 88 = sampleDamage ++ etx :: [] := by decide
  have haccept : ((run (Vector.replicate idSize 0) ([] ++ sampleDamage)).addByte etx).1 = true := by
    decide
  have hended : Ended [] := by
    intro before rest h
    simp at h
  refine ⟨haccept, hframe, ?_⟩
  exact damaged_frame (Vector.replicate idSize 0) hended sampleCard 2 88 hframe haccept

end Rdm6300

end Acs
