/-
  Acs/FrameFormat.lean
  ====================
  **What the decoder takes for a frame** (`RDM6300.h`).

  `add_byte` knows the frame format, ten digits and two more between `STX` and
  `ETX`, but it looks neither at what kind of byte a digit is nor at what comes
  after the twelfth one.  As long as the module sends only digits, and no more
  than twelve, everything that is accepted is a frame of the card that is read
  (`onlyFrames_run`).  A frame with something more in front of its `ETX` is
  accepted as well (`not_onlyFrames_of_surplus`).
-/
import Acs.Rdm6300

namespace Acs.Rdm6300

open Acs Runs

/-- Wherever in the stream a card is read, the bytes up to there end with its
    frame. -/
def OnlyFrames (memory : Vector UInt8 idSize) (stream : Bytes) : Prop :=
  ∀ before input after, stream = before ++ input :: after →
    ((run memory before).addByte input).1 = true →
    (run memory (before ++ [input])).getId ≠ 0 →
    (run memory (before ++ [input])).getId < 2 ^ 40 ∧
      frame (run memory (before ++ [input])).getId <:+ before ++ [input]

/-- One of the characters `0` to `9` and `A` to `F`. -/
def IsUpperDigit (input : UInt8) : Prop := 48 ≤ input ∧ input ≤ 57 ∨ 65 ≤ input ∧ input ≤ 70

instance (input : UInt8) : Decidable (IsUpperDigit input) :=
  inferInstanceAs (Decidable (_ ∨ _))

/-- Inside a frame there are digits only, and when there are twelve of them the
    frame ends or another begins. -/
def InFormat (s : Rdm6300) (input : UInt8) : Prop :=
  input = stx ∨ input = etx ∨ s.state = 0 ∨ s.state ≠ 5 ∧ IsUpperDigit input

instance (s : Rdm6300) (input : UInt8) : Decidable (InFormat s input) :=
  inferInstanceAs (Decidable (_ ∨ _))

theorem exists_digit {b : UInt8} (h : IsUpperDigit b) : ∃ d < 16, b = Hex.digit d := by
  have hb : UInt8.ofNat b.toNat = b := UInt8.ofNat_toNat
  rcases h with ⟨hlow, hhigh⟩ | ⟨hlow, hhigh⟩
  · have hlow : 48 ≤ b.toNat := UInt8.le_iff_toNat_le.mp hlow
    have hhigh : b.toNat ≤ 57 := UInt8.le_iff_toNat_le.mp hhigh
    refine ⟨b.toNat - 48, by omega, ?_⟩
    rw [Hex.digit, if_pos (by omega), Nat.add_sub_cancel' hlow, hb]
  · have hlow : 65 ≤ b.toNat := UInt8.le_iff_toNat_le.mp hlow
    have hhigh : b.toNat ≤ 70 := UInt8.le_iff_toNat_le.mp hhigh
    refine ⟨b.toNat - 55, by omega, ?_⟩
    rw [Hex.digit, if_neg (by omega), Nat.add_sub_cancel' (by omega), hb]

theorem exists_digits {p : Bytes} (h : ∀ b ∈ p, IsUpperDigit b) :
    ∃ ds : List Nat, (∀ d ∈ ds, d < 16) ∧ p = ds.map Hex.digit := by
  induction p with
  | nil => exact ⟨[], by simp, rfl⟩
  | cons b p ih =>
    rw [List.forall_mem_cons] at h
    obtain ⟨d, hd, rfl⟩ := exists_digit h.1
    obtain ⟨ds, hds, rfl⟩ := ih h.2
    exact ⟨d :: ds, List.forall_mem_cons.mpr ⟨hd, hds⟩, rfl⟩

/-! ### Digits that are read -/

/-- **A card that is read from twelve digits has them as its frame.** -/
theorem digits_eq_of_decode {digits : Bytes} {high low : UInt8} (hlen : digits.length = 10)
    (h : ∀ b ∈ digits ++ [high, low], IsUpperDigit b) (hne : decode digits high low ≠ 0) :
    decode digits high low < 2 ^ 40 ∧
      digits ++ [high, low] =
        cardDigits (decode digits high low) ++ checkDigits (decode digits high low) := by
  rw [List.forall_mem_append] at h
  obtain ⟨ds, hds, rfl⟩ := exists_digits h.1
  obtain ⟨a, ha, rfl⟩ := exists_digit (h.2 high (by simp))
  obtain ⟨b, hb, rfl⟩ := exists_digit (h.2 low (by simp))
  rw [List.length_map] at hlen
  have hnil : ds ≠ [] := by
    rintro rfl
    cases hlen
  have hcard : cardDigits (Hex.number ds) = ds.map Hex.digit := by
    rw [cardDigits, ← hlen]
    exact Hex.padZero_number hnil hds
  have hid : Hex.number ds < 2 ^ 40 := by
    have hlt := Hex.number_lt hds
    rw [hlen] at hlt
    exact lt_of_lt_of_eq hlt (by norm_num)
  rw [← hcard, decode_cardDigits hid] at hne ⊢
  by_cases hcheck : toInt (xorBytes (cardBytes (Hex.number ds))) =
      append (intDigit (Hex.digit a)) (Hex.digit b)
  · rw [if_pos hcheck]
    refine ⟨hid, ?_⟩
    -- the two digits are those of the checksum
    rw [append_digit ha hb] at hcheck
    have hxor : (xorBytes (cardBytes (Hex.number ds))).toNat = 16 * a + b := by
      rw [toInt_injective hcheck, UInt8.toNat_ofNat']
      omega
    have hdiv : (16 * a + b) / 16 = a := by omega
    have hmod : (16 * a + b) % 16 = b := by omega
    rw [checkDigits, hxor, Hex.padZero_two (by omega), hdiv, hmod]
  · rw [if_neg hcheck] at hne
    exact absurd rfl hne

/-! ### Streams in the format -/

/-- In a stream that keeps the format, a frame that has begun has only digits, and
    twelve at most. -/
theorem digits_of_inFormat {s : Rdm6300} {before p : Bytes} (hp : ∀ b ∈ p, IsDigit b)
    (h : Along step InFormat s (before ++ stx :: p)) :
    (∀ b ∈ p, IsUpperDigit b) ∧ p.length ≤ 12 := by
  -- each byte meets the state that the bytes before it have led to
  have hbyte : ∀ q b r, p = q ++ b :: r → IsUpperDigit b ∧ q.length < 12 := by
    rintro q b r rfl
    have hq : ∀ b ∈ q, IsDigit b := fun b hb => hp b (List.mem_append_left _ hb)
    have hb : IsDigit b := hp b (by simp)
    have hsplit : before ++ stx :: (q ++ b :: r) = (before ++ stx :: q) ++ b :: r := by simp
    have hformat := along_iff.mp h _ b r hsplit
    have hstate := (Reads.frame (s := exec step s before) hq).state
    rw [exec_append] at hformat
    rcases hformat with hstx | hetx | hzero | ⟨hfive, hdigit⟩
    · exact absurd hstx hb.1
    · exact absurd hetx hb.2
    · rw [hzero] at hstate
      split at hstate <;> omega
    · refine ⟨hdigit, ?_⟩
      split at hstate <;> omega
  constructor
  · intro b hb
    obtain ⟨q, r, rfl⟩ := List.append_of_mem hb
    exact (hbyte q b r rfl).1
  · by_contra hlong
    have hlt : 12 < p.length := by omega
    have hsplit : p = p.take 12 ++ p[12] :: p.drop 13 := by
      rw [← List.drop_eq_getElem_cons hlt, List.take_append_drop]
    have htake := (hbyte _ _ _ hsplit).2
    rw [List.length_take] at htake
    omega

/-- **What is accepted is a frame**, in every stream that has digits only inside
    its frames, and no more than twelve. -/
theorem onlyFrames_run (memory : Vector UInt8 idSize) {stream : Bytes}
    (h : Along step InFormat { buf := memory } stream) : OnlyFrames memory stream := by
  rintro before input after rfl haccept hne
  obtain ⟨rfl, start, p, rfl, hp, hlen, hreads⟩ := accepted (s := { buf := memory }) rfl haccept
  obtain ⟨hupper, hle⟩ := digits_of_inFormat hp (along_append.mp h).1
  have hsplit : ∃ digits high low, p = digits ++ [high, low] ∧ digits.length = 10 := by
    have hdrop : (p.drop 10).length = 2 := by
      rw [List.length_drop]
      omega
    obtain ⟨high, low, hpair⟩ := List.length_eq_two.mp hdrop
    exact ⟨p.take 10, high, low, by rw [← hpair, List.take_append_drop], by simp; omega⟩
  obtain ⟨digits, high, low, rfl, hten⟩ := hsplit
  have hgetId : (run memory (start ++ stx :: (digits ++ [high, low]) ++ [etx])).getId =
      decode digits high low := by
    rw [run, exec_snoc, getId_etx]
    exact hreads.getId hten
  rw [hgetId] at hne ⊢
  obtain ⟨hid, hdigits⟩ := digits_eq_of_decode hten hupper hne
  refine ⟨hid, start, ?_⟩
  rw [frame, hdigits]
  simp

/-- A frame of a card. -/
theorem onlyFrames_run_sample : OnlyFrames (Vector.replicate idSize 0) (frame sampleCard) :=
  onlyFrames_run (Vector.replicate idSize 0) (by decide)

/-! ### Streams out of the format -/

theorem exec_surplus {s : Rdm6300} (h : s.state = 5) {q : Bytes} (hq : ∀ b ∈ q, IsDigit b) :
    exec step s q = s := by
  induction q with
  | nil => rfl
  | cons b q ih =>
    rw [List.forall_mem_cons] at hq
    have hstep : s.step b = s := by
      rw [step_digit s hq.1]
      simp only [addDigit, h]
    rw [exec_cons, hstep]
    exact ih hq.2

/-- **A frame with a surplus** in front of its `ETX` is accepted for the card. -/
theorem not_onlyFrames_of_surplus (memory : Vector UInt8 idSize) {id : RfidId} (hid : id.1 ≠ 0)
    {q : Bytes} (hne : q ≠ []) (hq : ∀ b ∈ q, IsDigit b) :
    ¬ OnlyFrames memory (stx :: (cardDigits id ++ checkDigits id) ++ q ++ [etx]) := by
  intro h
  obtain ⟨high, low, hcheck, hchecksum⟩ := exists_checkDigits id
  have hcard := length_cardDigits id.2
  have hdigits : ∀ b ∈ cardDigits id ++ checkDigits id, IsDigit b := fun _ => isDigit_of_mem
  have hreads := Reads.frame (s := { buf := memory }) hdigits
  have hfull : (exec step { buf := memory } (stx :: (cardDigits id ++ checkDigits id))).state = 5 := by
    rw [hreads.state, List.length_append, hcard, hcheck]
    rfl
  have hrun : run memory (stx :: (cardDigits id ++ checkDigits id) ++ q) =
      exec step { buf := memory } (stx :: (cardDigits id ++ checkDigits id)) := by
    rw [run, exec_append, exec_surplus hfull hq]
  have haccept : ((run memory (stx :: (cardDigits id ++ checkDigits id) ++ q)).addByte etx).1 =
      true := by
    rw [hrun, addByte, if_neg (by decide), if_pos rfl]
    exact decide_eq_true hfull
  have hgetId : (run memory (stx :: (cardDigits id ++ checkDigits id) ++ q ++ [etx])).getId = id := by
    rw [run, exec_snoc, ← run, getId_etx, hrun]
    rw [hcheck] at hreads ⊢
    rw [hreads.getId hcard, decode_cardDigits id.2, if_pos hchecksum.symm]
  obtain ⟨_, start, hframe⟩ := h _ etx [] rfl haccept (by rw [hgetId]; exact hid)
  rw [hgetId] at hframe
  -- the frame is shorter, so it begins at a byte that is no control byte
  cases start with
  | nil =>
    have hlength := congrArg List.length hframe
    have hpos := List.length_pos_iff.mpr hne
    simp [frame, hcard, hcheck] at hlength
    omega
  | cons first start =>
    have htail : start ++ frame id = (cardDigits id ++ checkDigits id) ++ q ++ [etx] :=
      (List.cons.inj hframe).2
    have hmem : stx ∈ (cardDigits id ++ checkDigits id) ++ q ++ [etx] := by
      rw [← htail]
      exact List.mem_append_right _ (by simp [frame])
    rw [List.mem_append, List.mem_append, List.mem_singleton] at hmem
    rcases hmem with (hmem | hmem) | hmem
    · exact (hdigits stx hmem).1 rfl
    · exact (hq stx hmem).1 rfl
    · exact absurd hmem (by decide)

/-- One digit too many. -/
theorem not_onlyFrames : ¬ ∀ memory stream, OnlyFrames memory stream := by
  intro h
  have hdigit : ∀ b ∈ str "A", IsDigit b := List.forall_mem_singleton.mpr (by decide)
  exact not_onlyFrames_of_surplus (Vector.replicate idSize 0) (by decide : sampleCard.1 ≠ 0)
    (List.cons_ne_nil _ _) hdigit (h _ _)

end Acs.Rdm6300
