/-
  Acs/Esp32/Http.lean
  ===================
  **The body of a response, collected chunk by chunk** (`http.cpp`).

  `http_event_handler` appends each chunk to the buffer of its `Http_data`, and
  leaves out one for which there is no room.  It does not remember that it has
  left one out: a later chunk that is small enough is appended again, and the
  text is no prefix of the body any more (`bodyKept_iff`).
-/
import Acs.Lib.CInt
import Acs.Lib.Run
import Acs.Bytes
import Mathlib.Data.List.GetD
import Mathlib.Data.List.Infix
import Mathlib.Logic.Function.Basic

namespace Acs.Esp32

open Acs Runs CInt

/-! ### The handler -/

/-- The data of an event; `data_len` is an `int`. -/
structure Chunk where
  data : Bytes
  lengthFits : data.length < 2147483648

inductive HttpEvent where
  | onData (chunk : Chunk)
  | disconnected
  | other

/-- `Http_data`; the memory is seen from the pointer `buffer`. -/
structure HttpData where
  buffer : Int → UInt8
  maxOutput : Int
  outputLen : Int := 0

/-- `memcpy(p + start, data, data_len)`. -/
def memcpy (p : Int → UInt8) (start : Int) (data : Bytes) : Int → UInt8 := fun i =>
  if start ≤ i ∧ i < start + data.length then data.getD (i - start).toNat 0 else p i

/-- The indices from `start` on that `memcpy` writes. -/
def indices (start : Int) (len : Nat) : List Int := (List.range len).map fun j : Nat => start + j

namespace HttpData

def dataEnd (d : HttpData) (chunk : Chunk) : Int := wrap (d.outputLen + chunk.data.length)

/-- The branch "Buffer overflow". -/
def Refuses (d : HttpData) (chunk : Chunk) : Prop := d.maxOutput ≤ d.dataEnd chunk

instance (d : HttpData) (chunk : Chunk) : Decidable (d.Refuses chunk) :=
  inferInstanceAs (Decidable (_ ≤ _))

/-- `HTTP_EVENT_ON_DATA`, with the indices of `buffer` that are written. -/
def onData (d : HttpData) (chunk : Chunk) : HttpData × List Int :=
  if d.Refuses chunk then (d, [])
  else
    let p := memcpy d.buffer d.outputLen chunk.data
    let outputLen := d.dataEnd chunk
    ({ d with buffer := Function.update p outputLen 0, outputLen },
      indices d.outputLen chunk.data.length ++ [outputLen])

/-- What has been collected. -/
def text (d : HttpData) : Bytes :=
  (List.range d.outputLen.toNat).map fun i : Nat => d.buffer i

end HttpData

/-- `http_event_handler`, which always returns `ESP_OK`; `user_data` may be null. -/
def httpEventHandler (chunked : Bool) (userData : Option HttpData) (evt : HttpEvent) :
    Option HttpData × List Int :=
  match evt with
  | .onData chunk =>
    if chunked then (userData, [])
    else
      match userData with
      | some d => (some (d.onData chunk).1, (d.onData chunk).2)
      | none => (none, [])
  | .disconnected => (userData, [])
  | .other => (userData, [])

/-! ### A transfer -/

/-- The buffer during the transfer, with all indices written so far, the body as
    far as it has been received, and whether a chunk has been stored. -/
structure Transfer where
  httpData : HttpData
  written : List Int := []
  received : Bytes := []
  stored : Bool := false

namespace Transfer

def start (memory : Int → UInt8) (maxOutput : Int) : Transfer :=
  { httpData := { buffer := memory, maxOutput } }

/-- An event of a response that is not chunked. -/
def step (s : Transfer) (evt : HttpEvent) : Transfer :=
  let (userData, written) := httpEventHandler false (some s.httpData) evt
  { httpData := userData.getD s.httpData
    written := s.written ++ written
    received := s.received ++ (match evt with | .onData chunk => chunk.data | _ => [])
    stored := s.stored || (match evt with | .onData chunk => !s.httpData.Refuses chunk | _ => false) }

def run (memory : Int → UInt8) (maxOutput : Int) (events : List HttpEvent) : Transfer :=
  exec step (start memory maxOutput) events

/-- The buffer is in order, and what it holds is a prefix of the body. -/
structure Kept (s : Transfer) : Prop where
  lenNonneg : 0 ≤ s.httpData.outputLen
  lenLt : s.httpData.outputLen < s.httpData.maxOutput
  inBuffer : ∀ i ∈ s.written, 0 ≤ i ∧ i < s.httpData.maxOutput
  terminated : s.stored = true → s.httpData.buffer s.httpData.outputLen = 0
  isPrefix : s.httpData.text <+: s.received

/-- The buffer is in order at all times of the transfer. -/
def BodyKept (memory : Int → UInt8) (maxOutput : Int) (events : List HttpEvent) : Prop :=
  ∀ pre, pre <+: events → (run memory maxOutput pre).Kept

/-- What has been received beyond the text in the buffer. -/
def missing (s : Transfer) : Bytes := s.received.drop s.httpData.outputLen.toNat

/-- The new length is an `int`, and a chunk that is stored although others before
    it are missing has the bytes that are missing at its place. -/
def Continues (s : Transfer) : HttpEvent → Prop
  | .onData chunk =>
    s.httpData.outputLen + chunk.data.length < 2147483648 ∧
      (s.httpData.dataEnd chunk < s.httpData.maxOutput → chunk.data <+: s.missing ++ chunk.data)
  | .disconnected => True
  | .other => True

instance (s : Transfer) : ∀ evt, Decidable (s.Continues evt)
  | .onData _ => inferInstanceAs (Decidable (_ ∧ (_ → _)))
  | .disconnected => inferInstanceAs (Decidable True)
  | .other => inferInstanceAs (Decidable True)

end Transfer

/-! ### The memory after a chunk -/

theorem memcpy_before {p : Int → UInt8} {start i : Int} {data : Bytes} (h : i < start) :
    memcpy p start data i = p i := by
  rw [memcpy, if_neg]
  intro hin
  exact absurd hin.1 (by omega)

theorem memcpy_at {p : Int → UInt8} {start : Int} {data : Bytes} {j : Nat}
    (h : j < data.length) : memcpy p start data (start + j) = data[j] := by
  have hin : start ≤ start + (j : Int) ∧ start + (j : Int) < start + data.length := by omega
  have hidx : (start + (j : Int) - start).toNat = j := by omega
  rw [memcpy, if_pos hin, hidx, List.getD_eq_getElem _ _ h]

theorem mem_indices {start i : Int} {len : Nat} :
    i ∈ indices start len ↔ start ≤ i ∧ i < start + len := by
  rw [indices, List.mem_map]
  constructor
  · rintro ⟨j, hj, rfl⟩
    have := List.mem_range.mp hj
    omega
  · rintro ⟨hlow, hhigh⟩
    exact ⟨(i - start).toNat, List.mem_range.mpr (by omega), by omega⟩

namespace HttpData

variable {d : HttpData} {chunk : Chunk}

theorem dataEnd_eq (hlen : 0 ≤ d.outputLen)
    (h : d.outputLen + chunk.data.length < 2147483648) :
    d.dataEnd chunk = d.outputLen + chunk.data.length := by
  rw [dataEnd, wrap_eq_self]
  constructor <;> omega

theorem length_text (d : HttpData) : d.text.length = d.outputLen.toNat := by
  rw [text, List.length_map, List.length_range]

theorem onData_refused (h : d.Refuses chunk) : d.onData chunk = (d, []) := if_pos h

theorem onData_stored (h : ¬ d.Refuses chunk) :
    d.onData chunk =
      ({ d with
          buffer := Function.update (memcpy d.buffer d.outputLen chunk.data) (d.dataEnd chunk) 0
          outputLen := d.dataEnd chunk },
        indices d.outputLen chunk.data.length ++ [d.dataEnd chunk]) :=
  if_neg h

/-- A chunk that is stored is appended to the text. -/
theorem text_onData (hlen : 0 ≤ d.outputLen)
    (hfits : d.outputLen + chunk.data.length < 2147483648) (h : ¬ d.Refuses chunk) :
    (d.onData chunk).1.text = d.text ++ chunk.data := by
  have hend := dataEnd_eq hlen hfits
  have hnat : (d.outputLen + (chunk.data.length : Int)).toNat =
      d.outputLen.toNat + chunk.data.length := by omega
  rw [onData_stored h, text, text, hend]
  dsimp only
  rw [hnat, List.range_add, List.map_append, List.map_map]
  congr 1
  · apply List.map_congr_left
    intro i hi
    have hlt := List.mem_range.mp hi
    rw [Function.update_of_ne (by omega), memcpy_before (by omega)]
  · apply List.ext_getElem
    · rw [List.length_map, List.length_range]
    · intro j hj hj'
      have hcast : ((d.outputLen.toNat + j : Nat) : Int) = d.outputLen + j := by omega
      rw [List.getElem_map, List.getElem_range, Function.comp_apply, hcast]
      rw [Function.update_of_ne (by omega), memcpy_at hj']

end HttpData

/-! ### One event -/

namespace Transfer

variable {s : Transfer} {chunk : Chunk}

theorem step_refused (h : s.httpData.Refuses chunk) :
    s.step (.onData chunk) =
      { s with
        received := s.received ++ chunk.data } := by
  simp only [step, httpEventHandler, HttpData.onData_refused h, decide_eq_true h]
  simp

theorem step_stored (h : ¬ s.httpData.Refuses chunk) :
    s.step (.onData chunk) =
      { httpData := (s.httpData.onData chunk).1
        written := s.written ++ (s.httpData.onData chunk).2
        received := s.received ++ chunk.data
        stored := true } := by
  simp only [step, httpEventHandler, decide_eq_false h]
  simp

theorem step_disconnected (s : Transfer) : s.step .disconnected = s := by
  simp [step, httpEventHandler]

theorem step_other (s : Transfer) : s.step .other = s := by
  simp [step, httpEventHandler]

theorem maxOutput_step (s : Transfer) (evt : HttpEvent) :
    (s.step evt).httpData.maxOutput = s.httpData.maxOutput := by
  cases evt with
  | onData chunk =>
    by_cases h : s.httpData.Refuses chunk
    · rw [step_refused h]
    · rw [step_stored h, HttpData.onData_stored h]
  | disconnected => rw [step_disconnected]
  | other => rw [step_other]

theorem text_append_missing (h : s.Kept) : s.httpData.text ++ s.missing = s.received := by
  have htext := List.prefix_iff_eq_take.mp h.isPrefix
  rw [HttpData.length_text] at htext
  rw [missing]
  nth_rewrite 1 [htext]
  exact List.take_append_drop _ _

/-- If the sum of the lengths is no `int`, it is negative, and the chunk is stored
    with a length below zero. -/
theorem not_kept_of_overflow (hmax : Fits s.httpData.maxOutput) (h : s.Kept)
    (hover : 2147483648 ≤ s.httpData.outputLen + chunk.data.length) :
    ¬ (s.step (.onData chunk)).Kept := by
  have hlow := h.lenNonneg
  have hlt := h.lenLt
  have hmaxlow := hmax.1
  have hmaxhigh := hmax.2
  have hchunk := chunk.lengthFits
  have hend : s.httpData.dataEnd chunk < 0 := by
    rw [HttpData.dataEnd, wrap_of_ge hover (by omega)]
    omega
  have hstored : ¬ s.httpData.Refuses chunk := by
    rw [HttpData.Refuses]
    omega
  intro hk
  rw [step_stored hstored, HttpData.onData_stored hstored] at hk
  exact absurd hk.lenNonneg (not_le.mpr hend)

theorem kept_refused (h : s.Kept) (hr : s.httpData.Refuses chunk) :
    (s.step (.onData chunk)).Kept := by
  rw [step_refused hr]
  exact { h with isPrefix := h.isPrefix.trans (List.prefix_append _ _) }

/-- What is stored lies behind the text, and inside the buffer. -/
theorem kept_stored_iff (h : s.Kept)
    (hfits : s.httpData.outputLen + chunk.data.length < 2147483648)
    (hr : ¬ s.httpData.Refuses chunk) :
    (s.step (.onData chunk)).Kept ↔ chunk.data <+: s.missing ++ chunk.data := by
  have hlow := h.lenNonneg
  have hend := HttpData.dataEnd_eq hlow hfits
  have hin : s.httpData.dataEnd chunk < s.httpData.maxOutput := not_le.mp hr
  have hprefix : (s.httpData.onData chunk).1.text <+: s.received ++ chunk.data ↔
      chunk.data <+: s.missing ++ chunk.data := by
    rw [HttpData.text_onData hlow hfits hr, ← text_append_missing h, List.append_assoc]
    exact List.prefix_append_right_inj _
  rw [step_stored hr]
  constructor
  · intro hk
    exact hprefix.mp hk.isPrefix
  · intro hcontinues
    refine ⟨?_, ?_, ?_, ?_, hprefix.mpr hcontinues⟩
    · rw [HttpData.onData_stored hr]
      dsimp only
      omega
    · rw [HttpData.onData_stored hr]
      exact hin
    · intro i hi
      rw [HttpData.onData_stored hr] at hi ⊢
      dsimp only
      rcases List.mem_append.mp hi with hi | hi
      · exact h.inBuffer i hi
      · rcases List.mem_append.mp hi with hi | hi
        · have := mem_indices.mp hi
          omega
        · rw [List.mem_singleton.mp hi]
          omega
    · intro _
      rw [HttpData.onData_stored hr]
      exact Function.update_self _ _ _

/-- **A step keeps the buffer in order exactly if its chunk continues the body.** -/
theorem kept_onData (hmax : Fits s.httpData.maxOutput) (h : s.Kept) :
    (s.step (.onData chunk)).Kept ↔ s.Continues (.onData chunk) := by
  rw [Continues]
  by_cases hfits : s.httpData.outputLen + chunk.data.length < 2147483648
  case neg =>
    exact iff_of_false (not_kept_of_overflow hmax h (not_lt.mp hfits)) fun hc => hfits hc.1
  case pos =>
    rw [and_iff_right hfits]
    by_cases hr : s.httpData.Refuses chunk
    case pos => exact iff_of_true (kept_refused h hr) fun hin => absurd hr (not_le.mpr hin)
    case neg =>
      rw [kept_stored_iff h hfits hr]
      exact ⟨fun hcontinues _ => hcontinues, fun hc => hc (not_le.mp hr)⟩

/-- Nothing but the chunks of the body changes a transfer. -/
theorem kept_step (hmax : Fits s.httpData.maxOutput) (evt : HttpEvent) (h : s.Kept) :
    (s.step evt).Kept ↔ s.Continues evt := by
  cases evt with
  | onData chunk => exact kept_onData hmax h
  | disconnected =>
    rw [step_disconnected]
    exact iff_of_true h trivial
  | other =>
    rw [step_other]
    exact iff_of_true h trivial

/-! ### Whole transfers -/

theorem kept_start (memory : Int → UInt8) {maxOutput : Int} (h : 0 < maxOutput) :
    (start memory maxOutput).Kept where
  lenNonneg := Int.le_refl 0
  lenLt := h
  inBuffer := fun _ hi => absurd hi List.not_mem_nil
  terminated := fun h => absurd h Bool.false_ne_true
  isPrefix := List.nil_prefix

/-- **The buffer holds a prefix of the body at all times, exactly if no chunk is
    stored that does not continue it.** -/
theorem bodyKept_iff (memory : Int → UInt8) {maxOutput : Int} (hpos : 0 < maxOutput)
    (hmax : Fits maxOutput) (events : List HttpEvent) :
    BodyKept memory maxOutput events ↔ Along step Continues (start memory maxOutput) events := by
  -- the size of the buffer is part of the invariant: the step lemma needs its range
  have h0 : (start memory maxOutput).httpData.maxOutput = maxOutput ∧
      (start memory maxOutput).Kept := ⟨rfl, kept_start memory hpos⟩
  have hrun := along_iff_prefixes step Continues
    (fun s => s.httpData.maxOutput = maxOutput ∧ s.Kept)
    (fun s evt hs => by
      rw [maxOutput_step, and_iff_right hs.1]
      exact kept_step (hs.1.symm ▸ hmax) evt hs.2) h0 events
  have hsize : ∀ pre, (run memory maxOutput pre).httpData.maxOutput = maxOutput := by
    intro pre
    exact exec_invariant_of_forall step (fun _ => True) (fun s => s.httpData.maxOutput = maxOutput)
      (fun s evt hs _ => (maxOutput_step s evt).trans hs) rfl (fun _ _ => trivial)
  rw [hrun, BodyKept]
  apply forall₂_congr
  intro pre _
  exact (and_iff_right (hsize pre)).symm

/-- A buffer of eight bytes: after six of them a chunk is refused, and those that
    come next are too long as well, or one of them is not. -/
theorem bodyKept_iff_sample :
    BodyKept (fun _ => 0) 8
        ([⟨str "abc", by decide⟩, ⟨str "def", by decide⟩, ⟨str "gh", by decide⟩,
          ⟨str "ijk", by decide⟩].map .onData) ∧
      ¬ BodyKept (fun _ => 0) 8
        ([⟨str "abc", by decide⟩, ⟨str "def", by decide⟩, ⟨str "gh", by decide⟩,
          ⟨str "i", by decide⟩].map .onData) := by
  constructor
  · rw [bodyKept_iff (fun _ => 0) (by decide) (by decide)]
    decide
  · rw [bodyKept_iff (fun _ => 0) (by decide) (by decide)]
    decide

/-! ### Bodies that fit, and bodies that do not -/

/-- A chunk for which there is room, when nothing is missing before it. -/
theorem step_of_room (hmax : Fits s.httpData.maxOutput) (h : s.Kept) (hnone : s.missing = [])
    (hroom : s.httpData.outputLen + chunk.data.length < s.httpData.maxOutput) :
    (s.step (.onData chunk)).Kept ∧ (s.step (.onData chunk)).missing = [] ∧
      (s.step (.onData chunk)).httpData.outputLen =
        s.httpData.outputLen + chunk.data.length := by
  have hhigh := hmax.2
  have hlow := h.lenNonneg
  have hend := HttpData.dataEnd_eq hlow (by omega : s.httpData.outputLen + chunk.data.length < 2147483648)
  have hstored : ¬ s.httpData.Refuses chunk := by
    rw [HttpData.Refuses]
    omega
  have hkept : (s.step (.onData chunk)).Kept := by
    rw [kept_onData hmax h, Continues, hnone]
    exact ⟨by omega, fun _ => List.prefix_refl _⟩
  have hlen : (s.step (.onData chunk)).httpData.outputLen =
      s.httpData.outputLen + chunk.data.length := by
    rw [step_stored hstored, HttpData.onData_stored hstored]
    exact hend
  refine ⟨hkept, ?_, hlen⟩
  have htext := HttpData.text_onData hlow (by omega) hstored
  have hreceived := text_append_missing h
  rw [hnone, List.append_nil] at hreceived
  rw [missing, List.drop_eq_nil_iff, ← HttpData.length_text, step_stored hstored]
  dsimp only
  rw [htext, hreceived]

/-- The length of a body. -/
def bodyLength (chunks : List Chunk) : Nat := (chunks.map fun c => c.data.length).sum

/-- **A body that fits is received whole.** -/
theorem exec_of_room (hmax : Fits s.httpData.maxOutput) (h : s.Kept) (hnone : s.missing = [])
    {chunks : List Chunk}
    (hroom : s.httpData.outputLen + bodyLength chunks < s.httpData.maxOutput) :
    (exec step s (chunks.map .onData)).Kept ∧ (exec step s (chunks.map .onData)).missing = [] ∧
      (exec step s (chunks.map .onData)).httpData.outputLen =
        s.httpData.outputLen + bodyLength chunks ∧
      (exec step s (chunks.map .onData)).httpData.maxOutput = s.httpData.maxOutput := by
  induction chunks generalizing s with
  | nil => exact ⟨h, hnone, by simp [bodyLength], rfl⟩
  | cons chunk chunks ih =>
    have hsum : bodyLength (chunk :: chunks) = chunk.data.length + bodyLength chunks := by
      rw [bodyLength, List.map_cons, List.sum_cons, bodyLength]
    rw [hsum] at hroom ⊢
    have hsize := maxOutput_step s (.onData chunk)
    have hfirst : s.httpData.outputLen + chunk.data.length < s.httpData.maxOutput := by omega
    obtain ⟨hkept, hmissing, hlen⟩ := step_of_room hmax h hnone hfirst
    have hrest := ih (by rwa [hsize]) hkept hmissing (by rw [hlen, hsize]; omega)
    rw [List.map_cons, exec_cons]
    refine ⟨hrest.1, hrest.2.1, ?_, hrest.2.2.2.trans hsize⟩
    rw [hrest.2.2.1, hlen]
    omega

/-- The chunks as far as there is room, and those after them: there is none for any
    of these. -/
structure Truncates (maxOutput : Int) (kept refused : List Chunk) : Prop where
  room : bodyLength kept < maxOutput
  full : ∀ chunk ∈ refused, maxOutput ≤ bodyLength kept + (chunk.data.length : Int) ∧
    bodyLength kept + (chunk.data.length : Int) < 2147483648

theorem httpData_of_full {refused : List Chunk} (hlow : 0 ≤ s.httpData.outputLen)
    (hfull : ∀ chunk ∈ refused,
      s.httpData.maxOutput ≤ s.httpData.outputLen + chunk.data.length ∧
        s.httpData.outputLen + chunk.data.length < 2147483648) :
    (exec step s (refused.map .onData)).httpData = s.httpData := by
  induction refused generalizing s with
  | nil => rfl
  | cons chunk refused ih =>
    obtain ⟨⟨hmax, hfits⟩, hrest⟩ := List.forall_mem_cons.mp hfull
    have hrefuses : s.httpData.Refuses chunk := by
      rw [HttpData.Refuses, HttpData.dataEnd_eq hlow hfits]
      exact hmax
    rw [List.map_cons, exec_cons, step_refused hrefuses]
    exact ih hlow hrest

theorem received_exec (s : Transfer) (chunks : List Chunk) :
    (exec step s (chunks.map .onData)).received = s.received ++ chunks.flatMap (·.data) := by
  induction chunks generalizing s with
  | nil => exact (List.append_nil _).symm
  | cons chunk chunks ih =>
    rw [List.map_cons, exec_cons, ih, List.flatMap_cons, ← List.append_assoc]
    rfl

/-- **A body is truncated** where no chunk has room any more after one that has
    none. -/
theorem text_of_truncates (memory : Int → UInt8) {maxOutput : Int} (hmax : Fits maxOutput)
    {kept refused : List Chunk} (h : Truncates maxOutput kept refused) :
    (run memory maxOutput ((kept ++ refused).map .onData)).httpData.text =
      kept.flatMap (·.data) := by
  have hpos : 0 < maxOutput := Int.lt_of_le_of_lt (Int.natCast_nonneg _) h.room
  have hstart : (start memory maxOutput).httpData.outputLen + bodyLength kept <
      (start memory maxOutput).httpData.maxOutput := (Int.zero_add _).symm ▸ h.room
  obtain ⟨hkept, hnone, hlen, hsize⟩ := exec_of_room hmax (kept_start memory hpos) rfl hstart
  have hlen' : (exec step (start memory maxOutput) (kept.map .onData)).httpData.outputLen =
      bodyLength kept := hlen.trans (Int.zero_add _)
  have hsame : (exec step (exec step (start memory maxOutput) (kept.map .onData))
      (refused.map .onData)).httpData =
        (exec step (start memory maxOutput) (kept.map .onData)).httpData := by
    refine httpData_of_full hkept.lenNonneg fun chunk hmem => ?_
    rw [hlen', hsize]
    exact h.full chunk hmem
  have htext := text_append_missing hkept
  rw [hnone, List.append_nil, received_exec] at htext
  rw [run, List.map_append, exec_append, hsame]
  exact htext

/-- **After a chunk for which there is no room, one for which there is room takes
    its place in the buffer**, unless it is what was to come there. -/
theorem not_bodyKept_of_refused (memory : Int → UInt8) {maxOutput : Int} (hmax : Fits maxOutput)
    {chunks : List Chunk} {refused later : Chunk} (hroom : bodyLength chunks < maxOutput)
    (hrefused : maxOutput ≤ bodyLength chunks + refused.data.length)
    (hlater : bodyLength chunks + later.data.length < maxOutput)
    (hne : ¬ later.data <+: refused.data ++ later.data) :
    ¬ BodyKept memory maxOutput (chunks.map .onData ++ [.onData refused, .onData later]) := by
  intro hkept
  have hpos : 0 < maxOutput := by omega
  have hstart : ((start memory maxOutput).httpData.outputLen : Int) + bodyLength chunks <
      (start memory maxOutput).httpData.maxOutput := by
    rw [show (start memory maxOutput).httpData.outputLen = 0 from rfl, zero_add]
    exact hroom
  obtain ⟨hbefore, hnone, hlen, hsize⟩ :=
    exec_of_room hmax (kept_start memory hpos) rfl hstart
  rw [show (start memory maxOutput).httpData.outputLen = 0 from rfl, zero_add] at hlen
  have hafter := hkept (chunks.map .onData ++ [.onData refused]) ⟨[.onData later], by simp⟩
  have hend := hkept _ (List.prefix_refl _)
  rw [run, exec_append] at hafter hend
  generalize exec step (start memory maxOutput) (chunks.map .onData) = s at *
  have hmax' : Fits s.httpData.maxOutput := hsize ▸ hmax
  rw [show (start memory maxOutput).httpData.maxOutput = maxOutput from rfl] at hsize
  rw [exec_cons, exec_nil] at hafter
  rw [exec_cons, exec_cons, exec_nil] at hend
  have hfits := ((kept_onData hmax' hbefore).mp hafter).1
  have hrefuses : s.httpData.Refuses refused := by
    rw [HttpData.Refuses, HttpData.dataEnd_eq hbefore.lenNonneg hfits]
    omega
  rw [step_refused hrefuses] at hafter hend
  obtain ⟨hfits, hcontinues⟩ :=
    (kept_onData (s := { s with received := s.received ++ refused.data }) hmax' hafter).mp hend
  rw [HttpData.dataEnd_eq hbefore.lenNonneg hfits] at hcontinues
  have hmissing : { s with received := s.received ++ refused.data }.missing = refused.data := by
    have hreceived := text_append_missing hbefore
    rw [hnone, List.append_nil] at hreceived
    rw [missing, ← HttpData.length_text, ← hreceived, List.drop_left]
  rw [hmissing] at hcontinues
  exact hne (hcontinues (by dsimp only; omega))

/-- A full buffer of the client. -/
def block (b : UInt8) : Chunk :=
  { data := List.replicate 512 b
    lengthFits := by rw [List.length_replicate]; decide }

/-- The end of the list of permissions is put behind the 19 blocks that have been
    stored, in the place of the one that has been left out. -/
theorem not_bodyKept :
    ¬ BodyKept (fun _ => 0) 10240
      ((List.replicate 19 (block 97)).map .onData ++
        [.onData (block 98), .onData ⟨str "]", by decide⟩]) := by
  refine not_bodyKept_of_refused _ (by decide) ?_ ?_ ?_ ?_ <;>
    simp only [bodyLength, block, List.map_replicate, List.sum_replicate, List.length_replicate]
  · decide
  · decide
  · decide
  · intro h
    rw [List.replicate_succ, List.cons_append] at h
    exact absurd (List.cons_prefix_cons.mp h).1 (by decide)

end Transfer

end Acs.Esp32
