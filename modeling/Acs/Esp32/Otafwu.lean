/-
  Acs/Esp32/Otafwu.lean
  =====================
  **The firmware update** (`otafwu.cpp`).

  `check_ota_update` downloads an image, looks at the version in its first chunk,
  writes every chunk to the next partition, and makes that the one to boot from.
  All that it is told (what is read, whether the connection is lost, what the
  calls return) is part of an `Ota`, in the order in which it is asked for.  When
  a description cannot be read, its version is compared all the same, with what
  the variable happens to hold; apart from that, nothing but a complete download
  of another version is ever booted (`bootSafe_iff`).
-/
import Acs.Bytes
import Mathlib.Data.List.Basic

namespace Acs.Esp32

open Acs

/-! ### What the function is told -/

/-- One call of `esp_http_client_read`: the data, none if the result is negative;
    when there is no data, whether `errno` says that the connection is lost, and
    whether the client has got everything; and whether the data can be written. -/
structure Read where
  data : Option Bytes
  lost : Bool := false
  complete : Bool := false
  writeOk : Bool := true
deriving DecidableEq

/-- An image in flash: its version, and what is in the variable for it after
    `esp_ota_get_partition_description`, which fails if the image is not readable. -/
structure Image where
  version : Bytes
  readable : Bool := true
  leftover : Bytes := []
deriving DecidableEq

def Image.seen (image : Image) : Bytes := if image.readable then image.version else image.leftover

/-- `updatePartition` is asserted not to be null; `esp_ota_end` fails for a handle
    that `esp_ota_begin` has not opened. -/
structure Ota (Partition : Type) where
  pendingVerify : Bool := false
  configured : Partition
  clientOk : Bool := true
  openOk : Bool := true
  statusCode : Int := 200
  updatePartition : Partition
  reads : List Read
  running : Image
  lastInvalid : Option Image := none
  beginOk : Bool := true
  completeAfter : Bool := true
  endOk : Bool → Bool
  end_closed : endOk false = false
  setBootOk : Bool := true

/-! ### The function -/

/-- The calls that it makes to the OTA library, aside from questions. -/
inductive OtaCall where
  | markAppValid
  | otaBegin
  | otaWrite (data : Bytes)
  | otaAbort
  | otaEnd
  | setBootPartition
deriving DecidableEq

/-- The sizes of `esp_image_header_t`, `esp_image_segment_header_t` and
    `esp_app_desc_t`. -/
def headerSize : Nat := 24 + 8 + 256

/-- `new_app_info.version`, behind the two headers and 16 bytes of the description. -/
def newVersion (data : Bytes) : Bytes := (data.drop (24 + 8 + 16)).take 32

namespace Ota

variable {Partition : Type} (w : Ota Partition)

/-- The block for the first chunk: what is returned, if anything. -/
def checkHeader (data : Bytes) : Option Bool × List OtaCall :=
  if data.length > headerSize then
    if ∃ image ∈ w.lastInvalid, image.seen = newVersion data then (some true, [])
    else if newVersion data = w.running.seen then (some true, [])
    else if w.beginOk then (none, [.otaBegin])
    else (some false, [.otaBegin, .otaAbort])
  else (some false, [.otaAbort])

/-- How the loop ends: the function returns; there is a `break`, with
    `image_header_was_checked`; or it is still downloading. -/
inductive LoopEnd where
  | returned (result : Bool)
  | broken (checked : Bool)
  | downloading
deriving DecidableEq

/-- The download loop; the flag is `image_header_was_checked`. -/
def download : Bool → List Read → LoopEnd × List OtaCall
  | _, [] => (.downloading, [])
  | checked, r :: reads =>
    match r.data with
    | none => (.returned false, [])
    | some [] =>
      if r.lost then (.broken checked, [])
      else if r.complete then (.broken checked, [])
      else download checked reads
    | some (b :: data) =>
      match if checked then (none, []) else w.checkHeader (b :: data) with
      | (some result, calls) => (.returned result, calls)
      | (none, calls) =>
        if r.writeOk then
          let (loopEnd, more) := download true reads
          (loopEnd, calls ++ .otaWrite (b :: data) :: more)
        else (.returned false, calls ++ [.otaWrite (b :: data), .otaAbort])

/-- What has been returned, if anything yet, the calls, and the partition that is
    configured for the next boot. -/
structure Outcome (Partition : Type) where
  result : Option Bool
  calls : List OtaCall
  configured : Partition

/-- `check_ota_update` behind the loop. -/
def finish (checked : Bool) (calls : List OtaCall) : Outcome Partition :=
  if !w.completeAfter then ⟨some false, calls ++ [.otaAbort], w.configured⟩
  else if !w.endOk checked then ⟨some false, calls ++ [.otaEnd], w.configured⟩
  else if !w.setBootOk then ⟨some false, calls ++ [.otaEnd, .setBootPartition], w.configured⟩
  else ⟨some true, calls ++ [.otaEnd, .setBootPartition], w.updatePartition⟩

/-- `check_ota_update` from the request on. -/
def update : Outcome Partition :=
  if !w.clientOk then ⟨some false, [], w.configured⟩
  else if !w.openOk then ⟨some false, [], w.configured⟩
  else if w.statusCode ≠ 200 then ⟨some false, [], w.configured⟩
  else
    match w.download false w.reads with
    | (.returned result, calls) => ⟨some result, calls, w.configured⟩
    | (.downloading, calls) => ⟨none, calls, w.configured⟩
    | (.broken checked, calls) => w.finish checked calls

/-- The running image is marked valid if that is pending. -/
def marks : List OtaCall := if w.pendingVerify then [.markAppValid] else []

def checkOtaUpdate : Outcome Partition :=
  { w.update with calls := w.marks ++ w.update.calls }

/-! ### What must hold before another image is booted -/

/-- The loop reads these chunks, writes them all, and is left by a `break`. -/
inductive Downloads : List Read → List Bytes → Prop where
  | lost {r : Read} {reads : List Read} (hdata : r.data = some []) (h : r.lost = true) :
      Downloads (r :: reads) []
  | complete {r : Read} {reads : List Read} (hdata : r.data = some []) (hlost : r.lost = false)
      (h : r.complete = true) : Downloads (r :: reads) []
  | wait {r : Read} {reads : List Read} {chunks : List Bytes} (hdata : r.data = some [])
      (hlost : r.lost = false) (hcomplete : r.complete = false) (h : Downloads reads chunks) :
      Downloads (r :: reads) chunks
  | chunk {r : Read} {reads : List Read} {b : UInt8} {data : Bytes} {chunks : List Bytes}
      (hdata : r.data = some (b :: data)) (hok : r.writeOk = true) (h : Downloads reads chunks) :
      Downloads (r :: reads) ((b :: data) :: chunks)

/-- The first chunk has a complete header with another version than the images that
    are there; a handle has been opened, all chunks have been written in order, and
    the image is complete and accepted. -/
structure Justified (calls : List OtaCall) (first : Bytes) (more : List Bytes) : Prop where
  header : headerSize ≤ first.length
  notRunning : newVersion first ≠ w.running.version
  notInvalid : ∀ image ∈ w.lastInvalid, newVersion first ≠ image.version
  begun : w.beginOk = true
  written : Downloads w.reads (first :: more)
  calls : calls = w.marks ++ .otaBegin :: (first :: more).map .otaWrite ++
    [.otaEnd, .setBootPartition]
  complete : w.completeAfter = true
  ended : w.endOk true = true

/-- The boot partition is set only then, and stays as it is otherwise. -/
structure BootSafe : Prop where
  justified : OtaCall.setBootPartition ∈ w.checkOtaUpdate.calls →
    ∃ first more, w.Justified w.checkOtaUpdate.calls first more
  unchanged : OtaCall.setBootPartition ∉ w.checkOtaUpdate.calls →
    w.checkOtaUpdate.configured = w.configured

/-- Everything but the versions speaks for the image. -/
structure Installs (first : Bytes) (more : List Bytes) : Prop where
  clientOk : w.clientOk = true
  openOk : w.openOk = true
  statusCode : w.statusCode = 200
  header : headerSize < first.length
  begun : w.beginOk = true
  written : Downloads w.reads (first :: more)
  complete : w.completeAfter = true
  ended : w.endOk true = true

/-- The version is one that is there, but it cannot be read, and the comparison is
    with something else. -/
def Misread (version : Bytes) : Prop :=
  (version ≠ w.running.seen ∧ ∀ image ∈ w.lastInvalid, image.seen ≠ version) ∧
    (version = w.running.version ∨ ∃ image ∈ w.lastInvalid, version = image.version)

variable {w : Ota Partition}

/-! ### The loop -/

/-- Once the header has been checked, all chunks are written. -/
theorem download_checked {reads : List Read} {chunks : List Bytes} (h : Downloads reads chunks) :
    w.download true reads = (.broken true, chunks.map .otaWrite) := by
  induction h with
  | lost hdata h =>
    rw [download, hdata]
    simp only [h, if_true, List.map_nil]
  | complete hdata hlost h =>
    rw [download, hdata]
    simp [hlost, h]
  | wait hdata hlost hcomplete h ih =>
    rw [download, hdata]
    simp only [hlost, hcomplete, ih]
    rfl
  | chunk hdata hok h ih =>
    rw [download, hdata]
    simp only [hok, ih, if_true]
    rfl

theorem checkHeader_eq_none_iff {data : Bytes} {calls : List OtaCall} :
    w.checkHeader data = (none, calls) ↔
      headerSize < data.length ∧ newVersion data ≠ w.running.seen ∧
        (∀ image ∈ w.lastInvalid, image.seen ≠ newVersion data) ∧ w.beginOk = true ∧
        calls = [.otaBegin] := by
  rw [checkHeader]
  split
  next hlen =>
    split
    next hinvalid =>
      obtain ⟨image, hmem, heq⟩ := hinvalid
      refine iff_of_false (by simp) ?_
      rintro ⟨-, -, hno, -⟩
      exact hno image hmem heq
    next hinvalid =>
      have hno : ∀ image ∈ w.lastInvalid, image.seen ≠ newVersion data :=
        fun image hmem heq => hinvalid ⟨image, hmem, heq⟩
      split
      next hrunning =>
        refine iff_of_false (by simp) ?_
        rintro ⟨-, hne, -⟩
        exact hne hrunning
      next hrunning =>
        split
        next hbegin =>
          constructor
          · intro h
            exact ⟨hlen, hrunning, hno, hbegin, (Prod.ext_iff.mp h).2.symm⟩
          · rintro ⟨-, -, -, -, rfl⟩
            rfl
        next hbegin =>
          refine iff_of_false (by simp) ?_
          rintro ⟨-, -, -, hok, -⟩
          exact hbegin hok
  next hlen =>
    refine iff_of_false (by simp) ?_
    rintro ⟨hok, -⟩
    exact hlen hok

/-- How the loop comes to its `break`: all data has been written, and unless the
    header had been checked before, there was none, or it began with a chunk that
    has passed the checks. -/
theorem download_broken {reads : List Read} {before checked : Bool}
    (h : (w.download before reads).1 = .broken checked) :
    ∃ chunks, Downloads reads chunks ∧
      (before = true ∨ chunks = [] ∧ checked = false ∨
        ∃ first more, chunks = first :: more ∧ w.checkHeader first = (none, [.otaBegin])) := by
  have hstop : before = true ∨ ([] : List Bytes) = [] ∧ before = false ∨
      ∃ first more, ([] : List Bytes) = first :: more ∧
        w.checkHeader first = (none, [.otaBegin]) := by
    cases before with
    | true => exact .inl rfl
    | false => exact .inr (.inl ⟨rfl, rfl⟩)
  induction reads generalizing before with
  | nil => exact absurd h (by simp [download])
  | cons r reads ih =>
    rw [download] at h
    split at h
    next => exact absurd h (by simp)
    next hdata =>
      split at h
      next hlost =>
        obtain rfl := LoopEnd.broken.inj h
        exact ⟨[], .lost hdata hlost, hstop⟩
      next hlost =>
        rw [Bool.not_eq_true] at hlost
        split at h
        next hcomplete =>
          obtain rfl := LoopEnd.broken.inj h
          exact ⟨[], .complete hdata hlost hcomplete, hstop⟩
        next hcomplete =>
          rw [Bool.not_eq_true] at hcomplete
          obtain ⟨chunks, hchunks, hheader⟩ := ih h hstop
          exact ⟨chunks, .wait hdata hlost hcomplete hchunks, hheader⟩
    next b data hdata =>
      split at h
      next => exact absurd h (by simp)
      next calls hcheck =>
        split at h
        next hok =>
          obtain ⟨chunks, hchunks, -⟩ := ih h (.inl rfl)
          refine ⟨_, .chunk hdata hok hchunks, ?_⟩
          cases before with
          | true => exact .inl rfl
          | false =>
            rw [if_neg Bool.false_ne_true] at hcheck
            have hcalls := (checkHeader_eq_none_iff.mp hcheck).2.2.2.2
            exact .inr (.inr ⟨_, chunks, rfl, hcalls ▸ hcheck⟩)
        next => exact absurd h (by simp)

theorem download_unchecked {reads : List Read} {first : Bytes} {more : List Bytes}
    (h : Downloads reads (first :: more)) (hheader : w.checkHeader first = (none, [.otaBegin])) :
    w.download false reads =
      (.broken true, .otaBegin :: (first :: more).map .otaWrite) := by
  generalize hchunks : first :: more = chunks at h
  induction h with
  | lost hdata h => exact absurd hchunks (List.cons_ne_nil _ _)
  | complete hdata hlost h => exact absurd hchunks (List.cons_ne_nil _ _)
  | wait hdata hlost hcomplete h ih =>
    rw [download, hdata]
    simp only [hlost, hcomplete, ih hchunks]
    rfl
  | chunk hdata hok h ih =>
    obtain ⟨rfl, rfl⟩ := List.cons.inj hchunks
    rw [download, hdata]
    simp only [Bool.false_eq_true, if_false, hheader, hok, download_checked h, if_true]
    rfl

/-- The loop does not set the boot partition. -/
theorem setBootPartition_not_mem_download (checked : Bool) (reads : List Read) :
    OtaCall.setBootPartition ∉ (w.download checked reads).2 := by
  have hheader : ∀ data, OtaCall.setBootPartition ∉ (w.checkHeader data).2 := by
    intro data
    rw [checkHeader]
    split_ifs <;> simp
  induction reads generalizing checked with
  | nil => exact List.not_mem_nil
  | cons r reads ih =>
    rw [download]
    split
    · exact List.not_mem_nil
    · split
      · exact List.not_mem_nil
      · split
        · exact List.not_mem_nil
        · exact ih checked
    next b data hdata =>
      have hfirst : ∀ {result : Option Bool} {calls : List OtaCall},
          (if checked then (none, []) else w.checkHeader (b :: data)) = (result, calls) →
          OtaCall.setBootPartition ∉ calls := by
        intro result calls h
        cases checked with
        | true =>
          obtain ⟨-, rfl⟩ := Prod.mk.inj h
          exact List.not_mem_nil
        | false =>
          have hno := hheader (b :: data)
          rw [show w.checkHeader (b :: data) = (result, calls) from h] at hno
          exact hno
      split
      next result calls h => exact hfirst h
      next calls h =>
        have hno := hfirst h
        split
        · have hrest := ih true
          simp [hno, hrest]
        · simp [hno]

/-! ### The function -/

theorem calls_checkOtaUpdate (w : Ota Partition) :
    OtaCall.setBootPartition ∈ w.checkOtaUpdate.calls ↔
      OtaCall.setBootPartition ∈ w.update.calls := by
  have hmarks : OtaCall.setBootPartition ∉ w.marks := by
    rw [marks]
    split <;> simp
  rw [checkOtaUpdate, List.mem_append]
  exact or_iff_right hmarks

/-- What passes the comparisons. -/
def Passes (w : Ota Partition) (version : Bytes) : Prop :=
  version ≠ w.running.seen ∧ ∀ image ∈ w.lastInvalid, image.seen ≠ version

theorem mem_calls_finish {checked : Bool} {calls : List OtaCall}
    (hno : OtaCall.setBootPartition ∉ calls)
    (h : OtaCall.setBootPartition ∈ (w.finish checked calls).calls) :
    w.completeAfter = true ∧ w.endOk checked = true := by
  rw [finish] at h
  split at h
  next =>
    rw [List.mem_append] at h
    exact absurd h (by simp [hno])
  next hcomplete =>
    split at h
    next =>
      rw [List.mem_append] at h
      exact absurd h (by simp [hno])
    next hend =>
      rw [Bool.not_eq_true', Bool.not_eq_false] at hcomplete hend
      exact ⟨hcomplete, hend⟩

theorem configured_finish {checked : Bool} {calls : List OtaCall}
    (h : OtaCall.setBootPartition ∉ (w.finish checked calls).calls) :
    (w.finish checked calls).configured = w.configured := by
  rw [finish] at h ⊢
  split
  next => rfl
  next hcomplete =>
    split
    next => rfl
    next hend =>
      rw [if_neg hcomplete, if_neg hend] at h
      split
      next => rfl
      next hset =>
        rw [if_neg hset] at h
        exact absurd (List.mem_append_right _ (by simp)) h

/-- The function gets as far as the end of the download, or it ends without an image
    to boot. -/
theorem update_cases (w : Ota Partition) :
    (OtaCall.setBootPartition ∉ w.update.calls ∧ w.update.configured = w.configured) ∨
      ∃ checked calls, w.clientOk = true ∧ w.openOk = true ∧ w.statusCode = 200 ∧
        w.download false w.reads = (.broken checked, calls) ∧
        w.update = w.finish checked calls := by
  have hno := setBootPartition_not_mem_download (w := w) false w.reads
  rw [update]
  split
  next => exact .inl ⟨List.not_mem_nil, rfl⟩
  next hclient =>
    split
    next => exact .inl ⟨List.not_mem_nil, rfl⟩
    next hopen =>
      split
      next => exact .inl ⟨List.not_mem_nil, rfl⟩
      next hstatus =>
        split
        next result calls hdownload =>
          rw [hdownload] at hno
          exact .inl ⟨hno, rfl⟩
        next calls hdownload =>
          rw [hdownload] at hno
          exact .inl ⟨hno, rfl⟩
        next checked calls hdownload =>
          rw [Bool.not_eq_true', Bool.not_eq_false] at hclient hopen
          exact .inr ⟨checked, calls, hclient, hopen, not_not.mp hstatus, hdownload, rfl⟩

/-- An image that is installed is one that everything speaks for, except that the
    comparisons are with what is in the variables. -/
theorem installs_of_mem (h : OtaCall.setBootPartition ∈ w.update.calls) :
    ∃ first more, w.Installs first more ∧ w.Passes (newVersion first) := by
  rcases w.update_cases with ⟨hno, _⟩ | ⟨checked, calls, hclient, hopen, hstatus, hdownload, hfinish⟩
  · exact absurd h hno
  · have hno := setBootPartition_not_mem_download (w := w) false w.reads
    rw [hdownload] at hno
    rw [hfinish] at h
    obtain ⟨hcomplete, hend⟩ := mem_calls_finish hno h
    obtain ⟨chunks, hdownloads, hchecked | ⟨-, rfl⟩ | ⟨first, more, rfl, hheader⟩⟩ :=
      download_broken (congrArg Prod.fst hdownload)
    · exact absurd hchecked Bool.false_ne_true
    · exact absurd (hend.symm.trans w.end_closed) (by simp)
    · obtain ⟨hlen, hrunning, hinvalid, hbegin, -⟩ := checkHeader_eq_none_iff.mp hheader
      rw [download_unchecked hdownloads hheader] at hdownload
      obtain rfl := LoopEnd.broken.inj (Prod.mk.inj hdownload).1
      exact ⟨first, more, ⟨hclient, hopen, hstatus, hlen, hbegin, hdownloads, hcomplete, hend⟩,
        hrunning, hinvalid⟩

/-- All of them are installed, and these are the calls for it. -/
theorem calls_of_installs {first : Bytes} {more : List Bytes} (h : w.Installs first more)
    (hpass : w.Passes (newVersion first)) :
    w.update.calls =
      .otaBegin :: (first :: more).map .otaWrite ++ [.otaEnd, .setBootPartition] := by
  have hheader : w.checkHeader first = (none, [.otaBegin]) :=
    checkHeader_eq_none_iff.mpr ⟨h.header, hpass.1, hpass.2, h.begun, rfl⟩
  rw [update, h.clientOk, h.openOk, h.statusCode, download_unchecked h.written hheader]
  simp only [Bool.not_true, Bool.false_eq_true, if_false, ne_eq, not_true, finish, h.complete,
    h.ended]
  split <;> rfl

theorem configured_of_not_mem (h : OtaCall.setBootPartition ∉ w.update.calls) :
    w.update.configured = w.configured := by
  rcases w.update_cases with ⟨_, hsame⟩ | ⟨checked, calls, _, _, _, _, hfinish⟩
  · exact hsame
  · rw [hfinish] at h ⊢
    exact configured_finish h

/-- Misread versions are those that pass, and should not. -/
theorem misread_iff {version : Bytes} :
    w.Misread version ↔ w.Passes version ∧
      ¬ (version ≠ w.running.version ∧ ∀ image ∈ w.lastInvalid, version ≠ image.version) := by
  rw [Misread, Passes]
  apply and_congr_right
  intro _
  rw [not_and_or, not_not]
  simp

theorem not_bootSafe_of_misread {first : Bytes} {more : List Bytes} (h : w.Installs first more)
    (hmisread : w.Misread (newVersion first)) : ¬ w.BootSafe := by
  intro hsafe
  obtain ⟨hpass, hsame⟩ := misread_iff.mp hmisread
  have hcalls := calls_of_installs h hpass
  have hmem : OtaCall.setBootPartition ∈ w.checkOtaUpdate.calls := by
    rw [calls_checkOtaUpdate, hcalls]
    simp
  obtain ⟨first', more', hjustified⟩ := hsafe.justified hmem
  -- the chunks are those that the calls have written
  have heq := hjustified.calls
  rw [checkOtaUpdate, hcalls, List.append_assoc, List.append_cancel_left_eq] at heq
  have hchunks : first = first' := by
    simp only [List.cons_append, List.map_cons, List.cons.injEq, OtaCall.otaWrite.injEq] at heq
    exact heq.2.1
  rw [hchunks] at hsame
  exact hsame ⟨hjustified.notRunning, hjustified.notInvalid⟩

/-- **An update is safe, except for a version that cannot be read and is that of the
    running or of the last invalid image.** -/
theorem bootSafe_iff (w : Ota Partition) :
    w.BootSafe ↔ ¬ ∃ first more, w.Installs first more ∧ w.Misread (newVersion first) := by
  constructor
  · rintro h ⟨first, more, hinstalls, hmisread⟩
    exact not_bootSafe_of_misread hinstalls hmisread h
  · intro hno
    constructor
    · intro hmem
      rw [calls_checkOtaUpdate] at hmem
      obtain ⟨first, more, hinstalls, hpass⟩ := installs_of_mem hmem
      have hversions : newVersion first ≠ w.running.version ∧
          ∀ image ∈ w.lastInvalid, newVersion first ≠ image.version := by
        by_contra hsame
        exact hno ⟨first, more, hinstalls, misread_iff.mpr ⟨hpass, hsame⟩⟩
      refine ⟨first, more, hinstalls.header.le, hversions.1, hversions.2, hinstalls.begun,
        hinstalls.written, ?_, hinstalls.complete, hinstalls.ended⟩
      rw [checkOtaUpdate, calls_of_installs hinstalls hpass, List.append_assoc]
    · intro hmem
      rw [calls_checkOtaUpdate] at hmem
      exact configured_of_not_mem hmem

/-- Nothing goes wrong while the descriptions can be read. -/
theorem not_misread_of_readable (hrunning : w.running.readable = true)
    (hinvalid : ∀ image ∈ w.lastInvalid, image.readable = true) (version : Bytes) :
    ¬ w.Misread version := by
  have hseen : ∀ image : Image, image.readable = true → image.seen = image.version :=
    fun image h => if_pos h
  rintro ⟨⟨hne, hno⟩, hsame⟩
  rcases hsame with hsame | ⟨image, hmem, hsame⟩
  · exact hne (hsame.trans (hseen _ hrunning).symm)
  · exact hno image hmem ((hseen image (hinvalid image hmem)).trans hsame.symm)

/-- An image of the version `1.0`. -/
def sampleImage : Bytes := 233 :: (List.replicate 47 0 ++ str "1.0" ++ List.replicate 300 0)

/-- The description of the running image, of the same version, cannot be read. -/
def unreadable : Ota Bool where
  configured := false
  updatePartition := true
  reads := [{ data := some sampleImage }, { data := some [], complete := true }]
  running :=
    { version := newVersion sampleImage, readable := false, leftover := List.replicate 32 0 }
  endOk := id
  end_closed := rfl

theorem not_bootSafe : ¬ unreadable.BootSafe := by
  have hinstalls : unreadable.Installs sampleImage [] :=
    { clientOk := rfl
      openOk := rfl
      statusCode := rfl
      header := by decide +kernel
      begun := rfl
      written := .chunk rfl rfl (.complete rfl rfl rfl)
      complete := rfl
      ended := rfl }
  refine not_bootSafe_of_misread hinstalls ⟨⟨?_, ?_⟩, .inl rfl⟩
  · decide +kernel
  · intro image hmem
    exact absurd hmem (by simp [unreadable])

end Ota

end Acs.Esp32
