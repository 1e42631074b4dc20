/-
  Acs/Esp32/SpaceStatus.lean
  ==========================
  **The announced status of the space.**

  `open` is entered in `check_thursday` and left in `handle_open`, and both set
  `is_space_open` and, on the main frontend, announce it.  A remote lock or
  unlock leaves `open` as well, and announces nothing.  In a run without such an
  action everything announced is one pair of messages for each time that `open`
  is entered or left.
-/
import Acs.Esp32.Reports

namespace Acs.Esp32

open Acs

namespace Controller

/-! ### The visits and the messages of a run -/

/-- The visits of one iteration: those of the remote action, and those of the
    handler. -/
def remoteVisits (boot : Boot) (c : Controller) (i : Input) : List Visit :=
  if c.running then visit c.state (c.atHandler boot i).state else []

def handlerVisits (boot : Boot) (c : Controller) (i : Input) : List Visit :=
  if c.running then visit (c.atHandler boot i).state (c.iterate boot i).state else []

/-- Every time that `open` is entered or left in a run, in order. -/
def visits (boot : Boot) (inputs : List Input) : List Visit :=
  Runs.emitted (iterate boot) (fun c i => remoteVisits boot c i ++ handlerVisits boot c i)
    (start boot) inputs

@[simp] def Call.isAnnouncement : Call → Bool
  | .slackAnnounceOpen | .slackAnnounceClosed => true
  | _ => false

@[simp] def Call.spacePayload : Call → Option Bytes
  | .setSpaceStatus payload => some payload
  | _ => none

@[simp] def Call.isSpace (call : Call) : Bool :=
  call.isAnnouncement || call.spacePayload.isSome

/-- The payloads sent with `set_mqtt_space_status`. -/
def payloads (boot : Boot) (inputs : List Input) : List Bytes :=
  (called boot inputs).filterMap Call.spacePayload

def announcements (boot : Boot) (inputs : List Input) : List Call :=
  (called boot inputs).filter Call.isAnnouncement

/-! ### The announcements in `Mqtt` -/

def announce (dev : Device) (now : Int) (m : Mqtt) : Call → Mqtt × Option Publication
  | .slackAnnounceOpen => m.slackAnnounceOpen dev now
  | .slackAnnounceClosed => m.slackAnnounceClosed dev now
  | _ => (m, none)

/-- What becomes of announcements that are made one after the other, each with
    the time of day. -/
def posts (dev : Device) : Mqtt → List (Int × Call) → List (Option Publication)
  | _, [] => []
  | m, (now, call) :: rest =>
      (announce dev now m call).2 :: posts dev (announce dev now m call).1 rest

theorem announce_of_ne (dev : Device) (now : Int) {m : Mqtt} {v : Visit}
    (h : m.lastSpaceStatus ≠ v.text) :
    announce dev now m v.announcement =
      ({ m with lastSpaceStatus := v.text }, writeSlack dev now v.text .general) := by
  cases v <;> exact if_neg (Ne.symm h)

theorem Visit.text_injective : Function.Injective Visit.text := by
  intro v v' h
  cases v <;> cases v' <;> first | rfl | exact absurd h (by decide)

/-- **Announcements that alternate are all posted**: none of them is taken for a
    repetition of the last one. -/
theorem posts_of_isChain {dev : Device} {vs : List (Int × Visit)} :
    ∀ {m : Mqtt}, (vs.map Prod.snd).IsChain (· ≠ ·) →
      (∀ v ∈ (vs.map Prod.snd).head?, m.lastSpaceStatus ≠ v.text) →
      posts dev m (vs.map fun p => (p.1, p.2.announcement)) =
        vs.map fun p => writeSlack dev p.1 p.2.text .general := by
  induction vs with
  | nil =>
    intro m _ _
    rfl
  | cons p vs ih =>
    intro m hchain hfirst
    have hnew := announce_of_ne dev p.1 (hfirst p.2 rfl)
    rw [List.map_cons, posts, hnew]
    rw [List.map_cons, List.isChain_cons] at hchain
    rw [List.map_cons, ih hchain.2]
    intro v hv heq
    exact hchain.1 v hv (Visit.text_injective heq)

/-! ### The visits alternate -/

/-- The visits up to a moment at which the state is `s`: `open` is entered first,
    and then left and entered in turn. -/
structure Alternate (s : State) (vs : List Visit) : Prop where
  chain : vs.IsChain (· ≠ ·)
  first : vs.head? ≠ some .left
  last : vs.getLast? = some .entered ↔ s = .open

theorem Alternate.visit {s : State} {vs : List Visit} (h : Alternate s vs) (s' : State) :
    Alternate s' (vs ++ visit s s') := by
  rw [Controller.visit]
  split
  next hentered =>
    obtain ⟨hother, hopen⟩ := hentered
    constructor
    case chain =>
      refine List.isChain_append.mpr ⟨h.chain, List.isChain_singleton _, ?_⟩
      rintro v hv _ ⟨⟩ rfl
      exact hother (h.last.mp hv)
    case first =>
      cases vs with
      | nil => simp
      | cons v vs => exact h.first
    case last => simp [hopen]
  next =>
    split
    next hleft =>
      obtain ⟨hopen, hother⟩ := hleft
      have hlast := h.last.mpr hopen
      constructor
      case chain =>
        refine List.isChain_append.mpr ⟨h.chain, List.isChain_singleton _, ?_⟩
        rintro v hv _ ⟨⟩ rfl
        exact absurd (hlast.symm.trans hv) (by simp)
      case first =>
        cases vs with
        | nil => exact absurd hlast (by simp)
        | cons v vs => exact h.first
      case last => simp [hother]
    next hentered hleft =>
      have hsame : s = .open ↔ s' = .open := by tauto
      rw [List.append_nil]
      exact ⟨h.chain, h.first, h.last.trans hsame⟩

theorem visits_snoc (boot : Boot) (inputs : List Input) (i : Input) :
    visits boot (inputs ++ [i]) = visits boot inputs ++
      (remoteVisits boot (run boot inputs) i ++ handlerVisits boot (run boot inputs) i) := by
  rw [visits, Runs.emitted_append, Runs.emitted_cons, Runs.emitted_nil, List.append_nil]
  rfl

/-- In every run `open` is entered and left in turn. -/
theorem alternate_visits (boot : Boot) (inputs : List Input) :
    Alternate (run boot inputs).state (visits boot inputs) := by
  induction inputs using List.reverseRecOn with
  | nil =>
    have hstate : (run boot []).state = .initial := (start_fields boot).1
    exact ⟨List.isChain_nil, by simp [visits], by simp [visits, hstate]⟩
  | append_singleton inputs i ih =>
    rw [visits_snoc, run_snoc]
    cases hrun : (run boot inputs).running with
    | false =>
      rw [remoteVisits, handlerVisits, hrun, iterate_stopped boot i hrun]
      simpa using ih
    | true =>
      rw [remoteVisits, handlerVisits, if_pos hrun, if_pos hrun, ← List.append_assoc]
      exact (ih.visit _).visit _

/-! ### What is told in a run -/

/-- The visits that handlers make. -/
def handled (boot : Boot) (inputs : List Input) : List Visit :=
  Runs.emitted (iterate boot) (handlerVisits boot) (start boot) inputs

theorem handled_snoc (boot : Boot) (inputs : List Input) (i : Input) :
    handled boot (inputs ++ [i]) =
      handled boot inputs ++ handlerVisits boot (run boot inputs) i := by
  rw [handled, Runs.emitted_append, Runs.emitted_cons, Runs.emitted_nil, List.append_nil]
  rfl

/-- From `c` to `c'` the calls are made, and those about the space are of the
    visits `vs`. -/
structure SpaceTold (vs : List Visit) (calls : List Call) (c c' : Controller) : Prop where
  isMain : c'.isMain = c.isMain
  isSpaceOpen : c'.isSpaceOpen = (vs.getLast?.map (· == .entered)).getD c.isSpaceOpen
  calls : calls.filter Call.isSpace = if c.isMain then vs.flatMap Visit.calls else []

theorem SpaceTold.append {vs vs' : List Visit} {calls calls' : List Call}
    {c c' c'' : Controller} (h : SpaceTold vs calls c c') (h' : SpaceTold vs' calls' c' c'') :
    SpaceTold (vs ++ vs') (calls ++ calls') c c'' where
  isMain := h'.isMain.trans h.isMain
  isSpaceOpen := by
    rw [h'.isSpaceOpen, h.isSpaceOpen, List.getLast?_append]
    cases vs'.getLast? <;> rfl
  calls := by
    rw [List.filter_append, h.calls, h'.calls, h.isMain, List.flatMap_append]
    cases c.isMain <;> rfl

theorem filter_isSpace (calls : List Call) :
    (calls.filter Call.isReport).filter Call.isSpace = calls.filter Call.isSpace := by
  rw [List.filter_filter]
  congr 1
  funext call
  cases call <;> rfl

theorem statusCalls_isSpace (boot : Boot) (c : Controller) (i : Input) :
    (statusCalls boot c i).filter Call.isSpace = [] := by
  rw [statusCalls, setMqttDeviceStatus]
  cases i.printed <;> rfl

/-- Up to the handler nothing is told about the space. -/
theorem spaceTold_atHandler (boot : Boot) (c : Controller) (i : Input) :
    SpaceTold [] (c.atHandler boot i).calls c (c.atHandler boot i) := by
  have hat := atHandler_reports boot c i
  refine ⟨hat.isMain, hat.isSpaceOpen, ?_⟩
  rw [← filter_isSpace, hat.calls]
  split
  · rw [statusCalls_isSpace]
    cases c.isMain <;> rfl
  · cases c.isMain <;> rfl

/-- **An iteration tells of the visit that its handler makes**, and of no other. -/
theorem spaceTold_iterate {boot : Boot} {c : Controller} {gs : List Grant} {i : Input}
    (hclock : AfterEpoch i) (h : TimerInv c gs) :
    SpaceTold (handlerVisits boot c i) (c.iterate boot i).calls c (c.iterate boot i) := by
  have hat := spaceTold_atHandler boot c i
  rcases iterate_cases boot c i with ⟨hstop, hiter⟩ | ⟨hrun, _, hiter, _⟩ | hran
  · have hnone : handlerVisits boot c i = [] := by
      rw [handlerVisits, hstop]
      rfl
    rw [hnone, hiter]
    refine ⟨rfl, rfl, ?_⟩
    cases c.isMain <;> rfl
  · have hnone : handlerVisits boot c i = [] := by
      rw [handlerVisits, if_pos hrun, hiter, visit_self]
    rw [hnone, hiter]
    exact hat
  · have htimeout : (c.atHandler boot i).state = .timedUnlock →
        (c.atHandler boot i).timeout ≠ invalidTimePoint := by
      intro hstate
      obtain ⟨_, _, _, hpos⟩ := (timerInv_atHandler hclock hran.1 h).timeout hstate
      exact hpos.ne'
    have htells := tells_iterate hran
    rw [told_eq_visit _ i htimeout, ← (iterate_spec hran).state] at htells
    rw [handlerVisits, if_pos hran.1]
    refine ⟨htells.isMain.trans hat.isMain, ?_, ?_⟩
    · rw [htells.isSpaceOpen, show (c.atHandler boot i).isSpaceOpen = _ from hat.isSpaceOpen]
      rfl
    · rw [← filter_isSpace, htells.calls, List.filter_append, filter_isSpace, hat.calls,
        hat.isMain]
      cases c.isMain with
      | false => rfl
      | true =>
        rw [if_pos rfl, if_pos rfl, List.flatMap_nil, List.nil_append]
        apply List.filter_eq_self.mpr
        intro call hcall
        obtain ⟨v, _, hv⟩ := List.mem_flatMap.mp hcall
        cases v <;> simp only [Visit.calls, List.mem_cons, List.not_mem_nil, or_false] at hv <;>
          rcases hv with rfl | rfl <;> rfl

theorem start_silent (boot : Boot) :
    (start boot).isSpaceOpen = false ∧ (start boot).calls.filter Call.isSpace = [] := by
  rw [start, setMqttDeviceStatus]
  cases boot.printed <;> exact ⟨rfl, rfl⟩

/-- **A run tells of the visits that handlers make**, and of no other. -/
theorem spaceTold_run (boot : Boot) (inputs : List Input) (hclock : ∀ i ∈ inputs, AfterEpoch i) :
    SpaceTold (handled boot inputs) (called boot inputs) (start boot) (run boot inputs) := by
  induction inputs using List.reverseRecOn with
  | nil =>
    refine ⟨rfl, rfl, ?_⟩
    rw [called, Runs.emitted_nil, List.append_nil, (start_silent boot).2]
    cases (start boot).isMain <;> rfl
  | append_singleton inputs i ih =>
    have hbefore : ∀ j ∈ inputs, AfterEpoch j := by
      intro j hj
      exact hclock j (List.mem_append_left _ hj)
    rw [handled_snoc, called_snoc, run_snoc]
    exact (ih hbefore).append
      (spaceTold_iterate (hclock i (by simp)) (timerInv_run boot inputs hbefore))

theorem filterMap_calls (vs : List Visit) :
    (vs.flatMap Visit.calls).filterMap Call.spacePayload = vs.map Visit.payload := by
  induction vs with
  | nil => rfl
  | cons v vs ih =>
    rw [List.flatMap_cons, List.filterMap_append, ih]
    cases v <;> rfl

theorem filter_calls (vs : List Visit) :
    (vs.flatMap Visit.calls).filter Call.isAnnouncement = vs.map Visit.announcement := by
  induction vs with
  | nil => rfl
  | cons v vs ih =>
    rw [List.flatMap_cons, List.filter_append, ih]
    cases v <;> rfl

theorem called_filter {boot : Boot} {inputs : List Input} (hclock : ∀ i ∈ inputs, AfterEpoch i)
    (hmain : (start boot).isMain = true) :
    (called boot inputs).filter Call.isSpace = (handled boot inputs).flatMap Visit.calls := by
  rw [(spaceTold_run boot inputs hclock).calls, if_pos hmain]

theorem payloads_eq {boot : Boot} {inputs : List Input} (hclock : ∀ i ∈ inputs, AfterEpoch i)
    (hmain : (start boot).isMain = true) :
    payloads boot inputs = (handled boot inputs).map Visit.payload := by
  rw [payloads, ← filterMap_calls, ← called_filter hclock hmain, List.filterMap_filter]
  congr 1
  funext call
  cases call <;> rfl

theorem announcements_eq {boot : Boot} {inputs : List Input}
    (hclock : ∀ i ∈ inputs, AfterEpoch i) (hmain : (start boot).isMain = true) :
    announcements boot inputs = (handled boot inputs).map Visit.announcement := by
  rw [announcements, ← filter_calls, ← called_filter hclock hmain, List.filter_filter]
  congr 1
  funext call
  cases call <;> rfl

/-! ### Without a remote action in `open` -/

/-- A remote lock or unlock is taken while the space is open. -/
def RemoteInOpen (c : Controller) (i : Input) : Prop :=
  c.running = true ∧ c.state = .open ∧ (taken c i = str "lock" ∨ taken c i = str "unlock")

instance decidableRemoteInOpen (c : Controller) (i : Input) : Decidable (RemoteInOpen c i) :=
  inferInstanceAs (Decidable (_ ∧ _ ∧ (_ ∨ _)))

/-- Such an action is the only one that makes a visit. -/
theorem remoteVisits_eq_nil_iff (boot : Boot) (c : Controller) (i : Input) :
    remoteVisits boot c i = [] ↔ ¬ RemoteInOpen c i := by
  have hstate := (atHandler_spec boot c i).state
  rw [remoteVisits, RemoteInOpen]
  cases c.running with
  | false => simp
  | true =>
    rw [if_pos rfl, hstate]
    by_cases hlock : taken c i = str "lock"
    · rw [if_pos hlock]
      cases c.state <;> simp [hlock, visit]
    · rw [if_neg hlock]
      by_cases hunlock : taken c i = str "unlock"
      · rw [if_pos hunlock]
        cases c.state <;> simp [hunlock, visit]
      · rw [if_neg hunlock, visit_self]
        simp [hlock, hunlock]

theorem visits_eq_handled {boot : Boot} {inputs : List Input}
    (hremote : Runs.Along (iterate boot) (fun c i => ¬ RemoteInOpen c i) (start boot) inputs) :
    visits boot inputs = handled boot inputs := by
  apply Runs.emitted_congr
  apply hremote.imp
  intro c i hnone
  rw [(remoteVisits_eq_nil_iff boot c i).mpr hnone]
  exact List.nil_append _

/-- The space is announced as it is: what is told in the run, and what `Mqtt`
    makes of it, fits the state. -/
structure SpaceAnnounced (boot : Boot) (inputs : List Input) : Prop where
  flag : (run boot inputs).isSpaceOpen = true ↔ (run boot inputs).state = .open
  payload : (start boot).isMain = true → visits boot inputs ≠ [] →
    ((payloads boot inputs).getLast? = some spaceOpenJson ↔ (run boot inputs).state = .open)
  alternate : (start boot).isMain = true →
    (announcements boot inputs).IsChain (· ≠ ·) ∧
      (announcements boot inputs).head? ≠ some .slackAnnounceClosed
  announced : (start boot).isMain = true →
    announcements boot inputs = (visits boot inputs).map Visit.announcement
  posted : (start boot).isMain = true → ∀ dev (m : Mqtt) (times : List Int),
    m.lastSpaceStatus = [] → times.length = (announcements boot inputs).length →
    posts dev m (times.zip (announcements boot inputs)) =
      (times.zip (visits boot inputs)).map fun p => writeSlack dev p.1 p.2.text .general

/-- **The announced status of the space matches the controller** in every run
    without a remote lock or unlock in `open`. -/
theorem spaceAnnounced_run (boot : Boot) (inputs : List Input)
    (hclock : ∀ i ∈ inputs, AfterEpoch i)
    (hremote : Runs.Along (iterate boot) (fun c i => ¬ RemoteInOpen c i) (start boot) inputs) :
    SpaceAnnounced boot inputs := by
  have hvisits := visits_eq_handled hremote
  have halternate := alternate_visits boot inputs
  have hannounced : (start boot).isMain = true →
      announcements boot inputs = (visits boot inputs).map Visit.announcement := by
    intro hmain
    rw [announcements_eq hclock hmain, hvisits]
  constructor
  case flag =>
    rw [← halternate.last, (spaceTold_run boot inputs hclock).isSpaceOpen, ← hvisits,
      (start_silent boot).1]
    cases (visits boot inputs).getLast? with
    | none => simp
    | some v => cases v <;> simp
  case payload =>
    intro hmain hvisited
    rw [payloads_eq hclock hmain, ← hvisits, ← halternate.last, List.getLast?_map]
    cases (visits boot inputs).getLast? with
    | none => simp
    | some v => cases v <;> simp [Visit.payload, show spaceClosedJson ≠ spaceOpenJson by decide]
  case alternate =>
    intro hmain
    rw [hannounced hmain, List.isChain_map, List.head?_map]
    refine ⟨?_, ?_⟩
    · apply halternate.chain.imp
      intro v v' hne heq
      cases v <;> cases v' <;> first | exact hne rfl | exact absurd heq (by decide)
    · have hfirst := halternate.first
      cases hhead : (visits boot inputs).head? with
      | none => simp
      | some v =>
        rw [hhead] at hfirst
        cases v <;> simp_all [Visit.announcement]
  case announced => exact hannounced
  case posted =>
    intro hmain dev m times hempty hlength
    rw [hannounced hmain] at hlength ⊢
    rw [List.length_map] at hlength
    have hzip : (times.zip (visits boot inputs)).map Prod.snd = visits boot inputs :=
      List.map_snd_zip (Nat.le_of_eq hlength.symm)
    rw [List.zip_map_right]
    apply posts_of_isChain
    · rw [hzip]
      exact halternate.chain
    · intro v _
      rw [hempty]
      cases v <;> decide

/-- On the main frontend this is the only way for it to go wrong. -/
theorem not_remoteInOpen_of_spaceAnnounced {boot : Boot} {inputs : List Input}
    (hclock : ∀ i ∈ inputs, AfterEpoch i) (hmain : (start boot).isMain = true)
    (h : SpaceAnnounced boot inputs) :
    Runs.Along (iterate boot) (fun c i => ¬ RemoteInOpen c i) (start boot) inputs := by
  have hlength : (visits boot inputs).length ≤ (handled boot inputs).length := by
    have hannounced := (h.announced hmain).symm.trans (announcements_eq hclock hmain)
    have hlength := congrArg List.length hannounced
    rw [List.length_map, List.length_map] at hlength
    exact Nat.le_of_eq hlength
  apply (Runs.along_of_length_le (iterate boot) (remoteVisits boot) _ hlength).imp
  intro c i hnone
  exact (remoteVisits_eq_nil_iff boot c i).mp hnone

def mainBoot : Boot := { sampleBoot with isMainSet := true }

/-- White is pressed while the backend allows the space to be open. -/
def openedSpace : List Input :=
  [sampleInput 101 {}, { sampleInput 102 { white := true } with allowOpen := true },
    { sampleInput 103 {} with allowOpen := true }]

theorem afterEpoch_openedSpace : ∀ i ∈ openedSpace, AfterEpoch i := by
  intro i hi
  simp only [openedSpace, List.mem_cons, List.not_mem_nil, or_false] at hi
  rcases hi with rfl | rfl | rfl <;> exact ⟨by decide, by decide⟩

theorem spaceAnnounced_run_sample :
    (run mainBoot openedSpace).state = .open ∧
      (payloads mainBoot openedSpace).getLast? = some spaceOpenJson := by
  have hannounced := spaceAnnounced_run mainBoot openedSpace afterEpoch_openedSpace (by decide)
  have hopen : (run mainBoot openedSpace).state = .open := by decide
  refine ⟨hopen, (hannounced.payload (by decide) ?_).mpr hopen⟩
  decide

/-- The remote lock comes while the space is open. -/
def lockedSpace : List Input :=
  openedSpace ++ [{ sampleInput 104 {} with allowOpen := true, action := (str "lock", []) }]

theorem not_spaceAnnounced :
    ¬ ∀ boot inputs, (∀ i ∈ inputs, AfterEpoch i) → SpaceAnnounced boot inputs := by
  intro h
  have hclock : ∀ i ∈ lockedSpace, AfterEpoch i := by
    intro i hi
    rcases List.mem_append.mp hi with hi | hi
    · exact afterEpoch_openedSpace i hi
    · rw [List.mem_singleton.mp hi]
      exact ⟨by decide, by decide⟩
  have hflag := (h mainBoot lockedSpace hclock).flag
  exact absurd (hflag.mp (by decide)) (by decide)

end Controller

end Acs.Esp32
