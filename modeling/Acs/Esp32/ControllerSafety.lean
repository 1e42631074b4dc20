/-
  Acs/Esp32/ControllerSafety.lean
  ===============================
  **When the door is unlocked.**

  First what each part of an iteration does to the five members that decide
  about the door (`state`, `is_locked`, `timeout`, `timeout_dur`, and whether
  there has been a restart) and to the relay.  Then the two invariants: a timed
  unlock always has the timeout of the grant that was given last, and the door
  is marked unlocked only after an iteration that unlocks it.  The results on
  the relay follow.
-/
import Acs.Esp32.Controller

namespace Acs.Esp32

open Acs

namespace Controller

/-- The relay is switched on during the iteration. -/
def Energised (c : Controller) : Prop := Call.setRelay true ∈ c.calls

section Emit

variable (c : Controller) (call : Call)

@[simp] theorem emit_state : (c.emit call).state = c.state := rfl
@[simp] theorem emit_isLocked : (c.emit call).isLocked = c.isLocked := rfl
@[simp] theorem emit_timeout : (c.emit call).timeout = c.timeout := rfl
@[simp] theorem emit_timeoutDur : (c.emit call).timeoutDur = c.timeoutDur := rfl
@[simp] theorem emit_running : (c.emit call).running = c.running := rfl
@[simp] theorem emit_keys : (c.emit call).keys = c.keys := rfl
@[simp] theorem emit_cardId : (c.emit call).cardId = c.cardId := rfl
@[simp] theorem emit_calls : (c.emit call).calls = c.calls ++ [call] := rfl

end Emit

/-! ### Parts that leave the door alone -/

/-- The members that decide about the door are the same, and the relay is not
    switched on in between. -/
structure SameDoor (c c' : Controller) : Prop where
  state : c'.state = c.state
  isLocked : c'.isLocked = c.isLocked
  timeout : c'.timeout = c.timeout
  timeoutDur : c'.timeoutDur = c.timeoutDur
  running : c'.running = c.running
  keys : c'.keys = c.keys
  cardId : c'.cardId = c.cardId
  energised : Energised c' ↔ Energised c

namespace SameDoor

/-- The members that are the same. -/
def members (c : Controller) : State × Bool × Int × Int × Bool × Keys × CardId :=
  (c.state, c.isLocked, c.timeout, c.timeoutDur, c.running, c.keys, c.cardId)

theorem of_members {c c' : Controller} (henergised : Energised c' ↔ Energised c)
    (hmembers : members c' = members c) : SameDoor c c' := by
  simp only [members, Prod.mk.injEq] at hmembers
  obtain ⟨hstate, hlocked, htimeout, hdur, hrunning, hkeys, hcard⟩ := hmembers
  exact ⟨hstate, hlocked, htimeout, hdur, hrunning, hkeys, hcard, henergised⟩

theorem refl (c : Controller) : SameDoor c c := .of_members Iff.rfl rfl

theorem trans {c c' c'' : Controller} (h : SameDoor c c') (h' : SameDoor c' c'') :
    SameDoor c c'' where
  state := h'.state.trans h.state
  isLocked := h'.isLocked.trans h.isLocked
  timeout := h'.timeout.trans h.timeout
  timeoutDur := h'.timeoutDur.trans h.timeoutDur
  running := h'.running.trans h.running
  keys := h'.keys.trans h.keys
  cardId := h'.cardId.trans h.cardId
  energised := h'.energised.trans h.energised

theorem emit {c c' : Controller} (h : SameDoor c c') {call : Call}
    (hcall : call ≠ .setRelay true) : SameDoor c (c'.emit call) where
  state := h.state
  isLocked := h.isLocked
  timeout := h.timeout
  timeoutDur := h.timeoutDur
  running := h.running
  keys := h.keys
  cardId := h.cardId
  energised := by
    have hmem : Energised (c'.emit call) ↔ Energised c' := by
      simp [Energised, Ne.symm hcall]
    exact hmem.trans h.energised

end SameDoor

theorem sameDoor_checkCard_false (c : Controller) (i : Input) :
    SameDoor c (c.checkCard i false) := by
  rw [checkCard]
  cases i.access.access with
  | allowed => exact .refl c
  | forbidden =>
    dsimp only
    exact .emit (.emit (.emit (.refl c) (by simp)) (by simp)) (by simp)
  | unknown =>
    dsimp only
    exact .emit (.emit (.emit (.refl c) (by simp)) (by simp)) (by simp)
  | error =>
    dsimp only
    exact .emit (.refl c) (by simp)

theorem sameDoor_showTimeLeft (c : Controller) (i : Input) : SameDoor c (c.showTimeLeft i) := by
  rw [showTimeLeft]
  dsimp only
  split
  · split
    · split
      · exact .emit (.emit (.refl c) (by simp)) (by simp)
      · exact .emit (.refl c) (by simp)
    · exact .emit (.refl c) (by simp)
  · exact .refl c

theorem sameDoor_noteChange (c : Controller) : SameDoor c c.noteChange := by
  rw [noteChange]
  split
  · dsimp only
    exact .of_members (by simp [Energised]) rfl
  · exact .refl c

theorem sameDoor_setMqttDeviceStatus (boot : Boot) (c : Controller) (timestamp heartbeat : Bytes)
    (printed : Bool) : SameDoor c (setMqttDeviceStatus boot c timestamp heartbeat printed) := by
  rw [setMqttDeviceStatus]
  split
  · exact .emit (.refl c) (by simp)
  · exact .refl c

/-! ### The handlers -/

/-- White on a Thursday is all that `check_thursday` opens the space for. -/
theorem checkThursday_spec (c : Controller) (i : Input) :
    SameDoor { c with state := if isItThursday i then .open else c.state }
      (c.checkThursday i) := by
  rw [checkThursday]
  cases isItThursday i with
  | false => exact .emit (.refl c) (by simp)
  | true => cases c.isMain <;> exact .of_members (by simp [Energised]) rfl

/-- The period that `handle_locked` grants in this iteration, if any: for Green,
    for an allowed card, or for Leave, in this order, and none with White. -/
def lockedGrant (c : Controller) (i : Input) : Option Int :=
  if c.keys.white then none
  else if c.keys.green then some unlockPeriod
  else if c.cardId ≠ 0 then if i.access.access = .allowed then some enterTime else none
  else if c.keys.leave then some leaveTime
  else none

/-- The grant is for an allowed card or for Leave: the door is unlocked at once. -/
def opensDoor (c : Controller) (i : Input) : Bool :=
  !c.keys.white && !c.keys.green &&
    (if c.cardId ≠ 0 then i.access.access = .allowed else c.keys.leave)

/-- What `handle_locked` does. -/
structure LockedSpec (c : Controller) (i : Input) (c' : Controller) : Prop where
  state : c'.state = if (lockedGrant c i).isSome then .timedUnlock
    else if c.keys.white && isItThursday i then .open else c.state
  isLocked : c'.isLocked = !opensDoor c i
  timeout : c'.timeout = c.timeout
  timeoutDur : c'.timeoutDur = (lockedGrant c i).getD c.timeoutDur
  running : c'.running = c.running
  energised : Energised c' ↔ Energised c ∨ opensDoor c i = true

theorem handleLocked_spec (c : Controller) (i : Input) : LockedSpec c i (c.handleLocked i) := by
  rw [handleLocked]
  dsimp only
  cases hwhite : c.keys.white with
  | true =>
    simp only [emit_keys, hwhite, if_true]
    constructor
    · exact (checkThursday_spec _ i).state.trans (by simp [lockedGrant, hwhite])
    · exact (checkThursday_spec _ i).isLocked.trans (by simp [opensDoor, hwhite])
    · exact (checkThursday_spec _ i).timeout
    · exact (checkThursday_spec _ i).timeoutDur.trans (by simp [lockedGrant, hwhite])
    · exact (checkThursday_spec _ i).running
    · exact (checkThursday_spec _ i).energised.trans (by simp [opensDoor, hwhite, Energised])
  | false =>
    cases hgreen : c.keys.green with
    | true => constructor <;> simp [lockedGrant, opensDoor, hwhite, hgreen, Energised]
    | false =>
      by_cases hcard : c.cardId = 0
      · cases hleave : c.keys.leave <;> constructor <;>
          simp [lockedGrant, opensDoor, hwhite, hgreen, hcard, hleave, Energised]
      · cases haccess : i.access.access <;> constructor <;>
          simp [lockedGrant, opensDoor, hwhite, hgreen, hcard, haccess, checkCard, Energised]

/-- `handle_open` unlocks, and stays as long as it is Thursday and Red is not
    pressed. -/
structure OpenSpec (c : Controller) (i : Input) (c' : Controller) : Prop where
  state : c'.state = if isItThursday i && !c.keys.red then c.state else .locked
  isLocked : c'.isLocked = false
  timeout : c'.timeout = c.timeout
  timeoutDur : c'.timeoutDur = c.timeoutDur
  running : c'.running = c.running
  energised : Energised c' ↔ Energised c

theorem sameDoor_announceClosed (c : Controller) : SameDoor c c.announceClosed := by
  rw [announceClosed]
  cases c.isMain <;> exact .of_members (by simp [Energised]) rfl

theorem endOpenPeriod_spec (c : Controller) (i : Input) :
    SameDoor { c with state := if isItThursday i && !c.keys.red then c.state else .locked }
      (c.endOpenPeriod i) := by
  rw [endOpenPeriod]
  cases isItThursday i with
  | false =>
    simp only [Bool.not_false, if_true, Bool.false_and, Bool.false_eq_true, if_false]
    refine .trans ?_ (sameDoor_announceClosed _)
    exact .of_members (by simp [Energised]) rfl
  | true =>
    have hclosed := sameDoor_announceClosed c
    cases c.keys.red with
    | false => exact .refl c
    | true => exact ⟨rfl, hclosed.isLocked, hclosed.timeout, hclosed.timeoutDur, hclosed.running,
        hclosed.keys, hclosed.cardId, hclosed.energised⟩

theorem handleOpen_spec (c : Controller) (i : Input) : OpenSpec c i (c.handleOpen i) := by
  have hend := endOpenPeriod_spec
    ({ c with isLocked := false }.emit (.setStatus (str "Open") .green (some ([], .red)))) i
  have hspec : OpenSpec c i (endOpenPeriod _ i) :=
    ⟨hend.state, hend.isLocked, hend.timeout, hend.timeoutDur, hend.running,
      hend.energised.trans (by simp [Energised])⟩
  unfold handleOpen
  dsimp only
  split
  · have hcard := sameDoor_checkCard_false (endOpenPeriod
      ({ c with isLocked := false }.emit (.setStatus (str "Open") .green (some ([], .red)))) i) i
    exact ⟨hcard.state.trans hspec.state, hcard.isLocked.trans hspec.isLocked,
      hcard.timeout.trans hspec.timeout, hcard.timeoutDur.trans hspec.timeoutDur,
      hcard.running.trans hspec.running, hcard.energised.trans hspec.energised⟩
  · exact hspec

/-- What `handle_timed_unlock` does; without a timeout it always locks. -/
structure TimedUnlockSpec (c : Controller) (i : Input) (c' : Controller) : Prop where
  state : c'.state = if unlockEnds c i || c.timeout = invalidTimePoint then .locked
    else if c.keys.white && isItThursday i then .open else c.state
  isLocked : c'.isLocked = false
  timeout : c'.timeout = if unlockEnds c i then invalidTimePoint else c.timeout
  timeoutDur : c'.timeoutDur = c.timeoutDur
  running : c'.running = c.running
  energised : Energised c' ↔ Energised c

theorem stayUnlocked_spec (c : Controller) (i : Input) :
    SameDoor { c with state := if c.keys.white && isItThursday i then .open else c.state }
      (c.stayUnlocked i) := by
  rw [stayUnlocked]
  cases c.keys.white with
  | true => exact checkThursday_spec c i
  | false =>
    simp only [Bool.false_eq_true, if_false, Bool.false_and]
    split
    · exact sameDoor_showTimeLeft c i
    · exact .refl c

theorem handleTimedUnlock_spec (c : Controller) (i : Input) :
    TimedUnlockSpec c i (c.handleTimedUnlock i) := by
  have hstay := stayUnlocked_spec { c with isLocked := false } i
  have hends : unlockEnds { c with isLocked := false } i = unlockEnds c i := rfl
  rw [handleTimedUnlock]
  dsimp only
  rw [hends]
  cases hends' : unlockEnds c i with
  | true => constructor <;> simp [hends', Energised]
  | false =>
    simp only [Bool.false_eq_true, if_false]
    split
    next hinvalid =>
      have hinvalid : c.timeout = invalidTimePoint := hstay.timeout.symm.trans hinvalid
      exact ⟨by simp [hinvalid], hstay.isLocked, hstay.timeout.trans (by simp [hends']),
        hstay.timeoutDur, hstay.running, hstay.energised⟩
    next hvalid =>
      have hvalid : c.timeout ≠ invalidTimePoint := by
        intro h
        exact hvalid (hstay.timeout.trans h)
      exact ⟨hstay.state.trans (by simp [hends', hvalid]), hstay.isLocked,
        hstay.timeout.trans (by simp [hends']), hstay.timeoutDur, hstay.running,
        hstay.energised⟩

/-! ### The handler that is called -/

section Handle

variable {c : Controller} (i : Input)

theorem handle_initial (h : c.state = .initial) : c.handle i = c.handleInitial := by
  rw [handle, h]

theorem handle_locked (h : c.state = .locked) : c.handle i = c.handleLocked i := by
  rw [handle, h]

theorem handle_open (h : c.state = .open) : c.handle i = c.handleOpen i := by
  rw [handle, h]

theorem handle_timedUnlock (h : c.state = .timedUnlock) :
    c.handle i = c.handleTimedUnlock i := by
  rw [handle, h]

end Handle

/-! ### Remote actions -/

/-- What taking a remote action does; an empty one stands for none. -/
structure ActionSpec (action : Bytes) (i : Input) (c c' : Controller) : Prop where
  state : c'.state = if action = str "lock" then .locked
    else if action = str "unlock" then .timedUnlock else c.state
  isLocked : c'.isLocked = if action = str "lock" then true
    else if action = str "unlock" then false else c.isLocked
  timeout : c'.timeout = if action = str "unlock" then i.actionTime + gwUnlockPeriod else c.timeout
  timeoutDur : c'.timeoutDur = c.timeoutDur
  running : c'.running = if action = str "reboot" then false else c.running
  keys : c'.keys = c.keys
  cardId : c'.cardId = c.cardId
  energised : Energised c' ↔ Energised c

theorem ActionSpec.none {i : Input} {c c' : Controller} (h : SameDoor c c') :
    ActionSpec [] i c c' where
  state := h.state
  isLocked := h.isLocked
  timeout := h.timeout
  timeoutDur := h.timeoutDur
  running := h.running
  keys := h.keys
  cardId := h.cardId
  energised := h.energised

theorem ActionSpec.trans {action : Bytes} {i : Input} {c c' c'' : Controller}
    (h : ActionSpec action i c c') (h' : SameDoor c' c'') : ActionSpec action i c c'' where
  state := h'.state.trans h.state
  isLocked := h'.isLocked.trans h.isLocked
  timeout := h'.timeout.trans h.timeout
  timeoutDur := h'.timeoutDur.trans h.timeoutDur
  running := h'.running.trans h.running
  keys := h'.keys.trans h.keys
  cardId := h'.cardId.trans h.cardId
  energised := h'.energised.trans h.energised

theorem SameDoor.action {action : Bytes} {i : Input} {c c' c'' : Controller}
    (h : SameDoor c c') (h' : ActionSpec action i c' c'') : ActionSpec action i c c'' where
  state := by rw [h'.state, h.state]
  isLocked := by rw [h'.isLocked, h.isLocked]
  timeout := by rw [h'.timeout, h.timeout]
  timeoutDur := h'.timeoutDur.trans h.timeoutDur
  running := by rw [h'.running, h.running]
  keys := h'.keys.trans h.keys
  cardId := h'.cardId.trans h.cardId
  energised := h'.energised.trans h.energised

theorem checkAction_spec (c : Controller) (i : Input) :
    ActionSpec i.action.1 i c (c.checkAction i) := by
  rw [checkAction]
  obtain ⟨action, arg⟩ := i.action
  dsimp only
  by_cases hnil : action = []
  · rw [if_pos hnil, hnil]
    exact .none (.refl c)
  rw [if_neg hnil]
  have hlu : str "lock" ≠ str "unlock" := by decide
  have hlr : str "lock" ≠ str "reboot" := by decide
  have hur : str "unlock" ≠ str "reboot" := by decide
  by_cases hlock : action = str "lock"
  · rw [if_pos hlock]
    split <;> constructor <;> simp [hlock, hlu, hlr, Energised]
  rw [if_neg hlock]
  by_cases hunlock : action = str "unlock"
  · rw [if_pos hunlock]
    constructor <;> simp [hunlock, hlu.symm, hur, Energised]
  rw [if_neg hunlock]
  by_cases hreboot : action = str "reboot"
  · rw [if_pos hreboot]
    constructor <;> simp [hreboot, hlr.symm, hur.symm, Energised]
  rw [if_neg hreboot]
  split <;> constructor <;> simp [hlock, hunlock, hreboot, Energised]

/-- The action that an iteration takes from `Mqtt`, empty when it does not ask. -/
def taken (c : Controller) (i : Input) : Bytes :=
  if (c.readInputs i).gatewayUpdateNeeded i then i.action.1 else []

theorem gatewayUpdate_spec (boot : Boot) (c : Controller) (i : Input) :
    ActionSpec (if c.gatewayUpdateNeeded i then i.action.1 else []) i c
      (c.gatewayUpdate boot i) := by
  rw [gatewayUpdate]
  dsimp only
  cases c.gatewayUpdateNeeded i with
  | false => exact .none (sameDoor_noteChange c)
  | true =>
    have haction := (sameDoor_noteChange c).action (checkAction_spec c.noteChange i)
    simp only [if_true]
    split
    next hrunning =>
      refine haction.trans (.trans (sameDoor_setMqttDeviceStatus boot _ i.timestamp i.heartbeat
        i.printed) ?_)
      cases i.rssi <;> exact .of_members (by simp [Energised]) rfl
    next => exact haction

/-! ### One iteration -/

/-- The controller when the handler is called, in an iteration from `c`. -/
structure AtHandlerSpec (c : Controller) (i : Input) (h : Controller) : Prop where
  state : h.state = if taken c i = str "lock" then .locked
    else if taken c i = str "unlock" then .timedUnlock else c.state
  isLocked : h.isLocked = if taken c i = str "lock" then true
    else if taken c i = str "unlock" then false else c.isLocked
  timeout : h.timeout = if taken c i = str "unlock" then i.actionTime + gwUnlockPeriod
    else c.timeout
  timeoutDur : h.timeoutDur = c.timeoutDur
  running : h.running = if taken c i = str "reboot" then false else c.running
  keys : h.keys = i.keys
  cardId : h.cardId = i.cardId
  energised : Energised h ↔ c.isLocked = false

theorem atHandler_spec (boot : Boot) (c : Controller) (i : Input) :
    AtHandlerSpec c i (c.atHandler boot i) := by
  have hread : SameDoor
      { c with calls := [.displayUpdate, .setRelay (!c.isLocked)], keys := i.keys,
               cardId := i.cardId }
      (c.readInputs i) := by
    rw [readInputs]
    dsimp only
    split <;> exact .of_members (by simp [Energised]) rfl
  have haction := hread.action (gatewayUpdate_spec boot (c.readInputs i) i)
  exact ⟨haction.state, haction.isLocked, haction.timeout, haction.timeoutDur, haction.running,
    haction.keys, haction.cardId, haction.energised.trans (by simp [Energised])⟩

theorem sameDoor_setTimeout (c : Controller) (i : Input) :
    SameDoor { c with
      timeout := if c.timeoutDur = invalidDuration then c.timeout
        else i.currentTime + c.timeoutDur
      timeoutDur := invalidDuration } (c.setTimeout i) := by
  rw [setTimeout]
  by_cases hdur : c.timeoutDur = invalidDuration
  · rw [if_neg (not_not.mpr hdur)]
    exact ⟨rfl, rfl, by simp [hdur], hdur, rfl, rfl, rfl, Iff.rfl⟩
  · rw [if_pos hdur]
    exact ⟨rfl, rfl, by simp [hdur], rfl, rfl, rfl, rfl, by simp [Energised]⟩

/-- After a reboot at most `running` is different. -/
theorem scheduledReboot_spec (boot : Boot) (c : Controller) (i : Input) :
    SameDoor { c with running := (c.scheduledReboot boot i).running }
      (c.scheduledReboot boot i) := by
  rw [scheduledReboot]
  split
  · dsimp only
    apply SameDoor.of_members
    · simp [Energised]
    · simp [SameDoor.members]
  · exact .refl c

/-- The handler of state `s` is called in the iteration. -/
def HandlerRan (boot : Boot) (c : Controller) (i : Input) (s : State) : Prop :=
  c.running = true ∧ (c.atHandler boot i).running = true ∧ (c.atHandler boot i).state = s

instance decidableHandlerRan (boot : Boot) (c : Controller) (i : Input) (s : State) :
    Decidable (HandlerRan boot c i s) := by
  rw [HandlerRan]
  infer_instance

/-- `handle_locked` unlocks the door in this iteration, for an allowed card or
    for Leave. -/
def OpenedAtLocked (boot : Boot) (c : Controller) (i : Input) : Prop :=
  HandlerRan boot c i .locked ∧ opensDoor (c.atHandler boot i) i = true

/-- An iteration whose handler has run, in terms of what the handler did. -/
structure IterateSpec (boot : Boot) (c : Controller) (i : Input) : Prop where
  state : (c.iterate boot i).state = ((c.atHandler boot i).handle i).state
  isLocked : (c.iterate boot i).isLocked = ((c.atHandler boot i).handle i).isLocked
  timeout : (c.iterate boot i).timeout =
    if ((c.atHandler boot i).handle i).timeoutDur = invalidDuration
    then ((c.atHandler boot i).handle i).timeout
    else i.currentTime + ((c.atHandler boot i).handle i).timeoutDur
  timeoutDur : (c.iterate boot i).timeoutDur = invalidDuration
  energised : Energised (c.iterate boot i) ↔ Energised ((c.atHandler boot i).handle i)

theorem iterate_stopped (boot : Boot) {c : Controller} (i : Input) (h : c.running = false) :
    c.iterate boot i = { c with calls := [] } := by
  rw [iterate, h]
  rfl

theorem iterate_restarted {boot : Boot} {c : Controller} {i : Input} (hrun : c.running = true)
    (h : (c.atHandler boot i).running = false) : c.iterate boot i = c.atHandler boot i := by
  rw [iterate, if_pos hrun]
  apply if_neg
  rw [h]
  exact Bool.false_ne_true

theorem iterate_handled {boot : Boot} {c : Controller} {i : Input} (hrun : c.running = true)
    (h : (c.atHandler boot i).running = true) :
    c.iterate boot i =
      ((((c.atHandler boot i).handle i).setTimeout i).scheduledReboot boot i) := by
  rw [iterate, if_pos hrun]
  exact if_pos h

theorem iterate_spec {boot : Boot} {c : Controller} {i : Input} {s : State}
    (h : HandlerRan boot c i s) : IterateSpec boot c i := by
  have hiter := iterate_handled h.1 h.2.1
  have htimeout := sameDoor_setTimeout ((c.atHandler boot i).handle i) i
  have hreboot := scheduledReboot_spec boot (((c.atHandler boot i).handle i).setTimeout i) i
  constructor <;> rw [hiter]
  · exact hreboot.state.trans htimeout.state
  · exact hreboot.isLocked.trans htimeout.isLocked
  · exact hreboot.timeout.trans htimeout.timeout
  · exact hreboot.timeoutDur.trans htimeout.timeoutDur
  · exact hreboot.energised.trans htimeout.energised

/-- Either there is no iteration any more, or the action is a reboot, or the
    handler of some state runs. -/
theorem iterate_cases (boot : Boot) (c : Controller) (i : Input) :
    (c.running = false ∧ c.iterate boot i = { c with calls := [] }) ∨
    (c.running = true ∧ taken c i = str "reboot" ∧ c.iterate boot i = c.atHandler boot i ∧
      (c.iterate boot i).running = false) ∨
    HandlerRan boot c i (c.atHandler boot i).state := by
  have hspec := atHandler_spec boot c i
  rcases Bool.eq_false_or_eq_true c.running with hrun | hrun
  · right
    rcases Bool.eq_false_or_eq_true (c.atHandler boot i).running with hran | hran
    · exact Or.inr ⟨hrun, hran, rfl⟩
    · left
      have hiter := iterate_restarted hrun hran
      have htaken := hspec.running
      rw [hran, hrun] at htaken
      refine ⟨hrun, ?_, hiter, ?_⟩
      · by_contra hother
        rw [if_neg hother] at htaken
        exact absurd htaken Bool.false_ne_true
      · rw [hiter]
        exact hran
  · exact Or.inl ⟨hrun, iterate_stopped boot i hrun⟩

/-- A controller that still runs has come through a handler. -/
theorem handlerRan_of_running {boot : Boot} {c : Controller} {i : Input}
    (hrunning : (c.iterate boot i).running = true) :
    HandlerRan boot c i (c.atHandler boot i).state := by
  rcases iterate_cases boot c i with ⟨hstop, hiter⟩ | ⟨_, _, _, hstop⟩ | hran
  · rw [hiter] at hrunning
    exact absurd hrunning (by simp [hstop])
  · exact absurd hrunning (by simp [hstop])
  · exact hran

/-! ### The timeout of a timed unlock -/

/-- A grant: when it was given, and for how long. -/
structure Grant where
  time : Int
  period : Int
deriving DecidableEq

/-- The grant of a remote unlock. -/
def remoteGrants (c : Controller) (i : Input) : List Grant :=
  if c.running = true ∧ taken c i = str "unlock" then [⟨i.actionTime, gwUnlockPeriod⟩] else []

/-- The grant of `handle_locked`. -/
def handlerGrants (boot : Boot) (c : Controller) (i : Input) : List Grant :=
  if HandlerRan boot c i .locked then
    (lockedGrant (c.atHandler boot i) i).toList.map fun period => ⟨i.currentTime, period⟩
  else []

/-- The grants of one iteration, in order. -/
def grants (boot : Boot) (c : Controller) (i : Input) : List Grant :=
  remoteGrants c i ++ handlerGrants boot c i

/-- The grants of a run, in order. -/
def granted (boot : Boot) (inputs : List Input) : List Grant :=
  Runs.emitted (iterate boot) (grants boot) (start boot) inputs

/-- No timeout is pending, and a timed unlock has the timeout of the last of the
    grants. -/
structure TimerInv (c : Controller) (gs : List Grant) : Prop where
  timeoutDur : c.timeoutDur = invalidDuration
  timeout : c.state = .timedUnlock →
    ∃ g, gs.getLast? = some g ∧ c.timeout = g.time + g.period ∧ 0 < c.timeout

/-- The clock readings of the iteration are later than the epoch. -/
def AfterEpoch (i : Input) : Prop := 0 < i.currentTime ∧ 0 < i.actionTime

theorem timerInv_atHandler {boot : Boot} {c : Controller} {gs : List Grant} {i : Input}
    (hclock : AfterEpoch i) (hrun : c.running = true) (h : TimerInv c gs) :
    TimerInv (c.atHandler boot i) (gs ++ remoteGrants c i) := by
  have hspec := atHandler_spec boot c i
  refine ⟨hspec.timeoutDur.trans h.timeoutDur, ?_⟩
  intro hstate
  by_cases hunlock : taken c i = str "unlock"
  · have htimeout : (c.atHandler boot i).timeout = i.actionTime + gwUnlockPeriod := by
      rw [hspec.timeout, if_pos hunlock]
    have hpos : 0 < i.actionTime + gwUnlockPeriod :=
      add_pos hclock.2 (by decide)
    rw [remoteGrants, if_pos ⟨hrun, hunlock⟩, List.getLast?_concat]
    exact ⟨_, rfl, htimeout, htimeout ▸ hpos⟩
  · have hlock : taken c i ≠ str "lock" := by
      intro hlock
      rw [hspec.state, if_pos hlock] at hstate
      exact absurd hstate (by decide)
    rw [hspec.state, if_neg hlock, if_neg hunlock] at hstate
    have hnone : remoteGrants c i = [] := by
      apply if_neg
      rintro ⟨_, htaken⟩
      exact hunlock htaken
    rw [hnone, List.append_nil, hspec.timeout, if_neg hunlock]
    exact h.timeout hstate

theorem lockedGrant_pos {c : Controller} {i : Input} {period : Int}
    (h : lockedGrant c i = some period) : 0 < period := by
  rw [lockedGrant] at h
  split at h
  · exact absurd h (by simp)
  · split at h
    · exact (Option.some.inj h) ▸ (by decide : 0 < unlockPeriod)
    · split at h
      · split at h
        · exact (Option.some.inj h) ▸ (by decide : 0 < enterTime)
        · exact absurd h (by simp)
      · split at h
        · exact (Option.some.inj h) ▸ (by decide : 0 < leaveTime)
        · exact absurd h (by simp)

theorem timerInv_handler {boot : Boot} {c : Controller} {gs : List Grant} {i : Input} {s : State}
    (hclock : AfterEpoch i) (hran : HandlerRan boot c i s)
    (h : TimerInv (c.atHandler boot i) gs) :
    TimerInv (c.iterate boot i) (gs ++ handlerGrants boot c i) := by
  have hiter := iterate_spec hran
  refine ⟨hiter.timeoutDur, ?_⟩
  rw [hiter.state, hiter.timeout]
  intro hstate
  -- only two handlers end in `timed_unlock`: one that grants, and one that stays there
  obtain ⟨hrun, hran', rfl⟩ := hran
  cases hat : (c.atHandler boot i).state with
  | initial =>
    rw [handle_initial i hat] at hstate
    exact absurd hstate (by simp [handleInitial])
  | «open» =>
    rw [handle_open i hat, (handleOpen_spec _ i).state, hat] at hstate
    split at hstate <;> exact absurd hstate (by decide)
  | locked =>
    rw [handle_locked i hat] at hstate ⊢
    have hlocked := handleLocked_spec (c.atHandler boot i) i
    rw [hlocked.state, hat] at hstate
    cases hgrant : lockedGrant (c.atHandler boot i) i with
    | none =>
      rw [hgrant] at hstate
      simp only [Option.isSome_none, Bool.false_eq_true, if_false] at hstate
      split at hstate <;> exact absurd hstate (by decide)
    | some period =>
      have hpos := lockedGrant_pos hgrant
      have hvalid : period ≠ invalidDuration := by
        intro h0
        rw [h0] at hpos
        exact absurd hpos (by decide)
      have hgrants : handlerGrants boot c i = [⟨i.currentTime, period⟩] := by
        rw [handlerGrants, if_pos ⟨hrun, hran', hat⟩, hgrant]
        rfl
      rw [hgrants, List.getLast?_concat, hlocked.timeoutDur, hgrant, Option.getD_some,
        if_neg hvalid]
      exact ⟨_, rfl, rfl, add_pos hclock.1 hpos⟩
  | timedUnlock =>
    rw [handle_timedUnlock i hat] at hstate ⊢
    have htimed := handleTimedUnlock_spec (c.atHandler boot i) i
    have hnone : handlerGrants boot c i = [] := by
      apply if_neg
      intro hlocked
      rw [hlocked.2.2] at hat
      exact absurd hat (by decide)
    rw [htimed.state] at hstate
    cases hends : unlockEnds (c.atHandler boot i) i with
    | true =>
      rw [hends] at hstate
      exact absurd hstate (by simp)
    | false =>
      rw [hnone, List.append_nil, htimed.timeoutDur, h.timeoutDur, if_pos rfl, htimed.timeout,
        hends]
      exact h.timeout hat

theorem timerInv_iterate {boot : Boot} {c : Controller} {gs : List Grant} {i : Input}
    (hclock : AfterEpoch i) (h : TimerInv c gs) :
    TimerInv (c.iterate boot i) (gs ++ grants boot c i) := by
  rcases iterate_cases boot c i with ⟨hstop, hiter⟩ | ⟨hrun, _, hiter, hstop⟩ | hran
  · have hnone : grants boot c i = [] := by
      simp [grants, remoteGrants, handlerGrants, HandlerRan, hstop]
    rw [hiter, hnone, List.append_nil]
    exact ⟨h.timeoutDur, h.timeout⟩
  · have hnone : handlerGrants boot c i = [] := by
      rw [hiter] at hstop
      simp [handlerGrants, HandlerRan, hstop]
    rw [hiter, grants, hnone, List.append_nil]
    exact timerInv_atHandler hclock hrun h
  · rw [grants, ← List.append_assoc]
    exact timerInv_handler hclock hran (timerInv_atHandler hclock hran.1 h)

theorem start_fields (boot : Boot) :
    (start boot).state = .initial ∧ (start boot).isLocked = true ∧
      (start boot).timeoutDur = invalidDuration := by
  have hstatus : ∀ c, SameDoor c
      (setMqttDeviceStatus boot c boot.timestamp boot.heartbeat boot.printed) := by
    intro c
    exact sameDoor_setMqttDeviceStatus boot c _ _ _
  exact ⟨(hstatus _).state, (hstatus _).isLocked, (hstatus _).timeoutDur⟩

/-- **Along every run** a timed unlock has the timeout of the last grant. -/
theorem timerInv_run (boot : Boot) (inputs : List Input) (hclock : ∀ i ∈ inputs, AfterEpoch i) :
    TimerInv (run boot inputs) (granted boot inputs) := by
  have hstart : TimerInv (start boot) [] := by
    obtain ⟨hstate, _, hdur⟩ := start_fields boot
    refine ⟨hdur, ?_⟩
    intro h
    exact absurd (hstate.symm.trans h) (by decide)
  apply Runs.emitted_invariant (iterate boot) (grants boot) (fun _ i => AfterEpoch i) TimerInv _
    hstart (Runs.along_of_forall _ hclock)
  intro c gs i hinv hi
  exact timerInv_iterate hi hinv

/-! ### What switches the relay on -/

/-- The relay is switched on at the top of the iteration, for a door that is not
    marked locked, or by `handle_locked`. -/
theorem energised_cases {boot : Boot} {c : Controller} {i : Input}
    (h : Energised (c.iterate boot i)) :
    c.running = true ∧ (c.isLocked = false ∨ OpenedAtLocked boot c i) := by
  have hat := (atHandler_spec boot c i).energised
  rcases iterate_cases boot c i with ⟨_, hiter⟩ | ⟨hrun, _, hiter, _⟩ | hran
  · rw [hiter] at h
    exact absurd h List.not_mem_nil
  · rw [hiter] at h
    exact ⟨hrun, Or.inl (hat.mp h)⟩
  · refine ⟨hran.1, ?_⟩
    have henergised := (iterate_spec hran).energised.mp h
    cases hstate : (c.atHandler boot i).state with
    | initial =>
      rw [handle_initial i hstate] at henergised
      exact Or.inl (hat.mp (by simpa [handleInitial, Energised] using henergised))
    | locked =>
      rw [handle_locked i hstate] at henergised
      rcases (handleLocked_spec _ i).energised.mp henergised with htop | hopens
      · exact Or.inl (hat.mp htop)
      · exact Or.inr ⟨⟨hran.1, hran.2.1, hstate⟩, hopens⟩
    | «open» =>
      rw [handle_open i hstate] at henergised
      exact Or.inl (hat.mp ((handleOpen_spec _ i).energised.mp henergised))
    | timedUnlock =>
      rw [handle_timedUnlock i hstate] at henergised
      exact Or.inl (hat.mp ((handleTimedUnlock_spec _ i).energised.mp henergised))

/-- The iteration leaves the door marked unlocked: its handler was the one of
    `open` or of `timed_unlock`, or `handle_locked` unlocked the door. -/
def Unlocks (boot : Boot) (c : Controller) (i : Input) : Prop :=
  HandlerRan boot c i .open ∨ HandlerRan boot c i .timedUnlock ∨ OpenedAtLocked boot c i

/-- Before the first handler the door is marked locked. -/
def InitialLocked (c : Controller) : Prop := c.state = .initial → c.isLocked = true

theorem handle_state_ne_initial (c : Controller) (i : Input) :
    (c.handle i).state ≠ .initial := by
  cases hstate : c.state with
  | initial =>
    rw [handle_initial i hstate]
    simp [handleInitial]
  | locked =>
    rw [handle_locked i hstate, (handleLocked_spec c i).state, hstate]
    split
    · decide
    · split <;> decide
  | «open» =>
    rw [handle_open i hstate, (handleOpen_spec c i).state, hstate]
    split <;> decide
  | timedUnlock =>
    rw [handle_timedUnlock i hstate, (handleTimedUnlock_spec c i).state, hstate]
    split
    · decide
    · split <;> decide

theorem initialLocked_atHandler (boot : Boot) {c : Controller} (i : Input)
    (h : InitialLocked c) : InitialLocked (c.atHandler boot i) := by
  have hspec := atHandler_spec boot c i
  intro hstate
  rw [hspec.state] at hstate
  rw [hspec.isLocked]
  by_cases hlock : taken c i = str "lock"
  · rw [if_pos hlock]
  · rw [if_neg hlock] at hstate ⊢
    by_cases hunlock : taken c i = str "unlock"
    · rw [if_pos hunlock] at hstate
      exact absurd hstate (by decide)
    · rw [if_neg hunlock] at hstate ⊢
      exact h hstate

theorem initialLocked_iterate (boot : Boot) (c : Controller) (i : Input) (h : InitialLocked c) :
    InitialLocked (c.iterate boot i) := by
  rcases iterate_cases boot c i with ⟨_, hiter⟩ | ⟨_, _, hiter, _⟩ | hran
  · rw [hiter]
    exact h
  · rw [hiter]
    exact initialLocked_atHandler boot i h
  · intro hstate
    rw [(iterate_spec hran).state] at hstate
    exact absurd hstate (handle_state_ne_initial _ i)

theorem initialLocked_run (boot : Boot) (inputs : List Input) :
    InitialLocked (run boot inputs) := by
  apply Runs.exec_invariant_of_forall (iterate boot) (fun _ => True) InitialLocked
  · intro c i h _
    exact initialLocked_iterate boot c i h
  · intro _
    exact (start_fields boot).2.1
  · intro i _
    trivial

/-- An iteration that leaves the door marked unlocked has a reason to. -/
theorem unlocks_of_isLocked {boot : Boot} {c : Controller} {i : Input} (hinit : InitialLocked c)
    (hrunning : (c.iterate boot i).running = true)
    (hunlocked : (c.iterate boot i).isLocked = false) : Unlocks boot c i := by
  have hran := handlerRan_of_running hrunning
  rw [(iterate_spec hran).isLocked] at hunlocked
  cases hstate : (c.atHandler boot i).state with
  | initial =>
    rw [handle_initial i hstate] at hunlocked
    have hlocked := initialLocked_atHandler boot i hinit hstate
    exact absurd (hlocked.symm.trans hunlocked) (by decide)
  | locked =>
    rw [handle_locked i hstate, (handleLocked_spec _ i).isLocked] at hunlocked
    exact Or.inr (Or.inr ⟨⟨hran.1, hran.2.1, hstate⟩, by simpa using hunlocked⟩)
  | «open» => exact Or.inl ⟨hran.1, hran.2.1, hstate⟩
  | timedUnlock => exact Or.inr (Or.inl ⟨hran.1, hran.2.1, hstate⟩)

/-- Whoever is let in at once has been granted a period. -/
theorem opensDoor_of_lockedGrant_eq_none {c : Controller} {i : Input}
    (h : lockedGrant c i = none) : opensDoor c i = false := by
  unfold lockedGrant at h
  unfold opensDoor
  cases hwhite : c.keys.white with
  | true => simp
  | false =>
    cases hgreen : c.keys.green with
    | true => simp
    | false =>
      by_cases hcard : c.cardId = 0
      · simpa [hwhite, hgreen, hcard] using h
      · simpa [hwhite, hgreen, hcard] using h

/-- A locked door without a grant is locked and marked locked by the handler. -/
theorem isLocked_of_grants_eq_nil {boot : Boot} {c : Controller} {i : Input}
    (hstate : c.state = .locked) (hnone : grants boot c i = [])
    (hrunning : (c.iterate boot i).running = true) : (c.iterate boot i).isLocked = true := by
  obtain ⟨hremote, hhandler⟩ := List.append_eq_nil_iff.mp hnone
  have hran := handlerRan_of_running hrunning
  have hunlock : taken c i ≠ str "unlock" := by
    intro hunlock
    rw [remoteGrants, if_pos ⟨hran.1, hunlock⟩] at hremote
    exact absurd hremote (by simp)
  have hat : (c.atHandler boot i).state = .locked := by
    rw [(atHandler_spec boot c i).state, if_neg hunlock, hstate]
    split <;> rfl
  have hgrant : lockedGrant (c.atHandler boot i) i = none := by
    rw [handlerGrants, if_pos ⟨hran.1, hran.2.1, hat⟩] at hhandler
    simpa using hhandler
  rw [(iterate_spec hran).isLocked, handle_locked i hat, (handleLocked_spec _ i).isLocked,
    opensDoor_of_lockedGrant_eq_none hgrant]
  rfl

/-! ### Inputs that never unlock the door -/

/-- No remote unlock, no Green, no Leave, no card that is allowed, and White at
    most when it is not Thursday. -/
structure Quiet (i : Input) : Prop where
  action : i.action.1 ≠ str "unlock"
  green : i.keys.green = false
  leave : i.keys.leave = false
  card : i.cardId = 0 ∨ i.access.access ≠ .allowed
  white : i.keys.white = true → isItThursday i = false

/-- The door is locked and marked so. -/
def Shut (c : Controller) : Prop := (c.state = .initial ∨ c.state = .locked) ∧ c.isLocked = true

theorem Quiet.lockedGrant {c : Controller} {i : Input} (h : Quiet i) (hkeys : c.keys = i.keys)
    (hcard : c.cardId = i.cardId) : lockedGrant c i = none := by
  rw [Controller.lockedGrant]
  rw [hkeys, hcard, h.green, h.leave]
  rcases h.card with hcard | hcard
  · simp [hcard]
  · simp [hcard]

theorem shut_iterate {boot : Boot} {c : Controller} {i : Input} (hquiet : Quiet i)
    (h : Shut c) : Shut (c.iterate boot i) ∧ ¬ Energised (c.iterate boot i) := by
  obtain ⟨hstate, hlocked⟩ := h
  have hspec := atHandler_spec boot c i
  have hunlock : taken c i ≠ str "unlock" := by
    rw [taken]
    split
    · exact hquiet.action
    · decide
  have hat : Shut (c.atHandler boot i) := by
    refine ⟨?_, ?_⟩
    · rw [hspec.state, if_neg hunlock]
      split
      · exact Or.inr rfl
      · exact hstate
    · rw [hspec.isLocked, if_neg hunlock, hlocked]
      split <;> rfl
  have hgrant := hquiet.lockedGrant hspec.keys hspec.cardId
  have hopens := opensDoor_of_lockedGrant_eq_none hgrant
  refine ⟨?_, ?_⟩
  · rcases iterate_cases boot c i with ⟨_, hiter⟩ | ⟨_, _, hiter, _⟩ | hran
    · rw [hiter]
      exact ⟨hstate, hlocked⟩
    · rw [hiter]
      exact hat
    · have hiter := iterate_spec hran
      rw [Shut, hiter.state, hiter.isLocked]
      rcases hat.1 with hat' | hat'
      · rw [handle_initial i hat']
        exact ⟨Or.inr rfl, hat.2⟩
      · rw [handle_locked i hat']
        have hhandle := handleLocked_spec (c.atHandler boot i) i
        refine ⟨Or.inr ?_, ?_⟩
        · have hwhite : ((c.atHandler boot i).keys.white && isItThursday i) = false := by
            rw [hspec.keys]
            cases hw : i.keys.white with
            | false => rfl
            | true => exact hquiet.white hw
          rw [hhandle.state, hgrant, hwhite, hat']
          rfl
        · rw [hhandle.isLocked, hopens]
          rfl
  · intro henergised
    rcases (energised_cases henergised).2 with htop | ⟨_, hopened⟩
    · exact absurd (hlocked.symm.trans htop) (by decide)
    · exact absurd (hopens.symm.trans hopened) (by decide)

/-! ### The safety of the door -/

/-- The door is safe in whatever iteration comes next. -/
structure DoorSafe (boot : Boot) (before : List Input) : Prop where
  /-- The relay is energised only after an iteration that unlocks the door, or
      when `handle_locked` unlocks it now. -/
  energised : ∀ i, Energised ((run boot before).iterate boot i) →
    OpenedAtLocked boot (run boot before) i ∨
      ∃ earlier j, before = earlier ++ [j] ∧ Unlocks boot (run boot earlier) j
  /-- A handler called in `timed_unlock` finds the timeout of the last grant,
      and locks the door when it has come. -/
  timeout : ∀ i, AfterEpoch i → HandlerRan boot (run boot before) i .timedUnlock →
    ∃ g, (granted boot before ++ remoteGrants (run boot before) i).getLast? = some g ∧
      ((run boot before).atHandler boot i).timeout = g.time + g.period ∧
      g.time + g.period ≠ invalidTimePoint ∧
      (g.time + g.period ≤ i.handlerTime → ((run boot before).iterate boot i).state = .locked)
  /-- The space does not stay open when it is not Thursday. -/
  notThursday : ∀ i, HandlerRan boot (run boot before) i .open → isItThursday i = false →
    ((run boot before).iterate boot i).state = .locked
  /-- Two iterations after the timeout the relay is off at the top, if there
      is no grant in between, and stays off unless `handle_locked` unlocks. -/
  expired : ∀ i j, AfterEpoch i → HandlerRan boot (run boot before) i .timedUnlock →
    ((run boot before).atHandler boot i).timeout ≤ i.handlerTime →
    grants boot (run boot (before ++ [i])) j = [] →
    (run boot (before ++ [i, j])).running = true →
    ∀ k, ((run boot (before ++ [i, j])).readInputs k).calls.take 2 =
        [.displayUpdate, .setRelay false] ∧
      (Energised ((run boot (before ++ [i, j])).iterate boot k) →
        OpenedAtLocked boot (run boot (before ++ [i, j])) k)
  /-- As long as nothing is granted, and White pressed on Thursdays only, a shut
      door stays shut and the relay off. -/
  quiet : ∀ quiet i, (∀ q ∈ quiet ++ [i], Quiet q) → Shut (run boot before) →
    Shut (run boot (before ++ quiet ++ [i])) ∧
      ¬ Energised ((run boot (before ++ quiet)).iterate boot i)

theorem run_snoc (boot : Boot) (inputs : List Input) (i : Input) :
    run boot (inputs ++ [i]) = (run boot inputs).iterate boot i :=
  Runs.exec_snoc _ _ _ _

theorem run_append (boot : Boot) (inputs more : List Input) :
    run boot (inputs ++ more) = Runs.exec (iterate boot) (run boot inputs) more :=
  Runs.exec_append _ _ _ _

theorem energised_run {boot : Boot} {before : List Input} {i : Input}
    (h : Energised ((run boot before).iterate boot i)) :
    OpenedAtLocked boot (run boot before) i ∨
      ∃ earlier j, before = earlier ++ [j] ∧ Unlocks boot (run boot earlier) j := by
  rcases energised_cases h with ⟨hrunning, htop | hopened⟩
  · right
    rcases List.eq_nil_or_concat before with rfl | ⟨earlier, j, rfl⟩
    · exact absurd ((start_fields boot).2.1.symm.trans htop) (by decide)
    · rw [List.concat_eq_append, run_snoc] at hrunning htop
      exact ⟨earlier, j, List.concat_eq_append, unlocks_of_isLocked (initialLocked_run boot earlier)
        hrunning htop⟩
  · exact Or.inl hopened

/-- A handler that finds the timeout reached locks the door. -/
theorem locked_of_timeout {boot : Boot} {c : Controller} {i : Input}
    (hran : HandlerRan boot c i .timedUnlock)
    (hvalid : (c.atHandler boot i).timeout ≠ invalidTimePoint)
    (hdue : (c.atHandler boot i).timeout ≤ i.handlerTime) :
    (c.iterate boot i).state = .locked := by
  have hends : unlockEnds (c.atHandler boot i) i = true := by
    simp [unlockEnds, hvalid, hdue]
  rw [(iterate_spec hran).state, handle_timedUnlock i hran.2.2,
    (handleTimedUnlock_spec _ i).state, hends]
  rfl

/-- **The door is safe along every run.** -/
theorem doorSafe_run (boot : Boot) (before : List Input) (hclock : ∀ i ∈ before, AfterEpoch i) :
    DoorSafe boot before := by
  have hinv := timerInv_run boot before hclock
  have htimer : ∀ i, AfterEpoch i → HandlerRan boot (run boot before) i .timedUnlock →
      ∃ g, (granted boot before ++ remoteGrants (run boot before) i).getLast? = some g ∧
        ((run boot before).atHandler boot i).timeout = g.time + g.period ∧
        0 < ((run boot before).atHandler boot i).timeout := by
    intro i hi hran
    exact (timerInv_atHandler hi hran.1 hinv).timeout hran.2.2
  constructor
  case energised =>
    intro i h
    exact energised_run h
  case timeout =>
    intro i hi hran
    obtain ⟨g, hlast, htimeout, hpos⟩ := htimer i hi hran
    have hvalid : ((run boot before).atHandler boot i).timeout ≠ invalidTimePoint := hpos.ne'
    refine ⟨g, hlast, htimeout, htimeout ▸ hvalid, ?_⟩
    intro hdue
    apply locked_of_timeout hran hvalid
    rw [htimeout]
    exact hdue
  case notThursday =>
    intro i hran hday
    rw [(iterate_spec hran).state, handle_open i hran.2.2, (handleOpen_spec _ i).state, hday]
    rfl
  case expired =>
    intro i j hi hran hdue hnone hrunning k
    obtain ⟨g, _, _, hpos⟩ := htimer i hi hran
    -- the state is left at once, the mark one iteration later, the relay after that
    have hlocked := locked_of_timeout hran hpos.ne' hdue
    rw [← run_snoc] at hlocked
    rw [show before ++ [i, j] = before ++ [i] ++ [j] by simp, run_snoc] at hrunning ⊢
    have hmarked := isLocked_of_grants_eq_nil hlocked hnone hrunning
    refine ⟨?_, ?_⟩
    · rw [readInputs]
      rw [hmarked]
      dsimp only
      split <;> rfl
    · intro henergised
      rcases (energised_cases henergised).2 with htop | hopened
      · exact absurd (hmarked.symm.trans htop) (by decide)
      · exact hopened
  case quiet =>
    intro quiet i hquiet hshut
    have hbefore : Shut (run boot (before ++ quiet)) := by
      rw [run_append]
      apply Runs.exec_invariant_of_forall (iterate boot) Quiet Shut
      · intro c q h hq
        exact (shut_iterate hq h).1
      · exact hshut
      · intro q hq
        exact hquiet q (List.mem_append_left _ hq)
    rw [run_snoc]
    exact shut_iterate (hquiet i (by simp)) hbefore

def sampleBoot : Boot where
  isMainSet := false
  identifier := str "door"
  bootTimestamp := str "2026-01-01T00:00:00"
  version := str "1.0"
  gatewayTime := seconds 100
  startTime := seconds 100
  rebootMinute := 20
  timestamp := str "2026-01-01T00:00:00"
  heartbeat := str "2026-01-01T00:00:00"
  printed := true

/-- All clocks show `n` seconds. -/
def sampleInput (n : Int) (keys : Keys) : Input where
  currentTime := seconds n
  keys
  actionTime := seconds n
  handlerTime := seconds n
  displayTime := seconds n

/-- Green is pressed, and nothing happens for 15 minutes. -/
def greenPressed : List Input := [sampleInput 101 {}, sampleInput 102 { green := true }]

theorem doorSafe_run_sample :
    HandlerRan sampleBoot (run sampleBoot greenPressed) (sampleInput 1002 {}) .timedUnlock ∧
    ((run sampleBoot greenPressed).iterate sampleBoot (sampleInput 1002 {})).state = .locked := by
  have hclock : ∀ n keys, 0 < n → AfterEpoch (sampleInput n keys) := by
    intro n keys hn
    have hpos : 0 < seconds n := mul_pos hn (by decide)
    exact ⟨hpos, hpos⟩
  have hall : ∀ i ∈ greenPressed, AfterEpoch i := by
    intro i hi
    rcases List.mem_cons.mp hi with rfl | hi
    · exact hclock _ _ (by decide)
    · rw [List.mem_singleton.mp hi]
      exact hclock _ _ (by decide)
  have hran : HandlerRan sampleBoot (run sampleBoot greenPressed) (sampleInput 1002 {})
      .timedUnlock := by decide
  obtain ⟨g, hlast, _, _, hlocks⟩ := (doorSafe_run sampleBoot greenPressed hall).timeout
    (sampleInput 1002 {}) (hclock _ _ (by decide)) hran
  have hgrant : (granted sampleBoot greenPressed ++
      remoteGrants (run sampleBoot greenPressed) (sampleInput 1002 {})).getLast? =
        some ⟨seconds 102, unlockPeriod⟩ := by decide
  rw [hgrant] at hlast
  obtain rfl := Option.some.inj hlast
  exact ⟨hran, hlocks (by decide)⟩

end Controller

end Acs.Esp32
