/-
  Acs/Esp32/Reports.lean
  ======================
  **What the frontend reports.**

  The main frontend announces on Slack and on the MQTT topic of the space that
  `open` is entered or left, and every frontend sends the status of its door.
  Here is what each part of an iteration adds to these reports: a handler tells
  of the visit it makes to `open`, a gateway update sends one status, and all
  the rest is silent.
-/
import Acs.Esp32.ControllerSafety

namespace Acs.Esp32

open Acs

namespace Controller

/-! ### Visits -/

/-- `open` is entered, or it is left. -/
inductive Visit where
  | entered
  | left
deriving DecidableEq, Repr

/-- The announcement for Slack. -/
def Visit.announcement : Visit → Call
  | .entered => .slackAnnounceOpen
  | .left => .slackAnnounceClosed

/-- The text that `Mqtt` makes of the announcement. -/
def Visit.text : Visit → Bytes
  | .entered => spaceOpenText
  | .left => spaceClosedText

/-- The payload for `set_mqtt_space_status`. -/
def Visit.payload : Visit → Bytes
  | .entered => spaceOpenJson
  | .left => spaceClosedJson

def Visit.calls (v : Visit) : List Call := [v.announcement, .setSpaceStatus v.payload]

/-- Between two points of an iteration `open` is entered or left at most once. -/
def visit (s s' : State) : List Visit :=
  if s ≠ .open ∧ s' = .open then [.entered]
  else if s = .open ∧ s' ≠ .open then [.left]
  else []

theorem visit_self (s : State) : visit s s = [] := by
  cases s <;> rfl

/-- An announcement for Slack, or a message on one of the topics for the status. -/
@[simp] def Call.isReport : Call → Bool
  | .slackAnnounceOpen | .slackAnnounceClosed | .setSpaceStatus _ | .setDeviceStatus _ => true
  | _ => false

/-! ### Parts that send no status -/

/-- The part tells of the visits `vs`, on the main frontend only, and sets
    `is_space_open` accordingly; the door and the change detection are as before. -/
structure Tells (vs : List Visit) (c c' : Controller) : Prop where
  isMain : c'.isMain = c.isMain
  isDoorOpen : c'.isDoorOpen = c.isDoorOpen
  lastIsLocked : c'.lastIsLocked = c.lastIsLocked
  lastIsDoorOpen : c'.lastIsDoorOpen = c.lastIsDoorOpen
  isSpaceOpen : c'.isSpaceOpen = (vs.getLast?.map (· == .entered)).getD c.isSpaceOpen
  calls : c'.calls.filter Call.isReport =
    c.calls.filter Call.isReport ++ if c.isMain then vs.flatMap Visit.calls else []

namespace Tells

/-- What `Tells` is about apart from the calls. -/
def fields (c : Controller) : Bool × Bool × Bool × Bool × Bool :=
  (c.isMain, c.isDoorOpen, c.lastIsLocked, c.lastIsDoorOpen, c.isSpaceOpen)

theorem refl (c : Controller) : Tells [] c c := ⟨rfl, rfl, rfl, rfl, rfl, by simp⟩

theorem trans {vs vs' : List Visit} {c c' c'' : Controller} (h : Tells vs c c')
    (h' : Tells vs' c' c'') : Tells (vs ++ vs') c c'' where
  isMain := h'.isMain.trans h.isMain
  isDoorOpen := h'.isDoorOpen.trans h.isDoorOpen
  lastIsLocked := h'.lastIsLocked.trans h.lastIsLocked
  lastIsDoorOpen := h'.lastIsDoorOpen.trans h.lastIsDoorOpen
  isSpaceOpen := by
    rw [h'.isSpaceOpen, h.isSpaceOpen, List.getLast?_append]
    cases vs'.getLast? <;> rfl
  calls := by
    rw [h'.calls, h.calls, h.isMain, List.append_assoc, List.flatMap_append]
    cases c.isMain <;> rfl

/-- A part that reports nothing, and leaves alone what `Tells` is about. -/
theorem silent_of {c c' : Controller}
    (hcalls : c'.calls.filter Call.isReport = c.calls.filter Call.isReport)
    (hmain : c'.isMain = c.isMain) (hdoor : c'.isDoorOpen = c.isDoorOpen)
    (hlast : c'.lastIsLocked = c.lastIsLocked) (hlastDoor : c'.lastIsDoorOpen = c.lastIsDoorOpen)
    (hspace : c'.isSpaceOpen = c.isSpaceOpen) : Tells [] c c' where
  isMain := hmain
  isDoorOpen := hdoor
  lastIsLocked := hlast
  lastIsDoorOpen := hlastDoor
  isSpaceOpen := hspace
  calls := by
    rw [hcalls, List.flatMap_nil, ite_self, List.append_nil]

theorem silent {c c' : Controller}
    (hcalls : c'.calls.filter Call.isReport = c.calls.filter Call.isReport)
    (hfields : fields c' = fields c) : Tells [] c c' := by
  simp only [fields, Prod.mk.injEq] at hfields
  obtain ⟨hmain, hdoor, hlast, hlastDoor, hspace⟩ := hfields
  exact silent_of hcalls hmain hdoor hlast hlastDoor hspace

/-- Silent parts before and after change nothing in what is told. -/
theorem silent_left {vs : List Visit} {c c' c'' : Controller} (h : Tells [] c c')
    (h' : Tells vs c' c'') : Tells vs c c'' := h.trans h'

theorem silent_right {vs : List Visit} {c c' c'' : Controller} (h : Tells vs c c')
    (h' : Tells [] c' c'') : Tells vs c c'' := List.append_nil vs ▸ h.trans h'

end Tells

/-- The part that `check_thursday` and both branches of `handle_open` share. -/
theorem tells_visit (v : Visit) (c : Controller) :
    Tells [v] c { (if c.isMain then (c.emit v.announcement).emit (.setSpaceStatus v.payload)
      else c) with isSpaceOpen := v == .entered } := by
  dsimp only
  constructor
  case isMain => split <;> rfl
  case isDoorOpen => split <;> rfl
  case lastIsLocked => split <;> rfl
  case lastIsDoorOpen => split <;> rfl
  case isSpaceOpen => rfl
  case calls =>
    split
    · rw [emit_calls, emit_calls, List.append_assoc, List.filter_append]
      cases v <;> rfl
    · exact (List.append_nil _).symm

theorem tells_checkThursday (c : Controller) (i : Input) :
    Tells (if isItThursday i then [.entered] else []) c (c.checkThursday i) := by
  rw [checkThursday]
  cases isItThursday i with
  | false => exact .silent (by simp) rfl
  | true =>
    have hopened : Tells [] c { c with state := .open } := .silent rfl rfl
    exact hopened.silent_left (tells_visit .entered _)

theorem tells_announceClosed (c : Controller) : Tells [.left] c c.announceClosed :=
  tells_visit .left c

theorem tells_checkCard (c : Controller) (i : Input) (changeState : Bool) :
    Tells [] c (c.checkCard i changeState) := by
  rw [checkCard]
  cases i.access.access with
  | allowed => cases changeState <;> exact .silent (by simp) rfl
  | forbidden => exact .silent (by simp) rfl
  | unknown => exact .silent (by simp) rfl
  | error => exact .silent (by simp) rfl

theorem tells_showTimeLeft (c : Controller) (i : Input) : Tells [] c (c.showTimeLeft i) := by
  rw [showTimeLeft]
  dsimp only
  split
  · split
    · split <;> exact .silent (by simp) rfl
    · exact .silent (by simp) rfl
  · exact .refl c

/-! ### The handlers -/

theorem tells_handleLocked (c : Controller) (i : Input) :
    Tells (if c.keys.white && isItThursday i then [.entered] else []) c (c.handleLocked i) := by
  generalize hshown' : (({ c with isLocked := true }.emit (.setPattern .ready)).emit
    (.setStatus (str "Locked") .orange
      (some (({ c with isLocked := true }.emit (.setPattern .ready)).auxStatus i, .red)))).emit
    (.setSlackStatus (str ":lock: Door is locked")) = shown
  have hshown : Tells [] c shown := by
    rw [← hshown']
    exact .silent (by simp) rfl
  have hkeys : shown.keys = c.keys := by
    rw [← hshown']
    rfl
  rw [handleLocked]
  dsimp only
  rw [hshown', ← hkeys]
  cases shown.keys.white with
  | true => exact hshown.silent_left (tells_checkThursday shown i)
  | false =>
    simp only [Bool.false_eq_true, if_false, Bool.false_and]
    apply hshown.silent_right
    split
    · exact .silent (by simp) rfl
    · split
      · exact tells_checkCard shown i true
      · split
        · exact .silent (by simp) rfl
        · exact .refl shown

theorem tells_endOpenPeriod (c : Controller) (i : Input) :
    Tells (if isItThursday i && !c.keys.red then [] else [.left]) c (c.endOpenPeriod i) := by
  rw [endOpenPeriod]
  cases isItThursday i with
  | false =>
    have hlogged : Tells [] c { c.emit (.log (str "It is no longer Thursday")) with
        state := .locked } := .silent (by simp) rfl
    exact hlogged.silent_left (tells_announceClosed _)
  | true =>
    cases c.keys.red with
    | false => exact .refl c
    | true => exact (tells_announceClosed c).silent_right (.silent rfl rfl)

theorem tells_handleOpen (c : Controller) (i : Input) :
    Tells (if isItThursday i && !c.keys.red then [] else [.left]) c (c.handleOpen i) := by
  have hshown : Tells [] c ({ c with isLocked := false }.emit
      (.setStatus (str "Open") .green (some ([], .red)))) := .silent (by simp) rfl
  have hended := hshown.silent_left (tells_endOpenPeriod _ i)
  rw [emit_keys] at hended
  unfold handleOpen
  dsimp only at hended ⊢
  generalize (if isItThursday i && !c.keys.red then [] else [Visit.left]) = vs at hended ⊢
  split
  · exact hended.silent_right (tells_checkCard _ i false)
  · exact hended

theorem tells_stayUnlocked (c : Controller) (i : Input) :
    Tells (if c.keys.white && isItThursday i then [.entered] else []) c (c.stayUnlocked i) := by
  rw [stayUnlocked]
  cases c.keys.white with
  | true => exact tells_checkThursday c i
  | false =>
    simp only [Bool.false_eq_true, if_false, Bool.false_and]
    split
    · exact tells_showTimeLeft c i
    · exact .refl c

theorem tells_handleTimedUnlock (c : Controller) (i : Input) :
    Tells (if unlockEnds c i then [] else if c.keys.white && isItThursday i then [.entered] else [])
      c (c.handleTimedUnlock i) := by
  have hunlocked : Tells [] c { c with isLocked := false } := .silent rfl rfl
  have hends : unlockEnds { c with isLocked := false } i = unlockEnds c i := rfl
  rw [handleTimedUnlock]
  dsimp only
  rw [hends]
  cases unlockEnds c i with
  | true => exact hunlocked.silent_right (.silent rfl rfl)
  | false =>
    have hstay := hunlocked.silent_left (tells_stayUnlocked _ i)
    simp only [Bool.false_eq_true, if_false]
    generalize (if c.keys.white && isItThursday i then [Visit.entered] else []) = vs at hstay ⊢
    split
    · exact hstay.silent_right (.silent rfl rfl)
    · exact hstay

/-- What the handler tells of. -/
def told (c : Controller) (i : Input) : List Visit :=
  match c.state with
  | .initial => []
  | .locked => if c.keys.white && isItThursday i then [.entered] else []
  | .open => if isItThursday i && !c.keys.red then [] else [.left]
  | .timedUnlock =>
    if unlockEnds c i then [] else if c.keys.white && isItThursday i then [.entered] else []

theorem tells_handle (c : Controller) (i : Input) : Tells (told c i) c (c.handle i) := by
  cases hstate : c.state with
  | initial =>
    rw [told, hstate, handle_initial i hstate, handleInitial]
    exact .silent (by simp) rfl
  | locked =>
    rw [told, hstate, handle_locked i hstate]
    exact tells_handleLocked c i
  | «open» =>
    rw [told, hstate, handle_open i hstate]
    exact tells_handleOpen c i
  | timedUnlock =>
    rw [told, hstate, handle_timedUnlock i hstate]
    exact tells_handleTimedUnlock c i

/-- **A handler tells of the visit it makes**; one called in `timed_unlock` has to
    find a timeout. -/
theorem told_eq_visit (c : Controller) (i : Input)
    (htimeout : c.state = .timedUnlock → c.timeout ≠ invalidTimePoint) :
    told c i = visit c.state (c.handle i).state := by
  cases hstate : c.state with
  | initial =>
    rw [told, hstate, handle_initial i hstate]
    rfl
  | locked =>
    rw [told, hstate, handle_locked i hstate, (handleLocked_spec c i).state, hstate]
    dsimp only
    cases hwhite : c.keys.white && isItThursday i with
    | true =>
      have hnone : lockedGrant c i = none := by
        rw [lockedGrant, if_pos (Bool.and_eq_true_iff.mp hwhite).1]
      rw [hnone]
      rfl
    | false => cases (lockedGrant c i).isSome <;> rfl
  | «open» =>
    rw [told, hstate, handle_open i hstate, (handleOpen_spec c i).state, hstate]
    cases isItThursday i && !c.keys.red <;> rfl
  | timedUnlock =>
    rw [told, hstate, handle_timedUnlock i hstate, (handleTimedUnlock_spec c i).state, hstate]
    simp only [htimeout hstate, decide_false, Bool.or_false]
    cases unlockEnds c i with
    | true => rfl
    | false => cases c.keys.white && isItThursday i <;> rfl

/-! ### The rest of an iteration -/

theorem tells_checkAction (c : Controller) (i : Input) : Tells [] c (c.checkAction i) := by
  rw [checkAction]
  obtain ⟨action, arg⟩ := i.action
  dsimp only
  split
  · exact .refl c
  split
  · split <;> exact .silent (by simp) rfl
  split
  · exact .silent (by simp) rfl
  split
  · exact .silent (by simp) rfl
  split <;> exact .silent (by simp) rfl

theorem tells_setTimeout (c : Controller) (i : Input) : Tells [] c (c.setTimeout i) := by
  rw [setTimeout]
  split
  · exact .silent (by simp) rfl
  · exact .refl c

theorem tells_scheduledReboot (boot : Boot) (c : Controller) (i : Input) :
    Tells [] c (c.scheduledReboot boot i) := by
  rw [scheduledReboot]
  split
  · dsimp only
    apply Tells.silent
    · simp
    · simp [Tells.fields, emit]
  · exact .refl c

/-- The iteration reaches its gateway update. -/
def updates (c : Controller) (i : Input) : Bool := (c.readInputs i).gatewayUpdateNeeded i

/-- The call of `set_mqtt_device_status`, if it is made. -/
def statusCalls (boot : Boot) (c : Controller) (i : Input) : List Call :=
  (setMqttDeviceStatus boot { c with calls := [] } i.timestamp i.heartbeat i.printed).calls

/-- What has been reported when the handler is called, and what the change
    detection remembers. -/
structure AtHandlerReports (boot : Boot) (c : Controller) (i : Input) (h : Controller) : Prop where
  isMain : h.isMain = c.isMain
  isSpaceOpen : h.isSpaceOpen = c.isSpaceOpen
  isDoorOpen : h.isDoorOpen = i.doorOpen
  lastIsLocked : h.lastIsLocked = c.isLocked
  lastIsDoorOpen : h.lastIsDoorOpen = i.doorOpen
  calls : h.calls.filter Call.isReport =
    if updates c i && h.running then statusCalls boot h i else []

theorem setMqttDeviceStatus_eq (boot : Boot) (c : Controller) (i : Input) :
    setMqttDeviceStatus boot c i.timestamp i.heartbeat i.printed =
      { c with calls := c.calls ++ statusCalls boot c i } := by
  rw [statusCalls, setMqttDeviceStatus, setMqttDeviceStatus]
  cases i.printed with
  | false => exact (congrArg (fun calls => { c with calls }) (List.append_nil c.calls)).symm
  | true => rfl

theorem statusCalls_filter (boot : Boot) (c : Controller) (i : Input) :
    (statusCalls boot c i).filter Call.isReport = statusCalls boot c i := by
  rw [statusCalls, setMqttDeviceStatus]
  cases i.printed <;> rfl

theorem statusCalls_congr (boot : Boot) {c c' : Controller} (i : Input)
    (hdoor : c.isDoorOpen = c'.isDoorOpen) (hspace : c.isSpaceOpen = c'.isSpaceOpen)
    (hlocked : c.isLocked = c'.isLocked) : statusCalls boot c i = statusCalls boot c' i := by
  rw [statusCalls, statusCalls, setMqttDeviceStatus, setMqttDeviceStatus]
  rw [hdoor, hspace, hlocked]
  cases i.printed <;> rfl

/-- The change detection remembers what it has seen, whether it has changed or
    not. -/
theorem tells_noteChange (c : Controller) (i : Input) :
    Tells [] { c with isDoorOpen := i.doorOpen, lastIsLocked := c.isLocked,
                      lastIsDoorOpen := i.doorOpen, calls := [] }
      (c.readInputs i).noteChange := by
  have hread : Tells [] { c with isDoorOpen := i.doorOpen, calls := [] } (c.readInputs i) := by
    rw [readInputs]
    dsimp only
    split <;> exact .silent (by simp) rfl
  have hlocked : (c.readInputs i).isLocked = c.isLocked := by
    rw [readInputs]
    dsimp only
    split <;> rfl
  rw [noteChange]
  split
  · refine .silent_of ?_ hread.isMain hread.isDoorOpen hlocked hread.isDoorOpen hread.isSpaceOpen
    simpa using hread.calls
  next hsame =>
    obtain ⟨hlast, hdoor⟩ : (c.readInputs i).isLocked = (c.readInputs i).lastIsLocked ∧
        (c.readInputs i).isDoorOpen = (c.readInputs i).lastIsDoorOpen := by
      simpa [isChanged] using hsame
    refine .silent_of ?_ hread.isMain hread.isDoorOpen (hlast.symm.trans hlocked)
      (hdoor.symm.trans hread.isDoorOpen) hread.isSpaceOpen
    simpa using hread.calls

theorem atHandler_reports (boot : Boot) (c : Controller) (i : Input) :
    AtHandlerReports boot c i (c.atHandler boot i) := by
  have hnoted := tells_noteChange c i
  rw [atHandler, gatewayUpdate]
  dsimp only
  cases hupdates : (c.readInputs i).gatewayUpdateNeeded i with
  | false =>
    refine ⟨hnoted.isMain, hnoted.isSpaceOpen, hnoted.isDoorOpen, hnoted.lastIsLocked,
      hnoted.lastIsDoorOpen, ?_⟩
    simpa [updates, hupdates] using hnoted.calls
  | true =>
    have htaken := hnoted.silent_right (tells_checkAction (c.readInputs i).noteChange i)
    generalize (c.readInputs i).noteChange.checkAction i = afterAction at htaken ⊢
    simp only [if_true]
    split
    next hrunning =>
      rw [setMqttDeviceStatus_eq]
      have hlogged : ∀ text, AtHandlerReports boot c i (({ afterAction with
          calls := afterAction.calls ++ statusCalls boot afterAction i
          lastGatewayUpdate := i.currentTime } : Controller).emit (.log text)) := by
        intro text
        refine ⟨htaken.isMain, htaken.isSpaceOpen, htaken.isDoorOpen, htaken.lastIsLocked,
          htaken.lastIsDoorOpen, ?_⟩
        have hsent : (afterAction.calls ++ statusCalls boot afterAction i).filter Call.isReport =
            statusCalls boot afterAction i := by
          rw [List.filter_append, statusCalls_filter]
          simpa using htaken.calls
        rw [emit_calls, List.filter_append, hsent, emit_running, updates, hupdates, hrunning]
        exact (List.append_nil _).trans (statusCalls_congr boot i rfl rfl rfl)
      cases i.rssi <;> exact hlogged _
    next hstopped =>
      refine ⟨htaken.isMain, htaken.isSpaceOpen, htaken.isDoorOpen, htaken.lastIsLocked,
        htaken.lastIsDoorOpen, ?_⟩
      simpa [hstopped] using htaken.calls

/-- **After a handler** nothing is reported but what it tells of. -/
theorem tells_iterate {boot : Boot} {c : Controller} {i : Input} {s : State}
    (hran : HandlerRan boot c i s) :
    Tells (told (c.atHandler boot i) i) (c.atHandler boot i) (c.iterate boot i) := by
  rw [iterate_handled hran.1 hran.2.1]
  exact ((tells_handle (c.atHandler boot i) i).silent_right
    (tells_setTimeout _ i)).silent_right (tells_scheduledReboot boot _ i)

/-! ### The calls of a run -/

def called (boot : Boot) (inputs : List Input) : List Call :=
  (start boot).calls ++ Runs.emitted (iterate boot) (fun c i => (c.iterate boot i).calls)
    (start boot) inputs

theorem called_snoc (boot : Boot) (inputs : List Input) (i : Input) :
    called boot (inputs ++ [i]) =
      called boot inputs ++ ((run boot inputs).iterate boot i).calls := by
  rw [called, Runs.emitted_append, Runs.emitted_cons, Runs.emitted_nil, List.append_nil,
    ← List.append_assoc]
  rfl

end Controller

end Acs.Esp32
