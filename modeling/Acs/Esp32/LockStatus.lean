/-
  Acs/Esp32/LockStatus.lean
  =========================
  **The published status of the lock.**

  A gateway update publishes the door and the lock as they are after the remote
  action, while the change detection remembers the lock as it was before.  When
  a remote lock is taken back by the handler of the same iteration the next
  iteration sees no change, and the status that was published stays.  In every
  other run whose status messages are printed the last one published is true
  when the handler is called.
-/
import Acs.Esp32.Reports

namespace Acs.Esp32

open Acs

namespace Controller

/-! ### The published status -/

def doorText (isDoorOpen : Bool) : Bytes := if isDoorOpen then str "open" else str "closed"
def lockText (isLocked : Bool) : Bytes := if isLocked then str "locked" else str "unlocked"

@[simp] def Call.deviceStatus : Call → Option DeviceStatus
  | .setDeviceStatus status => some status
  | _ => none

/-- The status messages that are published up to the handler of the iteration
    after `before`. -/
def published (boot : Boot) (before : List Input) (i : Input) : List DeviceStatus :=
  (called boot before ++ ((run boot before).atHandler boot i).calls).filterMap Call.deviceStatus

/-- The last of the messages shows this door and this lock. -/
def Shows (statuses : List DeviceStatus) (isDoorOpen isLocked : Bool) : Prop :=
  ∃ status, statuses.getLast? = some status ∧ status.door = doorText isDoorOpen ∧
    status.lockStatus = lockText isLocked

/-- When the update step of the iteration is over, the last status that was
    published is true. -/
def StatusFresh (boot : Boot) (before : List Input) (i : Input) : Prop :=
  (run boot before).running = true → ((run boot before).atHandler boot i).running = true →
    Shows (published boot before i) ((run boot before).atHandler boot i).isDoorOpen
      ((run boot before).atHandler boot i).isLocked

/-- A remote lock is taken while the door is marked unlocked, and somebody who
    can unlock it is at the door in the same iteration. -/
def LockTakenBack (c : Controller) (i : Input) : Prop :=
  c.running = true ∧ c.isLocked = false ∧ taken c i = str "lock" ∧
    opensDoor (c.readInputs i) i = true

/-- A status message that the iteration needs is printed. -/
def Printed (c : Controller) (i : Input) : Prop := updates c i = true → i.printed = true

/-! ### One iteration -/

theorem filterMap_isReport (calls : List Call) :
    (calls.filter Call.isReport).filterMap Call.deviceStatus =
      calls.filterMap Call.deviceStatus := by
  rw [List.filterMap_filter]
  congr 1
  funext call
  cases call <;> rfl

theorem filterMap_visits (vs : List Visit) :
    (vs.flatMap Visit.calls).filterMap Call.deviceStatus = [] := by
  apply List.filterMap_eq_nil_iff.mpr
  intro call hcall
  obtain ⟨v, _, hv⟩ := List.mem_flatMap.mp hcall
  cases v <;> simp only [Visit.calls, List.mem_cons, List.not_mem_nil, or_false] at hv <;>
    rcases hv with rfl | rfl <;> rfl

/-- An update publishes the status as it is. -/
theorem shows_of_updates {boot : Boot} {c : Controller} {i : Input} (statuses : List DeviceStatus)
    (hupdates : updates c i = true) (hprinted : i.printed = true)
    (hrunning : (c.atHandler boot i).running = true) :
    Shows (statuses ++ (c.atHandler boot i).calls.filterMap Call.deviceStatus)
      (c.atHandler boot i).isDoorOpen (c.atHandler boot i).isLocked := by
  have hcalls := (atHandler_reports boot c i).calls
  rw [hupdates, hrunning, statusCalls, setMqttDeviceStatus, if_pos hprinted] at hcalls
  rw [← filterMap_isReport, hcalls]
  exact ⟨_, List.getLast?_concat, rfl, rfl⟩

theorem taken_of_not_updates {c : Controller} {i : Input} (h : updates c i = false) :
    taken c i = [] := by
  apply if_neg
  rw [show (c.readInputs i).gatewayUpdateNeeded i = false from h]
  exact Bool.false_ne_true

/-- Without an update nothing has changed and nothing is published. -/
theorem atHandler_of_not_updates (boot : Boot) {c : Controller} {i : Input}
    (hupdates : updates c i = false) :
    c.isLocked = c.lastIsLocked ∧ i.doorOpen = c.lastIsDoorOpen ∧
      (c.atHandler boot i).isLocked = c.isLocked ∧
      (c.atHandler boot i).calls.filterMap Call.deviceStatus = [] := by
  have hread : (c.readInputs i).isLocked = c.isLocked ∧
      (c.readInputs i).lastIsLocked = c.lastIsLocked ∧
      (c.readInputs i).isDoorOpen = i.doorOpen ∧
      (c.readInputs i).lastIsDoorOpen = c.lastIsDoorOpen := by
    rw [readInputs]
    dsimp only
    split <;> exact ⟨rfl, rfl, rfl, rfl⟩
  obtain ⟨hlocked, hlast, hdoor, hlastDoor⟩ := hread
  have hsame : (c.readInputs i).isChanged = false := by
    rw [updates, gatewayUpdateNeeded] at hupdates
    exact (Bool.or_eq_false_iff.mp hupdates).1
  rw [isChanged, hlocked, hlast, hdoor, hlastDoor] at hsame
  obtain ⟨hlock, hdoor⟩ : c.isLocked = c.lastIsLocked ∧ i.doorOpen = c.lastIsDoorOpen := by
    simpa using hsame
  refine ⟨hlock, hdoor, ?_, ?_⟩
  · rw [(atHandler_spec boot c i).isLocked, taken_of_not_updates hupdates]
    rfl
  · rw [← filterMap_isReport, (atHandler_reports boot c i).calls, hupdates]
    rfl

/-- After the handler is called no status is published. -/
theorem filterMap_iterate {boot : Boot} {c : Controller} {i : Input} {s : State}
    (hran : HandlerRan boot c i s) :
    (c.iterate boot i).calls.filterMap Call.deviceStatus =
      (c.atHandler boot i).calls.filterMap Call.deviceStatus := by
  rw [← filterMap_isReport, (tells_iterate hran).calls, List.filterMap_append, filterMap_isReport]
  split
  · rw [filterMap_visits, List.append_nil]
  · exact List.append_nil _

/-! ### Runs -/

/-- When the change detection will see no change, the last status shows what it
    remembers. -/
def LockInv (c : Controller) (statuses : List DeviceStatus) : Prop :=
  c.running = true → c.isLocked = c.lastIsLocked → Shows statuses c.lastIsDoorOpen c.isLocked

theorem shows_atHandler {boot : Boot} {c : Controller} {statuses : List DeviceStatus} {i : Input}
    (h : LockInv c statuses) (hrun : c.running = true)
    (hrunning : (c.atHandler boot i).running = true) (hprinted : Printed c i) :
    Shows (statuses ++ (c.atHandler boot i).calls.filterMap Call.deviceStatus)
      (c.atHandler boot i).isDoorOpen (c.atHandler boot i).isLocked := by
  cases hupdates : updates c i with
  | true => exact shows_of_updates statuses hupdates (hprinted hupdates) hrunning
  | false =>
    obtain ⟨hlast, hdoor, hlocked, hnone⟩ := atHandler_of_not_updates boot hupdates
    rw [hnone, List.append_nil, hlocked, (atHandler_reports boot c i).isDoorOpen, hdoor]
    exact h hrun hlast

/-- The remote action leaves the keys and the card alone. -/
theorem opensDoor_atHandler (boot : Boot) (c : Controller) (i : Input) :
    opensDoor (c.atHandler boot i) i = opensDoor (c.readInputs i) i := by
  have hspec := atHandler_spec boot c i
  have hread : (c.readInputs i).keys = i.keys ∧ (c.readInputs i).cardId = i.cardId := by
    rw [readInputs]
    dsimp only
    split <;> exact ⟨rfl, rfl⟩
  rw [opensDoor, opensDoor, hspec.keys, hspec.cardId, hread.1, hread.2]

/-- A handler that brings the lock back to what it was before the remote action
    has taken a remote lock back. -/
theorem isLocked_of_handler {boot : Boot} {c : Controller} {i : Input} {s : State}
    (hran : HandlerRan boot c i s) (hkept : ¬ LockTakenBack c i)
    (hback : (c.iterate boot i).isLocked = c.isLocked) :
    (c.atHandler boot i).isLocked = c.isLocked := by
  have hspec := atHandler_spec boot c i
  rw [(iterate_spec hran).isLocked] at hback
  by_cases hlock : taken c i = str "lock"
  · have hstate : (c.atHandler boot i).state = .locked := by rw [hspec.state, if_pos hlock]
    rw [hspec.isLocked, if_pos hlock]
    rw [handle_locked i hstate, (handleLocked_spec _ i).isLocked] at hback
    cases hlocked : c.isLocked with
    | true => rfl
    | false =>
      have hopens : opensDoor (c.readInputs i) i = true := by
        rw [← opensDoor_atHandler boot]
        simpa [hlocked] using hback
      exact absurd ⟨hran.1, hlocked, hlock, hopens⟩ hkept
  · by_cases hunlock : taken c i = str "unlock"
    · have hstate : (c.atHandler boot i).state = .timedUnlock := by
        rw [hspec.state, if_neg hlock, if_pos hunlock]
      rw [handle_timedUnlock i hstate, (handleTimedUnlock_spec _ i).isLocked] at hback
      rw [hspec.isLocked, if_neg hlock, if_pos hunlock, hback]
    · rw [hspec.isLocked, if_neg hlock, if_neg hunlock]

theorem lockInv_iterate {boot : Boot} {c : Controller} {statuses : List DeviceStatus} {i : Input}
    (h : LockInv c statuses) (hprinted : Printed c i) (hkept : ¬ LockTakenBack c i) :
    LockInv (c.iterate boot i)
      (statuses ++ (c.iterate boot i).calls.filterMap Call.deviceStatus) := by
  intro hrunning hsame
  have hran := handlerRan_of_running hrunning
  have hat := atHandler_reports boot c i
  have htells := tells_iterate hran
  rw [htells.lastIsLocked, hat.lastIsLocked] at hsame
  have hlocked := isLocked_of_handler hran hkept hsame
  have hshown := shows_atHandler h hran.1 hran.2.1 hprinted
  rw [hlocked, ← hsame, hat.isDoorOpen, ← hat.lastIsDoorOpen, ← htells.lastIsDoorOpen] at hshown
  rw [filterMap_iterate hran]
  exact hshown

theorem lockInv_run {boot : Boot} {inputs : List Input}
    (h : Runs.Along (iterate boot) (fun c i => Printed c i ∧ ¬ LockTakenBack c i) (start boot)
      inputs) :
    LockInv (run boot inputs) ((called boot inputs).filterMap Call.deviceStatus) := by
  apply Runs.emitted_invariant (iterate boot) (fun c i => (c.iterate boot i).calls) _
    (fun c calls => LockInv c (calls.filterMap Call.deviceStatus)) _ _ h
  · intro c calls i hinv hi
    rw [List.filterMap_append]
    exact lockInv_iterate hinv hi.1 hi.2
  · -- the first iteration sees a change: the door is locked, and remembered as unlocked
    have hstart : (start boot).isLocked = true ∧ (start boot).lastIsLocked = false := by
      rw [start, setMqttDeviceStatus]
      cases boot.printed <;> exact ⟨rfl, rfl⟩
    intro _ hsame
    rw [hstart.1, hstart.2] at hsame
    exact absurd hsame (by decide)

/-- **The published status is never stale** in a run whose status messages are
    printed and in which no remote lock is taken back. -/
theorem statusFresh_run (boot : Boot) (before : List Input) (i : Input)
    (hbefore : Runs.Along (iterate boot) (fun c i => Printed c i ∧ ¬ LockTakenBack c i)
      (start boot) before)
    (hprinted : Printed (run boot before) i) : StatusFresh boot before i := by
  intro hrun hrunning
  rw [published, List.filterMap_append]
  exact shows_atHandler (lockInv_run hbefore) hrun hrunning hprinted

/-- A remote lock that is taken back leaves a stale status, until an update comes. -/
theorem not_statusFresh_of_lockTakenBack {boot : Boot} {before : List Input} {i j : Input}
    (hback : LockTakenBack (run boot before) i) (hprinted : i.printed = true)
    (hrunning : (run boot (before ++ [i])).running = true)
    (hnone : updates (run boot (before ++ [i])) j = false) :
    ¬ StatusFresh boot (before ++ [i]) j := by
  obtain ⟨hrun, _, hlock, hopens⟩ := hback
  have hspec := atHandler_spec boot (run boot before) i
  have hupdates : updates (run boot before) i = true := by
    cases hnever : updates (run boot before) i with
    | true => rfl
    | false =>
      rw [taken_of_not_updates hnever] at hlock
      exact absurd hlock (by decide)
  have hran : HandlerRan boot (run boot before) i .locked := by
    refine ⟨hrun, ?_, ?_⟩
    · rw [hspec.running, hlock, if_neg (by decide), hrun]
    · rw [hspec.state, if_pos hlock]
  -- what the update publishes
  have hshown := shows_of_updates ((called boot before).filterMap Call.deviceStatus) hupdates
    hprinted hran.2.1
  rw [hspec.isLocked, if_pos hlock, ← filterMap_iterate hran] at hshown
  obtain ⟨status, hlast, _, hlocked⟩ := hshown
  -- what the handler makes of the lock
  have hunlocked : (run boot (before ++ [i])).isLocked = false := by
    rw [run_snoc, (iterate_spec hran).isLocked, handle_locked i hran.2.2,
      (handleLocked_spec _ i).isLocked, opensDoor_atHandler, hopens]
    rfl
  obtain ⟨_, _, hsame, hsilent⟩ := atHandler_of_not_updates boot hnone
  have hrunning' : ((run boot (before ++ [i])).atHandler boot j).running = true := by
    rw [(atHandler_spec boot _ j).running, taken_of_not_updates hnone, if_neg (by decide),
      hrunning]
  intro hfresh
  obtain ⟨status', hlast', _, hlocked'⟩ := hfresh hrunning hrunning'
  rw [published, List.filterMap_append, hsilent, List.append_nil, called_snoc,
    List.filterMap_append, hlast] at hlast'
  obtain rfl := Option.some.inj hlast'
  rw [hsame, hunlocked, hlocked] at hlocked'
  exact absurd hlocked' (by decide)

instance decidableLockTakenBack (c : Controller) (i : Input) : Decidable (LockTakenBack c i) :=
  inferInstanceAs (Decidable (_ ∧ _ ∧ _ ∧ _))

instance decidablePrinted (c : Controller) (i : Input) : Decidable (Printed c i) :=
  inferInstanceAs (Decidable (_ → _))

/-- After Green the door is marked unlocked, which the next update will publish. -/
def unlockedDoor : List Input := greenPressed ++ [sampleInput 103 {}]

theorem statusFresh_run_sample :
    Shows (published sampleBoot unlockedDoor (sampleInput 104 {})) false false :=
  statusFresh_run sampleBoot unlockedDoor (sampleInput 104 {}) (by decide) (by decide)
    (by decide) (by decide)

/-- The update takes a remote lock, and Leave is pressed. -/
def leaveAfterLock : List Input :=
  unlockedDoor ++ [{ sampleInput 104 { leave := true } with action := (str "lock", []) }]

/-- The door is marked unlocked, and published as locked. -/
theorem not_statusFresh : ¬ StatusFresh sampleBoot leaveAfterLock (sampleInput 105 {}) := by
  intro h
  obtain ⟨status, hlast, _, hlock⟩ := h (by decide) (by decide)
  have hlocked : ((published sampleBoot leaveAfterLock (sampleInput 105 {})).getLast?.map
      DeviceStatus.lockStatus) = some (lockText true) := by decide
  rw [hlast] at hlocked
  have hlocked := Option.some.inj hlocked
  rw [hlock] at hlocked
  exact absurd hlocked (by decide)

end Controller

end Acs.Esp32
