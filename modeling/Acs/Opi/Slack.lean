/-
  Acs/Opi/Slack.lean
  ==================
  **`Slack_writer`: what the members read about the door** (`opi/slack.cpp`).

  A status is only sent if it is not what was sent last, whichever call that was.
  The announcements go to #general as well, and only in production.  Without
  `--slack` or without a token, messages are printed and not posted.  Where
  messages are posted, #general gets of a run of the controller one for each time
  that the space is opened and for each time that `handle_open` closes it
  (`slackFollows_run`); a remote action that locks an open space goes to the other
  channel only.  A request to Slack that fails is logged and not made again.
-/
import Acs.Opi.Calls

namespace Acs.Opi

open Acs Runs

open Controller (Call State)

inductive Channel where
  | testing
  | privateMonitoring
  | general
deriving DecidableEq, Repr

/-- A message to a channel, posted or only printed. -/
structure Sent where
  channel : Channel
  message : Bytes
  posted : Bool
deriving DecidableEq

/-- `sent` is what it has written so far; the code does not keep it. -/
structure SlackWriter where
  isActive : Bool := false
  isTestMode : Bool := false
  lastStatus : Bytes := []
  apiToken : Bytes := []
  sent : List Sent := []

namespace SlackWriter

def setParams (w : SlackWriter) (active testMode : Bool) : SlackWriter :=
  { w with isActive := active, isTestMode := testMode }

/-- Without a token, or if it is not active, the message goes to `stdout`. -/
def sendToChannel (w : SlackWriter) (channel : Channel) (message : Bytes) : SlackWriter :=
  { w with sent := w.sent ++ [⟨channel, message, !(!w.isActive || w.apiToken.isEmpty)⟩] }

def sendMessage (w : SlackWriter) (message : Bytes) (includeGeneral : Bool) : SlackWriter :=
  let w := { w with lastStatus := message }
  let w := w.sendToChannel (if w.isTestMode then .testing else .privateMonitoring) message
  if includeGeneral && !w.isTestMode then w.sendToChannel .general message else w

def setStatus (w : SlackWriter) (status : Bytes) (includeGeneral : Bool) : SlackWriter :=
  if status ≠ w.lastStatus then w.sendMessage status includeGeneral else w

def openMessage : Bytes := str ":tada: The space is now open!"
def closedMessage : Bytes := str ":sad_panda2: The space is no longer open"

def announceOpen (w : SlackWriter) : SlackWriter := w.setStatus openMessage true

def announceClosed (w : SlackWriter) : SlackWriter := w.setStatus closedMessage true

/-- The calls of the controller that are for Slack. -/
def take (w : SlackWriter) : Call → SlackWriter
  | .slackSetStatus status => w.setStatus status false
  | .slackSendMessage message => w.sendMessage message false
  | .slackAnnounceOpen => w.announceOpen
  | .slackAnnounceClosed => w.announceClosed
  | .setPattern _ => w
  | .setStatus _ _ => w
  | .showMessage _ _ => w
  | .log _ => w
  | .logUnknownCard _ => w
  | .updateLastAccess _ => w

/-- What `main` does with it before there is a controller. -/
def started (useSlack inProd : Bool) (token version : Bytes) : SlackWriter :=
  (({ apiToken := token } : SlackWriter).setParams useSlack (!inProd)).sendMessage
    (str ":waiting: ACSv2 frontend " ++ version) false

/-- What has been posted to #general. -/
def general (w : SlackWriter) : List Bytes :=
  (w.sent.filter fun s => s.channel = .general ∧ s.posted = true).map (·.message)

/-- Messages are posted, and those for #general are made. -/
def announces (w : SlackWriter) : Bool :=
  w.isActive && !w.apiToken.isEmpty && !w.isTestMode

/-! ### Single calls -/

section Single

variable (w : SlackWriter)

theorem general_sendToChannel (channel : Channel) (message : Bytes) :
    (w.sendToChannel channel message).general =
      w.general ++ if channel = .general ∧ (w.isActive && !w.apiToken.isEmpty) = true
        then [message] else [] := by
  have hposted : (!(!w.isActive || w.apiToken.isEmpty)) = (w.isActive && !w.apiToken.isEmpty) := by
    rw [Bool.not_or, Bool.not_not]
  rw [general, sendToChannel, List.filter_append, List.map_append, List.filter_singleton, hposted]
  cases w.isActive && !w.apiToken.isEmpty <;> cases channel <;> rfl

theorem general_sendMessage (message : Bytes) (includeGeneral : Bool) :
    (w.sendMessage message includeGeneral).general =
      w.general ++ if includeGeneral && w.announces then [message] else [] := by
  have hsecond : ∀ u : SlackWriter, u.general = w.general → u.isTestMode = w.isTestMode →
      (u.isActive && !u.apiToken.isEmpty) = (w.isActive && !w.apiToken.isEmpty) →
      (if includeGeneral && !u.isTestMode then u.sendToChannel .general message else u).general =
        w.general ++ if includeGeneral && w.announces then [message] else [] := by
    intro u hgeneral hmode hposts
    rw [hmode, announces]
    split
    next hboth =>
      obtain ⟨hinclude, htest⟩ := Bool.and_eq_true_iff.mp hboth
      rw [general_sendToChannel, hgeneral, hposts, hinclude, htest]
      simp
    next hnot =>
      have hnone : ¬ (includeGeneral && (w.isActive && !w.apiToken.isEmpty && !w.isTestMode)) =
          true := by
        intro hall
        obtain ⟨hinclude, hposts⟩ := Bool.and_eq_true_iff.mp hall
        exact hnot (Bool.and_eq_true_iff.mpr ⟨hinclude, (Bool.and_eq_true_iff.mp hposts).2⟩)
      rw [if_neg hnone, hgeneral, List.append_nil]
  refine hsecond _ ?_ rfl rfl
  have hfirst : (if w.isTestMode then Channel.testing else .privateMonitoring) ≠ .general := by
    cases w.isTestMode <;> decide
  rw [general_sendToChannel, if_neg fun h => hfirst h.1]
  exact List.append_nil _

theorem general_setStatus (status : Bytes) (includeGeneral : Bool) :
    (w.setStatus status includeGeneral).general =
      w.general ++
        if includeGeneral && w.announces && decide (status ≠ w.lastStatus) then [status]
        else [] := by
  rw [setStatus]
  split
  next h => rw [general_sendMessage, decide_eq_true h, Bool.and_true]
  next h => rw [decide_eq_false h, Bool.and_false, if_neg Bool.false_ne_true, List.append_nil]

theorem lastStatus_sendMessage (message : Bytes) (includeGeneral : Bool) :
    (w.sendMessage message includeGeneral).lastStatus = message :=
  (apply_ite SlackWriter.lastStatus _ _ _).trans (ite_self message)

theorem lastStatus_setStatus (status : Bytes) (includeGeneral : Bool) :
    (w.setStatus status includeGeneral).lastStatus = status := by
  rw [setStatus]
  split
  · exact lastStatus_sendMessage w status includeGeneral
  next h => exact (not_not.mp h).symm

theorem announces_sendMessage (message : Bytes) (includeGeneral : Bool) :
    (w.sendMessage message includeGeneral).announces = w.announces :=
  (apply_ite announces _ _ _).trans (ite_self w.announces)

theorem announces_setStatus (status : Bytes) (includeGeneral : Bool) :
    (w.setStatus status includeGeneral).announces = w.announces := by
  rw [setStatus]
  split
  · exact announces_sendMessage w status includeGeneral
  · rfl

@[simp] theorem announces_take (call : Call) : (w.take call).announces = w.announces := by
  cases call with
  | slackSetStatus status => exact announces_setStatus w status false
  | slackSendMessage message => exact announces_sendMessage w message false
  | slackAnnounceOpen => exact announces_setStatus w openMessage true
  | slackAnnounceClosed => exact announces_setStatus w closedMessage true
  | _ => rfl

end Single

/-- Whether the messages are posted, those so far and those to come. -/
structure Posts (posts : Bool) (w : SlackWriter) : Prop where
  active : (w.isActive && !w.apiToken.isEmpty) = posts
  sent : ∀ s ∈ w.sent, s.posted = posts

namespace Posts

variable {posts : Bool} {w : SlackWriter}

theorem sendToChannel (h : Posts posts w) (channel : Channel) (message : Bytes) :
    Posts posts (w.sendToChannel channel message) where
  active := h.active
  sent := by
    rw [SlackWriter.sendToChannel, List.forall_mem_append, List.forall_mem_singleton]
    refine ⟨h.sent, ?_⟩
    dsimp only
    rw [Bool.not_or, Bool.not_not]
    exact h.active

theorem sendMessage (h : Posts posts w) (message : Bytes) (includeGeneral : Bool) :
    Posts posts (w.sendMessage message includeGeneral) := by
  have hlast : Posts posts { w with lastStatus := message } := ⟨h.active, h.sent⟩
  have hfirst := hlast.sendToChannel (if w.isTestMode then .testing else .privateMonitoring) message
  rw [SlackWriter.sendMessage]
  by_cases hgeneral : (includeGeneral && !w.isTestMode) = true
  · refine (congrArg (Posts posts) (if_pos ?_)).mpr (hfirst.sendToChannel .general message)
    exact hgeneral
  · refine (congrArg (Posts posts) (if_neg ?_)).mpr hfirst
    exact hgeneral

theorem setStatus (h : Posts posts w) (status : Bytes) (includeGeneral : Bool) :
    Posts posts (w.setStatus status includeGeneral) := by
  rw [SlackWriter.setStatus]
  split
  · exact h.sendMessage status includeGeneral
  · exact h

theorem take (h : Posts posts w) (call : Call) : Posts posts (w.take call) := by
  cases call with
  | slackSetStatus status => exact h.setStatus status false
  | slackSendMessage message => exact h.sendMessage message false
  | slackAnnounceOpen => exact h.setStatus openMessage true
  | slackAnnounceClosed => exact h.setStatus closedMessage true
  | _ => exact h

end Posts

/-- The text that the call leaves in `last_status`. -/
def textOf : Call → Option Bytes
  | .slackSetStatus status => some status
  | .slackSendMessage message => some message
  | .slackAnnounceOpen => some openMessage
  | .slackAnnounceClosed => some closedMessage
  | _ => none

theorem lastStatus_take (w : SlackWriter) (call : Call) :
    (w.take call).lastStatus = (textOf call).getD w.lastStatus := by
  cases call with
  | slackSetStatus status => exact lastStatus_setStatus w status false
  | slackSendMessage message => exact lastStatus_sendMessage w message false
  | slackAnnounceOpen => exact lastStatus_setStatus w openMessage true
  | slackAnnounceClosed => exact lastStatus_setStatus w closedMessage true
  | _ => rfl

/-- Others get nothing of a call that stays inside. -/
theorem take_of_not_outward (w : SlackWriter) {call : Call} (h : call.isOutward = false) :
    w.take call = w := by
  cases call <;> first | rfl | cases h

theorem exec_take_filter (w : SlackWriter) (calls : List Call) :
    exec take w (calls.filter Call.isOutward) = exec take w calls := by
  induction calls generalizing w with
  | nil => rfl
  | cons call calls ih =>
    cases h : call.isOutward with
    | true => rw [List.filter_cons_of_pos h, exec_cons, exec_cons, ih]
    | false =>
      rw [List.filter_cons_of_neg (by simp [h]), exec_cons, take_of_not_outward w h, ih]

/-! ### Calls that announce nothing -/

/-- `last_status` is none of the two announcements. -/
def Fresh (w : SlackWriter) : Prop := w.lastStatus ≠ openMessage ∧ w.lastStatus ≠ closedMessage

/-- The text of the call, if any, is none of the two. -/
def Quiet (call : Call) : Prop :=
  ∀ text, textOf call = some text → text ≠ openMessage ∧ text ≠ closedMessage

theorem Quiet.general {call : Call} (h : Quiet call) (w : SlackWriter) :
    (w.take call).general = w.general := by
  cases call with
  | slackSetStatus status => exact (general_setStatus w status false).trans (List.append_nil _)
  | slackSendMessage message => exact (general_sendMessage w message false).trans (List.append_nil _)
  | slackAnnounceOpen => exact absurd rfl (h openMessage rfl).1
  | slackAnnounceClosed => exact absurd rfl (h closedMessage rfl).2
  | _ => rfl

theorem Quiet.fresh {call : Call} (h : Quiet call) {w : SlackWriter}
    (hfresh : (textOf call).isSome ∨ w.Fresh) : (w.take call).Fresh := by
  rw [Fresh, lastStatus_take]
  cases htext : textOf call with
  | some text => exact h text htext
  | none =>
    rcases hfresh with hsome | hfresh
    · rw [htext] at hsome
      cases hsome
    · exact hfresh

/-- A list of quiet calls leaves #general alone, and starts a fresh one if its
    first call has a text. -/
theorem exec_quiet {calls : List Call} (h : ∀ call ∈ calls, Quiet call) (w : SlackWriter) :
    (exec take w calls).general = w.general ∧ (w.Fresh → (exec take w calls).Fresh) := by
  induction calls generalizing w with
  | nil => exact ⟨rfl, id⟩
  | cons call calls ih =>
    obtain ⟨hcall, hcalls⟩ := List.forall_mem_cons.mp h
    obtain ⟨hgeneral, hfresh⟩ := ih hcalls (w.take call)
    exact ⟨hgeneral.trans (hcall.general w), fun hw => hfresh (hcall.fresh (.inr hw))⟩

theorem announces_exec (w : SlackWriter) (calls : List Call) :
    (exec take w calls).announces = w.announces := by
  refine exec_invariant_of_forall take (fun _ => True)
    (fun u => u.announces = w.announces) ?_ rfl fun _ _ => trivial
  intro u call h _
  exact (announces_take u call).trans h

theorem general_announceOpen {w : SlackWriter} (hannounces : w.announces = true)
    (h : w.lastStatus ≠ openMessage) :
    (w.take .slackAnnounceOpen).general = w.general ++ [openMessage] := by
  refine (general_setStatus w openMessage true).trans ?_
  rw [hannounces, decide_eq_true h.symm]
  rfl

theorem general_announceClosed {w : SlackWriter} (hannounces : w.announces = true)
    (h : w.lastStatus ≠ closedMessage) :
    (w.take .slackAnnounceClosed).general = w.general ++ [closedMessage] := by
  refine (general_setStatus w closedMessage true).trans ?_
  rw [hannounces, decide_eq_true h.symm]
  rfl

/-! ### Announcements in order -/

/-- Directly before each message that the space is closed there is one that it is
    open. -/
def Ordered (messages : List Bytes) : Prop :=
  ∀ pre post, messages = pre ++ closedMessage :: post → pre.getLast? = some openMessage

theorem Ordered.nil : Ordered [] := by
  intro pre post h
  exact absurd h.symm (List.append_ne_nil_of_right_ne_nil pre (List.cons_ne_nil _ _))

theorem Ordered.snoc {messages : List Bytes} (h : Ordered messages) {message : Bytes}
    (hlast : message = closedMessage → messages.getLast? = some openMessage) :
    Ordered (messages ++ [message]) := by
  intro pre post heq
  rcases List.eq_nil_or_concat post with rfl | ⟨post, last, rfl⟩
  · obtain ⟨rfl, hmessage⟩ := List.append_inj' heq rfl
    exact hlast (List.cons.inj hmessage).1
  · rw [List.concat_eq_append, ← List.cons_append, ← List.append_assoc] at heq
    exact h pre post (List.append_inj' heq rfl).1

/-- What #general and `last_status` say about the state: an open space has been
    announced, and nothing is announced twice. -/
structure Told (w : SlackWriter) (state : State) : Prop where
  opened : w.lastStatus = openMessage → state = .open ∨ state = .locked
  closed : w.lastStatus = closedMessage → state = .locked
  space : state = .open → w.general.getLast? = some openMessage
  ordered : Ordered w.general

namespace Told

variable {w u : SlackWriter} {state state' : State}

theorem fresh (h : Told w .timedUnlock) : w.Fresh := by
  constructor
  · intro hopen
    rcases h.opened hopen with hstate | hstate <;> cases hstate
  · intro hclosed
    cases h.closed hclosed

/-- Something else has been sent since. -/
theorem quiet (h : Told w state) (hfresh : u.Fresh) (hgeneral : u.general = w.general)
    (hstate : state' = .open → state = .open) : Told u state' where
  opened hopen := absurd hopen hfresh.1
  closed hclosed := absurd hclosed hfresh.2
  space hopen := by
    rw [hgeneral]
    exact h.space (hstate hopen)
  ordered := by
    rw [hgeneral]
    exact h.ordered

/-- The space is announced to be open, and the handler has opened it, unless it
    locks the door at once. -/
theorem announceOpen (h : Told w state) (hannounces : w.announces = true)
    (hfresh : w.lastStatus ≠ openMessage) (hstate : state' = .open ∨ state' = .locked) :
    Told (w.take .slackAnnounceOpen) state' where
  opened _ := hstate
  closed hclosed := by
    rw [lastStatus_take] at hclosed
    exact absurd (show openMessage = closedMessage from hclosed) (by decide)
  space _ := by rw [general_announceOpen hannounces hfresh, List.getLast?_concat]
  ordered := by
    rw [general_announceOpen hannounces hfresh]
    exact h.ordered.snoc fun hmessage => absurd hmessage (by decide)

theorem take {call : Call} (h : Told w state) (hcall : Quiet call) : Told (w.take call) state := by
  cases htext : textOf call with
  | some text => exact h.quiet (hcall.fresh (.inl (by rw [htext]; rfl))) (hcall.general w) id
  | none =>
    have hlast : (w.take call).lastStatus = w.lastStatus := by
      rw [lastStatus_take, htext]
      rfl
    constructor
    · rw [hlast]
      exact h.opened
    · rw [hlast]
      exact h.closed
    · rw [hcall.general]
      exact h.space
    · rw [hcall.general]
      exact h.ordered

theorem exec {calls : List Call} (h : Told w state) (hcalls : ∀ call ∈ calls, Quiet call) :
    Told (Runs.exec SlackWriter.take w calls) state :=
  exec_invariant_of_forall SlackWriter.take Quiet (fun u => Told u state)
    (fun _ _ hu hcall => hu.take hcall) h hcalls

theorem announceClosed (h : Told w .open) (hannounces : w.announces = true)
    (hclosed : w.lastStatus ≠ closedMessage) : Told (w.take .slackAnnounceClosed) .locked where
  opened _ := .inr rfl
  closed _ := rfl
  space hopen := by cases hopen
  ordered := by
    rw [general_announceClosed hannounces hclosed]
    exact h.ordered.snoc fun _ => h.space rfl

end Told

end SlackWriter

/-! ### The calls of an iteration -/

namespace Controller

open SlackWriter

theorem quiet_message {text : Bytes} (h : text.take 3 ≠ openMessage.take 3)
    (h' : text.take 3 ≠ closedMessage.take 3) : Quiet (.slackSendMessage text) := by
  intro text' htext
  cases htext
  exact ⟨fun heq => h (congrArg (List.take 3) heq), fun heq => h' (congrArg (List.take 3) heq)⟩

theorem quiet_cardCalls (cardId : Bytes) (i : Input) (changeState : Bool) :
    ∀ call ∈ cardCalls cardId i changeState, Quiet call := by
  have hlast : ∀ call ∈ [Call.updateLastAccess i.access.userId], Quiet call :=
    List.forall_mem_singleton.mpr fun _ htext => by cases htext
  rw [cardCalls, List.forall_mem_append]
  refine ⟨?_, hlast⟩
  cases i.access.access with
  | allowed =>
    cases changeState <;>
      exact List.forall_mem_singleton.mpr (quiet_message (by decide) (by decide))
  | forbidden => exact List.forall_mem_singleton.mpr (quiet_message (by decide) (by decide))
  | unknown =>
    refine List.forall_mem_cons.mpr ⟨quiet_message ?_ ?_, ?_⟩
    · rw [List.append_assoc, List.take_append_of_le_length (by decide)]
      decide
    · rw [List.append_assoc, List.take_append_of_le_length (by decide)]
      decide
    · exact List.forall_mem_singleton.mpr fun _ htext => by cases htext
  | error => exact List.forall_mem_singleton.mpr (quiet_message (by decide) (by decide))

theorem quiet_leaveCalls : ∀ call ∈ leaveCalls, Quiet call :=
  List.forall_mem_singleton.mpr (quiet_message (by decide) (by decide))

/-- An action is answered by one message, which announces nothing. -/
theorem actionCalls_eq {action : Bytes} (h : action ≠ []) (lock : LockState) :
    ∃ text, actionCalls action lock = [.slackSendMessage text] ∧
      Quiet (.slackSendMessage text) := by
  rw [actionCalls, if_neg h]
  split
  · split
    · exact ⟨_, rfl, quiet_message (by decide) (by decide)⟩
    · exact ⟨_, rfl, quiet_message (by decide) (by decide)⟩
  split
  · exact ⟨_, rfl, quiet_message (by decide) (by decide)⟩
  · refine ⟨_, rfl, quiet_message ?_ ?_⟩
    · rw [List.append_assoc, List.take_append_of_le_length (by decide)]
      decide
    · rw [List.append_assoc, List.take_append_of_le_length (by decide)]
      decide

/-- What #general gets of an iteration. -/
def spaceNotices (v : View) (i : Input) : List Bytes :=
  match v.state with
  | .initial => []
  | .locked => if v.keys.white && i.thursday then [openMessage] else []
  | .open => if i.thursday && !v.keys.red then [] else [closedMessage]
  | .timedUnlock =>
    if v.keys.white && i.thursday && !v.unlockEnds i then [openMessage] else []

/-- The calls of a handler that finds `v`, and its new state, for Slack. -/
def Tells (v : View) (i : Input) : Prop :=
  ∀ w : SlackWriter, w.announces = true → Told w v.state →
    (exec take w (handledCalls v i)).general = w.general ++ spaceNotices v i ∧
      Told (exec take w (handledCalls v i)) (handledView v i).state

/-- Calls that announce nothing, after something else has been sent. -/
theorem told_quiet {w u : SlackWriter} {state state' : State} {calls : List Call}
    (h : Told w state) (hfresh : u.Fresh) (hgeneral : u.general = w.general)
    (hcalls : ∀ call ∈ calls, Quiet call) (hstate : state' = .open → state = .open) :
    (exec take u calls).general = w.general ++ [] ∧ Told (exec take u calls) state' := by
  obtain ⟨hsame, hstill⟩ := exec_quiet hcalls u
  rw [List.append_nil]
  exact ⟨hsame.trans hgeneral, h.quiet (hstill hfresh) (hsame.trans hgeneral) hstate⟩

theorem lockedView_state_ne_open {v : View} {i : Input} (hv : v.state = .locked)
    (hwhite : (v.keys.white && i.thursday) = false) : (lockedView v i).state ≠ .open := by
  rw [lockedView]
  split
  · exact State.noConfusion
  · rw [hwhite, hv]
    exact State.noConfusion

theorem tells_locked {v : View} {i : Input} (hv : v.state = .locked) : Tells v i := by
  intro w hannounces htold
  rw [hv] at htold
  rw [handledCalls, handledView, spaceNotices, hv]
  dsimp only
  rw [lockedCalls, exec_cons]
  -- whatever comes next, the status comes first
  generalize hstatus : w.take (.slackSetStatus (str ":lock: Door is locked")) = u
  have hquiet : Quiet (.slackSetStatus (str ":lock: Door is locked")) := by
    intro text htext
    cases htext
    decide
  have hfresh : u.Fresh := by
    rw [← hstatus]
    exact hquiet.fresh (.inl rfl)
  have hgeneral : u.general = w.general := by
    rw [← hstatus]
    exact hquiet.general w
  have hrest : ∀ calls, (∀ call ∈ calls, Quiet call) → (v.keys.white && i.thursday) = false →
      (exec take u calls).general = w.general ++ [] ∧
        Told (exec take u calls) (lockedView v i).state := by
    intro calls hcalls hwhite
    exact told_quiet htold hfresh hgeneral hcalls fun h =>
      absurd h (lockedView_state_ne_open hv hwhite)
  cases hwhite : v.keys.white with
  | true =>
    rw [if_pos rfl, Bool.true_and]
    rw [hwhite, Bool.true_and] at hrest
    cases hthursday : i.thursday with
    | true =>
      have hstill : u.announces = true := by
        rw [← hstatus, announces_take, hannounces]
      have hlocked : Told u .locked := htold.quiet hfresh hgeneral fun h => h
      have hopen : (lockedView v i).state = .open := by
        have hgrant : lockedGrant v i = none := if_pos hwhite
        rw [lockedView, hgrant, hwhite, hthursday]
        rfl
      rw [hopen, if_pos rfl, ← hgeneral]
      exact ⟨general_announceOpen hstill hfresh.1,
        hlocked.announceOpen hstill hfresh.1 (.inl rfl)⟩
    | false => exact hrest [] (List.forall_mem_nil _) hthursday
  | false =>
    rw [if_neg Bool.false_ne_true, Bool.false_and, if_neg Bool.false_ne_true]
    rw [hwhite, Bool.false_and] at hrest
    refine hrest _ ?_ rfl
    split
    · exact List.forall_mem_nil _
    split
    · exact quiet_cardCalls v.cardId i true
    split
    · exact quiet_leaveCalls
    · exact List.forall_mem_nil _

theorem tells_open {v : View} {i : Input} (hv : v.state = .open) : Tells v i := by
  intro w hannounces htold
  rw [hv] at htold
  rw [handledCalls, handledView, spaceNotices, hv]
  dsimp only
  rw [spaceCalls, exec_append, openView, hv]
  have hcards : ∀ call ∈ (if v.cardId ≠ [] then cardCalls v.cardId i false else []), Quiet call := by
    split
    · exact quiet_cardCalls v.cardId i false
    · exact List.forall_mem_nil _
  rw [(exec_quiet hcards _).1]
  cases i.thursday && !v.keys.red with
  | true => exact ⟨(List.append_nil _).symm, htold.exec hcards⟩
  | false =>
    have hclosed : w.lastStatus ≠ closedMessage := by
      intro h
      cases htold.closed h
    exact ⟨general_announceClosed hannounces hclosed, (htold.announceClosed hannounces hclosed).exec hcards⟩

/-- The timed unlock is not over, and White opens the space. -/
def View.opensSpace (v : View) (i : Input) : Bool :=
  v.keys.white && i.thursday && !v.unlockEnds i

theorem timedView_state {v : View} {i : Input} (hv : v.state = .timedUnlock) :
    (timedView v (v.unlockEnds i) i).state =
      if v.keys.leave then .timedUnlock
      else if v.unlockEnds i || v.timeout = invalidTimePoint then .locked
      else if v.opensSpace i then .open else .timedUnlock := by
  rw [timedView, View.opensSpace]
  cases v.keys.leave with
  | true => rfl
  | false =>
    rw [if_neg Bool.false_ne_true, if_neg Bool.false_ne_true]
    cases v.unlockEnds i with
    | true => rfl
    | false =>
      rw [Bool.not_false, Bool.and_true, Bool.false_or, hv]
      split <;> rfl

theorem tells_timedUnlock {v : View} {i : Input} (hv : v.state = .timedUnlock) : Tells v i := by
  intro w hannounces htold
  rw [hv] at htold
  have hopen : (if v.keys.white && !v.unlockEnds i then openCalls i.thursday else []) =
      if v.opensSpace i then [.slackAnnounceOpen] else [] := by
    rw [openCalls, View.opensSpace]
    cases v.keys.white <;> cases v.unlockEnds i <;> cases i.thursday <;> rfl
  have hleave : ∀ call ∈ (if v.keys.leave then leaveCalls else []), Quiet call := by
    split
    · exact quiet_leaveCalls
    · exact List.forall_mem_nil _
  rw [handledCalls, handledView, spaceNotices, hv]
  dsimp only
  rw [timedCalls, exec_append, hopen, timedView_state hv, (exec_quiet hleave _).1]
  change _ = w.general ++ (if v.opensSpace i then _ else _) ∧ _
  cases hspace : v.opensSpace i with
  | true =>
    have hends : v.unlockEnds i = false := by
      rw [View.opensSpace, Bool.and_eq_true] at hspace
      exact (Bool.not_eq_true' _).mp hspace.2
    refine ⟨general_announceOpen hannounces htold.fresh.1, ?_⟩
    rw [hends, Bool.false_or]
    cases v.keys.leave with
    | true =>
      have hmessage := quiet_leaveCalls _ List.mem_cons_self
      have hannounced := htold.announceOpen hannounces htold.fresh.1 (.inr rfl)
      exact hannounced.quiet (hmessage.fresh (.inl rfl)) (hmessage.general _) fun h => by cases h
    | false =>
      refine (htold.announceOpen hannounces htold.fresh.1 ?_)
      rw [if_neg Bool.false_ne_true, if_pos rfl]
      split
      · exact .inr rfl
      · exact .inl rfl
  | false =>
    refine ⟨(List.append_nil _).symm, (told_quiet htold htold.fresh rfl hleave ?_).2⟩
    intro h
    split at h
    · cases h
    split at h
    · cases h
    · cases h

theorem tells_initial {v : View} {i : Input} (hv : v.state = .initial) : Tells v i := by
  intro w _ htold
  rw [hv] at htold
  rw [handledCalls, handledView, spaceNotices, hv]
  refine ⟨(List.append_nil _).symm, fun _ => .inr rfl, fun _ => rfl, ?_, htold.ordered⟩
  intro h
  cases h

theorem tells (v : View) (i : Input) : Tells v i := by
  cases hv : v.state with
  | initial => exact tells_initial hv
  | locked => exact tells_locked hv
  | «open» => exact tells_open hv
  | timedUnlock => exact tells_timedUnlock hv

/-- A remote action never opens the space, and Slack gets a message of it. -/
theorem told_remote {w : SlackWriter} {c : Controller} (i : Input) (h : Told w c.state) :
    (exec take w (c.remoteCalls i)).general = w.general ∧
      Told (exec take w (c.remoteCalls i)) (c.foundView i).state := by
  rw [remoteCalls]
  by_cases hnone : c.remoteAction i = []
  · have hlock : ¬ (c.remoteAction i = str "lock" ∧ c.lock.state = .locked) := by
      rw [hnone]
      rintro ⟨h, -⟩
      exact absurd h (by decide)
    have hunlock : c.remoteAction i ≠ str "unlock" := by
      rw [hnone]
      decide
    rw [foundView, if_neg hlock, if_neg hunlock, hnone]
    exact ⟨rfl, h⟩
  · obtain ⟨text, heq, hquiet⟩ := actionCalls_eq hnone c.lock.state
    rw [heq]
    refine ⟨hquiet.general w, h.quiet (hquiet.fresh (.inl rfl)) (hquiet.general w) ?_⟩
    intro hopen
    rw [foundView] at hopen
    dsimp only at hopen
    split at hopen
    · cases hopen
    split at hopen
    · cases hopen
    · exact hopen

theorem state_iterate (c : Controller) (i : Input) :
    (c.iterate i).state = (handledView (c.foundView i) i).state := by
  have htimeout : ∀ v : View, (timeoutView v i).state = v.state := by
    intro v
    rw [timeoutView]
    split <;> rfl
  rw [← htimeout]
  exact congrArg View.state (view_iterate c i)

/-- **What an iteration tells #general.** -/
theorem told_iterate {w : SlackWriter} {c : Controller} (i : Input) (hannounces : w.announces = true)
    (h : Told w c.state) :
    (exec take w (c.iterate i).calls).general = w.general ++ spaceNotices (c.foundView i) i ∧
      Told (exec take w (c.iterate i).calls) (c.iterate i).state := by
  have hcalls : (c.iterate i).calls.filter Call.isOutward =
      c.remoteCalls i ++ handledCalls (c.foundView i) i := outward_iterate c i
  rw [← exec_take_filter, hcalls, exec_append, state_iterate]
  obtain ⟨hgeneral, hremote⟩ := told_remote i h
  rw [← hgeneral]
  exact tells _ i _ ((announces_exec w _).trans hannounces) hremote

end Controller

/-! ### In a run -/

def Event.calls (c : Controller) : Event → List Call
  | .query _ => []
  | .iterate i => (c.iterate i).calls

/-- What #general should get of the turn of a thread. -/
def Event.spaceNotices (c : Controller) : Event → List Bytes
  | .query _ => []
  | .iterate i => Controller.spaceNotices (c.foundView i) i

/-- The writer after a run of the controller. -/
def slackRun (w : SlackWriter) (events : List Event) : SlackWriter :=
  exec SlackWriter.take w (emitted step Event.calls {} events)

theorem slackRun_append (w : SlackWriter) (events more : List Event) :
    slackRun w (events ++ more) =
      exec SlackWriter.take (slackRun w events) (emitted step Event.calls (run events) more) := by
  rw [slackRun, emitted_append, exec_append]
  rfl

open SlackWriter

/-- Where messages are posted, #general has what the iterations should tell it. -/
theorem told_run {w : SlackWriter} (hannounces : w.announces = true) (h : Told w .initial)
    (hnone : w.general = []) (events : List Event) :
    (slackRun w events).general = emitted step Event.spaceNotices {} events ∧
      Told (slackRun w events) (run events).state := by
  induction events using List.reverseRecOn with
  | nil => exact ⟨hnone, h⟩
  | append_singleton events event ih =>
    obtain ⟨hgeneral, htold⟩ := ih
    have hrun : run (events ++ [event]) = step (run events) event := exec_snoc step {} events event
    rw [slackRun_append, emitted_append, emitted_cons, emitted_cons, emitted_nil, emitted_nil,
      List.append_nil, List.append_nil, ← hgeneral, hrun]
    cases event with
    | query reply => exact ⟨(List.append_nil _).symm, htold⟩
    | iterate i =>
      exact Controller.told_iterate i ((announces_exec w _).trans hannounces) htold

theorem general_of_not_announces {w : SlackWriter} (h : w.announces = false) (calls : List Call) :
    (exec take w calls).general = w.general := by
  refine (exec_invariant_of_forall take (fun _ => True)
    (fun u => u.announces = false ∧ u.general = w.general) ?_ ⟨h, rfl⟩ fun _ _ => trivial).2
  rintro u call ⟨hu, hgeneral⟩ _
  refine ⟨(announces_take u call).trans hu, Eq.trans ?_ hgeneral⟩
  cases call with
  | slackSetStatus status => exact (general_setStatus u status false).trans (List.append_nil _)
  | slackSendMessage message => exact (general_sendMessage u message false).trans (List.append_nil _)
  | slackAnnounceOpen =>
    refine (general_setStatus u openMessage true).trans ?_
    rw [hu]
    exact List.append_nil _
  | slackAnnounceClosed =>
    refine (general_setStatus u closedMessage true).trans ?_
    rw [hu]
    exact List.append_nil _
  | _ => rfl

/-! ### A locked door that nobody touches -/

/-- Nobody touches the buttons or the reader, and there is no remote action. -/
def Event.Idle : Event → Prop
  | .query reply => Gateway.doGetAction reply = []
  | .iterate i => i.pressed.white = false ∧ i.pressed.leave = false ∧ i.cardId = []

def Controller.Resting (c : Controller) : Prop :=
  c.state = .locked ∧ c.gateway.currentAction = []

def lockedStatus : Call := .slackSetStatus (str ":lock: Door is locked")

theorem Controller.Resting.step {c : Controller} {event : Event} (h : c.Resting)
    (hidle : event.Idle) : (Opi.step c event).Resting ∧
      ∀ call ∈ (event.calls c).filter Call.isOutward, call = lockedStatus := by
  cases event with
  | query reply => exact ⟨⟨h.1, hidle⟩, List.forall_mem_nil _⟩
  | iterate i =>
    obtain ⟨hwhite, hleave, hcard⟩ := hidle
    have haction : c.remoteAction i = [] := by
      rw [remoteAction, h.2]
      exact ite_self _
    have hfound : c.foundView i = { c.view with keys := i.pressed.read, cardId := i.cardId } := by
      rw [foundView, haction]
      rfl
    have hstate : (c.foundView i).state = .locked := by
      rw [hfound]
      exact h.1
    have hkeys : (c.foundView i).keys = i.pressed.read := congrArg View.keys hfound
    have hno : (c.foundView i).cardId = [] := (congrArg View.cardId hfound).trans hcard
    have hreadWhite : i.pressed.read.white = false := hwhite
    have hreadGreen : i.pressed.read.green = false := rfl
    have hreadLeave : i.pressed.read.leave = false := hleave
    constructor
    · refine ⟨(state_iterate c i).trans ?_, (iterate_spec c i).currentAction.trans h.2⟩
      rw [handledView, hstate]
      dsimp only
      rw [lockedView, lockedGrant, hkeys, hno, hreadWhite, hreadGreen, hreadLeave]
      exact hstate
    · have hcalls : (c.iterate i).calls.filter Call.isOutward =
          c.remoteCalls i ++ handledCalls (c.foundView i) i := outward_iterate c i
      rw [Event.calls, hcalls, remoteCalls, haction, handledCalls, hstate]
      dsimp only
      rw [lockedCalls, hkeys, hno, hreadWhite, hreadGreen, hreadLeave]
      exact List.forall_mem_singleton.mpr rfl

/-- The status is sent once, however often it is set. -/
theorem exec_lockedStatus (w : SlackWriter) {calls : List Call}
    (h : ∀ call ∈ calls, call = lockedStatus) :
    exec take w calls = w ∨ exec take w calls = w.take lockedStatus := by
  have htwice : (w.take lockedStatus).take lockedStatus = w.take lockedStatus := by
    have hlast := lastStatus_take w lockedStatus
    exact if_neg (not_not.mpr hlast.symm)
  refine exec_invariant_of_forall take (· = lockedStatus)
    (fun u => u = w ∨ u = w.take lockedStatus) ?_ (.inl rfl) h
  rintro u call (rfl | rfl) rfl
  · exact .inr rfl
  · exact .inr htwice

theorem sent_lockedStatus (w : SlackWriter) :
    (w.take lockedStatus).sent.length ≤ w.sent.length + 1 := by
  have hsent : (w.take lockedStatus).sent = if str ":lock: Door is locked" ≠ w.lastStatus then
      w.sent ++ [⟨if w.isTestMode then .testing else .privateMonitoring,
        str ":lock: Door is locked", !(!w.isActive || w.apiToken.isEmpty)⟩] else w.sent :=
    apply_ite SlackWriter.sent _ _ _
  rw [hsent]
  split
  · rw [List.length_append]
    exact Nat.le_refl _
  · exact Nat.le_succ _

/-- The options and the token with which messages for #general are posted. -/
def Announcing (useSlack inProd : Bool) (token : Bytes) : Prop :=
  useSlack = true ∧ inProd = true ∧ token ≠ []

instance (useSlack inProd : Bool) (token : Bytes) : Decidable (Announcing useSlack inProd token) :=
  inferInstanceAs (Decidable (_ ∧ _ ∧ _))

/-- What the members read about a run of the controller. -/
structure SlackFollows (useSlack inProd : Bool) (token : Bytes) (w : SlackWriter)
    (events : List Event) : Prop where
  /-- One post to #general for each time that the space is opened or closed, if
      anything is posted there. -/
  general : (slackRun w events).general =
    if Announcing useSlack inProd token then emitted step Event.spaceNotices {} events else []
  /-- A message is posted exactly with `--slack` and a token. -/
  posted : ∀ s ∈ (slackRun w events).sent, s.posted = (useSlack && !token.isEmpty)
  /-- It is never closed twice without having been opened in between. -/
  ordered : Ordered (slackRun w events).general
  /-- While the space is open, that is the last thing they have read. -/
  space : Announcing useSlack inProd token → (run events).state = .open →
    (slackRun w events).general.getLast? = some openMessage
  /-- A locked door that nobody touches is mentioned once, however long that lasts. -/
  idle : ∀ more, (run events).Resting → (∀ event ∈ more, event.Idle) →
    (slackRun w (events ++ more)).sent.length ≤ (slackRun w events).sent.length + 1

theorem idle_run {c : Controller} {more : List Event} (hrest : c.Resting)
    (hidle : ∀ event ∈ more, event.Idle) :
    ∀ call ∈ (emitted step Event.calls c more).filter Call.isOutward, call = lockedStatus := by
  induction more generalizing c with
  | nil => exact List.forall_mem_nil _
  | cons event more ih =>
    obtain ⟨hevent, hmore⟩ := List.forall_mem_cons.mp hidle
    obtain ⟨hnext, hcalls⟩ := hrest.step hevent
    rw [emitted_cons, List.filter_append, List.forall_mem_append]
    exact ⟨hcalls, ih hnext hmore⟩

theorem announces_started (useSlack inProd : Bool) (token version : Bytes) :
    (started useSlack inProd token version).announces =
      decide (Announcing useSlack inProd token) := by
  refine (announces_sendMessage _ _ false).trans ?_
  change (useSlack && !token.isEmpty && !(!inProd)) = _
  cases useSlack <;> cases inProd <;> cases token <;> rfl

theorem general_started (useSlack inProd : Bool) (token version : Bytes) :
    (started useSlack inProd token version).general = [] :=
  (general_sendMessage _ _ false).trans (List.append_nil _)

/-- The greeting announces nothing. -/
theorem told_started (useSlack inProd : Bool) (token version : Bytes) :
    Told (started useSlack inProd token version) .initial := by
  have hlast : (started useSlack inProd token version).lastStatus =
      str ":waiting: ACSv2 frontend " ++ version := lastStatus_sendMessage _ _ false
  have hne : ∀ text : Bytes, (str ":waiting: ACSv2 frontend ").take 2 ≠ text.take 2 →
      (started useSlack inProd token version).lastStatus ≠ text := by
    intro text hne heq
    rw [hlast] at heq
    have htake := congrArg (List.take 2) heq
    rw [List.take_append_of_le_length (by decide)] at htake
    exact hne htake
  constructor
  · exact fun h => absurd h (hne openMessage (by decide))
  · exact fun h => absurd h (hne closedMessage (by decide))
  · intro h
    cases h
  · rw [general_started]
    exact Ordered.nil

theorem posted_run (useSlack inProd : Bool) (token version : Bytes) (events : List Event) :
    ∀ s ∈ (slackRun (started useSlack inProd token version) events).sent,
      s.posted = (useSlack && !token.isEmpty) := by
  have hstart : Posts (useSlack && !token.isEmpty)
      (({ apiToken := token } : SlackWriter).setParams useSlack (!inProd)) :=
    ⟨rfl, List.forall_mem_nil _⟩
  exact (exec_invariant_of_forall take (fun _ => True) (Posts (useSlack && !token.isEmpty))
    (fun w call h _ => h.take call) (hstart.sendMessage _ false) fun _ _ => trivial).sent

/-- **What Slack gets follows the door.** -/
theorem slackFollows_run (useSlack inProd : Bool) (token version : Bytes) (events : List Event) :
    SlackFollows useSlack inProd token (started useSlack inProd token version) events := by
  have hannounces := announces_started useSlack inProd token version
  have hnone := general_started useSlack inProd token version
  have hidle : ∀ more, (run events).Resting → (∀ event ∈ more, event.Idle) →
      (slackRun (started useSlack inProd token version) (events ++ more)).sent.length ≤
        (slackRun (started useSlack inProd token version) events).sent.length + 1 := by
    intro more hrest hmore
    rw [slackRun_append, ← exec_take_filter]
    rcases exec_lockedStatus _ (idle_run hrest hmore) with heq | heq
    · rw [heq]
      exact Nat.le_succ _
    · rw [heq]
      exact sent_lockedStatus _
  have hposted := posted_run useSlack inProd token version events
  by_cases h : Announcing useSlack inProd token
  · obtain ⟨hgeneral, htold⟩ :=
      told_run (hannounces.trans (decide_eq_true h)) (told_started useSlack inProd token version)
        hnone events
    refine ⟨?_, hposted, htold.ordered, fun _ => htold.space, hidle⟩
    rw [if_pos h]
    exact hgeneral
  · have hgeneral : (slackRun (started useSlack inProd token version) events).general = [] :=
      (general_of_not_announces (hannounces.trans (decide_eq_false h)) _).trans hnone
    refine ⟨?_, hposted, ?_, fun hyes => absurd hyes h, hidle⟩
    · rw [if_neg h]
      exact hgeneral
    · rw [hgeneral]
      exact Ordered.nil

end Acs.Opi
