/-
  Acs/Opi/RemoteActions.lean
  ==========================
  **How often the Orange Pi frontend executes a remote action.**

  `get_action` leaves the action where it is, and it stays there until the next
  query, a minute later.  `update_gateway` comes at least every 15 seconds, and
  starts it each time.  So the actions are executed as often as they have been
  returned when there is a query between any two calls of `update_gateway` that
  find one, and where all queries return something else, only then
  (`atMostOnce_iff`).
-/
import Acs.Opi.Controller

namespace Acs.Opi

open Acs Runs

namespace Controller

/-! ### What an iteration does to the gateway -/

/-- The gateway and the executed actions are the same. -/
structure SameGateway (c c' : Controller) : Prop where
  gateway : c'.gateway = c.gateway
  executed : c'.executed = c.executed

namespace SameGateway

theorem trans {c c' c'' : Controller} (h : SameGateway c c') (h' : SameGateway c' c'') :
    SameGateway c c'' :=
  ⟨h'.gateway.trans h.gateway, h'.executed.trans h.executed⟩

/-- After steps that change neither by their definition. -/
theorem after {c c' c'' : Controller} (h : SameGateway c' c'')
    (hgateway : c'.gateway = c.gateway) (hexecuted : c'.executed = c.executed) :
    SameGateway c c'' :=
  trans ⟨hgateway, hexecuted⟩ h

theorem checkThursday (c : Controller) (i : Input) : SameGateway c (c.checkThursday i) := by
  rw [Controller.checkThursday]
  split <;> exact ⟨rfl, rfl⟩

theorem checkCard (c : Controller) (i : Input) (changeState : Bool) :
    SameGateway c (c.checkCard i changeState) := by
  rw [Controller.checkCard]
  cases i.access.access with
  | allowed => cases changeState <;> exact ⟨rfl, rfl⟩
  | _ => exact ⟨rfl, rfl⟩

theorem endOpenPeriod (c : Controller) (i : Input) : SameGateway c (c.endOpenPeriod i) := by
  rw [Controller.endOpenPeriod]
  split
  · exact ⟨rfl, rfl⟩
  · split <;> exact ⟨rfl, rfl⟩

theorem showTimeLeft (c : Controller) (i : Input) : SameGateway c (c.showTimeLeft i) := by
  rw [Controller.showTimeLeft]
  dsimp only
  split
  · cases c.simulate <;> exact ⟨rfl, rfl⟩
  · exact ⟨rfl, rfl⟩

theorem handleLocked (c : Controller) (i : Input) : SameGateway c (c.handleLocked i) := by
  rw [Controller.handleLocked]
  dsimp only
  split
  · exact (checkThursday _ i).after rfl rfl
  · split
    · exact ⟨rfl, rfl⟩
    · split
      · exact (checkCard _ i true).after rfl rfl
      · split <;> exact ⟨rfl, rfl⟩

theorem handleOpen (c : Controller) (i : Input) : SameGateway c (c.handleOpen i) := by
  rw [Controller.handleOpen]
  have hend := endOpenPeriod ((c.ensureLockState .open).emit (.setStatus (str "Open") .green)) i
  split
  · exact (hend.trans (checkCard _ i false)).after rfl rfl
  · exact hend.after rfl rfl

theorem leavePressed (c : Controller) : SameGateway c c.leavePressed := ⟨rfl, rfl⟩

theorem checkUnlock (c : Controller) (i : Input) : SameGateway c (c.checkUnlock i) := by
  rw [Controller.checkUnlock]
  split
  · exact ⟨rfl, rfl⟩
  · split
    · exact checkThursday c i
    · split
      · exact showTimeLeft c i
      · exact ⟨rfl, rfl⟩

theorem lockWithoutTimeout (c : Controller) : SameGateway c c.lockWithoutTimeout := by
  rw [Controller.lockWithoutTimeout]
  split <;> exact ⟨rfl, rfl⟩

theorem handleTimedUnlock (c : Controller) (i : Input) :
    SameGateway c (c.handleTimedUnlock i) := by
  have hunlocked := (checkUnlock (c.ensureLockState .open) i).trans (lockWithoutTimeout _)
  rw [Controller.handleTimedUnlock]
  split
  · exact (hunlocked.trans (leavePressed _)).after rfl rfl
  · exact hunlocked.after rfl rfl

theorem handle (c : Controller) (i : Input) : SameGateway c (c.handle i) := by
  rw [Controller.handle]
  split
  · exact ⟨rfl, rfl⟩
  · exact handleLocked c i
  · exact handleOpen c i
  · exact handleTimedUnlock c i

theorem readInputs (c : Controller) (i : Input) : SameGateway c (c.readInputs i) := by
  rw [Controller.readInputs]
  dsimp only
  split <;> exact ⟨rfl, rfl⟩

theorem noteChange (c : Controller) : SameGateway c c.noteChange := by
  rw [Controller.noteChange]
  split <;> exact ⟨rfl, rfl⟩

theorem logState (c : Controller) (oldState : State) : SameGateway c (c.logState oldState) := by
  rw [Controller.logState]
  split <;> exact ⟨rfl, rfl⟩

theorem logKeys (c : Controller) : SameGateway c c.logKeys := by
  rw [Controller.logKeys]
  split <;> exact ⟨rfl, rfl⟩

theorem setTimeout (c : Controller) (i : Input) : SameGateway c (c.setTimeout i) := by
  rw [Controller.setTimeout]
  split <;> exact ⟨rfl, rfl⟩

end SameGateway

/-- What `update_gateway` starts: the action that the last query has left. -/
def started (c : Controller) : List Execution :=
  if c.gateway.currentAction = [] then []
  else [⟨c.gateway.queries.length, c.gateway.currentAction⟩]

theorem startAction_spec (c : Controller) (action : Bytes) :
    (c.startAction action).gateway = c.gateway ∧
      (c.startAction action).executed = c.executed ++ [⟨c.gateway.queries.length, action⟩] := by
  rw [startAction]
  split
  · split <;> exact ⟨rfl, rfl⟩
  · split <;> exact ⟨rfl, rfl⟩

/-- Does the iteration call `update_gateway`? -/
def updates (c : Controller) (i : Input) : Bool := (c.readInputs i).gatewayUpdateNeeded i

/-- An iteration leaves the slot of the gateway as it is. -/
structure Iterated (c : Controller) (i : Input) (c' : Controller) : Prop where
  currentAction : c'.gateway.currentAction = c.gateway.currentAction
  queries : c'.gateway.queries = c.gateway.queries
  executed : c'.executed = c.executed ++ if c.updates i then c.started else []

theorem Iterated.executes {c c' : Controller} {i : Input} (h : Iterated c i c')
    (hupdates : c.updates i = true) (hsome : c.gateway.currentAction ≠ []) :
    c'.executed = c.executed ++ [⟨c.gateway.queries.length, c.gateway.currentAction⟩] := by
  rw [h.executed, if_pos hupdates, started, if_neg hsome]

theorem Iterated.executes_none {c c' : Controller} {i : Input} (h : Iterated c i c')
    (hnone : ¬ (c.updates i = true ∧ c.gateway.currentAction ≠ [])) :
    c'.executed = c.executed := by
  rw [h.executed]
  by_cases hupdates : c.updates i = true
  · have hempty : c.gateway.currentAction = [] := by
      by_contra hsome
      exact hnone ⟨hupdates, hsome⟩
    rw [if_pos hupdates, started, if_pos hempty, List.append_nil]
  · rw [if_neg hupdates, List.append_nil]

theorem checkAction_spec (c : Controller) :
    c.checkAction.gateway = c.gateway ∧ c.checkAction.executed = c.executed ++ c.started := by
  rw [checkAction, started, Gateway.getAction]
  by_cases hnone : c.gateway.currentAction = []
  · rw [if_pos hnone, if_pos hnone, List.append_nil]
    exact ⟨rfl, rfl⟩
  · rw [if_neg hnone, if_neg hnone]
    exact startAction_spec c c.gateway.currentAction

theorem updateGateway_spec (c : Controller) :
    c.updateGateway.gateway.currentAction = c.gateway.currentAction ∧
      c.updateGateway.gateway.queries = c.gateway.queries ∧
      c.updateGateway.executed = c.executed ++ c.started := by
  obtain ⟨hgateway, hexecuted⟩ := checkAction_spec c.setGatewayStatus
  have haction := congrArg Gateway.currentAction hgateway
  have hqueries := congrArg Gateway.queries hgateway
  exact ⟨haction, hqueries, hexecuted⟩

theorem iterate_spec (c : Controller) (i : Input) : Iterated c i (c.iterate i) := by
  have hread := SameGateway.readInputs c i
  have hnote := hread.trans (SameGateway.noteChange _)
  have hupdate : Iterated c i ((c.readInputs i).gatewayUpdate i) := by
    rw [gatewayUpdate]
    dsimp only
    by_cases hneeded : (c.readInputs i).gatewayUpdateNeeded i = true
    · rw [if_pos hneeded]
      obtain ⟨haction, hqueries, hexecuted⟩ := updateGateway_spec (c.readInputs i).noteChange
      refine ⟨?_, ?_, ?_⟩
      · exact haction.trans (congrArg Gateway.currentAction hnote.gateway)
      · exact hqueries.trans (congrArg Gateway.queries hnote.gateway)
      · have hstarted : (c.readInputs i).noteChange.started = c.started := by
          rw [started, started, hnote.gateway]
        rw [updates, if_pos hneeded, ← hstarted, ← hnote.executed]
        exact hexecuted
    · rw [if_neg hneeded]
      refine ⟨congrArg Gateway.currentAction hnote.gateway,
        congrArg Gateway.queries hnote.gateway, ?_⟩
      rw [updates, if_neg hneeded, List.append_nil]
      exact hnote.executed
  have hrest : SameGateway ((c.readInputs i).gatewayUpdate i) (c.iterate i) :=
    (((SameGateway.handle _ i).trans (SameGateway.logState _ _)).trans (SameGateway.logKeys _)).trans
      (SameGateway.setTimeout _ i)
  exact ⟨(congrArg Gateway.currentAction hrest.gateway).trans hupdate.currentAction,
    (congrArg Gateway.queries hrest.gateway).trans hupdate.queries,
    hrest.executed.trans hupdate.executed⟩

end Controller

/-! ### Executing an action once -/

open Controller

/-- What the queries of a run have returned. -/
def queried (events : List Event) : List (Option Bytes) :=
  events.filterMap fun
    | .query reply => some reply
    | .iterate _ => none

/-- At all times an action has been executed at most as often as queries have
    returned it. -/
def AtMostOnce (events : List Event) : Prop :=
  ∀ pre, pre <+: events → ∀ action,
    ((run pre).executed.map Execution.action).count action ≤ (queried pre).count (some action)

/-- Between two calls of `update_gateway`, of which the second finds an action, there
    is a query. -/
def QueryBetween (events : List Event) : Prop :=
  ∀ pre i mid j post, events = pre ++ .iterate i :: (mid ++ .iterate j :: post) →
    (run pre).updates i = true → (run (pre ++ .iterate i :: mid)).updates j = true →
    (run (pre ++ .iterate i :: mid)).gateway.currentAction ≠ [] → queried mid ≠ []

/-- What the last query has returned has not been executed. -/
def Controller.Fresh (c : Controller) : Prop :=
  ∀ e ∈ c.executed, e.query ≠ c.gateway.queries.length

/-- An update of the gateway does not find an action that has been executed since
    the query that returned it. -/
def NotExecutedYet (c : Controller) : Event → Prop
  | .query _ => True
  | .iterate i => c.updates i = true → c.gateway.currentAction ≠ [] → c.Fresh

theorem queries_run (events : List Event) : (run events).gateway.queries = queried events := by
  induction events using List.reverseRecOn with
  | nil => rfl
  | append_singleton events event ih =>
    rw [run] at ih
    rw [run, Runs.exec_snoc, queried, List.filterMap_append, ← queried, ← ih]
    cases event with
    | query reply => rfl
    | iterate i =>
      rw [List.filterMap_cons_none rfl, List.filterMap_nil, List.append_nil]
      exact (iterate_spec _ i).queries

/-- The executed actions, as replies. -/
def Controller.executedReplies (c : Controller) : List (Option Bytes) :=
  c.executed.map fun e => some e.action

/-- The executed actions are among the replies, in their order; a fresh reply is not
    among them. -/
structure Matched (c : Controller) : Prop where
  current : c.gateway.currentAction = (c.gateway.queries.getLast?.join).getD []
  among : c.executedReplies.Sublist c.gateway.queries
  earlier : c.Fresh → c.executedReplies.Sublist c.gateway.queries.dropLast

namespace Matched

theorem query {c : Controller} (h : Matched c) (reply : Option Bytes) :
    Matched (step c (.query reply)) := by
  refine ⟨?_, h.among.trans (List.sublist_append_left _ _), fun _ => ?_⟩
  · have hlast : (c.gateway.queries ++ [reply]).getLast? = some reply := List.getLast?_concat
    have hgoal : (step c (.query reply)).gateway.queries = c.gateway.queries ++ [reply] := rfl
    rw [hgoal, hlast]
    rfl
  · have hgoal : (step c (.query reply)).gateway.queries = c.gateway.queries ++ [reply] := rfl
    rw [hgoal, List.dropLast_concat]
    exact h.among

/-- An action that is left was returned by the last query. -/
theorem last_eq {c : Controller} (h : Matched c) (hsome : c.gateway.currentAction ≠ []) :
    c.gateway.queries.dropLast ++ [some c.gateway.currentAction] = c.gateway.queries := by
  have hcurrent := h.current
  cases hlast : c.gateway.queries.getLast? with
  | none =>
    rw [hlast] at hcurrent
    exact absurd hcurrent hsome
  | some reply =>
    rw [hlast] at hcurrent
    cases reply with
    | none => exact absurd hcurrent hsome
    | some action =>
      have haction : c.gateway.currentAction = action := hcurrent
      rw [haction]
      exact List.dropLast_append_getLast? _ hlast

/-- Nothing has been started. -/
theorem same {c c' : Controller} (h : Matched c)
    (haction : c'.gateway.currentAction = c.gateway.currentAction)
    (hqueries : c'.gateway.queries = c.gateway.queries) (hexecuted : c'.executed = c.executed) :
    Matched c' := by
  refine ⟨?_, ?_, ?_⟩
  · rw [haction, hqueries]
    exact h.current
  · rw [executedReplies, hexecuted, hqueries]
    exact h.among
  · rw [Fresh, executedReplies, hexecuted, hqueries]
    exact h.earlier

/-- A fresh reply has been started. -/
theorem execute {c c' : Controller} (h : Matched c) (hfresh : c.Fresh)
    (hsome : c.gateway.currentAction ≠ [])
    (haction : c'.gateway.currentAction = c.gateway.currentAction)
    (hqueries : c'.gateway.queries = c.gateway.queries)
    (hexecuted : c'.executed =
      c.executed ++ [⟨c.gateway.queries.length, c.gateway.currentAction⟩]) : Matched c' := by
  refine ⟨?_, ?_, ?_⟩
  · rw [haction, hqueries]
    exact h.current
  · have hsub := (h.earlier hfresh).append_right [some c.gateway.currentAction]
    rw [h.last_eq hsome] at hsub
    rw [executedReplies, hexecuted, hqueries, List.map_append]
    exact hsub
  · intro hfresh'
    have hmem : (⟨c.gateway.queries.length, c.gateway.currentAction⟩ : Execution) ∈
        c'.executed := by
      rw [hexecuted]
      exact List.mem_append_right _ (List.mem_singleton.mpr rfl)
    exact absurd (congrArg List.length hqueries).symm (hfresh' _ hmem)

theorem iterate {c : Controller} (h : Matched c) (i : Input)
    (hnot : NotExecutedYet c (.iterate i)) : Matched (step c (.iterate i)) := by
  have hspec : Iterated c i (step c (.iterate i)) := iterate_spec c i
  by_cases hstarts : c.updates i = true ∧ c.gateway.currentAction ≠ []
  · obtain ⟨hupdates, hsome⟩ := hstarts
    exact h.execute (hnot hupdates hsome) hsome hspec.currentAction hspec.queries
      (hspec.executes hupdates hsome)
  · exact h.same hspec.currentAction hspec.queries (hspec.executes_none hstarts)

theorem step {c : Controller} (h : Matched c) (event : Event) (hnot : NotExecutedYet c event) :
    Matched (step c event) := by
  cases event with
  | query reply => exact h.query reply
  | iterate i => exact h.iterate i hnot

theorem run {events : List Event} (hnot : Along Opi.step NotExecutedYet {} events) :
    Matched (run events) := by
  refine exec_invariant Opi.step NotExecutedYet Matched (fun c event h => h.step event) ?_ hnot
  exact ⟨rfl, List.Sublist.refl _, fun _ => List.Sublist.refl _⟩

end Matched

theorem executed_prefix (c : Controller) (events : List Event) :
    c.executed <+: (exec step c events).executed := by
  refine exec_invariant_of_forall step (fun _ => True) (fun c' => c.executed <+: c'.executed) ?_
    (List.prefix_refl _) (fun _ _ => trivial)
  intro c' event hinit _
  cases event with
  | query reply => exact hinit
  | iterate i =>
    have hspec : Iterated c' i (step c' (.iterate i)) := iterate_spec c' i
    rw [hspec.executed]
    exact hinit.trans (List.prefix_append _ _)

/-! ### The calls of `update_gateway` -/

theorem queried_append (events more : List Event) :
    queried (events ++ more) = queried events ++ queried more := List.filterMap_append ..

/-- The slot has what the last query has returned. -/
theorem currentAction_run (events : List Event) :
    (run events).gateway.currentAction = ((queried events).getLast?.join).getD [] := by
  induction events using List.reverseRecOn with
  | nil => rfl
  | append_singleton events event ih =>
    rw [run] at ih
    rw [run, Runs.exec_snoc, queried_append]
    cases event with
    | query reply =>
      have hlast : (queried events ++ queried [.query reply]).getLast? = some reply :=
        List.getLast?_concat
      rw [hlast]
      rfl
    | iterate i =>
      rw [show queried [Event.iterate i] = [] from rfl, List.append_nil, ← ih]
      exact (iterate_spec _ i).currentAction

/-- What has been executed was started in an iteration before. -/
theorem exists_of_mem_executed {events : List Event} {e : Execution}
    (he : e ∈ (run events).executed) :
    ∃ pre i mid, events = pre ++ .iterate i :: mid ∧ (run pre).updates i = true ∧
      e.query = (queried pre).length := by
  induction events using List.reverseRecOn with
  | nil => exact absurd he List.not_mem_nil
  | append_singleton events event ih =>
    have hold : e ∈ (run events).executed → ∃ pre i mid,
        events ++ [event] = pre ++ .iterate i :: mid ∧ (run pre).updates i = true ∧
          e.query = (queried pre).length := by
      intro hmem
      obtain ⟨pre, i, mid, rfl, hupdates, hquery⟩ := ih hmem
      exact ⟨pre, i, mid ++ [event], by rw [List.append_assoc, List.cons_append], hupdates, hquery⟩
    rw [run, Runs.exec_snoc, ← run] at he
    cases event with
    | query reply => exact hold he
    | iterate i =>
      have hspec : Iterated (run events) i (step (run events) (.iterate i)) := iterate_spec _ i
      by_cases hstarts : (run events).updates i = true ∧ (run events).gateway.currentAction ≠ []
      · rw [hspec.executes hstarts.1 hstarts.2, List.mem_append, List.mem_singleton] at he
        rcases he with he | rfl
        · exact hold he
        · exact ⟨events, i, [], rfl, hstarts.1, by rw [← queries_run]⟩
      · rw [hspec.executes_none hstarts] at he
        exact hold he

/-- With a query between two calls that find an action, none finds one that has been
    executed. -/
theorem notExecutedYet_of_queryBetween {events : List Event} (h : QueryBetween events) :
    Along step NotExecutedYet {} events := by
  rw [along_iff]
  rintro before (reply | j) post hsplit
  · trivial
  intro hupdates hsome e he hquery
  obtain ⟨pre, i, mid, rfl, hfirst, hturn⟩ := exists_of_mem_executed he
  rw [List.append_assoc, List.cons_append] at hsplit
  -- the query of the execution is the last one
  have hlength : (queried (pre ++ .iterate i :: mid)).length = (queried pre).length := by
    rw [← queries_run, ← hturn, hquery]
    rfl
  have hnone : queried mid = [] := by
    have hmid : queried (.iterate i :: mid) = queried mid := rfl
    rw [queried_append, List.length_append, hmid] at hlength
    exact List.length_eq_zero_iff.mp (by omega)
  exact h pre i mid j post hsplit hfirst hupdates hsome hnone

theorem count_of_matched {events : List Event} (h : Matched (run events)) (action : Bytes) :
    ((run events).executed.map Execution.action).count action ≤
      (queried events).count (some action) := by
  have hcount := h.among.count_le (some action)
  rw [queries_run, executedReplies] at hcount
  have hmap : (run events).executed.map (fun e => some e.action) =
      ((run events).executed.map Execution.action).map some := by
    rw [List.map_map]
    rfl
  rw [hmap, List.count_map_of_injective _ _ (Option.some_injective _)] at hcount
  exact hcount

/-- Two calls that find the same action execute it twice. -/
theorem two_le_count {pre mid : List Event} {i j : Input}
    (hfirst : (run pre).updates i = true)
    (hsecond : (run (pre ++ .iterate i :: mid)).updates j = true)
    (hsome : (run (pre ++ .iterate i :: mid)).gateway.currentAction ≠ [])
    (hnone : queried mid = []) :
    2 ≤ ((run (pre ++ .iterate i :: mid ++ [.iterate j])).executed.map Execution.action).count
      (run (pre ++ .iterate i :: mid)).gateway.currentAction := by
  have hsame : (run (pre ++ .iterate i :: mid)).gateway.currentAction =
      (run pre).gateway.currentAction := by
    have hmid : queried (.iterate i :: mid) = [] := hnone
    rw [currentAction_run, currentAction_run, queried_append, hmid, List.append_nil]
  have hone : Iterated (run pre) i (step (run pre) (.iterate i)) := iterate_spec _ i
  have htwo : Iterated (run (pre ++ .iterate i :: mid)) j
      (step (run (pre ++ .iterate i :: mid)) (.iterate j)) := iterate_spec _ j
  have hbetween : (step (run pre) (.iterate i)).executed <+:
      (run (pre ++ .iterate i :: mid)).executed := by
    have hmid := executed_prefix (step (run pre) (.iterate i)) mid
    rwa [run, ← exec_cons, ← exec_append] at hmid
  have hcount := (hbetween.sublist.map Execution.action).count_le
    (run (pre ++ .iterate i :: mid)).gateway.currentAction
  rw [hone.executes hfirst (hsame ▸ hsome), List.map_append, List.count_append,
    List.map_singleton, ← hsame, List.count_singleton_self] at hcount
  have hlast : (run (pre ++ .iterate i :: mid ++ [.iterate j])).executed = _ :=
    (congrArg Controller.executed (exec_snoc step {} (pre ++ .iterate i :: mid) (.iterate j))).trans
      (htwo.executes hsecond hsome)
  rw [hlast, List.map_append, List.count_append, List.map_singleton, List.count_singleton_self]
  omega

/-- **How often remote actions are executed**: at most as often as they have been
    returned, if there is a query between any two calls of `update_gateway` that
    find one; and if no two queries return the same action, only then. -/
theorem atMostOnce_iff (events : List Event) :
    (QueryBetween events → AtMostOnce events) ∧
      ((∀ action, (queried events).count (some action) ≤ 1) →
        AtMostOnce events → QueryBetween events) := by
  constructor
  · rintro h pre ⟨post, rfl⟩ action
    have hrun := notExecutedYet_of_queryBetween h
    exact count_of_matched (Matched.run (along_append.mp hrun).1) action
  · intro hdistinct h pre i mid j post hsplit hfirst hsecond hsome hnone
    have hprefix : pre ++ .iterate i :: mid ++ [.iterate j] <+: events := by
      rw [hsplit]
      exact ⟨post, by simp⟩
    have htwo := two_le_count hfirst hsecond hsome hnone
    have hle := h _ hprefix (run (pre ++ .iterate i :: mid)).gateway.currentAction
    have hone := hdistinct (run (pre ++ .iterate i :: mid)).gateway.currentAction
    have hqueries : queried (pre ++ .iterate i :: mid ++ [.iterate j]) <+: queried events := by
      obtain ⟨rest, rfl⟩ := hprefix
      exact ⟨queried rest, (queried_append _ rest).symm⟩
    have hfew := hqueries.sublist.count_le
      (some (run (pre ++ .iterate i :: mid)).gateway.currentAction)
    omega

/-- One query returns `unlock`; the iterations are 16 seconds apart. -/
def unlockedTwice : List Event :=
  [.query (some (str "unlock")),
   .iterate { updateTime := seconds 100, updatedTime := seconds 100 },
   .iterate { updateTime := seconds 116, updatedTime := seconds 116 }]

theorem not_atMostOnce : ¬ ∀ events, AtMostOnce events := by
  intro h
  have hcount := h unlockedTwice unlockedTwice (List.prefix_refl _) (str "unlock")
  have hexecuted : (run unlockedTwice).executed.map Execution.action =
      [str "unlock", str "unlock"] := by decide
  have hqueried : queried unlockedTwice = [some (str "unlock")] := rfl
  rw [hexecuted, hqueried] at hcount
  exact absurd hcount (by decide)

end Acs.Opi
