/-
  Acs/Barn/Relocking.lean
  =======================
  **The barn doors are locked again** — unless a call raises in between.

  The lock is opened and closed by two statements with four calls between them
  and no `finally`.  The gateway and Slack swallow the exceptions of their
  requests; the display does not, and neither do their own handlers, which
  print.  When one of these raises, the turn ends with the lock open, and the
  process with it (`relocked_iff`).
-/
import Acs.Barn.Main

namespace Acs.Barn

open Acs Effects

/-- Every `set_lock(True)` is followed by a `set_lock(False)`. -/
def Relocked (calls : List Call) : Prop :=
  ∀ pre post, calls = pre ++ .setLock true :: post → .setLock false ∈ post

theorem relocked_nil : Relocked [] := by
  intro pre post h
  exact absurd h.symm (List.append_ne_nil_of_right_ne_nil pre (List.cons_ne_nil _ _))

theorem relocked_snoc_false (calls : List Call) : Relocked (calls ++ [.setLock false]) := by
  intro pre post h
  rcases List.eq_nil_or_concat post with rfl | ⟨post, last, rfl⟩
  · exact absurd (List.append_inj' h rfl).2 (by decide)
  · rw [List.concat_eq_append, ← List.cons_append, ← List.append_assoc] at h
    obtain ⟨_, hlast⟩ := List.append_inj' h rfl
    rw [List.concat_eq_append, ← hlast]
    exact List.mem_append_right post (List.mem_singleton.mpr rfl)

theorem not_relocked_snoc_true (calls : List Call) : ¬ Relocked (calls ++ [.setLock true]) := by
  intro h
  exact List.not_mem_nil (h calls [] rfl)

theorem Relocked.snoc_checkCard {calls : List Call} (h : Relocked calls) (cardId : String) :
    Relocked (calls ++ [.checkCard cardId]) := by
  intro pre post heq
  rcases List.eq_nil_or_concat post with rfl | ⟨post, last, rfl⟩
  · exact absurd (List.append_inj' heq rfl).2 (by simp)
  · rw [List.concat_eq_append, ← List.cons_append, ← List.append_assoc] at heq
    obtain ⟨hcalls, _⟩ := List.append_inj' heq rfl
    rw [List.concat_eq_append]
    exact List.mem_append_left _ (h pre post hcalls)

/-! ### Which calls raise -/

/-- The request or the `print` for a bad status raises, and so does the handler. -/
def GatewayCall.raises (c : GatewayCall) : Bool :=
  (match c.post with
    | none => true
    | some statusCode => statusCode != 200 && c.badPrint) && c.print

/-- Only the second and the third log are swallowed. -/
def SlackCall.raises (c : SlackCall) : Bool :=
  c.before.raises || ((c.post == none || c.retcode.raises) && c.failed.raises)

theorem log_eq (c : GatewayCall) (s : State) :
    Gateway.log c s = if c.raises then .error .call s else .ok () s := by
  obtain ⟨post, badPrint, print⟩ := c
  cases post with
  | none => cases print <;> rfl
  | some statusCode =>
    by_cases hstatus : statusCode = 200
    · subst hstatus
      cases print <;> rfl
    · have hbad : ∀ handler : Raised → Action Unit,
          (tryCatch (onlyIf (statusCode ≠ 200) (call badPrint)) handler : Action Unit) s =
            if badPrint then handler .call s else .ok () s := by
        intro handler
        rw [onlyIf, if_pos hstatus]
        cases badPrint <;> rfl
      have hraises : GatewayCall.raises ⟨some statusCode, badPrint, print⟩ = (badPrint && print) := by
        have hbne : (statusCode != 200) = true := bne_iff_ne.mpr hstatus
        simp [GatewayCall.raises, hbne]
      rw [hraises]
      refine (hbad _).trans ?_
      cases badPrint <;> cases print <;> rfl

theorem log_ok {c : GatewayCall} (h : c.raises = false) (s : State) :
    Gateway.log c s = .ok () s := by
  rw [log_eq, h]
  rfl

theorem log_error {c : GatewayCall} (h : c.raises = true) (s : State) :
    Gateway.log c s = .error .call s := by
  rw [log_eq, h]
  rfl

/-- The request with the log of its status. -/
theorem posted_eq (c : SlackCall) (s : State) :
    (do let _ ← orRaise .call c.post; Gateway.log c.retcode : Action Unit) s =
      if c.post == none || c.retcode.raises then .error .call s else .ok () s := by
  cases c.post with
  | none => rfl
  | some statusCode => exact log_eq c.retcode s

theorem sendMessage_eq (c : SlackCall) (s : State) :
    Slack.sendMessage c s = if c.raises then .error .call s else .ok () s := by
  have hposted := posted_eq c s
  rw [Slack.sendMessage, SlackCall.raises]
  cases hbefore : c.before.raises with
  | true =>
    rw [bind_error (log_error hbefore s)]
    rfl
  | false =>
    rw [bind_ok (log_ok hbefore s)]
    cases hfailed : (c.post == none || c.retcode.raises) with
    | true =>
      rw [hfailed, if_pos rfl] at hposted
      rw [tryCatch_error hposted, log_eq, Bool.false_or, Bool.true_and]
    | false =>
      rw [hfailed, if_neg Bool.false_ne_true] at hposted
      rw [tryCatch_ok hposted]
      rfl

/-- A status that Slack has already is not sent. -/
theorem setStatus_eq {status : String} (hstatus : status ≠ "") (c : SlackCall) (s : State) :
    Slack.setStatus (some status) c s =
      if s.lastStatus = some status then .ok () s
      else if c.raises then .error .call s else .ok () { s with lastStatus := some status } := by
  by_cases hsame : s.lastStatus = some status
  · rw [if_pos hsame]
    change onlyIf (some status ≠ s.lastStatus) _ s = _
    rw [onlyIf, if_neg (not_not_intro hsame.symm)]
    rfl
  · rw [if_neg hsame]
    have hsend := sendMessage_eq c s
    change onlyIf (some status ≠ s.lastStatus) _ s = _
    rw [onlyIf, if_pos (Ne.symm hsame), onlyIf,
      if_pos ⟨Option.some_ne_none status, fun h => hstatus (Option.some.inj h)⟩]
    cases hraises : c.raises with
    | true =>
      rw [hraises, if_pos rfl] at hsend
      rw [bind_error hsend]
      rfl
    | false =>
      rw [hraises, if_neg Bool.false_ne_true] at hsend
      rw [bind_ok hsend]
      rfl

theorem setStatus_ok {status : String} (hstatus : status ≠ "") {c : SlackCall} {s : State}
    (h : s.lastStatus = some status ∨ c.raises = false) :
    ∃ t, Slack.setStatus (some status) c s = .ok () t ∧ t.calls = s.calls := by
  rw [setStatus_eq hstatus]
  split
  · exact ⟨s, rfl, rfl⟩
  · next hnew =>
    rw [h.resolve_left hnew, if_neg Bool.false_ne_true]
    exact ⟨_, rfl, rfl⟩

theorem setStatus_error {status : String} (hstatus : status ≠ "") {c : SlackCall} {s : State}
    (h : ¬ (s.lastStatus = some status ∨ c.raises = false)) :
    Slack.setStatus (some status) c s = .error .call s := by
  obtain ⟨hnew, hraises⟩ := not_or.mp h
  rw [setStatus_eq hstatus, if_neg hnew, if_pos (Bool.of_not_eq_false hraises)]

/-! ### The lock is open for ten seconds -/

/-- No call between `set_lock(True)` and `set_lock(False)` raises. -/
def Cycle.Undisturbed (c : Cycle) (status : String) (s : State) : Prop :=
  (s.lastStatus = some status ∨ c.status.raises = false) ∧
    c.unlocked.raises = false ∧ c.closing = false

/-- `unlock` from the first call after `set_lock(True)` on. -/
def whileOpen (status : String) (c : Cycle) : Action Unit := do
  Slack.setStatus (some status) c.status
  Gateway.log c.unlocked
  println c.closing
  setLock false
  Gateway.log c.locked

theorem unlock_eq (status : String) (c : Cycle) : unlock status c = (do
    println c.opening
    setLock true
    whileOpen status c) := rfl

/-- An open lock is closed exactly if nothing raises before. -/
theorem relocked_whileOpen {status : String} (hstatus : status ≠ "") (c : Cycle) {s : State}
    (hopen : ¬ Relocked s.calls) :
    (Relocked (final (whileOpen status c s)).calls ↔ c.Undisturbed status s) ∧
      ∀ a t, whileOpen status c s = .ok a t → Relocked t.calls := by
  rw [whileOpen]
  by_cases hset : s.lastStatus = some status ∨ c.status.raises = false
  · obtain ⟨t, hok, hcalls⟩ := setStatus_ok hstatus hset
    rw [← hcalls] at hopen
    rw [bind_ok hok]
    cases hunlocked : c.unlocked.raises with
    | true =>
      rw [bind_error (log_error hunlocked t)]
      refine ⟨iff_of_false hopen ?_, fun _ _ h => nomatch h⟩
      rintro ⟨_, hquiet, _⟩
      exact absurd (hunlocked.symm.trans hquiet) (by decide)
    | false =>
      rw [bind_ok (log_ok hunlocked t)]
      cases hclosing : c.closing with
      | true =>
        have hprint : println true t = .error .call t := rfl
        rw [bind_error hprint]
        refine ⟨iff_of_false hopen ?_, fun _ _ h => nomatch h⟩
        rintro ⟨_, _, hquiet⟩
        exact absurd (hclosing.symm.trans hquiet) (by decide)
      | false =>
        have hprint : println false t = .ok () t := rfl
        rw [bind_ok hprint]
        have hlocked : setLock false t = .ok () (t.record (.setLock false)) := rfl
        rw [bind_ok hlocked]
        -- the lock is closed now, and the last log leaves it so
        have hkeep := @keeps_log (fun u => Relocked u.calls) c.locked (t.record (.setLock false))
          (relocked_snoc_false t.calls)
        refine ⟨iff_of_true hkeep.1 ⟨hset, hunlocked, hclosing⟩, ?_⟩
        intro a u hrun
        have hfinal := hkeep.1
        rw [hrun] at hfinal
        exact hfinal
  · rw [bind_error (setStatus_error hstatus hset)]
    refine ⟨iff_of_false hopen ?_, fun _ _ h => nomatch h⟩
    rintro ⟨hquiet, _, _⟩
    exact hset hquiet

/-- **A cycle of the lock**: it ends locked exactly if it does not begin, or
    nothing in it raises while the lock is open. -/
theorem keepsIff_unlock {status : String} (hstatus : status ≠ "") (c : Cycle) :
    KeepsIff (fun s => Relocked s.calls) (unlock status c) fun s =>
      c.opening = false → c.Undisturbed status s := by
  intro s hs
  rw [unlock_eq]
  cases hopening : c.opening with
  | true =>
    have hprint : println true s = .error .call s := rfl
    rw [bind_error hprint]
    exact ⟨iff_of_true hs (fun h => nomatch h), fun _ _ h => nomatch h⟩
  | false =>
    have hprint : println false s = .ok () s := rfl
    have hopened : setLock true s = .ok () (s.record (.setLock true)) := rfl
    rw [bind_ok hprint, bind_ok hopened]
    have hopen : ¬ Relocked (s.record (.setLock true)).calls := not_relocked_snoc_true s.calls
    obtain ⟨hiff, hok⟩ := relocked_whileOpen hstatus c hopen
    exact ⟨hiff.trans ⟨fun h _ => h, fun h => h rfl⟩, hok⟩

/-! ### A turn -/

theorem kept_relocked : Kept (fun s => Relocked s.calls) fun _ => True where
  vars s t _ hcalls hs := by rwa [hcalls]
  getid _ _ hs := ⟨hs, trivial⟩
  check _ cardId hs _ _ := hs.snoc_checkCard cardId

/-- If the card opens the lock, nothing raises while it is open. -/
def CardTurn.Undisturbed (p : Place) (i : CardTurn) (s : State) : Prop :=
  ∀ t, approve p i s = .ok (.found true) t → i.cycle.opening = false →
    i.cycle.Undisturbed p.valid t

theorem keepsIff_card {p : Place} {i : CardTurn} (hvalid : p.valid ≠ "")
    (hhandler : Keeps (fun s => Relocked s.calls) (p.handler i) fun _ => True) :
    KeepsIff (fun s => Relocked s.calls) (card p i) (i.Undisturbed p) := by
  have hproceed : ∀ v, KeepsIff (fun s => Relocked s.calls) (proceed p i v) fun t =>
      v = .found true → i.cycle.opening = false → i.cycle.Undisturbed p.valid t := by
    intro v
    cases v with
    | passed passed => exact keepsIff_pure fun _ h => nomatch h
    | found userApproved =>
      have hreport : Keeps (fun s => Relocked s.calls)
          (do report p i; pure .handled : Action Passed) fun _ => True :=
        (kept_relocked.report hhandler).bind fun _ _ => keeps_pure trivial
      cases userApproved with
      | true =>
        apply ((keepsIff_unlock hvalid i.cycle).bind_keeps fun _ => hreport).congr
        intro s
        exact ⟨fun h _ => h, fun h => h rfl⟩
      | false =>
        apply hreport.keepsIff.congr
        intro s
        exact iff_of_true trivial (fun h => nomatch h)
  apply ((kept_relocked.approve p i).bind_keepsIff hproceed).congr
  intro s
  constructor
  · intro h t happrove
    exact h (.found true) t happrove rfl
  · rintro h v t happrove rfl
    exact h t happrove

/-- The card and the button each open the lock only with nothing that raises. -/
def DoorTurn.Undisturbed (i : DoorTurn) (s : State) : Prop :=
  ∀ s₁, Barn.watch i.watch s = .ok () s₁ →
    i.card.Undisturbed barnDoor s₁ ∧
    ∀ passed t, Barn.card barnDoor i.card s₁ = .ok passed t → passed ≠ .continued →
      i.pressed = true → i.button.opening = false →
        i.button.Undisturbed ":ladeport: BarnDoor: Unlocking" t

def WoodshopTurn.Undisturbed (i : WoodshopTurn) (s : State) : Prop :=
  i.card.Undisturbed woodshop s

theorem keepsIff_doorTurn (i : DoorTurn) :
    KeepsIff (fun s => Relocked s.calls) (doorTurn i) i.Undisturbed := by
  have hbutton : KeepsIff (fun s => Relocked s.calls)
      (onlyIf i.pressed (unlock ":ladeport: BarnDoor: Unlocking" i.button)) fun t =>
        i.pressed = true → i.button.opening = false →
          i.button.Undisturbed ":ladeport: BarnDoor: Unlocking" t := by
    rw [onlyIf]
    split
    · next hpressed =>
      apply (keepsIff_unlock (by decide) i.button).congr
      intro t
      exact ⟨fun h _ => h, fun h => h hpressed⟩
    · next hpressed =>
      exact keepsIff_pure fun _ h => absurd h hpressed
  have hrest : ∀ passed : Passed, KeepsIff (fun s => Relocked s.calls)
      (if passed = .continued then pure ()
        else do
          onlyIf i.pressed (unlock ":ladeport: BarnDoor: Unlocking" i.button)
          pingDoor i.ping : Action Unit)
      fun t => passed ≠ .continued → i.pressed = true → i.button.opening = false →
        i.button.Undisturbed ":ladeport: BarnDoor: Unlocking" t := by
    intro passed
    split
    · next hcontinued =>
      exact keepsIff_pure fun _ h => absurd hcontinued h
    · next hgoes =>
      apply (hbutton.bind_keeps fun _ => kept_relocked.pingDoor i.ping).congr
      intro t
      exact ⟨fun h _ => h, fun h => h hgoes⟩
  have hcard := (keepsIff_card (p := barnDoor) (i := i.card) (by decide)
    (keeps_barnDoor_handler i.card)).bind hrest
  apply ((kept_relocked.watch i.watch).bind_keepsIff fun _ => hcard).congr
  intro s
  exact ⟨fun h s₁ hwatch => h () s₁ hwatch, fun h _ s₁ hwatch => h s₁ hwatch⟩

theorem keepsIff_woodshopTurn (i : WoodshopTurn) :
    KeepsIff (fun s => Relocked s.calls) (woodshopTurn i) i.Undisturbed := by
  apply (keepsIff_card (p := woodshop) (i := i.card) (by decide)
    (keeps_woodshop_handler i.card)).bind_keeps
  intro passed
  exact keeps_onlyIf (kept_relocked.pingWoodshop i.ping)

/-! ### A run -/

section Run

variable {τ : Type} {loop : τ → Action Unit} {quiet : τ → State → Prop}

/-- A turn of a running script in which nothing raises while the lock is open. -/
def Event.Undisturbed (quiet : τ → State → Prop) (s : State) : Event τ → Prop
  | .reply _ _ => True
  | .turn i => s.running = true → quiet i s.begin

theorem relocked_run (hloop : ∀ i, KeepsIff (fun s => Relocked s.calls) (loop i) (quiet i))
    (s : State) (es : List (Event τ)) :
    (∀ calls ∈ Runs.emitted (step loop) (turnCalls loop) s es, Relocked calls) ↔
      Runs.Along (step loop) (fun s e => e.Undisturbed quiet s) s es := by
  rw [Runs.forall_emitted_iff]
  apply Runs.along_congr
  intro s e
  cases e with
  | reply received now => exact iff_of_true (fun _ h => absurd h List.not_mem_nil) trivial
  | turn i =>
    rw [turnCalls, Event.Undisturbed]
    split
    · next hrunning =>
      rw [List.forall_mem_singleton]
      apply (hloop i s.begin relocked_nil).1.trans
      exact ⟨fun h _ => h, fun h => h hrunning⟩
    · next hended =>
      exact iff_of_true (fun _ h => absurd h List.not_mem_nil) (fun h => absurd h hended)

end Run

/-- **When the doors are locked again.**  In every run of either script, each turn
    follows every `set_lock(True)` by a `set_lock(False)`, also when an exception
    ends it, exactly if in no turn a call raises while the lock is open. -/
theorem relocked_iff (s : State) (door : List (Event DoorTurn))
    (shop : List (Event WoodshopTurn)) :
    ((∀ calls ∈ Runs.emitted (step doorTurn) (turnCalls doorTurn) s door, Relocked calls) ↔
      Runs.Along (step doorTurn) (fun s e => e.Undisturbed DoorTurn.Undisturbed s) s door) ∧
    ((∀ calls ∈ Runs.emitted (step woodshopTurn) (turnCalls woodshopTurn) s shop,
      Relocked calls) ↔
      Runs.Along (step woodshopTurn) (fun s e => e.Undisturbed WoodshopTurn.Undisturbed s)
        s shop) :=
  ⟨relocked_run keepsIff_doorTurn s door, relocked_run keepsIff_woodshopTurn s shop⟩

/-- The script after a start at the time zero. -/
def started : State :=
  { reader := { last := 0 }, lastCardTime := 0, lastLogTime := 0, lastGwPing := 0 }

/-- A turn with no card, in which the button is pressed and the display raises
    after the ten seconds. -/
def buttonTurn : DoorTurn where
  watch := { closed := true, lastClosed := 0, now := 0, asked := 0, warned := 0 }
  card := { getid := some 0, now := 0, checked := 0, response := none, logNow := 0, logged := 0,
            restLog := none }
  pressed := true
  button := { closing := true }
  ping := { now := 0, pinged := 0 }

/-- The display raises before `set_lock(False)`, and the script ends with the door
    open. -/
theorem not_relocked :
    ¬ ((∀ s (es : List (Event DoorTurn)),
        ∀ calls ∈ Runs.emitted (step doorTurn) (turnCalls doorTurn) s es, Relocked calls) ∧
      (∀ s (es : List (Event WoodshopTurn)),
        ∀ calls ∈ Runs.emitted (step woodshopTurn) (turnCalls woodshopTurn) s es,
          Relocked calls)) := by
  rintro ⟨hdoor, _⟩
  have hcalls : Runs.emitted (step doorTurn) (turnCalls doorTurn) started [.turn buttonTurn] =
      [[.setLock true]] := by decide
  have hrelocked := hdoor started [.turn buttonTurn] [.setLock true] (by rw [hcalls]; decide)
  exact List.not_mem_nil (hrelocked [] [] rfl)

end Acs.Barn
