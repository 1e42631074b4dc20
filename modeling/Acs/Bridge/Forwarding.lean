/-
  Acs/Bridge/Forwarding.lean
  ==========================
  **Loops and losses of the bridge.**

  A flag is down from the moment a callback goes on to publish until it has
  published, whatever comes in meanwhile.  So the echo of a publication is held
  off if it comes in during that time, and forwarded back if it comes in later
  (`loopFree_iff`); and what a client publishes on the other broker during that
  time is turned away like an echo (`delivers_iff`).
-/
import Acs.Bridge.Trace

namespace Acs.Bridge

open Acs Runs

variable (accepts : Bytes → Bool)

/-! ### Loops -/

/-- No publication of a client is forwarded twice to the other broker, or back to
    the broker it came from; so the bridge publishes no more than the clients. -/
structure LoopFree (s : State) : Prop where
  once : ∀ k origin message, s.external[k]? = some (origin, message) →
    s.published.countP (fun p => p.item.serial = k ∧ p.broker = origin.other) ≤ 1
  notBack : ∀ p ∈ s.published, ∀ message,
    s.external[p.item.serial]? ≠ some (p.broker, message)
  bounded : s.published.length ≤ s.external.length

/-- Loop freedom in every state of the run, and when a callback that is at work
    there has published. -/
def LoopFreeRun (events : List Event) : Prop :=
  ∀ pre, pre <+: events → LoopFree (run accepts pre) ∧
    ∀ side, LoopFree (run accepts (pre ++ [.check side true, .send side]))

/-- An echo that comes in finds the other callback between the flag going down
    and the flag going up again. -/
def EchoHeldOff (s : State) : Event → Prop
  | .deliver side n => ∀ item, s.callback side = .idle → (s.inFlight side)[n]? = some item →
      item.echo = true → (s.callback side.other).Holds
  | _ => True

/-- The bridge has seen no echo. -/
structure EchoFree (s : State) : Prop where
  callback : ∀ side item, (s.callback side).item? = some item → item.echo = false
  published : ∀ p ∈ s.published, p.item.echo = false

theorem echoFree_step {s : State} (hinv : Inv accepts s) (h : EchoFree s) {e : Event}
    (he : EchoHeldOff s e) : EchoFree (step accepts s e) where
  callback t item hitem := by
    rcases callback_step accepts hitem with hitem | ⟨n, rfl, hidle, hitem, hup⟩
    · exact h.callback t item hitem
    · cases hecho : item.echo with
      | false => rfl
      | true => exact absurd (he item hidle hitem hecho) ((hinv.flag t).mp hup)
  published p hp := by
    rcases published_step accepts s e with heq | ⟨side, item, _, hcallback, heq⟩
    · rw [heq] at hp
      exact h.published p hp
    · rw [heq, List.mem_append, List.mem_singleton] at hp
      rcases hp with hp | rfl
      · exact h.published p hp
      · exact h.callback side item (by rw [hcallback]; rfl)

/-- What the bridge publishes of a number is no more than what the clients have. -/
theorem EchoFree.countP_le {s : State} (hinv : Inv accepts s) (h : EchoFree s) (k : Nat) :
    s.published.countP (fun p => p.item.serial == k) ≤ if k < s.external.length then 1 else 0 := by
  have hcount : s.published.countP (fun p => p.item.serial == k) =
      s.published.countP fun p => p.item.isOriginal k := by
    apply List.countP_congr
    intro p hp
    simp [Item.isOriginal, h.published p hp]
  have horiginals : s.published.countP (fun p => p.item.isOriginal k) ≤ s.originals k :=
    Nat.le_add_left _ _
  rw [hcount]
  exact Nat.le_trans horiginals (hinv.room k)

theorem EchoFree.loopFree {s : State} (hinv : Inv accepts s) (h : EchoFree s) : LoopFree s where
  once k origin message _ := by
    have hle : s.published.countP (fun p => p.item.serial = k ∧ p.broker = origin.other) ≤
        s.published.countP fun p => p.item.serial == k := by
      apply List.countP_mono_left
      intro p _ hp
      exact beq_iff_eq.mpr (of_decide_eq_true hp).1
    have hcount := h.countP_le accepts hinv k
    split at hcount <;> omega
  notBack p hp message hback := by
    obtain ⟨origin, _, hexternal, _, horigin⟩ := (hinv.published p hp).origin
    have heq := Option.some.inj (hback.symm.trans hexternal)
    have hside : p.broker = p.broker.other :=
      (congrArg Prod.fst heq).trans (horigin (h.published p hp))
    exact Broker.other_ne p.broker hside.symm
  bounded := by
    have hnodup : (s.published.map fun p => p.item.serial).Nodup := by
      rw [List.nodup_iff_count_le_one]
      intro k
      rw [List.count, List.countP_map]
      refine Nat.le_trans (h.countP_le accepts hinv k) ?_
      split <;> omega
    have hsub : (s.published.map fun p => p.item.serial) ⊆ List.range s.external.length := by
      intro k hk
      obtain ⟨p, hp, rfl⟩ := List.mem_map.mp hk
      obtain ⟨_, _, hexternal, _⟩ := (hinv.published p hp).origin
      exact List.mem_range.mpr (List.getElem?_eq_some_iff.mp hexternal).1
    have hle := (List.subperm_of_subset hnodup hsub).length_le
    rwa [List.length_map, List.length_range] at hle

theorem echoFree_run {events : List Event}
    (h : Along (step accepts) EchoHeldOff {} events) : EchoFree (run accepts events) := by
  have hboth := exec_invariant (step accepts) EchoHeldOff (fun s => Inv accepts s ∧ EchoFree s)
    (fun s e hs he => ⟨inv_step accepts hs.1 e, echoFree_step accepts hs.1 hs.2 he⟩)
    ⟨inv_initial accepts, ⟨nofun, nofun⟩⟩ h
  exact hboth.2

/-- **An echo that comes in too late** is forwarded, as soon as the callback
    publishes: on the broker where it came from, or once more on the other. -/
theorem not_loopFree_of_echo {events : List Event} {side : Broker} {n : Nat} {item : Item}
    (hidle : (run accepts events).callback side = .idle)
    (hitem : ((run accepts events).inFlight side)[n]? = some item) (hecho : item.echo = true)
    (hfree : ¬ ((run accepts events).callback side.other).Holds) :
    ¬ LoopFree (run accepts (events ++ [.deliver side n] ++ [.check side true, .send side])) := by
  have hinv := inv_run accepts events
  have hup : (run accepts events).forwardFrom side = true := (hinv.flag side).mpr hfree
  have hrun : run accepts (events ++ [.deliver side n] ++ [.check side true, .send side]) =
      step accepts (step accepts (step accepts (run accepts events) (.deliver side n))
        (.check side true)) (.send side) := by
    rw [run, exec_append, exec_snoc]
    rfl
  have htraced := hinv.traced side item (.inl (List.mem_of_getElem? hitem))
  rw [hrun]
  generalize run accepts events = s at *
  have hpublished : (step accepts (step accepts (step accepts s (.deliver side n))
      (.check side true)) (.send side)).published = s.published ++ [⟨side.other, item⟩] := by
    simp [step, hidle, hitem, hup, enqueue_published]
  have hexternal : (step accepts (step accepts (step accepts s (.deliver side n))
      (.check side true)) (.send side)).external = s.external := by
    simp [external_step]
  intro hloop
  have hback := hloop.notBack
  rw [hpublished, hexternal] at hback
  obtain ⟨origin, message, horigin, _⟩ := htraced.origin
  rcases Broker.eq_or_eq_other origin side with rfl | rfl
  · obtain ⟨p, hp, hbroker, hserial⟩ := htraced.returned hecho
    apply hback p (List.mem_append_left _ hp) message
    rw [hserial, hbroker]
    exact horigin
  · exact hback ⟨side.other, item⟩ (List.mem_append_right _ List.mem_cons_self) message horigin

theorem LoopFree.along {events : List Event} (h : LoopFreeRun accepts events) :
    Along (step accepts) EchoHeldOff {} events := by
  rw [along_iff]
  rintro pre e post rfl
  cases e with
  | deliver side n =>
    intro item hidle hitem hecho
    by_contra hfree
    have hpre : pre ++ [.deliver side n] <+: pre ++ .deliver side n :: post :=
      ⟨post, by rw [List.append_assoc, List.singleton_append]⟩
    exact not_loopFree_of_echo accepts hidle hitem hecho hfree ((h _ hpre).2 side)
  | _ => trivial

/-- **The bridge is free of loops** exactly in the runs whose echoes are all held
    off. -/
theorem loopFreeRun_iff (events : List Event) :
    LoopFreeRun accepts events ↔ Along (step accepts) EchoHeldOff {} events := by
  constructor
  · exact LoopFree.along accepts
  · rintro h pre ⟨post, rfl⟩
    have hpre := (along_append.mp h).1
    constructor
    · exact (echoFree_run accepts hpre).loopFree accepts (inv_run accepts pre)
    · intro side
      have hmore : Along (step accepts) EchoHeldOff {} (pre ++ [.check side true, .send side]) :=
        along_append.mpr ⟨hpre, trivial, trivial, trivial⟩
      exact (echoFree_run accepts hmore).loopFree accepts (inv_run accepts _)

/-- The echo of a message comes in when the callback has finished. -/
theorem not_loopFreeRun : ¬ ∀ accepts events, LoopFree (run accepts events) := by
  intro h
  let message : Message := ⟨str "hal9k/acs/action", str "lock", 1, false⟩
  let events : List Event := [.publish .remote message, .deliver .remote 0, .check .remote true,
    .send .remote, .restore .remote, .deliver .localhost 0, .check .localhost true,
    .send .localhost]
  have hback := (h (fun _ => true) events).notBack
    ⟨.remote, ⟨0, true, message⟩⟩ (by decide) message
  exact hback (by decide)

/-! ### Losses -/

/-- What the clients have published has reached the bridge, and its callbacks have
    finished; there may be echoes on their way. -/
structure AtRest (s : State) : Prop where
  callback : ∀ side, s.callback side = .idle
  inFlight : ∀ side, ∀ item ∈ s.inFlight side, item.echo = true

def Connected : Event → Prop
  | .check _ connected => connected = true
  | _ => True

instance (e : Event) : Decidable (Connected e) := by
  cases e <;> unfold Connected <;> infer_instance

/-- Every publication of a client that matches the filter is published on the
    other broker, unchanged. -/
def Delivers (s : State) : Prop :=
  ∀ k side message, s.external[k]? = some (side, message) → accepts message.topic = true →
    ∃ p ∈ s.published, p.broker = side.other ∧ p.item.serial = k ∧ p.item.message = message

/-- A client's publication comes in while the other callback does not hold the
    flag. -/
def Undisturbed (s : State) : Event → Prop
  | .deliver side n => ∀ item, s.callback side = .idle → (s.inFlight side)[n]? = some item →
      item.echo = false → ¬ (s.callback side.other).Holds
  | _ => True

/-- What the subscription hands over unchanged. -/
def Message.Plain (message : Message) : Prop := message.qos ≤ 1 ∧ message.retain = false

theorem mem_external {events : List Event} {side : Broker} {message : Message} :
    (side, message) ∈ (run accepts events).external ↔ .publish side message ∈ events := by
  induction events using List.reverseRec with
  | nil => simp [run]
  | append_singleton events e ih =>
    rw [run, exec_snoc, external_step, List.mem_append, List.mem_append, List.mem_singleton]
    apply or_congr ih
    cases e <;> simp [eq_comm]

theorem lost_of_undisturbed {s : State} (hinv : Inv accepts s) {e : Event} (hconn : Connected e)
    (h : Undisturbed s e) (k : Nat) : (lost s e).countP (Item.isOriginal k) = 0 := by
  have hmove := step_move accepts s e
  generalize step accepts s e = s' at hmove
  generalize lost s e = l at hmove ⊢
  cases hmove with
  | refuse side n item hidle hitem hdown =>
    cases hecho : item.echo with
    | true => simp [Item.isOriginal, hecho]
    | false =>
      have hup := (hinv.flag side).mpr (h item hidle hitem hecho)
      rw [hdown] at hup
      cases hup
  | drop => cases hconn
  | _ => rfl

/-- Every publication that matches the filter is still on its way, or forwarded. -/
def Kept (s : State) : Prop :=
  ∀ k side message, s.external[k]? = some (side, message) → accepts message.topic = true →
    s.originals k = 1

theorem kept_step {s : State} (hinv : Inv accepts s) (hkept : Kept accepts s) {e : Event}
    (hconn : Connected e) (h : Undisturbed s e) : Kept accepts (step accepts s e) := by
  intro k side message hexternal hacc
  have hstep := originals_step accepts s e k
  rw [lost_of_undisturbed accepts hinv hconn h k, Nat.add_zero] at hstep
  have hnew := (inv_step accepts hinv e).room k
  rw [external_step] at hexternal
  by_cases hk : k < s.external.length
  · rw [List.getElem?_append_left hk] at hexternal
    have hone := hkept k side message hexternal hacc
    split at hnew <;> omega
  · cases e with
    | publish origin published =>
      have hold := hinv.room k
      rw [if_neg hk] at hold
      rw [List.getElem?_append_right (Nat.le_of_not_lt hk)] at hexternal
      obtain ⟨hlt, heq⟩ := List.getElem?_eq_some_iff.mp hexternal
      rw [List.length_singleton] at hlt
      have hpair : (origin, published) = (side, message) := by
        simpa using heq
      obtain ⟨rfl, rfl⟩ := Prod.mk.inj hpair
      have hnumber : k = s.external.length := by omega
      rw [added, if_pos hacc, hnumber] at hstep
      rw [hnumber] at hold ⊢
      have hone : [(⟨s.external.length, false, published.delivered⟩ : Item)].countP
          (Item.isOriginal s.external.length) = 1 := by
        simp [Item.isOriginal]
      omega
    | _ =>
      rw [List.append_nil] at hexternal
      exact absurd (List.getElem?_eq_some_iff.mp hexternal).1 hk

theorem kept_run {events : List Event} (hconn : ∀ e ∈ events, Connected e)
    (h : Along (step accepts) Undisturbed {} events) : Kept accepts (run accepts events) := by
  have hboth : Along (step accepts) (fun s e => Connected e ∧ Undisturbed s e) {} events := by
    rw [along_iff] at h ⊢
    rintro pre e post rfl
    exact ⟨hconn e (List.mem_append_right _ List.mem_cons_self), h pre e post rfl⟩
  have hkept := exec_invariant (step accepts) _ (fun s => Inv accepts s ∧ Kept accepts s)
    (fun s e hs he => ⟨inv_step accepts hs.1 e, kept_step accepts hs.1 hs.2 he.1 he.2⟩)
    ⟨inv_initial accepts, nofun⟩ hboth
  exact hkept.2

/-- At rest, what is kept has been forwarded. -/
theorem forwarded_of_kept {s : State} (hinv : Inv accepts s) (hrest : AtRest s)
    (hkept : Kept accepts s) {k : Nat} {side : Broker} {message : Message}
    (hexternal : s.external[k]? = some (side, message)) (hacc : accepts message.topic = true) :
    ∃ p ∈ s.published, p.broker = side.other ∧ p.item.serial = k ∧
      p.item.message = message.delivered := by
  have hpending : ∀ side, (s.pending side).countP (Item.isOriginal k) = 0 := by
    intro side
    rw [List.countP_eq_zero]
    intro item hitem
    have hidle : (s.callback side).pending = [] := by
      rw [hrest.callback side]
      rfl
    rw [State.pending, hidle, List.append_nil] at hitem
    simp [Item.isOriginal, hrest.inFlight side item hitem]
  have hone := hkept k side message hexternal hacc
  rw [State.originals, hpending, hpending, Nat.zero_add] at hone
  obtain ⟨p, hp, horiginal⟩ := List.countP_pos_iff.mp (by rw [hone]; exact Nat.one_pos)
  obtain ⟨hecho, rfl⟩ := Item.isOriginal_iff.mp horiginal
  obtain ⟨origin, message', hexternal', hmessage, horigin⟩ := (hinv.published p hp).origin
  obtain ⟨rfl, rfl⟩ := Prod.mk.inj (Option.some.inj (hexternal.symm.trans hexternal'))
  refine ⟨p, hp, ?_, rfl, hmessage⟩
  rw [horigin hecho, Broker.other_other]

/-- A publication that is nowhere any more is never forwarded. -/
theorem not_forwarded_of_gone {s : State} (hinv : Inv accepts s) {k : Nat}
    (hk : k < s.external.length) (hgone : s.originals k = 0) (events : List Event) :
    ∀ p ∈ (exec (step accepts) s events).published, p.item.serial ≠ k := by
  have hstep : ∀ (s : State) (e : Event), k < s.external.length ∧ s.originals k = 0 → True →
      k < (step accepts s e).external.length ∧ (step accepts s e).originals k = 0 := by
    rintro s e ⟨hk, hgone⟩ _
    have hcount := originals_step accepts s e k
    have hadded : (added accepts s e).countP (Item.isOriginal k) = 0 := by
      cases e with
      | publish side message =>
        have hne : ¬ s.external.length = k := by omega
        rw [added]
        split
        · simp [Item.isOriginal, hne]
        · rfl
      | _ => rfl
    rw [external_step, List.length_append]
    omega
  have hend := exec_invariant_of_forall (step accepts) (fun _ => True) _ hstep ⟨hk, hgone⟩
    (fun (_ : Event) (_ : _ ∈ events) => trivial)
  have hinv' := inv_exec accepts hinv events
  rintro p hp rfl
  have horiginal : ∃ q ∈ (exec (step accepts) s events).published,
      q.item.isOriginal p.item.serial := by
    cases hecho : p.item.echo with
    | false => exact ⟨p, hp, Item.isOriginal_iff.mpr ⟨hecho, rfl⟩⟩
    | true => exact (hinv'.published p hp).forwarded hecho
  have hpos := List.countP_pos_iff.mpr horiginal
  have hzero := hend.2
  rw [State.originals] at hzero
  omega

/-- **A publication that comes in while the other callback holds the flag** is
    lost: nothing with its number is ever published. -/
theorem not_forwarded_of_disturbed {pre : List Event} {side : Broker} {n : Nat} {item : Item}
    (hidle : (run accepts pre).callback side = .idle)
    (hitem : ((run accepts pre).inFlight side)[n]? = some item) (horiginal : item.echo = false)
    (hholds : ((run accepts pre).callback side.other).Holds) (post : List Event) :
    ∀ p ∈ (run accepts (pre ++ .deliver side n :: post)).published,
      p.item.serial ≠ item.serial := by
  have hinv := inv_run accepts pre
  have htraced := hinv.traced side item (.inl (List.mem_of_getElem? hitem))
  rw [run, exec_append, exec_cons]
  rw [← run]
  generalize run accepts pre = s at *
  have hdown : s.forwardFrom side = false := by
    cases hflag : s.forwardFrom side with
    | false => rfl
    | true => exact absurd hholds ((hinv.flag side).mp hflag)
  obtain ⟨_, _, hexternal, _⟩ := htraced.origin
  have hk := (List.getElem?_eq_some_iff.mp hexternal).1
  apply not_forwarded_of_gone accepts (inv_step accepts hinv (.deliver side n))
  · rw [external_step, List.append_nil]
    exact hk
  · have hstep := originals_step accepts s (.deliver side n) item.serial
    have hlost : (lost s (.deliver side n)).countP (Item.isOriginal item.serial) = 1 := by
      simp [lost, hidle, hitem, hdown, Item.isOriginal, horiginal]
    have hadded : added accepts s (.deliver side n) = [] := rfl
    have hroom := hinv.room item.serial
    rw [if_pos hk] at hroom
    rw [hlost, hadded, List.countP_nil] at hstep
    omega

/-- **The bridge delivers** everything, in a run that has come to rest with both
    sides connected, exactly when no client's publication came in while the other
    callback held the flag, and each was one that the subscription leaves as it
    is. -/
theorem delivers_iff {events : List Event} (hconn : ∀ e ∈ events, Connected e)
    (hrest : AtRest (run accepts events)) :
    Delivers accepts (run accepts events) ↔
      Along (step accepts) Undisturbed {} events ∧
        ∀ side message, .publish side message ∈ events → accepts message.topic = true →
          message.Plain := by
  have hinv := inv_run accepts events
  constructor
  · intro h
    constructor
    · rw [along_iff]
      rintro pre e post rfl
      cases e with
      | deliver side n =>
        intro item hidle hitem horiginal hholds
        have htraced := (inv_run accepts pre).traced side item (.inl (List.mem_of_getElem? hitem))
        have hend : Traced accepts (run accepts (pre ++ .deliver side n :: post)) side item := by
          rw [run, exec_append]
          exact htraced.exec accepts _
        obtain ⟨origin, message, hexternal, hmessage, _⟩ := hend.origin
        have hacc : accepts message.topic = true := by
          have haccepted := htraced.accepted
          rw [hmessage] at haccepted
          exact haccepted
        obtain ⟨p, hp, _, hserial, _⟩ := h item.serial origin message hexternal hacc
        exact not_forwarded_of_disturbed accepts hidle hitem horiginal hholds post p hp hserial
      | _ => trivial
    · intro side message hmem hacc
      obtain ⟨k, hk⟩ := List.getElem?_of_mem ((mem_external accepts).mpr hmem)
      obtain ⟨p, hp, _, rfl, hmessage⟩ := h k side message hk hacc
      obtain ⟨_, _, hexternal, hdelivered, _⟩ := (hinv.published p hp).origin
      obtain ⟨rfl, rfl⟩ := Prod.mk.inj (Option.some.inj (hk.symm.trans hexternal))
      exact (Message.delivered_eq_self_iff message).mp (hdelivered.symm.trans hmessage)
  · rintro ⟨hundisturbed, hplain⟩ k side message hexternal hacc
    have hkept := kept_run accepts hconn hundisturbed
    obtain ⟨p, hp, hbroker, hserial, hmessage⟩ :=
      forwarded_of_kept accepts hinv hrest hkept hexternal hacc
    have hmem := (mem_external accepts).mp (List.mem_of_getElem? hexternal)
    have hsame := (Message.delivered_eq_self_iff message).mpr (hplain side message hmem hacc)
    exact ⟨p, hp, hbroker, hserial, hmessage.trans hsame⟩

def sampleStatus : Message := ⟨str "hal9k/acs/status/main", str "open", 1, false⟩

def sampleAction : Message := ⟨str "hal9k/acs/action", str "lock", 1, false⟩

/-- A publication each way; both come in before either callback has cleared a flag. -/
def sampleEvents : List Event :=
  [.publish .localhost sampleStatus, .publish .remote sampleAction, .deliver .localhost 0,
    .deliver .remote 0, .check .localhost true, .check .remote true, .send .localhost,
    .send .remote, .restore .localhost, .restore .remote]

theorem delivers_sample : Delivers (fun _ => true) (run (fun _ => true) sampleEvents) := by
  have hrest : AtRest (run (fun _ => true) sampleEvents) := by
    constructor
    · intro side
      cases side <;> decide
    · intro side
      cases side <;> decide
  apply (delivers_iff (fun _ => true) (by decide) hrest).mpr
  constructor
  · refine ⟨trivial, trivial, ?_, ?_, trivial, trivial, trivial, trivial, trivial, trivial, trivial⟩
    · intro item _ _ _ hholds
      exact hholds
    · intro item _ _ _ hholds
      exact hholds
  · intro side message hmem _
    have hcases : (side = .localhost ∧ message = sampleStatus) ∨
        side = .remote ∧ message = sampleAction := by
      simpa [sampleEvents] using hmem
    rcases hcases with ⟨-, rfl⟩ | ⟨-, rfl⟩
    · exact ⟨by decide, rfl⟩
    · exact ⟨by decide, rfl⟩

/-- A publication on the remote broker is delivered while the bridge publishes one
    of the local broker. -/
theorem not_delivers : ¬ ∀ accepts events, (∀ e ∈ events, Connected e) →
    AtRest (run accepts events) → Delivers accepts (run accepts events) := by
  intro h
  let events : List Event := [.publish .localhost sampleStatus, .publish .remote sampleAction,
    .deliver .localhost 0, .check .localhost true, .deliver .remote 0, .send .localhost,
    .restore .localhost]
  have hconn : ∀ e ∈ events, Connected e := by decide
  have hrest : AtRest (run (fun _ => true) events) := by
    constructor
    · intro side
      cases side <;> decide
    · intro side
      cases side <;> decide
  obtain ⟨p, hp, hbroker, _⟩ := h (fun _ => true) events hconn hrest 1 .remote sampleAction
    (by decide) rfl
  have honly : ∀ p ∈ (run (fun _ => true) events).published, p.broker = .remote := by
    decide
  rw [honly p hp] at hbroker
  cases hbroker

end Acs.Bridge
