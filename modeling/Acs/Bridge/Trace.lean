/-
  Acs/Bridge/Trace.lean
  =====================
  **What becomes of a client's publication.**

  A publication that matches the filter is on its way to the bridge, in the
  hands of a callback, forwarded, or lost: each is counted once
  (`originals_step`).  Everything else that the bridge sees is an echo of
  something it has forwarded, and carries the same message (`Inv`).
-/
import Acs.Bridge.Broker

namespace Acs.Bridge

open Acs Runs

variable (accepts : Bytes → Bool)

/-! ### Counting the originals -/

/-- The item is the client's publication number `k` itself, not an echo. -/
def Item.isOriginal (k : Nat) (item : Item) : Bool := !item.echo && item.serial == k

theorem Item.isOriginal_iff {k : Nat} {item : Item} :
    item.isOriginal k = true ↔ item.echo = false ∧ item.serial = k := by
  simp [Item.isOriginal]

/-- What a callback has yet to publish. -/
def Callback.pending : Callback → List Item
  | tested item => [item]
  | cleared item => [item]
  | _ => []

def State.pending (s : State) (side : Broker) : List Item :=
  s.inFlight side ++ (s.callback side).pending

def State.originals (s : State) (k : Nat) : Nat :=
  (s.pending .localhost).countP (Item.isOriginal k) +
    (s.pending .remote).countP (Item.isOriginal k) +
    s.published.countP fun p => p.item.isOriginal k

theorem State.originals_eq (s : State) (k : Nat) (side : Broker) :
    s.originals k =
      (s.inFlight side).countP (Item.isOriginal k) +
        (s.callback side).pending.countP (Item.isOriginal k) +
        ((s.inFlight side.other).countP (Item.isOriginal k) +
          (s.callback side.other).pending.countP (Item.isOriginal k)) +
        s.published.countP fun p => p.item.isOriginal k := by
  rw [State.originals, State.pending, State.pending, List.countP_append, List.countP_append]
  cases side with
  | localhost => rfl
  | remote => rw [Broker.other]; omega

/-- What a client's publication puts on its way. -/
def added (s : State) : Event → List Item
  | .publish _ message =>
      if accepts message.topic then [⟨s.external.length, false, message.delivered⟩] else []
  | _ => []

theorem added_eq_nil {s : State} {e : Event} (h : ∀ side message, e ≠ .publish side message) :
    added accepts s e = [] := by
  cases e with
  | publish side message => exact absurd rfl (h side message)
  | _ => rfl

theorem countP_eraseIdx {item : Item} {items : List Item} {n : Nat} (p : Item → Bool)
    (h : items[n]? = some item) :
    (items.eraseIdx n).countP p + [item].countP p = items.countP p := by
  obtain ⟨hn, rfl⟩ := List.getElem?_eq_some_iff.mp h
  have hperm := (List.getElem_cons_eraseIdx_perm hn).countP_eq p
  rw [List.countP_cons] at hperm
  rw [List.countP_singleton]
  exact hperm

theorem countP_enqueue (s : State) (side t : Broker) (item : Item) (p : Item → Bool) :
    ((s.enqueue accepts side item).inFlight t).countP p =
      (s.inFlight t).countP p +
        if t = side ∧ accepts item.message.topic = true then [item].countP p else 0 := by
  rw [State.enqueue]
  by_cases hacc : accepts item.message.topic = true
  · rw [if_pos hacc]
    by_cases ht : t = side
    · subst ht
      simp [hacc]
    · simp [ht]
  · simp [hacc]

/-- **No original is duplicated**: after a step there are as many as before, but
    for the one that is added and the one that is lost. -/
theorem originals_step (s : State) (e : Event) (k : Nat) :
    (step accepts s e).originals k + (lost s e).countP (Item.isOriginal k) =
      s.originals k + (added accepts s e).countP (Item.isOriginal k) := by
  have hmove := step_move accepts s e
  generalize hs' : step accepts s e = s' at hmove ⊢
  generalize lost s e = l at hmove ⊢
  clear hs'
  cases hmove with
  | stay _ h => rw [added_eq_nil accepts h]
  | publish side message =>
    rw [State.originals_eq _ k side, State.originals_eq _ k side]
    dsimp only
    rw [countP_enqueue, countP_enqueue, enqueue_callback, enqueue_published, added]
    by_cases hacc : accepts message.topic = true
    · have htopic : accepts message.delivered.topic = true := hacc
      simp only [hacc, htopic, Broker.other_ne, and_true, if_true, if_false, List.countP_nil]
      omega
    · have htopic : ¬ accepts message.delivered.topic = true := hacc
      simp [hacc, htopic]
  | accept side n item hidle hitem hup =>
    have hadded : added accepts s (.deliver side n) = [] := rfl
    rw [State.originals_eq _ k side, State.originals_eq s k side, hadded]
    have herase := countP_eraseIdx (Item.isOriginal k) hitem
    simp only [Function.update_self, Function.update_of_ne (Broker.other_ne side), hidle,
      Callback.pending, List.countP_nil]
    omega
  | refuse side n item hidle hitem hdown =>
    have hadded : added accepts s (.deliver side n) = [] := rfl
    rw [State.originals_eq _ k side, State.originals_eq s k side, hadded]
    have herase := countP_eraseIdx (Item.isOriginal k) hitem
    simp only [Function.update_self, Function.update_of_ne (Broker.other_ne side), hidle,
      Callback.pending, List.countP_nil]
    omega
  | clear side item hcallback =>
    have hadded : added accepts s (.check side true) = [] := rfl
    rw [State.originals_eq _ k side, State.originals_eq s k side, hadded]
    simp only [Function.update_self, Function.update_of_ne (Broker.other_ne side), hcallback,
      Callback.pending, List.countP_nil]
  | drop side item hcallback =>
    have hadded : added accepts s (.check side false) = [] := rfl
    rw [State.originals_eq _ k side, State.originals_eq s k side, hadded]
    simp only [Function.update_self, Function.update_of_ne (Broker.other_ne side), hcallback,
      Callback.pending, List.countP_nil]
    omega
  | send side item hcallback =>
    have hadded : added accepts s (.send side) = [] := rfl
    rw [State.originals_eq _ k side, State.originals_eq s k side, hadded]
    dsimp only
    rw [countP_enqueue, countP_enqueue]
    have hecho : Item.isOriginal k ⟨item.serial, true, item.message.delivered⟩ = false := rfl
    simp only [Function.update_self, Function.update_of_ne (Broker.other_ne side), hcallback,
      Callback.pending, List.countP_nil, List.countP_append, List.countP_singleton, hecho,
      Bool.false_eq_true, if_false, ite_self]
    omega
  | restore side item hcallback =>
    have hadded : added accepts s (.restore side) = [] := rfl
    rw [State.originals_eq _ k side, State.originals_eq s k side, hadded]
    simp only [Function.update_self, Function.update_of_ne (Broker.other_ne side), hcallback,
      Callback.pending, List.countP_nil]

/-! ### Where items come from -/

/-- The item is at the bridge's client of this broker, or about to be. -/
def State.At (s : State) (side : Broker) (item : Item) : Prop :=
  item ∈ s.inFlight side ∨ (s.callback side).item? = some item

theorem mem_enqueue {s : State} {side t : Broker} {item item' : Item}
    (h : item' ∈ (s.enqueue accepts side item).inFlight t) :
    item' ∈ s.inFlight t ∨ t = side ∧ item' = item ∧ accepts item.message.topic = true := by
  rw [State.enqueue] at h
  split at h
  next hacc =>
    dsimp only at h
    by_cases ht : t = side
    · subst ht
      rw [Function.update_self, List.mem_append, List.mem_singleton] at h
      exact h.imp_right fun heq => ⟨rfl, heq, hacc⟩
    · rw [Function.update_of_ne ht] at h
      exact .inl h
  next => exact .inl h

theorem mem_update_eraseIdx {s : State} {side t : Broker} {n : Nat} {item : Item}
    (h : item ∈ Function.update s.inFlight side ((s.inFlight side).eraseIdx n) t) :
    item ∈ s.inFlight t := by
  by_cases ht : t = side
  · subst ht
    rw [Function.update_self] at h
    exact List.mem_of_mem_eraseIdx h
  · rwa [Function.update_of_ne ht] at h

theorem item_update {s : State} {side t : Broker} {callback : Callback} {item : Item}
    (h : (Function.update s.callback side callback t).item? = some item) :
    (s.callback t).item? = some item ∨ t = side ∧ callback.item? = some item := by
  by_cases ht : t = side
  · subst ht
    rw [Function.update_self] at h
    exact .inr ⟨rfl, h⟩
  · rw [Function.update_of_ne ht] at h
    exact .inl h

/-- An item that is on its way was so before the step, or a client has published
    it, or it is an echo of what the other callback sends. -/
theorem inFlight_step {s : State} {e : Event} {t : Broker} {item : Item}
    (h : item ∈ (step accepts s e).inFlight t) :
    item ∈ s.inFlight t ∨
      (∃ message, e = .publish t message ∧ accepts message.topic = true ∧
        item = ⟨s.external.length, false, message.delivered⟩) ∨
      ∃ sent, e = .send t.other ∧ s.callback t.other = .cleared sent ∧
        item = ⟨sent.serial, true, sent.message.delivered⟩ := by
  have hmove := step_move accepts s e
  generalize hs' : step accepts s e = s' at hmove h
  generalize lost s e = l at hmove
  clear hs'
  cases hmove with
  | publish side message =>
    rcases mem_enqueue accepts h with h | ⟨rfl, rfl, hacc⟩
    · exact .inl h
    · exact .inr (.inl ⟨message, rfl, hacc, rfl⟩)
  | accept => exact .inl (mem_update_eraseIdx h)
  | refuse => exact .inl (mem_update_eraseIdx h)
  | send side found hcallback =>
    rcases mem_enqueue accepts h with h | ⟨rfl, rfl, _⟩
    · exact .inl h
    · exact .inr (.inr ⟨found, by rw [Broker.other_other], by rwa [Broker.other_other], rfl⟩)
  | _ => exact .inl h

/-- An item in a callback was there before the step, or has been delivered. -/
theorem callback_step {s : State} {e : Event} {t : Broker} {item : Item}
    (h : ((step accepts s e).callback t).item? = some item) :
    (s.callback t).item? = some item ∨ ∃ n, e = .deliver t n ∧ s.callback t = .idle ∧
      (s.inFlight t)[n]? = some item ∧ s.forwardFrom t = true := by
  have hmove := step_move accepts s e
  generalize hs' : step accepts s e = s' at hmove h
  generalize lost s e = l at hmove
  clear hs'
  cases hmove with
  | stay => exact .inl h
  | publish side message =>
    dsimp only at h
    rw [enqueue_callback] at h
    exact .inl h
  | accept side n found hidle hitem hup =>
    rcases item_update h with h | ⟨rfl, hnew⟩
    · exact .inl h
    · obtain rfl := Option.some.inj hnew
      exact .inr ⟨n, rfl, hidle, hitem, hup⟩
  | refuse => exact .inl h
  | clear side found hcallback =>
    rcases item_update h with h | ⟨rfl, hnew⟩
    · exact .inl h
    · exact .inl (by rw [hcallback]; exact hnew)
  | drop side found hcallback =>
    rcases item_update h with h | ⟨_, hnew⟩
    · exact .inl h
    · cases hnew
  | send side found hcallback =>
    rcases item_update h with h | ⟨rfl, hnew⟩
    · exact .inl h
    · exact .inl (by rw [hcallback]; exact hnew)
  | restore side found hcallback =>
    rcases item_update h with h | ⟨_, hnew⟩
    · exact .inl h
    · cases hnew

/-- Together: an item at a client was there before, or is new on its way. -/
theorem at_step {s : State} {e : Event} {t : Broker} {item : Item}
    (h : (step accepts s e).At t item) :
    s.At t item ∨
      (∃ message, e = .publish t message ∧ accepts message.topic = true ∧
        item = ⟨s.external.length, false, message.delivered⟩) ∨
      ∃ sent, e = .send t.other ∧ s.callback t.other = .cleared sent ∧
        item = ⟨sent.serial, true, sent.message.delivered⟩ := by
  rcases h with h | h
  · exact (inFlight_step accepts h).imp_left .inl
  · rcases callback_step accepts h with h | ⟨n, _, _, hitem, _⟩
    · exact .inl (.inr h)
    · exact .inl (.inl (List.mem_of_getElem? hitem))

theorem published_step (s : State) (e : Event) :
    (step accepts s e).published = s.published ∨
      ∃ side item, e = .send side ∧ s.callback side = .cleared item ∧
        (step accepts s e).published = s.published ++ [⟨side.other, item⟩] := by
  have hmove := step_move accepts s e
  generalize step accepts s e = s' at hmove ⊢
  generalize lost s e = l at hmove
  cases hmove with
  | send side item hcallback => exact .inr ⟨side, item, rfl, hcallback, rfl⟩
  | publish side message => exact .inl (enqueue_published _ _ _ _)
  | _ => exact .inl rfl

theorem external_step (s : State) (e : Event) :
    (step accepts s e).external =
      s.external ++ (match e with | .publish side message => [(side, message)] | _ => []) := by
  have hmove := step_move accepts s e
  generalize step accepts s e = s' at hmove ⊢
  generalize lost s e = l at hmove
  cases hmove with
  | stay _ h =>
    cases e with
    | publish side message => exact absurd rfl (h side message)
    | _ => rw [List.append_nil]
  | publish => rfl
  | send =>
    rw [List.append_nil]
    exact enqueue_external _ _ _ _
  | _ => rw [List.append_nil]

/-! ### The invariant -/

/-- The item, at the client of `side`, goes back to a publication on one of the
    brokers: on this one, if it is the original; and if it is an echo, the bridge
    has published the original, and something with this number on `side`. -/
structure Traced (s : State) (side : Broker) (item : Item) : Prop where
  origin : ∃ origin message, s.external[item.serial]? = some (origin, message) ∧
    item.message = message.delivered ∧ (item.echo = false → origin = side)
  accepted : accepts item.message.topic = true
  forwarded : item.echo = true → ∃ p ∈ s.published, p.item.isOriginal item.serial
  returned : item.echo = true → ∃ p ∈ s.published, p.broker = side ∧ p.item.serial = item.serial

structure Inv (s : State) : Prop where
  traced : ∀ side item, s.At side item → Traced accepts s side item
  published : ∀ p ∈ s.published, Traced accepts s p.broker.other p.item
  room : ∀ k, s.originals k ≤ if k < s.external.length then 1 else 0
  flag : ∀ side, s.forwardFrom side = true ↔ ¬ (s.callback side.other).Holds

theorem inv_initial : Inv accepts {} where
  traced _ _ h := by rcases h with h | h <;> cases h
  published _ h := by cases h
  room k := Nat.zero_le _
  flag side := by simp [Callback.Holds]

theorem mem_published_step {s : State} {p : Publication} (h : p ∈ s.published) (e : Event) :
    p ∈ (step accepts s e).published := by
  rcases published_step accepts s e with heq | ⟨side, item, _, _, heq⟩
  · rwa [heq]
  · rw [heq]
    exact List.mem_append_left _ h

theorem Traced.step {s : State} {side : Broker} {item : Item} (h : Traced accepts s side item)
    (e : Event) : Traced accepts (step accepts s e) side item where
  origin := by
    obtain ⟨origin, message, hexternal, hrest⟩ := h.origin
    refine ⟨origin, message, ?_, hrest⟩
    rw [external_step]
    exact List.getElem?_append_left (List.getElem?_eq_some_iff.mp hexternal).1 ▸ hexternal
  accepted := h.accepted
  forwarded hecho := by
    obtain ⟨p, hp, horiginal⟩ := h.forwarded hecho
    exact ⟨p, mem_published_step accepts hp e, horiginal⟩
  returned hecho := by
    obtain ⟨p, hp, hback⟩ := h.returned hecho
    exact ⟨p, mem_published_step accepts hp e, hback⟩

theorem Traced.exec {s : State} {side : Broker} {item : Item} (h : Traced accepts s side item)
    (events : List Event) : Traced accepts (exec (Bridge.step accepts) s events) side item :=
  exec_invariant_of_forall (Bridge.step accepts) (fun _ => True)
    (fun s => Traced accepts s side item) (fun _ e hs _ => hs.step accepts e) h
    fun _ _ => trivial

section Flag

variable {s : State} (hflag : ∀ side, s.forwardFrom side = true ↔ ¬ (s.callback side.other).Holds)

include hflag

/-- A callback goes on without touching the flag. -/
theorem flag_kept {side : Broker} {callback : Callback}
    (h : callback.Holds ↔ (s.callback side).Holds) (t : Broker) :
    s.forwardFrom t = true ↔ ¬ (Function.update s.callback side callback t.other).Holds := by
  rw [hflag t]
  by_cases ht : t.other = side
  · subst ht
    rw [Function.update_self, h]
  · rw [Function.update_of_ne ht]

theorem flag_moved {side : Broker} {value : Bool} {callback : Callback}
    (h : value = true ↔ ¬ callback.Holds) (t : Broker) :
    Function.update s.forwardFrom side.other value t = true ↔
      ¬ (Function.update s.callback side callback t.other).Holds := by
  rcases Broker.eq_or_eq_other t side with rfl | rfl
  · rw [Function.update_of_ne (Broker.other_ne t).symm, Function.update_of_ne (Broker.other_ne t)]
    exact hflag t
  · rw [Broker.other_other, Function.update_self, Function.update_self]
    exact h

theorem flag_step (e : Event) (t : Broker) :
    (step accepts s e).forwardFrom t = true ↔ ¬ ((step accepts s e).callback t.other).Holds := by
  have hmove := step_move accepts s e
  generalize step accepts s e = s' at hmove ⊢
  generalize lost s e = l at hmove
  cases hmove with
  | stay => exact hflag t
  | publish side message =>
    dsimp only
    rw [enqueue_forwardFrom, enqueue_callback]
    exact hflag t
  | accept side n item hidle =>
    apply flag_kept hflag
    rw [hidle]
    exact Iff.rfl
  | refuse => exact hflag t
  | clear side item => exact flag_moved hflag (by simp [Callback.Holds]) t
  | drop side item hcallback =>
    apply flag_kept hflag
    rw [hcallback]
    exact Iff.rfl
  | send side item hcallback =>
    dsimp only
    rw [enqueue_forwardFrom]
    apply flag_kept hflag
    rw [hcallback]
    exact Iff.rfl
  | restore side item => exact flag_moved hflag (by simp [Callback.Holds]) t

end Flag

theorem mem_published_send {s : State} {side : Broker} {item : Item}
    (hcallback : s.callback side = .cleared item) :
    ⟨side.other, item⟩ ∈ (step accepts s (.send side)).published := by
  simp [step, hcallback]

/-- Where a client's publication is new, nothing else has its number. -/
theorem room_step {s : State} (hroom : ∀ k, s.originals k ≤ if k < s.external.length then 1 else 0)
    (e : Event) (k : Nat) :
    (step accepts s e).originals k ≤ if k < (step accepts s e).external.length then 1 else 0 := by
  have hstep := originals_step accepts s e k
  have hk := hroom k
  rw [external_step]
  cases e with
  | publish side message =>
    have hadded : (added accepts s (.publish side message)).countP (Item.isOriginal k) ≤
        if k = s.external.length then 1 else 0 := by
      rw [added]
      by_cases heq : k = s.external.length
      · rw [if_pos heq]
        split
        · exact List.countP_le_length
        · exact Nat.zero_le 1
      · rw [if_neg heq]
        split
        · have hne : ¬ s.external.length = k := fun h => heq h.symm
          simp [Item.isOriginal, hne]
        · exact Nat.le_refl 0
    rw [List.length_append, List.length_singleton]
    split at hadded <;> split at hk <;> split <;> omega
  | _ =>
    rw [List.append_nil]
    exact Nat.le_trans (Nat.le.intro hstep) hk

theorem traced_step {s : State} (hinv : Inv accepts s) (e : Event) {side : Broker} {item : Item}
    (h : (step accepts s e).At side item) : Traced accepts (step accepts s e) side item := by
  rcases at_step accepts h with h | ⟨message, rfl, hacc, rfl⟩ | ⟨sent, rfl, hcallback, rfl⟩
  · exact (hinv.traced side item h).step accepts e
  · refine ⟨⟨side, message, ?_, rfl, fun _ => rfl⟩, hacc, nofun, nofun⟩
    rw [external_step]
    exact List.getElem?_concat_length
  · have hsent := (hinv.traced side.other sent (.inr (by rw [hcallback]; rfl))).step accepts
      (.send side.other)
    have hmem := mem_published_send accepts hcallback
    rw [Broker.other_other] at hmem
    obtain ⟨origin, message, hexternal, hmessage, _⟩ := hsent.origin
    refine ⟨⟨origin, message, hexternal, ?_, nofun⟩, hsent.accepted, ?_, ?_⟩
    · exact (congrArg Message.delivered hmessage).trans message.delivered_delivered
    · intro _
      cases hecho : sent.echo with
      | false => exact ⟨⟨side, sent⟩, hmem, Item.isOriginal_iff.mpr ⟨hecho, rfl⟩⟩
      | true => exact hsent.forwarded hecho
    · intro _
      exact ⟨⟨side, sent⟩, hmem, rfl, rfl⟩

theorem inv_step {s : State} (hinv : Inv accepts s) (e : Event) : Inv accepts (step accepts s e) where
  traced _ _ h := traced_step accepts hinv e h
  published p hp := by
    rcases published_step accepts s e with heq | ⟨side, item, rfl, hcallback, heq⟩
    · rw [heq] at hp
      exact (hinv.published p hp).step accepts e
    · rw [heq, List.mem_append, List.mem_singleton] at hp
      rcases hp with hp | rfl
      · exact (hinv.published p hp).step accepts (.send side)
      · rw [Broker.other_other]
        exact (hinv.traced side item (.inr (by rw [hcallback]; rfl))).step accepts (.send side)
  room := room_step accepts hinv.room e
  flag := flag_step accepts hinv.flag e

theorem inv_exec {s : State} (hinv : Inv accepts s) (events : List Event) :
    Inv accepts (exec (step accepts) s events) :=
  exec_invariant_of_forall (step accepts) (fun _ => True) (Inv accepts)
    (fun _ e h _ => inv_step accepts h e) hinv fun _ _ => trivial

theorem inv_run (events : List Event) : Inv accepts (run accepts events) :=
  inv_exec accepts (inv_initial accepts) events

end Acs.Bridge
