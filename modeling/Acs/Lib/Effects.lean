/-
  Acs/Lib/Effects.lean
  ====================
  **Loops that raise over a store that nothing rolls back.**

  A program with exceptions and a store is `EStateM ε σ`: an exception leaves
  the store as the statements before it have made it.  `Keeps` says that a
  program keeps an invariant, and `KeepsIff` that it does so exactly under a
  condition on the store before it; both have a rule for each construct.

  The other rules are for a `for` loop of such a program, `List.foldlM` with what it accumulates: an
  invariant of the body is one of the loop, also when the loop is left by an
  exception, and a body whose failures can be told from the store and the input
  (`Screened`) runs its step up to the first bad input.
-/
import Acs.Lib.Run

namespace Effects

universe u v

variable {ε σ α : Type u} {ι : Type v}

/-- The store at the end, also after an exception. -/
def final : EStateM.Result ε σ α → σ
  | .ok _ s => s
  | .error _ s => s

@[simp] theorem final_ok (a : α) (s : σ) : final (.ok a s : EStateM.Result ε σ α) = s := rfl

@[simp] theorem final_error (e : ε) (s : σ) :
    final (.error e s : EStateM.Result ε σ α) = s := rfl

/-! ### Sequencing -/

section Bind

variable {β : Type u} {x : EStateM ε σ α} {f : α → EStateM ε σ β} {s t : σ}

theorem bind_ok {a : α} (h : x s = .ok a t) : (x >>= f) s = f a t := by
  change EStateM.bind x f s = f a t
  rw [EStateM.bind, h]

theorem bind_error {e : ε} (h : x s = .error e t) : (x >>= f) s = .error e t := by
  change EStateM.bind x f s = .error e t
  rw [EStateM.bind, h]

/-- A handler is not called without an exception. -/
theorem tryCatch_ok {a : α} (h : x s = .ok a t) (handler : ε → EStateM ε σ α) :
    (tryCatch x handler : EStateM ε σ α) s = .ok a t := by
  change EStateM.tryCatch x handler s = .ok a t
  rw [EStateM.tryCatch, h]

theorem tryCatch_error {e : ε} (h : x s = .error e t) (handler : ε → EStateM ε σ α) :
    (tryCatch x handler : EStateM ε σ α) s = handler e t := by
  change EStateM.tryCatch x handler s = handler e t
  rw [EStateM.tryCatch, h]
  rfl

end Bind

/-! ### Invariants of a program -/

/-- The program keeps `Inv`, also when an exception leaves it, and what it returns
    meets `Post`. -/
def Keeps (Inv : σ → Prop) (x : EStateM ε σ α) (Post : α → Prop) : Prop :=
  ∀ s, Inv s → Inv (final (x s)) ∧ ∀ a t, x s = .ok a t → Post a

/-- The program keeps `Inv` exactly if `P` holds of the store before it, and only
    an exception leaves it otherwise. -/
def KeepsIff (Inv : σ → Prop) (x : EStateM ε σ α) (P : σ → Prop) : Prop :=
  ∀ s, Inv s → (Inv (final (x s)) ↔ P s) ∧ ∀ a t, x s = .ok a t → Inv t

section Keeps

variable {β : Type u} {Inv : σ → Prop} {x : EStateM ε σ α} {f : α → EStateM ε σ β}
  {Post : α → Prop} {Post' : β → Prop} {P P' : σ → Prop} {Q : α → σ → Prop}

theorem keeps_pure {a : α} (h : Post a) : Keeps Inv (pure a : EStateM ε σ α) Post := by
  intro s hs
  refine ⟨hs, ?_⟩
  intro b t hok
  cases hok
  exact h

theorem keeps_throw (e : ε) : Keeps Inv (throw e : EStateM ε σ α) Post :=
  fun _ hs => ⟨hs, fun _ _ hok => nomatch hok⟩

theorem keeps_get : Keeps Inv (get : EStateM ε σ σ) fun _ => True :=
  fun _ hs => ⟨hs, fun _ _ _ => trivial⟩

theorem keeps_modify {g : σ → σ} (h : ∀ s, Inv s → Inv (g s)) {Done : PUnit → Prop}
    (hdone : Done .unit) : Keeps Inv (modify g : EStateM ε σ PUnit) Done := by
  intro s hs
  exact ⟨h s hs, fun _ _ _ => hdone⟩

theorem Keeps.bind (hx : Keeps Inv x Post) (hf : ∀ a, Post a → Keeps Inv (f a) Post') :
    Keeps Inv (x >>= f) Post' := by
  intro s hs
  obtain ⟨hfinal, hpost⟩ := hx s hs
  cases hrun : x s with
  | ok a t =>
    rw [hrun] at hfinal
    rw [bind_ok hrun]
    exact hf a (hpost a t hrun) t hfinal
  | error e t =>
    rw [hrun] at hfinal
    rw [bind_error hrun]
    exact ⟨hfinal, fun _ _ hok => nomatch hok⟩

theorem Keeps.tryCatch (hx : Keeps Inv x Post) {handler : ε → EStateM ε σ α}
    (hhandler : ∀ e, Keeps Inv (handler e) Post) :
    Keeps Inv (tryCatch x handler) Post := by
  intro s hs
  obtain ⟨hfinal, hpost⟩ := hx s hs
  cases hrun : x s with
  | ok a t =>
    rw [tryCatch_ok hrun]
    rw [hrun] at hfinal
    refine ⟨hfinal, ?_⟩
    intro b u hok
    cases hok
    exact hpost a t hrun
  | error e t =>
    rw [tryCatch_error hrun]
    rw [hrun] at hfinal
    exact hhandler e t hfinal

theorem Keeps.keepsIff (hx : Keeps Inv x Post) : KeepsIff Inv x fun _ => True := by
  intro s hs
  refine ⟨iff_of_true (hx s hs).1 trivial, ?_⟩
  intro a t hok
  have hfinal := (hx s hs).1
  rw [hok] at hfinal
  exact hfinal

theorem KeepsIff.congr (hx : KeepsIff Inv x P) (h : ∀ s, P s ↔ P' s) : KeepsIff Inv x P' :=
  fun s hs => ⟨(hx s hs).1.trans (h s), (hx s hs).2⟩

/-- **The rule for sequences.** -/
theorem KeepsIff.bind (hx : KeepsIff Inv x P) (hf : ∀ a, KeepsIff Inv (f a) (Q a)) :
    KeepsIff Inv (x >>= f) fun s => P s ∧ ∀ a t, x s = .ok a t → Q a t := by
  intro s hs
  obtain ⟨hfinal, hok⟩ := hx s hs
  cases hrun : x s with
  | ok a t =>
    have ht := hok a t hrun
    rw [hrun] at hfinal
    rw [bind_ok hrun]
    refine ⟨?_, (hf a t ht).2⟩
    rw [(hf a t ht).1]
    constructor
    · intro hQ
      refine ⟨hfinal.mp ht, ?_⟩
      rintro b u heq
      obtain ⟨rfl, rfl⟩ := EStateM.Result.ok.inj (hrun.symm.trans heq)
      exact hQ
    · rintro ⟨_, hQ⟩
      exact hQ a t hrun
  | error e t =>
    rw [hrun] at hfinal
    rw [bind_error hrun]
    refine ⟨hfinal.trans ?_, fun _ _ h => nomatch h⟩
    constructor
    · intro hP
      exact ⟨hP, fun _ _ h => nomatch hrun.symm.trans h⟩
    · rintro ⟨hP, _⟩
      exact hP

/-- A program that does nothing, where `P` is no condition. -/
theorem keepsIff_pure {a : α} (h : ∀ s, P s) : KeepsIff Inv (pure a : EStateM ε σ α) P := by
  apply (keeps_pure trivial : Keeps Inv (pure a : EStateM ε σ α) fun _ => True).keepsIff.congr
  intro s
  exact iff_of_true trivial (h s)

theorem Keeps.bind_keepsIff (hx : Keeps Inv x Post) (hf : ∀ a, KeepsIff Inv (f a) (Q a)) :
    KeepsIff Inv (x >>= f) fun s => ∀ a t, x s = .ok a t → Q a t :=
  (hx.keepsIff.bind hf).congr fun _ => and_iff_right trivial

theorem KeepsIff.bind_keeps (hx : KeepsIff Inv x P) (hf : ∀ a, Keeps Inv (f a) Post') :
    KeepsIff Inv (x >>= f) P := by
  apply (hx.bind fun a => (hf a).keepsIff).congr
  intro s
  exact and_iff_left fun _ _ _ => trivial

end Keeps

/-! ### Loops -/

theorem foldlM_nil (body : α → ι → EStateM ε σ α) (a : α) (s : σ) :
    ([] : List ι).foldlM body a s = .ok a s := rfl

theorem foldlM_cons_ok {body : α → ι → EStateM ε σ α} {a b : α} {i : ι} {s t : σ}
    (h : body a i s = .ok b t) (is : List ι) :
    (i :: is).foldlM body a s = is.foldlM body b t := by
  rw [List.foldlM_cons]
  exact bind_ok h

theorem foldlM_cons_error {body : α → ι → EStateM ε σ α} {a : α} {e : ε} {i : ι} {s t : σ}
    (h : body a i s = .error e t) (is : List ι) :
    (i :: is).foldlM body a s = .error e t := by
  rw [List.foldlM_cons]
  exact bind_error h

/-! ### Invariants of a loop -/

/-- `P` holds of each turn that the loop takes: of the store before it and its
    input. -/
def Along (body : α → ι → EStateM ε σ α) (P : σ → ι → Prop) : α → σ → List ι → Prop
  | _, _, [] => True
  | a, s, i :: is => P s i ∧ ∀ b t, body a i s = .ok b t → Along body P b t is

/-- **The invariant rule.**  What each turn keeps that meets `P`, the loop keeps
    whose turns all meet `P`. -/
theorem foldlM_invariant (body : α → ι → EStateM ε σ α) (P : σ → ι → Prop) (Inv : σ → Prop)
    (hbody : ∀ a i s, Inv s → P s i → Inv (final (body a i s))) {is : List ι} :
    ∀ {a : α} {s : σ}, Inv s → Along body P a s is → Inv (final (is.foldlM body a s)) := by
  induction is with
  | nil =>
    intro a s h0 _
    exact h0
  | cons i is ih =>
    intro a s h0 hP
    have hnext := hbody a i s h0 hP.1
    cases hturn : body a i s with
    | ok b t =>
      rw [foldlM_cons_ok hturn]
      rw [hturn] at hnext
      exact ih hnext (hP.2 b t hturn)
    | error e t =>
      rw [foldlM_cons_error hturn]
      rw [hturn] at hnext
      exact hnext

/-! ### Bodies that fail before they have done anything else -/

/-- Where an input is good for the store it takes a step; where it is not, `fail` is
    left behind. -/
structure Screened (body : α → ι → EStateM ε σ α) (good : σ → ι → Prop) (acc : α → ι → α)
    (step fail : σ → ι → σ) : Prop where
  ok : ∀ a i s, good s i → body a i s = .ok (acc a i) (step s i)
  error : ∀ a i s, ¬ good s i → ∃ e, body a i s = .error e (fail s i)

namespace Screened

variable {body : α → ι → EStateM ε σ α} {good : σ → ι → Prop} {acc : α → ι → α}
  {step fail : σ → ι → σ}

/-- Good inputs come before whatever follows them. -/
theorem foldlM_append (h : Screened body good acc step fail) {is : List ι} (js : List ι) :
    ∀ (a : α) (s : σ), Runs.Along step good s is →
      (is ++ js).foldlM body a s = js.foldlM body (is.foldl acc a) (Runs.exec step s is) := by
  induction is with
  | nil =>
    intro a s _
    rfl
  | cons i is ih =>
    intro a s hgood
    rw [List.cons_append, foldlM_cons_ok (h.ok a i s hgood.1)]
    exact ih (acc a i) (step s i) hgood.2

theorem foldlM_ok (h : Screened body good acc step fail) {is : List ι} (a : α) {s : σ}
    (hgood : Runs.Along step good s is) :
    is.foldlM body a s = .ok (is.foldl acc a) (Runs.exec step s is) := by
  have happend := h.foldlM_append [] a s hgood
  rw [List.append_nil] at happend
  rw [happend, foldlM_nil]

/-- **The first bad input** ends the loop, and what came before it stays. -/
theorem foldlM_error (h : Screened body good acc step fail) {pre : List ι} {i : ι} (a : α) {s : σ}
    (hgood : Runs.Along step good s pre) (hbad : ¬ good (Runs.exec step s pre) i) (post : List ι) :
    ∃ e, (pre ++ i :: post).foldlM body a s = .error e (fail (Runs.exec step s pre) i) := by
  obtain ⟨e, he⟩ := h.error (pre.foldl acc a) i (Runs.exec step s pre) hbad
  exact ⟨e, (h.foldlM_append (i :: post) a s hgood).trans (foldlM_cons_error he post)⟩

end Screened

end Effects
