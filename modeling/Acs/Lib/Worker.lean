/-
  Acs/Lib/Worker.lean
  ===================
  **A thread that works off a queue.**

  Others put items into the queue; in each of its turns the thread takes the
  oldest item, if there is one, and changes a state of its own.  Whatever the
  order of the turns, what has been taken and what is left is what has been put
  in (`taken_append_pending`), and the state is that of working off what has
  been taken (`state_exec`).  After as many turns as there are items nothing is
  left (`pending_exec_turns`).
-/
import Acs.Lib.Run

universe u v w

/-- The queue, the oldest item first, and the state of the thread. -/
structure Worker (α : Type u) (σ : Type w) where
  pending : List α
  state : σ

namespace Worker

variable {α : Type u} {ι : Type v} {σ : Type w}

/-- Somebody puts an item in, or the thread has a turn, in which it sees `i`. -/
inductive Turn (α : Type u) (ι : Type v) where
  | put (a : α)
  | work (i : ι)
deriving DecidableEq, Repr

open Runs

/-- `act s a i` is what the thread makes of its state in a turn with the item `a`. -/
def step (act : σ → Option α → ι → σ) (w : Worker α σ) : Turn α ι → Worker α σ
  | .put a => { w with pending := w.pending ++ [a] }
  | .work i => ⟨w.pending.tail, act w.state w.pending.head? i⟩

/-- What the thread has in a turn. -/
def job (w : Worker α σ) : Turn α ι → List (Option α × ι)
  | .put _ => []
  | .work i => [(w.pending.head?, i)]

def puts (turns : List (Turn α ι)) : List α :=
  turns.filterMap fun
    | .put a => some a
    | .work _ => none

/-- The turns of the thread. -/
def works (turns : List (Turn α ι)) : List ι :=
  turns.filterMap fun
    | .put _ => none
    | .work i => some i

theorem puts_map_put (as : List α) : puts (as.map (Turn.put (ι := ι))) = as := by
  rw [puts, List.filterMap_map]
  exact List.filterMap_some

/-- What is put in by a run that has turns of the queue as outputs. -/
theorem puts_emitted {τ κ : Type*} (next : τ → κ → τ) (out : τ → κ → List (Turn α ι)) (t : τ)
    (ks : List κ) :
    puts (emitted next out t ks) = emitted next (fun t k => puts (out t k)) t ks :=
  emitted_filterMap next out _ t ks

section Exec

variable (act : σ → Option α → ι → σ) (w : Worker α σ) (turns : List (Turn α ι))

/-- The turns of the thread in a run. -/
def jobs : List (Option α × ι) := emitted (step act) job w turns

/-- The items that it has taken. -/
def taken : List α := (jobs act w turns).filterMap Prod.fst

theorem taken_append_pending :
    taken act w turns ++ (exec (step act) w turns).pending = w.pending ++ puts turns := by
  induction turns generalizing w with
  | nil => exact (List.append_nil _).symm
  | cons turn turns ih =>
    rw [taken, jobs, emitted_cons, List.filterMap_append, List.append_assoc, exec_cons]
    have hrest := ih (step act w turn)
    rw [taken, jobs] at hrest
    rw [hrest]
    cases turn with
    | put a => simp [job, step, puts]
    | work i => cases hpending : w.pending <;> simp [job, step, puts, hpending]

/-- **The state** is that of the jobs, one after the other. -/
theorem state_exec :
    (exec (step act) w turns).state =
      exec (fun s job => act s job.1 job.2) w.state (jobs act w turns) := by
  induction turns generalizing w with
  | nil => rfl
  | cons turn turns ih =>
    rw [jobs, emitted_cons, exec_append, exec_cons, ih]
    cases turn <;> rfl

/-- Turns of the thread alone, as many as there are items, work off everything. -/
theorem pending_exec_turns (is : List ι) :
    (exec (step act) w (is.map .work)).pending = w.pending.drop is.length := by
  induction is generalizing w with
  | nil => rfl
  | cons i is ih =>
    rw [List.map_cons, exec_cons, ih]
    exact List.drop_tail

/-- What every job keeps, a run keeps. -/
theorem state_invariant (Inv : σ → Prop) (hact : ∀ s a i, Inv s → Inv (act s a i))
    (h0 : Inv w.state) : Inv (exec (step act) w turns).state := by
  rw [state_exec]
  exact exec_invariant_of_forall _ (fun _ => True) Inv (fun s job hs _ => hact s job.1 job.2 hs) h0
    fun _ _ => trivial

/-- The items of the jobs are items that were there or have been put in. -/
theorem mem_of_mem_jobs {a : α} {i : ι} (h : (some a, i) ∈ jobs act w turns) :
    a ∈ w.pending ++ puts turns := by
  rw [← taken_append_pending act w turns]
  exact List.mem_append_left _ (List.mem_filterMap.mpr ⟨_, h, rfl⟩)

/-- Each job is a turn of the thread. -/
theorem work_mem_of_mem_jobs {a : Option α} {i : ι} (h : (a, i) ∈ jobs act w turns) :
    .work i ∈ turns := by
  induction turns generalizing w with
  | nil => exact absurd h List.not_mem_nil
  | cons turn turns ih =>
    rw [jobs, emitted_cons] at h
    rcases List.mem_append.mp h with h | h
    · cases turn with
      | put b => exact absurd h List.not_mem_nil
      | work j =>
        obtain ⟨-, rfl⟩ := Prod.mk.inj (List.mem_singleton.mp h)
        exact List.mem_cons_self
    · exact List.mem_cons_of_mem turn (ih _ h)

end Exec

/-! ### A thread that passes its items on -/

/-- The thread makes one output of each item, and keeps all of them. -/
def passOn {β : Type w} (f : α → β) (outputs : List β) (a : Option α) (_ : ι) : List β :=
  outputs ++ (a.map f).toList

theorem state_passOn {β : Type w} (f : α → β) (w : Worker α (List β)) (turns : List (Turn α ι)) :
    (exec (step (passOn f)) w turns).state = w.state ++ (taken (passOn f) w turns).map f := by
  induction turns generalizing w with
  | nil => exact (List.append_nil _).symm
  | cons turn turns ih =>
    rw [exec_cons, ih, taken, taken, jobs, jobs, emitted_cons, List.filterMap_append,
      List.map_append, ← List.append_assoc]
    cases turn with
    | put a => simp [step, job]
    | work i => cases hpending : w.pending <;> simp [step, job, passOn, hpending]

/-- **Exactly once and in order**: the outputs, and those that are still to come,
    are those of the items. -/
theorem outputs_append {β : Type w} (f : α → β) (turns : List (Turn α ι)) :
    (exec (step (passOn f)) ⟨[], []⟩ turns).state ++
        (exec (step (passOn f)) ⟨[], []⟩ turns).pending.map f = (puts turns).map f := by
  rw [state_passOn, List.nil_append, ← List.map_append, taken_append_pending, List.nil_append]

/-! ### A thread that may pass its items on -/

/-- What becomes of an item depends on the turn. -/
def collect {β : Type w} (f : α → ι → List β) (outputs : List β) (a : Option α) (i : ι) : List β :=
  outputs ++ a.toList.flatMap (f · i)

theorem state_collect {β : Type w} (f : α → ι → List β) (w : Worker α (List β))
    (turns : List (Turn α ι)) :
    (exec (step (collect f)) w turns).state =
      w.state ++ (jobs (collect f) w turns).flatMap fun job =>
        job.1.toList.flatMap (f · job.2) := by
  induction turns generalizing w with
  | nil => exact (List.append_nil _).symm
  | cons turn turns ih =>
    rw [exec_cons, ih, jobs, jobs, emitted_cons, List.flatMap_append, ← List.append_assoc]
    refine congrArg (· ++ _) ?_
    cases turn with
    | put a => exact (List.append_nil _).symm
    | work i => simp [step, job, collect]

end Worker
