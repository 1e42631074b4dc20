/-
  Acs/Lib/Notice.lean
  ===================
  **A board with a status and notices.**

  The board shows one thing at a time: its status, or a notice that has been put
  up for some time.  A new status is shown at once, whatever is up; when the time
  of the last notice is over, the status is shown again.

  With no notice up the board shows its status (`shown_of_quiet`), which is the
  last one that it has been given (`status_exec`).  A notice stays up until its
  time is over or there is another status (`shown_exec`), and is taken down when
  its time is found to be over (`until?_exec_notice`).
-/
import Acs.Lib.Run

universe u

namespace Notice

variable {α : Type u} [DecidableEq α]

inductive Post (α : Type u) where
  | idle
  | status (a : α)
  | notice (a : α) (duration : Int)
deriving DecidableEq, Repr

/-- Something is put up at one time, and the board looked after at another. -/
structure Turn (α : Type u) where
  post : Post α
  posted : Int
  checked : Int

structure Board (α : Type u) where
  status : α
  shown : α
  until? : Option Int := none
deriving DecidableEq

def Board.put (b : Board α) (posted : Int) : Post α → Board α
  | .idle => b
  | .status a => if a = b.status then b else { b with status := a, shown := a }
  | .notice a duration => { b with shown := a, until? := some (posted + duration) }

/-- The time of the notice is over. -/
def Board.over (b : Board α) (now : Int) : Bool := b.until?.any (· ≤ now)

def Board.takeDown (b : Board α) (now : Int) : Board α :=
  if b.over now then { b with shown := b.status, until? := none } else b

def step (b : Board α) (t : Turn α) : Board α := (b.put t.posted t.post).takeDown t.checked

/-- The status that is posted, if one is. -/
def Post.status? : Post α → Option α
  | .status a => some a
  | .idle => none
  | .notice _ _ => none

def Turn.status? (t : Turn α) : Option α := t.post.status?

open Runs

omit [DecidableEq α] in
theorem status_takeDown (b : Board α) (now : Int) : (b.takeDown now).status = b.status := by
  rw [Board.takeDown]
  split <;> rfl

theorem status_step (b : Board α) (t : Turn α) :
    (step b t).status = t.status?.getD b.status := by
  rw [step, status_takeDown, Turn.status?]
  cases t.post with
  | idle => rfl
  | notice a duration => rfl
  | status a =>
    rw [Board.put]
    split
    next h => exact h.symm
    next => rfl

/-- **The status** is the last one. -/
theorem status_exec (b : Board α) (ts : List (Turn α)) :
    (exec step b ts).status = (ts.filterMap Turn.status?).getLastD b.status := by
  induction ts generalizing b with
  | nil => rfl
  | cons t ts ih =>
    rw [exec_cons, ih, status_step]
    cases h : t.status? with
    | none => rw [List.filterMap_cons_none h]; rfl
    | some a => rw [List.filterMap_cons_some h, List.getLastD_cons]; rfl

/-- With no notice up the status is shown. -/
def Board.Tidy (b : Board α) : Prop := b.until? = none → b.shown = b.status

theorem tidy_step {b : Board α} (h : b.Tidy) (t : Turn α) : (step b t).Tidy := by
  have hput : (b.put t.posted t.post).Tidy := by
    cases t.post with
    | idle => exact h
    | notice a duration => exact fun hnone => absurd hnone (Option.some_ne_none _)
    | status a =>
      rw [Board.put]
      split
      · exact h
      · exact fun _ => rfl
  rw [step, Board.takeDown]
  split
  · exact fun _ => rfl
  · exact hput

/-- **No notice, no other text.** -/
theorem shown_of_quiet {b : Board α} (h : b.Tidy) (ts : List (Turn α))
    (hnone : (exec step b ts).until? = none) : (exec step b ts).shown = (exec step b ts).status :=
  exec_invariant_of_forall step (fun _ => True) Board.Tidy (fun _ t hb _ => tidy_step hb t) h
    (fun _ _ => trivial) hnone

/-- The turn leaves alone what is up: nothing else is put up, and its time is not
    over. -/
structure Spares (status : α) (deadline : Int) (t : Turn α) : Prop where
  post : t.post = .idle ∨ t.post = .status status
  early : t.checked < deadline

theorem put_of_spares {b : Board α} {deadline : Int} {t : Turn α}
    (h : Spares b.status deadline t) : b.put t.posted t.post = b := by
  rcases h.post with hpost | hpost
  · rw [hpost]
    rfl
  · rw [hpost, Board.put, if_pos rfl]

omit [DecidableEq α] in
theorem takeDown_of_early {b : Board α} {deadline now : Int} (hup : b.until? = some deadline)
    (hearly : now < deadline) : b.takeDown now = b := by
  rw [Board.takeDown, Board.over, hup, Option.any_some, decide_eq_false (Int.not_le.mpr hearly),
    if_neg Bool.false_ne_true]

/-- **A notice stays up** as long as the turns spare it. -/
theorem shown_exec {b : Board α} {a : α} {duration : Int} {t : Turn α} {ts : List (Turn α)}
    (hpost : t.post = .notice a duration) (hearly : t.checked < t.posted + duration)
    (hspare : ∀ s ∈ ts, Spares b.status (t.posted + duration) s) :
    (exec step b (t :: ts)).shown = a := by
  have hfirst : step b t = { b with shown := a, until? := some (t.posted + duration) } := by
    rw [step, hpost, Board.put]
    exact takeDown_of_early rfl hearly
  rw [exec_cons, hfirst, exec_of_fixed]
  intro s hs
  have hspares : Spares (Board.mk b.status a (some (t.posted + duration))).status
      (t.posted + duration) s := hspare s hs
  rw [step, put_of_spares hspares, takeDown_of_early rfl hspares.early]

/-! ### The end of a notice -/

/-- The turn puts up no notice. -/
def Turn.NoNotice (t : Turn α) : Prop := ∀ a duration, t.post ≠ .notice a duration

theorem until?_put {b : Board α} {t : Turn α} (h : t.NoNotice) :
    (b.put t.posted t.post).until? = b.until? := by
  cases hpost : t.post with
  | idle => rfl
  | notice a duration => exact absurd hpost (h a duration)
  | status a =>
    rw [Board.put]
    split <;> rfl

/-- With no new notice, the last one stays up or is taken down. -/
theorem until?_step {b : Board α} {deadline : Int} {t : Turn α} (h : t.NoNotice)
    (hb : b.until? = some deadline) :
    (step b t).until? = if deadline ≤ t.checked then none else some deadline := by
  have hput : (b.put t.posted t.post).until? = some deadline := (until?_put h).trans hb
  rw [step, Board.takeDown, Board.over, hput, Option.any_some]
  by_cases hover : deadline ≤ t.checked
  · rw [if_pos (decide_eq_true hover), if_pos hover]
  · rw [if_neg (fun hd => hover (of_decide_eq_true hd)), if_neg hover, hput]

theorem until?_step_none {b : Board α} {t : Turn α} (h : t.NoNotice) (hb : b.until? = none) :
    (step b t).until? = none := by
  have hput : (b.put t.posted t.post).until? = none := (until?_put h).trans hb
  rw [step, Board.takeDown]
  split
  · rfl
  · exact hput

/-- **A notice is taken down** by the first turn that finds its time over. -/
theorem until?_exec {b : Board α} (deadline : Int) {ts : List (Turn α)}
    (hnone : ∀ s ∈ ts, s.NoNotice) (hb : b.until? = none ∨ b.until? = some deadline)
    (hover : b.until? = none ∨ ∃ s ∈ ts, deadline ≤ s.checked) :
    (exec step b ts).until? = none := by
  induction ts generalizing b with
  | nil =>
    rcases hover with hover | ⟨s, hs, -⟩
    · exact hover
    · exact absurd hs List.not_mem_nil
  | cons t ts ih =>
    have hnotice := hnone t List.mem_cons_self
    have hrest := fun s hs => hnone s (List.mem_cons_of_mem t hs)
    rw [exec_cons]
    rcases hb with hb | hb
    · have hstep := until?_step_none hnotice hb
      exact ih hrest (.inl hstep) (.inl hstep)
    · have hstep := until?_step hnotice hb
      by_cases hdue : deadline ≤ t.checked
      · rw [if_pos hdue] at hstep
        exact ih hrest (.inl hstep) (.inl hstep)
      · rw [if_neg hdue] at hstep
        refine ih hrest (.inr hstep) (.inr ?_)
        rcases hover with hover | ⟨s, hs, hlate⟩
        · rw [hb] at hover
          cases hover
        · rcases List.mem_cons.mp hs with rfl | hs
          · exact absurd hlate hdue
          · exact ⟨s, hs, hlate⟩

/-- What follows a notice, up to a check that finds its time over. -/
theorem until?_exec_notice {b : Board α} {a : α} {duration : Int} {t : Turn α}
    {ts : List (Turn α)} (hpost : t.post = .notice a duration) (hnone : ∀ s ∈ ts, s.NoNotice)
    (hover : ∃ s ∈ t :: ts, t.posted + duration ≤ s.checked) :
    (exec step b (t :: ts)).until? = none := by
  have hfirst : (step b t).until? =
      if t.posted + duration ≤ t.checked then none else some (t.posted + duration) := by
    rw [step, hpost, Board.put, Board.takeDown, Board.over, Option.any_some]
    by_cases hdue : t.posted + duration ≤ t.checked
    · rw [if_pos (decide_eq_true hdue), if_pos hdue]
    · rw [if_neg (fun hd => hdue (of_decide_eq_true hd)), if_neg hdue]
  rw [exec_cons]
  by_cases hdue : t.posted + duration ≤ t.checked
  · rw [if_pos hdue] at hfirst
    exact until?_exec 0 hnone (.inl hfirst) (.inl hfirst)
  · rw [if_neg hdue] at hfirst
    refine until?_exec _ hnone (.inr hfirst) (.inr ?_)
    obtain ⟨s, hs, hlate⟩ := hover
    rcases List.mem_cons.mp hs with rfl | hs
    · exact absurd hlate hdue
    · exact ⟨s, hs, hlate⟩

end Notice
