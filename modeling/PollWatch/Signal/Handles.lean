import PollWatch.Signal
import PollWatch.Signal.Channel
/-!
# The stop signal over a channel

The trigger and the receivers share a channel that holds `false` at first, and to fire is to send
`true`. A receiver is told to stop if the channel holds `true`.

A wait looks at the value, and as long as that is `false` it asks for a change and looks again. It
is looked at from outside whenever it may be over, and then goes on from where it stood. Once the
trigger is gone without having fired, it will never be over.
-/

namespace PollWatch.Signal

/-- How far a wait has come. -/
inductive Waiting where
  /-- It is about to look at the value. -/
  | looking
  /-- It asks for a change. -/
  | listening
  /-- The trigger is gone, and nothing is left to wait for. -/
  | stranded
deriving DecidableEq

section Wait

variable {σ ρ : Type} (c : Channel Bool σ ρ) (s : σ)

/-- How many turns a wait may take before it is over or has to be looked at again. -/
def turns (w : Waiting) (r : ρ) : Nat :=
  match w with
  | .looking => 2
  | .listening => if c.seen r = c.version s then 1 else 3
  | .stranded => 0

/-- Look once at a wait. It is over if nothing is left of it, and otherwise stands where the answer
says. -/
def poll (w : Waiting) (r : ρ) : Option Waiting × ρ :=
  match w with
  | .looking =>
    if (c.borrowAndUpdate s r).1 then (none, (c.borrowAndUpdate s r).2)
    else poll .listening (c.borrowAndUpdate s r).2
  | .listening =>
    match _h : (c.changed s r).1 with
    | .changed => poll .looking (c.changed s r).2
    | .quiet => (some .listening, (c.changed s r).2)
    | .closed => (some .stranded, (c.changed s r).2)
  | .stranded => (some .stranded, r)
termination_by turns c s w r
decreasing_by
  · simp [turns, c.seen_borrowAndUpdate]
  · -- there was something to see
    have hchanged : (c.changed s r).1 = .changed := ‹_›
    have hnews : c.seen r ≠ c.version s := by
      intro hseen
      rw [c.changed_fst, if_neg (not_not_intro hseen)] at hchanged
      split at hchanged
      next => exact absurd hchanged (by simp)
      next => exact absurd hchanged (by simp)
    simp [turns, hnews]

end Wait

/-- What there is of a stop signal: what is shared, the trigger unless it was dropped, and the
receivers, each with the wait that it is in. -/
structure Handles (σ ρ : Type) where
  shared : σ
  hasTrigger : Bool
  receivers : List (ρ × Waiting)

namespace Handles

variable {σ ρ : Type} (c : Channel Bool σ ρ)

/-- A new trigger with one receiver. -/
def new : Handles σ ρ := ⟨(c.create false).1, true, [((c.create false).2, .looking)]⟩

/-- Look once at a wait of receiver `n` that stands at `w`. A receiver whose wait is over can begin
another. -/
def look (h : Handles σ ρ) (n : Nat) (r : ρ) (w : Waiting) : Answer × Handles σ ρ :=
  match poll c h.shared w r with
  | (left, r) =>
    (.waited left.isNone, { h with receivers := h.receivers.set n (r, left.getD .looking) })

/-- The answer of a step and the handles after it; none if there is no such receiver. -/
def step (h : Handles σ ρ) : Step → Option (Answer × Handles σ ρ)
  | .isRaised n => h.receivers[n]?.map fun x => (.raised (c.borrow h.shared x.1), h)
  | .wait n => h.receivers[n]?.map fun x => h.look c n x.1 .looking
  | .again n => h.receivers[n]?.map fun x => h.look c n x.1 x.2
  | .clone n => h.receivers[n]?.map fun x =>
    (.receivers (h.receivers.length + 1),
      { h with receivers := h.receivers ++ [(c.clone x.1, .looking)] })
  | .fire => some <|
    if h.hasTrigger then (.done, { h with shared := c.send true h.shared }) else (.gone, h)
  | .drop => some <|
    if h.hasTrigger then (.done, { h with shared := c.close h.shared, hasTrigger := false })
    else (.done, h)

/-- The answers of a sequence of steps; none if a step names a receiver that does not exist. -/
def answers (h : Handles σ ρ) : List Step → Option (List Answer)
  | [] => some []
  | x :: xs =>
    match h.step c x with
    | some (a, after) => (after.answers xs).map (a :: ·)
    | none => none

end Handles

end PollWatch.Signal
