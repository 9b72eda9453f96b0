/-!
# The stop signal

One trigger and any number of receivers share a flag. Firing raises it for good; a trigger that
has been dropped can no longer fire. A wait is over as soon as the flag is up, so an unfired
trigger that is dropped leaves every wait pending.
-/

namespace PollWatch

/-- The flag, the trigger and the number of receivers. -/
structure Signal where
  fired : Bool := false
  dropped : Bool := false
  receivers : Nat := 1
deriving DecidableEq

namespace Signal

/-- Raise the flag, unless the trigger is gone. -/
def fire (s : Signal) : Signal := if s.dropped then s else { s with fired := true }

/-- Drop the trigger. -/
def drop (s : Signal) : Signal := { s with dropped := true }

/-- Add a receiver that shares the flag. -/
def clone (s : Signal) : Signal := { s with receivers := s.receivers + 1 }

/-- Whether a receiver sees the flag raised; all see the same flag. -/
def isRaised (s : Signal) (_receiver : Nat) : Bool := s.fired

/-- Whether a wait of a receiver is over when it is looked at once. -/
def isReady (s : Signal) (_receiver : Nat) : Bool := s.fired

/-- One step of a sequence over a signal. -/
inductive Step where
  | isRaised (receiver : Nat)
  /-- Begin to wait, and look at the wait once. -/
  | wait (receiver : Nat)
  /-- Look once more at a wait that was not over. -/
  | again (receiver : Nat)
  | clone (receiver : Nat)
  | fire
  | drop
deriving DecidableEq

/-- What a step answers. -/
inductive Answer where
  | raised (b : Bool)
  | waited (ready : Bool)
  | receivers (n : Nat)
  /-- The trigger fired, or was dropped. -/
  | done
  /-- There is no trigger left to fire. -/
  | gone
deriving DecidableEq

/-- The answer of a step and the signal after it. -/
def step (s : Signal) : Step → Answer × Signal
  | .isRaised n => (.raised (s.isRaised n), s)
  | .wait n => (.waited (s.isReady n), s)
  | .again n => (.waited (s.isReady n), s)
  | .clone _ => (.receivers s.clone.receivers, s.clone)
  | .fire => (if s.dropped then .gone else .done, s.fire)
  | .drop => (.done, s.drop)

/-- The answers of a sequence of steps. -/
def answers (s : Signal) : List Step → List Answer
  | [] => []
  | x :: xs => (s.step x).1 :: (s.step x).2.answers xs

end Signal

end PollWatch
