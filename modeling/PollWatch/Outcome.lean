/-!
# How a command ended
-/

namespace PollWatch

/-- How a command ended. -/
inductive Outcome where
  | success
  /-- The exit code; none if a signal ended the command. -/
  | failed (code : Option Int)
  /-- The command could not be started, with the reason. -/
  | spawnFailed (message : String)

namespace Outcome

/-- Only an exit code of zero is a success. -/
def isSuccess : Outcome → Bool
  | .success => true
  | _ => false

/-- The outcome of an exit code; none stands for the end by a signal. -/
def ofExit : Option Int → Outcome
  | some 0 => .success
  | code => .failed code

end Outcome

end PollWatch
