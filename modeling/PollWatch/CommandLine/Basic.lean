import PollWatch.LogLevel
import PollWatch.Session.Basic
/-!
# What the command line asks for

An invocation has three settings and a list of operands. The last operand is the command and the
others are the paths to watch, so at least two are needed.
-/

namespace PollWatch

/-- A command line that has been understood. -/
structure Invocation where
  /-- The time between two polls, in milliseconds. -/
  intervalMs : Nat := 1000
  /-- Poll once and stop. -/
  once : Bool := false
  /-- The log level, if one is given. -/
  level? : Option LogLevel := none
  /-- The paths and the command, as they were written. -/
  operands : List String := []
deriving DecidableEq

namespace Invocation

/-- The line printed when there are fewer than two operands. -/
def usage : String := "usage: ifchanged file1 .. filen command"

/-- The paths and the command among the operands. -/
def spec (i : Invocation) : Except Failure WatchSpec :=
  match i.operands.getLast?, i.operands.dropLast with
  | some command, p :: ps => .ok ⟨(p :: ps).map Path.ofString, command⟩
  | _, _ => .error (.usage usage)

/-- How the run is limited and paced. -/
def options (i : Invocation) : Options := ⟨i.intervalMs, if i.once then some 1 else none⟩

end Invocation

end PollWatch
