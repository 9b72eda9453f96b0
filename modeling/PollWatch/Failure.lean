import PollWatch.Errno
/-!
# Failures of the program

A failure is a wrong invocation, a failed write, a command that cannot be run, or something else
with a chain of causes. Its text is what the user sees.
-/

namespace PollWatch

/-- Why bytes could not be written. -/
inductive WriteFault where
  /-- The system refused. -/
  | errno (e : Errno)
  /-- The receiver refused, with a text of its own. -/
  | refused (text : String)

namespace WriteFault

/-- The text of a write fault. -/
def text : WriteFault → String
  | .errno e => e.text
  | .refused t => t

end WriteFault

/-- Why the program, or one step of it, came to no result. -/
inductive Failure where
  /-- The invocation lacks paths or a command; the text says how to call the program. -/
  | usage (text : String)
  /-- Bytes could not be written. -/
  | io (f : WriteFault)
  /-- The command could not be run. -/
  | command (text : String)
  /-- Anything else, with its causes, the outermost first. -/
  | other (text : String) (causes : List String)

namespace Failure

/-- The text of a failure. -/
def message : Failure → String
  | .usage t => t
  | .io f => "IO error: " ++ f.text
  | .command t => "Command error: " ++ t
  | .other t _ => t

/-- The causes of a failure, the outermost first. -/
def causes : Failure → List String
  | .usage _ => []
  | .io f => [f.text]
  | .command _ => []
  | .other _ cs => cs

/-- A failure without a cause of its own kind, to which contexts were added one after another. -/
def withContexts (text : String) (contexts : List String) : Failure :=
  match contexts.reverse with
  | [] => .other text []
  | c :: cs => .other c (cs ++ [text])

end Failure

end PollWatch
