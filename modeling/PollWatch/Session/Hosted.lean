import PollWatch.Log
import PollWatch.Session.Basic
import PollWatch.Shell.Call
/-!
# Sessions on a host

Here the surroundings are a host: its files are scanned, the command is run by a shell that may
change them, and the completion line goes to the same output as what the command writes. Log lines
and the messages of commands share a second stream.
-/

namespace PollWatch

/-- A host and the streams of a program that runs on it. -/
structure Console where
  host : Host
  /-- What was written to the output. -/
  output : Bytes := []
  /-- What was written to the stream for messages. -/
  messages : Bytes := []
  /-- The output takes nothing. -/
  isFull : Bool := false
  /-- The search path for programs, if it is not the usual one. -/
  path? : Option Bytes := none
  /-- The level up to which lines are logged; none if there is no log. -/
  level? : Option LogLevel := none
  /-- The user has asked to stop. -/
  isInterrupted : Bool := false

namespace Console

/-- Write a line of messages. -/
def say (c : Console) (s : String) : Console :=
  { c with messages := c.messages ++ Bytes.ofString (s ++ "\n") }

/-- Log a line if the level allows it. -/
def log (c : Console) (l : LogLine) : Console :=
  match c.level? with
  | some limit => if l.isShown limit then c.say l.text else c
  | none => c

/-- Write to the output. -/
def print (c : Console) (b : Bytes) : Except WriteFault Unit × Console :=
  if c.isFull then (.error (.errno .noSpace), c) else (.ok (), { c with output := c.output ++ b })

/-- How a shell called from here finds its surroundings. -/
def setting (c : Console) : Shell.Setting :=
  { host := c.host, path? := c.path?, output := if c.isFull then .device .full else .output }

/-- The text of the failure to start a shell. -/
def spawnFailure (command : String) (o : Shell.Obstacle) : Failure :=
  .command ("spawning shell for command '" ++ command ++ "': " ++ o.text)

/-- Run a command by a shell. -/
def runCommand (command : String) (c : Console) : Except Failure Outcome × Console :=
  let c := c.log (startLine command)
  match c.setting.call command with
  | .error o => (.error (spawnFailure command o), c)
  | .ok a =>
    let c := { c with
      host := a.host
      output := c.output ++ a.output
      messages := c.messages ++ a.errors
      isInterrupted := c.isInterrupted || a.interrupts }
    (.ok a.outcome, c.log (endLine command a.outcome))

/-- Run the command of a session. -/
def perform (command : String) (c : Console) : Performance × Console :=
  match c.runCommand command with
  | (.ok o, c) => (.ended o, c)
  | (.error f, c) => (.notRun f, c)

/-- The surroundings that a console makes. A wait takes no time, and is cut short if the user has
asked to stop. -/
def surroundings : Surroundings Console where
  look c paths := .ok (c.host.view.scan paths)
  perform := perform
  announce c := c.print (Bytes.ofString completionLine)
  rest _ c := (c.isInterrupted, c)
  note n c := n.lines.foldl log c

end Console

end PollWatch
