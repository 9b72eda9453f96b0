import PollWatch.CommandLine.Message
import PollWatch.Session.Hosted
/-!
# The whole program

A command line is understood, checked and acted on. Help and version go to the output and are a
success; every other text that is not the command's goes to the stream for messages.

A run can be followed cycle by cycle, so that the console may be shown, and its host looked at
again, between two cycles; `Run.follow` does all cycles at once.

As for a session, the surroundings are given: what a scan sees, what a command does, and who stops
the program. `Program.watch` and `Program.run` put the host of the console in their place.
-/

namespace PollWatch

/-- A run of the program that is under way. -/
structure Run where
  options : Options
  counts : Summary := {}
  session : Session Console

namespace Run

/-- The console of a run. -/
def console (r : Run) : Console := r.session.state

/-- Put another console in place. -/
def withConsole (r : Run) (c : Console) : Run := { r with session := { r.session with state := c } }

/-- The limit of cycles is reached, so there is nothing to wait for. -/
def isAtLimit (r : Run) : Bool := r.options.isLimit r.counts.cycles

/-- Begin the run that an invocation asks for. -/
def start (env : Surroundings Console) (i : Invocation) (c : Console) : Except Failure Run :=
  match i.spec with
  | .error f => .error f
  | .ok spec =>
    let watch : Watch := { paths := spec.paths, command := spec.command }
    let s : Session Console := ⟨watch, c.log (openingLine spec i.options)⟩
    .ok { options := i.options, session := s.start env i.options }

/-- What the end of a session means for the program. -/
def conclude : Except Halt Summary × Session Console → Except Failure Unit × Console
  | (.ok summary, s) => (.ok (), s.state.log (closingLine summary))
  | (.error (.failed f), s) => (.error f, s.state)
  | (.error (.crashed m), s) => (.error (.other m []), s.state)

/-- One more cycle: the run ends, or goes on. -/
def next (env : Surroundings Console) (r : Run) : (Except Failure Unit × Console) ⊕ Run :=
  match r.session.cycle env r.options r.counts with
  | .over e => .inl (conclude e)
  | .underWay c s => .inr { r with counts := c, session := s }

/-- Follow a run to its end. The first argument bounds the number of cycles; no answer means that
the run is not over within it. -/
def follow (env : Surroundings Console) : Nat → Run → Option (Except Failure Unit × Console)
  | 0, _ => none
  | fuel + 1, r =>
    match r.next env with
    | .inl e => some e
    | .inr s => follow env fuel s

end Run

namespace Program

/-- More cycles than a run is followed for. -/
def cycleBound : Nat := 1000000

/-- Watch as an invocation asks for, until the run ends. No answer means that it does not end
within the bound. -/
def watchWithin (env : Surroundings Console) (bound : Nat) (i : Invocation) (c : Console) :
    Option (Except Failure Unit × Console) :=
  match Run.start env i c with
  | .error f => some (.error f, c)
  | .ok r => r.follow env bound

/-- Watch on the host of the console. -/
def watch (i : Invocation) (c : Console) : Option (Except Failure Unit × Console) :=
  watchWithin Console.surroundings cycleBound i c

/-- The exit code after a failure, with the failure told to the user. -/
def giveUp (f : Failure) (c : Console) : Nat × Console :=
  match f with
  | .usage t => (1, c.say t)
  | f => (1, c.say ("ifchanged error: " ++ f.text))

/-- The exit code after a run. -/
def close : Except Failure Unit × Console → Nat × Console
  | (.ok (), c) => (0, c)
  | (.error f, c) => giveUp f c

/-- Answer a command line that gave no invocation. -/
def answer (s : CommandLine.Stop) (c : Console) : Nat × Console :=
  let b := Bytes.ofString s.message
  if s.isRefusal then (1, { c with messages := c.messages ++ b }) else (0, (c.print b).2)

/-- The console with the log set up for an invocation, and for what the environment has about
logging. -/
def withLog (i : Invocation) (environment? : Option Bytes) (c : Console) : Console :=
  { c with level? := some (LogLevel.choose i.level? environment?) }

/-- Begin with the words of a command line, of which the first is the name of the program: the
program is over at once, or a run begins. -/
def start (env : Surroundings Console) (words : List Bytes) (environment? : Option Bytes)
    (c : Console) : (Nat × Console) ⊕ Run :=
  match CommandLine.parse words with
  | .error s => .inl (answer s c)
  | .ok i =>
    match Run.start env i (withLog i environment? c) with
    | .error f => .inl (giveUp f c)
    | .ok r => .inr r

/-- Run the program from beginning to end. No answer means that the run does not end within the
bound. -/
def runWithin (env : Surroundings Console) (bound : Nat) (words : List Bytes)
    (environment? : Option Bytes) (c : Console) : Option (Nat × Console) :=
  match start env words environment? c with
  | .inl e => some e
  | .inr r => (r.follow env bound).map close

/-- Run the program on the host of the console. -/
def run (words : List Bytes) (environment? : Option Bytes) (c : Console) :
    Option (Nat × Console) :=
  runWithin Console.surroundings cycleBound words environment? c

end Program

end PollWatch
