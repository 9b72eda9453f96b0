import PollWatch.Shell.Eval
import PollWatch.Outcome
/-!
# Calling a shell

A command of the user is handed to a shell as one argument. The shell itself is a program that has
to be found in the search path; where it is not, or where the command cannot be handed over, there
is no outcome.
-/

namespace PollWatch.Shell

/-- What a program called from outside finds. -/
structure Setting where
  host : Host
  /-- The search path, if it is not the usual one. -/
  path? : Option Bytes := none
  /-- What standard output is open on. -/
  output : Channel := .output

/-- Why no shell ran. -/
inductive Obstacle where
  | errno (e : Errno)
  /-- The command holds a zero byte, which ends an argument. -/
  | zeroByte

/-- The text of an obstacle. -/
def Obstacle.text : Obstacle → String
  | .errno e => e.text
  | .zeroByte => "nul byte found in provided data"

/-- What a shell left behind. -/
structure Aftermath where
  host : Host
  output : Bytes := []
  errors : Bytes := []
  outcome : Outcome
  /-- The user asked the caller to stop. -/
  interrupts : Bool := false

/-- The usual search path. -/
def usualPath : Bytes :=
  Bytes.ofString "/usr/local/sbin:/usr/local/bin:/usr/sbin:/usr/bin:/sbin:/bin"

/-- The program and the arguments with which a command is run; none if it cannot be handed
over. -/
def argumentsFor (command : String) : Option (List String) :=
  if '\x00' ∈ command.toList then none else some ["sh", "-c", command]

/-- What is found in one directory of a search path, or why nothing is. The empty name stands for
the working directory. -/
def lookIn (h : Host) (directory : Chars) : Except Errno Unit :=
  if Utility.directories.any (·.toList = directory) then .ok ()
  else
    let path := if directory = [] then "sh".toList else directory ++ "/sh".toList
    match h.find true (.ofBytes (toBytes path)) with
    | .ok (_, .file _ _ true) => .ok ()
    | .ok _ => .error .accessDenied
    | .error e => .error e

/-- Search the directories of a path for the shell. A program that may not be executed is passed
over, but remembered. -/
def searchFor (h : Host) (denied : Bool) (last : Errno) : List Chars → Except Errno Unit
  | [] => .error (if denied then .accessDenied else last)
  | d :: ds =>
    match lookIn h d with
    | .ok () => .ok ()
    | .error e =>
      if e = .accessDenied then searchFor h true e ds
      else if e = .notFound ∨ e = .notADirectory then searchFor h denied e ds
      else .error e

/-- Why the shell cannot be started, if it cannot. -/
def Setting.obstacle? (s : Setting) (command : String) : Option Obstacle :=
  if (argumentsFor command).isNone then some .zeroByte
  else
    let directories := Utility.cutAt ':' (ofBytes (s.path?.getD usualPath))
    match searchFor s.host false .notFound directories with
    | .ok () => none
    | .error e => some (.errno e)

/-- A bound for the depth of a command's work. -/
def workBound : Nat := 100000

/-- The process in which the shell begins. -/
def Setting.process (s : Setting) : Process where
  machine := { host := s.host }
  descriptors := [(0, .device .null), (1, s.output), (2, .errors)]
  bindings :=
    [("PATH".toList, { value? := some (ofBytes (s.path?.getD usualPath)), isExported := true }),
      ("HOME".toList, { value? := some "/root".toList, isExported := true }),
      ("PWD".toList,
        { value? := some (ofBytes (Host.pathOf s.host.here).toBytes), isExported := true }),
      ("PPID".toList, { value? := some (toString 1000).toList }),
      ("OPTIND".toList, { value? := some ['1'] })]

/-- How the shell ended. A shell that does not come to an end counts as killed. -/
def endOf (r : Except Flow Unit) (status : Nat) : Outcome :=
  match r with
  | .error (.killed _) => .failed none
  | .error .unfinished => .failed none
  | _ => .ofExit (some (status % 256 : Nat))

/-- Run a command in a shell. -/
def Setting.call (s : Setting) (command : String) : Except Obstacle Aftermath :=
  match s.obstacle? command with
  | some o => .error o
  | none =>
    let start := s.process
    let work := conclude workBound (script workBound (ofString command))
    let (r, p) := (work.run).run start
    .ok {
      host := { p.machine.host with here := s.host.here }
      output := toBytes p.machine.output
      errors := toBytes p.machine.errors
      outcome := endOf r p.status
      interrupts := p.machine.signals.any fun x =>
        x.1 = start.caller && x.2 = Signals.interrupt }

end PollWatch.Shell
