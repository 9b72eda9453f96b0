import PollWatch.Host.Change
import PollWatch.Shell.Syntax
/-!
# Processes of a shell

A process has variables, arguments, open descriptors and a status. All processes share a machine:
the host, what was written to the streams of the user, open files and pipes, and signals on their
way. A child begins with a copy of everything and hands back the machine alone.

Processes run one after another. A pipe therefore holds all that was written to it until its
reader comes.
-/

namespace PollWatch.Shell

/-- What a descriptor is open on. -/
inductive Channel where
  | device (d : Device)
  /-- The stream that the user reads as output. -/
  | output
  /-- The stream that the user reads as messages. -/
  | errors
  /-- An open file, by its number. -/
  | file (number : Nat)
  /-- A pipe, by its number. -/
  | pipe (number : Nat)

/-- A file that is open. -/
structure OpenFile where
  place : Place
  offset : Nat := 0
  /-- Every write goes to the end. -/
  appends : Bool := false

/-- What all processes share. -/
structure Machine where
  host : Host
  output : Chars := []
  errors : Chars := []
  files : List (Nat × OpenFile) := []
  /-- What pipes hold. -/
  pipes : List (Nat × Chars) := []
  /-- A number that no file, pipe or process has had yet. -/
  next : Nat := 1002
  /-- Signals on their way: the process and the signal. -/
  signals : List (Nat × Nat) := []

/-- A variable of a shell. -/
structure Variable where
  value? : Option Chars := none
  isExported : Bool := false
  isReadOnly : Bool := false

/-- A process that runs a shell. -/
structure Process where
  machine : Machine
  /-- The name under which the shell was called. -/
  name : Chars := "sh".toList
  /-- The number of this process. -/
  number : Nat := 1001
  /-- The number of the shell that the process belongs to. -/
  shell : Nat := 1001
  /-- The number of the process that called the shell. -/
  caller : Nat := 1000
  arguments : List Chars := []
  bindings : List (Chars × Variable) := []
  functions : List (Chars × Command) := []
  descriptors : List (Nat × Channel) :=
    [(0, .device .null), (1, .output), (2, .errors)]
  /-- The options that are set, by their letters. -/
  options : List Char := []
  /-- Commands to run on a signal; zero stands for the end of the shell. -/
  traps : List (Nat × Chars) := []
  status : Nat := 0
  line : Nat := 1
  /-- The texts of here-documents, by number. -/
  documents : List (Nat × Word) := []
  nextDocument : Nat := 0
  /-- Processes in the background with their status. -/
  jobs : List (Nat × Nat) := []
  /-- A failing command does not end the shell, because its status is looked at. -/
  isTested : Bool := false
  /-- The command of the shell that is being carried out. -/
  speaker? : Option Chars := none
  /-- How many loops are being run. -/
  loops : Nat := 0
  /-- For each function being run, the variables to be put back behind it. -/
  frames : List (List (Chars × Option Variable)) := []
  /-- The status of the last command substitution in the present command. -/
  substituted? : Option Nat := none

/-- Why a command does not go on. -/
inductive Flow where
  | breaks (loops : Nat)
  | continues (loops : Nat)
  | returns
  /-- The process ends with its status. -/
  | exits
  /-- A signal ends the process. -/
  | killed (signal : Nat)
  /-- The work is not over within its bound. -/
  | unfinished

/-- An action of a process, which may stop the present command. -/
abbrev Act := ExceptT Flow (StateM Process)

namespace Machine

/-- A machine with one more number taken. -/
def take (m : Machine) : Nat × Machine := (m.next, { m with next := m.next + 1 })

/-- The bytes of `old` with `new` put at an offset. -/
def overwrite (old new : Bytes) (offset : Nat) : Bytes :=
  old.take offset ++ List.replicate (offset - old.length) 0 ++ new ++ old.drop (offset + new.length)

/-- Write to an open file. A file that has been removed takes everything. -/
def writeFile (m : Machine) (number : Nat) (f : OpenFile) (cs : Chars) : Machine :=
  match m.host.get? f.place with
  | some (.file content _ x) =>
    let offset := if f.appends then content.length else f.offset
    let new := overwrite content (toBytes cs) offset
    let moved := { f with offset := offset + cs.length }
    { m with
      host := m.host.tick.2.set f.place (.file new m.host.tick.1 x)
      files := (number, moved) :: m.files.filter (·.1 ≠ number) }
  | _ => m

/-- Write to a channel. -/
def write (m : Machine) (c : Channel) (cs : Chars) : Except Errno Machine :=
  match c with
  | .device .null => .ok m
  | .device .full => if cs = [] then .ok m else .error .noSpace
  | .output => .ok { m with output := m.output ++ cs }
  | .errors => .ok { m with errors := m.errors ++ cs }
  | .file n =>
    match m.files.lookup n with
    | some f => if cs = [] then .ok m else .ok (m.writeFile n f cs)
    | none => .ok m
  | .pipe n =>
    .ok { m with
      pipes := (n, (m.pipes.lookup n).getD [] ++ cs) :: m.pipes.filter (·.1 ≠ n) }

/-- What can be read from a channel. -/
def available (m : Machine) (c : Channel) : Chars :=
  match c with
  | .file n =>
    match m.files.lookup n with
    | some f =>
      match m.host.get? f.place with
      | some (.file content _ _) => ofBytes (content.drop f.offset)
      | _ => []
    | none => []
  | .pipe n => (m.pipes.lookup n).getD []
  | _ => []

/-- Take as many bytes from a channel. -/
def consume (m : Machine) (c : Channel) (count : Nat) : Machine :=
  match c with
  | .file n =>
    match m.files.lookup n with
    | some f =>
      { m with
        files := (n, { f with offset := f.offset + count }) :: m.files.filter (·.1 ≠ n) }
    | none => m
  | .pipe n =>
    { m with
      pipes := (n, ((m.pipes.lookup n).getD []).drop count) :: m.pipes.filter (·.1 ≠ n) }
  | _ => m

/-- Open a file or a device. -/
def openPlace (m : Machine) (q : Place) (appends : Bool) : Channel × Machine :=
  match m.host.get? q with
  | some (.device d) => (.device d, m)
  | _ =>
    (.file m.next,
      { m with
        files := (m.next, { place := q, appends := appends }) :: m.files
        next := m.next + 1 })

end Machine

namespace Process

/-- The value of a variable. -/
def value? (p : Process) (name : Chars) : Option Chars := (p.bindings.lookup name).bind (·.value?)

/-- Put a variable in place of the one of that name. -/
def setVariable (p : Process) (name : Chars) (v : Variable) : Process :=
  { p with bindings := (name, v) :: p.bindings.filter (·.1 ≠ name) }

/-- Take a variable away. -/
def dropVariable (p : Process) (name : Chars) : Process :=
  { p with bindings := p.bindings.filter (·.1 ≠ name) }

/-- The characters that separate fields. -/
def separators (p : Process) : Chars := (p.value? "IFS".toList).getD " \t\n".toList

/-- Whether an option is set. -/
def has (p : Process) (o : Char) : Bool := o ∈ p.options

end Process

namespace Act

/-- Stop the present command. -/
def stop {α : Type} (f : Flow) : Act α := throw f

/-- Set the status. -/
def setStatus (n : Nat) : Act Unit := modify fun p => { p with status := n }

/-- Write to a descriptor. -/
def write (fd : Nat) (cs : Chars) : Act (Except Errno Unit) := do
  let p ← get
  match p.descriptors.lookup fd with
  | none => return .error ⟨9⟩
  | some c =>
    match p.machine.write c cs with
    | .ok m => do
      set { p with machine := m }
      return .ok ()
    | .error e => return .error e

/-- Write a message of the shell, which names the line and the command that is speaking. -/
def warn (text : Chars) : Act Unit := do
  let p ← get
  let front := [p.name, (toString p.line).toList] ++ p.speaker?.toList
  let _ ← write 2 ((front.flatMap fun cs => cs ++ ": ".toList) ++ text ++ ['\n'])

/-- End the shell over a fault, with a message. -/
def abort {α : Type} (text : Chars) : Act α := do
  warn text
  setStatus 2
  stop .exits

/-- Give a variable a value, and keep what else is known of it. -/
def assign (name value : Chars) : Act Unit := do
  let p ← get
  let old := (p.bindings.lookup name).getD {}
  if old.isReadOnly then abort (name ++ ": is read only".toList)
  else
    let exports := old.isExported || p.has 'a'
    set (p.setVariable name { old with value? := some value, isExported := exports })

/-- All that can be read from standard input. -/
def drain : Act Chars := do
  let p ← get
  match p.descriptors.lookup 0 with
  | none => return []
  | some c => do
    let cs := p.machine.available c
    set { p with machine := p.machine.consume c cs.length }
    return cs

end Act

end PollWatch.Shell
