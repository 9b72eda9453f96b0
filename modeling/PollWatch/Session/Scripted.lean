import PollWatch.FileTree.Resolve
import PollWatch.Session.Basic
import PollWatch.Signal
/-!
# Sessions over a file tree in memory

Here the surroundings are a tree that changes only when told to, a script that says how each run
of the command ends and what it changes meanwhile, a stream that refuses the completion line of
chosen runs, and a stop signal that fires at chosen moments. Everything that happens is recorded.
-/

namespace PollWatch

/-- What one run of the command does. -/
structure ScriptedRun where
  /-- How it ends; none if the shell cannot be started. -/
  outcome? : Option Outcome := some .success
  /-- Changes of the tree while the command runs. -/
  effects : List FileTree.Change := []
  /-- The stop signal fires while the command runs, after its changes. -/
  stops : Bool := false

/-- How the surroundings behave over the whole session. -/
structure Script where
  /-- The runs of the command in order. Any further run succeeds and changes nothing. -/
  runs : List ScriptedRun := []
  /-- After how many runs of the command the completion line is refused. -/
  refusesLine : List Nat := []
  /-- After how many runs of the command the line is written but cannot be flushed. -/
  refusesFlush : List Nat := []
  /-- Looking at this path kills the scan. -/
  deadly? : Option Path := none
  /-- The stop signal fires while the wait of this number, counted from zero, is pending. -/
  stopsWait : Nat → Bool := fun _ => false

/-- The state of the surroundings. -/
structure Stage where
  script : Script
  tree : FileTree
  signal : Signal := {}
  /-- The commands run so far. -/
  commands : List String := []
  /-- What was written so far. -/
  output : String := ""
  /-- The waits begun so far. -/
  waits : Nat := 0

namespace Stage

/-- Apply changes one after another. A change that overflows ends the series; those before it
stay. -/
def applyAll (t : FileTree) : List FileTree.Change → Except TimeOverflow Unit × FileTree
  | [] => (.ok (), t)
  | c :: cs =>
    match t.apply c with
    | .ok u => applyAll u cs
    | .error e => (.error e, t)

/-- Scan the tree, unless that means looking at the deadly path. -/
def look (s : Stage) (paths : List Path) : Except Failure (List Finding) :=
  let found := s.tree.view.scan paths
  match s.script.deadly? with
  | none => .ok found
  | some d =>
    if found.any fun f => f.path.key = d.key then .error (.other "the scan died" [])
    else .ok found

/-- Run the command as the script says. It counts as run before its changes are made. -/
def perform (command : String) (s : Stage) : Performance × Stage :=
  let r := s.script.runs.getD s.commands.length {}
  let counted := { s with commands := s.commands ++ [command] }
  match applyAll s.tree r.effects with
  | (.error e, t) => (.crashed e.message, { counted with tree := t })
  | (.ok (), t) =>
    let after := { counted with
      tree := t
      signal := if r.stops then s.signal.fire else s.signal }
    match r.outcome? with
    | some o => (.ended o, after)
    | none =>
      (.notRun (.command ("spawning shell for command '" ++ command ++ "': not found")), after)

/-- Write and flush the completion line. -/
def announce (s : Stage) : Except WriteFault Unit × Stage :=
  if s.commands.length ∈ s.script.refusesLine then (.error (.refused "write refused"), s)
  else
    let written := { s with output := s.output ++ completionLine }
    if s.commands.length ∈ s.script.refusesFlush then (.error (.refused "flush refused"), written)
    else (.ok (), written)

/-- Wait once. The signal may have fired before the wait, or fire during it. -/
def rest (_intervalMs : Nat) (s : Stage) : Bool × Stage :=
  let signal := if s.script.stopsWait s.waits then s.signal.fire else s.signal
  (signal.fired, { s with signal := signal, waits := s.waits + 1 })

/-- The surroundings that a stage makes. Progress is not recorded. -/
def surroundings : Surroundings Stage where
  look := look
  perform := perform
  announce := announce
  rest := rest
  note _ s := s

end Stage

end PollWatch
