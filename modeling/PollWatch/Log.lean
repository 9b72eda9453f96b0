import PollWatch.Display
import PollWatch.LogLevel
/-!
# Log lines

What a session and the runs of its command tell about themselves, as lines with a level and the
part of the program that they come from. Lines above the level in force are left out.
-/

namespace PollWatch

/-- One message of the log. -/
structure LogLine where
  level : LogLevel
  /-- The part of the program that speaks. -/
  origin : String
  message : String
  /-- Values with their names. -/
  fields : List (String × String) := []

namespace LogLine

/-- Whether a line is shown at a level. -/
def isShown (limit : LogLevel) (l : LogLine) : Bool := l.level.rank ≤ limit.rank

/-- A line as it is written, without its end. -/
def text (l : LogLine) : String :=
  l.level.label ++ " " ++ l.origin ++ ": " ++ l.message
    ++ String.join (l.fields.map fun f => " " ++ f.1 ++ "=" ++ f.2)

/-- The origin of lines about the whole program. -/
def program : String := "ifchanged"

/-- The origin of lines about polling. -/
def polling : String := "ifchanged::engine::runtime"

/-- The origin of lines about scanning. -/
def scanning : String := "ifchanged::watch::scan"

/-- The origin of lines about commands. -/
def commands : String := "ifchanged::exec::shell"

end LogLine

open LogLine

/-- The line about something found, if it is worth one. -/
def Finding.line? : Finding → Option LogLine
  | .revisited p =>
    some ⟨.debug, scanning, "directory already scanned; skipping", [("path", p.quoted)]⟩
  | .unlisted p f =>
    some ⟨.debug, scanning, "cannot list directory; skipping",
      [("path", p.quoted), ("error", f.summary)]⟩
  | .skipped p (.fault f) =>
    some ⟨.debug, scanning, "cannot read modification time; skipping",
      [("path", p.quoted), ("error", f.summary)]⟩
  | _ => none

/-- The lines about a scan. -/
def scanLines (found : List Finding) : List LogLine :=
  found.filterMap Finding.line? ++
    [⟨.trace, scanning, "scan finished", [("latest", (latestOf found).text),
      ("entries", toString (Report.ofFindings found).entries.length)]⟩]

/-- The lines about a step of a session. -/
def Notice.lines : Notice → List LogLine
  | .started spec interval =>
    [⟨.info, polling, "ifchanged runtime started", [("paths", pathsText spec.paths),
      ("command", spec.command), ("interval_ms", toString interval)]⟩]
  | .scanned found => scanLines found
  | .unchanged t => [⟨.trace, polling, "no change", [("current", t.text)]⟩]
  | .changed s t =>
    [⟨.info, polling, "change detected; running command",
      [("previous", s.text), ("current", t.text)]⟩]
  | .notRun command m =>
    [⟨.error, polling, "command could not be run", [("command", command), ("error", m)]⟩]
  | .finished o => [⟨.debug, polling, "command finished", [("outcome", o.text)]⟩]
  | .limitReached n =>
    [⟨.info, polling, "cycle limit reached; stopping runtime", [("cycles", toString n)]⟩]
  | .stopping => [⟨.info, polling, "shutdown requested; stopping runtime", []⟩]
  | .exiting cycles triggers =>
    [⟨.info, polling, "runtime exiting",
      [("cycles", toString cycles), ("triggers", toString triggers)]⟩]

/-- The line before a command is run. -/
def startLine (command : String) : LogLine :=
  ⟨.info, commands, "starting command", [("command", command)]⟩

/-- The line about how a command ended. -/
def endLine (command : String) (o : Outcome) : LogLine :=
  match o with
  | .success => ⟨.debug, commands, "command exited successfully", [("command", command)]⟩
  | o =>
    ⟨.warn, commands, "command exited unsuccessfully", [("command", command), ("outcome", o.text)]⟩

/-- The line before a run of the whole program. -/
def openingLine (spec : WatchSpec) (o : Options) : LogLine :=
  ⟨.debug, program, "starting ifchanged", [("spec", spec.text), ("options", o.text)]⟩

/-- The line after a run of the whole program. -/
def closingLine (c : Summary) : LogLine :=
  ⟨.info, program, "ifchanged stopped", [("summary", c.text)]⟩

end PollWatch
