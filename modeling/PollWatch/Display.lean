import PollWatch.Session.Basic
import PollWatch.Text.Quoted
/-!
# Values in messages

How durations, watches, options, outcomes and summaries are written in messages: a name, and in
braces the fields with their names.
-/

namespace PollWatch

/-- A named value with fields in braces. -/
def record (name : String) (fields : List (String × String)) : String :=
  name ++ " \x7b " ++ ", ".intercalate (fields.map fun f => f.1 ++ ": " ++ f.2) ++ " \x7d"

/-- A value that may be absent. -/
def optional {α : Type} (shown : α → String) : Option α → String
  | none => "None"
  | some a => "Some(" ++ shown a ++ ")"

/-- Digits without the zeros at their end. -/
def withoutLastZeros (cs : List Char) : List Char := (cs.reverse.dropWhile (· = '0')).reverse

/-- A duration in milliseconds, written in the largest of three units that it reaches. -/
def durationText (milliseconds : Nat) : String :=
  if milliseconds = 0 then "0ns"
  else if milliseconds < 1000 then toString milliseconds ++ "ms"
  else
    let fraction := withoutLastZeros (Timestamp.lastDigits 3 milliseconds)
    toString (milliseconds / 1000) ++ (if fraction = [] then "" else "." ++ String.ofList fraction)
      ++ "s"

/-- A list of paths. -/
def pathsText (ps : List Path) : String := "[" ++ ", ".intercalate (ps.map Path.quoted) ++ "]"

/-- A watch specification with its fields. -/
def WatchSpec.text (s : WatchSpec) : String :=
  record "WatchSpec" [("paths", pathsText s.paths), ("command", Text.quotedString s.command)]

/-- A watch in progress with its fields. -/
def Watch.text (w : Watch) : String :=
  record "WatchState" [("paths", pathsText w.paths), ("command", Text.quotedString w.command),
    ("previous", "Timestamp(" ++ toString w.previous.nanos ++ ")")]

/-- Options with their fields. -/
def Options.text (o : Options) : String :=
  record "RuntimeOptions" [("interval", durationText o.intervalMs),
    ("max_cycles", optional toString o.maxCycles)]

/-- The counts of a run with their names. -/
def Summary.text (c : Summary) : String :=
  record "RunSummary" [("cycles", toString c.cycles), ("triggers", toString c.triggers)]

/-- An outcome with what is known of it. -/
def Outcome.text : Outcome → String
  | .success => "Success"
  | .failed code => "Failed(" ++ optional toString code ++ ")"
  | .spawnFailed m => "SpawnFailed(" ++ Text.quotedString m ++ ")"

/-- A watch on a host together with its options. -/
def Watch.textWith (w : Watch) (o : Options) : String :=
  "Runtime \x7b fs: RealFileSystem, state: " ++ w.text ++ ", options: " ++ o.text ++ ", .. \x7d"

/-- The class of an error number. -/
def Errno.category (e : Errno) : String :=
  match e.number with
  | 1 => "PermissionDenied"
  | 2 => "NotFound"
  | 4 => "Interrupted"
  | 7 => "ArgumentListTooLong"
  | 11 => "WouldBlock"
  | 12 => "OutOfMemory"
  | 13 => "PermissionDenied"
  | 16 => "ResourceBusy"
  | 17 => "AlreadyExists"
  | 18 => "CrossesDevices"
  | 20 => "NotADirectory"
  | 21 => "IsADirectory"
  | 22 => "InvalidInput"
  | 26 => "ExecutableFileBusy"
  | 27 => "FileTooLarge"
  | 28 => "StorageFull"
  | 29 => "NotSeekable"
  | 30 => "ReadOnlyFilesystem"
  | 31 => "TooManyLinks"
  | 32 => "BrokenPipe"
  | 35 => "Deadlock"
  | 36 => "InvalidFilename"
  | 38 => "Unsupported"
  | 39 => "DirectoryNotEmpty"
  | 40 => "FilesystemLoop"
  | 122 => "QuotaExceeded"
  | _ => "Uncategorized"

/-- A failure with its kind and all that is known of it. -/
def Failure.text : Failure → String
  | .usage t => "Usage(" ++ Text.quotedString t ++ ")"
  | .io (.errno e) =>
    "IoError(" ++ record "Os" [("code", toString e.number), ("kind", e.category),
      ("message", Text.quotedString (Errno.wording e.number))] ++ ")"
  | .io (.refused t) =>
    "IoError(" ++ record "Custom" [("kind", "Other"), ("error", Text.quotedString t)] ++ ")"
  | .command t => "CommandError(" ++ Text.quotedString t ++ ")"
  | .other t _ => "Other(" ++ t ++ ")"

end PollWatch
