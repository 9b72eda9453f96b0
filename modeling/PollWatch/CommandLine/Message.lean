import PollWatch.CommandLine.Parse
import PollWatch.Text.Plain
import PollWatch.Text.Similarity
import PollWatch.Text.Utf8
/-!
# What a command line is answered

The texts of the help and the version, and of every reason why a command line is refused.
-/

namespace PollWatch.CommandLine

/-- Lines, each with its end. -/
def lines (l : List String) : String := String.join (l.map (· ++ "\n"))

/-- The help in short. -/
def shortHelp : String :=
  lines [
    "Rerun a command whenever the newest modification time under the watched paths changes.",
    "",
    "Usage: ifchanged [OPTIONS] <PATH>... <COMMAND>",
    "",
    "Arguments:",
    "  [PATH... COMMAND]...  Files or directories to watch, followed by the command to run",
    "",
    "Options:",
    "      --interval-ms <MS>   Poll interval in milliseconds [default: 1000]",
    "      --once               Run a single poll cycle and exit",
    "      --log-level <LEVEL>  Logging level (error, warn, info, debug, trace) [possible values: error, warn, info, debug, trace]",
    "  -h, --help               Print help (see more with '--help')",
    "  -V, --version            Print version"]

/-- The help in full. -/
def fullHelp : String :=
  lines [
    "Rerun a command whenever the newest modification time under the watched paths changes.",
    "",
    "Usage: ifchanged [OPTIONS] <PATH>... <COMMAND>",
    "",
    "Arguments:",
    "  [PATH... COMMAND]...",
    "          Files or directories to watch, followed by the command to run",
    "",
    "Options:",
    "      --interval-ms <MS>",
    "          Poll interval in milliseconds",
    "          ",
    "          [default: 1000]",
    "",
    "      --once",
    "          Run a single poll cycle and exit",
    "",
    "      --log-level <LEVEL>",
    "          Logging level (error, warn, info, debug, trace).",
    "          ",
    "          If omitted, `IFCHANGED_LOG` or a default level will be used.",
    "          ",
    "          [possible values: error, warn, info, debug, trace]",
    "",
    "  -h, --help",
    "          Print help (see a summary with '-h')",
    "",
    "  -V, --version",
    "          Print version"]

/-- The version. -/
def versionText : String := lines ["ifchanged 0.1.0"]

/-- A text between single quotes. -/
def inQuotes (s : String) : String := "'" ++ s ++ "'"

/-- The lines that end every refusal. -/
def seeHelp : List String := ["", "For more information, try '--help'."]

/-- The lines that show how to call the program. -/
def showUsage : List String := ["", "Usage: ifchanged [OPTIONS] <PATH>... <COMMAND>"]

/-- The line that lists the values of an option. -/
def possibleValues : String :=
  "  [possible values: " ++ ", ".intercalate (LogLevel.all.map LogLevel.word) ++ "]"

/-- The line about a similar word, if there is one. -/
def similar (kind : String) (written : String) (words : List String) (hyphens : String) :
    List String :=
  match Text.closest? written.toList words with
  | some w => ["  tip: a similar " ++ kind ++ " exists: " ++ inQuotes (hyphens ++ w)]
  | none => []

namespace Stop

/-- The lines of an answer to a refused command line. -/
def refusal : Stop → List String
  | .help _ => []
  | .version => []
  | .missing o =>
    ["error: a value is required for " ++ inQuotes o.display ++ " but none was supplied"]
      ++ (if o = .level then [possibleValues] else []) ++ seeHelp
  | .invalidLevel value =>
    let written := Text.Utf8.lossy value
    let tip := similar "value" written (LogLevel.all.map LogLevel.word) ""
    ["error: invalid value " ++ inQuotes written ++ " for " ++ inQuotes OptionName.level.display,
      possibleValues] ++ (if tip = [] then [] else "" :: tip) ++ seeHelp
  | .invalidInterval value why =>
    ["error: invalid value " ++ inQuotes value ++ " for "
      ++ inQuotes OptionName.interval.display ++ ": " ++ why.message] ++ seeHelp
  | .unneeded o value =>
    ["error: unexpected value " ++ inQuotes (Text.Utf8.lossy value) ++ " for "
      ++ inQuotes o.display ++ " found; no more were expected"] ++ showUsage ++ seeHelp
  | .repeated o =>
    ["error: the argument " ++ inQuotes o.display ++ " cannot be used multiple times"]
      ++ showUsage ++ seeHelp
  | .unknown name =>
    let written := Text.Utf8.lossy name
    ["error: unexpected argument " ++ inQuotes ("--" ++ written) ++ " found", ""]
      ++ similar "argument" written (OptionName.all.map OptionName.word) "--"
      ++ ["  tip: to pass " ++ inQuotes ("--" ++ written) ++ " as a value, use "
        ++ inQuotes ("-- --" ++ written)] ++ showUsage ++ seeHelp
  | .notText =>
    ["error: invalid UTF-8 was detected in one or more arguments"] ++ showUsage ++ seeHelp

/-- The text that answers a command line without an invocation. -/
def message : Stop → String
  | .help true => fullHelp
  | .help false => shortHelp
  | .version => versionText
  | s => Text.plain (lines s.refusal)

/-- Whether the command line was refused. Help and version are given as asked for. -/
def isRefusal : Stop → Bool
  | .help _ => false
  | .version => false
  | _ => true

end Stop

end PollWatch.CommandLine
