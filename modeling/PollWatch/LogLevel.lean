import PollWatch.Bytes
import PollWatch.Text.Blank
import PollWatch.Text.Lowercase
/-!
# How much is logged

The level is given on the command line by one of five words, or else by an environment variable,
where case and surrounding white space do not matter and one word has a second spelling. Without
either, warnings and errors are logged.
-/

namespace PollWatch

/-- How much is logged. Each level includes the ones before it. -/
inductive LogLevel where
  | error
  | warn
  | info
  | debug
  | trace
deriving DecidableEq, Repr

namespace LogLevel

/-- The levels, the quietest first. -/
def all : List LogLevel := [.error, .warn, .info, .debug, .trace]

/-- The word for a level. -/
def word : LogLevel → String
  | .error => "error"
  | .warn => "warn"
  | .info => "info"
  | .debug => "debug"
  | .trace => "trace"

/-- The name under which a level stands in log lines. -/
def label : LogLevel → String
  | .error => "ERROR"
  | .warn => "WARN"
  | .info => "INFO"
  | .debug => "DEBUG"
  | .trace => "TRACE"

/-- How many levels are quieter. -/
def rank : LogLevel → Nat
  | .error => 0
  | .warn => 1
  | .info => 2
  | .debug => 3
  | .trace => 4

/-- The level that has exactly this word. -/
def ofBytes? (b : Bytes) : Option LogLevel := all.find? fun l => Bytes.ofString l.word = b

/-- The level of a lower-case word; a warning may also be called `warning`. -/
def ofWord? (cs : List Char) : Option LogLevel :=
  if cs = "warning".toList then some .warn else all.find? fun l => l.word.toList = cs

/-- The level that a text asks for, up to case and surrounding white space. -/
def ofText? (cs : List Char) : Option LogLevel := ofWord? (Text.lowercaseAll (Text.trim cs))

/-- The level in force: the one from the command line, else the one that the environment asks
for, else warnings. An environment value that is not text counts as absent. -/
def choose (given? : Option LogLevel) (environment? : Option Bytes) : LogLevel :=
  match given? with
  | some l => l
  | none => ((environment?.bind Bytes.text?).bind fun s => ofText? s.toList).getD .warn

end LogLevel

end PollWatch
