import PollWatch.Bytes
/-!
# The words of a command line

A word is the separator `--`, one of the program's options with or without a value behind `=`, a
group of short options, or an operand. Options that the program does not know are operands: they
may be paths or part of the command.
-/

namespace PollWatch.CommandLine

/-- The options of the program. -/
inductive OptionName where
  | interval
  | once
  | level
  | help
  | version
deriving DecidableEq

namespace OptionName

/-- The options, in the order in which the help lists them. -/
def all : List OptionName := [.interval, .once, .level, .help, .version]

/-- The name behind the two hyphens. -/
def word : OptionName → String
  | .interval => "interval-ms"
  | .once => "once"
  | .level => "log-level"
  | .help => "help"
  | .version => "version"

/-- An option as messages show it, with the name of its value. -/
def display : OptionName → String
  | .interval => "--interval-ms <MS>"
  | .level => "--log-level <LEVEL>"
  | o => "--" ++ o.word

/-- Whether the option is followed by a value. -/
def takesValue : OptionName → Bool
  | .interval => true
  | .level => true
  | _ => false

/-- The option of this name. -/
def ofBytes? (b : Bytes) : Option OptionName := all.find? fun o => Bytes.ofString o.word = b

end OptionName

/-- The kinds of words. -/
inductive Token where
  /-- The word `--`. -/
  | separator
  /-- An option of the program, with the value behind `=` if there is one. -/
  | named (o : OptionName) (value? : Option Bytes)
  /-- A group of short options; the first of them decides. -/
  | short (o : OptionName)
  /-- A word like an option whose name is not text. -/
  | unreadable (name : Bytes)
  /-- Any other word. -/
  | operand
deriving DecidableEq

/-- The code of a hyphen. -/
def hyphen : UInt8 := 45

/-- Cut at the first `=`, which belongs to neither part. -/
def splitValue : Bytes → Bytes × Option Bytes
  | [] => ([], none)
  | b :: bs =>
    if b = 61 then ([], some bs)
    else (b :: (splitValue bs).1, (splitValue bs).2)

/-- The option that a short letter stands for. -/
def shortOption? (b : UInt8) : Option OptionName :=
  if b = 104 then some .help else if b = 86 then some .version else none

/-- The kind of a word that begins with two hyphens, from what stands behind them. -/
def Token.ofLong (b : Bytes) : Token :=
  if b = [] then .separator
  else if (Bytes.text? (splitValue b).1).isNone then .unreadable (splitValue b).1
  else match OptionName.ofBytes? (splitValue b).1 with
    | some o => .named o (splitValue b).2
    | none => .operand

/-- The kind of a word that begins with one hyphen, from what stands behind it. It is a group of
short options only if all its letters are. -/
def Token.ofShort (b : Bytes) : Token :=
  match b.mapM shortOption? with
  | some (o :: _) => .short o
  | _ => .operand

/-- The kind of a word. -/
def Token.ofWord (w : Bytes) : Token :=
  match w with
  | a :: b :: rest =>
    if a = hyphen then
      if b = hyphen then .ofLong rest else .ofShort (b :: rest)
    else .operand
  | _ => .operand

end PollWatch.CommandLine
