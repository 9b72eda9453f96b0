import PollWatch.Shell.Syntax
/-!
# Signals of processes

The signals by number and name, and what they do to a process that has made no arrangements.
-/

namespace PollWatch.Shell.Signals

/-- The names of the signals, beginning with number one. -/
def names : List String :=
  ["HUP", "INT", "QUIT", "ILL", "TRAP", "ABRT", "BUS", "FPE", "KILL", "USR1", "SEGV", "USR2",
    "PIPE", "ALRM", "TERM", "STKFLT", "CHLD", "CONT", "STOP", "TSTP", "TTIN", "TTOU", "URG", "XCPU",
    "XFSZ", "VTALRM", "PROF", "WINCH", "IO", "PWR", "SYS"]

/-- The name of a signal; zero stands for the end of a shell. -/
def nameOf (n : Nat) : String := if n = 0 then "EXIT" else (names[n - 1]?).getD (toString n)

/-- The signal that ends the work of the user's program. -/
def interrupt : Nat := 2

/-- The signal that cannot be caught. -/
def kill : Nat := 9

/-- The signal that is sent when none is named. -/
def terminate : Nat := 15

/-- Signals that a process lives through: they tell of something or halt it for a while. -/
def isHarmless (n : Nat) : Bool := n ∈ [0, 17, 18, 19, 20, 21, 22, 23, 28]

/-- The number of a signal given by number or name; zero is no signal, or the end of a shell. -/
def ofChars? (cs : Chars) : Option Nat :=
  if cs ≠ [] ∧ cs.all Char.isDigit then
    let n := cs.foldl (fun n c => n * 10 + (c.toNat - '0'.toNat)) 0
    if n ≤ 64 then some n else none
  else
    let upper := cs.map Char.toUpper
    let short := if "SIG".toList.isPrefixOf upper then upper.drop 3 else upper
    if short = "EXIT".toList then some 0
    else (names.findIdx? fun s => s.toList = short).map (· + 1)

/-- What the shell says of a process that a signal has ended; nothing of an interrupt. -/
def farewell (n : Nat) : Chars :=
  match n with
  | 1 => "Hangup".toList
  | 2 => []
  | 3 => "Quit".toList
  | 4 => "Illegal instruction".toList
  | 6 => "Aborted".toList
  | 8 => "Floating point exception".toList
  | 9 => "Killed".toList
  | 10 => "User defined signal 1".toList
  | 11 => "Segmentation fault".toList
  | 12 => "User defined signal 2".toList
  | 13 => []
  | 14 => "Alarm clock".toList
  | 15 => "Terminated".toList
  | n => ("Signal " ++ toString n).toList

end PollWatch.Shell.Signals
