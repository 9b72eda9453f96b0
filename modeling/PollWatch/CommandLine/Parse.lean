import PollWatch.CommandLine.Basic
import PollWatch.CommandLine.Interval
import PollWatch.CommandLine.Token
/-!
# Understanding a command line

Options stand first, each at most once. The first word that is no option, or the first word behind
the separator, begins the operands, and everything from there on is an operand as it stands.

The value of an option may be its next word. It is looked at only when the word after it has been
seen: a word there that no reading could save is reported instead of a faulty value.
-/

namespace PollWatch.CommandLine

/-- Why a command line gives no invocation. -/
inductive Stop where
  /-- The help was asked for, in full or in short. -/
  | help (full : Bool)
  /-- The version was asked for. -/
  | version
  /-- An option lacks its value. -/
  | missing (o : OptionName)
  /-- The value is no log level. -/
  | invalidLevel (value : Bytes)
  /-- The value is no interval. -/
  | invalidInterval (value : String) (why : IntervalFault)
  /-- A value stands behind an option that takes none. -/
  | unneeded (o : OptionName) (value : Bytes)
  /-- An option stands twice. -/
  | repeated (o : OptionName)
  /-- An option whose name is not text. -/
  | unknown (name : Bytes)
  /-- A value or an operand that is not text. -/
  | notText

/-- The options seen so far. -/
structure Seen where
  interval? : Option Nat := none
  once : Bool := false
  level? : Option LogLevel := none

namespace Seen

/-- The invocation of these options and operands. -/
def invocation (s : Seen) (operands : List String) : Invocation :=
  ⟨s.interval?.getD 1000, s.once, s.level?, operands⟩

/-- Note an interval. -/
def setInterval (s : Seen) (value : Bytes) : Except Stop Seen :=
  if s.interval?.isSome then .error (.repeated .interval)
  else match Bytes.text? value with
    | none => .error .notText
    | some text =>
      match readInterval value with
      | .ok n => .ok { s with interval? := some n }
      | .error why => .error (.invalidInterval text why)

/-- Note a log level. An empty value counts as none. -/
def setLevel (s : Seen) (value : Bytes) : Except Stop Seen :=
  if s.level?.isSome then .error (.repeated .level)
  else match LogLevel.ofBytes? value with
    | some l => .ok { s with level? := some l }
    | none => if value = [] then .error (.missing .level) else .error (.invalidLevel value)

/-- Note an option that takes a value. -/
def set (s : Seen) (o : OptionName) (value : Bytes) : Except Stop Seen :=
  match o with
  | .interval => s.setInterval value
  | .level => s.setLevel value
  | _ => .error (.unneeded o value)

/-- Note an option that takes no value. -/
def setFlag (s : Seen) (o : OptionName) (full : Bool) : Except Stop Seen :=
  match o with
  | .once => if s.once then .error (.repeated .once) else .ok { s with once := true }
  | .help => .error (.help full)
  | .version => .error .version
  | _ => .error (.missing o)

end Seen

/-- An option that is not settled yet. -/
inductive Pending where
  | nothing
  /-- An option that waits for its value. -/
  | awaiting (o : OptionName)
  /-- An option with the word that follows it. -/
  | holding (o : OptionName) (value : Bytes)

/-- Settle what is pending. -/
def Pending.settle (p : Pending) (s : Seen) : Except Stop Seen :=
  match p with
  | .nothing => .ok s
  | .awaiting o => .error (.missing o)
  | .holding o value => s.set o value

/-- All words from here on are operands. -/
def readOperands (s : Seen) (words : List Bytes) : Except Stop Invocation :=
  match words.mapM Bytes.text? with
  | some operands => .ok (s.invocation operands)
  | none => .error .notText

/-- Read the words of a command line, with what is pending and seen so far. -/
def readWords (p : Pending) (s : Seen) : List Bytes → Except Stop Invocation
  | [] => do
    let s ← p.settle s
    readOperands s []
  | w :: ws =>
    match Token.ofWord w with
    | .unreadable name => .error (.unknown name)
    | .separator => do
      let s ← p.settle s
      readOperands s ws
    | .short o => do
      let s ← p.settle s
      let s ← s.setFlag o false
      readWords .nothing s ws
    | .named o none =>
      if o.takesValue then do
        let s ← p.settle s
        readWords (.awaiting o) s ws
      else do
        let s ← p.settle s
        let s ← s.setFlag o true
        readWords .nothing s ws
    | .named o (some value) =>
      if o.takesValue then do
        let s ← p.settle s
        let s ← s.set o value
        readWords .nothing s ws
      else .error (.unneeded o value)
    | .operand =>
      match p with
      | .awaiting o => readWords (.holding o w) s ws
      | p => do
        let s ← p.settle s
        readOperands s (w :: ws)

/-- The invocation of a command line, whose first word is the program's name. -/
def parse (words : List Bytes) : Except Stop Invocation := readWords .nothing {} (words.drop 1)

end PollWatch.CommandLine
