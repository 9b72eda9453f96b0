import PollWatch.Host.Change
import PollWatch.Shell.Syntax
/-!
# Utilities

The programs that commands call. A utility gets its arguments, all of its standard input and the
host, and gives a status, what it writes, and the host as it leaves it.
-/

namespace PollWatch.Shell.Utility

/-- How a utility is called. -/
structure Call where
  name : Chars
  arguments : List Chars
  /-- All of standard input. -/
  input : Chars
  host : Host

/-- What came of a call. -/
structure Ending where
  host : Host
  status : Nat := 0
  output : Chars := []
  errors : Chars := []
  /-- Standard input was read. -/
  readsInput : Bool := false

namespace Call

/-- Nothing written and nothing changed. -/
def quiet (c : Call) (status : Nat := 0) : Ending := { host := c.host, status := status }

/-- Something written and nothing changed. -/
def prints (c : Call) (cs : Chars) : Ending := { host := c.host, output := cs }

/-- Text of a message of this utility. -/
def complaint (c : Call) (text : String) : Chars := c.name ++ (": " ++ text ++ "\n").toList

end Call

namespace Ending

/-- The ending with one more message, and a status to fail with. -/
def fault (e : Ending) (c : Call) (text : String) (status : Nat := 1) : Ending :=
  { e with errors := e.errors ++ c.complaint text, status := status }

/-- The ending with a message about a wrong call, and advice. -/
def misuse (e : Ending) (c : Call) (text : String) (status : Nat := 1) : Ending :=
  let advice := "Try '".toList ++ c.name ++ " --help' for more information.\n".toList
  { e with errors := e.errors ++ c.complaint text ++ advice, status := status }

/-- The ending with more output. -/
def add (e : Ending) (cs : Chars) : Ending := { e with output := e.output ++ cs }

end Ending

/-- The path that a word spells. -/
def toPath (cs : Chars) : Path := .ofBytes (toBytes cs)

/-- A word as a text of characters that are bytes. -/
def text (cs : Chars) : String := String.ofList cs

/-- A word between single quotes. -/
def named (cs : Chars) : String := "'" ++ text cs ++ "'"

/-- The words that are options, a letter each with its value, and the other words. Letters in
`valued` take a value, the rest of the word or the next word. Two hyphens end the options. -/
def options (valued : Chars) : List Chars → List (Char × Chars) × List Chars
  | [] => ([], [])
  | ['-', '-'] :: ws => ([], ws)
  | ('-' :: c :: r) :: ws =>
    let (plain, rest) := letters (c :: r)
    match rest with
    | [] =>
      let (os, ps) := options valued ws
      (plain ++ os, ps)
    | v :: value =>
      match value, ws with
      | [], w :: ws' =>
        let (os, ps) := options valued ws'
        (plain ++ (v, w) :: os, ps)
      | value, ws =>
        let (os, ps) := options valued ws
        (plain ++ (v, value) :: os, ps)
  | w :: ws =>
    let (os, ps) := options valued ws
    (os, w :: ps)
where
  /-- The letters in front of the first that takes a value. -/
  letters : Chars → List (Char × Chars) × Chars
    | [] => ([], [])
    | c :: r =>
      if c ∈ valued then ([], c :: r)
      else
        let (os, rest) := letters r
        ((c, []) :: os, rest)

/-- Whether an option is among those given. -/
def isGiven (os : List (Char × Chars)) (c : Char) : Bool := os.any (·.1 = c)

/-- The number that decimal digits make. -/
def decimal? (cs : Chars) : Option Nat :=
  if cs ≠ [] ∧ cs.all Char.isDigit then
    some (cs.foldl (fun n c => n * 10 + (c.toNat - '0'.toNat)) 0)
  else none

/-- The number that decimal digits make, perhaps behind a sign. -/
def integer? : Chars → Option Int
  | '-' :: r => (decimal? r).map fun n => -(n : Int)
  | '+' :: r => (decimal? r).map Int.ofNat
  | r => (decimal? r).map Int.ofNat

/-- A number as digits. -/
def shown (n : Int) : Chars := (toString n).toList

/-- The lines of a text, without their ends. -/
def linesOf : Chars → List Chars
  | [] => []
  | '\n' :: r => [] :: linesOf r
  | c :: r =>
    match linesOf r with
    | l :: ls => (c :: l) :: ls
    | [] => [[c]]

/-- The lines of a text, with their ends. -/
def linesWithEnds : Chars → List Chars
  | [] => []
  | '\n' :: r => ['\n'] :: linesWithEnds r
  | c :: r =>
    match linesWithEnds r with
    | l :: ls => (c :: l) :: ls
    | [] => [[c]]

/-- A text cut where a character stands. -/
def cutAt (d : Char) : Chars → List Chars
  | [] => [[]]
  | c :: r =>
    if c = d then [] :: cutAt d r
    else
      match cutAt d r with
      | f :: fs => (c :: f) :: fs
      | [] => [[c]]

/-- Lines as a text. -/
def unlines (ls : List Chars) : Chars := ls.flatMap (· ++ ['\n'])

/-- Read the operands one after another, standard input where there are none or for a hyphen. A
file that cannot be read gives a message. -/
def readAll (c : Call) (operands : List Chars) (complain : Chars → Errno → String) :
    List (Chars × Chars) × Ending :=
  if operands = [] then ([(['-'], c.input)], { c.quiet with readsInput := true })
  else
    operands.foldl (fun (found, e) w =>
      if w = ['-'] then (found ++ [(w, c.input)], { e with readsInput := true })
      else
        match c.host.read (toPath w) with
        | .ok b => (found ++ [(w, ofBytes b)], e)
        | .error n => (found, e.fault c (complain w n))) ([], c.quiet)

/-- The usual message about a file. -/
def plainComplaint (w : Chars) (n : Errno) : String := text w ++ ": " ++ Errno.wording n.number

/-- The usual message about a file that cannot be opened. -/
def openComplaint (w : Chars) (n : Errno) : String :=
  "cannot open " ++ named w ++ " for reading: " ++ Errno.wording n.number

end PollWatch.Shell.Utility
