import PollWatch.Shell.Utility.Regex
/-!
# Searching lines

Showing the lines in which a regular expression, one of several, or a plain text is found.
-/

namespace PollWatch.Shell.Utility

/-- A text with its letters in lower case. -/
def lowered (cs : Chars) : Chars := cs.map Char.toLower

/-- The ends of a text, the longest first. -/
def ends : Chars → List Chars
  | [] => [[]]
  | c :: r => (c :: r) :: ends r

/-- Show the lines in which an expression is found. -/
def grep (c : Call) : Ending :=
  let (os, ws) := options ['e', 'm'] c.arguments
  let (expression?, files) := match os.lookup 'e', ws with
    | some x, ws => (some x, ws)
    | none, x :: ws => (some x, ws)
    | none, [] => (none, [])
  match expression? with
  | none => { c.quiet with
      errors := ("Usage: grep [OPTION]... PATTERNS [FILE]...\n"
        ++ "Try 'grep --help' for more information.\n").toList
      status := 2 }
  | some x =>
    let fold (cs : Chars) : Chars := if isGiven os 'i' then lowered cs else cs
    let extended := isGiven os 'E'
    let choices := if extended then cutAt '|' x else cutAt '\n' x
    let found (l : Chars) : Bool :=
      choices.any fun y =>
        if isGiven os 'F' then
          if isGiven os 'x' then fold l = fold y else (ends (fold l)).any (fold y).isPrefixOf
        else (Regex.ofChars extended (fold y)).isFound (isGiven os 'x') (fold l)
    let wanted (l : Chars) : Bool := found l != isGiven os 'v'
    let (texts, e) := readAll c files plainComplaint
    let hits := texts.map fun (w, cs) =>
      (w, (linesOf cs).zipIdx.filter fun (p : Chars × Nat) => wanted p.1)
    let any := hits.any (!·.2.isEmpty)
    let many := 2 ≤ texts.length && !isGiven os 'h'
    let front (w : Chars) : Chars := if many || isGiven os 'H' then w ++ [':'] else []
    let written :=
      if isGiven os 'q' then []
      else if isGiven os 'l' then unlines ((hits.filter (!·.2.isEmpty)).map (·.1))
      else if isGiven os 'c' then unlines (hits.map fun (w, ls) => front w ++ shown ls.length)
      else hits.flatMap fun (w, ls) => ls.flatMap fun (l, n) =>
        let number := if isGiven os 'n' then shown ((n + 1 : Nat) : Int) ++ [':'] else []
        front w ++ number ++ l ++ ['\n']
    let status :=
      if e.status ≠ 0 then (if any && isGiven os 'q' then 0 else 2)
      else if any then 0
      else 1
    { e.add written with
      status := status
      errors := if isGiven os 's' then [] else e.errors }

end PollWatch.Shell.Utility
