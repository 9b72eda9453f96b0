import PollWatch.Shell.Pattern
import PollWatch.Shell.Print
import PollWatch.Shell.Process
/-!
# Values of parameters

What the parameters of a shell stand for, and what an expansion does to a value: the sign for the
home directory is replaced, line ends are cut off, and so is what a pattern matches.
-/

namespace PollWatch.Shell

/-- The values of the parameter that stands for all arguments, or one value. -/
inductive Value where
  | unset
  | one (cs : Chars)
  | all (css : List Chars)

/-- The value of a parameter. -/
def Process.parameter (p : Process) (name : Chars) : Value :=
  match name with
  | ['@'] => .all p.arguments
  | ['*'] => .all p.arguments
  | ['#'] => .one (toString p.arguments.length).toList
  | ['?'] => .one (toString p.status).toList
  | ['-'] => .one p.options.reverse
  | ['$'] => .one (toString p.shell).toList
  | ['!'] =>
    match p.jobs with
    | (n, _) :: _ => .one (toString n).toList
    | [] => .one []
  | ['0'] => .one p.name
  | cs =>
    if cs.all Char.isDigit then
      match p.arguments[Print.number cs - 1]? with
      | some v => .one v
      | none => .unset
    else
      match p.value? cs with
      | some v => .one v
      | none => .unset

/-- A word with the sign for the home directory at its beginning replaced. -/
def Process.expandHome (p : Process) (w : Word) : Word :=
  match w with
  | .plain ('~' :: r) :: ps =>
    let home := (p.value? "HOME".toList).getD ['~']
    match r, ps with
    | [], [] => [.quoted home]
    | '/' :: _, ps => .quoted home :: .plain r :: ps
    | _, _ => w
  | _ => w

/-- Text without the line ends at its end. -/
def withoutLineEnds (cs : Chars) : Chars := (cs.reverse.dropWhile (· = '\n')).reverse

/-- Cut a match of a pattern off one end of a text. -/
def stripped (atEnd longest : Bool) (pattern : List Glyph) (cs : Chars) : Chars :=
  let counts := List.range (cs.length + 1)
  let counts := if longest then counts.reverse else counts
  let part (n : Nat) : Chars := if atEnd then cs.drop (cs.length - n) else cs.take n
  match counts.find? fun n => patternMatches pattern (part n) with
  | some n => if atEnd then cs.take (cs.length - n) else cs.drop n
  | none => cs

end PollWatch.Shell
