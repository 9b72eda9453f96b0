import PollWatch.Shell.Condition
import PollWatch.Shell.Print
import PollWatch.Shell.Utility.Files
import PollWatch.Shell.Utility.Grep
import PollWatch.Shell.Utility.Sed
import PollWatch.Shell.Utility.Text
/-!
# The utilities of a host

Utilities by their names, and where programs are found.
-/

namespace PollWatch.Shell.Utility

/-- Evaluate an operator between two words, or the length of a word. -/
def expr (c : Call) : Ending :=
  let result (v : Chars) : Ending :=
    { c.prints (v ++ ['\n']) with status := if v = [] ∨ integer? v = some 0 then 1 else 0 }
  let truth (b : Bool) : Ending := result (if b then ['1'] else ['0'])
  match c.arguments with
  | [a] => result a
  | [o, a] =>
    if o = "length".toList then result (shown a.length) else c.quiet.misuse c "syntax error" 2
  | [a, o, b] =>
    match integer? a, integer? b, String.ofList o with
    | some x, some y, "+" => result (shown (x + y))
    | some x, some y, "-" => result (shown (x - y))
    | some x, some y, "*" => result (shown (x * y))
    | some x, some y, "/" =>
      if y = 0 then c.quiet.fault c "division by zero" 2 else result (shown (Int.tdiv x y))
    | some x, some y, "%" =>
      if y = 0 then c.quiet.fault c "division by zero" 2 else result (shown (Int.tmod x y))
    | some x, some y, "<" => truth (x < y)
    | some x, some y, "<=" => truth (x ≤ y)
    | some x, some y, ">" => truth (y < x)
    | some x, some y, ">=" => truth (y ≤ x)
    | some x, some y, "=" => truth (x = y)
    | some x, some y, "!=" => truth (x ≠ y)
    | _, _, "=" => truth (a = b)
    | _, _, "!=" => truth (a ≠ b)
    | _, _, "+" => c.quiet.fault c "non-integer argument" 2
    | _, _, "-" => c.quiet.fault c "non-integer argument" 2
    | _, _, "*" => c.quiet.fault c "non-integer argument" 2
    | _, _, "/" => c.quiet.fault c "non-integer argument" 2
    | _, _, "%" => c.quiet.fault c "non-integer argument" 2
    | _, _, _ => c.quiet.misuse c "syntax error" 2
  | [] => c.quiet.misuse c "missing operand" 2
  | _ => c.quiet.misuse c "syntax error" 2

/-- Test a condition. -/
def test (c : Call) : Ending :=
  let value := if c.name = ['['] then Condition.holdsInBrackets c.host c.arguments
    else Condition.holds c.host c.arguments
  match value with
  | .ok b => c.quiet (if b then 0 else 1)
  | .error f => c.quiet.fault c (text f.message) 2

/-- Print arguments in a format. -/
def printf (c : Call) : Ending :=
  match c.arguments with
  | [] => c.quiet.misuse c "missing operand"
  | f :: ws =>
    let r := Print.format f ws
    let e := r.faults.foldl (fun e m => e.fault c (text m)) (c.prints r.output)
    match r.bad? with
    | some d => e.fault c (text d ++ ": invalid directive")
    | none => e

/-- Wait. Here that takes no time. -/
def sleep (c : Call) : Ending :=
  if c.arguments = [] then c.quiet.misuse c "missing operand"
  else
    match c.arguments.find? fun w => !(w.all fun d => d.isDigit || d ∈ ".smhd".toList) || w = [] with
    | some w => c.quiet.misuse c ("invalid time interval " ++ named w)
    | none => c.quiet

/-- Repeat a line. It goes on until nobody reads, which here is after some thousand lines. -/
def yes (c : Call) : Ending :=
  let line := if c.arguments = [] then ['y'] else [' '].intercalate c.arguments
  { c.prints (unlines (List.replicate 5000 line)) with status := 141 }

/-- The utility of a name. -/
def ofName? (name : Chars) : Option (Call → Ending) :=
  match String.ofList name with
  | "true" => some (·.quiet)
  | "false" => some (·.quiet 1)
  | "sync" => some (·.quiet)
  | "sleep" => some sleep
  | "echo" => some fun c => c.prints (Print.echo c.arguments)
  | "printf" => some printf
  | "test" => some test
  | "[" => some test
  | "expr" => some expr
  | "cat" => some cat
  | "head" => some head
  | "tail" => some tail
  | "wc" => some wc
  | "tr" => some tr
  | "sort" => some sort
  | "uniq" => some uniq
  | "cut" => some cut
  | "rev" => some rev
  | "tac" => some tac
  | "seq" => some seq
  | "grep" => some grep
  | "sed" => some sed
  | "find" => some find
  | "yes" => some yes
  | "touch" => some touch
  | "rm" => some rm
  | "mkdir" => some mkdir
  | "rmdir" => some rmdir
  | "mv" => some mv
  | "cp" => some cp
  | "ln" => some ln
  | "ls" => some ls
  | "readlink" => some readlink
  | "chmod" => some chmod
  | "basename" => some basename
  | "dirname" => some dirname
  | "tee" => some tee
  | "stat" => some stat
  | _ => none

/-- Programs that call other programs. -/
def callers : List String :=
  ["sh", "dash", "env", "nice", "nohup", "printenv", "timeout", "which", "xargs"]

/-- Whether a program of this name comes with the host. -/
def isInstalled (name : Chars) : Bool := (ofName? name).isSome || callers.any (·.toList = name)

/-- The directories in which the programs of the host stand. -/
def directories : List String := ["/bin", "/usr/bin"]

end PollWatch.Shell.Utility
